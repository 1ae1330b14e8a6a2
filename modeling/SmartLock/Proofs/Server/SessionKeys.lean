/-
# Whose keys the sessions of a server have

A session that runs ought to have its key under the secret of a registered server
(`Server.Authorised`).  In a run in which a server is set up before the first central subscribes,
this holds all the time exactly if no stranger is let in by a login (`authorised_run_iff`).  A
stranger is a session whose registration had been answered, but whose link had not taken the answer:
it keeps the key of that registration although nobody is registered with it.

`strandedRun` is a run in which that happens.
-/
import SmartLock.Proofs.Server.Sessions

namespace SmartLock.Server

/-! ## Owners -/

/-- Every session that runs belongs to a registered server, and has its key under the secret of that
server. -/
def Authorised (s : Server) : Prop :=
  ∀ session ∈ s.sessions, session.state = .running → session.OwnedBy s.station

/-- A login succeeds for a session that does not have its key from the owner of the server. -/
def AdmitsStranger (s : Server) (m : Moment) (id : SessionId) : Prop :=
  s.Accepts m id .login ∧
    ∀ session, s.session? id = some session → ¬ session.OwnedBy s.station

/-- Whether a request subscribes a central. -/
def Request.isSubscription : Request → Bool
  | .subscribed .. => true
  | _ => false

/-- Whether a request sets the secret of a registered server. -/
def Request.isSetUp : Request → Bool
  | .setRegistered _ => true
  | _ => false

/-- A server is set up only before the first central subscribes. -/
def SetUpFirst (ms : List Moment) : Prop :=
  ms.Pairwise fun earlier later =>
    ¬ (earlier.request.isSubscription = true ∧ later.request.isSetUp = true)

instance (ms : List Moment) : Decidable (SetUpFirst ms) := by
  unfold SetUpFirst
  infer_instance

/-- What holds of a longer run holds of a shorter one. -/
theorem SetUpFirst.of_append {before after : List Moment} (h : SetUpFirst (before ++ after)) :
    SetUpFirst before := (List.pairwise_append.mp h).1

/-- Without a subscription there is no session. -/
theorem sessions_run_eq_nil {random : RandomSource} {maxSessions : Nat} {ms : List Moment}
    (h : ∀ m ∈ ms, m.request.isSubscription = false) :
    ((Server.new random maxSessions).run ms).1.sessions = [] := by
  induction ms using List.reverseRecOn with
  | nil => exact sessions_new random maxSessions
  | append_singleton ms m ih =>
      have hnone := ih fun m hm => h m (List.mem_append_left _ hm)
      rw [run_concat, List.eq_nil_iff_forall_not_mem]
      intro session hsession
      cases session_step hsession with
      | kept old hold => simp [hnone] at hold
      | dropped old hold => simp [hnone] at hold
      | opened id now hrequest =>
          have hm := h m (by simp)
          simp [hrequest, Request.isSubscription] at hm
      | loggedIn old hold =>
          have hmem := (mem_of_session? hold).1
          simp [hnone] at hmem
      | registered haccepts =>
          obtain ⟨⟨fragment, old, -, -, -, hold, -⟩, -⟩ := haccepts
          have hmem := (mem_of_session? hold).1
          simp [hnone] at hmem
      | stranded old hold => simp [hnone] at hold

/-- A server with sessions is not set up any more. -/
theorem not_isSetUp_of_mem {random : RandomSource} {maxSessions : Nat} {ms : List Moment}
    {m : Moment} (hms : SetUpFirst (ms ++ [m])) {session : Session}
    (h : session ∈ ((Server.new random maxSessions).run (ms ++ [m])).1.sessions) :
    m.request.isSetUp = false := by
  -- A set-up in the last step would mean that no central has subscribed so far.
  by_contra hsetUp
  rw [Bool.not_eq_false] at hsetUp
  have hself : m.request.isSubscription = false := by
    cases hrequest : m.request <;> simp_all [Request.isSetUp, Request.isSubscription]
  have hnone : ∀ m' ∈ ms ++ [m], m'.request.isSubscription = false := by
    intro m' hmem
    rcases List.mem_append.mp hmem with hmem | hmem
    · have hnot := (List.pairwise_append.mp hms).2.2 m' hmem m (by simp)
      by_contra hsub
      exact hnot ⟨by simpa using hsub, hsetUp⟩
    · rw [List.mem_singleton.mp hmem]
      exact hself
  simp [sessions_run_eq_nil hnone] at h

/-- Once a server is registered, nothing but a set-up changes its owner. -/
theorem owner_step {s : Server} {m : Moment} (hregistered : s.station.registered = true)
    (hsetUp : m.request.isSetUp = false) :
    (s.step m.host m.request).server.station.registered = s.station.registered ∧
      (s.step m.host m.request).server.station.secret = s.station.secret := by
  rcases station_step m.host s m.request with hsame | ⟨secret, hrequest⟩ |
    ⟨id, fragment, old, -, -, hstation⟩
  · exact hsame
  · simp [hrequest, Request.isSetUp] at hsetUp
  · rw [hstation, station_onFragment hregistered]
    exact ⟨rfl, rfl⟩

/-- A session that is owned stays so as long as it has its key. -/
theorem ownedBy_step {s : Server} {m : Moment} {old session : Session}
    (hold : old.OwnedBy s.station) (hsetUp : m.request.isSetUp = false)
    (hnonce : session.nonce = old.nonce)
    (hkey : session.channel.cipher.key = old.channel.cipher.key) :
    session.OwnedBy (s.step m.host m.request).server.station := by
  obtain ⟨hregistered, hsecret⟩ := owner_step hold.1 hsetUp
  exact hold.of_eq hnonce hkey hregistered hsecret

/-! ## Every key has an owner, or has been stranded -/

/-- In every run, a session with a key has it from the owner of the server, or from a registration
whose answer was not taken. -/
theorem owned_or_stranded_run {random : RandomSource} {maxSessions : Nat} {ms : List Moment}
    (hms : SetUpFirst ms) {session : Session}
    (h : session ∈ ((Server.new random maxSessions).run ms).1.sessions)
    (hkey : session.channel.cipher.hasKey = true) :
    session.OwnedBy ((Server.new random maxSessions).run ms).1.station ∨
      (Server.new random maxSessions).Happens ms fun s m => s.StrandsRegistration m session.id := by
  induction ms using List.reverseRecOn generalizing session with
  | nil => simp [run] at h
  | append_singleton ms m ih =>
      have hsetUp := not_isSetUp_of_mem hms h
      rw [run_concat] at h ⊢
      -- What a session has had before the step, it still has if it has kept its key.
      have hkept {old : Session} (hold : old ∈ ((Server.new random maxSessions).run ms).1.sessions)
          (hid : session.id = old.id) (hnonce : session.nonce = old.nonce)
          (hsame : session.channel.cipher.key = old.channel.cipher.key) :
          session.OwnedBy
              (((Server.new random maxSessions).run ms).1.step m.host m.request).server.station ∨
            (Server.new random maxSessions).Happens (ms ++ [m]) fun s m =>
              s.StrandsRegistration m session.id := by
        rw [Cipher.hasKey, hsame] at hkey
        rcases ih hms.of_append hold hkey with howned | hhappens
        · exact .inl (ownedBy_step howned hsetUp hnonce hsame)
        · exact .inr (happens_concat.mpr (.inl (hid ▸ hhappens)))
      cases session_step h with
      | kept old hold hlike => exact hkept hold hlike.id hlike.nonce hlike.key
      | dropped old hold now hlike =>
          rw [Cipher.hasKey, hlike.key, Session.drop, Session.channel_setState] at hkey
          cases hkey
      | opened id now hrequest hstate hopened =>
          rcases hopened with hnone | howned
          · simp [Cipher.hasKey, hnone] at hkey
          · exact .inl (ownedBy_step howned hsetUp rfl rfl)
      | loggedIn old hold haccepts hold' hlike =>
          apply hkept (mem_of_session? hold).1
          · rw [hlike.id, Session.id_setState]
          · rw [hlike.nonce, Session.nonce_setState]
          · rw [hlike.key, Session.channel_setState]
      | registered haccepts hstate howned => exact .inl howned
      | stranded old hold hid hstate hnew hkey' hstrands =>
          exact .inr (happens_concat.mpr (.inr hstrands))

/-! ## Strangers -/

/-- A login that succeeds lets its session run, with the key that it has had. -/
theorem running_of_accepts_login {s : Server} {m : Moment} {id : SessionId}
    (h : s.Accepts m id .login) :
    ∃ old session, s.session? id = some old ∧ old.channel.cipher.hasKey = true ∧
      session ∈ (s.step m.host m.request).server.sessions ∧
      session.Like (old.setState .running s.station.now) ∧
      (s.step m.host m.request).server.station = s.station := by
  obtain ⟨⟨fragment, old, payload, authenticated, hrequest, hold, hreceived⟩, hresult⟩ := h
  have hmem := (mem_of_session? hold).1
  rw [hrequest, receive_of_session? hold, onFragment_login hreceived] at hresult ⊢
  dsimp only at hresult ⊢
  -- Of the three ways in which a login can end, only one is a success.
  obtain ⟨hstation, ⟨-, hnot⟩ | ⟨-, hdropped⟩ | ⟨hcode, hlike, -⟩⟩ := onLogin_cases m.host
    { station := s.station
      session := { old with channel := (old.channel.receive fragment).1 } } payload
  · exact absurd hresult hnot
  · cases hdropped.symm.trans hresult
  · have hsame : Session.Like { old with channel := (old.channel.receive fragment).1 } old :=
      ⟨rfl, rfl, Channel.key_receive .., rfl⟩
    have hlike' := hlike.trans (hsame.setState .running s.station.now)
    refine ⟨old, _, hold, ?_, ?_, hlike', hstation⟩
    · rw [Cipher.hasKey, ← hsame.key]
      exact Cipher.hasKey_of_verifyCode hcode
    · rw [mem_sessions]
      apply mem_replaceIn_self (mem_sessions.mp hmem)
      rw [hlike'.id, Session.id_setState]

/-- A stranger has its key from a registration whose answer was not taken. -/
theorem stranded_of_admitsStranger {random : RandomSource} {maxSessions : Nat} {ms : List Moment}
    (hms : SetUpFirst ms) {m : Moment} {id : SessionId}
    (h : ((Server.new random maxSessions).run ms).1.AdmitsStranger m id) :
    (Server.new random maxSessions).Happens ms fun s m => s.StrandsRegistration m id := by
  obtain ⟨haccepts, hstranger⟩ := h
  obtain ⟨old, session, hold, hkey, -⟩ := running_of_accepts_login haccepts
  obtain ⟨hmem, hid⟩ := mem_of_session? hold
  rcases owned_or_stranded_run hms hmem hkey with howned | hhappens
  · exact absurd howned (hstranger old hold)
  · exact hid ▸ hhappens

/-- A step that lets a stranger in leaves a running session that is not authorised. -/
theorem not_authorised_of_admitsStranger {s : Server} {m : Moment} {id : SessionId}
    (h : s.AdmitsStranger m id) : ¬ (s.step m.host m.request).server.Authorised := by
  obtain ⟨haccepts, hstranger⟩ := h
  obtain ⟨old, session, hold, -, hmem, hlike, hstation⟩ := running_of_accepts_login haccepts
  intro hauthorised
  have howned := hauthorised session hmem (by rw [hlike.state, Session.state_setState])
  rw [hstation] at howned
  apply hstranger old hold
  apply howned.of_eq
  · rw [hlike.nonce, Session.nonce_setState]
  · rw [hlike.key, Session.channel_setState]
  · rfl
  · rfl

/-- A step that lets no stranger in keeps all running sessions authorised. -/
theorem authorised_step {s : Server} {m : Moment} (hs : s.Authorised)
    (hsetUp : (s.step m.host m.request).server.sessions ≠ [] → m.request.isSetUp = false)
    (hm : ∀ id, ¬ s.AdmitsStranger m id) : (s.step m.host m.request).server.Authorised := by
  intro session h hrunning
  have hsetUp := hsetUp (List.ne_nil_of_mem h)
  cases session_step h with
  | kept old hold hlike =>
      exact ownedBy_step (hs old hold (hlike.state ▸ hrunning)) hsetUp hlike.nonce hlike.key
  | dropped old hold now hlike =>
      rw [hlike.state, Session.drop, Session.state_setState] at hrunning
      cases hrunning
  | opened id now hrequest hstate hkey => exact absurd hrunning hstate
  | loggedIn old hold haccepts hkey hlike =>
      have howned : old.OwnedBy s.station := by
        by_contra hnot
        refine hm session.id ⟨haccepts, fun other hother => ?_⟩
        rw [hold] at hother
        exact Option.some.inj hother ▸ hnot
      apply ownedBy_step howned hsetUp
      · rw [hlike.nonce, Session.nonce_setState]
      · rw [hlike.key, Session.channel_setState]
  | registered haccepts hstate howned => exact howned
  | stranded old hold hid hstate hnew hkey hstrands =>
      -- A session that runs on a server without an owner would not have been authorised.
      have hregistered := (hs old hold (hstate ▸ hrunning)).1
      simp [hnew] at hregistered

/-- **When running sessions are authorised.**  In a run in which a server is set up before the first
central subscribes, every session that runs at any time belongs to a registered server and has its
key under the secret of that server, exactly if no login lets a stranger in.  A stranger is a
session of whose central an earlier registration was answered and the answer was not taken. -/
theorem authorised_run_iff (random : RandomSource) (maxSessions : Nat) {ms : List Moment}
    (hms : SetUpFirst ms) :
    ((∀ before after, ms = before ++ after →
        ((Server.new random maxSessions).run before).1.Authorised) ↔
      ∀ id, ¬ (Server.new random maxSessions).Happens ms fun s m => s.AdmitsStranger m id) ∧
    ∀ before m after id, ms = before ++ m :: after →
      ((Server.new random maxSessions).run before).1.AdmitsStranger m id →
      (Server.new random maxSessions).Happens before fun s m => s.StrandsRegistration m id := by
  constructor
  · constructor
    -- The step that lets a stranger in leaves a session that is not authorised.
    · rintro hauthorised id ⟨before, m, after, rfl, hstranger⟩
      have hafter := hauthorised (before ++ [m]) after (by simp)
      rw [run_concat] at hafter
      exact not_authorised_of_admitsStranger hstranger hafter
    -- Step by step: a server with sessions is not set up any more, so that its owner stays.
    · intro hnone before after heq
      subst heq
      induction before using List.reverseRecOn generalizing after with
      | nil => simp [Authorised, run]
      | append_singleton before m ih =>
          rw [List.append_assoc] at hms hnone
          have hbefore := ih ([m] ++ after) hms hnone
          rw [run_concat]
          apply authorised_step hbefore
          · intro hne
            obtain ⟨session, hmem⟩ := List.exists_mem_of_ne_nil _ hne
            rw [← List.append_assoc] at hms
            exact not_isSetUp_of_mem hms.of_append (by rw [run_concat]; exact hmem)
          · exact fun id hstranger => hnone id ⟨before, m, after, rfl, hstranger⟩
  · rintro before m after id rfl hstranger
    exact stranded_of_admitsStranger hms.of_append hstranger

/-- A host that welcomes registrations, and whose links take every fragment or none. -/
def registrar (takes : Bool) : ServerHost where
  takes := fun _ _ _ => takes
  registers := true

/-- A central subscribes and registers, with the public key of the private key 1, but its link does
not take the answer.  Then it logs in. -/
def strandedRun : List Moment :=
  [⟨registrar true, .loadKey PrivateKey.one.toOctets⟩,
    ⟨registrar true, .begin .sesame5 Uuid.nil⟩,
    ⟨registrar true, .subscribed 1 0⟩,
    ⟨registrar false, .receive 1
      [1, 1, 107, 23, 209, 242, 225, 44, 66, 71, 248, 188, 230, 229, 99, 164, 64, 242, 119, 3]⟩,
    ⟨registrar false, .receive 1
      [0, 125, 129, 45, 235, 51, 160, 244, 161, 57, 69, 216, 152, 194, 150, 79, 227, 66, 226, 254]⟩,
    ⟨registrar false, .receive 1
      [0, 26, 127, 155, 142, 231, 235, 74, 124, 15, 158, 22, 43, 206, 51, 87, 107, 49, 94, 206]⟩,
    ⟨registrar false, .receive 1 [2, 203, 182, 64, 104, 55, 191, 81, 245, 0, 0, 0, 0]⟩,
    ⟨registrar true, .receive 1 [3, 2, 38, 148, 234, 167]⟩]

/-- At its end a session runs, and the server is not registered. -/
theorem running_strandedRun :
    let last := ((Server.new (RandomSource.ofSeed 3) 2).run strandedRun).1
    (last.sessions.any (·.state = .running) && !last.station.registered) = true := by
  decide +kernel

/-- A server that is not registered has no authorised session that runs. -/
theorem not_authorised_of_any {s : Server}
    (h : (s.sessions.any (·.state = .running) && !s.station.registered) = true) :
    ¬ s.Authorised := by
  intro hs
  obtain ⟨hany, hregistered⟩ := Bool.and_eq_true_iff.mp h
  obtain ⟨session, hmem, hstate⟩ := List.any_eq_true.mp hany
  rw [(hs session hmem (of_decide_eq_true hstate)).1] at hregistered
  cases hregistered

/-- In this run a stranger is let in, after a registration whose answer was not taken. -/
theorem authorised_run_iff_stranded :
    SetUpFirst strandedRun ∧ ∃ id,
      (Server.new (RandomSource.ofSeed 3) 2).Happens strandedRun
          (fun s m => s.AdmitsStranger m id) ∧
        (Server.new (RandomSource.ofSeed 3) 2).Happens strandedRun
          fun s m => s.StrandsRegistration m id := by
  have hsetUp : SetUpFirst strandedRun := by decide
  obtain ⟨hiff, hstranded⟩ := authorised_run_iff (RandomSource.ofSeed 3) 2 hsetUp
  refine ⟨hsetUp, ?_⟩
  by_contra hnone
  have hauthorised := hiff.mpr fun id hstranger => hnone ⟨id, hstranger, ?_⟩
  · exact not_authorised_of_any running_strandedRun
      (hauthorised strandedRun [] (List.append_nil _).symm)
  · obtain ⟨before, m, after, heq, hevent⟩ := hstranger
    rw [heq]
    exact (hstranded before m after id heq hevent).append _

/-- Not in every run is every session that runs authorised. -/
theorem not_forall_authorised :
    ¬ ∀ (random : RandomSource) (maxSessions : Nat) (ms : List Moment), SetUpFirst ms →
      ((Server.new random maxSessions).run ms).1.Authorised := by
  intro h
  exact not_authorised_of_any running_strandedRun
    (h (RandomSource.ofSeed 3) 2 strandedRun (by decide))

end SmartLock.Server
