/-
# One registration for a server

A server tells of a registration exactly when it becomes registered with it: what the handling of a
message tells follows from the shared part before and after it (`newOwner`), through every message,
every fragment and every step.  A server that is registered stays so, so that over a whole run there
is one such notice at most, and the secret that it names is the one that the server keeps
(`Server.one_registration_run`).
-/
import SmartLock.Proofs.Server.Lockout
import SmartLock.Proofs.Server.Outputs
import SmartLock.Proofs.Server.SessionKeys

namespace SmartLock

/-- Whether an output tells that a central is registered. -/
def ServerOutput.isRegistered : ServerOutput → Bool
  | .registered .. => true
  | _ => false

namespace Server

/-- The registrations among some outputs. -/
def registrations (outputs : List ServerOutput) : List ServerOutput :=
  outputs.filter ServerOutput.isRegistered

@[simp] theorem registrations_append (first second : List ServerOutput) :
    registrations (first ++ second) = registrations first ++ registrations second :=
  List.filter_append ..

/-- Telling that a central is registered is a registration. -/
theorem mem_registrations {outputs : List ServerOutput} {id : SessionId} {secret : Key} :
    .registered id secret ∈ registrations outputs ↔ .registered id secret ∈ outputs := by
  simp [registrations, ServerOutput.isRegistered]

/-- The writes of an offer are no registrations. -/
@[simp] theorem registrations_writes (id : SessionId) (offer : Fragment.Offer) :
    registrations (Turn.writes id offer) = [] := by
  rw [registrations, List.filter_eq_nil_iff]
  intro output hmem
  obtain ⟨fragment, taken, rfl⟩ := mem_writes hmem
  simp [ServerOutput.isRegistered]

/-- Sending a message adds no registration. -/
@[simp] theorem registrations_notify (host : ServerHost) (t : Turn) (op : OpCode)
    (item : ItemCode) (body : Bytes) (encrypted : Bool) :
    registrations (t.notify host op item body encrypted).outputs = registrations t.outputs := by
  simp [Turn.notify]

/-! ## Messages -/

/-- What is to be told of the central with a given number, when the shared part has changed: that it
is registered, if nobody was before and somebody is now. -/
def newOwner (id : SessionId) (before after : Station) : List ServerOutput :=
  if before.registered = false ∧ after.registered = true then [.registered id after.secret] else []

/-- Where nobody new is registered, there is nothing to tell. -/
theorem newOwner_of_registered_eq {before after : Station}
    (h : after.registered = before.registered) (id : SessionId) : newOwner id before after = [] := by
  rw [newOwner, if_neg]
  rintro ⟨hbefore, hafter⟩
  rw [h, hbefore] at hafter
  cases hafter

/-- A registration is told exactly if the server becomes registered by it. -/
theorem registrations_onRegistration (host : ServerHost) {t : Turn}
    (ht : registrations t.outputs = []) (payload : Bytes) :
    registrations (onRegistration host t payload).outputs =
      newOwner t.session.id t.station (onRegistration host t payload).station := by
  -- A registration that is refused changes nothing.
  have hrefused (error : ServerError) : registrations (t.fail error).outputs =
      newOwner t.session.id t.station (t.fail error).station :=
    ht.trans (newOwner_of_registered_eq rfl t.session.id).symm
  rw [onRegistration]
  split
  · exact hrefused _
  split
  · exact hrefused _
  rename_i hregistered
  split
  · exact hrefused _
  split
  · exact hrefused _
  · exact hrefused _
  · rename_i secret key hsecret hkey
    let keyed : Turn :=
      { t with
        station := { t.station with secret := secret }
        session := t.session.withSecret secret }
    have hsent : registrations (keyed.notify host .response .registration
        (registrationBody keyed.station key) false).outputs = [] := by
      rw [registrations_notify]
      exact ht
    -- The answer decides: only when it has been taken, there is a new owner.
    rcases result_notify host keyed .response .registration (registrationBody keyed.station key)
      false with hok | ⟨error, herror⟩
    · rw [andThen_of_ok hok]
      dsimp only
      rw [registrations_append, Turn.setState, hsent, List.nil_append, newOwner,
        if_pos ⟨by simpa using hregistered, rfl⟩]
      rfl
    · have hsame : newOwner t.session.id t.station keyed.station = [] := by
        apply newOwner_of_registered_eq
        rfl
      rw [andThen_of_error herror]
      exact hsent.trans hsame.symm

/-- What a fragment tells of registrations follows from what it does to the shared part. -/
theorem registrations_onFragment (host : ServerHost) (station : Station) (session : Session)
    (fragment : Bytes) : registrations (onFragment host station session fragment).outputs =
      newOwner session.id station (onFragment host station session fragment).station := by
  by_cases h : ∃ payload authenticated, (session.channel.receive fragment).2 =
      .complete (ItemCode.registration.code :: payload) authenticated
  · obtain ⟨payload, authenticated, hreceived⟩ := h
    rw [onFragment_registration hreceived]
    exact registrations_onRegistration host rfl payload
  -- Any other fragment tells of no registration, and leaves the owner alone.
  · have hnone : registrations (onFragment host station session fragment).outputs = [] := by
      rw [registrations, List.filter_eq_nil_iff]
      intro output hmem
      cases reaction_onFragment hmem with
      | registered secret payload authenticated hreceived hresult =>
          exact absurd ⟨payload, authenticated, hreceived⟩ h
      | _ => simp [ServerOutput.isRegistered]
    rw [hnone, newOwner_of_registered_eq]
    cases onFragment_effect host station session fragment with
    | keep hstation => rw [hstation]
    | drop hstation => rw [hstation]
    | login payload authenticated hreceived hcode hstation => rw [hstation]
    | register payload authenticated hreceived =>
        exact absurd ⟨payload, authenticated, hreceived⟩ h
    | strand payload authenticated hreceived =>
        exact absurd ⟨payload, authenticated, hreceived⟩ h

/-! ## Steps -/

/-- What a fragment of the central with a given number makes a server tell of registrations. -/
theorem registrations_receive (host : ServerHost) (s : Server) (id : SessionId)
    (fragment : Bytes) :
    registrations (s.step host (.receive id fragment)).outputs =
      newOwner id s.station (s.step host (.receive id fragment)).server.station := by
  cases hsession : s.session? id with
  | none =>
      rw [step, receive, hsession, newOwner_of_registered_eq rfl]
      rfl
  | some session =>
      obtain ⟨-, rfl⟩ := mem_of_session? hsession
      rw [receive_of_session? hsession]
      exact registrations_onFragment host s.station session fragment

/-- Everything else makes it tell of none. -/
theorem registrations_eq_nil {host : ServerHost} {s : Server} {request : Request}
    (h : ∀ id fragment, request ≠ .receive id fragment) :
    registrations (s.step host request).outputs = [] := by
  rw [registrations, List.filter_eq_nil_iff]
  intro output hmem
  rcases mem_outputs_step hmem with ⟨id, fragment, session, hrequest, -⟩ |
    ⟨id, fragment, taken, rfl⟩ | ⟨now, session, -, -, -, rfl⟩
  · exact absurd hrequest (h id fragment)
  · simp [ServerOutput.isRegistered]
  · simp [ServerOutput.isRegistered]

/-- A server tells of a registration exactly in a step in which a fragment makes it registered, and
names the secret that it has from then on. -/
theorem registered_mem_step_iff {s : Server} {m : Moment} {id : SessionId} {secret : Key} :
    .registered id secret ∈ (s.step m.host m.request).outputs ↔
      (∃ fragment, m.request = .receive id fragment) ∧ s.station.registered = false ∧
        (s.step m.host m.request).server.station.registered = true ∧
        secret = (s.step m.host m.request).server.station.secret := by
  obtain ⟨host, request⟩ := m
  dsimp only
  rw [← mem_registrations]
  by_cases h : ∃ other fragment, request = .receive other fragment
  · obtain ⟨other, fragment, rfl⟩ := h
    rw [registrations_receive, newOwner]
    split
    · rename_i hnew
      simp only [List.mem_singleton, ServerOutput.registered.injEq, Request.receive.injEq, hnew,
        true_and, exists_and_left, exists_eq', and_true]
      rw [eq_comm (a := id)]
    · rename_i hnot
      simp only [List.not_mem_nil, false_iff]
      exact fun hall => hnot ⟨hall.2.1, hall.2.2.1⟩
  · push Not at h
    rw [registrations_eq_nil h]
    simp only [List.not_mem_nil, false_iff]
    exact fun hall => h id hall.1.choose hall.1.choose_spec

/-- Only a set-up or a fragment makes a server registered. -/
theorem receive_of_registered {s : Server} {m : Moment} (hsetUp : m.request.isSetUp = false)
    (hbefore : s.station.registered = false)
    (hafter : (s.step m.host m.request).server.station.registered = true) :
    ∃ id fragment, m.request = .receive id fragment := by
  rcases station_step m.host s m.request with ⟨hsame, -⟩ | ⟨secret, hrequest⟩ |
    ⟨id, fragment, old, hrequest, -⟩
  · rw [hsame, hbefore] at hafter
    cases hafter
  · simp [hrequest, Request.isSetUp] at hsetUp
  · exact ⟨id, fragment, hrequest⟩

/-- A step tells of one registration at most, and of none when the server is registered before it or
is not registered after it. -/
theorem length_registrations_step_le (s : Server) (m : Moment) :
    (registrations (s.step m.host m.request).outputs).length ≤
      if s.station.registered = false ∧
        (s.step m.host m.request).server.station.registered = true then 1 else 0 := by
  by_cases h : ∃ id fragment, m.request = .receive id fragment
  · obtain ⟨id, fragment, hrequest⟩ := h
    rw [hrequest, registrations_receive, newOwner]
    split <;> simp
  · push Not at h
    rw [registrations_eq_nil h]
    exact Nat.zero_le _

/-! ## Runs -/

/-- In a run there is one registration at most, and none as long as nobody is registered. -/
theorem length_registrations_run_le (s : Server) (ms : List Moment) :
    (registrations (s.run ms).2).length ≤
      if (s.run ms).1.station.registered = true then 1 else 0 := by
  induction ms using List.reverseRecOn with
  | nil => exact Nat.zero_le _
  | append_singleton ms m ih =>
      have hstep := length_registrations_step_le (s.run ms).1 m
      rw [run_concat, registrations_append, List.length_append]
      dsimp only
      -- Once registered, the server stays so, and has nothing to tell any more.
      cases hbefore : (s.run ms).1.station.registered with
      | false =>
          simp only [hbefore, Bool.false_eq_true, if_false] at ih
          simp only [hbefore, true_and] at hstep
          omega
      | true =>
          simp only [hbefore, if_true] at ih
          simp only [hbefore, Bool.true_eq_false, false_and, if_false] at hstep
          rw [if_pos (registered_step hbefore m)]
          omega

/-- As long as nobody sets it up, a registered server keeps its owner. -/
theorem owner_run {s : Server} (hregistered : s.station.registered = true) {ms : List Moment}
    (hms : ∀ m ∈ ms, m.request.isSetUp = false) :
    (s.run ms).1.station.registered = true ∧
      (s.run ms).1.station.secret = s.station.secret := by
  induction ms using List.reverseRecOn with
  | nil => exact ⟨hregistered, rfl⟩
  | append_singleton ms m ih =>
      obtain ⟨hbefore, hsecret⟩ := ih fun m' hm => hms m' (List.mem_append_left _ hm)
      obtain ⟨hafter, hsame⟩ := owner_step hbefore (hms m (by simp))
      rw [run_concat]
      exact ⟨hafter.trans hbefore, hsame.trans hsecret⟩

/-- **One registration.**  In a run of a server that nobody sets up, one registration is told at
most.  It is told exactly in the step in which a fragment makes the server registered, for the
central that has sent it and with the secret that the server has then; and nothing else makes the
server registered.  From then on the server keeps this owner to the end of the run, and no fragment
of any central changes what its sessions share. -/
theorem one_registration_run (s : Server) {ms : List Moment}
    (hms : ∀ m ∈ ms, m.request.isSetUp = false) :
    (registrations (s.run ms).2).length ≤ 1 ∧
      (∀ before m after, ms = before ++ m :: after →
        let old := (s.run before).1
        let new := (old.step m.host m.request).server
        (∀ id secret, .registered id secret ∈ (old.step m.host m.request).outputs ↔
          (∃ fragment, m.request = .receive id fragment) ∧ old.station.registered = false ∧
            new.station.registered = true ∧ secret = new.station.secret) ∧
        (old.station.registered = false → new.station.registered = true →
          ∃ id fragment, m.request = .receive id fragment)) ∧
      ∀ before after, ms = before ++ after → (s.run before).1.station.registered = true →
        (s.run ms).1.station.registered = true ∧
          (s.run ms).1.station.secret = (s.run before).1.station.secret ∧
          ∀ host id fragment, ((s.run before).1.step host (.receive id fragment)).server.station =
            (s.run before).1.station := by
  refine ⟨?_, ?_, ?_⟩
  · have hle := length_registrations_run_le s ms
    split at hle <;> omega
  · rintro before m after rfl old new
    exact ⟨fun id secret => registered_mem_step_iff, receive_of_registered (hms m (by simp))⟩
  · rintro before after rfl hregistered
    have hafter := owner_run hregistered fun m hm => hms m (List.mem_append_right _ hm)
    rw [run_append]
    refine ⟨hafter.1, hafter.2, fun host id fragment => ?_⟩
    cases hsession : (s.run before).1.session? id with
    | none => rw [step, receive, hsession]
    | some session =>
        rw [receive_of_session? hsession]
        exact station_onFragment hregistered host session fragment

/-- A central sends a registration with the public key of the private key 1, and the answer is taken
or not. -/
def registers (takes : Bool) (id : SessionId) : List Moment :=
  (Fragment.split false (ItemCode.registration.code :: PrivateKey.one.publicKey.toBytes ++
    writeUInt32 0)).map fun fragment => ⟨registrar takes, .receive id fragment⟩

/-- Two centrals race: the first one does not take the answer, the second one does, and then the
first one tries again. -/
def registrationRace : List Moment :=
  [⟨registrar true, .begin .sesame5 Uuid.nil⟩, ⟨registrar true, .subscribed 1 0⟩,
    ⟨registrar true, .subscribed 2 0⟩] ++
  registers false 1 ++ registers true 2 ++ registers true 1

/-- Only one of them has registered. -/
theorem one_registration_run_race :
    (∀ m ∈ registrationRace, m.request.isSetUp = false) ∧
      ∃ id, (registrations ((Server.new (RandomSource.ofSeed 3) 2).run registrationRace).2).map
        ServerOutput.session = [id] := by
  have hms : ∀ m ∈ registrationRace, m.request.isSetUp = false := by decide +kernel
  refine ⟨hms, List.length_eq_one_iff.mp ?_⟩
  obtain ⟨hle, -, -⟩ := one_registration_run (Server.new (RandomSource.ofSeed 3) 2) hms
  have hne : (registrations ((Server.new (RandomSource.ofSeed 3) 2).run
      registrationRace).2).isEmpty = false := by decide +kernel
  rw [List.length_map]
  exact Nat.le_antisymm hle (List.length_pos_iff.mpr (List.isEmpty_eq_false_iff.mp hne))

end Server

end SmartLock
