/-
# Logins that are waited for

A session gets its key when its central subscribes, if the server is registered then.  The server
may be registered later, or with another secret, while the session goes on waiting; its key is not
made anew (`Server.key_of_openedAt`).  So a login with the code for the present secret is let in, is
refused for want of a key, or ends the session, as the server was when the central subscribed
(`Server.waiting_login_run`).

`earlySubscription` is a run in which a central subscribes too early.
-/
import SmartLock.Proofs.Server.Entrances
import SmartLock.Proofs.Server.LoginSteps

namespace SmartLock.Server

/-! ## What a login comes to -/

/-- The code that proves knowledge of the present secret to a session. -/
def rightCode (s : Server) (session : Session) : Bytes :=
  (session.keyUnder s.station.secret).toBytes.take Cipher.codeSize

/-- A code has the size of a code. -/
theorem length_rightCode (s : Server) (session : Session) :
    (s.rightCode session).length = Cipher.codeSize := by
  rw [rightCode, List.length_take, Octets.length_toBytes]
  decide

/-- The login with this code, in plain. -/
def rightLogin (s : Server) (host : ServerHost) (session : Session) : Moment :=
  ⟨host, .receive session.id (Fragment.whole false (ItemCode.login.code :: s.rightCode session))⟩

/-- It is read whatever the session has been receiving. -/
theorem completes_rightLogin {s : Server} {id : SessionId} {session : Session}
    (h : s.session? id = some session) (host : ServerHost) :
    s.Completes (s.rightLogin host session) id
      (ItemCode.login.code :: s.rightCode session) := by
  obtain ⟨-, rfl⟩ := mem_of_session? h
  have hlength : (ItemCode.login.code :: s.rightCode session).length ≤ Fragment.payloadSize := by
    rw [List.length_cons, length_rightCode]
    decide
  have hreceive := session.channel.receive_plain (List.cons_ne_nil _ _) hlength
  exact ⟨_, session, false, rfl, h, congrArg Prod.snd hreceive⟩

section Outcomes

variable {s : Server} {m : Moment} {id : SessionId} {session : Session} {code : Bytes}
  (hsession : s.session? id = some session)
  (hcompletes : s.Completes m id (ItemCode.login.code :: code))

include hsession hcompletes

/-- A login is dealt with in its session, whose key is the one before the fragment. -/
theorem step_login : ∃ channel : Channel, channel.cipher.key = session.channel.cipher.key ∧
    let t := onLogin m.host { station := s.station, session := { session with channel := channel } }
      code
    (s.step m.host m.request).result = t.result ∧
      (s.step m.host m.request).server.sessionState? id = some t.session.state := by
  obtain ⟨fragment, other, authenticated, hrequest, hother, hreceived⟩ := hcompletes
  obtain rfl : other = session := Option.some.inj (hother.symm.trans hsession)
  refine ⟨(other.channel.receive fragment).1, Channel.key_receive .., ?_, ?_⟩
  · rw [hrequest, receive_of_session? hother, onFragment_login hreceived]
  · rw [hrequest, sessionState?, session?_receive hother, onFragment_login hreceived]
    rfl

variable (hlength : code.length = Cipher.codeSize)

include hlength

/-- Without a key a login fails, and changes neither state nor key. -/
theorem login_of_no_key (hkey : session.channel.cipher.key = none) :
    (s.step m.host m.request).result = .error .keyNotShared ∧
      (s.step m.host m.request).server.sessionState? id = some session.state := by
  obtain ⟨channel, hsame, hresult, hstate⟩ := step_login hsession hcompletes
  have hhas : channel.cipher.hasKey = false := by
    rw [Cipher.hasKey, hsame, hkey]
    rfl
  rw [hresult, hstate, onLogin, if_neg (not_not_intro hlength), if_pos (by simp [hhas])]
  exact ⟨rfl, rfl⟩

/-- A code that does not fit the key ends the session. -/
theorem login_of_wrong_key {key : Key} (hkey : session.channel.cipher.key = some key)
    (hcode : code ≠ key.toBytes.take Cipher.codeSize) :
    (s.step m.host m.request).result = .error .authenticationFailed ∧
      (s.step m.host m.request).server.sessionState? id = some .idle := by
  obtain ⟨channel, hsame, hresult, hstate⟩ := step_login hsession hcompletes
  have hhas : channel.cipher.hasKey = true := by
    rw [Cipher.hasKey, hsame, hkey]
    rfl
  have hverify : channel.cipher.verifyCode code = false := by
    rw [Cipher.verifyCode, hsame, hkey]
    exact decide_eq_false hcode
  rw [hresult, hstate, onLogin, if_neg (not_not_intro hlength), if_neg (by simp [hhas]),
    if_pos (by simp [hverify])]
  exact ⟨rfl, congrArg some (Session.state_setState ..)⟩

omit hlength in
/-- A code that fits the key is let in, if the answer is taken. -/
theorem login_of_right_key {key : Key} (hkey : session.channel.cipher.key = some key)
    (hcode : code = key.toBytes.take Cipher.codeSize)
    (htakes : ∀ outputs id fragment, m.host.takes outputs id fragment = true) :
    (s.step m.host m.request).result = .ok () ∧
      (s.step m.host m.request).server.sessionState? id = some .running := by
  obtain ⟨channel, hsame, hresult, hstate⟩ := step_login hsession hcompletes
  let t : Turn := { station := s.station, session := { session with channel := channel } }
  have hkeyed : t.session.channel.cipher.key = some key := hsame.trans hkey
  rw [hresult, hstate, hcode, onLogin_eq htakes hkeyed]
  exact ⟨rfl, congrArg some (Session.state_setState ..)⟩

end Outcomes

/-! ## The key of a session that waits -/

/-- A moment of a run, between those before and after it, opens the session with a given number, and
its central does not disconnect from then on. -/
structure OpenedAt (start : Server) (before : List Moment) (m : Moment) (after : List Moment)
    (id : SessionId) : Prop where
  unused : (start.run before).1.session? id = none
  request : ∃ now, m.request = .subscribed id now
  opens : ((start.run before).1.step m.host m.request).server.hasSession id = true
  stays : ∀ later ∈ after, later.request ≠ .disconnected id

/-- What has been opened stays open one moment longer, unless the central disconnects. -/
theorem OpenedAt.concat {start : Server} {before after : List Moment} {m later : Moment}
    {id : SessionId} (h : start.OpenedAt before m after id)
    (hstays : later.request ≠ .disconnected id) :
    start.OpenedAt before m (after ++ [later]) id := by
  refine { h with stays := fun other hother => ?_ }
  rcases List.mem_append.mp hother with hother | hother
  · exact h.stays other hother
  · rw [List.mem_singleton.mp hother]
    exact hstays

/-- Every session of a server that started without any has been opened at some moment. -/
theorem exists_openedAt {random : RandomSource} {maxSessions : Nat} {ms : List Moment}
    {id : SessionId} {session : Session}
    (h : ((Server.new random maxSessions).run ms).1.session? id = some session) :
    ∃ before m after, ms = before ++ m :: after ∧
      (Server.new random maxSessions).OpenedAt before m after id := by
  induction ms using List.reverseRecOn generalizing session with
  | nil => simpa [run] using (mem_of_session? h).1
  | append_singleton ms m ih =>
      rw [run_concat] at h
      cases hold : ((Server.new random maxSessions).run ms).1.session? id with
      | none =>
          obtain ⟨now, hrequest, -⟩ := session?_step_of_eq_none hold h
          refine ⟨ms, m, [], rfl, hold, ⟨now, hrequest⟩, ?_, by simp⟩
          rw [hasSession, h]
          rfl
      | some old =>
          obtain ⟨before, m', after, rfl, hopened⟩ := ih hold
          exact ⟨before, m', after ++ [m], by simp,
            hopened.concat (ne_disconnected_of_session? h)⟩

/-- The key of a session that waits for its login is the one that it got when it was opened: under
the secret of that time, if the server was registered then, and else none, unless it has got one
from a registration whose answer was not taken. -/
structure WaitsWith (start : Server) (ms : List Moment) (then_ : Station) (id : SessionId)
    (session : Session) : Prop where
  of_registered : then_.registered = true →
    session.channel.cipher.key = some (session.keyUnder then_.secret)
  of_unregistered : then_.registered = false → ¬ start.StrandedSince ms id →
    session.channel.cipher.key = none

/-- A session that is alike has the same key. -/
theorem WaitsWith.of_like {start : Server} {ms : List Moment} {then_ : Station} {id : SessionId}
    {old new : Session} (h : start.WaitsWith ms then_ id old) (hlike : new.Like old) :
    start.WaitsWith ms then_ id new := by
  constructor
  · intro hregistered
    rw [hlike.key, h.of_registered hregistered, Session.keyUnder, Session.keyUnder, hlike.nonce]
  · intro hregistered hnot
    rw [hlike.key, h.of_unregistered hregistered hnot]

/-- A session that waits for its login after it has been opened has been greeted, and has a key if
the server is registered. -/
theorem waitsWith_opened (start : Server) (ms : List Moment) {host : ServerHost}
    {station : Station} {id : SessionId} {now : UInt32}
    (h : (opened host station id now).session.state = .waitingLogin) :
    start.WaitsWith ms station id (opened host station id now).session := by
  rw [opened] at h ⊢
  rcases greet_cases host { station with now := now, random := (station.random.draw 4).2 }
      (Session.new id (station.random.draw 4).1) with ⟨hlike, -⟩ | ⟨hlike, -⟩
  · -- The greeting has not been taken, so that the session is idle.
    rw [hlike.state] at h
    cases h
  · refine WaitsWith.of_like ⟨fun hregistered => ?_, fun hregistered hnot => ?_⟩ hlike
    · rw [if_pos hregistered, Session.channel_setState, Session.keyUnder, Session.nonce_setState]
      rfl
    · rw [if_neg (by simp [hregistered]), Session.channel_setState]
      rfl

/-- As long as the session waits, it keeps the key that it got when it was opened. -/
theorem waitsWith_of_openedAt {start : Server} {before after : List Moment} {m : Moment}
    {id : SessionId} (h : start.OpenedAt before m after id) :
    ∃ session, (start.run (before ++ m :: after)).1.session? id = some session ∧
      (session.state = .waitingLogin →
        start.WaitsWith (before ++ m :: after) (start.run before).1.station id session) := by
  induction after using List.reverseRecOn with
  | nil =>
      obtain ⟨session, hsession⟩ := Option.isSome_iff_exists.mp h.opens
      obtain ⟨now, -, rfl, -⟩ := session?_step_of_eq_none h.unused hsession
      rw [run_concat]
      exact ⟨_, hsession, waitsWith_opened start _⟩
  | append_singleton after later ih =>
      have hstays : later.request ≠ .disconnected id := h.stays later (by simp)
      obtain ⟨old, hold, hwaits⟩ := ih
        { h with stays := fun other hother => h.stays other (List.mem_append_left _ hother) }
      obtain ⟨new, hnew, -⟩ := session?_step hold hstays
      rw [← List.cons_append, ← List.append_assoc, run_concat]
      refine ⟨new, hnew, fun hwaiting => ?_⟩
      -- A session that waits has waited before, with the same key or without any.
      cases fate_step hold hnew with
      | kept hlike =>
          refine WaitsWith.of_like ?_ hlike
          obtain ⟨hregistered, hunregistered⟩ := hwaits (hlike.state ▸ hwaiting)
          exact ⟨hregistered, fun hnone hnot => hunregistered hnone fun hstranded =>
            hnot (hstranded.concat hstays)⟩
      | dropped hlockedOut =>
          rw [hlockedOut.1] at hwaiting
          cases hwaiting
      | loggedIn code hcompletes hcode haccepts hlike =>
          rw [hlike.state, Session.state_setState] at hwaiting
          cases hwaiting
      | registered haccepts hstate =>
          rw [hstate] at hwaiting
          cases hwaiting
      | stranded hstrands hstate hkey =>
          -- A registered server answers no registration.
          refine ⟨fun hregistered => ?_, fun hnone hnot => ?_⟩
          · have hstill := registered_run hregistered (m :: after)
            have hnew := (AdmitsRegistration.effect (.inr hstrands)).1
            rw [run_append] at hnew
            simp [hstill] at hnew
          · exact absurd ⟨_, later, [], rfl, hstrands, by simp⟩ hnot

/-! ## Runs -/

/-- **Logins that are waited for.**  In every run, a session that waits for its login on a
registered server has been opened at some moment by a subscription.  Then its central logs in with
the code for the present secret, and takes the answer.  If the server was registered at that moment
and has the same secret now, the login succeeds and the session runs; if the secret of that moment
leads to another code, the login fails and the session is dropped.  If the server was not registered
then, and no registration of this central has been answered without its taking the answer, the login
fails for want of a key and the session goes on waiting.  In any case the login succeeds exactly if
the code is the beginning of the key that the session has. -/
theorem waiting_login_run (random : RandomSource) (maxSessions : Nat) {ms : List Moment}
    {id : SessionId} {session : Session}
    (hregistered : ((Server.new random maxSessions).run ms).1.station.registered = true)
    (hsession : ((Server.new random maxSessions).run ms).1.session? id = some session)
    (hwaiting : session.state = .waitingLogin) :
    let start := Server.new random maxSessions
    let s := (start.run ms).1
    (∃ before m after, ms = before ++ m :: after ∧ start.OpenedAt before m after id) ∧
    ∀ before m after, ms = before ++ m :: after → start.OpenedAt before m after id →
    ∀ login : Moment, (∀ outputs id fragment, login.host.takes outputs id fragment = true) →
      s.Completes login id (ItemCode.login.code :: s.rightCode session) →
      let then_ := (start.run before).1.station
      let result := (s.step login.host login.request).result
      let state := (s.step login.host login.request).server.sessionState? id
      (then_.registered = true → then_.secret = s.station.secret →
        result = .ok () ∧ state = some .running) ∧
      (then_.registered = true →
        s.rightCode session ≠ (session.keyUnder then_.secret).toBytes.take Cipher.codeSize →
        result = .error .authenticationFailed ∧ state = some .idle) ∧
      (then_.registered = false → ¬ start.StrandedSince ms id →
        result = .error .keyNotShared ∧ state = some .waitingLogin) ∧
      (result = .ok () ∧ state = some .running ↔ ∃ key, session.channel.cipher.key = some key ∧
        s.rightCode session = key.toBytes.take Cipher.codeSize) := by
  intro start s
  refine ⟨exists_openedAt hsession, ?_⟩
  rintro before m after rfl hopened login htakes hcompletes then_ result state
  obtain ⟨same, hsame, hwaits⟩ := waitsWith_of_openedAt hopened
  obtain rfl : same = session := Option.some.inj (hsame.symm.trans hsession)
  obtain ⟨hkeyed, hunkeyed⟩ := hwaits hwaiting
  have hlength := length_rightCode s same
  refine ⟨fun hthen hsecret => ?_, fun hthen hcode => ?_, fun hthen hnot => ?_, ?_⟩
  · exact login_of_right_key hsession hcompletes (hkeyed hthen) (by rw [rightCode, hsecret]) htakes
  · exact login_of_wrong_key hsession hcompletes hlength (hkeyed hthen) hcode
  · have hrefused := login_of_no_key hsession hcompletes hlength (hunkeyed hthen hnot)
    rwa [hwaiting] at hrefused
  · constructor
    · rintro ⟨hok, -⟩
      cases hkey : same.channel.cipher.key with
      | none =>
          have hrefused := (login_of_no_key hsession hcompletes hlength hkey).1
          cases hok.symm.trans hrefused
      | some key =>
          refine ⟨key, rfl, ?_⟩
          by_contra hcode
          have hrefused := (login_of_wrong_key hsession hcompletes hlength hkey hcode).1
          cases hok.symm.trans hrefused
    · rintro ⟨key, hkey, hcode⟩
      exact login_of_right_key hsession hcompletes hkey hcode htakes

/-- A central subscribes to a server that is registered. -/
def timelySubscription : List Moment :=
  [⟨openHost, .begin .sesame5 Uuid.nil⟩, ⟨openHost, .setRegistered (Octets.zero 16)⟩,
    ⟨openHost, .subscribed 1 0⟩]

/-- A central subscribes to a server that is registered only after that. -/
def earlySubscription : List Moment :=
  [⟨openHost, .begin .sesame5 Uuid.nil⟩, ⟨openHost, .subscribed 1 0⟩,
    ⟨openHost, .setRegistered (Octets.zero 16)⟩]

/-- Who has subscribed in time is let in. -/
theorem waiting_login_run_timely :
    ((Server.new (RandomSource.ofSeed 3) 2).run timelySubscription).1.station.registered = true ∧
    ∃ session, ((Server.new (RandomSource.ofSeed 3) 2).run timelySubscription).1.session? 1 =
        some session ∧ session.state = .waitingLogin ∧
      let s := ((Server.new (RandomSource.ofSeed 3) 2).run timelySubscription).1
      (s.step openHost (s.rightLogin openHost session).request).result = .ok () := by
  have hregistered : ((Server.new (RandomSource.ofSeed 3) 2).run
      timelySubscription).1.station.registered = true := by decide +kernel
  obtain ⟨session, hsession, hwaiting⟩ := sessionState?_eq_some_iff.mp (show
    ((Server.new (RandomSource.ofSeed 3) 2).run timelySubscription).1.sessionState? 1 =
      some .waitingLogin by decide +kernel)
  refine ⟨hregistered, session, hsession, hwaiting, ?_⟩
  obtain ⟨-, hlogin⟩ := waiting_login_run (RandomSource.ofSeed 3) 2 hregistered hsession hwaiting
  have hopened : (Server.new (RandomSource.ofSeed 3) 2).OpenedAt
      [⟨openHost, .begin .sesame5 Uuid.nil⟩, ⟨openHost, .setRegistered (Octets.zero 16)⟩]
      ⟨openHost, .subscribed 1 0⟩ [] 1 :=
    ⟨by decide +kernel, ⟨0, rfl⟩, by decide +kernel, by simp⟩
  obtain ⟨hlet, -⟩ := hlogin _ _ _ rfl hopened _ (fun _ _ _ => rfl)
    (completes_rightLogin hsession openHost)
  exact (hlet (by decide +kernel) (by decide +kernel)).1

/-- Not every session that waits on a registered server is let in by the code for its secret: who has
subscribed too early is not. -/
theorem not_forall_waiting_login :
    ¬ ∀ (random : RandomSource) (maxSessions : Nat) (ms : List Moment) (id : SessionId)
      (session : Session) (login : Moment),
      ((Server.new random maxSessions).run ms).1.station.registered = true →
      ((Server.new random maxSessions).run ms).1.session? id = some session →
      session.state = .waitingLogin →
      (∀ outputs id fragment, login.host.takes outputs id fragment = true) →
      ((Server.new random maxSessions).run ms).1.Completes login id
        (ItemCode.login.code :: ((Server.new random maxSessions).run ms).1.rightCode session) →
      (((Server.new random maxSessions).run ms).1.step login.host login.request).result = .ok () ∧
        (((Server.new random maxSessions).run ms).1.step login.host
          login.request).server.sessionState? id = some .running := by
  intro h
  have hregistered : ((Server.new (RandomSource.ofSeed 3) 2).run
      earlySubscription).1.station.registered = true := by decide +kernel
  obtain ⟨session, hsession, hwaiting⟩ := sessionState?_eq_some_iff.mp (show
    ((Server.new (RandomSource.ofSeed 3) 2).run earlySubscription).1.sessionState? 1 =
      some .waitingLogin by decide +kernel)
  have hcompletes := completes_rightLogin hsession openHost
  obtain ⟨hok, -⟩ := h _ _ _ _ session _ hregistered hsession hwaiting (fun _ _ _ => rfl) hcompletes
  have hkey : (((Server.new (RandomSource.ofSeed 3) 2).run earlySubscription).1.session? 1).bind
      (fun session => session.channel.cipher.key) = none := by decide +kernel
  rw [hsession, Option.bind_some] at hkey
  have hrefused := (login_of_no_key hsession hcompletes (length_rightCode _ session) hkey).1
  cases hok.symm.trans hrefused

end SmartLock.Server
