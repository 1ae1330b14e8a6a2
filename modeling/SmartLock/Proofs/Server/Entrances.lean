/-
# How a session comes to run

A session comes to run by a login or a registration that succeeds.  It ought to be waited for then.
An idle session, too, is let in by a registration, as long as the server is not registered, and by a
login, if it has got its key from a registration whose answer was not taken (`startsRunning_run`).

So a session that has been dropped, has taken too long or has never been greeted is locked out only
as long as no registration comes through (`entrances_run`).  `lateRegistration` is a run in which
one does.
-/
import SmartLock.Proofs.Server.Lockout
import SmartLock.Proofs.Server.Outputs
import SmartLock.Proofs.Server.SessionKeys

namespace SmartLock

/-- Whether an output tells the surroundings that a central has registered or given a command. -/
def ServerOutput.isCallback : ServerOutput → Bool
  | .registered .. => true
  | .command .. => true
  | _ => false

namespace Server

/-! ## Entrances -/

/-- The session with a given number has been given a key by a registration whose answer was not
taken, and its central has not disconnected since. -/
def StrandedSince (start : Server) (ms : List Moment) (id : SessionId) : Prop :=
  ∃ before m after, ms = before ++ m :: after ∧ (start.run before).1.StrandsRegistration m id ∧
    ∀ later ∈ after, later.request ≠ .disconnected id

/-- What holds since some moment holds one moment later, unless the central disconnects then. -/
theorem StrandedSince.concat {start : Server} {ms : List Moment} {m : Moment} {id : SessionId}
    (h : start.StrandedSince ms id) (hstays : m.request ≠ .disconnected id) :
    start.StrandedSince (ms ++ [m]) id := by
  obtain ⟨before, stranding, after, rfl, hstrands, hsince⟩ := h
  refine ⟨before, stranding, after ++ [m], by simp, hstrands, fun later hlater => ?_⟩
  rcases List.mem_append.mp hlater with hlater | hlater
  · exact hsince later hlater
  · rw [List.mem_singleton.mp hlater]
    exact hstays

section Steps

variable {s : Server} {m : Moment} {id : SessionId}

/-- A session that has just been opened is idle without a key, or waits for a login. -/
theorem opened_cases (host : ServerHost) (station : Station) (id : SessionId) (now : UInt32) :
    ((opened host station id now).session.IsLockedOut ∧
      ∃ error, (opened host station id now).result = .error error) ∨
    ((opened host station id now).session.state = .waitingLogin ∧
      (opened host station id now).result = .ok ()) := by
  rcases greet_cases host { station with now := now, random := (station.random.draw 4).2 }
      (Session.new id (station.random.draw 4).1) with ⟨hlike, cause, herror⟩ | ⟨hlike, hok⟩
  · exact .inl ⟨Session.IsLockedOut.of_like ⟨rfl, rfl⟩ hlike, _, herror⟩
  · exact .inr ⟨hlike.state.trans (Session.state_setState ..), hok⟩

/-- A session begins to run by a registration, or by a login that its key allows. -/
theorem startsRunning_cases (h : s.StartsRunning m id) :
    ∃ old, s.session? id = some old ∧ old.state ≠ .running ∧
      (s.Accepts m id .registration ∨
        s.Accepts m id .login ∧ old.channel.cipher.hasKey = true) := by
  obtain ⟨hbefore, hafter⟩ := h
  obtain ⟨session, hsession, hrunning⟩ := sessionState?_eq_some_iff.mp hafter
  cases hold : s.session? id with
  | none =>
      obtain ⟨now, -, rfl, -⟩ := session?_step_of_eq_none hold hsession
      rcases opened_cases m.host s.station id now with ⟨⟨hidle, -⟩, -⟩ | ⟨hwaiting, -⟩
      · rw [hidle] at hrunning
        cases hrunning
      · rw [hwaiting] at hrunning
        cases hrunning
  | some old =>
      have hnot : old.state ≠ .running := fun hstate =>
        hbefore (sessionState?_eq_some_iff.mpr ⟨old, hold, hstate⟩)
      refine ⟨old, rfl, hnot, ?_⟩
      cases fate_step hold hsession with
      | kept hlike => exact absurd (hlike.state ▸ hrunning) hnot
      | dropped hlockedOut =>
          rw [hlockedOut.1] at hrunning
          cases hrunning
      | loggedIn code hcompletes hcode haccepts hlike =>
          exact .inr ⟨haccepts, Cipher.hasKey_of_verifyCode hcode⟩
      | registered haccepts hstate => exact .inl haccepts
      | stranded hstrands hstate hkey => exact absurd (hstate ▸ hrunning) hnot

end Steps

section Runs

variable {random : RandomSource} {maxSessions : Nat} {ms : List Moment} {m : Moment}
  {id : SessionId}

/-- A session that is idle and has a key has it from a registration whose answer was not taken. -/
theorem strandedSince_of_idle {session : Session}
    (hsession : ((Server.new random maxSessions).run ms).1.session? id = some session)
    (hidle : session.state = .idle) (hkey : session.channel.cipher.hasKey = true) :
    (Server.new random maxSessions).StrandedSince ms id := by
  -- Of the last step only a registration that strands gives an idle session a key; with any other
  -- the session has been idle with that key before.
  induction ms using List.reverseRecOn generalizing session with
  | nil => simp [run, session?] at hsession
  | append_singleton ms m ih =>
      rw [run_concat] at hsession
      cases hold : ((Server.new random maxSessions).run ms).1.session? id with
      | none =>
          obtain ⟨now, -, rfl, -⟩ := session?_step_of_eq_none hold hsession
          rcases opened_cases m.host ((Server.new random maxSessions).run ms).1.station id now with
            ⟨⟨-, hnone⟩, -⟩ | ⟨hwaiting, -⟩
          · simp [Cipher.hasKey, hnone] at hkey
          · rw [hwaiting] at hidle
            cases hidle
      | some old =>
          cases fate_step hold hsession with
          | kept hlike =>
              rw [Cipher.hasKey, hlike.key] at hkey
              exact (ih hold (hlike.state ▸ hidle) hkey).concat
                (ne_disconnected_of_session? hsession)
          | dropped hlockedOut => simp [Cipher.hasKey, hlockedOut.2] at hkey
          | loggedIn code hcompletes hcode haccepts hlike =>
              rw [hlike.state, Session.state_setState] at hidle
              cases hidle
          | registered haccepts hstate =>
              rw [hstate] at hidle
              cases hidle
          | stranded hstrands hstate hkey => exact ⟨ms, m, [], rfl, hstrands, by simp⟩

/-- In every run of a new server a session begins to run by a login or a registration while it is
waited for; or by a registration while it is idle; or by a login while it is idle, with the key of a
registration whose answer was not taken. -/
theorem startsRunning_run
    (h : ((Server.new random maxSessions).run ms).1.StartsRunning m id) :
    let s := ((Server.new random maxSessions).run ms).1
    s.sessionState? id = some .waitingLogin ∧
        (s.Accepts m id .login ∨ s.Accepts m id .registration) ∨
      s.sessionState? id = some .idle ∧
        (s.Accepts m id .registration ∨
          s.Accepts m id .login ∧ (Server.new random maxSessions).StrandedSince ms id) := by
  intro s
  obtain ⟨old, hold, hnot, haccepts⟩ := startsRunning_cases h
  have hstate {state : SessionState} (hstate : old.state = state) :
      s.sessionState? id = some state := sessionState?_eq_some_iff.mpr ⟨old, hold, hstate⟩
  cases hcase : old.state with
  | idle =>
      refine .inr ⟨hstate hcase, haccepts.imp_right fun ⟨hlogin, hkey⟩ => ⟨hlogin, ?_⟩⟩
      exact strandedSince_of_idle hold hcase hkey
  | waitingLogin => exact .inl ⟨hstate hcase, haccepts.symm.imp_left And.left⟩
  | running => exact absurd hcase hnot

end Runs

/-! ## Sessions that are sent away -/

/-- A subscription is refused by the link, but the session has its slot. -/
def FailsToOpen (s : Server) (m : Moment) (id : SessionId) : Prop :=
  ∃ now error, m.request = .subscribed id now ∧ s.session? id = none ∧
    (s.step m.host m.request).server.hasSession id = true ∧
    (s.step m.host m.request).result = .error error

/-- A session is sent away: its login takes too long, its code or a tag is wrong, or it cannot be
greeted. -/
def SendsAway (s : Server) (m : Moment) (id : SessionId) : Prop :=
  s.TimesOut m id ∨
    (∃ session key, s.session? id = some session ∧ session.channel.cipher.key = some key ∧
      s.HearsWrongCode m id key) ∨
    s.HearsForgery m id ∨ s.FailsToOpen m id

section SentAway

variable {s : Server} {m : Moment} {id : SessionId}

/-- A session that could not be greeted is locked out. -/
theorem lockedOut_of_failsToOpen (h : s.FailsToOpen m id) :
    (s.step m.host m.request).server.LockedOut id := by
  obtain ⟨now, error, -, hunused, hplaced, herror⟩ := h
  obtain ⟨session, hsession⟩ := Option.isSome_iff_exists.mp hplaced
  refine ⟨session, hsession, ?_⟩
  obtain ⟨now, -, rfl, hresult⟩ := session?_step_of_eq_none hunused hsession
  rcases opened_cases m.host s.station id now with ⟨hlockedOut, -⟩ | ⟨-, hok⟩
  · exact hlockedOut
  · rw [hresult, hok] at herror
    cases herror

/-- A session that is sent away is locked out. -/
theorem lockedOut_of_sendsAway (h : s.SendsAway m id) :
    (s.step m.host m.request).server.LockedOut id := by
  rcases h with hlate | ⟨session, key, hsession, hkey, hcode⟩ | hforgery | hfails
  · exact lockedOut_of_timesOut hlate
  · exact lockedOut_of_wrongCode hsession hkey hcode
  · exact lockedOut_of_forgery hforgery
  · exact lockedOut_of_failsToOpen hfails

/-- While a session is locked out, nothing but a registration that succeeds calls back for it. -/
theorem isCallback_of_lockedOut (h : s.LockedOut id) (hnot : ¬ s.AdmitsRegistration m id)
    {output : ServerOutput} (hmem : output ∈ (s.step m.host m.request).outputs)
    (hid : output.session = id) : output.isCallback = false := by
  cases output with
  | write other fragment taken => rfl
  | disconnect other => rfl
  | registered other secret =>
      obtain rfl : other = id := hid
      exact absurd (.inl (accepts_of_registered_mem hmem)) hnot
  | command other item tag trigger =>
      obtain rfl : other = id := hid
      exact absurd hmem ((refuses_of_lockedOut h m).2 item tag trigger)

variable {ms : List Moment}

/-- A session stays locked out until its central disconnects, exactly if no registration lets it
in. -/
theorem lockedOut_run_iff (h : s.LockedOut id) (hstays : ∀ m ∈ ms, m.request ≠ .disconnected id) :
    (∀ before after, ms = before ++ after → (s.run before).1.LockedOut id) ↔
      ¬ s.Happens ms fun s m => s.AdmitsRegistration m id := by
  constructor
  · rintro hlockedOut ⟨before, m, after, rfl, hadmits⟩
    -- The registration gives the session a key.
    obtain ⟨-, new, hnew, hkey⟩ := hadmits.effect
    have hafter := hlockedOut (before ++ [m]) after (by simp)
    rw [run_concat] at hafter
    obtain ⟨session, hsession, -, hnone⟩ := hafter
    obtain rfl : session = new := Option.some.inj (hsession.symm.trans hnew)
    simp [Cipher.hasKey, hnone] at hkey
  · rintro hnot before after rfl
    exact lockedOut_run h (fun m hm => hstays m (List.mem_append_left _ hm))
      fun hhappens => hnot (hhappens.append after)

/-- As long as no registration lets it in, nothing calls back for a session that is locked out. -/
theorem isCallback_run (h : s.LockedOut id) (hstays : ∀ m ∈ ms, m.request ≠ .disconnected id)
    (hnot : ¬ s.Happens ms fun s m => s.AdmitsRegistration m id) {output : ServerOutput}
    (hmem : output ∈ (s.run ms).2) (hid : output.session = id) : output.isCallback = false := by
  obtain ⟨before, m, after, rfl, hstep⟩ := mem_run_iff.mp hmem
  have hlockedOut := (lockedOut_run_iff h hstays).mpr hnot before (m :: after) rfl
  exact isCallback_of_lockedOut hlockedOut (fun hadmits => hnot ⟨before, m, after, rfl, hadmits⟩)
    hstep hid

end SentAway

/-- **How a session comes to run.**  In every run of a new server a session begins to run by a login
or a registration while it is waited for; or while it is idle, by a registration, or by a login with
the key of a registration whose answer was not taken.  A session that is sent away is locked out
until its central disconnects, and nothing calls back for it, exactly as long as no registration
comes through; and one comes through only while nobody is registered. -/
theorem entrances_run (random : RandomSource) (maxSessions : Nat) (ms : List Moment) (m : Moment)
    (id : SessionId) :
    let s := ((Server.new random maxSessions).run ms).1
    (s.StartsRunning m id →
      s.sessionState? id = some .waitingLogin ∧
          (s.Accepts m id .login ∨ s.Accepts m id .registration) ∨
        s.sessionState? id = some .idle ∧
          (s.Accepts m id .registration ∨
            s.Accepts m id .login ∧ (Server.new random maxSessions).StrandedSince ms id)) ∧
    (s.SendsAway m id → ∀ later, (∀ m' ∈ later, m'.request ≠ .disconnected id) →
      let sent := (s.step m.host m.request).server
      ((∀ before after, later = before ++ after → (sent.run before).1.LockedOut id) ↔
        ¬ sent.Happens later fun s m => s.AdmitsRegistration m id) ∧
      ((¬ sent.Happens later fun s m => s.AdmitsRegistration m id) →
        ∀ output ∈ (sent.run later).2, output.session = id → output.isCallback = false) ∧
      ∀ before m' after, later = before ++ m' :: after →
        (sent.run before).1.AdmitsRegistration m' id →
        (sent.run before).1.station.registered = false) := by
  intro s
  refine ⟨startsRunning_run, fun haway later hstays => ?_⟩
  have hlockedOut := lockedOut_of_sendsAway haway
  refine ⟨lockedOut_run_iff hlockedOut hstays, fun hnot output hmem hid => ?_,
    fun before m' after heq hadmits => hadmits.effect.1⟩
  exact isCallback_run hlockedOut hstays hnot hmem hid

/-- A central subscribes and does not take the greeting.  It then begins a registration, and takes
everything. -/
def lateRegistration : List Moment :=
  (strandedRun.take 6).mapIdx fun i m => { m with host := registrar (decide (i ≠ 2)) }

/-- The last fragment of the registration. -/
def lastFragment : Moment :=
  ⟨registrar true, .receive 1 [2, 203, 182, 64, 104, 55, 191, 81, 245, 0, 0, 0, 0]⟩

/-- The session is idle before the last fragment, and runs after it. -/
theorem startsRunning_lastFragment :
    let s := ((Server.new (RandomSource.ofSeed 3) 2).run lateRegistration).1
    s.sessionState? 1 = some .idle ∧ s.StartsRunning lastFragment 1 := by
  intro s
  have hstates : (s.sessionState? 1,
      (s.step lastFragment.host lastFragment.request).server.sessionState? 1) =
      (some .idle, some .running) := by decide +kernel
  obtain ⟨hidle, hrunning⟩ := Prod.mk.inj hstates
  exact ⟨hidle, by simp [hidle], hrunning⟩

/-- Not every session that begins to run has been waited for. -/
theorem not_forall_startsRunning_waitingLogin :
    ¬ ∀ (random : RandomSource) (maxSessions : Nat) (ms : List Moment) (m : Moment)
      (id : SessionId), ((Server.new random maxSessions).run ms).1.StartsRunning m id →
      ((Server.new random maxSessions).run ms).1.sessionState? id = some .waitingLogin := by
  intro h
  obtain ⟨hidle, hstarts⟩ := startsRunning_lastFragment
  have hwaiting := h (RandomSource.ofSeed 3) 2 lateRegistration lastFragment 1 hstarts
  rw [hidle] at hwaiting
  cases hwaiting

end Server

end SmartLock
