/-
# One guess for a subscription

A session that is idle and has no key is locked out (`Server.LockedOut`): no login of its central
succeeds and no command is carried out (`Server.refuses_of_lockedOut`).  A wrong code, a wrong tag
and a login that takes too long lock a session out, and only a registration lets it in again
(`Server.lockedOut_step`).

A registered server accepts no registration.  A central that has subscribed to it therefore gets in
by the right code while it is waited for, and by nothing else; and when its guess was wrong it is
locked out until it disconnects (`Server.one_guess_run`).
-/
import SmartLock.Proofs.Server.Commands
import SmartLock.Proofs.Server.Table

namespace SmartLock

/-! ## Sessions that are locked out -/

namespace Session

/-- The session is idle and has no key. -/
def IsLockedOut (s : Session) : Prop := s.state = .idle ∧ s.channel.cipher.key = none

/-- The session has a certain key and is not idle. -/
def Holds (s : Session) (key : Key) : Prop :=
  s.state ≠ .idle ∧ s.channel.cipher.key = some key

/-- Being locked out is a matter of state and key. -/
theorem IsLockedOut.of_like {a b : Session} (h : b.IsLockedOut) (hlike : a.Like b) :
    a.IsLockedOut :=
  ⟨hlike.state.trans h.1, hlike.key.trans h.2⟩

/-- Holding a key is a matter of state and key. -/
theorem Holds.of_like {a b : Session} {key : Key} (h : b.Holds key) (hlike : a.Like b) :
    a.Holds key :=
  ⟨hlike.state ▸ h.1, hlike.key.trans h.2⟩

/-- A session that has been dropped is locked out. -/
theorem isLockedOut_drop (s : Session) (now : UInt32) : (s.drop now).IsLockedOut := by
  refine ⟨state_setState .., ?_⟩
  rw [drop, channel_setState]
  rfl

end Session

namespace Server

/-- The session with a given number is locked out. -/
def LockedOut (s : Server) (id : SessionId) : Prop :=
  ∃ session, s.session? id = some session ∧ session.IsLockedOut

/-! ## Events -/

/-- The fragment of this moment completes a message from the central with a given number. -/
def Completes (s : Server) (m : Moment) (id : SessionId) (message : Bytes) : Prop :=
  ∃ fragment session authenticated, m.request = .receive id fragment ∧
    s.session? id = some session ∧
    (session.channel.receive fragment).2 = .complete message authenticated

/-- The message is a login with a code of the right size that does not fit the key. -/
def HearsWrongCode (s : Server) (m : Moment) (id : SessionId) (key : Key) : Prop :=
  ∃ code, s.Completes m id (ItemCode.login.code :: code) ∧ code.length = Cipher.codeSize ∧
    code ≠ key.toBytes.take Cipher.codeSize

/-- The fragment of this moment completes a packet with a wrong tag. -/
def HearsForgery (s : Server) (m : Moment) (id : SessionId) : Prop :=
  ∃ fragment session, m.request = .receive id fragment ∧ s.session? id = some session ∧
    session.channel.Forges fragment

/-- At this moment the time is checked, and the login of the session has taken too long. -/
def TimesOut (s : Server) (m : Moment) (id : SessionId) : Prop :=
  ∃ now session, m.request = .update now ∧ s.session? id = some session ∧
    isLate s.station.loginTimeout now session = true

/-- A registration succeeds, or its answer is not taken. -/
def AdmitsRegistration (s : Server) (m : Moment) (id : SessionId) : Prop :=
  s.Accepts m id .registration ∨ s.StrandsRegistration m id

/-- At this moment the session with a given number begins to run. -/
def StartsRunning (s : Server) (m : Moment) (id : SessionId) : Prop :=
  s.sessionState? id ≠ some .running ∧
    (s.step m.host m.request).server.sessionState? id = some .running

/-- A login at this moment fails, for its size or for want of a key, and no command is carried
out. -/
def Refuses (s : Server) (m : Moment) (id : SessionId) : Prop :=
  (∀ code, s.Completes m id (ItemCode.login.code :: code) →
    (s.step m.host m.request).result =
      .error (if code.length = Cipher.codeSize then .keyNotShared
        else .payloadLength .login code.length)) ∧
  ∀ item tag trigger, .command id item tag trigger ∉ (s.step m.host m.request).outputs

section Events

variable {s : Server} {m : Moment} {id : SessionId}

/-- A message about an item has been heard if one has been completed. -/
theorem Completes.hears {item : ItemCode} {payload : Bytes}
    (h : s.Completes m id (item.code :: payload)) : s.Hears m id item := by
  obtain ⟨fragment, session, authenticated, hrequest, hsession, hreceived⟩ := h
  exact ⟨fragment, session, payload, authenticated, hrequest, hsession, hreceived⟩

/-- The state under a number is the one of the session that is found there. -/
theorem sessionState?_eq_some_iff {state : SessionState} :
    s.sessionState? id = some state ↔ ∃ session, s.session? id = some session ∧
      session.state = state := Option.map_eq_some_iff

/-- A step that brings a session to run does not remove it. -/
theorem StartsRunning.stays (h : s.StartsRunning m id) : m.request ≠ .disconnected id := by
  obtain ⟨session, hsession, -⟩ := sessionState?_eq_some_iff.mp h.2
  exact ne_disconnected_of_session? hsession

/-- When a registration comes through, nobody has been registered, and the session gets a key. -/
theorem AdmitsRegistration.effect (h : s.AdmitsRegistration m id) :
    s.station.registered = false ∧ ∃ new, (s.step m.host m.request).server.session? id = some new ∧
      new.channel.cipher.hasKey = true := by
  -- Both ways of coming through exclude the errors of a registration that is refused.
  have hresult : s.Hears m id .registration ∧
      ∀ error, (s.step m.host m.request).result = .error error → ∃ cause, error = .link cause := by
    rcases h with ⟨hhears, hok⟩ | ⟨hhears, cause, herror⟩
    · exact ⟨hhears, fun error heq => by simp [hok] at heq⟩
    · refine ⟨hhears, fun error heq => ⟨cause, ?_⟩⟩
      rw [herror] at heq
      exact (Except.error.inj heq).symm
  obtain ⟨⟨fragment, session, payload, authenticated, hrequest, hsession, hreceived⟩, hlink⟩ :=
    hresult
  rw [hrequest, session?_receive hsession]
  rw [hrequest, receive_of_session? hsession] at hlink
  rw [onFragment_registration hreceived] at hlink ⊢
  rcases onRegistration_cases m.host
      { station := s.station
        session := { session with channel := (session.channel.receive fragment).1 } }
      payload with ⟨error, heq, hnot⟩ | ⟨secret, hnew, -, hcases⟩
  · rw [heq] at hlink
    obtain ⟨cause, rfl⟩ := hlink error rfl
    exact absurd rfl (hnot cause)
  · refine ⟨hnew, _, rfl, ?_⟩
    rcases hcases with ⟨-, hlike, -⟩ | ⟨-, hlike, -⟩
    · rw [Cipher.hasKey, hlike.key, Session.channel_setState]
      rfl
    · rw [Cipher.hasKey, hlike.key]
      rfl

end Events

/-! ## What becomes of a session -/

/-- What becomes of a session in a step that it stays through. -/
inductive Fate (s : Server) (m : Moment) (id : SessionId) (old new : Session) : Prop
  /-- Nothing but messages. -/
  | kept (hlike : new.Like old)
  /-- It is dropped. -/
  | dropped (hlockedOut : new.IsLockedOut)
  /-- It runs after a login with the right code. -/
  | loggedIn (code : Bytes) (hcompletes : s.Completes m id (ItemCode.login.code :: code))
      (hcode : old.channel.cipher.verifyCode code = true) (haccepts : s.Accepts m id .login)
      (hlike : new.Like (old.setState .running s.station.now))
  /-- It runs after a registration. -/
  | registered (haccepts : s.Accepts m id .registration) (hstate : new.state = .running)
  /-- It has got a key from a registration whose answer was not taken. -/
  | stranded (hstrands : s.StrandsRegistration m id) (hstate : new.state = old.state)
      (hkey : new.channel.cipher.hasKey = true)

/-- Every session that stays has one of these fates. -/
theorem fate_of_treated {s : Server} {m : Moment} {id : SessionId} {old new : Session}
    (hold : s.session? id = some old) (h : s.Treated m old new) : s.Fate m id old new := by
  obtain ⟨-, rfl⟩ := mem_of_session? hold
  cases h with
  | told target notice hrequest htarget hlike => exact .kept hlike
  | left hreceive hupdate hnew => exact .kept (hnew ▸ .refl _)
  | checked now hrequest hnew =>
      rw [hnew, checkTime]
      split
      · exact .dropped (Session.isLockedOut_drop ..)
      · exact .kept (.refl _)
  | received fragment hrequest hnew =>
      have hstep : s.step m.host m.request = _ :=
        hrequest ▸ receive_of_session? hold m.host fragment
      cases onFragment_effect m.host s.station old fragment with
      | keep hstation hlike => exact .kept (hnew ▸ hlike)
      | drop hstation hlike =>
          exact .dropped ((Session.isLockedOut_drop ..).of_like (hnew ▸ hlike))
      | login payload authenticated hreceived hcode hstation hlike hresult =>
          have hcompletes : s.Completes m old.id (ItemCode.login.code :: payload) :=
            ⟨fragment, old, authenticated, hrequest, hold, hreceived⟩
          exact .loggedIn payload hcompletes hcode ⟨hcompletes.hears, hstep ▸ hresult⟩
            (hnew ▸ hlike)
      | register payload authenticated hreceived secret hunregistered hstation hlike hresult =>
          have hcompletes : s.Completes m old.id (ItemCode.registration.code :: payload) :=
            ⟨fragment, old, authenticated, hrequest, hold, hreceived⟩
          refine .registered ⟨hcompletes.hears, hstep ▸ hresult⟩ ?_
          rw [hnew, hlike.state, Session.state_setState]
      | strand payload authenticated hreceived secret hunregistered hstation hlike index hresult =>
          have hcompletes : s.Completes m old.id (ItemCode.registration.code :: payload) :=
            ⟨fragment, old, authenticated, hrequest, hold, hreceived⟩
          refine .stranded ⟨hcompletes.hears, .writeFailed index, hstep ▸ hresult⟩
            (hnew ▸ hlike.state) ?_
          rw [hnew, Cipher.hasKey, hlike.key]
          rfl

/-- What has become of a session that is there before and after a step. -/
theorem fate_step {s : Server} {m : Moment} {id : SessionId} {old new : Session}
    (hold : s.session? id = some old)
    (hnew : (s.step m.host m.request).server.session? id = some new) : s.Fate m id old new := by
  obtain ⟨session, hsession, htreated⟩ := session?_step hold (ne_disconnected_of_session? hnew)
  obtain rfl : session = new := Option.some.inj (hsession.symm.trans hnew)
  exact fate_of_treated hold htreated

/-- Only a registration lets a session in that is locked out. -/
theorem lockedOut_step {s : Server} {m : Moment} {id : SessionId} (h : s.LockedOut id)
    (hstays : m.request ≠ .disconnected id) (hnot : ¬ s.AdmitsRegistration m id) :
    (s.step m.host m.request).server.LockedOut id := by
  obtain ⟨old, hold, hlockedOut⟩ := h
  obtain ⟨new, hnew, -⟩ := session?_step hold hstays
  refine ⟨new, hnew, ?_⟩
  cases fate_step hold hnew with
  | kept hlike => exact hlockedOut.of_like hlike
  | dropped hdropped => exact hdropped
  | loggedIn code hcompletes hcode haccepts hlike =>
      -- Without a key no code is right.
      simp [Cipher.verifyCode, hlockedOut.2] at hcode
  | registered haccepts hstate => exact absurd (.inl haccepts) hnot
  | stranded hstrands hstate hkey => exact absurd (.inr hstrands) hnot

/-- A session that is locked out gets nothing from logins and commands. -/
theorem refuses_of_lockedOut {s : Server} {id : SessionId} (h : s.LockedOut id) (m : Moment) :
    s.Refuses m id := by
  obtain ⟨session, hsession, hidle, hkey⟩ := h
  constructor
  · rintro code ⟨fragment, other, authenticated, hrequest, hother, hreceived⟩
    obtain rfl : other = session := Option.some.inj (hother.symm.trans hsession)
    have hnone : (other.channel.receive fragment).1.cipher.hasKey = false := by
      rw [Cipher.hasKey, Channel.key_receive, hkey]
      rfl
    rw [hrequest, receive_of_session? hother, onFragment_login hreceived]
    by_cases hlength : code.length = Cipher.codeSize
    · simp [onLogin, hlength, hnone, Turn.fail]
    · simp [onLogin, hlength, Turn.fail]
  · intro item tag trigger hmem
    obtain ⟨fragment, other, message, -, hother, hrunning, -⟩ := command_mem_step_iff.mp hmem
    obtain rfl : other = session := Option.some.inj (hother.symm.trans hsession)
    rw [hidle] at hrunning
    cases hrunning

/-! ## What locks a session out -/

section Causes

variable {s : Server} {m : Moment} {id : SessionId}

/-- A code that does not fit the key of the session locks it out. -/
theorem lockedOut_of_wrongCode {old : Session} {key : Key} (hold : s.session? id = some old)
    (hkey : old.channel.cipher.key = some key) (h : s.HearsWrongCode m id key) :
    (s.step m.host m.request).server.LockedOut id := by
  obtain ⟨code, hcompletes, hlength, hne⟩ := h
  obtain ⟨fragment, session, authenticated, hrequest, hsession, hreceived⟩ := hcompletes
  obtain rfl : session = old := Option.some.inj (hsession.symm.trans hold)
  refine ⟨_, hrequest ▸ session?_receive hsession m.host fragment, ?_⟩
  -- The code is compared with the key after the fragment, which is the key before it.
  have hhas : (session.channel.receive fragment).1.cipher.hasKey = true := by
    rw [Cipher.hasKey, Channel.key_receive, hkey]
    rfl
  have hcode : (session.channel.receive fragment).1.cipher.verifyCode code = false := by
    rw [Cipher.verifyCode, Channel.key_receive, hkey]
    exact decide_eq_false hne
  rw [onFragment_login hreceived, onLogin, if_neg (not_not_intro hlength), if_neg (by simp [hhas]),
    if_pos (by simp [hcode])]
  exact Session.isLockedOut_drop ..

/-- A wrong tag locks a session out. -/
theorem lockedOut_of_forgery (h : s.HearsForgery m id) :
    (s.step m.host m.request).server.LockedOut id := by
  obtain ⟨fragment, session, hrequest, hsession, hforges⟩ := h
  refine ⟨_, hrequest ▸ session?_receive hsession m.host fragment, ?_⟩
  rw [onFragment_of_forged _ _ (Channel.snd_receive_eq_forged_iff.mpr hforges)]
  exact Session.isLockedOut_drop ..

/-- A login that takes too long locks a session out. -/
theorem lockedOut_of_timesOut (h : s.TimesOut m id) :
    (s.step m.host m.request).server.LockedOut id := by
  obtain ⟨now, session, hrequest, hsession, hlate⟩ := h
  refine ⟨(checkTime s.station.loginTimeout now session).1, ?_, ?_⟩
  · rw [hrequest, session?_update, hsession]
    rfl
  · rw [checkTime, if_pos hlate]
    exact Session.isLockedOut_drop ..

end Causes

/-! ## Registered servers -/

/-- A step leaves a server registered. -/
theorem registered_step {s : Server} (h : s.station.registered = true) (m : Moment) :
    (s.step m.host m.request).server.station.registered = true := by
  rcases station_step m.host s m.request with ⟨hsame, -⟩ | ⟨secret, hrequest⟩ |
    ⟨id, fragment, old, -, -, hstation⟩
  · exact hsame.trans h
  · rw [hrequest]
    rfl
  · rw [hstation, station_onFragment h, h]

/-- The server is registered, and the session with a given number has a certain key and is not idle,
or it is locked out. -/
def Watches (s : Server) (id : SessionId) (key : Key) : Prop :=
  s.station.registered = true ∧
    ∃ session, s.session? id = some session ∧ (session.Holds key ∨ session.IsLockedOut)

section Watches

variable {s : Server} {m : Moment} {id : SessionId} {key : Key}

/-- What becomes of a session of a registered server: it is kept, or dropped, or it runs after a
login with the right code. -/
theorem fate_of_registered (hregistered : s.station.registered = true) {old : Session}
    (hold : s.session? id = some old) (hstays : m.request ≠ .disconnected id) :
    ∃ new, (s.step m.host m.request).server.session? id = some new ∧
      (new.Like old ∨ new.IsLockedOut ∨
        ∃ code, s.Completes m id (ItemCode.login.code :: code) ∧
          old.channel.cipher.verifyCode code = true ∧
          new.Like (old.setState .running s.station.now)) := by
  obtain ⟨new, hnew, -⟩ := session?_step hold hstays
  refine ⟨new, hnew, ?_⟩
  have hnot : ¬ s.AdmitsRegistration m id := fun hadmits => by
    simp [hadmits.effect.1] at hregistered
  cases fate_step hold hnew with
  | kept hlike => exact .inl hlike
  | dropped hdropped => exact .inr (.inl hdropped)
  | loggedIn code hcompletes hcode haccepts hlike =>
      exact .inr (.inr ⟨code, hcompletes, hcode, hlike⟩)
  | registered haccepts hstate => exact absurd (.inl haccepts) hnot
  | stranded hstrands hstate hkey => exact absurd (.inr hstrands) hnot

/-- A registered server goes on watching a session until its central disconnects. -/
theorem watches_step (h : s.Watches id key) (hstays : m.request ≠ .disconnected id) :
    (s.step m.host m.request).server.Watches id key := by
  obtain ⟨hregistered, old, hold, hwatched⟩ := h
  obtain ⟨new, hnew, hfate⟩ := fate_of_registered hregistered hold hstays
  refine ⟨registered_step hregistered m, new, hnew, ?_⟩
  rcases hwatched with hholds | hlockedOut
  · rcases hfate with hlike | hdropped | ⟨code, -, -, hlike⟩
    · exact .inl (hholds.of_like hlike)
    · exact .inr hdropped
    · -- A login changes the state and leaves the key.
      refine .inl ⟨?_, ?_⟩
      · rw [hlike.state, Session.state_setState]
        decide
      · rw [hlike.key, Session.channel_setState, hholds.2]
  · rcases hfate with hlike | hdropped | ⟨code, -, hcode, -⟩
    · exact .inr (hlockedOut.of_like hlike)
    · exact .inr hdropped
    · simp [Cipher.verifyCode, hlockedOut.2] at hcode

/-- A session begins to run by a login with the right code, while it is waited for. -/
theorem startsRunning_of_watches (h : s.Watches id key) (hstarts : s.StartsRunning m id) :
    s.sessionState? id = some .waitingLogin ∧
      s.Completes m id (ItemCode.login.code :: key.toBytes.take Cipher.codeSize) := by
  obtain ⟨hregistered, old, hold, hwatched⟩ := h
  obtain ⟨new, hnew, hfate⟩ := fate_of_registered hregistered hold hstarts.stays
  obtain ⟨hbefore, hafter⟩ := hstarts
  rw [sessionState?, hold, Option.map_some, Ne, Option.some.injEq] at hbefore
  rw [sessionState?, hnew, Option.map_some, Option.some.injEq] at hafter
  rcases hfate with hlike | hdropped | ⟨code, hcompletes, hcode, -⟩
  · exact absurd (hlike.state ▸ hafter) hbefore
  · rw [hdropped.1] at hafter
    cases hafter
  · rcases hwatched with ⟨hnotIdle, hkey⟩ | hlockedOut
    · rw [Cipher.verifyCode, hkey] at hcode
      obtain rfl := of_decide_eq_true hcode
      refine ⟨?_, hcompletes⟩
      rw [sessionState?, hold, Option.map_some]
      cases hstate : old.state with
      | idle => exact absurd hstate hnotIdle
      | waitingLogin => rfl
      | running => exact absurd hstate hbefore
    · simp [Cipher.verifyCode, hlockedOut.2] at hcode

/-- On a registered server a session that is locked out stays so. -/
theorem lockedOut_step_of_registered (hregistered : s.station.registered = true)
    (h : s.LockedOut id) (hstays : m.request ≠ .disconnected id) :
    (s.step m.host m.request).server.LockedOut id :=
  lockedOut_step h hstays fun hadmits => by simp [hadmits.effect.1] at hregistered

/-- One wrong guess locks the session out. -/
theorem lockedOut_of_watches (h : s.Watches id key)
    (hguess : s.HearsWrongCode m id key ∨ s.HearsForgery m id ∨ s.TimesOut m id) :
    (s.step m.host m.request).server.LockedOut id := by
  obtain ⟨hregistered, old, hold, hholds | hlockedOut⟩ := h
  · rcases hguess with hcode | hforgery | hlate
    · exact lockedOut_of_wrongCode hold hholds.2 hcode
    · exact lockedOut_of_forgery hforgery
    · exact lockedOut_of_timesOut hlate
  · apply lockedOut_step_of_registered hregistered ⟨old, hold, hlockedOut⟩
    -- Neither a fragment nor a check of the time is a disconnection.
    rcases hguess with ⟨code, ⟨fragment, session, authenticated, hrequest, -⟩, -⟩ |
      ⟨fragment, session, hrequest, -⟩ | ⟨now, session, hrequest, -⟩ <;> simp [hrequest]

/-- A registered server watches every session from its subscription on. -/
theorem watches_of_subscribed {host : ServerHost} {now : UInt32} {session : Session}
    (hregistered : s.station.registered = true) (hunused : s.session? id = none)
    (hsession : (s.step host (.subscribed id now)).server.session? id = some session) :
    (s.step host (.subscribed id now)).server.Watches id (session.keyUnder s.station.secret) := by
  refine ⟨registered_step (m := ⟨host, .subscribed id now⟩) hregistered, session, hsession, ?_⟩
  obtain ⟨then_, hrequest, rfl, -⟩ :=
    session?_step_of_eq_none (m := ⟨host, .subscribed id now⟩) hunused hsession
  obtain rfl : now = then_ := by simpa using hrequest
  rcases greet_cases host { s.station with now := now, random := (s.station.random.draw 4).2 }
      (Session.new id (s.station.random.draw 4).1) with ⟨hlike, -⟩ | ⟨hlike, -⟩
  · -- The greeting has failed.
    refine .inr (Session.IsLockedOut.of_like ?_ hlike)
    exact ⟨rfl, rfl⟩
  · rw [if_pos hregistered] at hlike
    refine .inl ⟨?_, ?_⟩
    · rw [opened, hlike.state, Session.state_setState]
      decide
    · rw [opened, hlike.key, Session.channel_setState, Session.keyUnder, hlike.nonce,
        Session.nonce_setState]
      rfl

end Watches

/-! ## Runs -/

section Runs

variable {s : Server} {id : SessionId} {key : Key}

/-- A registered server watches a session as long as its central does not disconnect. -/
theorem watches_run (h : s.Watches id key) {ms : List Moment}
    (hstays : ∀ m ∈ ms, m.request ≠ .disconnected id) : (s.run ms).1.Watches id key := by
  induction ms generalizing s with
  | nil => exact h
  | cons m rest ih =>
      exact ih (watches_step h (hstays m List.mem_cons_self))
        fun m' hm => hstays m' (List.mem_cons_of_mem m hm)

/-- A session is locked out until a registration lets it in, or its central disconnects. -/
theorem lockedOut_run (h : s.LockedOut id) {ms : List Moment}
    (hstays : ∀ m ∈ ms, m.request ≠ .disconnected id)
    (hnot : ¬ s.Happens ms fun s m => s.AdmitsRegistration m id) : (s.run ms).1.LockedOut id := by
  induction ms generalizing s with
  | nil => exact h
  | cons m rest ih =>
      have hstep := lockedOut_step h (hstays m List.mem_cons_self) fun hadmits =>
        hnot ⟨[], m, rest, rfl, hadmits⟩
      apply ih hstep fun m' hm => hstays m' (List.mem_cons_of_mem m hm)
      rintro ⟨before, m', after, rfl, hadmits⟩
      exact hnot ⟨m :: before, m', after, rfl, hadmits⟩

/-- A server stays registered. -/
theorem registered_run (hregistered : s.station.registered = true) (ms : List Moment) :
    (s.run ms).1.station.registered = true := by
  induction ms generalizing s with
  | nil => exact hregistered
  | cons m rest ih => exact ih (registered_step hregistered m)

/-- No registration comes through to a registered server. -/
theorem not_admitsRegistration_run (hregistered : s.station.registered = true)
    (ms : List Moment) : ¬ s.Happens ms fun s m => s.AdmitsRegistration m id := by
  rintro ⟨before, m, after, -, hadmits⟩
  have hstill := registered_run hregistered before
  simp [hadmits.effect.1] at hstill

end Runs

/-- **One guess for a subscription.**  A central subscribes to a registered server.  Whatever
happens until it disconnects, its session begins to run only while it is waited for, by a login with
the code that begins the key under the secret of that time and the nonce of the session.  Once a
code of the right size was wrong, or a tag, or the login has taken too long, the session is idle and
has no key, a login fails for its size or for want of a key, and no command is carried out. -/
theorem one_guess_run {s : Server} (hregistered : s.station.registered = true) {host : ServerHost}
    {id : SessionId} {now : UInt32} {session : Session} (hunused : s.session? id = none)
    (hsession : (s.step host (.subscribed id now)).server.session? id = some session)
    {ms : List Moment} (hstays : ∀ m ∈ ms, m.request ≠ .disconnected id) :
    let start := (s.step host (.subscribed id now)).server
    let key := session.keyUnder s.station.secret
    (∀ before m after, ms = before ++ m :: after → (start.run before).1.StartsRunning m id →
      (start.run before).1.sessionState? id = some .waitingLogin ∧
        (start.run before).1.Completes m id
          (ItemCode.login.code :: key.toBytes.take Cipher.codeSize)) ∧
    ∀ before m after, ms = before ++ m :: after →
      ((start.run before).1.HearsWrongCode m id key ∨ (start.run before).1.HearsForgery m id ∨
        (start.run before).1.TimesOut m id) →
      ∀ first rest, after = first ++ rest →
        (start.run (before ++ m :: first)).1.LockedOut id ∧
          ∀ next, (start.run (before ++ m :: first)).1.Refuses next id := by
  intro start key
  have hwatches : start.Watches id key := watches_of_subscribed hregistered hunused hsession
  constructor
  · rintro before m after rfl hstarts
    exact startsRunning_of_watches
      (watches_run hwatches fun m' hm => hstays m' (List.mem_append_left _ hm)) hstarts
  · rintro before m after rfl hguess first rest rfl
    -- The session is watched up to the guess, and locked out from then on.
    have hbefore := watches_run hwatches fun m' hm => hstays m' (List.mem_append_left _ hm)
    have hguessed := lockedOut_of_watches hbefore hguess
    have hlockedOut : (start.run (before ++ m :: first)).1.LockedOut id := by
      rw [List.append_cons, run_append, run_concat]
      apply lockedOut_run hguessed fun m' hm => hstays m' (by simp [hm])
      exact not_admitsRegistration_run (registered_step hbefore.1 m) first
    exact ⟨hlockedOut, refuses_of_lockedOut hlockedOut⟩

/-- A registered server. -/
@[irreducible] def registeredServer : Server :=
  ((Server.new (RandomSource.ofSeed 3) 2).run
    [⟨openHost, .begin .sesame5 Uuid.nil⟩, ⟨openHost, .setRegistered (Octets.zero 16)⟩]).1

/-- The same after a central has subscribed. -/
abbrev watchfulServer : Server := (registeredServer.step openHost (.subscribed 1 0)).server

/-- A login in plain, with a given code. -/
def plainLogin (code : Bytes) : Moment := ⟨openHost, .receive 1 (3 :: ItemCode.login.code :: code)⟩

/-- The central has a session, and zeros are not its code. -/
theorem watchfulServer_hears :
    registeredServer.station.registered = true ∧ registeredServer.session? 1 = none ∧
      ∃ session, watchfulServer.session? 1 = some session ∧
        watchfulServer.HearsWrongCode (plainLogin [0, 0, 0, 0]) 1
          (session.keyUnder registeredServer.station.secret) := by
  refine ⟨by decide +kernel, by decide +kernel, ?_⟩
  have hlogin : (watchfulServer.session? 1).map (fun session =>
      (decide ([0, 0, 0, 0] ≠ (session.keyUnder registeredServer.station.secret).toBytes.take
          Cipher.codeSize),
        (session.channel.receive [3, ItemCode.login.code, 0, 0, 0, 0]).2)) =
      some (true, .complete [ItemCode.login.code, 0, 0, 0, 0] false) := by decide +kernel
  obtain ⟨session, hsession, hpair⟩ := Option.map_eq_some_iff.mp hlogin
  obtain ⟨hcode, hreceived⟩ := Prod.mk.inj hpair
  exact ⟨session, hsession, [0, 0, 0, 0], ⟨_, session, false, rfl, hsession, hreceived⟩, rfl,
    of_decide_eq_true hcode⟩

/-- The central guesses, and then has the right code. -/
def guesses : List Moment := [plainLogin [0, 0, 0, 0], plainLogin [57, 221, 140, 99]]

/-- The right code comes too late. -/
theorem one_guess_run_guesses :
    (registeredServer.station.registered = true ∧ registeredServer.session? 1 = none ∧
      (∃ session, watchfulServer.session? 1 = some session) ∧
      ∀ m ∈ guesses, m.request ≠ .disconnected 1) ∧
    (watchfulServer.run guesses).1.LockedOut 1 := by
  obtain ⟨hregistered, hunused, session, hsession, hwrong⟩ := watchfulServer_hears
  have hstays : ∀ m ∈ guesses, m.request ≠ .disconnected 1 := by decide
  refine ⟨⟨hregistered, hunused, ⟨session, hsession⟩, hstays⟩, ?_⟩
  obtain ⟨-, hguessed⟩ := one_guess_run hregistered hunused hsession hstays
  exact (hguessed [] (plainLogin [0, 0, 0, 0]) [plainLogin [57, 221, 140, 99]] rfl (.inl hwrong)
    [plainLogin [57, 221, 140, 99]] [] rfl).1

/-- Not every later login fails for want of a key: its size is looked at first. -/
theorem not_forall_login_keyNotShared :
    ¬ ∀ (s : Server) (host : ServerHost) (id : SessionId) (now : UInt32) (session : Session)
      (ms : List Moment), s.station.registered = true → s.session? id = none →
      (s.step host (.subscribed id now)).server.session? id = some session →
      (∀ m ∈ ms, m.request ≠ .disconnected id) →
      ∀ before m first next rest, ms = before ++ m :: first ++ next :: rest →
        ((s.step host (.subscribed id now)).server.run before).1.HearsWrongCode m id
          (session.keyUnder s.station.secret) →
        ∀ code, ((s.step host (.subscribed id now)).server.run (before ++ m :: first)).1.Completes
            next id (ItemCode.login.code :: code) →
          (((s.step host (.subscribed id now)).server.run (before ++ m :: first)).1.step next.host
            next.request).result = .error .keyNotShared := by
  intro h
  obtain ⟨hregistered, hunused, session, hsession, hwrong⟩ := watchfulServer_hears
  have hstays : ∀ m ∈ [plainLogin [0, 0, 0, 0], plainLogin [0, 0, 0]],
      m.request ≠ .disconnected 1 := by decide
  have hcompletes : (watchfulServer.run [plainLogin [0, 0, 0, 0]]).1.Completes
      (plainLogin [0, 0, 0]) 1 [ItemCode.login.code, 0, 0, 0] := by
    obtain ⟨later, hlater, hreceived⟩ : ∃ later,
        (watchfulServer.run [plainLogin [0, 0, 0, 0]]).1.session? 1 = some later ∧
          (later.channel.receive [3, ItemCode.login.code, 0, 0, 0]).2 =
            .complete [ItemCode.login.code, 0, 0, 0] false :=
      Option.map_eq_some_iff.mp (by decide +kernel)
    exact ⟨_, later, false, rfl, hlater, hreceived⟩
  have hresult := h registeredServer openHost 1 0 session _ hregistered hunused hsession hstays
    [] (plainLogin [0, 0, 0, 0]) [] (plainLogin [0, 0, 0]) [] rfl hwrong [0, 0, 0] hcompletes
  have hlockedOut := lockedOut_of_watches
    (watches_of_subscribed hregistered hunused hsession) (.inl hwrong)
  have hrefused := (refuses_of_lockedOut hlockedOut (plainLogin [0, 0, 0])).1 [0, 0, 0] hcompletes
  exact absurd (hrefused.symm.trans hresult) (by decide)

end Server

end SmartLock
