/-
# Sessions in the course of a run

Where a session that a server has after a step comes from (`SessionOrigin`), and what that means for
whole runs: a session that runs has a key, and its central has logged in or registered before
(`running_run`).
-/
import Mathlib.Data.List.Induction
import SmartLock.Proofs.Runs
import SmartLock.Proofs.Server.Turns

namespace SmartLock

/-- The server is registered, and the session has its key under the secret of the server. -/
def Session.OwnedBy (session : Session) (station : Station) : Prop :=
  station.registered = true ∧
    session.channel.cipher.key = some (session.keyUnder station.secret)

/-- Who owns a session depends on its nonce and its key, and on the owner of the server. -/
theorem Session.OwnedBy.of_eq {session session' : Session} {station station' : Station}
    (h : session.OwnedBy station) (hnonce : session'.nonce = session.nonce)
    (hkey : session'.channel.cipher.key = session.channel.cipher.key)
    (hregistered : station'.registered = station.registered)
    (hsecret : station'.secret = station.secret) : session'.OwnedBy station' := by
  refine ⟨hregistered.trans h.1, ?_⟩
  rw [hkey, h.2, hsecret, keyUnder, keyUnder, hnonce]

namespace Server

/-! ## The table -/

/-- The sessions are what stands in the slots. -/
theorem mem_sessions {s : Server} {session : Session} :
    session ∈ s.sessions ↔ some session ∈ s.slots := by
  simp [sessions]

/-- The session that is found has the number that it was looked for by. -/
theorem mem_of_session? {s : Server} {id : SessionId} {session : Session}
    (h : s.session? id = some session) : session ∈ s.sessions ∧ session.id = id := by
  unfold session? at h
  exact ⟨List.mem_of_find?_eq_some h, by simpa using List.find?_some h⟩

/-- A replacement brings in one session at most. -/
theorem mem_replaceIn {slots : List (Option Session)} {session new : Session}
    (h : some session ∈ replaceIn slots new) : session = new ∨ some session ∈ slots := by
  obtain ⟨slot, hslot, hmap⟩ := List.mem_map.mp h
  obtain ⟨old, rfl, hnew⟩ := Option.map_eq_some_iff.mp hmap
  split at hnew
  · exact .inl hnew.symm
  · exact .inr (hnew ▸ hslot)

/-- The new session stands where one with its number has been. -/
theorem mem_replaceIn_self {slots : List (Option Session)} {old new : Session}
    (h : some old ∈ slots) (hid : old.id = new.id) : some new ∈ replaceIn slots new :=
  List.mem_map.mpr ⟨some old, h, by simp [hid]⟩

/-- A session that is placed is the only one to come in. -/
theorem mem_placeIn {slots : List (Option Session)} {session new : Session}
    (h : some session ∈ placeIn slots new) : session = new ∨ some session ∈ slots := by
  induction slots with
  | nil => simp [placeIn] at h
  | cons slot rest ih =>
      cases slot with
      | none =>
          rcases List.mem_cons.mp h with h | h
          · exact .inl (Option.some.inj h)
          · exact .inr (List.mem_cons_of_mem _ h)
      | some old =>
          rcases List.mem_cons.mp h with h | h
          · exact .inr (h ▸ List.mem_cons_self)
          · exact (ih h).imp_right (List.mem_cons_of_mem _)

/-- Clearing a slot brings nothing in. -/
theorem mem_clearIn {slots : List (Option Session)} {id : SessionId} {session : Session}
    (h : some session ∈ clearIn slots id) : some session ∈ slots := by
  obtain ⟨slot, hslot, hfilter⟩ := List.mem_map.mp h
  obtain ⟨rfl, -⟩ := Option.filter_eq_some_iff.mp hfilter
  exact hslot

/-- A notification of all sessions leaves each of them as it is but for the nonces of its link. -/
theorem like_of_mem_notifySlots {host : ServerHost} {station : Station} {n : Notice}
    {outputs : List ServerOutput} {slots : List (Option Session)} {session : Session}
    (h : some session ∈ (notifySlots host station n outputs slots).1) :
    ∃ old, some old ∈ slots ∧ session.Like old := by
  induction slots generalizing outputs with
  | nil => simp [notifySlots] at h
  | cons slot rest ih =>
      cases slot with
      | none =>
          rcases List.mem_cons.mp h with h | h
          · cases h
          · obtain ⟨old, hold, hlike⟩ := ih h
            exact ⟨old, List.mem_cons_of_mem _ hold, hlike⟩
      | some old =>
          simp only [notifySlots] at h
          split at h
          · rcases List.mem_cons.mp h with h | h
            · rw [Option.some.inj h]
              exact ⟨old, List.mem_cons_self, like_notify ..⟩
            · obtain ⟨old, hold, hlike⟩ := ih h
              exact ⟨old, List.mem_cons_of_mem _ hold, hlike⟩
          · rcases List.mem_cons.mp h with h | h
            · rw [Option.some.inj h]
              exact ⟨old, List.mem_cons_self, .refl _⟩
            · obtain ⟨old, hold, hlike⟩ := ih h
              exact ⟨old, List.mem_cons_of_mem _ hold, hlike⟩

/-! ## Events -/

/-- The fragment of this moment completes a message about an item, from the central with a given
number. -/
def Hears (s : Server) (m : Moment) (id : SessionId) (item : ItemCode) : Prop :=
  ∃ fragment session payload authenticated, m.request = .receive id fragment ∧
    s.session? id = some session ∧ (session.channel.receive fragment).2 =
      .complete (item.code :: payload) authenticated

/-- The message about the item succeeds. -/
def Accepts (s : Server) (m : Moment) (id : SessionId) (item : ItemCode) : Prop :=
  s.Hears m id item ∧ (s.step m.host m.request).result = .ok ()

/-- A registration is answered, but the link does not take the answer. -/
def StrandsRegistration (s : Server) (m : Moment) (id : SessionId) : Prop :=
  s.Hears m id .registration ∧
    ∃ error, (s.step m.host m.request).result = .error (.link error)

/-- What a fragment leads to for a session that is there. -/
theorem receive_of_session? {s : Server} {id : SessionId} {session : Session}
    (h : s.session? id = some session) (host : ServerHost) (fragment : Bytes) :
    s.step host (.receive id fragment) =
      let t := onFragment host s.station session fragment
      ⟨⟨t.station, replaceIn s.slots t.session⟩, t.outputs, t.result⟩ := by
  rw [step, receive, h]

/-- A key pair of its own leaves the table of a server alone. -/
theorem slots_loadKey (host : ServerHost) (s : Server) (key : Octets 32) :
    (s.step host (.loadKey key)).server.slots = s.slots := by
  rw [step, loadKey]
  cases PrivateKey.ofBytes? key <;> rfl

/-! ## Where sessions come from -/

/-- Where a session that a server has after a step comes from. -/
inductive SessionOrigin (s : Server) (m : Moment) (session : Session) : Prop
  /-- It was there, and has at most sent and received something. -/
  | kept (old : Session) (hold : old ∈ s.sessions) (hlike : session.Like old)
  /-- It was there, and has been dropped. -/
  | dropped (old : Session) (hold : old ∈ s.sessions) (now : UInt32)
      (hlike : session.Like (old.drop now))
  /-- Its central has just subscribed. -/
  | opened (id : SessionId) (now : UInt32) (hrequest : m.request = .subscribed id now)
      (hstate : session.state ≠ .running)
      (hkey : session.channel.cipher.key = none ∨ session.OwnedBy s.station)
  /-- Its central has just logged in. -/
  | loggedIn (old : Session) (hold : s.session? session.id = some old)
      (haccepts : s.Accepts m session.id .login) (hkey : old.channel.cipher.hasKey = true)
      (hlike : session.Like (old.setState .running s.station.now))
  /-- Its central has just registered. -/
  | registered (haccepts : s.Accepts m session.id .registration) (hstate : session.state = .running)
      (howned : session.OwnedBy (s.step m.host m.request).server.station)
  /-- Its central has not taken the answer to a registration. -/
  | stranded (old : Session) (hold : old ∈ s.sessions) (hid : session.id = old.id)
      (hstate : session.state = old.state) (hnew : s.station.registered = false)
      (hkey : session.channel.cipher.hasKey = true)
      (hstrands : s.StrandsRegistration m session.id)

/-- A session that has been greeted waits for a login, with a key if the server is registered;
unless the greeting has failed. -/
theorem greet_cases (host : ServerHost) (station : Station) (session : Session) :
    ((greet host station session).session.Like session ∧
      ∃ error, (greet host station session).result = .error (.link error)) ∨
    ((greet host station session).session.Like
        ((if station.registered then session.withSecret station.secret else session).setState
          .waitingLogin station.now) ∧
      (greet host station session).result = .ok ()) := by
  let t : Turn := { station := station, session := session }
  have hlike := like_notify host t .publish .initial session.nonce.toBytes false
  rcases result_notify host t .publish .initial session.nonce.toBytes false with
    hok | ⟨error, herror⟩
  · rw [greet, andThen_of_ok hok]
    refine .inr ?_
    by_cases hregistered : station.registered = true
    · have hkeyed : (t.notify host .publish .initial session.nonce.toBytes false).station.registered
          = true := hregistered
      rw [if_pos hkeyed, if_pos hregistered]
      exact ⟨(hlike.withSecret station.secret).setState .waitingLogin station.now, hok⟩
    · have hkeyed : ¬ (t.notify host .publish .initial session.nonce.toBytes
          false).station.registered = true := hregistered
      rw [if_neg hkeyed, if_neg hregistered]
      exact ⟨hlike.setState .waitingLogin station.now, hok⟩
  · rw [greet, andThen_of_error herror]
    exact .inl ⟨hlike, _, herror⟩

/-- A greeting does not touch the shared part. -/
@[simp] theorem station_greet (host : ServerHost) (station : Station) (session : Session) :
    (greet host station session).station = station := by
  simp only [greet, Turn.andThen]
  split
  · split <;> rfl
  · rfl

/-- A new session that has been greeted does not run, and has no key but one under the secret of a
registered server. -/
theorem greet_new (host : ServerHost) (station : Station) (id : SessionId) (nonce : Token) :
    (greet host station (Session.new id nonce)).session.state ≠ .running ∧
      ((greet host station (Session.new id nonce)).session.channel.cipher.key = none ∨
        (greet host station (Session.new id nonce)).session.OwnedBy station) := by
  rcases greet_cases host station (Session.new id nonce) with ⟨hlike, -⟩ | ⟨hlike, -⟩
  · rw [hlike.state]
    exact ⟨by simp [Session.new], .inl hlike.key⟩
  · rw [hlike.state, Session.state_setState]
    refine ⟨by decide, ?_⟩
    by_cases hregistered : station.registered = true
    · rw [if_pos hregistered] at hlike
      have howned : (((Session.new id nonce).withSecret station.secret).setState .waitingLogin
          station.now).OwnedBy station := by
        refine ⟨hregistered, ?_⟩
        rw [Session.channel_setState, Session.keyUnder, Session.nonce_setState]
        rfl
      exact .inr (howned.of_eq hlike.nonce hlike.key rfl rfl)
    · rw [if_neg hregistered] at hlike
      refine .inl ?_
      rw [hlike.key, Session.channel_setState]
      rfl

/-- The session of a central that subscribes, once it has been greeted. -/
def opened (host : ServerHost) (station : Station) (id : SessionId) (now : UInt32) : Turn :=
  greet host { station with now := now, random := (station.random.draw 4).2 }
    (Session.new id (station.random.draw 4).1)

/-- Why a subscription is refused. -/
inductive RefusesSubscription (s : Server) (id : SessionId) : ServerError → Prop
  | notStarted (hmodel : s.station.model = none) : RefusesSubscription s id .notStarted
  | duplicateSession (hmodel : s.station.model ≠ none) (hused : s.hasSession id = true) :
      RefusesSubscription s id (.duplicateSession id)
  | tableFull (hmodel : s.station.model ≠ none) (hunused : s.hasSession id = false)
      (hfull : s.slots.all Option.isSome = true) : RefusesSubscription s id .tableFull

/-- A subscription is refused, and only the time is noted; or the central is greeted and gets the
first free slot. -/
theorem subscribed_cases (host : ServerHost) (s : Server) (id : SessionId) (now : UInt32) :
    (∃ error, s.RefusesSubscription id error ∧ s.step host (.subscribed id now) =
      ⟨s.modifyStation fun station => { station with now := now }, [], .error error⟩) ∨
    (s.station.model ≠ none ∧ s.hasSession id = false ∧ s.slots.all Option.isSome = false ∧
      s.step host (.subscribed id now) =
        ⟨⟨(opened host s.station id now).station,
            placeIn s.slots (opened host s.station id now).session⟩,
          (opened host s.station id now).outputs, (opened host s.station id now).result⟩) := by
  rw [step, subscribed]
  split
  · rename_i hmodel
    exact .inl ⟨_, .notStarted (Option.isNone_iff_eq_none.mp hmodel), rfl⟩
  rename_i hmodel
  have hmodel : s.station.model ≠ none := fun heq => hmodel (by rw [modifyStation, heq]; rfl)
  split
  · rename_i hused
    exact .inl ⟨_, .duplicateSession hmodel hused, rfl⟩
  rename_i hunused
  have hunused : s.hasSession id = false := Bool.eq_false_iff.mpr hunused
  split
  · rename_i hfull
    exact .inl ⟨_, .tableFull hmodel hunused hfull, rfl⟩
  · rename_i hfree
    exact .inr ⟨hmodel, hunused, Bool.eq_false_iff.mpr hfree, rfl⟩

/-- The origin of a session that has just received a fragment. -/
theorem SessionOrigin.of_receive {host : ServerHost} {s : Server} {id : SessionId}
    {fragment : Bytes} {old session : Session} (hold : s.session? id = some old)
    (hsession : session = (onFragment host s.station old fragment).session) :
    SessionOrigin s ⟨host, .receive id fragment⟩ session := by
  obtain ⟨hmem, hid⟩ := mem_of_session? hold
  have hstep := receive_of_session? hold host fragment
  cases onFragment_effect host s.station old fragment with
  | keep hstation hlike => exact .kept old hmem (hsession ▸ hlike)
  | drop hstation hlike => exact .dropped old hmem _ (hsession ▸ hlike)
  | login payload authenticated hreceived hcode hstation hlike hresult =>
      rw [← hsession] at hlike
      have hid' : session.id = id := by rw [hlike.id, Session.id_setState, hid]
      refine .loggedIn old (hid' ▸ hold) ⟨?_, ?_⟩ (Cipher.hasKey_of_verifyCode hcode) hlike
      · rw [hid']
        exact ⟨fragment, old, payload, authenticated, rfl, hold, hreceived⟩
      · rw [hstep]
        exact hresult
  | register payload authenticated hreceived secret hnew hstation hlike hresult =>
      rw [← hsession] at hlike
      have hid' : session.id = id := by
        rw [hlike.id, Session.id_setState]
        exact hid
      refine .registered ⟨?_, ?_⟩ ?_ ?_
      · rw [hid']
        exact ⟨fragment, old, payload, authenticated, rfl, hold, hreceived⟩
      · rw [hstep]
        exact hresult
      · rw [hlike.state, Session.state_setState]
      · rw [hstep]
        dsimp only
        rw [hstation]
        refine ⟨rfl, ?_⟩
        rw [hlike.key, Session.keyUnder, hlike.nonce, Session.channel_setState,
          Session.nonce_setState]
        rfl
  | strand payload authenticated hreceived secret hnew hstation hlike index hresult =>
      rw [← hsession] at hlike
      have hid' : session.id = id := by
        rw [hlike.id]
        exact hid
      refine .stranded old hmem hlike.id hlike.state hnew ?_ ⟨?_, .writeFailed index, ?_⟩
      · rw [Cipher.hasKey, hlike.key]
        rfl
      · rw [hid']
        exact ⟨fragment, old, payload, authenticated, rfl, hold, hreceived⟩
      · rw [hstep]
        exact hresult

/-- Every session after a step has an origin. -/
theorem session_step {s : Server} {m : Moment} {session : Session}
    (h : session ∈ (s.step m.host m.request).server.sessions) : SessionOrigin s m session := by
  -- Most requests leave the table alone.
  have hkept (hmem : some session ∈ s.slots) : SessionOrigin s m session :=
    .kept session (mem_sessions.mpr hmem) (.refl _)
  obtain ⟨host, request⟩ := m
  rw [mem_sessions] at h
  cases request with
  | begin model uuid => exact hkept h
  | generateKeys => exact hkept h
  | loadKey key => exact hkept (slots_loadKey host s key ▸ h)
  | setRegistered secret => exact hkept h
  | setMechStatus status => exact hkept h
  | setMechSetting setting => exact hkept h
  | setLoginTimeout milliseconds => exact hkept h
  | setCurrentTime seconds now => exact hkept h
  | subscribed id now =>
      rcases subscribed_cases host s id now with ⟨error, -, hstep⟩ | ⟨-, -, -, hstep⟩
      · rw [hstep] at h
        exact hkept h
      · rw [hstep] at h
        rcases mem_placeIn h with heq | hmem
        · obtain ⟨hstate, hkey⟩ := greet_new host
            { s.station with now := now, random := (s.station.random.draw 4).2 } id
            (s.station.random.draw 4).1
          refine .opened id now rfl (heq ▸ hstate) (heq ▸ hkey.imp_right ?_)
          exact fun howned => howned.of_eq rfl rfl rfl rfl
        · exact hkept hmem
  | disconnected id => exact hkept (mem_clearIn h)
  | receive id fragment =>
      simp only [step, receive] at h
      cases hold : s.session? id with
      | none =>
          rw [hold] at h
          exact hkept h
      | some old =>
          rw [hold] at h
          rcases mem_replaceIn h with heq | hmem
          · exact .of_receive hold heq
          · exact hkept hmem
  | update now =>
      obtain ⟨slot, hslot, hmap⟩ := List.mem_map.mp h
      obtain ⟨old, rfl, rfl⟩ := Option.map_eq_some_iff.mp hmap
      unfold checkTime
      split
      · exact .dropped old (mem_sessions.mpr hslot) now (.refl _)
      · exact .kept old (mem_sessions.mpr hslot) (.refl _)
  | notify id notice =>
      cases id with
      | none =>
          obtain ⟨old, hold, hlike⟩ := like_of_mem_notifySlots h
          exact .kept old (mem_sessions.mpr hold) hlike
      | some id =>
          simp only [step, notifyOne] at h
          cases hold : s.session? id with
          | none =>
              rw [hold] at h
              exact hkept h
          | some old =>
              rw [hold] at h
              rcases mem_replaceIn h with heq | hmem
              · exact .kept old (mem_of_session? hold).1 (heq ▸ like_notify ..)
              · exact hkept hmem

/-- The owner of a server changes only when it is set, or with a fragment. -/
theorem station_step (host : ServerHost) (s : Server) (request : Request) :
    ((s.step host request).server.station.registered = s.station.registered ∧
      (s.step host request).server.station.secret = s.station.secret) ∨
    (∃ secret, request = .setRegistered secret) ∨
    ∃ id fragment old, request = .receive id fragment ∧ s.session? id = some old ∧
      (s.step host request).server.station = (onFragment host s.station old fragment).station := by
  cases request with
  | begin model uuid =>
      left
      simp only [step, begin, modifyStation]
      split <;> exact ⟨rfl, rfl⟩
  | loadKey key =>
      left
      simp only [step, loadKey]
      cases PrivateKey.ofBytes? key with
      | none => exact ⟨rfl, rfl⟩
      | some k => exact ⟨rfl, rfl⟩
  | setRegistered secret => exact .inr (.inl ⟨secret, rfl⟩)
  | subscribed id now =>
      left
      rcases subscribed_cases host s id now with ⟨error, -, hstep⟩ | ⟨-, -, -, hstep⟩
      · rw [hstep]
        exact ⟨rfl, rfl⟩
      · rw [hstep, opened, station_greet]
        exact ⟨rfl, rfl⟩
  | receive id fragment =>
      simp only [step, receive]
      cases hold : s.session? id with
      | none => exact .inl ⟨rfl, rfl⟩
      | some old => exact .inr (.inr ⟨id, fragment, old, rfl, hold, rfl⟩)
  | notify id notice =>
      left
      cases id with
      | none => exact ⟨rfl, rfl⟩
      | some id =>
          simp only [step, notifyOne]
          cases s.session? id with
          | none => exact ⟨rfl, rfl⟩
          | some old => exact ⟨rfl, rfl⟩
  | generateKeys => exact .inl ⟨rfl, rfl⟩
  | setMechStatus status => exact .inl ⟨rfl, rfl⟩
  | setMechSetting setting => exact .inl ⟨rfl, rfl⟩
  | setLoginTimeout milliseconds => exact .inl ⟨rfl, rfl⟩
  | setCurrentTime seconds now => exact .inl ⟨rfl, rfl⟩
  | disconnected id => exact .inl ⟨rfl, rfl⟩
  | update now => exact .inl ⟨rfl, rfl⟩

/-! ## Runs -/

/-- A run in two parts. -/
theorem run_append (s : Server) (first second : List Moment) :
    s.run (first ++ second) =
      (((s.run first).1.run second).1, (s.run first).2 ++ ((s.run first).1.run second).2) := by
  induction first generalizing s with
  | nil => rfl
  | cons m rest ih => simp only [List.cons_append, run, ih, List.append_assoc]

/-- A run of one more request. -/
theorem run_concat (s : Server) (ms : List Moment) (m : Moment) :
    s.run (ms ++ [m]) =
      (((s.run ms).1.step m.host m.request).server,
        (s.run ms).2 ++ ((s.run ms).1.step m.host m.request).outputs) := by
  simp [run_append, run]

/-- At some moment of a run of a server something happens. -/
abbrev Happens (s : Server) (ms : List Moment) (event : Server → Moment → Prop) : Prop :=
  SmartLock.Happens (fun ms => (s.run ms).1) ms event

/-- An output of a run is one of some step of it. -/
theorem mem_run_iff {s : Server} {ms : List Moment} {output : ServerOutput} :
    output ∈ (s.run ms).2 ↔
      s.Happens ms fun s m => output ∈ (s.step m.host m.request).outputs := by
  induction ms using List.reverseRecOn with
  | nil => simp [run, SmartLock.Happens]
  | append_singleton ms m ih =>
      rw [run_concat, List.mem_append, ih]
      exact happens_concat.symm

/-- A new server has no sessions. -/
@[simp] theorem sessions_new (random : RandomSource) (maxSessions : Nat) :
    (Server.new random maxSessions).sessions = [] := by
  simp [sessions, Server.new]

/-- In every run of a new server, a session that runs has a key, and its central has logged in or
registered before. -/
theorem running_run {random : RandomSource} {maxSessions : Nat} {ms : List Moment}
    {session : Session} (h : session ∈ ((Server.new random maxSessions).run ms).1.sessions)
    (hrunning : session.state = .running) :
    session.channel.cipher.hasKey = true ∧ (Server.new random maxSessions).Happens ms fun s m =>
      s.Accepts m session.id .login ∨ s.Accepts m session.id .registration := by
  -- The session before the last step is another one, hence the induction over all sessions.
  induction ms using List.reverseRecOn generalizing session with
  | nil => simp [run] at h
  | append_singleton ms m ih =>
      rw [run_concat] at h
      cases session_step h with
      | kept old hold hlike =>
          obtain ⟨hkey, hhappens⟩ := ih hold (hlike.state ▸ hrunning)
          rw [Cipher.hasKey, hlike.key, hlike.id]
          exact ⟨hkey, happens_concat.mpr (.inl hhappens)⟩
      | dropped old hold now hlike =>
          rw [hlike.state, Session.drop, Session.state_setState] at hrunning
          cases hrunning
      | opened id now hrequest hstate hkey => exact absurd hrunning hstate
      | loggedIn old hold haccepts hkey hlike =>
          refine ⟨?_, happens_concat.mpr (.inr (.inl haccepts))⟩
          rw [Cipher.hasKey, hlike.key, Session.channel_setState]
          exact hkey
      | registered haccepts hstate howned =>
          refine ⟨?_, happens_concat.mpr (.inr (.inr haccepts))⟩
          rw [Cipher.hasKey, howned.2]
          rfl
      | stranded old hold hid hstate hnew hkey hstrands =>
          -- The session runs because it has been running; only its key is new.
          obtain ⟨-, hhappens⟩ := ih hold (hstate ▸ hrunning)
          exact ⟨hkey, happens_concat.mpr (.inl (hid ▸ hhappens))⟩

end Server

end SmartLock
