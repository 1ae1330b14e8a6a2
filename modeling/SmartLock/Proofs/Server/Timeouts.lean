/-
# Logins that take too long

A session waits for its login from the moment at which its central has subscribed.  The time is
checked every now and then, and a session that has waited for longer than the server allows is
dropped at the first check that finds it out; its link is closed once.

A server knows times in words only, which come round after 2 ^ 32 milliseconds.  Still it never
mistakes one wait for another if the time is checked often enough (`Server.Timely`): a session that
has not been dropped at the last check has waited for no longer than the time allowed, so that until
the next check the word does not come round (`Server.Timely.sub_lt`, `Server.isLate_iff`).
-/
import Mathlib.Data.List.Chain
import SmartLock.Proofs.Server.Clock
import SmartLock.Proofs.Server.Entrances
import SmartLock.Proofs.Server.Numbers

namespace SmartLock.Server

/-! ## Checks of the time -/

/-- Whether a request checks the time. -/
def Request.isUpdate : Request → Bool
  | .update _ => true
  | _ => false

/-- The times at which the time is checked in a run, in order. -/
def ticks (ms : List TimedMoment) : List Nat :=
  (ms.filter fun m => m.request.isUpdate).map TimedMoment.time

/-- One more moment counts if it checks the time. -/
theorem ticks_concat (ms : List TimedMoment) (m : TimedMoment) :
    ticks (ms ++ [m]) = ticks ms ++ if m.request.isUpdate then [m.time] else [] := by
  rw [ticks, List.filter_append, List.map_append]
  cases hupdate : m.request.isUpdate <;> simp [ticks, hupdate]

/-- The first check of the time, in a run, at which somebody who has waited since `start` has waited
for too long. -/
def firstLate (timeout : UInt32) (start : Nat) (ms : List TimedMoment) : Option Nat :=
  (ticks ms).find? fun now => timeout.toNat < now - start

/-- One more moment counts if nobody has been late before. -/
theorem firstLate_concat (timeout : UInt32) (start : Nat) (ms : List TimedMoment)
    (m : TimedMoment) : firstLate timeout start (ms ++ [m]) = (firstLate timeout start ms).or
      (if m.request.isUpdate ∧ timeout.toNat < m.time - start then some m.time else none) := by
  rw [firstLate, ticks_concat, List.find?_append]
  congr 1
  by_cases hupdate : m.request.isUpdate = true
  · by_cases hlate : timeout.toNat < m.time - start <;> simp [hupdate, hlate]
  · simp [hupdate]

/-- From `start` on the time is checked often enough, and it does not go back. -/
def Timely (timeout : UInt32) (start : Nat) (ms : List TimedMoment) : Prop :=
  (start :: ticks ms).IsChain fun earlier later =>
    earlier ≤ later ∧ later - earlier ≤ 2 ^ 32 - 1 - timeout.toNat

instance (timeout : UInt32) (start : Nat) (ms : List TimedMoment) :
    Decidable (Timely timeout start ms) := by
  unfold Timely
  infer_instance

section Timely

variable {timeout : UInt32} {start : Nat}

/-- In the first moments the time is checked often enough, too. -/
theorem Timely.of_append {before after : List TimedMoment}
    (h : Timely timeout start (before ++ after)) : Timely timeout start before := by
  rw [Timely, ticks, List.filter_append, List.map_append, ← List.cons_append] at h
  exact h.left_of_append

/-- The time does not go back. -/
theorem Timely.pairwise {ms : List TimedMoment} (h : Timely timeout start ms) :
    (start :: ticks ms).Pairwise (· ≤ ·) :=
  List.isChain_iff_pairwise.mp (h.imp fun _ _ hstep => hstep.1)

/-- As long as nobody is late, the next check comes before the word of the time has come round. -/
theorem Timely.sub_lt {ms : List TimedMoment} {m : TimedMoment}
    (h : Timely timeout start (ms ++ [m])) (hupdate : m.request.isUpdate = true)
    (hnone : firstLate timeout start ms = none) :
    start ≤ m.time ∧ m.time - start < 2 ^ 32 := by
  have htimeout := timeout.toNat_lt
  have horder := h.of_append.pairwise
  rw [Timely, ticks_concat, if_pos hupdate, ← List.cons_append] at h
  rw [firstLate, List.find?_eq_none] at hnone
  -- The time before is that of the last check, or the start.
  obtain ⟨before, last, hlast⟩ : ∃ before last, start :: ticks ms = before ++ [last] :=
    ⟨_, _, (List.dropLast_append_getLast (List.cons_ne_nil start (ticks ms))).symm⟩
  have hwaits : start ≤ last ∧ last - start ≤ timeout.toNat := by
    have hmem : last ∈ start :: ticks ms := by simp [hlast]
    rcases List.mem_cons.mp hmem with rfl | hmem
    · omega
    · exact ⟨(List.pairwise_cons.mp horder).1 last hmem, by simpa using hnone last hmem⟩
  rw [hlast, List.append_assoc, List.singleton_append, List.isChain_append_cons_cons] at h
  obtain ⟨-, ⟨hle, hgap⟩, -⟩ := h
  omega

end Timely

/-- If the word of the time has not come round since a session began to wait, a check finds out
whether it has waited for too long. -/
theorem isLate_iff (timeout : UInt32) {start now : Nat} {session : Session}
    (hstate : session.state = .waitingLogin) (hsince : session.since = UInt32.ofNat start)
    (hle : start ≤ now) (hlt : now - start < 2 ^ 32) :
    isLate timeout (UInt32.ofNat now) session = true ↔ timeout.toNat < now - start := by
  have hdiff := toNat_ofNat_sub_ofNat hle
  rw [Nat.mod_eq_of_lt hlt] at hdiff
  simp only [isLate, hstate, hsince, Bool.and_eq_true, decide_eq_true_eq, true_and,
    UInt32.lt_iff_toNat_lt, hdiff]

/-! ## Who waits -/

/-- The time of a real change of state is noted. -/
theorem since_setState {session : Session} {state : SessionState} (h : session.state ≠ state)
    (now : UInt32) : (session.setState state now).since = now := by
  rw [Session.setState, if_neg h]

/-- At this moment the session with a given number begins to wait for its login. -/
def StartsWaiting (s : Server) (m : Moment) (id : SessionId) : Prop :=
  s.sessionState? id ≠ some .waitingLogin ∧
    (s.step m.host m.request).server.sessionState? id = some .waitingLogin

instance (s : Server) (m : Moment) (id : SessionId) : Decidable (s.StartsWaiting m id) := by
  unfold StartsWaiting
  infer_instance

/-- A new session that has been greeted has changed its state then. -/
theorem since_greet {host : ServerHost} {station : Station} {session : Session}
    (hstate : session.state ≠ .waitingLogin)
    (hok : (greet host station session).result = .ok ()) :
    (greet host station session).session.since = station.now := by
  rcases result_notify host { station := station, session := session } .publish .initial
    session.nonce.toBytes false with hsent | ⟨error, herror⟩
  · rw [greet, andThen_of_ok hsent]
    dsimp only
    -- Neither the message nor the key has changed the state.
    split <;> exact since_setState (by exact hstate) _
  · rw [greet, andThen_of_error herror, herror] at hok
    cases hok

/-- A session begins to wait when its central subscribes, and notes the time. -/
theorem startsWaiting_cases {s : Server} {m : Moment} {id : SessionId}
    (h : s.StartsWaiting m id) :
    ∃ session, (s.step m.host m.request).server.session? id = some session ∧
      session.state = .waitingLogin ∧ m.request = .subscribed id session.since := by
  obtain ⟨hbefore, hafter⟩ := h
  obtain ⟨session, hsession, hwaiting⟩ := sessionState?_eq_some_iff.mp hafter
  refine ⟨session, hsession, hwaiting, ?_⟩
  cases hold : s.session? id with
  | none =>
      obtain ⟨now, hrequest, rfl, -⟩ := session?_step_of_eq_none hold hsession
      rcases opened_cases m.host s.station id now with ⟨⟨hidle, -⟩, -⟩ | ⟨-, hok⟩
      · cases hidle.symm.trans hwaiting
      · have hsince : (opened m.host s.station id now).session.since = now :=
          since_greet (by simp [Session.new]) hok
        rw [hrequest, hsince]
  | some old =>
      -- No session that is there comes to wait.
      have hnot : old.state ≠ .waitingLogin := fun hstate =>
        hbefore (sessionState?_eq_some_iff.mpr ⟨old, hold, hstate⟩)
      cases fate_step hold hsession with
      | kept hlike => exact absurd (hlike.state.symm.trans hwaiting) hnot
      | dropped hlockedOut => cases hlockedOut.1.symm.trans hwaiting
      | loggedIn code hcompletes hcode haccepts hlike =>
          rw [hlike.state, Session.state_setState] at hwaiting
          cases hwaiting
      | registered haccepts hstate => cases hstate.symm.trans hwaiting
      | stranded hstrands hstate hkey => exact absurd (hstate.symm.trans hwaiting) hnot

/-! ## What a check does -/

/-- Among sessions with different numbers, the check closes the link of the one with a given number
once if it is late, and else not at all. -/
theorem count_checkTime (timeout now : UInt32) (id : SessionId) {sessions : List Session}
    (h : (sessions.map Session.id).Nodup) :
    (sessions.flatMap fun session => (checkTime timeout now session).2).count (.disconnect id) =
      if (sessions.find? (·.id = id)).any (isLate timeout now) then 1 else 0 := by
  induction sessions with
  | nil => rfl
  | cons first rest ih =>
      rw [List.map_cons, List.nodup_cons] at h
      have hcheck : (checkTime timeout now first).2.count (.disconnect id) =
          if first.id = id ∧ isLate timeout now first = true then 1 else 0 := by
        rw [checkTime]
        split
        · rename_i hlate
          simp [List.count_singleton, hlate]
        · rename_i hlate
          simp [hlate]
      rw [List.flatMap_cons, List.count_append, hcheck, ih h.2]
      by_cases hfirst : first.id = id
      · -- No other session has the number.
        have hnone : rest.find? (·.id = id) = none := by
          rw [List.find?_eq_none]
          intro other hother hid
          apply h.1
          rw [hfirst, ← of_decide_eq_true hid]
          exact List.mem_map_of_mem hother
        simp [hfirst, hnone]
      · simp [hfirst]

/-- A check drops the session with a given number and closes its link if it is late, and else leaves
both alone. -/
theorem update_of_session? {s : Server} {id : SessionId} {old : Session} (hids : s.ids.Nodup)
    (hold : s.session? id = some old) (host : ServerHost) (now : UInt32) :
    (s.step host (.update now)).server.session? id =
        some (if isLate s.station.loginTimeout now old then old.drop now else old) ∧
      (s.step host (.update now)).outputs.count (.disconnect id) =
        if isLate s.station.loginTimeout now old then 1 else 0 := by
  constructor
  · rw [session?_update, hold, Option.map_some, checkTime]
    split <;> rfl
  · have hcount := count_checkTime s.station.loginTimeout now id hids
    rw [session?] at hold
    rw [hold, Option.any_some] at hcount
    exact hcount

/-- A check leaves a session alone that is not late. -/
theorem update_of_not_late {s : Server} {id : SessionId} {session : Session} {now : UInt32}
    (hids : s.ids.Nodup) (hsession : s.session? id = some session)
    (hlate : ¬ isLate s.station.loginTimeout now session = true) (host : ServerHost) :
    (s.step host (.update now)).server.session? id = some session ∧
      .disconnect id ∉ (s.step host (.update now)).outputs := by
  obtain ⟨hafter, hcount⟩ := update_of_session? hids hsession host now
  rw [if_neg hlate] at hafter hcount
  exact ⟨hafter, List.count_eq_zero.mp hcount⟩

/-- Who does not wait is never late. -/
theorem not_isLate_of_ne {session : Session} (h : session.state ≠ .waitingLogin)
    (timeout now : UInt32) : ¬ isLate timeout now session = true := by
  simp [isLate, h]

/-! ## What spares a session -/

/-- A request is about something else than the session with a given number, and leaves a login the
time that it is allowed.  A notification for all sessions does not reach one that does not run. -/
def Request.Spares (id : SessionId) (timeout : UInt32) : Request → Prop
  | .receive other _ => other ≠ id
  | .disconnected other => other ≠ id
  | .notify (some other) _ => other ≠ id
  | .setLoginTimeout milliseconds => milliseconds = timeout
  | _ => True

section Spares

variable {s : Server} {m : Moment} {id : SessionId} {timeout : UInt32}
  (hspares : m.request.Spares id timeout)

include hspares

/-- The time allowed stays as it is. -/
theorem loginTimeout_of_spares (htimeout : s.station.loginTimeout = timeout) :
    (s.step m.host m.request).server.station.loginTimeout = timeout := by
  obtain ⟨-, -, heq⟩ := times_step m.host s m.request
  rw [heq]
  cases hrequest : m.request with
  | setLoginTimeout milliseconds =>
      rw [hrequest] at hspares
      exact hspares
  | _ => exact htimeout

variable (hupdate : m.request.isUpdate = false)

include hupdate

/-- A session that does not run stays exactly as it is. -/
theorem session?_step_of_spares {old : Session} (hold : s.session? id = some old)
    (hnot : old.state ≠ .running) :
    (s.step m.host m.request).server.session? id = some old := by
  obtain ⟨-, rfl⟩ := mem_of_session? hold
  have hstays : m.request ≠ .disconnected old.id := by
    intro hrequest
    rw [hrequest] at hspares
    exact hspares rfl
  obtain ⟨new, hnew, htreated⟩ := session?_step hold hstays
  cases htreated with
  | received fragment hrequest =>
      rw [hrequest] at hspares
      exact absurd rfl hspares
  | checked now hrequest =>
      rw [hrequest] at hupdate
      cases hupdate
  | told target notice hrequest htarget =>
      rcases htarget with rfl | ⟨-, hrunning⟩
      · rw [hrequest] at hspares
        exact absurd rfl hspares
      · exact absurd hrunning hnot
  | left hreceive hupdate hsame => rw [hnew, hsame]

/-- Its link is not closed. -/
theorem disconnect_not_mem_of_spares :
    .disconnect id ∉ (s.step m.host m.request).outputs := by
  intro hmem
  rcases mem_outputs_step hmem with ⟨other, fragment, session, hrequest, hsession, hreaction⟩ |
    ⟨other, fragment, taken, heq⟩ | ⟨now, session, hrequest, -⟩
  · rw [hrequest] at hspares
    exact hspares ((mem_of_session? hsession).2.symm.trans
      (reaction_onFragment hreaction).session.symm)
  · cases heq
  · rw [hrequest] at hupdate
    cases hupdate

end Spares

/-! ## Runs -/

/-- What has become of a session that has been waiting since `start`, on a server that allows a
certain time for a login, after a run with some outputs: it is as it was as long as no check has
found it late, and else it has been dropped at the first check that has. -/
structure Awaited (s : Server) (outputs : List ServerOutput) (session : Session)
    (timeout : UInt32) (start : Nat) (ms : List TimedMoment) : Prop where
  ids : s.ids.Nodup
  allowed : s.station.loginTimeout = timeout
  waits : firstLate timeout start ms = none →
    s.session? session.id = some session ∧ outputs.count (.disconnect session.id) = 0
  dropped : ∀ now, firstLate timeout start ms = some now →
    s.session? session.id = some (session.drop (UInt32.ofNat now)) ∧
      outputs.count (.disconnect session.id) = 1

section Runs

variable {s : Server} {outputs : List ServerOutput} {session : Session} {timeout : UInt32}
  {start : Nat} {ms : List TimedMoment} {m : TimedMoment}

/-- A dropped session is idle. -/
theorem state_drop (now : UInt32) : (session.drop now).state = .idle := Session.state_setState ..

/-- Until it is dropped and after that, the session is found under its number and does not run. -/
theorem Awaited.session? (h : Awaited s outputs session timeout start ms)
    (hstate : session.state = .waitingLogin) :
    ∃ old, s.session? session.id = some old ∧ old.state ≠ .running := by
  cases hfirst : firstLate timeout start ms with
  | none => exact ⟨session, (h.waits hfirst).1, by simp [hstate]⟩
  | some now => exact ⟨_, (h.dropped now hfirst).1, by simp [state_drop]⟩

/-- Nothing changes in a step that leaves the session as it is, does not close its link, and is no
first check that comes too late. -/
theorem Awaited.same (h : Awaited s outputs session timeout start ms) {s' : Server}
    {more : List ServerOutput} (hids : s'.ids.Nodup) (hallowed : s'.station.loginTimeout = timeout)
    (hlate : firstLate timeout start (ms ++ [m]) = firstLate timeout start ms)
    (hsession : s'.session? session.id = s.session? session.id)
    (hmore : .disconnect session.id ∉ more) :
    Awaited s' (outputs ++ more) session timeout start (ms ++ [m]) := by
  have hcount : (outputs ++ more).count (.disconnect session.id) =
      outputs.count (.disconnect session.id) := by
    rw [List.count_append, List.count_eq_zero_of_not_mem hmore, Nat.add_zero]
  refine ⟨hids, hallowed, fun hnone => ?_, fun now hsome => ?_⟩
  · rw [hsession, hcount]
    exact h.waits (hlate ▸ hnone)
  · rw [hsession, hcount]
    exact h.dropped now (hlate ▸ hsome)

/-- A request that spares the session and does not check the time changes nothing for it. -/
theorem Awaited.spare (h : Awaited s outputs session timeout start ms)
    (hstate : session.state = .waitingLogin) (hspares : m.request.Spares session.id timeout)
    (hupdate : m.request.isUpdate = false) :
    Awaited (s.step m.host m.request).server (outputs ++ (s.step m.host m.request).outputs) session
      timeout start (ms ++ [m]) := by
  obtain ⟨old, hold, hnot⟩ := h.session? hstate
  apply h.same (nodup_ids_step h.ids m.host m.request) (loginTimeout_of_spares hspares h.allowed)
  · simp [firstLate_concat, hupdate]
  · rw [hold]
    exact session?_step_of_spares hspares hupdate hold hnot
  · exact disconnect_not_mem_of_spares hspares hupdate

/-- A check drops the session if it has not been dropped and is late. -/
theorem Awaited.check (h : Awaited s outputs session timeout start ms)
    (hstate : session.state = .waitingLogin) (hsince : session.since = UInt32.ofNat start)
    (hupdate : m.request.isUpdate = true) (htimely : Timely timeout start (ms ++ [m])) :
    Awaited (s.step m.host m.request).server (outputs ++ (s.step m.host m.request).outputs) session
      timeout start (ms ++ [m]) := by
  obtain ⟨now, hrequest⟩ : ∃ now, m.request = .update now := by
    cases hrequest : m.request <;> simp_all [Request.isUpdate]
  obtain rfl := m.tells now (by simp [hrequest, Request.time?])
  have hids := nodup_ids_step h.ids m.host m.request
  have hallowed := (times_step m.host s m.request).2.2
  rw [hrequest] at hids hallowed ⊢
  replace hallowed := hallowed.trans h.allowed
  cases hbefore : firstLate timeout start ms with
  | none =>
      obtain ⟨hsession, hzero⟩ := h.waits hbefore
      obtain ⟨hle, hlt⟩ := htimely.sub_lt hupdate hbefore
      have hiff := isLate_iff timeout hstate hsince hle hlt
      by_cases hlate : timeout.toNat < m.time - start
      · have heq : firstLate timeout start (ms ++ [m]) = some m.time := by
          simp [firstLate_concat, hbefore, hupdate, hlate]
        obtain ⟨hafter, hcount⟩ := update_of_session? h.ids hsession m.host (UInt32.ofNat m.time)
        rw [h.allowed, if_pos (hiff.mpr hlate)] at hafter hcount
        refine ⟨hids, hallowed, fun hnone => ?_, fun now hsome => ?_⟩
        · cases heq.symm.trans hnone
        · obtain rfl := Option.some.inj (heq.symm.trans hsome)
          exact ⟨hafter, by rw [List.count_append, hzero, hcount]⟩
      · obtain ⟨hafter, hmore⟩ := update_of_not_late h.ids hsession
          (h.allowed ▸ mt hiff.mp hlate) m.host
        refine h.same hids hallowed ?_ (hafter.trans hsession.symm) hmore
        simp [firstLate_concat, hlate]
  | some first =>
      -- What has been dropped is idle, and is never late again.
      obtain ⟨hsession, -⟩ := h.dropped first hbefore
      obtain ⟨hafter, hmore⟩ := update_of_not_late h.ids hsession
        (not_isLate_of_ne (by simp [state_drop]) s.station.loginTimeout (UInt32.ofNat m.time))
        m.host
      refine h.same hids hallowed ?_ (hafter.trans hsession.symm) hmore
      simp [firstLate_concat, hbefore]

/-- What becomes of a session that begins to wait now, in a run that spares it. -/
theorem awaited_run (hids : s.ids.Nodup) (hallowed : s.station.loginTimeout = timeout)
    (hsession : s.session? session.id = some session) (hstate : session.state = .waitingLogin)
    (hsince : session.since = UInt32.ofNat start)
    (hspares : ∀ m ∈ ms, m.request.Spares session.id timeout) (htimely : Timely timeout start ms) :
    Awaited (s.run (moments ms)).1 (s.run (moments ms)).2 session timeout start ms := by
  induction ms using List.reverseRecOn with
  | nil =>
      refine ⟨hids, hallowed, fun _ => ⟨hsession, rfl⟩, fun now hsome => ?_⟩
      simp [firstLate, ticks] at hsome
  | append_singleton ms m ih =>
      have hbefore := ih (fun m' hm => hspares m' (List.mem_append_left _ hm)) htimely.of_append
      rw [moments_append]
      change Awaited (s.run (moments ms ++ [m.toMoment])).1 (s.run (moments ms ++ [m.toMoment])).2
        session timeout start (ms ++ [m])
      rw [run_concat]
      cases hupdate : m.request.isUpdate with
      | true => exact hbefore.check hstate hsince hupdate htimely
      | false => exact hbefore.spare hstate (hspares m (by simp)) hupdate

/-- After the last check the session still waits exactly if it has not waited for too long. -/
theorem Awaited.waiting_iff (h : Awaited s outputs session timeout start ms)
    (hstate : session.state = .waitingLogin) (htimely : Timely timeout start ms) {now : Nat}
    (hlast : (ticks ms).getLast? = some now) :
    s.sessionState? session.id = some .waitingLogin ↔ now - start ≤ timeout.toNat := by
  obtain ⟨rest, hticks⟩ := List.getLast?_eq_some_iff.mp hlast
  rw [sessionState?]
  cases hfirst : firstLate timeout start ms with
  | none =>
      obtain ⟨hsession, -⟩ := h.waits hfirst
      rw [firstLate, List.find?_eq_none] at hfirst
      have hwaits := hfirst now (by simp [hticks])
      rw [hsession, Option.map_some, hstate]
      simpa using hwaits
  | some first =>
      obtain ⟨hsession, -⟩ := h.dropped first hfirst
      -- The first check that is too late is not after the last one.
      have hlate : timeout.toNat < first - start := by simpa using List.find?_some hfirst
      have hmem : first ∈ rest ++ [now] := hticks ▸ List.mem_of_find?_eq_some hfirst
      have horder := (List.pairwise_cons.mp htimely.pairwise).2
      rw [hticks, List.pairwise_append] at horder
      have hle : first ≤ now := by
        rcases List.mem_append.mp hmem with hmem | hmem
        · exact horder.2.2 first hmem now (by simp)
        · rw [List.mem_singleton.mp hmem]
      rw [hsession, Option.map_some, state_drop]
      constructor
      · intro hwaiting
        cases hwaiting
      · intro hwithin
        omega

end Runs

/-- **How long a session waits for its login.**  In a run of a new server that allows a certain time
for a login, a session begins to wait at a real time.  From then on the run spares the session, and
the time is checked often enough.  As long as no check has come later than the time allowed, the
session is exactly as it was, and its link has not been closed.  From the first such check on it is
dropped, idle without its key and without a packet in progress, and its link has been closed once.
After every check it is still waiting exactly if it has waited for no longer than the time allowed.
And in every run, a check leaves all sessions alone that do not wait for a login. -/
theorem login_timeout_run (random : RandomSource) (maxSessions : Nat) {earlier : List Moment}
    {m : TimedMoment} {id : SessionId} {timeout : UInt32} {later : List TimedMoment}
    (hallowed : ((Server.new random maxSessions).run earlier).1.station.loginTimeout = timeout)
    (hstarts : ((Server.new random maxSessions).run earlier).1.StartsWaiting m.toMoment id)
    (hspares : ∀ l ∈ later, l.request.Spares id timeout) (htimely : Timely timeout m.time later) :
    (∃ session, ((Server.new random maxSessions).run (earlier ++ [m.toMoment])).1.session? id =
        some session ∧ session.state = .waitingLogin ∧
      ∀ before after, later = before ++ after →
        let reached := ((Server.new random maxSessions).run (earlier ++ [m.toMoment])).1.run
          (moments before)
        (firstLate timeout m.time before = none →
          reached.1.session? id = some session ∧ reached.2.count (.disconnect id) = 0) ∧
        (∀ now, firstLate timeout m.time before = some now →
          reached.1.session? id = some (session.drop (UInt32.ofNat now)) ∧
            reached.2.count (.disconnect id) = 1) ∧
        ∀ now, (ticks before).getLast? = some now →
          (reached.1.sessionState? id = some .waitingLogin ↔ now - m.time ≤ timeout.toNat)) ∧
    ∀ ms host now other session,
      ((Server.new random maxSessions).run ms).1.session? other = some session →
      session.state ≠ .waitingLogin →
      let checked := ((Server.new random maxSessions).run ms).1.step host (.update now)
      checked.server.session? other = some session ∧ .disconnect other ∉ checked.outputs := by
  constructor
  · obtain ⟨session, hsession, hstate, hrequest⟩ := startsWaiting_cases hstarts
    obtain ⟨-, rfl⟩ := mem_of_session? hsession
    have hsince : session.since = UInt32.ofNat m.time :=
      m.tells _ (by simp [hrequest, Request.time?])
    have hids := nodup_ids_run random maxSessions (earlier ++ [m.toMoment])
    have htimeout := (times_step m.host ((Server.new random maxSessions).run earlier).1
      m.request).2.2
    rw [hrequest, hallowed] at htimeout
    rw [run_concat] at hids ⊢
    refine ⟨session, hsession, hstate, ?_⟩
    rintro before after rfl
    have hbefore := htimely.of_append
    have hawaited := awaited_run hids (hrequest ▸ htimeout) hsession hstate hsince
      (fun l hl => hspares l (List.mem_append_left _ hl)) hbefore
    exact ⟨hawaited.waits, hawaited.dropped, fun now => hawaited.waiting_iff hstate hbefore⟩
  · intro ms host now other session hsession hnot
    exact update_of_not_late (nodup_ids_run random maxSessions ms) hsession
      (not_isLate_of_ne hnot _ now) host

/-- A server is started, and allows a second for a login. -/
def hurried : List Moment :=
  [⟨openHost, .begin .sesame5 Uuid.nil⟩, ⟨openHost, .setLoginTimeout 1000⟩]

/-- A central subscribes 101 milliseconds before the word of the time comes round. -/
def justBefore : TimedMoment := subscribeAt openHost 1 0xffffff9b

/-- Then the time is checked three times: 800, 1000 and 5000 milliseconds after that. -/
def threeChecks : List TimedMoment :=
  [checkAt openHost 0x100000320, checkAt openHost 0x1000003e8, checkAt openHost 0x100001388]

/-- The second check finds the session late, and the third one does not close its link again. -/
theorem login_timeout_run_threeChecks :
    (((Server.new (RandomSource.ofSeed 3) 2).run hurried).1.station.loginTimeout = 1000 ∧
      ((Server.new (RandomSource.ofSeed 3) 2).run hurried).1.StartsWaiting justBefore.toMoment 1 ∧
      (∀ l ∈ threeChecks, l.request.Spares 1 1000) ∧ Timely 1000 justBefore.time threeChecks) ∧
    let waiting := ((Server.new (RandomSource.ofSeed 3) 2).run
      (hurried ++ [justBefore.toMoment])).1
    (waiting.run (moments (threeChecks.take 1))).1.sessionState? 1 = some .waitingLogin ∧
      (waiting.run (moments (threeChecks.take 2))).1.sessionState? 1 ≠ some .waitingLogin ∧
      (waiting.run (moments threeChecks)).2.count (.disconnect 1) = 1 := by
  have hallowed : ((Server.new (RandomSource.ofSeed 3) 2).run hurried).1.station.loginTimeout =
      1000 := by decide +kernel
  have hstarts : ((Server.new (RandomSource.ofSeed 3) 2).run hurried).1.StartsWaiting
      justBefore.toMoment 1 := by decide +kernel
  have hspares : ∀ l ∈ threeChecks, l.request.Spares 1 1000 := by
    simp [threeChecks, checkAt, Request.Spares]
  have htimely : Timely 1000 justBefore.time threeChecks := by decide
  refine ⟨⟨hallowed, hstarts, hspares, htimely⟩, ?_⟩
  obtain ⟨⟨session, hsession, hstate, hruns⟩, -⟩ := login_timeout_run (RandomSource.ofSeed 3) 2
    hallowed hstarts hspares htimely
  obtain ⟨-, -, hfirst⟩ := hruns (threeChecks.take 1) (threeChecks.drop 1) rfl
  obtain ⟨-, -, hsecond⟩ := hruns (threeChecks.take 2) (threeChecks.drop 2) rfl
  obtain ⟨-, hlate, -⟩ := hruns threeChecks [] rfl
  refine ⟨(hfirst 0x100000320 rfl).mpr (by decide), ?_, (hlate 0x1000003e8 rfl).2⟩
  rw [ne_eq, hsecond 0x1000003e8 rfl]
  decide

end SmartLock.Server
