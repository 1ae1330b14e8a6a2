/-
# The table of slots

A server keeps the slots that it was made with.  A central that subscribes gets the first free one,
or is refused for exactly one of three reasons and then changes nothing but the time (`Admission`);
a central that disconnects frees its own slot and no other (`Release`); and nothing else moves a
session (`layout_step`).  `table_run` says so for every run of a new server.
-/
import SmartLock.Proofs.Server.Numbers

namespace SmartLock.Server

variable {s : Server}

/-! ## Full tables -/

/-- There are as many sessions as slots that are taken. -/
theorem sessionCount_eq_countP (s : Server) :
    s.sessionCount = s.slots.countP Option.isSome := List.length_filterMap_eq_countP

/-- There are no more sessions than slots. -/
theorem sessionCount_le (s : Server) : s.sessionCount ≤ s.slots.length := by
  rw [sessionCount_eq_countP]
  exact List.countP_le_length

/-- No slot is free when there are as many sessions as slots. -/
theorem all_isSome_iff : s.slots.all Option.isSome = true ↔ s.sessionCount = s.slots.length := by
  rw [sessionCount_eq_countP, List.countP_eq_length, List.all_eq_true]

/-! ## Subscriptions -/

/-- The reasons for which a central gets no slot. -/
def refusals (id : SessionId) : List ServerError := [.notStarted, .duplicateSession id, .tableFull]

/-- What the subscription of a central does to a table of `n` slots. -/
structure Admission (s : Server) (n : Nat) (host : ServerHost) (id : SessionId) (now : UInt32) :
    Prop where
  /-- It is refused if the server has not started. -/
  notStarted_iff :
    (s.step host (.subscribed id now)).result = .error .notStarted ↔ s.station.model = none
  /-- On a server that has, it is refused if the number is in use. -/
  duplicateSession_iff : s.station.model ≠ none →
    ((s.step host (.subscribed id now)).result = .error (.duplicateSession id) ↔
      s.hasSession id = true)
  /-- If the number is not in use, it is refused if all slots are. -/
  tableFull_iff : s.station.model ≠ none → s.hasSession id = false →
    ((s.step host (.subscribed id now)).result = .error .tableFull ↔ s.sessionCount = n)
  /-- A refusal changes nothing but the time. -/
  refused : ∀ error ∈ refusals id, (s.step host (.subscribed id now)).result = .error error →
    (s.step host (.subscribed id now)).server = { s with station := { s.station with now := now } } ∧
      (s.step host (.subscribed id now)).outputs = []
  /-- Without one the central gets the first free slot, whether or not the greeting is taken. -/
  admitted :
    (∀ error ∈ refusals id, (s.step host (.subscribed id now)).result ≠ .error error) →
    ∃ before after session, session.id = id ∧ before.all Option.isSome = true ∧
      s.slots = before ++ none :: after ∧
      (s.step host (.subscribed id now)).server.slots = before ++ some session :: after

/-- The greeting of a central fails only because of its link. -/
theorem result_greet_ne {id : SessionId} {error : ServerError} (h : error ∈ refusals id)
    (host : ServerHost) (station : Station) (session : Session) :
    (greet host station session).result ≠ .error error := by
  rcases greet_cases host station session with ⟨-, cause, herror⟩ | ⟨-, hok⟩
  · rw [herror]
    rintro ⟨⟩
    simp [refusals] at h
  · rw [hok]
    nofun

/-- Every subscription is refused for its reason, or gets a slot. -/
theorem admission (s : Server) (host : ServerHost) (id : SessionId) (now : UInt32) :
    s.Admission s.slots.length host id now := by
  rcases subscribed_cases host s id now with
    ⟨error, hrefused, hstep⟩ | ⟨hmodel, hunused, hfree, hstep⟩
  · cases hrefused with
    | notStarted hmodel => constructor <;> simp [hstep, hmodel, refusals, modifyStation]
    | duplicateSession hmodel hused =>
        constructor <;> simp [hstep, hmodel, hused, refusals, modifyStation]
    | tableFull hmodel hunused hfull =>
        have hcount := all_isSome_iff.mp hfull
        constructor <;> simp [hstep, hmodel, hunused, hcount, refusals, modifyStation]
  · have hcount : s.sessionCount ≠ s.slots.length :=
      fun heq => by simp [all_isSome_iff.mpr heq] at hfree
    have hne {error : ServerError} (h : error ∈ refusals id) :
        (opened host s.station id now).result ≠ .error error := result_greet_ne h host _ _
    obtain ⟨before, after, hfull, hslots, hplaced⟩ :=
      placeIn_of_free hfree (opened host s.station id now).session
    constructor
    · rw [hstep]
      exact iff_of_false (hne (by simp [refusals])) hmodel
    · rw [hstep, hunused]
      exact fun _ => iff_of_false (hne (by simp [refusals])) (by simp)
    · rw [hstep]
      exact fun _ _ => iff_of_false (hne (by simp [refusals])) hcount
    · rw [hstep]
      exact fun error herror hresult => (hne herror hresult).elim
    · rw [hstep]
      exact fun _ => ⟨before, after, _, id_greet .., hfull, hslots, hplaced⟩

/-! ## Disconnections -/

/-- What the disconnection of a central does to the table. -/
structure Release (s : Server) (host : ServerHost) (id : SessionId) : Prop where
  /-- The shared part stays as it is, and nothing is put out. -/
  station : (s.step host (.disconnected id)).server.station = s.station
  outputs : (s.step host (.disconnected id)).outputs = []
  result : (s.step host (.disconnected id)).result = .ok ()
  /-- Without a session there is nothing to free. -/
  absent : s.hasSession id = false → (s.step host (.disconnected id)).server = s
  /-- With one its slot is free, and every other slot is as it was. -/
  present : s.hasSession id = true → ∃ before after session, session.id = id ∧
    s.slots = before ++ some session :: after ∧
    (s.step host (.disconnected id)).server.slots = before ++ none :: after

/-- A number that is not in use clears no slot. -/
theorem clearIn_of_not_mem {slots : List (Option Session)} {id : SessionId} (station : Station)
    (h : id ∉ ids ⟨station, slots⟩) : clearIn slots id = slots := by
  induction slots with
  | nil => rfl
  | cons slot rest ih =>
      cases slot with
      | none => exact congrArg (none :: ·) (ih h)
      | some first =>
          rw [ids_some_cons, List.mem_cons, not_or] at h
          change Option.filter (·.id ≠ id) (some first) :: clearIn rest id = some first :: rest
          rw [ih h.2, Option.filter_some_pos (by simpa using Ne.symm h.1)]

/-- When no two sessions have the same number, a number in use clears its own slot only. -/
theorem clearIn_of_mem {slots : List (Option Session)} {id : SessionId} (station : Station)
    (hnodup : (ids ⟨station, slots⟩).Nodup) (h : id ∈ ids ⟨station, slots⟩) :
    ∃ before after session, session.id = id ∧ slots = before ++ some session :: after ∧
      clearIn slots id = before ++ none :: after := by
  obtain ⟨session, hsession, hid⟩ := List.mem_map.mp h
  obtain ⟨before, after, rfl⟩ := List.append_of_mem (mem_sessions.mp hsession)
  refine ⟨before, after, session, hid, rfl, ?_⟩
  rw [ids_append, ids_some_cons, List.perm_middle.nodup_iff, List.nodup_cons, List.mem_append,
    not_or, hid] at hnodup
  obtain ⟨⟨hbefore, hafter⟩, -⟩ := hnodup
  rw [clearIn, List.map_append, List.map_cons, Option.filter_some_neg (by simp [hid])]
  exact congrArg₂ (· ++ none :: ·) (clearIn_of_not_mem station hbefore)
    (clearIn_of_not_mem station hafter)

/-- A number is in use when there is a session with it. -/
theorem hasSession_iff {id : SessionId} : s.hasSession id = true ↔ id ∈ s.ids := by
  rw [hasSession, Option.isSome_iff_ne_none, ne_eq, session?_eq_none_iff, not_not]

/-- When no two sessions have the same number, a disconnection frees one slot at most. -/
theorem release (h : s.ids.Nodup) (host : ServerHost) (id : SessionId) : s.Release host id where
  station := rfl
  outputs := rfl
  result := rfl
  absent habsent := by
    have hunused : id ∉ s.ids := by simp [← hasSession_iff, habsent]
    exact congrArg (Server.mk s.station) (clearIn_of_not_mem s.station hunused)
  present hpresent := clearIn_of_mem s.station h (hasSession_iff.mp hpresent)

/-! ## Runs -/

/-- No step adds or takes away a slot. -/
theorem length_slots_step (s : Server) (host : ServerHost) (request : Request) :
    (s.step host request).server.slots.length = s.slots.length := by
  have hkept (hlayout : (s.step host request).server.layout = s.layout) :
      (s.step host request).server.slots.length = s.slots.length := by
    simpa [layout] using congrArg List.length hlayout
  cases request with
  | subscribed id now =>
      rcases subscribed_cases host s id now with ⟨error, -, hstep⟩ | ⟨-, -, hfree, hstep⟩
      · rw [hstep]
        rfl
      · obtain ⟨before, after, -, hslots, hplaced⟩ :=
          placeIn_of_free hfree (opened host s.station id now).session
        rw [hstep, hplaced, hslots]
        simp
  | disconnected id => exact List.length_map ..
  | _ => exact hkept (layout_step (by simp) (by simp) host s)

/-- In every run a server keeps its slots. -/
theorem length_slots_run (random : RandomSource) (maxSessions : Nat) (ms : List Moment) :
    ((Server.new random maxSessions).run ms).1.slots.length = maxSessions := by
  induction ms using List.reverseRecOn with
  | nil => simp [run, Server.new]
  | append_singleton ms m ih => rw [run_concat, length_slots_step, ih]

/-- **The table of sessions**, in every run of a new server, whatever its hosts do.  There are as
many slots as at the start, no two sessions have the same number, and there are no more sessions
than slots.  A subscription is refused for its reason or adds one session, a disconnection takes
away the session of its central and nothing else, and every other request leaves each session in
its slot. -/
theorem table_run (random : RandomSource) (maxSessions : Nat) (ms : List Moment) :
    let s := ((Server.new random maxSessions).run ms).1
    s.slots.length = maxSessions ∧ s.ids.Nodup ∧ s.sessionCount ≤ maxSessions ∧
    ∀ host,
      (∀ id now, s.Admission maxSessions host id now) ∧
      (∀ id, s.Release host id) ∧
      ∀ request, (∀ id now, request ≠ .subscribed id now) → (∀ id, request ≠ .disconnected id) →
        (s.step host request).server.layout = s.layout := by
  intro s
  have hlength : s.slots.length = maxSessions := length_slots_run random maxSessions ms
  have hnodup : s.ids.Nodup := nodup_ids_run random maxSessions ms
  refine ⟨hlength, hnodup, hlength ▸ sessionCount_le s, fun host => ⟨fun id now => ?_, ?_, ?_⟩⟩
  · exact hlength ▸ admission s host id now
  · exact release hnodup host
  · exact fun request hsubscribed hdisconnected => layout_step hsubscribed hdisconnected host s

end SmartLock.Server
