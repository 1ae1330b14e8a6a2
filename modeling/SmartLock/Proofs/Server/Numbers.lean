/-
# The numbers of sessions

The sessions of a server go by their numbers.  A step keeps them in their slots, adds one that has
not been in use, or takes one away, so that in every run no two sessions have the same number
(`Server.nodup_ids_run`).
-/
import SmartLock.Proofs.Server.Table

namespace SmartLock.Server

/-! ## Numbers in slots -/

/-- The numbers of the sessions, in the order of their slots. -/
def ids (s : Server) : List SessionId := s.sessions.map Session.id

/-- The number in each slot; a free slot has none. -/
def layout (s : Server) : List (Option SessionId) := s.slots.map (Option.map Session.id)

/-- A number that is not in use has no session. -/
theorem session?_eq_none_iff {s : Server} {id : SessionId} :
    s.session? id = none ↔ id ∉ s.ids := by
  simp [session?, ids, List.find?_eq_none]

/-- The numbers of the sessions are those in the slots. -/
theorem ids_eq_filterMap_layout (s : Server) : s.ids = s.layout.filterMap id := by
  simp only [ids, sessions, layout, List.map_filterMap, List.filterMap_map]
  rfl

section Ids

variable (station : Station) (rest : List (Option Session))

@[simp] theorem ids_some_cons (first : Session) :
    ids ⟨station, some first :: rest⟩ = first.id :: ids ⟨station, rest⟩ := rfl

/-- A change of every session that keeps its number leaves every number in its slot. -/
theorem layout_map {f : Session → Session} (hid : ∀ session, (f session).id = session.id)
    (station' : Station) (slots : List (Option Session)) :
    layout ⟨station', slots.map (Option.map f)⟩ = layout ⟨station, slots⟩ := by
  have hcomp : Session.id ∘ f = Session.id := funext hid
  simp only [layout, List.map_map, Option.map_comp_map, hcomp]

/-- A session that takes the place of the one with its number leaves every number in its slot. -/
theorem layout_replaceIn (station' : Station) (slots : List (Option Session)) (new : Session) :
    layout ⟨station', replaceIn slots new⟩ = layout ⟨station, slots⟩ := by
  refine layout_map station (fun old => ?_) station' slots
  split
  · rename_i heq
    exact heq.symm
  · rfl

/-- It changes no number. -/
theorem ids_replaceIn (station' : Station) (slots : List (Option Session)) (new : Session) :
    ids ⟨station', replaceIn slots new⟩ = ids ⟨station, slots⟩ := by
  rw [ids_eq_filterMap_layout, layout_replaceIn station, ← ids_eq_filterMap_layout]

/-- A notification leaves every number in its slot. -/
theorem layout_notifySlots (host : ServerHost) (station' : Station) (n : Notice)
    (outputs : List ServerOutput) (slots : List (Option Session)) :
    layout ⟨station', (notifySlots host station n outputs slots).1⟩ = layout ⟨station, slots⟩ := by
  simp only [layout]
  induction slots generalizing outputs with
  | nil => rfl
  | cons slot rest ih =>
      cases slot with
      | none => simp only [notifySlots, List.map_cons, ih]
      | some first =>
          simp only [notifySlots]
          split
          · simp only [List.map_cons, Option.map_some, (like_notify ..).id, ih]
          · simp only [List.map_cons, ih]

/-- When a slot is cleared, the numbers that stay keep their order. -/
theorem ids_clearIn_sublist (station' : Station) (slots : List (Option Session)) (id : SessionId) :
    (ids ⟨station', clearIn slots id⟩).Sublist (ids ⟨station, slots⟩) := by
  induction slots with
  | nil => exact .slnil
  | cons slot rest ih =>
      cases slot with
      | none => exact ih
      | some first =>
          change (ids
            ⟨station', Option.filter (·.id ≠ id) (some first) :: clearIn rest id⟩).Sublist _
          by_cases hfirst : first.id = id
          · rw [Option.filter_some_neg (by simp [hfirst])]
            exact ih.cons _
          · rw [Option.filter_some_pos (by simp [hfirst])]
            exact ih.cons_cons _

@[simp] theorem ids_append (before after : List (Option Session)) :
    ids ⟨station, before ++ after⟩ = ids ⟨station, before⟩ ++ ids ⟨station, after⟩ := by
  simp only [ids, sessions, List.filterMap_append, List.map_append]

@[simp] theorem ids_none_cons : ids ⟨station, none :: rest⟩ = ids ⟨station, rest⟩ := rfl

/-- A session is placed in the first free slot, and the others stay where they are. -/
theorem placeIn_of_free {slots : List (Option Session)} (h : slots.all Option.isSome = false)
    (new : Session) :
    ∃ before after, before.all Option.isSome = true ∧ slots = before ++ none :: after ∧
      placeIn slots new = before ++ some new :: after := by
  induction slots with
  | nil => cases h
  | cons slot rest ih =>
      cases slot with
      | none => exact ⟨[], rest, rfl, rfl, rfl⟩
      | some first =>
          obtain ⟨before, after, hfull, hslots, hplaced⟩ := ih (by simpa using h)
          refine ⟨some first :: before, after, by simpa using hfull, ?_, ?_⟩
          · rw [hslots, List.cons_append]
          · rw [placeIn, hplaced, List.cons_append]

/-- With a number that is not in use the numbers stay different. -/
theorem nodup_ids_placeIn (station' : Station) {slots : List (Option Session)} {new : Session}
    (h : (ids ⟨station, slots⟩).Nodup) (hunused : new.id ∉ ids ⟨station, slots⟩)
    (hfree : slots.all Option.isSome = false) :
    (ids ⟨station', placeIn slots new⟩).Nodup := by
  obtain ⟨before, after, -, hslots, hplaced⟩ := placeIn_of_free hfree new
  rw [hslots, ids_append, ids_none_cons] at h hunused
  rw [hplaced, ids_append, ids_some_cons]
  exact List.perm_middle.nodup_iff.mpr (List.nodup_cons.mpr ⟨hunused, h⟩)

end Ids

/-! ## Runs -/

/-- Only subscriptions and disconnections move numbers: any other step leaves each of them in its
slot. -/
theorem layout_step {request : Request} (hsubscribed : ∀ id now, request ≠ .subscribed id now)
    (hdisconnected : ∀ id, request ≠ .disconnected id) (host : ServerHost) (s : Server) :
    (s.step host request).server.layout = s.layout := by
  cases request with
  | loadKey key => rw [layout, slots_loadKey, layout]
  | subscribed id now => exact absurd rfl (hsubscribed id now)
  | disconnected id => exact absurd rfl (hdisconnected id)
  | receive id fragment =>
      simp only [step, receive]
      split
      · rfl
      · exact layout_replaceIn s.station ..
  | update now => exact layout_map s.station (id_checkTime s.station.loginTimeout now) ..
  | notify target n =>
      cases target with
      | none => exact layout_notifySlots s.station ..
      | some other =>
          simp only [step, notifyOne]
          split
          · rfl
          · exact layout_replaceIn s.station ..
  | _ => rfl

/-- No step makes two sessions have the same number. -/
theorem nodup_ids_step {s : Server} (h : s.ids.Nodup) (host : ServerHost) (request : Request) :
    (s.step host request).server.ids.Nodup := by
  have hkept (hlayout : (s.step host request).server.layout = s.layout) :
      (s.step host request).server.ids.Nodup := by
    rwa [ids_eq_filterMap_layout, hlayout, ← ids_eq_filterMap_layout]
  cases request with
  | subscribed id now =>
      rcases subscribed_cases host s id now with ⟨error, -, hstep⟩ | ⟨-, hunused, hfree, hstep⟩
      · rw [hstep]
        exact h
      · rw [hstep]
        refine nodup_ids_placeIn s.station _ h ?_ hfree
        rw [opened, id_greet]
        refine session?_eq_none_iff.mp ?_
        rwa [hasSession, Option.isSome_eq_false_iff, Option.isNone_iff_eq_none] at hunused
  | disconnected id => exact (ids_clearIn_sublist s.station s.station s.slots id).nodup h
  | _ => exact hkept (layout_step (by simp) (by simp) host s)

/-- **No two sessions have the same number**, in every run of a new server. -/
theorem nodup_ids_run (random : RandomSource) (maxSessions : Nat) (ms : List Moment) :
    ((Server.new random maxSessions).run ms).1.ids.Nodup := by
  induction ms using List.reverseRecOn with
  | nil =>
      have hnone (n : Nat) : (List.replicate n (none : Option Session)).filterMap id = [] := by
        simp
      rw [run, ids, sessions, Server.new, hnone]
      exact List.nodup_nil
  | append_singleton ms m ih =>
      rw [run_concat]
      exact nodup_ids_step ih m.host m.request

end SmartLock.Server
