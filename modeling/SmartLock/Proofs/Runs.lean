/-
# Events of a run

Something that happens at some moment of a run, in the state that the run has come to before that
moment.  Servers and clients share this notion; a run is given by the state after each list of
moments.
-/

namespace SmartLock

variable {State Moment : Type}

/-- At some moment of a run something happens in the state that has been reached then. -/
def Happens (state : List Moment → State) (ms : List Moment) (event : State → Moment → Prop) :
    Prop :=
  ∃ before m after, ms = before ++ m :: after ∧ event (state before) m

/-- What happens in a run happens in every longer one. -/
theorem Happens.append {state : List Moment → State} {before : List Moment}
    {event : State → Moment → Prop} (h : Happens state before event) (after : List Moment) :
    Happens state (before ++ after) event := by
  obtain ⟨first, m, rest, rfl, hevent⟩ := h
  exact ⟨first, m, rest ++ after, by simp, hevent⟩

/-- In a run of one more moment something happens before that or then. -/
theorem happens_concat {state : List Moment → State} {ms : List Moment} {m : Moment}
    {event : State → Moment → Prop} :
    Happens state (ms ++ [m]) event ↔ Happens state ms event ∨ event (state ms) m := by
  constructor
  · rintro ⟨before, m', after, heq, hevent⟩
    rcases List.eq_nil_or_concat after with rfl | ⟨after, last, rfl⟩
    · obtain ⟨rfl, hm⟩ := List.append_inj' heq rfl
      obtain rfl : m = m' := by simpa using hm
      exact .inr hevent
    · rw [List.concat_eq_append, ← List.cons_append, ← List.append_assoc] at heq
      obtain ⟨rfl, -⟩ := List.append_inj' heq rfl
      exact .inl ⟨before, m', after, rfl, hevent⟩
  · rintro (hhappens | hevent)
    · exact hhappens.append [m]
    · exact ⟨ms, m, [], rfl, hevent⟩

end SmartLock
