/-
# Texts without the white space around them

A text is trimmed to a part of it that has only white space before and after it and neither begins
nor ends with white space (`Text.isTrimmed_trim`), and there is no other such part
(`Text.IsTrimmed.trim_eq`).
-/
import Mathlib.Data.List.TakeWhile
import SmartLock.Text.Blank

namespace SmartLock.Text

variable {s t : List Char}

/-- A text is another one without the white space at both ends. -/
structure IsTrimmed (s t : List Char) : Prop where
  around : ∃ before after, s = before ++ t ++ after ∧ (∀ c ∈ before, isBlank c = true) ∧
    ∀ c ∈ after, isBlank c = true
  first : ∀ c ∈ t.head?, isBlank c = false
  last : ∀ c ∈ t.getLast?, isBlank c = false

/-- White space before a text that begins with none is dropped. -/
theorem trimStart_append {blanks : List Char} (hblanks : ∀ c ∈ blanks, isBlank c = true)
    (hfirst : ∀ c ∈ t.head?, isBlank c = false) : trimStart (blanks ++ t) = t := by
  rw [trimStart, List.dropWhile_append_of_pos hblanks]
  cases t with
  | nil => rfl
  | cons c t => exact List.dropWhile_cons_of_neg (by simpa using hfirst)

/-- What is left begins with no white space. -/
theorem not_isBlank_of_mem_head?_trimStart {c : Char} (h : c ∈ (trimStart s).head?) :
    isBlank c = false := by
  have hhead := List.head?_dropWhile_not isBlank s
  rw [← trimStart, Option.mem_def.mp h] at hhead
  exact hhead

/-- Trimming drops white space before and after. -/
theorem isTrimmed_trim (s : List Char) : IsTrimmed s (trim s) := by
  let start := trimStart s
  have hstart : s = s.takeWhile isBlank ++ start := List.takeWhile_append_dropWhile.symm
  have hend : start = trim s ++ (start.reverse.takeWhile isBlank).reverse := by
    rw [trim, trimEnd, trimStart, ← List.reverse_append, List.takeWhile_append_dropWhile,
      List.reverse_reverse]
  refine ⟨⟨s.takeWhile isBlank, (start.reverse.takeWhile isBlank).reverse, ?_, ?_, ?_⟩, ?_, ?_⟩
  · rw [List.append_assoc, ← hend, ← hstart]
  · exact fun c hc => List.mem_takeWhile_imp hc
  · exact fun c hc => List.mem_takeWhile_imp (List.mem_reverse.mp hc)
  · intro c hc
    apply not_isBlank_of_mem_head?_trimStart (s := s)
    change c ∈ start.head?
    rw [hend, List.head?_append, Option.mem_def.mp hc]
    rfl
  · intro c hc
    rw [trim, trimEnd, List.getLast?_reverse] at hc
    exact not_isBlank_of_mem_head?_trimStart hc

/-- White space after a text that ends with none is dropped. -/
theorem trimEnd_append {blanks : List Char} (hblanks : ∀ c ∈ blanks, isBlank c = true)
    (hlast : ∀ c ∈ t.getLast?, isBlank c = false) : trimEnd (t ++ blanks) = t := by
  have hstart : trimStart (blanks.reverse ++ t.reverse) = t.reverse := by
    apply trimStart_append
    · exact fun c hc => hblanks c (List.mem_reverse.mp hc)
    · rwa [List.head?_reverse]
  rw [trimEnd, List.reverse_append, hstart, List.reverse_reverse]

/-- There is nothing else that trimming could leave. -/
theorem IsTrimmed.trim_eq (h : IsTrimmed s t) : trim s = t := by
  obtain ⟨⟨before, after, rfl, hbefore, hafter⟩, hfirst, hlast⟩ := h
  cases t with
  | nil =>
      -- The text is white space throughout, and may be divided anywhere.
      have hblanks : ∀ c ∈ before ++ after, isBlank c = true :=
        List.forall_mem_append.mpr ⟨hbefore, hafter⟩
      have hempty := trimStart_append (t := []) hblanks hfirst
      rw [List.append_nil] at hempty ⊢
      rw [trim, hempty]
      rfl
  | cons c t =>
      have hstart : trimStart (before ++ (c :: t ++ after)) = c :: t ++ after :=
        trimStart_append hbefore hfirst
      rw [List.append_assoc, trim, hstart, trimEnd_append hafter hlast]

/-- White space around a text that has none is trimmed. -/
theorem trim_surrounded {before middle after : List Char}
    (hbefore : ∀ c ∈ before, isBlank c = true) (hmiddle : ∀ c ∈ middle, isBlank c = false)
    (hafter : ∀ c ∈ after, isBlank c = true) : trim (before ++ middle ++ after) = middle :=
  IsTrimmed.trim_eq ⟨⟨before, after, rfl, hbefore, hafter⟩,
    fun c hc => hmiddle c (List.mem_of_mem_head? hc),
    fun c hc => hmiddle c (List.mem_of_mem_getLast? hc)⟩

end SmartLock.Text
