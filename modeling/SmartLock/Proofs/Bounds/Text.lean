/-
# Cutting text with partial access

The two cuts of text to a size, with the ranges that they take: `cleanupTail` cuts bytes before the
first zero and before the first broken sequence, and `truncate` moves back from the limit to the
end of a character.  A range of a text must end where one of its characters ends.  Every range is
there (`Utf8.cleanupTailChecked_eq`, `Utf8.truncateChecked_eq`).
-/
import SmartLock.Proofs.Bounds.Access
import SmartLock.Proofs.Text.Utf8

namespace SmartLock.Utf8

/-! ## The text before a zero and a broken sequence -/

/-- The text of bytes that are valid throughout, or how many of them are valid. -/
def readStrict (b : Bytes) : Except Nat String :=
  let read := validPrefix b
  let valid := (encode read).length
  if valid = b.length then .ok (String.ofList read) else .error valid

/-- The bytes before the first zero. -/
def beforeZeroChecked (b : Bytes) : Option Bytes :=
  match b.findIdx? (· = 0) with
  | some stop => b.front? stop
  | none => some b

/-- The text before the first broken sequence. -/
def readValidChecked (b : Bytes) : Option String :=
  match readStrict b with
  | .ok s => some s
  | .error valid => do return (readStrict (← b.front? valid)).toOption.getD ""

/-- The text before the first zero byte and before the first broken sequence. -/
def cleanupTailChecked (b : Bytes) : Option String := do readValidChecked (← beforeZeroChecked b)

/-- The first zero is there. -/
@[simp] theorem beforeZeroChecked_eq (b : Bytes) :
    beforeZeroChecked b = some (b.takeWhile (· ≠ 0)) := by
  rw [beforeZeroChecked]
  cases hfind : b.findIdx? (· = 0) with
  | none =>
      have hkept : b.takeWhile (· ≠ 0) = b := by
        rw [List.takeWhile_eq_self_iff]
        simpa using List.findIdx?_eq_none_iff.mp hfind
      rw [hkept]
  | some stop =>
      obtain ⟨hlt, hindex⟩ := List.findIdx?_eq_some_iff_findIdx_eq.mp hfind
      have htake : b.takeWhile (· ≠ 0) = b.take stop := by
        rw [List.takeWhile_eq_take_findIdx_not, ← hindex]
        simp
      simp only [htake]
      exact Bytes.front?_eq (Nat.le_of_lt hlt)

/-- The bytes that are valid are there, and the text of them is that of all. -/
@[simp] theorem readValidChecked_eq (b : Bytes) :
    readValidChecked b = some (String.ofList (validPrefix b)) := by
  let read := validPrefix b
  have hprefix : encode read <+: b := encode_validPrefixWithin_prefix_self ..
  rw [readValidChecked]
  by_cases hvalid : (encode read).length = b.length
  · have hall : readStrict b = .ok (String.ofList read) := if_pos hvalid
    rw [hall]
  · have hsome : readStrict b = .error (encode read).length := if_neg hvalid
    have hfront : b.front? (encode read).length = some (encode read) := by
      rw [Bytes.front?_eq hprefix.length_le, ← List.prefix_iff_eq_take.mp hprefix]
    have hread : validPrefix (encode read) = read := validPrefixWithin_encode read (Nat.le_refl _)
    have hagain : readStrict (encode read) = .ok (String.ofList read) := by
      rw [readStrict, hread]
      exact if_pos rfl
    rw [hsome]
    simp only [hfront, Option.bind_eq_bind, Option.bind_some, hagain]
    rfl

/-- No access of the cleaning fails. -/
@[simp] theorem cleanupTailChecked_eq (b : Bytes) :
    cleanupTailChecked b = some (cleanupTail b) := by
  rw [cleanupTailChecked, beforeZeroChecked_eq, Option.bind_eq_bind, Option.bind_some,
    readValidChecked_eq, cleanupTail]

/-! ## Whole characters that fit -/

/-- The characters that end at a place, counted in bytes; nothing if none of them ends there. -/
def charsBefore? : Nat → List Char → Option (List Char)
  | 0, _ => some []
  | _ + 1, [] => none
  | n + 1, c :: rest =>
      if c.utf8Size ≤ n + 1 then (charsBefore? (n + 1 - c.utf8Size) rest).map (c :: ·) else none

/-- The last place at or before a given one where a character ends. -/
def lastBoundary (s : List Char) : Nat → Nat
  | 0 => 0
  | n + 1 => if (charsBefore? (n + 1) s).isSome then n + 1 else lastBoundary s n

/-- Whole characters that take at most `limit` bytes. -/
def truncateChecked (s : String) (limit : Nat) : Option String :=
  if (bytesOf s).length ≤ limit then some s
  else (charsBefore? (lastBoundary s.toList limit) s.toList).map String.ofList

/-- No character fits into no bytes. -/
theorem truncateChars_zero (s : List Char) : truncateChars 0 s = [] := by
  cases s with
  | nil => rfl
  | cons c rest => exact if_neg (Nat.not_le.mpr c.utf8Size_pos)

/-- Characters that fit are all kept. -/
theorem truncateChars_of_length_le {limit : Nat} {s : List Char}
    (h : (encode s).length ≤ limit) : truncateChars limit s = s := by
  induction s generalizing limit with
  | nil => rfl
  | cons c rest ih =>
      rw [length_encode_cons] at h
      rw [truncateChars, if_pos (by omega), ih (by omega)]

/-- Up to a place where a character ends, all characters before it are kept. -/
theorem truncateChars_of_charsBefore? {n : Nat} {s before : List Char}
    (h : charsBefore? n s = some before) : truncateChars n s = before := by
  induction s generalizing n before with
  | nil =>
      cases n with
      | zero => exact Option.some.inj h
      | succ n => cases h
  | cons c rest ih =>
      cases n with
      | zero => exact (truncateChars_zero _).trans (Option.some.inj h)
      | succ n =>
          rw [charsBefore?] at h
          split at h
          · rename_i hfits
            obtain ⟨kept, hkept, rfl⟩ := Option.map_eq_some_iff.mp h
            rw [truncateChars, if_pos hfits, ih hkept]
          · cases h

/-- At a place where no character ends, one byte less is as good. -/
theorem truncateChars_of_charsBefore?_eq_none {n : Nat} {s : List Char}
    (h : charsBefore? (n + 1) s = none) : truncateChars (n + 1) s = truncateChars n s := by
  induction s generalizing n with
  | nil => rfl
  | cons c rest ih =>
      rw [truncateChars, truncateChars]
      by_cases hfits : c.utf8Size ≤ n + 1
      · rw [charsBefore?, if_pos hfits, Option.map_eq_none_iff] at h
        -- The first character does not end at the place, so it ends before.
        obtain hends | hbefore := Nat.eq_or_lt_of_le hfits
        · rw [hends, Nat.sub_self, charsBefore?] at h
          cases h
        · have hle : c.utf8Size ≤ n := Nat.le_of_lt_succ hbefore
          rw [Nat.succ_sub hle] at h
          rw [if_pos hfits, if_pos hle, Nat.succ_sub hle, ih h]
      · rw [if_neg hfits, if_neg (by omega)]

/-- The last place where a character ends is that of the characters that fit. -/
theorem charsBefore?_lastBoundary (s : List Char) (limit : Nat) :
    charsBefore? (lastBoundary s limit) s = some (truncateChars limit s) := by
  induction limit with
  | zero => rw [lastBoundary, charsBefore?, truncateChars_zero]
  | succ n ih =>
      rw [lastBoundary]
      cases hends : charsBefore? (n + 1) s with
      | none => exact ih.trans (congrArg some (truncateChars_of_charsBefore?_eq_none hends).symm)
      | some before =>
          rw [truncateChars_of_charsBefore? hends]
          exact hends

/-- The last place where a character ends is there, and so are the bytes before it. -/
@[simp] theorem truncateChecked_eq (s : String) (limit : Nat) :
    truncateChecked s limit = some (truncate s limit) := by
  rw [truncateChecked, truncate]
  split
  · rename_i hfits
    rw [truncateChars_of_length_le hfits, String.ofList_toList]
  · rw [charsBefore?_lastBoundary, Option.map_some]

end SmartLock.Utf8
