/-
# The longest text that can be kept

A text field of a message has a fixed size, so a text is cut on its way in and on its way out.  Both
cuts keep as much as they can.

The text of a field is written with the longest prefix of its bytes that is UTF-8 and has no zero
byte (`Utf8.cleanupTail_longest`).  What is UTF-8 is said by the table of the well-formed sequences
(`Utf8.Sequence`), and the strings of such sequences are those that some text is written with
(`Utf8.wellFormed_iff`).

A text that is truncated is the longest prefix of whole characters that takes at most as many bytes
as it may (`Utf8.isCut_truncate`).  The search goes backwards from the limit through the bytes, to a
place where no character is under way (`Utf8.isGreatest_lastBoundary`).
-/
import Mathlib.Order.Bounds.Defs
import SmartLock.Proofs.Bounds.Text

namespace SmartLock

/-- A part of a list is its longest prefix with a property: it is a prefix, it has the property, and
no longer prefix has it. -/
structure IsLongestPrefix {α : Type} (P : List α → Prop) (whole part : List α) : Prop where
  first : part <+: whole
  holds : P part
  longest : ∀ longer, longer <+: whole → part.length < longer.length → ¬ P longer

namespace Utf8

/-! ## Well-formed bytes -/

/-- A byte of a range. -/
abbrev Between (low high : Nat) (x : UInt8) : Prop := low ≤ x.toNat ∧ x.toNat ≤ high

/-- The well-formed sequences of bytes for one character.  The second byte has a narrower range
after `E0` and `F0`, where others would make an overlong sequence, after `ED`, where they would make
a surrogate, and after `F4`, where they would make a number above U+10FFFF. -/
inductive Sequence : Bytes → Prop
  | ascii {a : UInt8} (ha : Between 0x00 0x7F a) : Sequence [a]
  | two {a b : UInt8} (ha : Between 0xC2 0xDF a) (hb : Between 0x80 0xBF b) : Sequence [a, b]
  | e0 {a b c : UInt8} (ha : Between 0xE0 0xE0 a) (hb : Between 0xA0 0xBF b)
      (hc : Between 0x80 0xBF c) : Sequence [a, b, c]
  | e1ToEc {a b c : UInt8} (ha : Between 0xE1 0xEC a) (hb : Between 0x80 0xBF b)
      (hc : Between 0x80 0xBF c) : Sequence [a, b, c]
  | ed {a b c : UInt8} (ha : Between 0xED 0xED a) (hb : Between 0x80 0x9F b)
      (hc : Between 0x80 0xBF c) : Sequence [a, b, c]
  | eeToEf {a b c : UInt8} (ha : Between 0xEE 0xEF a) (hb : Between 0x80 0xBF b)
      (hc : Between 0x80 0xBF c) : Sequence [a, b, c]
  | f0 {a b c d : UInt8} (ha : Between 0xF0 0xF0 a) (hb : Between 0x90 0xBF b)
      (hc : Between 0x80 0xBF c) (hd : Between 0x80 0xBF d) : Sequence [a, b, c, d]
  | f1ToF3 {a b c d : UInt8} (ha : Between 0xF1 0xF3 a) (hb : Between 0x80 0xBF b)
      (hc : Between 0x80 0xBF c) (hd : Between 0x80 0xBF d) : Sequence [a, b, c, d]
  | f4 {a b c d : UInt8} (ha : Between 0xF4 0xF4 a) (hb : Between 0x80 0x8F b)
      (hc : Between 0x80 0xBF c) (hd : Between 0x80 0xBF d) : Sequence [a, b, c, d]

/-- Bytes that are UTF-8: one well-formed sequence after another. -/
inductive WellFormed : Bytes → Prop
  | nil : WellFormed []
  | cons {first rest : Bytes} (hfirst : Sequence first) (hrest : WellFormed rest) :
      WellFormed (first ++ rest)

/-! ### Sequences that are written -/

/-- A byte that is written for a number of a range is of this range. -/
theorem between_ofNat {low high n : Nat} (hlow : low ≤ n) (hhigh : n ≤ high) (h : high < 256) :
    Between low high (UInt8.ofNat n) := by
  have hn : (UInt8.ofNat n).toNat = n := Nat.mod_eq_of_lt (by omega)
  exact ⟨by omega, by omega⟩

/-- A character is written with a well-formed sequence. -/
theorem sequence_utf8EncodeChar (c : Char) : Sequence (String.utf8EncodeChar c) := by
  have hvalid : c.toNat < 0xD800 ∨ 0xDFFF < c.toNat ∧ c.toNat < 0x110000 := c.valid
  have hwritten := utf8EncodeChar_eq c
  have htail (n : Nat) : Between 0x80 0xBF (UInt8.ofNat (n % 64 + 128)) :=
    between_ofNat (by omega) (by omega) (by omega)
  generalize c.toNat = v at *
  rw [hwritten]
  split
  · exact .ascii (between_ofNat (by omega) (by omega) (by omega))
  split
  · exact .two (between_ofNat (by omega) (by omega) (by omega)) (htail _)
  split
  · -- Three bytes: the first row from U+0800, the next ones from U+1000, U+D000 and U+E000.
    by_cases h1000 : v < 0x1000
    · exact .e0 (between_ofNat (by omega) (by omega) (by omega))
        (between_ofNat (by omega) (by omega) (by omega)) (htail _)
    by_cases hd000 : v < 0xD000
    · exact .e1ToEc (between_ofNat (by omega) (by omega) (by omega)) (htail _) (htail _)
    by_cases he000 : v < 0xE000
    · exact .ed (between_ofNat (by omega) (by omega) (by omega))
        (between_ofNat (by omega) (by omega) (by omega)) (htail _)
    · exact .eeToEf (between_ofNat (by omega) (by omega) (by omega)) (htail _) (htail _)
  · -- Four bytes: the first row from U+10000, the next ones from U+40000 and U+100000.
    by_cases h40000 : v < 0x40000
    · exact .f0 (between_ofNat (by omega) (by omega) (by omega))
        (between_ofNat (by omega) (by omega) (by omega)) (htail _) (htail _)
    by_cases h100000 : v < 0x100000
    · exact .f1ToF3 (between_ofNat (by omega) (by omega) (by omega)) (htail _) (htail _) (htail _)
    · exact .f4 (between_ofNat (by omega) (by omega) (by omega))
        (between_ofNat (by omega) (by omega) (by omega)) (htail _) (htail _)

/-! ### Sequences that are read -/

section Reading

variable {a b c d : UInt8}

/-- A byte of ASCII is read as a character. -/
theorem exists_firstChar?_one (ha : Between 0x00 0x7F a) :
    ∃ char, firstChar? [a] = some (char, []) := by
  have hlength : sequenceLength? a = some 1 := by rw [sequenceLength?_eq, if_pos (by omega)]
  simp only [firstChar?, hlength]
  exact ⟨_, rfl⟩

/-- So are two bytes that fit each other. -/
theorem exists_firstChar?_two (ha : Between 0xC2 0xDF a) (hb : isSecond a b = true) :
    ∃ char, firstChar? [a, b] = some (char, []) := by
  have hlength : sequenceLength? a = some 2 := by
    rw [sequenceLength?_eq, if_neg (by omega), if_neg (by omega), if_pos (by omega)]
  simp only [firstChar?, hlength, hb, if_true]
  exact ⟨_, rfl⟩

/-- So are three bytes that fit each other. -/
theorem exists_firstChar?_three (ha : Between 0xE0 0xEF a) (hb : isSecond a b = true)
    (hc : Between 0x80 0xBF c) : ∃ char, firstChar? [a, b, c] = some (char, []) := by
  have hlength : sequenceLength? a = some 3 := by
    rw [sequenceLength?_eq, if_neg (by omega), if_neg (by omega), if_neg (by omega),
      if_pos (by omega)]
  simp only [firstChar?, hlength, hb, isTail_of_toNat hc.1 hc.2, Bool.and_true, if_true]
  exact ⟨_, rfl⟩

/-- So are four bytes that fit each other. -/
theorem exists_firstChar?_four (ha : Between 0xF0 0xF4 a) (hb : isSecond a b = true)
    (hc : Between 0x80 0xBF c) (hd : Between 0x80 0xBF d) :
    ∃ char, firstChar? [a, b, c, d] = some (char, []) := by
  have hlength : sequenceLength? a = some 4 := by
    rw [sequenceLength?_eq, if_neg (by omega), if_neg (by omega), if_neg (by omega),
      if_neg (by omega), if_pos (by omega)]
  simp only [firstChar?, hlength, hb, isTail_of_toNat hc.1 hc.2, isTail_of_toNat hd.1 hd.2,
    Bool.and_true, if_true]
  exact ⟨_, rfl⟩

end Reading

/-- A well-formed sequence is read to its end. -/
theorem Sequence.exists_firstChar? {q : Bytes} (h : Sequence q) :
    ∃ c, firstChar? q = some (c, []) := by
  -- What a row says about its first two bytes is what a second byte has to be.
  cases h with
  | ascii ha => exact exists_firstChar?_one ha
  | two ha hb => exact exists_firstChar?_two ha (by apply isSecond_of_toNat <;> omega)
  | e0 ha hb hc | e1ToEc ha hb hc | ed ha hb hc | eeToEf ha hb hc =>
      exact exists_firstChar?_three (by omega) (by apply isSecond_of_toNat <;> omega) hc
  | f0 ha hb hc hd | f1ToF3 ha hb hc hd | f4 ha hb hc hd =>
      exact exists_firstChar?_four (by omega) (by apply isSecond_of_toNat <;> omega) hc hd

/-- The well-formed sequences are those that some character is written with. -/
theorem sequence_iff {q : Bytes} : Sequence q ↔ ∃ c, String.utf8EncodeChar c = q := by
  constructor
  · intro h
    obtain ⟨c, hc⟩ := h.exists_firstChar?
    exact ⟨c, by simpa using (eq_of_firstChar? hc).symm⟩
  · rintro ⟨c, rfl⟩
    exact sequence_utf8EncodeChar c

/-- Bytes are UTF-8 if some text is written with them. -/
theorem wellFormed_iff {b : Bytes} : WellFormed b ↔ ∃ s, encode s = b := by
  constructor
  · intro h
    induction h with
    | nil => exact ⟨[], rfl⟩
    | cons hfirst hrest ih =>
        obtain ⟨c, rfl⟩ := sequence_iff.mp hfirst
        obtain ⟨s, rfl⟩ := ih
        exact ⟨c :: s, encode_cons c s⟩
  · rintro ⟨s, rfl⟩
    induction s with
    | nil => exact .nil
    | cons c s ih => exact .cons (sequence_utf8EncodeChar c) ih

/-! ## The text before a zero and a broken sequence -/

/-- The first characters of a text are written with the first of its bytes. -/
theorem encode_prefix_encode {s t : List Char} (h : s <+: t) : encode s <+: encode t := by
  obtain ⟨rest, rfl⟩ := h
  rw [encode_append]
  exact List.prefix_append _ _

/-- A text that the bytes begin with is read. -/
theorem prefix_validPrefix {s : List Char} {b : Bytes} (h : encode s <+: b) :
    s <+: validPrefix b := by
  obtain ⟨rest, rfl⟩ := h
  rw [validPrefix, validPrefixWithin_encode_append s rest (by simp)]
  exact List.prefix_append _ _

/-- **The text of a field.**  It is written with the longest prefix of the field that is UTF-8 and
has no zero byte. -/
theorem cleanupTail_longest (b : Bytes) :
    IsLongestPrefix (fun kept => WellFormed kept ∧ 0 ∉ kept) b (bytesOf (cleanupTail b)) where
  first := (bytesOf_cleanupTail_prefix_takeWhile b).trans (List.takeWhile_prefix _)
  holds := ⟨wellFormed_iff.mpr ⟨_, rfl⟩, zero_not_mem_encode (zero_not_mem_cleanupTail b)⟩
  longest := by
    rintro longer hfirst hlonger ⟨hvalid, hzero⟩
    obtain ⟨s, rfl⟩ := wellFormed_iff.mp hvalid
    -- Without a zero byte the longer prefix ends before the first zero byte of the field.
    have hkept : encode s <+: b.takeWhile (· ≠ 0) := by
      obtain ⟨rest, rfl⟩ := hfirst
      rw [takeWhile_append_of_zero_not_mem hzero]
      exact List.prefix_append _ _
    have hread := (encode_prefix_encode (prefix_validPrefix hkept)).length_le
    rw [bytesOf, cleanupTail, String.toList_ofList] at hlonger
    omega

/-- A surrogate in three bytes ends the text, as a zero byte would. -/
example : cleanupTail [0x61, 0xE3, 0x81, 0x82, 0xED, 0xA0, 0x80, 0x61] = "aあ" := by decide

/-! ## Characters and bytes -/

/-- Whether no character is under way at a place in the bytes of a text: the text ends there, or the
byte there is none that continues a character. -/
def isBoundary (b : Bytes) (place : Nat) : Bool :=
  match b[place]? with
  | some x => !isTail x
  | none => place = b.length

/-- A sequence has one byte that begins it, and all others continue it. -/
theorem Sequence.exists_cons {q : Bytes} (h : Sequence q) :
    ∃ first tails, q = first :: tails ∧ isTail first = false ∧ ∀ x ∈ tails, isTail x = true := by
  have hbegins {x : UInt8} (hx : x.toNat < 0x80 ∨ 0xBF < x.toNat) : isTail x = false := by
    rw [Bool.eq_false_iff]
    intro htail
    have hrange := toNat_of_isTail htail
    omega
  have hcontinues {x : UInt8} (hx : Between 0x80 0xBF x) : isTail x = true :=
    isTail_of_toNat hx.1 hx.2
  cases h with
  | ascii ha => exact ⟨_, [], rfl, hbegins (by omega), List.forall_mem_nil _⟩
  | two ha hb => exact ⟨_, [_], rfl, hbegins (by omega), by simp [hcontinues hb]⟩
  | @e0 a b c ha hb hc | @e1ToEc a b c ha hb hc | @ed a b c ha hb hc | @eeToEf a b c ha hb hc =>
      have hsecond : Between 0x80 0xBF b := by omega
      exact ⟨_, [_, _], rfl, hbegins (by omega), by simp [hcontinues hsecond, hcontinues hc]⟩
  | @f0 a b c d ha hb hc hd | @f1ToF3 a b c d ha hb hc hd | @f4 a b c d ha hb hc hd =>
      have hsecond : Between 0x80 0xBF b := by omega
      exact ⟨_, [_, _, _], rfl, hbegins (by omega),
        by simp [hcontinues hsecond, hcontinues hc, hcontinues hd]⟩

/-- In the bytes of a character none but the first place is a boundary. -/
theorem isBoundary_utf8EncodeChar_append (c : Char) (rest : Bytes) {place : Nat}
    (h : place < c.utf8Size) :
    isBoundary (String.utf8EncodeChar c ++ rest) place = decide (place = 0) := by
  obtain ⟨first, tails, hwritten, hfirst, htails⟩ := (sequence_utf8EncodeChar c).exists_cons
  have hlength := String.length_utf8EncodeChar c
  rw [hwritten, List.length_cons] at hlength
  rw [hwritten, List.cons_append]
  cases place with
  | zero => simp [isBoundary, hfirst]
  | succ place =>
      have hplace : place < tails.length := by omega
      have htail : (first :: (tails ++ rest))[place + 1]? = some tails[place] := by
        rw [List.getElem?_cons_succ, List.getElem?_append_left hplace,
          List.getElem?_eq_getElem hplace]
      simp [isBoundary, htail, htails _ (List.getElem_mem hplace)]

/-- After the bytes of a character the boundaries are those of the rest. -/
theorem isBoundary_append {b : Bytes} (rest : Bytes) {place : Nat} (h : b.length ≤ place) :
    isBoundary (b ++ rest) place = isBoundary rest (place - b.length) := by
  have hend : place = (b ++ rest).length ↔ place - b.length = rest.length := by
    rw [List.length_append]
    omega
  simp only [isBoundary, List.getElem?_append_right h, hend]

/-- The boundaries of a text are the places where some of its characters end. -/
theorem isSome_charsBefore? (s : List Char) (place : Nat) :
    (charsBefore? place s).isSome = isBoundary (encode s) place := by
  induction s generalizing place with
  | nil => cases place <;> rfl
  | cons c s ih =>
      rw [encode_cons]
      by_cases hinside : place < c.utf8Size
      · rw [isBoundary_utf8EncodeChar_append c _ hinside]
        cases place with
        | zero => rfl
        | succ place =>
            rw [charsBefore?, if_neg (by omega), decide_eq_false (Nat.succ_ne_zero place)]
            rfl
      · have hpast : (String.utf8EncodeChar c).length ≤ place := by
          rw [String.length_utf8EncodeChar]
          omega
        have hpos := c.utf8Size_pos
        rw [isBoundary_append _ hpast, String.length_utf8EncodeChar, ← ih]
        cases place with
        | zero => omega
        | succ place => rw [charsBefore?, if_pos (by omega), Option.isSome_map]

/-- The first characters of a text end at the place that is their number of bytes. -/
theorem charsBefore?_length_encode (before rest : List Char) :
    charsBefore? (encode before).length (before ++ rest) = some before := by
  induction before with
  | nil => rw [encode, List.flatMap_nil, List.length_nil, charsBefore?]
  | cons c before ih =>
      have hpos := c.utf8Size_pos
      obtain ⟨place, hplace⟩ := Nat.exists_eq_add_one.mpr hpos
      have hlength : (encode (c :: before)).length = (place + (encode before).length) + 1 := by
        rw [length_encode_cons]
        omega
      have hrest : place + (encode before).length + 1 - c.utf8Size = (encode before).length := by
        omega
      rw [hlength, List.cons_append, charsBefore?, if_pos (by omega), hrest, ih, Option.map_some]

/-- The characters that end at a place are the first ones, and the place is their number of
bytes. -/
theorem prefix_of_charsBefore? {place : Nat} {s before : List Char}
    (h : charsBefore? place s = some before) :
    before <+: s ∧ (encode before).length = place := by
  induction s generalizing place before with
  | nil =>
      cases place with
      | zero => obtain rfl := Option.some.inj h; exact ⟨List.prefix_rfl, rfl⟩
      | succ place => cases h
  | cons c s ih =>
      cases place with
      | zero => obtain rfl := Option.some.inj h; exact ⟨List.nil_prefix, rfl⟩
      | succ place =>
          obtain ⟨hfits, h⟩ := Option.ite_none_right_eq_some.mp h
          obtain ⟨kept, hkept, rfl⟩ := Option.map_eq_some_iff.mp h
          obtain ⟨hfirst, hlength⟩ := ih hkept
          refine ⟨(List.prefix_cons_inj c).mpr hfirst, ?_⟩
          rw [length_encode_cons, hlength]
          omega

/-- **The search backwards.**  It ends at the last boundary up to the limit. -/
theorem isGreatest_lastBoundary (s : List Char) (limit : Nat) :
    IsGreatest {place | place ≤ limit ∧ isBoundary (encode s) place = true}
      (lastBoundary s limit) := by
  simp only [← isSome_charsBefore?]
  induction limit with
  | zero => exact ⟨⟨Nat.le_refl 0, by rw [lastBoundary, charsBefore?]; rfl⟩, fun place h => h.1⟩
  | succ limit ih =>
      obtain ⟨⟨hle, hboundary⟩, hgreatest⟩ := ih
      rw [lastBoundary]
      split
      · rename_i hends
        exact ⟨⟨Nat.le_refl _, hends⟩, fun place h => h.1⟩
      · rename_i hends
        refine ⟨⟨Nat.le_succ_of_le hle, hboundary⟩, fun place h => hgreatest ⟨?_, h.2⟩⟩
        -- The place of the limit itself is none.
        have hne : place ≠ limit + 1 := by
          rintro rfl
          exact hends h.2
        have hbound := h.1
        omega

/-! ## Whole characters that fit -/

/-- Fewer characters of one text take fewer bytes. -/
theorem length_encode_lt_of_length_lt {s t : List Char} (h : s <+: t) (hlt : s.length < t.length) :
    (encode s).length < (encode t).length := by
  obtain ⟨rest, rfl⟩ := h
  cases rest with
  | nil => simp at hlt
  | cons c rest =>
      have hpos := c.utf8Size_pos
      rw [encode_append, List.length_append, length_encode_cons]
      omega

/-- What a text is cut to that may take so many bytes: the longest prefix of whole characters that
fits.  Its bytes are those up to the last place within the limit where no character is under way,
and the next character is one too many. -/
structure IsCut (limit : Nat) (s cut : String) : Prop where
  longest : IsLongestPrefix (fun kept => (encode kept).length ≤ limit) s.toList cut.toList
  bytes : bytesOf cut <+: bytesOf s
  greatest : IsGreatest {place | place ≤ limit ∧ isBoundary (bytesOf s) place = true}
    (bytesOf cut).length
  next : ∀ c rest, s.toList = cut.toList ++ c :: rest → limit < (bytesOf cut).length + c.utf8Size

/-- Characters up to the last boundary within the limit are the longest prefix that fits. -/
theorem isLongestPrefix_of_isGreatest {limit : Nat} {s kept : List Char} (hfirst : kept <+: s)
    (hgreatest : IsGreatest {place | place ≤ limit ∧ isBoundary (encode s) place = true}
      (encode kept).length) :
    IsLongestPrefix (fun kept => (encode kept).length ≤ limit) s kept where
  first := hfirst
  holds := hgreatest.1.1
  longest := by
    rintro longer hlonger hlt hfits
    -- The longer prefix ends at a boundary as well, but not at a greater one.
    have hboundary : isBoundary (encode s) (encode longer).length = true := by
      obtain ⟨rest, rfl⟩ := hlonger
      rw [← isSome_charsBefore?, charsBefore?_length_encode, Option.isSome_some]
    have hle := hgreatest.2 ⟨hfits, hboundary⟩
    have hmore := length_encode_lt_of_length_lt
      (List.prefix_of_prefix_length_le hfirst hlonger (Nat.le_of_lt hlt)) hlt
    omega

/-- **Texts are cut as late as possible.**  For every limit a text is truncated to the longest
prefix of whole characters that fits. -/
theorem isCut_truncate (s : String) (limit : Nat) : IsCut limit s (truncate s limit) := by
  obtain ⟨hfirst, hlength⟩ := prefix_of_charsBefore? (charsBefore?_lastBoundary s.toList limit)
  have hgreatest := isGreatest_lastBoundary s.toList limit
  rw [← hlength] at hgreatest
  have hlongest := isLongestPrefix_of_isGreatest hfirst hgreatest
  have hchars : (truncate s limit).toList = truncateChars limit s.toList := String.toList_ofList
  simp only [← hchars] at hfirst hgreatest hlongest
  refine ⟨hlongest, encode_prefix_encode hfirst, hgreatest, fun c rest hrest => ?_⟩
  have hnext : (truncate s limit).toList ++ [c] <+: s.toList := ⟨rest, by simp [hrest]⟩
  have hexceeds := hlongest.longest _ hnext (by simp)
  have hmore : (encode [c]).length = c.utf8Size := by rw [length_encode_cons]; rfl
  rw [encode_append, List.length_append, hmore] at hexceeds
  rw [bytesOf]
  omega

/-- A limit within a character is as good as one before it. -/
example : truncate "aあい" 6 = "aあ" := by decide

end Utf8
end SmartLock
