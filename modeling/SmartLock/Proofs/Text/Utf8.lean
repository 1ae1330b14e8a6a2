/-
# Text that is written and read back

A character that is written in UTF-8 is read back as it was, whatever comes after it
(`Utf8.firstChar?_utf8EncodeChar`), and so is a whole text (`Utf8.decodeLossy_bytesOf`), also as the
text of a field that ends at a zero byte (`Utf8.cleanupTail_bytesOf`).  A text that is truncated
takes no more bytes than it may (`Utf8.length_bytesOf_truncate_le`).

Conversely, every character that is read has been written (`Utf8.eq_of_firstChar?`), so that the
text of a field, whatever the field holds, is written with the first of its bytes
(`Utf8.bytesOf_cleanupTail_prefix_takeWhile`).
-/
import Mathlib.Data.List.TakeWhile
import Mathlib.Tactic.Common
import SmartLock.Text.Utf8

namespace SmartLock.Utf8

/-! ## Bytes of a sequence -/

section Sequences

variable {a b : UInt8}

/-- A byte in the range of continuation bytes is one. -/
theorem isTail_of_toNat (hlow : 0x80 ≤ b.toNat) (hhigh : b.toNat ≤ 0xBF) : isTail b = true := by
  simp only [isTail, Bool.and_eq_true, decide_eq_true_eq, UInt8.le_iff_toNat_le]
  exact ⟨hlow, hhigh⟩

/-- A continuation byte can be a second one, unless the range of the first one excludes it. -/
theorem isSecond_of_toNat (hlow : 0x80 ≤ b.toNat) (hhigh : b.toNat ≤ 0xBF)
    (he0 : a.toNat = 0xE0 → 0xA0 ≤ b.toNat) (hed : a.toNat = 0xED → b.toNat ≤ 0x9F)
    (hf0 : a.toNat = 0xF0 → 0x90 ≤ b.toNat) (hf4 : a.toNat = 0xF4 → b.toNat ≤ 0x8F) :
    isSecond a b = true := by
  have hrange (low high : UInt8) (h : low.toNat ≤ b.toNat) (h' : b.toNat ≤ high.toNat) :
      (decide (low ≤ b) && decide (b ≤ high)) = true := by
    simp only [Bool.and_eq_true, decide_eq_true_eq, UInt8.le_iff_toNat_le]
    exact ⟨h, h'⟩
  unfold isSecond
  split
  · rename_i heq
    exact hrange _ _ (he0 (congrArg UInt8.toNat heq)) hhigh
  split
  · rename_i heq
    exact hrange _ _ hlow (hed (congrArg UInt8.toNat heq))
  split
  · rename_i heq
    exact hrange _ _ (hf0 (congrArg UInt8.toNat heq)) hhigh
  split
  · rename_i heq
    exact hrange _ _ hlow (hf4 (congrArg UInt8.toNat heq))
  · exact isTail_of_toNat hlow hhigh

/-- A byte between two others. -/
theorem toNat_of_between {low high : UInt8} (h : (decide (low ≤ b) && decide (b ≤ high)) = true) :
    low.toNat ≤ b.toNat ∧ b.toNat ≤ high.toNat := by
  simpa only [Bool.and_eq_true, decide_eq_true_eq, UInt8.le_iff_toNat_le] using h

/-- A continuation byte is in the range of these bytes. -/
theorem toNat_of_isTail (h : isTail b = true) : 0x80 ≤ b.toNat ∧ b.toNat ≤ 0xBF :=
  toNat_of_between h

/-- So is a second one, and it is in the range that the first one leaves. -/
theorem toNat_of_isSecond (h : isSecond a b = true) :
    (0x80 ≤ b.toNat ∧ b.toNat ≤ 0xBF) ∧
      (a.toNat = 0xE0 → 0xA0 ≤ b.toNat) ∧ (a.toNat = 0xED → b.toNat ≤ 0x9F) ∧
      (a.toNat = 0xF0 → 0x90 ≤ b.toNat) ∧ (a.toNat = 0xF4 → b.toNat ≤ 0x8F) := by
  have hne {x : UInt8} (hx : a ≠ x) : a.toNat ≠ x.toNat := fun heq => hx (UInt8.toNat_inj.mp heq)
  unfold isSecond at h
  split at h
  · rename_i heq
    have ha : a.toNat = 0xE0 := congrArg UInt8.toNat heq
    have hb : 0xA0 ≤ b.toNat ∧ b.toNat ≤ 0xBF := toNat_of_between h
    omega
  rename_i he0
  split at h
  · rename_i heq
    have ha : a.toNat = 0xED := congrArg UInt8.toNat heq
    have hb : 0x80 ≤ b.toNat ∧ b.toNat ≤ 0x9F := toNat_of_between h
    omega
  rename_i hed
  split at h
  · rename_i heq
    have ha : a.toNat = 0xF0 := congrArg UInt8.toNat heq
    have hb : 0x90 ≤ b.toNat ∧ b.toNat ≤ 0xBF := toNat_of_between h
    omega
  rename_i hf0
  split at h
  · rename_i heq
    have ha : a.toNat = 0xF4 := congrArg UInt8.toNat heq
    have hb : 0x80 ≤ b.toNat ∧ b.toNat ≤ 0x8F := toNat_of_between h
    omega
  · rename_i hf4
    exact ⟨toNat_of_isTail h, fun ha => absurd ha (hne he0), fun ha => absurd ha (hne hed),
      fun ha => absurd ha (hne hf0), fun ha => absurd ha (hne hf4)⟩

/-- The number of bytes of a sequence follows from the range of its first byte. -/
theorem sequenceLength?_eq (a : UInt8) :
    sequenceLength? a =
      if a.toNat < 0x80 then some 1
      else if a.toNat < 0xC2 then none
      else if a.toNat < 0xE0 then some 2
      else if a.toNat < 0xF0 then some 3
      else if a.toNat < 0xF5 then some 4
      else none := by
  simp only [sequenceLength?, UInt8.lt_iff_toNat_lt]
  rfl

/-- A continuation byte that is written for six bits is in the range of these bytes. -/
theorem toNat_tail (n : Nat) : (UInt8.ofNat (n % 64 + 128)).toNat = n % 64 + 128 :=
  Nat.mod_eq_of_lt (by omega)

/-- Its payload bits are the six bits. -/
theorem tailBits_ofNat (n : Nat) : tailBits (UInt8.ofNat (n % 64 + 128)) = n % 64 := by
  rw [tailBits, toNat_tail]
  omega

/-- It is a continuation byte. -/
theorem isTail_ofNat (n : Nat) : isTail (UInt8.ofNat (n % 64 + 128)) = true := by
  apply isTail_of_toNat <;> rw [toNat_tail] <;> omega

end Sequences

/-! ## Characters -/

/-- How a character is written: in one byte, or in two to four with six bits in each but the
first. -/
theorem utf8EncodeChar_eq (c : Char) :
    String.utf8EncodeChar c =
      if c.toNat ≤ 127 then [UInt8.ofNat c.toNat]
      else if c.toNat ≤ 2047 then
        [UInt8.ofNat (c.toNat / 64 % 32 + 192), UInt8.ofNat (c.toNat % 64 + 128)]
      else if c.toNat ≤ 65535 then
        [UInt8.ofNat (c.toNat / 4096 % 16 + 224), UInt8.ofNat (c.toNat / 64 % 64 + 128),
          UInt8.ofNat (c.toNat % 64 + 128)]
      else
        [UInt8.ofNat (c.toNat / 262144 % 8 + 240), UInt8.ofNat (c.toNat / 4096 % 64 + 128),
          UInt8.ofNat (c.toNat / 64 % 64 + 128), UInt8.ofNat (c.toNat % 64 + 128)] := rfl

/-- Only the zero character is written with a zero byte. -/
theorem eq_zero_of_mem_utf8EncodeChar {c : Char} (h : 0 ∈ String.utf8EncodeChar c) :
    c = '\x00' := by
  have hzero {n : Nat} (hn : 0 = UInt8.ofNat n) : n % 256 = 0 := by
    have hnat := congrArg UInt8.toNat hn
    rw [UInt8.toNat_ofNat'] at hnat
    exact hnat.symm
  rw [utf8EncodeChar_eq] at h
  split at h
  · rename_i hsmall
    have hnat := hzero (List.mem_singleton.mp h)
    have hcode : c.toNat = 0 := by omega
    rw [← Char.ofNat_toNat c, hcode]
  -- The bytes of a longer sequence have their highest bit set.
  split at h
  · simp only [List.mem_cons, List.not_mem_nil, or_false] at h
    rcases h with h | h <;> have hnat := hzero h <;> omega
  split at h
  · simp only [List.mem_cons, List.not_mem_nil, or_false] at h
    rcases h with h | h | h <;> have hnat := hzero h <;> omega
  · simp only [List.mem_cons, List.not_mem_nil, or_false] at h
    rcases h with h | h | h | h <;> have hnat := hzero h <;> omega

/-- A character that has been written is read back, whatever comes after it. -/
theorem firstChar?_utf8EncodeChar (c : Char) (rest : Bytes) :
    firstChar? (String.utf8EncodeChar c ++ rest) = some (c, rest) := by
  have hvalid : c.toNat < 0xD800 ∨ 0xDFFF < c.toNat ∧ c.toNat < 0x110000 := c.valid
  have hback {n : Nat} (h : n = c.toNat) : some (Char.ofNat n, rest) = some (c, rest) := by
    rw [h, Char.ofNat_toNat]
  have hwritten := utf8EncodeChar_eq c
  generalize c.toNat = v at *
  rw [hwritten]
  split
  · -- One byte.
    have ha : (UInt8.ofNat v).toNat = v := Nat.mod_eq_of_lt (by omega)
    have hlength : sequenceLength? (UInt8.ofNat v) = some 1 := by
      rw [sequenceLength?_eq, ha, if_pos (by omega)]
    simp only [List.cons_append, List.nil_append, firstChar?, hlength]
    exact hback ha
  split
  · -- Two bytes.
    have ha : (UInt8.ofNat (v / 64 % 32 + 192)).toNat = v / 64 % 32 + 192 :=
      Nat.mod_eq_of_lt (by omega)
    have hlength : sequenceLength? (UInt8.ofNat (v / 64 % 32 + 192)) = some 2 := by
      rw [sequenceLength?_eq, ha, if_neg (by omega), if_neg (by omega), if_pos (by omega)]
    have hsecond :
        isSecond (UInt8.ofNat (v / 64 % 32 + 192)) (UInt8.ofNat (v % 64 + 128)) = true := by
      apply isSecond_of_toNat <;> rw [toNat_tail] <;> omega
    simp only [List.cons_append, List.nil_append, firstChar?, hlength, hsecond, if_true, ha,
      tailBits_ofNat]
    exact hback (by omega)
  split
  · -- Three bytes.
    have ha : (UInt8.ofNat (v / 4096 % 16 + 224)).toNat = v / 4096 % 16 + 224 :=
      Nat.mod_eq_of_lt (by omega)
    have hlength : sequenceLength? (UInt8.ofNat (v / 4096 % 16 + 224)) = some 3 := by
      rw [sequenceLength?_eq, ha, if_neg (by omega), if_neg (by omega), if_neg (by omega),
        if_pos (by omega)]
    have hsecond : isSecond (UInt8.ofNat (v / 4096 % 16 + 224)) (UInt8.ofNat (v / 64 % 64 + 128)) =
        true := by
      apply isSecond_of_toNat <;> rw [toNat_tail] <;> omega
    simp only [List.cons_append, List.nil_append, firstChar?, hlength, hsecond, isTail_ofNat,
      Bool.and_true, if_true, ha, tailBits_ofNat]
    exact hback (by omega)
  · -- Four bytes.
    have ha : (UInt8.ofNat (v / 262144 % 8 + 240)).toNat = v / 262144 % 8 + 240 :=
      Nat.mod_eq_of_lt (by omega)
    have hlength : sequenceLength? (UInt8.ofNat (v / 262144 % 8 + 240)) = some 4 := by
      rw [sequenceLength?_eq, ha, if_neg (by omega), if_neg (by omega), if_neg (by omega),
        if_neg (by omega), if_pos (by omega)]
    have hsecond : isSecond (UInt8.ofNat (v / 262144 % 8 + 240))
        (UInt8.ofNat (v / 4096 % 64 + 128)) = true := by
      apply isSecond_of_toNat <;> rw [toNat_tail] <;> omega
    simp only [List.cons_append, List.nil_append, firstChar?, hlength, hsecond, isTail_ofNat,
      Bool.and_true, if_true, ha, tailBits_ofNat]
    exact hback (by omega)

/-- The number of a character that is read, if it is one of a character. -/
theorem toNat_ofNat {n : Nat} (h : n < 0xD800 ∨ 0xDFFF < n ∧ n < 0x110000) :
    (Char.ofNat n).toNat = n := by
  rw [Char.ofNat, dif_pos h]
  rfl

/-- A character that is read has been written. -/
theorem eq_of_firstChar? {b : Bytes} {c : Char} {rest : Bytes} (h : firstChar? b = some (c, rest)) :
    b = String.utf8EncodeChar c ++ rest := by
  have hbyte {x : UInt8} {n : Nat} (h : n = x.toNat) : UInt8.ofNat n = x := by
    rw [h, UInt8.ofNat_toNat]
  obtain _ | ⟨a, tail⟩ := b
  · cases h
  unfold firstChar? at h
  dsimp only at h
  have hlength := sequenceLength?_eq a
  have hlt := a.toNat_lt
  split at h
  · -- One byte.
    rename_i hone
    rw [hone] at hlength
    have ha : a.toNat < 0x80 := by grind
    obtain ⟨rfl, rfl⟩ := Prod.mk.inj (Option.some.inj h)
    rw [utf8EncodeChar_eq, toNat_ofNat (by omega), if_pos (by omega), UInt8.ofNat_toNat]
    rfl
  · -- Two bytes.
    rename_i b rest htwo
    rw [htwo] at hlength
    have ha : 0xC2 ≤ a.toNat ∧ a.toNat < 0xE0 := by grind
    obtain ⟨hsecond, h⟩ := Option.ite_none_right_eq_some.mp h
    obtain ⟨hb, -⟩ := toNat_of_isSecond hsecond
    obtain ⟨rfl, rfl⟩ := Prod.mk.inj (Option.some.inj h)
    rw [utf8EncodeChar_eq, tailBits, toNat_ofNat (by omega), if_neg (by omega), if_pos (by omega),
      hbyte (x := a) (by omega), hbyte (x := b) (by omega)]
    rfl
  · -- Three bytes.
    rename_i b c rest hthree
    rw [hthree] at hlength
    have ha : 0xE0 ≤ a.toNat ∧ a.toNat < 0xF0 := by grind
    obtain ⟨htails, h⟩ := Option.ite_none_right_eq_some.mp h
    obtain ⟨hsecond, hc⟩ := Bool.and_eq_true_iff.mp htails
    obtain ⟨hb, he0, hed, -⟩ := toNat_of_isSecond hsecond
    have hc := toNat_of_isTail hc
    obtain ⟨rfl, rfl⟩ := Prod.mk.inj (Option.some.inj h)
    rw [utf8EncodeChar_eq, tailBits, tailBits, toNat_ofNat (by omega), if_neg (by omega),
      if_neg (by omega), if_pos (by omega), hbyte (x := a) (by omega), hbyte (x := b) (by omega),
      hbyte (x := c) (by omega)]
    rfl
  · -- Four bytes.
    rename_i b c d rest hfour
    rw [hfour] at hlength
    have ha : 0xF0 ≤ a.toNat ∧ a.toNat < 0xF5 := by grind
    obtain ⟨htails, h⟩ := Option.ite_none_right_eq_some.mp h
    obtain ⟨htails, hd⟩ := Bool.and_eq_true_iff.mp htails
    obtain ⟨hsecond, hc⟩ := Bool.and_eq_true_iff.mp htails
    obtain ⟨hb, -, -, hf0, hf4⟩ := toNat_of_isSecond hsecond
    have hc := toNat_of_isTail hc
    have hd := toNat_of_isTail hd
    obtain ⟨rfl, rfl⟩ := Prod.mk.inj (Option.some.inj h)
    rw [utf8EncodeChar_eq, tailBits, tailBits, tailBits, toNat_ofNat (by omega), if_neg (by omega),
      if_neg (by omega), if_neg (by omega), hbyte (x := a) (by omega), hbyte (x := b) (by omega),
      hbyte (x := c) (by omega), hbyte (x := d) (by omega)]
    rfl
  · cases h

/-! ## Texts -/

/-- The bytes of the first character come first. -/
theorem encode_cons (c : Char) (rest : List Char) :
    encode (c :: rest) = String.utf8EncodeChar c ++ encode rest := List.flatMap_cons

/-- The bytes of a text come before those of what is after it. -/
theorem encode_append (s t : List Char) : encode (s ++ t) = encode s ++ encode t :=
  List.flatMap_append

/-- A text is as long as its characters are. -/
theorem length_encode_cons (c : Char) (rest : List Char) :
    (encode (c :: rest)).length = c.utf8Size + (encode rest).length := by
  rw [encode_cons, List.length_append, String.length_utf8EncodeChar]

/-- A text that has been written is read back. -/
theorem decodeLossyWithin_encode (s : List Char) {fuel : Nat} (h : (encode s).length ≤ fuel) :
    decodeLossyWithin fuel (encode s) = s := by
  induction s generalizing fuel with
  | nil => cases fuel <;> rfl
  | cons c rest ih =>
      have hpos := c.utf8Size_pos
      rw [length_encode_cons] at h
      cases fuel with
      | zero => omega
      | succ fuel =>
          rw [encode_cons, decodeLossyWithin, firstChar?_utf8EncodeChar]
          dsimp only
          rw [ih (by omega)]

/-- **Reading what has been written.**  The bytes of a string are read as this string. -/
@[simp] theorem decodeLossy_bytesOf (s : String) : decodeLossy (bytesOf s) = s := by
  rw [decodeLossy, bytesOf, decodeLossyWithin_encode _ (Nat.le_refl _), String.ofList_toList]

/-- The bytes determine the string. -/
theorem bytesOf_injective {s t : String} (h : bytesOf s = bytesOf t) : s = t := by
  rw [← decodeLossy_bytesOf s, h, decodeLossy_bytesOf]

/-- Bytes of ASCII are the text of the characters with their numbers. -/
theorem encode_map_ofNat {b : Bytes} (h : ∀ x ∈ b, x.toNat < 128) :
    encode (b.map fun x => Char.ofNat x.toNat) = b := by
  induction b with
  | nil => rfl
  | cons x b ih =>
      have hx := h x List.mem_cons_self
      have hchar : String.utf8EncodeChar (Char.ofNat x.toNat) = [x] := by
        rw [utf8EncodeChar_eq, toNat_ofNat (by omega), if_pos (by omega), UInt8.ofNat_toNat]
      rw [List.map_cons, encode_cons, hchar, ih fun y hy => h y (List.mem_cons_of_mem x hy)]
      rfl

/-- Characters of ASCII are written with one byte each. -/
theorem encode_of_ascii {s : List Char} (h : ∀ c ∈ s, c.toNat < 128) :
    encode s = s.map fun c => UInt8.ofNat c.toNat := by
  induction s with
  | nil => rfl
  | cons c s ih =>
      have hc := h c List.mem_cons_self
      rw [encode_cons, utf8EncodeChar_eq, if_pos (by omega),
        ih fun d hd => h d (List.mem_cons_of_mem c hd)]
      rfl

/-- Other characters are not written with bytes of ASCII only. -/
theorem toNat_lt_of_encode {s : List Char} (h : ∀ x ∈ encode s, x.toNat < 128) :
    ∀ c ∈ s, c.toNat < 128 := by
  intro c hc
  by_contra hnot
  -- Other characters end with a continuation byte.
  have htail := h (UInt8.ofNat (c.toNat % 64 + 128)) (by
    refine List.mem_flatMap.mpr ⟨c, hc, ?_⟩
    rw [utf8EncodeChar_eq, if_neg (by omega)]
    split
    · simp
    · split <;> simp)
  rw [toNat_tail] at htail
  omega

/-- A text that has been written is read first, whatever comes after it. -/
theorem validPrefixWithin_encode_append (s : List Char) (rest : Bytes) {fuel : Nat}
    (h : (encode s).length ≤ fuel) :
    validPrefixWithin fuel (encode s ++ rest) =
      s ++ validPrefixWithin (fuel - s.length) rest := by
  induction s generalizing fuel with
  | nil => rfl
  | cons c s ih =>
      have hpos := c.utf8Size_pos
      rw [length_encode_cons] at h
      cases fuel with
      | zero => omega
      | succ fuel =>
          rw [encode_cons, List.append_assoc, validPrefixWithin, firstChar?_utf8EncodeChar]
          dsimp only
          rw [ih (by omega), List.length_cons, Nat.add_sub_add_right, List.cons_append]

/-- A text that has been written is valid to its end. -/
theorem validPrefixWithin_encode (s : List Char) {fuel : Nat} (h : (encode s).length ≤ fuel) :
    validPrefixWithin fuel (encode s) = s := by
  have hempty (fuel : Nat) : validPrefixWithin fuel [] = [] := by cases fuel <;> rfl
  have hread := validPrefixWithin_encode_append s [] h
  rwa [List.append_nil, hempty, List.append_nil] at hread

/-- A text without the zero character is written without a zero byte. -/
theorem zero_not_mem_encode {s : List Char} (h : '\x00' ∉ s) : 0 ∉ encode s := by
  intro hmem
  obtain ⟨c, hc, hbyte⟩ := List.mem_flatMap.mp hmem
  rw [eq_zero_of_mem_utf8EncodeChar hbyte] at hc
  exact h hc

/-- Bytes without a zero are all before the first zero. -/
theorem takeWhile_append_of_zero_not_mem {b : Bytes} (h : 0 ∉ b) (rest : Bytes) :
    (b ++ rest).takeWhile (· ≠ 0) = b ++ rest.takeWhile (· ≠ 0) := by
  apply List.takeWhile_append_of_pos
  intro byte hbyte
  have hne : byte ≠ 0 := by
    rintro rfl
    exact h hbyte
  simpa using hne

/-- The bytes of a string without the zero character need no cleaning. -/
theorem cleanupTail_bytesOf {s : String} (h : '\x00' ∉ s.toList) : cleanupTail (bytesOf s) = s := by
  have hkept := takeWhile_append_of_zero_not_mem (zero_not_mem_encode h) []
  rw [List.append_nil, List.takeWhile_nil, List.append_nil] at hkept
  rw [cleanupTail, bytesOf, hkept, validPrefix, validPrefixWithin_encode _ (Nat.le_refl _),
    String.ofList_toList]

/-- The characters that are read are written with the first of the bytes. -/
theorem encode_validPrefixWithin_prefix_self (fuel : Nat) (b : Bytes) :
    encode (validPrefixWithin fuel b) <+: b := by
  induction fuel generalizing b with
  | zero => exact List.nil_prefix
  | succ fuel ih =>
      rw [validPrefixWithin]
      cases hfirst : firstChar? b with
      | none => exact List.nil_prefix
      | some read =>
          obtain ⟨c, rest⟩ := read
          rw [eq_of_firstChar? hfirst, encode_cons]
          exact (List.prefix_append_right_inj _).mpr (ih rest)

/-- The text of a field is written with the first of its bytes, and none of them is zero. -/
theorem bytesOf_cleanupTail_prefix_takeWhile (b : Bytes) :
    bytesOf (cleanupTail b) <+: b.takeWhile (· ≠ 0) := by
  rw [bytesOf, cleanupTail, String.toList_ofList]
  exact encode_validPrefixWithin_prefix_self ..

/-- A text with the zero character is written with a zero byte. -/
theorem zero_mem_encode {s : List Char} (h : '\x00' ∈ s) : 0 ∈ encode s :=
  List.mem_flatMap.mpr ⟨_, h, by decide⟩

/-- The text of a field has no zero character. -/
theorem zero_not_mem_cleanupTail (b : Bytes) : '\x00' ∉ (cleanupTail b).toList := by
  intro hmem
  have hzero := (bytesOf_cleanupTail_prefix_takeWhile b).mem (zero_mem_encode hmem)
  simpa using List.mem_takeWhile_imp hzero

/-- Characters that are truncated take no more bytes than they may. -/
theorem length_encode_truncateChars_le (limit : Nat) (s : List Char) :
    (encode (truncateChars limit s)).length ≤ limit := by
  induction s generalizing limit with
  | nil => exact Nat.zero_le _
  | cons c rest ih =>
      rw [truncateChars]
      split
      · have hrest := ih (limit - c.utf8Size)
        rw [length_encode_cons]
        omega
      · exact Nat.zero_le _

/-- Characters that are truncated are the first ones. -/
theorem truncateChars_prefix_self (limit : Nat) (s : List Char) : truncateChars limit s <+: s := by
  induction s generalizing limit with
  | nil => exact List.nil_prefix
  | cons c rest ih =>
      rw [truncateChars]
      split
      · exact (List.prefix_cons_inj c).mpr (ih _)
      · exact List.nil_prefix

/-- A string that is truncated has no character that it had not before. -/
theorem mem_of_mem_truncate {s : String} {limit : Nat} {c : Char}
    (h : c ∈ (truncate s limit).toList) : c ∈ s.toList := by
  rw [truncate, String.toList_ofList] at h
  exact (truncateChars_prefix_self limit s.toList).mem h

/-- A string that is truncated takes no more bytes than it may. -/
theorem length_bytesOf_truncate_le (s : String) (limit : Nat) :
    (bytesOf (truncate s limit)).length ≤ limit := by
  rw [bytesOf, truncate, String.toList_ofList]
  exact length_encode_truncateChars_le limit s.toList

end SmartLock.Utf8
