/-
# Hexadecimal digits, written and read

The digits of a byte string are read as the byte string (`Hex.decode_encode`).  Digits of either
case are told apart from white space (`Hex.not_isBlank_of_decode`).

Pairs of digits are read if all bytes are digits in either case, and otherwise the first byte that
is none is reported (`Hex.decodePairs_of_lower`, `Hex.decodePairs_of_first`).  So a text is read as
a byte string of a fixed size exactly if it is, between white space and but for the case of its
letters, what is written for this byte string; for any other text it is known which error is
reported (`Hex.decodeExact_eq_iff`).
-/
import Mathlib.Data.List.TakeWhile
import Mathlib.Tactic.Common
import SmartLock.Proofs.Text.Blank
import SmartLock.Proofs.Text.Utf8
import SmartLock.Text.Hex

namespace SmartLock.Hex

/-! ## Digits that are written -/

/-- What is written for a byte string are digits of numbers below sixteen. -/
theorem exists_of_mem_digits {b : Bytes} {c : Char} (h : c ∈ digits b) :
    ∃ v < 16, c = digit v := by
  obtain ⟨x, -, hx⟩ := List.mem_flatMap.mp h
  have hlt := x.toNat_lt
  simp only [List.mem_cons, List.not_mem_nil, or_false] at hx
  rcases hx with rfl | rfl
  · exact ⟨x.toNat / 16, by omega, rfl⟩
  · exact ⟨x.toNat % 16, by omega, rfl⟩

/-- Digits are characters of ASCII. -/
theorem toNat_lt_of_mem_digits {b : Bytes} {c : Char} (h : c ∈ digits b) : c.toNat < 128 := by
  have hall : ∀ v : Fin 16, (digit v).toNat < 128 := by decide
  obtain ⟨v, hv, rfl⟩ := exists_of_mem_digits h
  exact hall ⟨v, hv⟩

/-! ## Digits in either case -/

/-- The character of a byte, a small letter for a capital one. -/
def lower (x : UInt8) : Char := (Char.ofNat x.toNat).toLower

/-- A byte that is a digit in either case. -/
def IsDigit (x : UInt8) : Prop := ∃ v < 16, lower x = digit v

section Bytes

variable {x : UInt8} {v : Nat}

/-- A byte has the value of the digit that it is, and no other byte has a value. -/
theorem value?_eq_some_iff : value? x = some v ↔ v < 16 ∧ lower x = digit v := by
  have hall : ∀ n : Fin 256, (∀ v ∈ value? (UInt8.ofNat n), v < 16) ∧
      ∀ v : Fin 16, value? (UInt8.ofNat n) = some v.val ↔ lower (UInt8.ofNat n) = digit v := by
    decide +kernel
  have hx := hall ⟨x.toNat, x.toNat_lt⟩
  rw [UInt8.ofNat_toNat] at hx
  constructor
  · intro h
    have hv := hx.1 v h
    exact ⟨hv, (hx.2 ⟨v, hv⟩).mp h⟩
  · rintro ⟨hv, h⟩
    exact (hx.2 ⟨v, hv⟩).mpr h

/-- The value of a digit, wherever it is. -/
theorem valueAt_of_lower (index : Nat) (hv : v < 16) (h : lower x = digit v) :
    valueAt index x = .ok v := by
  rw [valueAt, value?_eq_some_iff.mpr ⟨hv, h⟩]

/-- The complaint about a byte that is no digit. -/
theorem valueAt_of_not_isDigit (index : Nat) (h : ¬ IsDigit x) :
    valueAt index x = .error (.invalidHexCharacter x index) := by
  rw [valueAt]
  cases hx : value? x with
  | none => rfl
  | some v => exact absurd ⟨v, value?_eq_some_iff.mp hx⟩ h

end Bytes

/-! ## Pairs of digits -/

section Pairs

variable {x b : Bytes}

/-- Digits in either case are read as the byte string that they are written for. -/
theorem decodePairs_of_lower (index : Nat) (h : x.map lower = digits b) :
    decodePairs index x = .ok b := by
  induction b generalizing index x with
  | nil =>
      obtain rfl := List.map_eq_nil_iff.mp h
      rfl
  | cons y b ih =>
      have hlt := y.toNat_lt
      have hpair : 16 * (y.toNat / 16) + y.toNat % 16 = y.toNat := by omega
      rw [digits_cons] at h
      obtain ⟨high, x, rfl, hhigh, h⟩ := List.map_eq_cons_iff.mp h
      obtain ⟨low, rest, rfl, hlow, hrest⟩ := List.map_eq_cons_iff.mp h
      rw [decodePairs, valueAt_of_lower _ (by omega) hhigh, valueAt_of_lower _ (by omega) hlow,
        ih _ hrest]
      show Except.ok (UInt8.ofNat (16 * (y.toNat / 16) + y.toNat % 16) :: b) = _
      rw [hpair, UInt8.ofNat_toNat]

/-- The first byte that is no digit is reported, with its position. -/
theorem decodePairs_of_first {bad : UInt8} (hbad : ¬ IsDigit bad) {after : Bytes} :
    ∀ (index : Nat) {before : Bytes}, (∀ y ∈ before, IsDigit y) →
      (before ++ bad :: after).length % 2 = 0 →
      decodePairs index (before ++ bad :: after) =
        .error (.invalidHexCharacter bad (index + before.length))
  -- The recursion is on the digits before it, a pair at a time; one may be left for its own pair.
  | index, [], _, heven => by
      cases after with
      | nil => simp at heven
      | cons low rest =>
          rw [List.nil_append, decodePairs, valueAt_of_not_isDigit index hbad]
          rfl
  | index, [high], hbefore, _ => by
      obtain ⟨v, hv, hhigh⟩ := hbefore high List.mem_cons_self
      rw [List.cons_append, List.nil_append, decodePairs, valueAt_of_lower index hv hhigh,
        valueAt_of_not_isDigit (index + 1) hbad]
      rfl
  | index, high :: low :: before, hbefore, heven => by
      simp only [List.forall_mem_cons] at hbefore
      obtain ⟨⟨v, hv, hhigh⟩, ⟨w, hw, hlow⟩, hbefore⟩ := hbefore
      have hlater : (before ++ bad :: after).length % 2 = 0 := by
        simp only [List.cons_append, List.length_cons] at heven
        omega
      have hrest := decodePairs_of_first hbad (index + 2) hbefore hlater
      rw [List.cons_append, List.cons_append, decodePairs, valueAt_of_lower index hv hhigh,
        valueAt_of_lower (index + 1) hw hlow, hrest]
      show Except.error (HexError.invalidHexCharacter bad (index + 2 + before.length)) = _
      rw [List.length_cons, List.length_cons, Nat.add_right_comm, Nat.add_assoc]

/-- An even number of digits is written for some byte string, but for the case of the letters. -/
theorem exists_map_lower_eq_digits :
    ∀ {x : Bytes}, x.length % 2 = 0 → (∀ y ∈ x, IsDigit y) → ∃ b, x.map lower = digits b
  | [], _, _ => ⟨[], rfl⟩
  | [_], heven, _ => by simp at heven
  | high :: low :: rest, heven, hdigits => by
      simp only [List.forall_mem_cons] at hdigits
      obtain ⟨⟨v, hv, hhigh⟩, ⟨w, hw, hlow⟩, hrest⟩ := hdigits
      simp only [List.length_cons] at heven
      obtain ⟨b, hb⟩ := exists_map_lower_eq_digits (by omega) hrest
      have hbyte : (UInt8.ofNat (16 * v + w)).toNat = 16 * v + w := Nat.mod_eq_of_lt (by omega)
      have hdiv : (16 * v + w) / 16 = v := by omega
      have hmod : (16 * v + w) % 16 = w := by omega
      refine ⟨UInt8.ofNat (16 * v + w) :: b, ?_⟩
      rw [digits_cons, hbyte, hdiv, hmod, List.map_cons, List.map_cons, hhigh, hlow, hb]

/-- Bytes in pairs are written for some byte string, or there is a first one that is no digit. -/
theorem exists_digits_or_first (heven : x.length % 2 = 0) :
    (∃ b, x.map lower = digits b) ∨
      ∃ before bad after, x = before ++ bad :: after ∧ (∀ y ∈ before, IsDigit y) ∧
        ¬ IsDigit bad := by
  classical
  cases hfind : x.find? fun y => ¬ IsDigit y with
  | none =>
      refine .inl (exists_map_lower_eq_digits heven fun y hy => ?_)
      simpa using List.find?_eq_none.mp hfind y hy
  | some bad =>
      obtain ⟨hbad, before, after, hx, hbefore⟩ := List.find?_eq_some_iff_append.mp hfind
      exact .inr ⟨before, bad, after, hx, by simpa using hbefore, by simpa using hbad⟩

end Pairs

/-! ## Digits that are read back -/

/-- The digits of a byte string are read as the byte string. -/
theorem decodePairs_digits (index : Nat) (b : Bytes) :
    decodePairs index ((digits b).map fun c => UInt8.ofNat c.toNat) = .ok b := by
  have hall : ∀ v : Fin 16, lower (UInt8.ofNat (digit v).toNat) = digit v := by decide
  apply decodePairs_of_lower
  have hback : ∀ c ∈ digits b, lower (UInt8.ofNat c.toNat) = c := by
    intro c hc
    obtain ⟨v, hv, rfl⟩ := exists_of_mem_digits hc
    exact hall ⟨v, hv⟩
  rw [List.map_map]
  exact (List.map_congr_left hback).trans (List.map_id _)

/-- **Digits are read back.** -/
theorem decode_encode (b : Bytes) : decode (encode b) = .ok b := by
  have hbytes : Utf8.bytesOf (encode b) = (digits b).map fun c => UInt8.ofNat c.toNat := by
    rw [Utf8.bytesOf, encode, String.toList_ofList,
      Utf8.encode_of_ascii fun c hc => toNat_lt_of_mem_digits hc]
  have heven : (Utf8.bytesOf (encode b)).length % 2 ≠ 1 := by
    rw [hbytes, List.length_map, length_digits]
    omega
  rw [decode, decodeDigits, if_neg heven, hbytes, decodePairs_digits]

/-! ## Digits that are read -/

/-- Bytes that are written for a byte string, but for the case of the letters, are digits. -/
theorem isDigit_of_map_lower {x b : Bytes} (h : x.map lower = digits b) : ∀ y ∈ x, IsDigit y :=
  fun _ hy => exists_of_mem_digits (h ▸ List.mem_map_of_mem hy)

/-- All bytes of pairs that are read are digits. -/
theorem isDigit_of_decodePairs {index : Nat} {x b : Bytes} (h : decodePairs index x = .ok b)
    (heven : x.length % 2 = 0) : ∀ y ∈ x, IsDigit y := by
  obtain ⟨b, hb⟩ | ⟨before, bad, after, rfl, hbefore, hbad⟩ := exists_digits_or_first heven
  · exact isDigit_of_map_lower hb
  · rw [decodePairs_of_first hbad index hbefore heven] at h
    cases h

/-- A digit is a byte of ASCII, and its character is no white space. -/
theorem IsDigit.toNat_lt_and_not_isBlank {x : UInt8} (h : IsDigit x) :
    x.toNat < 128 ∧ Text.isBlank (Char.ofNat x.toNat) = false := by
  have hall : ∀ n : Fin 256, (value? (UInt8.ofNat n)).isSome = true →
      n.val < 128 ∧ Text.isBlank (Char.ofNat n) = false := by
    decide +kernel
  obtain ⟨v, hv⟩ := h
  have hvalue : value? x = some v := value?_eq_some_iff.mpr hv
  exact hall ⟨x.toNat, x.toNat_lt⟩ (by simp [hvalue])

/-- A text whose bytes are digits has characters of ASCII only. -/
theorem toNat_lt_of_isDigit {text : List Char} (h : ∀ x ∈ Utf8.encode text, IsDigit x) :
    ∀ c ∈ text, c.toNat < 128 :=
  Utf8.toNat_lt_of_encode fun x hx => (h x hx).toNat_lt_and_not_isBlank.1

/-- A character of ASCII is that of its byte. -/
theorem ofNat_toNat_ofNat {c : Char} (h : c.toNat < 128) :
    Char.ofNat (UInt8.ofNat c.toNat).toNat = c := by
  rw [UInt8.toNat_ofNat', Nat.mod_eq_of_lt (by omega), Char.ofNat_toNat]

/-- In a text that is read there is no white space. -/
theorem not_isBlank_of_decode {text : List Char} {bytes : Bytes}
    (h : decode (String.ofList text) = .ok bytes) : ∀ c ∈ text, Text.isBlank c = false := by
  intro c hc
  rw [decode, decodeDigits, Utf8.bytesOf, String.toList_ofList] at h
  split at h
  · cases h
  · have hdigits := isDigit_of_decodePairs h (by omega)
    have hascii := toNat_lt_of_isDigit hdigits
    rw [Utf8.encode_of_ascii hascii] at hdigits
    have hbyte := (hdigits _ (List.mem_map_of_mem hc)).toNat_lt_and_not_isBlank.2
    rwa [ofNat_toNat_ofNat (hascii c hc)] at hbyte

/-! ## Texts that are digits -/

section Texts

variable {text : List Char}

/-- A character whose small letter is of ASCII is of ASCII itself. -/
theorem toNat_lt_of_toLower {c : Char} (h : c.toLower.toNat < 128) : c.toNat < 128 := by
  unfold Char.toLower at h
  split at h
  · rename_i hcapital
    have hle : c.toNat ≤ 90 := hcapital.2
    omega
  · exact h

/-- In characters or in bytes, a text is the digits of a byte string, but for the case of the
letters. -/
theorem map_lower_encode_eq_digits_iff {b : Bytes} :
    (Utf8.encode text).map lower = digits b ↔ text.map Char.toLower = digits b := by
  have hsame (hascii : ∀ c ∈ text, c.toNat < 128) :
      (Utf8.encode text).map lower = text.map Char.toLower := by
    rw [Utf8.encode_of_ascii hascii, List.map_map]
    exact List.map_congr_left fun c hc => congrArg Char.toLower (ofNat_toNat_ofNat (hascii c hc))
  constructor
  · intro h
    rwa [hsame (toNat_lt_of_isDigit (isDigit_of_map_lower h))] at h
  · intro h
    rw [hsame, h]
    intro c hc
    exact toNat_lt_of_toLower (toNat_lt_of_mem_digits (h ▸ List.mem_map_of_mem hc))

/-- What comes of a text, without white space around it, that is to be `n` bytes: these bytes if it
is their digits in either case; otherwise the first complaint that applies, an odd number of bytes
in the text, a wrong number of them, the first of them that is no digit. -/
inductive Reads (n : Nat) (text : List Char) : Except HexError (Octets n) → Prop
  | bytes {b : Octets n} (h : text.map Char.toLower = digits b.toBytes) : Reads n text (.ok b)
  | oddLength (hodd : (Utf8.encode text).length % 2 = 1) : Reads n text (.error .oddLength)
  | invalidStringLength (heven : (Utf8.encode text).length % 2 = 0)
      (hlength : (Utf8.encode text).length ≠ 2 * n) : Reads n text (.error .invalidStringLength)
  | invalidHexCharacter {before after : Bytes} {bad : UInt8}
      (hlength : (Utf8.encode text).length = 2 * n)
      (hbytes : Utf8.encode text = before ++ bad :: after)
      (hbefore : ∀ x ∈ before, IsDigit x) (hbad : ¬ IsDigit bad) :
      Reads n text (.error (.invalidHexCharacter bad before.length))

/-- Something comes of every text. -/
theorem exists_reads (n : Nat) (text : List Char) : ∃ result, Reads n text result := by
  by_cases hodd : (Utf8.encode text).length % 2 = 1
  · exact ⟨_, .oddLength hodd⟩
  by_cases hlength : (Utf8.encode text).length = 2 * n
  · obtain ⟨b, hb⟩ | ⟨before, bad, after, hbytes, hbefore, hbad⟩ :=
      exists_digits_or_first (x := Utf8.encode text) (by omega)
    · have hcount : 2 * b.length = 2 * n := by
        rw [← length_digits, ← hb, List.length_map, hlength]
      exact ⟨_, .bytes (b := ⟨b, by omega⟩) (map_lower_encode_eq_digits_iff.mp hb)⟩
    · exact ⟨_, .invalidHexCharacter hlength hbytes hbefore hbad⟩
  · exact ⟨_, .invalidStringLength (by omega) hlength⟩

/-- It is what comes of the text when it is read. -/
theorem Reads.decodeExact_eq {n : Nat} {s : String} {result : Except HexError (Octets n)}
    (h : Reads n (Text.trim s.toList) result) : decodeExact n s = result := by
  unfold decodeExact trimmedBytes
  dsimp only
  cases h with
  | @bytes b h =>
      have hdigits := map_lower_encode_eq_digits_iff.mpr h
      have hlength := congrArg List.length hdigits
      rw [List.length_map, length_digits, b.length_toBytes] at hlength
      rw [if_neg (by omega), if_neg (by omega), decodePairs_of_lower 0 hdigits]
      exact congrArg Except.ok (Octets.ofBytes_toBytes b)
  | oddLength hodd => rw [if_pos hodd]
  | invalidStringLength heven hlength => rw [if_neg (by omega), if_pos hlength]
  | @invalidHexCharacter before after bad hlength hbytes hbefore hbad =>
      have heven : (before ++ bad :: after).length % 2 = 0 := by
        rw [← hbytes]
        omega
      have hread := decodePairs_of_first hbad 0 hbefore heven
      rw [if_neg (by omega), if_neg (by omega), hbytes, hread, Nat.zero_add]
      rfl

/-- **Exactly the digits of a byte string are read as it.**  For every size and every text it is
known what comes of the text without the white space around it. -/
theorem decodeExact_eq_iff (n : Nat) (s : String) (result : Except HexError (Octets n)) :
    decodeExact n s = result ↔ ∃ text, Text.IsTrimmed s.toList text ∧ Reads n text result := by
  constructor
  · rintro rfl
    obtain ⟨result, hreads⟩ := exists_reads n (Text.trim s.toList)
    exact ⟨_, Text.isTrimmed_trim _, hreads.decodeExact_eq ▸ hreads⟩
  · rintro ⟨text, htrimmed, hreads⟩
    obtain rfl := htrimmed.trim_eq
    exact hreads.decodeExact_eq

/-- A character of two bytes counts as two, and the first of them is the wrong one. -/
example : decodeExact 2 " 0é1\n" = .error (.invalidHexCharacter 0xC3 1) := by decide

end Texts

end SmartLock.Hex
