/-
# Base64 that is written and read back

Bytes that are written in Base64 are read back (`Base64.decode?_encode`), and a text that can be
read is the one that is written for its bytes (`Base64.encode_of_decode?`).  So each byte string has
one text (`Base64.decode?_eq_some_iff`), and a symbol outside the alphabet or a low bit too many
makes a text unreadable.
-/
import Mathlib.Tactic.Common
import SmartLock.Text.Base64

namespace SmartLock.Base64

/-! ## Symbols -/

/-- The number of a byte makes the byte again. -/
theorem ofNat_of_eq_toNat (x : UInt8) {n : Nat} (h : n = x.toNat) : UInt8.ofNat n = x := by
  rw [h, UInt8.ofNat_toNat]

/-- The symbol of a number stands for it. -/
theorem value?_symbol {n : Nat} (h : n < 64) : value? (symbol n) = some n := by
  revert n
  decide

/-- A symbol that stands for a number is the symbol of this number. -/
theorem symbol_of_value? {x : UInt8} {n : Nat} (h : value? x = some n) : n < 64 ∧ symbol n = x := by
  have hbetween {low high : UInt8} (h : (decide (low ≤ x) && decide (x ≤ high)) = true) :
      low.toNat ≤ x.toNat ∧ x.toNat ≤ high.toNat := by
    simpa only [Bool.and_eq_true, decide_eq_true_eq, UInt8.le_iff_toNat_le] using h
  unfold value? at h
  -- the ranges of the alphabet are apart, so that each branch is taken back by one of the other table
  split at h
  · rename_i hupper
    have hx : 65 ≤ x.toNat ∧ x.toNat ≤ 90 := hbetween hupper
    obtain rfl := Option.some.inj h
    rw [symbol, if_pos (by omega), ofNat_of_eq_toNat x (by omega)]
    exact ⟨by omega, rfl⟩
  split at h
  · rename_i hlower
    have hx : 97 ≤ x.toNat ∧ x.toNat ≤ 122 := hbetween hlower
    obtain rfl := Option.some.inj h
    rw [symbol, if_neg (by omega), if_pos (by omega), ofNat_of_eq_toNat x (by omega)]
    exact ⟨by omega, rfl⟩
  split at h
  · rename_i hfigure
    have hx : 48 ≤ x.toNat ∧ x.toNat ≤ 57 := hbetween hfigure
    obtain rfl := Option.some.inj h
    rw [symbol, if_neg (by omega), if_neg (by omega), if_pos (by omega),
      ofNat_of_eq_toNat x (by omega)]
    exact ⟨by omega, rfl⟩
  split at h
  · rename_i hplus
    obtain rfl := Option.some.inj h
    exact ⟨by decide, hplus.symm⟩
  split at h
  · rename_i hslash
    obtain rfl := Option.some.inj h
    exact ⟨by decide, hslash.symm⟩
  · cases h

/-- The symbols are those of ASCII, and none of them is zero. -/
theorem symbol_toNat {n : Nat} (h : n < 64) : 0 < (symbol n).toNat ∧ (symbol n).toNat < 128 := by
  revert n
  decide

/-! ## Whole texts -/

/-- **Bytes that are written are read back.** -/
@[simp] theorem decode?_encode (b : Bytes) : decode? (encode b) = some b := by
  fun_induction encode b with
  | case1 => rfl
  | case2 a v =>
      have ha := a.toNat_lt
      simp only [decode?, value?_symbol (n := v / 64) (by omega),
        value?_symbol (n := v % 64) (by omega), Option.bind_eq_bind, Option.bind_some]
      rw [if_pos (by omega), ofNat_of_eq_toNat a (by omega)]
  | case3 a b v =>
      have ha := a.toNat_lt
      have hb := b.toNat_lt
      simp only [decode?, value?_symbol (n := v / 4096) (by omega),
        value?_symbol (n := v / 64 % 64) (by omega), value?_symbol (n := v % 64) (by omega),
        Option.bind_eq_bind, Option.bind_some]
      rw [if_pos (by omega), ofNat_of_eq_toNat a (by omega),
        ofNat_of_eq_toNat b (by omega)]
  | case4 a b c rest v ih =>
      have ha := a.toNat_lt
      have hb := b.toNat_lt
      have hc := c.toNat_lt
      simp only [decode?, value?_symbol (n := v / 262144) (by omega),
        value?_symbol (n := v / 4096 % 64) (by omega), value?_symbol (n := v / 64 % 64) (by omega),
        value?_symbol (n := v % 64) (by omega), ih, Option.bind_eq_bind, Option.bind_some,
        Option.pure_def]
      rw [ofNat_of_eq_toNat a (by omega), ofNat_of_eq_toNat b (by omega),
        ofNat_of_eq_toNat c (by omega)]

/-- **A text that is read is the one that is written** for its bytes. -/
theorem encode_of_decode? {text b : Bytes} (h : decode? text = some b) : encode b = text := by
  have hbyte {m : Nat} (hm : m < 256) : (UInt8.ofNat m).toNat = m := by
    rw [UInt8.toNat_ofNat', Nat.mod_eq_of_lt hm]
  have hsymbol {x : UInt8} {i m : Nat} (hi : symbol i = x) (hm : m = i) : symbol m = x := by
    rw [hm, hi]
  fun_induction decode? text generalizing b with
  | case1 => cases h; rfl
  | case2 => cases h
  | case3 w x =>
      simp only [Option.bind_eq_bind, Option.bind_eq_some_iff] at h
      obtain ⟨i, hw, j, hx, h⟩ := h
      obtain ⟨hi, hw⟩ := symbol_of_value? hw
      obtain ⟨hj, hx⟩ := symbol_of_value? hx
      obtain ⟨hlow, h⟩ := Option.ite_none_right_eq_some.mp h
      obtain rfl := Option.some.inj h
      simp only [encode, hbyte (m := (i * 64 + j) / 16) (by omega)]
      rw [hsymbol hw (by omega), hsymbol hx (by omega)]
  | case4 w x y =>
      simp only [Option.bind_eq_bind, Option.bind_eq_some_iff] at h
      obtain ⟨i, hw, j, hx, k, hy, h⟩ := h
      obtain ⟨hi, hw⟩ := symbol_of_value? hw
      obtain ⟨hj, hx⟩ := symbol_of_value? hx
      obtain ⟨hk, hy⟩ := symbol_of_value? hy
      obtain ⟨hlow, h⟩ := Option.ite_none_right_eq_some.mp h
      obtain rfl := Option.some.inj h
      simp only [encode, hbyte (m := ((i * 64 + j) * 64 + k) / 1024) (by omega),
        hbyte (m := ((i * 64 + j) * 64 + k) / 4 % 256) (by omega)]
      rw [hsymbol hw (by omega), hsymbol hx (by omega), hsymbol hy (by omega)]
  | case5 w x y z rest ih =>
      simp only [Option.bind_eq_bind, Option.bind_eq_some_iff] at h
      obtain ⟨i, hw, j, hx, k, hy, l, hz, bytes, hrest, h⟩ := h
      obtain ⟨hi, hw⟩ := symbol_of_value? hw
      obtain ⟨hj, hx⟩ := symbol_of_value? hx
      obtain ⟨hk, hy⟩ := symbol_of_value? hy
      obtain ⟨hl, hz⟩ := symbol_of_value? hz
      obtain rfl := Option.some.inj h
      simp only [encode, ih hrest,
        hbyte (m := (((i * 64 + j) * 64 + k) * 64 + l) / 65536) (by omega),
        hbyte (m := (((i * 64 + j) * 64 + k) * 64 + l) / 256 % 256) (by omega),
        hbyte (m := (((i * 64 + j) * 64 + k) * 64 + l) % 256) (by omega)]
      rw [hsymbol hw (by omega), hsymbol hx (by omega), hsymbol hy (by omega),
        hsymbol hz (by omega)]

/-- Bytes are read from the text that is written for them, and from no other. -/
theorem decode?_eq_some_iff {text b : Bytes} : decode? text = some b ↔ text = encode b := by
  constructor
  · exact fun h => (encode_of_decode? h).symm
  · rintro rfl
    exact decode?_encode b

/-- Bytes of a fixed size are read from one text only. -/
theorem octets_eq_some_iff {n : Nat} {text : Bytes} {a : Octets n} :
    (decode? text).bind (Octets.ofBytes? n) = some a ↔ text = encode a.toBytes := by
  simp only [Option.bind_eq_some_iff, decode?_eq_some_iff, Octets.ofBytes?_eq_some_iff]
  constructor
  · rintro ⟨b, rfl, rfl⟩
    rfl
  · rintro rfl
    exact ⟨_, rfl, rfl⟩

/-- Three bytes take four symbols, and one or two that are left over take one more than they are. -/
theorem length_encode (b : Bytes) : (encode b).length = (4 * b.length + 2) / 3 := by
  fun_induction encode b with
  | case1 => rfl
  | case2 => simp
  | case3 => simp
  | case4 a b c rest v ih =>
      simp only [List.length_cons, ih]
      omega

/-- A text is written in symbols. -/
theorem exists_symbol_of_mem_encode {b : Bytes} {x : UInt8} (h : x ∈ encode b) :
    ∃ n < 64, x = symbol n := by
  fun_induction encode b with
  | case1 => cases h
  | case2 a v =>
      have ha := a.toNat_lt
      simp only [List.mem_cons, List.not_mem_nil, or_false] at h
      rcases h with rfl | rfl <;> exact ⟨_, by omega, rfl⟩
  | case3 a b v =>
      have ha := a.toNat_lt
      have hb := b.toNat_lt
      simp only [List.mem_cons, List.not_mem_nil, or_false] at h
      rcases h with rfl | rfl | rfl <;> exact ⟨_, by omega, rfl⟩
  | case4 a b c rest v ih =>
      have ha := a.toNat_lt
      have hb := b.toNat_lt
      have hc := c.toNat_lt
      simp only [List.mem_cons] at h
      rcases h with rfl | rfl | rfl | rfl | h
      · exact ⟨_, by omega, rfl⟩
      · exact ⟨_, by omega, rfl⟩
      · exact ⟨_, by omega, rfl⟩
      · exact ⟨_, by omega, rfl⟩
      · exact ih h

end SmartLock.Base64
