/-
# Partial access to bytes

Reading, cutting and copying where the place may not be there: an index beyond the last byte, a
range that does not lie in the byte string, or a copy between two sizes gives nothing.

Every one of them has a law that says what it gives where its place is there.  The later modules
build each step of the two parties from these accesses, and show that the step gives something.
-/
import SmartLock.Bytes

namespace SmartLock

/-! ## Reading -/

namespace Bytes

/-- The bytes from one place on and before another. -/
def slice? (b : Bytes) (start stop : Nat) : Option Bytes :=
  if start ≤ stop ∧ stop ≤ b.length then some ((b.take stop).drop start) else none

/-- The bytes before a place. -/
def front? (b : Bytes) (stop : Nat) : Option Bytes := b.slice? 0 stop

/-- The bytes from a place on. -/
def rest? (b : Bytes) (start : Nat) : Option Bytes := b.slice? start b.length

/-- The bytes at `n` places from a place on, each one read by its index. -/
def each? (b : Bytes) (start : Nat) : Nat → Option Bytes
  | 0 => some []
  | n + 1 => do
      let x ← b[start]?
      return x :: (← each? b (start + 1) n)

variable {b : Bytes} {i start stop n : Nat}

/-- A byte that is there. -/
theorem getElem?_eq_getD (h : i < b.length) : b[i]? = some (b.getD i 0) := by
  rw [List.getD_eq_getElem?_getD, List.getElem?_eq_getElem h, Option.getD_some]

/-- A range that is there. -/
theorem slice?_eq (hstart : start ≤ stop) (hstop : stop ≤ b.length) :
    b.slice? start stop = some ((b.take stop).drop start) :=
  if_pos ⟨hstart, hstop⟩

/-- A front that is there. -/
theorem front?_eq (h : stop ≤ b.length) : b.front? stop = some (b.take stop) :=
  slice?_eq (Nat.zero_le _) h

/-- A range that is not there gives nothing. -/
example : slice? [1, 2, 3] 2 5 = none := rfl

/-- A rest that is there. -/
theorem rest?_eq (h : start ≤ b.length) : b.rest? start = some (b.drop start) := by
  rw [rest?, slice?_eq h (Nat.le_refl _), List.take_length]

/-- A rest that is not there is taken for an empty one. -/
theorem getD_rest? (b : Bytes) (start : Nat) : (b.rest? start).getD [] = b.drop start := by
  by_cases h : start ≤ b.length
  · rw [rest?_eq h, Option.getD_some]
  · rw [rest?, slice?, if_neg (by omega), Option.getD_none, List.drop_eq_nil_of_le (by omega)]

/-- Bytes that are all there. -/
theorem each?_eq (h : start + n ≤ b.length) : b.each? start n = some ((b.drop start).take n) := by
  induction n generalizing start with
  | zero => rw [each?, List.take_zero]
  | succ n ih =>
      have hstart : start < b.length := by omega
      rw [each?, List.getElem?_eq_getElem hstart, ih (by omega), List.drop_eq_getElem_cons hstart,
        List.take_succ_cons]
      rfl

end Bytes

section Words

variable (b : Bytes)

/-- An unsigned word of two bytes is read from two bytes. -/
@[simp] theorem readUInt16_take : readUInt16 (b.take 2) = readUInt16 b := by
  rw [readUInt16, List.take_take, Nat.min_self, readUInt16]

/-- A signed word of two bytes is read from two bytes. -/
@[simp] theorem readInt16_take : readInt16 (b.take 2) = readInt16 b := by
  rw [readInt16, readUInt16_take, readInt16]

/-- An unsigned word of four bytes is read from four bytes. -/
@[simp] theorem readUInt32_take : readUInt32 (b.take 4) = readUInt32 b := by
  rw [readUInt32, List.take_take, Nat.min_self, readUInt32]

/-- A signed word of four bytes is read from four bytes. -/
@[simp] theorem readInt32_take : readInt32 (b.take 4) = readInt32 b := by
  rw [readInt32, readUInt32_take, readInt32]

/-- A signed word of eight bytes is read from eight bytes. -/
@[simp] theorem readInt64_take : readInt64 (b.take 8) = readInt64 b := by
  rw [readInt64, List.take_take, Nat.min_self, readInt64]

end Words

/-- The low bytes of a word are the first ones. -/
theorem take_littleEndian {m n : Nat} (h : m ≤ n) (v : Nat) :
    (littleEndian n v).take m = littleEndian m v := by
  induction m generalizing n v with
  | zero => rfl
  | succ m ih =>
      cases n with
      | zero => omega
      | succ n => rw [littleEndian, List.take_succ_cons, ih (by omega), littleEndian]

/-! ## Arrays -/

namespace Octets

variable {n : Nat}

/-- The array with another byte at a place. -/
def set? (a : Octets n) (i : Nat) (x : UInt8) : Option (Octets n) :=
  if i < n then some ⟨a.toBytes.set i x, by simp [a.length_toBytes]⟩ else none

/-- The array with other bytes from one place on and before another; they must be as many as they
replace. -/
def copy? (a : Octets n) (start stop : Nat) (source : Bytes) : Option (Octets n) :=
  if h : start ≤ stop ∧ stop ≤ n ∧ source.length = stop - start then
    some ⟨a.toBytes.take start ++ source ++ a.toBytes.drop stop, by simp [a.length_toBytes]; omega⟩
  else none

/-- An array of zeros with other bytes in the place of all. -/
def copyOf? (n : Nat) (source : Bytes) : Option (Octets n) := (zero n).copy? 0 n source

variable {a c : Octets n} {i start stop : Nat} {source : Bytes}

/-- The bytes of an array make it up. -/
@[simp] theorem ofBytes?_toBytes (a : Octets n) : ofBytes? n a.toBytes = some a :=
  ofBytes?_eq_some_iff.mpr rfl

/-- As many bytes as it takes make up an array. -/
theorem ofBytes?_eq (h : source.length = n) : ofBytes? n source = some (ofBytes n source) :=
  ofBytes?_eq_some_iff.mpr (toBytes_ofBytes h)

/-- A place of an array gets a byte. -/
theorem set?_eq (h : i < n) (x : UInt8) (hc : c.toBytes = a.toBytes.set i x) :
    a.set? i x = some c := by
  rw [set?, if_pos h]
  exact congrArg some (ext hc.symm)

/-- A range of an array gets as many bytes. -/
theorem copy?_eq (hstart : start ≤ stop) (hstop : stop ≤ n) (hsource : source.length = stop - start)
    (hc : c.toBytes = a.toBytes.take start ++ source ++ a.toBytes.drop stop) :
    a.copy? start stop source = some c := by
  rw [copy?, dif_pos ⟨hstart, hstop, hsource⟩]
  exact congrArg some (ext hc.symm)

/-- The bytes that an array is filled with, and zeros behind them. -/
theorem toBytes_ofBytes_of_length_le (h : source.length ≤ n) :
    (ofBytes n source).toBytes = source ++ List.replicate (n - source.length) 0 :=
  List.take_of_length_le (by simp; omega)

/-- Zeros fill an array of zeros. -/
theorem ofBytes_replicate {k : Nat} (h : k ≤ n) : ofBytes n (List.replicate k 0) = zero n := by
  apply ext
  rw [toBytes_ofBytes_of_length_le (by simpa using h), List.length_replicate,
    List.replicate_append_replicate, Nat.add_sub_cancel' h, zero]

/-- An array that is filled with nothing is all zeros. -/
theorem ofBytes_nil : ofBytes n [] = zero n := ofBytes_replicate (Nat.zero_le n)

/-- A byte goes behind those that an array is filled with. -/
theorem set?_ofBytes (hi : source.length = i) (h : i < n) (x : UInt8) :
    (ofBytes n source).set? i x = some (ofBytes n (source ++ [x])) := by
  refine set?_eq h x ?_
  obtain ⟨k, hk⟩ := Nat.exists_eq_add_of_lt h
  have hzeros : n - i = k + 1 := by omega
  rw [toBytes_ofBytes_of_length_le (by simp; omega), toBytes_ofBytes_of_length_le (by omega), hi,
    hzeros, List.replicate_succ, List.set_append_right _ _ (Nat.le_of_eq hi), hi, Nat.sub_self]
  simp [hi, Nat.sub_eq_of_eq_add (show n = k + (i + 1) by omega)]

/-- Bytes go behind those that an array is filled with. -/
theorem copy?_ofBytes {more : Bytes} (hstart : source.length = start)
    (hmore : start + more.length = stop) (h : stop ≤ n) :
    (ofBytes n source).copy? start stop more = some (ofBytes n (source ++ more)) := by
  refine copy?_eq (by omega) h (by omega) ?_
  have hzeros : n - start - more.length = n - stop := by omega
  have hdrop : stop - start = more.length := by omega
  rw [toBytes_ofBytes_of_length_le (by simp; omega), toBytes_ofBytes_of_length_le (by omega),
    hstart, List.take_left' hstart, List.drop_append, hstart, List.drop_eq_nil_of_le (by omega),
    List.nil_append, List.drop_replicate, List.length_append, hstart, hdrop, hzeros, hmore]

/-- A whole array gets as many bytes. -/
theorem copyOf?_eq (h : source.length = n) : copyOf? n source = some (ofBytes n source) := by
  rw [copyOf?, ← ofBytes_nil]
  exact copy?_ofBytes rfl (by omega) (Nat.le_refl n)

/-- The first bytes of a longer string make up the array that is read from it. -/
theorem ofBytes_take (h : n ≤ source.length) : ofBytes n (source.take n) = ofBytes n source := by
  apply ext
  rw [toBytes_ofBytes (by rw [List.length_take, Nat.min_eq_left h]), toBytes_ofBytes_of_le h]

end Octets

end SmartLock
