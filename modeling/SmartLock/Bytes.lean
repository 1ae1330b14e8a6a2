/-
# Byte strings

Byte strings of any length (`Bytes`) and of a fixed length (`Octets n`), words in
little-endian order, big-endian numbers, exclusive or and cutting into pieces.

The two facts used everywhere else: `Octets.toBytes_ofBytes` says that cutting a byte
string to its own length changes nothing, and `ofLittleEndian_littleEndian` says that a
number is read back from its little-endian bytes.
-/

namespace SmartLock

/-! ## Byte strings of any length -/

/-- A byte string, first byte first. -/
abbrev Bytes : Type := List UInt8

/-- The bytewise exclusive or of two byte strings, as long as the shorter one. -/
def Bytes.xor (a b : Bytes) : Bytes := List.zipWith (· ^^^ ·) a b

/-- The exclusive or is as long as the shorter operand. -/
theorem Bytes.length_xor (a b : Bytes) : (a.xor b).length = min a.length b.length := by
  simp [Bytes.xor]

/-- The exclusive or with one long enough string, taken twice, changes nothing. -/
theorem Bytes.xor_xor_of_length_le (a b : Bytes) (h : a.length ≤ b.length) :
    (a.xor b).xor b = a := by
  induction a generalizing b with
  | nil => simp [Bytes.xor]
  | cons x a ih =>
      cases b with
      | nil => simp at h
      | cons y b =>
          change (x ^^^ y ^^^ y) :: (Bytes.xor a b).xor b = x :: a
          rw [UInt8.xor_assoc, UInt8.xor_self, UInt8.xor_zero, ih b (Nat.le_of_succ_le_succ h)]

/-! ## Cutting into pieces -/

/-- At most `fuel` pieces of `size` bytes, the last one possibly shorter. -/
def piecesWithin (size : Nat) : Nat → Bytes → List Bytes
  | 0, _ => []
  | fuel + 1, b => if b.isEmpty then [] else b.take size :: piecesWithin size fuel (b.drop size)

/-- The pieces of `size` bytes of a byte string, in order; the last one may be shorter. -/
def Bytes.pieces (size : Nat) (b : Bytes) : List Bytes := piecesWithin size b.length b

/-- Pieces of a positive size concatenate to the whole. -/
theorem flatten_piecesWithin {size : Nat} (hsize : 0 < size) (fuel : Nat) (b : Bytes)
    (h : b.length ≤ fuel) : (piecesWithin size fuel b).flatten = b := by
  induction fuel generalizing b with
  | zero => cases b <;> simp_all [piecesWithin]
  | succ fuel ih =>
      cases b with
      | nil => simp [piecesWithin]
      | cons x b =>
          have hlen : ((x :: b).drop size).length ≤ fuel := by
            simp only [List.length_drop, List.length_cons] at h ⊢
            omega
          simp [piecesWithin, ih _ hlen]

/-- Cutting loses nothing. -/
theorem Bytes.flatten_pieces {size : Nat} (hsize : 0 < size) (b : Bytes) :
    (b.pieces size).flatten = b :=
  flatten_piecesWithin hsize b.length b (Nat.le_refl _)

/-- Fuel beyond the length makes no difference. -/
theorem piecesWithin_congr {size : Nat} (hsize : 0 < size) {m n : Nat} {b : Bytes}
    (hm : b.length ≤ m) (hn : b.length ≤ n) : piecesWithin size m b = piecesWithin size n b := by
  induction m generalizing n b with
  | zero =>
      obtain rfl := List.eq_nil_of_length_eq_zero (Nat.le_zero.mp hm)
      cases n <;> rfl
  | succ m ih =>
      cases n with
      | zero =>
          obtain rfl := List.eq_nil_of_length_eq_zero (Nat.le_zero.mp hn)
          rfl
      | succ n =>
          rw [piecesWithin, piecesWithin]
          split
          · rfl
          · have hdrop : (b.drop size).length ≤ b.length - 1 := by
              rw [List.length_drop]
              omega
            rw [ih (n := n) (by omega) (by omega)]

/-- Nothing is cut into no pieces. -/
@[simp] theorem Bytes.pieces_nil (size : Nat) : Bytes.pieces size [] = [] := rfl

/-- Cutting off the first piece. -/
theorem Bytes.pieces_of_ne_nil {size : Nat} (hsize : 0 < size) {b : Bytes} (hb : b ≠ []) :
    b.pieces size = b.take size :: Bytes.pieces size (b.drop size) := by
  cases b with
  | nil => exact absurd rfl hb
  | cons x b =>
      have hdrop : ((x :: b).drop size).length ≤ b.length := by
        rw [List.length_drop, List.length_cons]
        omega
      rw [Bytes.pieces, List.length_cons, piecesWithin, if_neg (by simp), Bytes.pieces,
        piecesWithin_congr hsize hdrop (Nat.le_refl _)]

/-- A first part of the size of a piece is the first piece. -/
theorem Bytes.pieces_append {size : Nat} (hsize : 0 < size) {b : Bytes} (hb : b.length = size)
    (rest : Bytes) : Bytes.pieces size (b ++ rest) = b :: Bytes.pieces size rest := by
  have hne : b ++ rest ≠ [] := by
    intro hnil
    rw [(List.append_eq_nil_iff.mp hnil).1] at hb
    exact absurd hb (Nat.ne_of_lt hsize)
  rw [Bytes.pieces_of_ne_nil hsize hne, List.take_left' hb, List.drop_left' hb]

/-- What is shorter than a piece is at most one piece. -/
theorem Bytes.length_lt_of_mem_pieces {size : Nat} {b piece : Bytes} (hb : b.length < size)
    (h : piece ∈ b.pieces size) : piece.length < size := by
  cases b with
  | nil => cases h
  | cons x b =>
      have hrest : (x :: b).drop size = [] := List.drop_eq_nil_of_le (Nat.le_of_lt hb)
      rw [Bytes.pieces_of_ne_nil (by omega) (by simp), hrest, Bytes.pieces_nil,
        List.mem_singleton, List.take_of_length_le (Nat.le_of_lt hb)] at h
      exact h ▸ hb

/-! ## Byte strings of a fixed length -/

/-- A byte string of exactly `n` bytes. -/
structure Octets (n : Nat) where
  toBytes : Bytes
  length_toBytes : toBytes.length = n
  deriving DecidableEq, Repr

namespace Octets

variable {n : Nat}

/-- The first `n` bytes of a byte string; a shorter one is filled up with zeros. -/
def ofBytes (n : Nat) (b : Bytes) : Octets n where
  toBytes := (b ++ List.replicate (n - b.length) 0).take n
  length_toBytes := by
    simp only [List.length_take, List.length_append, List.length_replicate]
    omega

/-- A byte string of exactly `n` bytes as such, and nothing for any other length. -/
def ofBytes? (n : Nat) (b : Bytes) : Option (Octets n) :=
  if h : b.length = n then some ⟨b, h⟩ else none

/-- The `n` zero bytes. -/
def zero (n : Nat) : Octets n := ⟨List.replicate n 0, by simp⟩

/-- One byte string of fixed length after another. -/
def append {m : Nat} (a : Octets n) (b : Octets m) : Octets (n + m) :=
  ⟨a.toBytes ++ b.toBytes, by simp [a.length_toBytes, b.length_toBytes]⟩

instance : Inhabited (Octets n) := ⟨zero n⟩

/-- Two byte strings of one length are equal once their bytes are. -/
@[ext] theorem ext {a b : Octets n} (h : a.toBytes = b.toBytes) : a = b := by
  cases a; cases b; simp_all

/-- A byte string that is long enough is only cut. -/
theorem toBytes_ofBytes_of_le {b : Bytes} (h : n ≤ b.length) :
    (ofBytes n b).toBytes = b.take n := by
  simp [ofBytes, List.take_append_of_le_length h]

/-- A byte string of the right length is taken as it is. -/
theorem toBytes_ofBytes {b : Bytes} (h : b.length = n) : (ofBytes n b).toBytes = b := by
  rw [toBytes_ofBytes_of_le (Nat.le_of_eq h.symm), ← h, List.take_length]

/-- Reading the bytes of `a` gives back `a`. -/
@[simp] theorem ofBytes_toBytes (a : Octets n) : ofBytes n a.toBytes = a :=
  ext (toBytes_ofBytes a.length_toBytes)

/-- Reading `a` followed by anything gives back `a`. -/
theorem ofBytes_append (a : Octets n) (rest : Bytes) : ofBytes n (a.toBytes ++ rest) = a := by
  apply ext
  rw [toBytes_ofBytes_of_le (by simp [a.length_toBytes])]
  simp [List.take_append_of_le_length (Nat.le_of_eq a.length_toBytes.symm),
    List.take_of_length_le (Nat.le_of_eq a.length_toBytes)]

/-- A byte string is taken as such exactly if it has the right length. -/
theorem ofBytes?_eq_some_iff {b : Bytes} {a : Octets n} :
    ofBytes? n b = some a ↔ a.toBytes = b := by
  unfold ofBytes?
  split
  · rw [Option.some.injEq, Octets.ext_iff, eq_comm]
  · rename_i hlength
    refine iff_of_false (by simp) ?_
    rintro rfl
    exact hlength a.length_toBytes

end Octets

/-! ## Little-endian words -/

/-- The `n` low bytes of a number, lowest first. -/
def littleEndian : Nat → Nat → Bytes
  | 0, _ => []
  | n + 1, v => UInt8.ofNat v :: littleEndian n (v / 256)

/-- The number that a byte string means when its first byte is the lowest. -/
def ofLittleEndian : Bytes → Nat
  | [] => 0
  | b :: rest => b.toNat + 256 * ofLittleEndian rest

/-- `n` bytes are written. -/
@[simp] theorem length_littleEndian (n v : Nat) : (littleEndian n v).length = n := by
  induction n generalizing v with
  | zero => rfl
  | succ n ih => simp [littleEndian, ih]

/-- What is read back is the number modulo the size of the word. -/
theorem ofLittleEndian_littleEndian (n v : Nat) :
    ofLittleEndian (littleEndian n v) = v % Nat.pow 256 n := by
  induction n generalizing v with
  | zero => simp [littleEndian, ofLittleEndian, Nat.mod_one]
  | succ n ih =>
      have byte : (UInt8.ofNat v).toNat = v % 256 := by simp
      have size : Nat.pow 256 (n + 1) = 256 * Nat.pow 256 n := Nat.mul_comm _ _
      rw [littleEndian, ofLittleEndian, ih, byte, size, Nat.mod_mul]

/-- The number that some bytes mean is written with the same bytes. -/
theorem littleEndian_ofLittleEndian (b : Bytes) : littleEndian b.length (ofLittleEndian b) = b := by
  induction b with
  | nil => rfl
  | cons x rest ih =>
      have hbyte := x.toNat_lt
      have hlow : UInt8.ofNat (x.toNat + 256 * ofLittleEndian rest) = x := by
        apply UInt8.toNat_inj.mp
        rw [UInt8.toNat_ofNat']
        omega
      have hhigh : (x.toNat + 256 * ofLittleEndian rest) / 256 = ofLittleEndian rest := by omega
      rw [List.length_cons, ofLittleEndian, littleEndian, hlow, hhigh, ih]

/-- The unsigned 16-bit word at the start of a byte string. -/
def readUInt16 (b : Bytes) : UInt16 := UInt16.ofNat (ofLittleEndian (b.take 2))

/-- The signed 16-bit word at the start of a byte string. -/
def readInt16 (b : Bytes) : Int16 := (readUInt16 b).toInt16

/-- The unsigned 32-bit word at the start of a byte string. -/
def readUInt32 (b : Bytes) : UInt32 := UInt32.ofNat (ofLittleEndian (b.take 4))

/-- The signed 32-bit word at the start of a byte string. -/
def readInt32 (b : Bytes) : Int32 := (readUInt32 b).toInt32

/-- The signed 64-bit word at the start of a byte string. -/
def readInt64 (b : Bytes) : Int64 := (UInt64.ofNat (ofLittleEndian (b.take 8))).toInt64

/-- The two bytes of a signed 16-bit word. -/
def writeInt16 (v : Int16) : Bytes := littleEndian 2 v.toUInt16.toNat

/-- The four bytes of an unsigned 32-bit word. -/
def writeUInt32 (v : UInt32) : Bytes := littleEndian 4 v.toNat

/-- A signed 16-bit word takes two bytes. -/
@[simp] theorem length_writeInt16 (v : Int16) : (writeInt16 v).length = 2 :=
  length_littleEndian _ _

/-- An unsigned 32-bit word takes four bytes. -/
@[simp] theorem length_writeUInt32 (v : UInt32) : (writeUInt32 v).length = 4 :=
  length_littleEndian _ _

/-! ## Big-endian numbers -/

/-- The `n` low bytes of a number, highest first. -/
def bigEndian (n v : Nat) : Bytes := (littleEndian n v).reverse

/-- The number that a byte string means when its first byte is the highest. -/
def ofBigEndian (b : Bytes) : Nat := b.foldl (fun acc x => 256 * acc + x.toNat) 0

/-- `n` bytes are written. -/
@[simp] theorem length_bigEndian (n v : Nat) : (bigEndian n v).length = n := by
  simp [bigEndian]

/-- Highest byte first is lowest byte first, read from the back. -/
theorem ofBigEndian_reverse (b : Bytes) : ofBigEndian b.reverse = ofLittleEndian b := by
  rw [ofBigEndian, List.foldl_reverse]
  induction b with
  | nil => rfl
  | cons x rest ih => rw [List.foldr_cons, ofLittleEndian, ih, Nat.add_comm]

/-- What is read back is the number modulo the size of the word. -/
theorem ofBigEndian_bigEndian (n v : Nat) : ofBigEndian (bigEndian n v) = v % Nat.pow 256 n := by
  rw [bigEndian, ofBigEndian_reverse, ofLittleEndian_littleEndian]

/-- The number that some bytes mean is written with the same bytes. -/
theorem bigEndian_ofBigEndian (b : Bytes) : bigEndian b.length (ofBigEndian b) = b := by
  have hread : ofBigEndian b = ofLittleEndian b.reverse := by
    rw [← ofBigEndian_reverse, List.reverse_reverse]
  rw [bigEndian, hread, ← List.length_reverse, littleEndian_ofLittleEndian, List.reverse_reverse]

end SmartLock
