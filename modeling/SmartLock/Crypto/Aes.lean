/-
# AES-128

Encryption of one block of sixteen bytes.  A block is four columns of four bytes; a round
substitutes the bytes, rotates the rows, mixes the columns and adds a round key.
-/
import SmartLock.Bytes

namespace SmartLock.Aes

/-! ## Columns and blocks -/

/-- One column: four bytes, top to bottom. -/
structure Column where
  a : UInt8
  b : UInt8
  c : UInt8
  d : UInt8
  deriving DecidableEq, Repr, Inhabited

/-- One block: four columns, left to right. -/
structure Block where
  p : Column
  q : Column
  r : Column
  s : Column
  deriving DecidableEq, Repr, Inhabited

/-- The bytewise exclusive or of two columns. -/
def Column.xor (x y : Column) : Column := ⟨x.a ^^^ y.a, x.b ^^^ y.b, x.c ^^^ y.c, x.d ^^^ y.d⟩

/-- The bytewise exclusive or of two blocks. -/
def Block.xor (x y : Block) : Block := ⟨x.p.xor y.p, x.q.xor y.q, x.r.xor y.r, x.s.xor y.s⟩

/-- The first column of a byte string, filled up with zeros. -/
def Column.ofBytes : Bytes → Column
  | a :: b :: c :: d :: _ => ⟨a, b, c, d⟩
  | [a, b, c] => ⟨a, b, c, 0⟩
  | [a, b] => ⟨a, b, 0, 0⟩
  | [a] => ⟨a, 0, 0, 0⟩
  | [] => ⟨0, 0, 0, 0⟩

/-- The first block of a byte string, filled up with zeros. -/
def Block.ofBytes (x : Bytes) : Block :=
  ⟨Column.ofBytes x, Column.ofBytes (x.drop 4), Column.ofBytes (x.drop 8),
    Column.ofBytes (x.drop 12)⟩

/-- The four bytes of a column. -/
def Column.toBytes (x : Column) : Bytes := [x.a, x.b, x.c, x.d]

/-- The sixteen bytes of a block. -/
def Block.toBytes (x : Block) : Bytes := x.p.toBytes ++ x.q.toBytes ++ x.r.toBytes ++ x.s.toBytes

/-- A block has sixteen bytes. -/
@[simp] theorem Block.length_toBytes (x : Block) : x.toBytes.length = 16 := rfl

/-- A block as a byte string of fixed length. -/
def Block.toOctets (x : Block) : Octets 16 := ⟨x.toBytes, x.length_toBytes⟩

/-! ## The steps of a round -/

/-- The substitution of bytes: inversion in the field of 256 elements and an affine map. -/
def substitution : Array UInt8 := #[
  0x63, 0x7C, 0x77, 0x7B, 0xF2, 0x6B, 0x6F, 0xC5, 0x30, 0x01, 0x67, 0x2B, 0xFE, 0xD7, 0xAB, 0x76,
  0xCA, 0x82, 0xC9, 0x7D, 0xFA, 0x59, 0x47, 0xF0, 0xAD, 0xD4, 0xA2, 0xAF, 0x9C, 0xA4, 0x72, 0xC0,
  0xB7, 0xFD, 0x93, 0x26, 0x36, 0x3F, 0xF7, 0xCC, 0x34, 0xA5, 0xE5, 0xF1, 0x71, 0xD8, 0x31, 0x15,
  0x04, 0xC7, 0x23, 0xC3, 0x18, 0x96, 0x05, 0x9A, 0x07, 0x12, 0x80, 0xE2, 0xEB, 0x27, 0xB2, 0x75,
  0x09, 0x83, 0x2C, 0x1A, 0x1B, 0x6E, 0x5A, 0xA0, 0x52, 0x3B, 0xD6, 0xB3, 0x29, 0xE3, 0x2F, 0x84,
  0x53, 0xD1, 0x00, 0xED, 0x20, 0xFC, 0xB1, 0x5B, 0x6A, 0xCB, 0xBE, 0x39, 0x4A, 0x4C, 0x58, 0xCF,
  0xD0, 0xEF, 0xAA, 0xFB, 0x43, 0x4D, 0x33, 0x85, 0x45, 0xF9, 0x02, 0x7F, 0x50, 0x3C, 0x9F, 0xA8,
  0x51, 0xA3, 0x40, 0x8F, 0x92, 0x9D, 0x38, 0xF5, 0xBC, 0xB6, 0xDA, 0x21, 0x10, 0xFF, 0xF3, 0xD2,
  0xCD, 0x0C, 0x13, 0xEC, 0x5F, 0x97, 0x44, 0x17, 0xC4, 0xA7, 0x7E, 0x3D, 0x64, 0x5D, 0x19, 0x73,
  0x60, 0x81, 0x4F, 0xDC, 0x22, 0x2A, 0x90, 0x88, 0x46, 0xEE, 0xB8, 0x14, 0xDE, 0x5E, 0x0B, 0xDB,
  0xE0, 0x32, 0x3A, 0x0A, 0x49, 0x06, 0x24, 0x5C, 0xC2, 0xD3, 0xAC, 0x62, 0x91, 0x95, 0xE4, 0x79,
  0xE7, 0xC8, 0x37, 0x6D, 0x8D, 0xD5, 0x4E, 0xA9, 0x6C, 0x56, 0xF4, 0xEA, 0x65, 0x7A, 0xAE, 0x08,
  0xBA, 0x78, 0x25, 0x2E, 0x1C, 0xA6, 0xB4, 0xC6, 0xE8, 0xDD, 0x74, 0x1F, 0x4B, 0xBD, 0x8B, 0x8A,
  0x70, 0x3E, 0xB5, 0x66, 0x48, 0x03, 0xF6, 0x0E, 0x61, 0x35, 0x57, 0xB9, 0x86, 0xC1, 0x1D, 0x9E,
  0xE1, 0xF8, 0x98, 0x11, 0x69, 0xD9, 0x8E, 0x94, 0x9B, 0x1E, 0x87, 0xE9, 0xCE, 0x55, 0x28, 0xDF,
  0x8C, 0xA1, 0x89, 0x0D, 0xBF, 0xE6, 0x42, 0x68, 0x41, 0x99, 0x2D, 0x0F, 0xB0, 0x54, 0xBB, 0x16]

/-- One byte substituted. -/
def substitute (x : UInt8) : UInt8 := substitution.getD x.toNat 0

/-- One column substituted. -/
def Column.substitute (x : Column) : Column :=
  ⟨Aes.substitute x.a, Aes.substitute x.b, Aes.substitute x.c, Aes.substitute x.d⟩

/-- A whole block substituted. -/
def Block.substitute (x : Block) : Block :=
  ⟨x.p.substitute, x.q.substitute, x.r.substitute, x.s.substitute⟩

/-- The row with number `i` is rotated by `i` columns to the left. -/
def Block.shiftRows (x : Block) : Block :=
  ⟨⟨x.p.a, x.q.b, x.r.c, x.s.d⟩, ⟨x.q.a, x.r.b, x.s.c, x.p.d⟩, ⟨x.r.a, x.s.b, x.p.c, x.q.d⟩,
    ⟨x.s.a, x.p.b, x.q.c, x.r.d⟩⟩

/-- Twice a byte in the field of 256 elements. -/
def double (x : UInt8) : UInt8 := if x < 0x80 then x <<< 1 else (x <<< 1) ^^^ 0x1B

/-- One column times the circulant matrix of 2, 3, 1, 1. -/
def Column.mix (x : Column) : Column :=
  let whole := x.a ^^^ x.b ^^^ x.c ^^^ x.d
  ⟨x.a ^^^ whole ^^^ double (x.a ^^^ x.b), x.b ^^^ whole ^^^ double (x.b ^^^ x.c),
    x.c ^^^ whole ^^^ double (x.c ^^^ x.d), x.d ^^^ whole ^^^ double (x.d ^^^ x.a)⟩

/-- All columns mixed. -/
def Block.mixColumns (x : Block) : Block := ⟨x.p.mix, x.q.mix, x.r.mix, x.s.mix⟩

/-! ## The key schedule -/

/-- The round key after `k`, with the constant of its round. -/
def nextKey (k : Block) (constant : UInt8) : Block :=
  let t := (Column.substitute ⟨k.s.b, k.s.c, k.s.d, k.s.a⟩).xor ⟨constant, 0, 0, 0⟩
  let p := k.p.xor t
  let q := k.q.xor p
  let r := k.r.xor q
  ⟨p, q, r, k.s.xor r⟩

/-- The constants of the first nine rounds. -/
def innerConstants : List UInt8 := [0x01, 0x02, 0x04, 0x08, 0x10, 0x20, 0x40, 0x80, 0x1B]

/-- The constant of the last round. -/
def lastConstant : UInt8 := 0x36

/-! ## Encryption -/

/-- The block and the round key after one of the first nine rounds. -/
def innerRound (state : Block × Block) (constant : UInt8) : Block × Block :=
  let key := nextKey state.2 constant
  (state.1.substitute.shiftRows.mixColumns.xor key, key)

/-- A block encrypted under a key. -/
def encrypt (key x : Block) : Block :=
  let state := innerConstants.foldl innerRound (x.xor key, key)
  state.1.substitute.shiftRows.xor (nextKey state.2 lastConstant)

end SmartLock.Aes
