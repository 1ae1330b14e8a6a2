/-
# The random source

A deterministic source of random bytes: the key stream of ChaCha with twelve rounds, read in
words of 32 bits.  Its key is drawn from a 64-bit seed by a congruential generator.
-/
import SmartLock.Bytes

namespace SmartLock

namespace ChaCha

/-! ## Rows of words -/

/-- One row of the state: four words. -/
structure Row where
  a : UInt32
  b : UInt32
  c : UInt32
  d : UInt32
  deriving DecidableEq, Repr, Inhabited

namespace Row

/-- The words of two rows added up. -/
def add (x y : Row) : Row := ⟨x.a + y.a, x.b + y.b, x.c + y.c, x.d + y.d⟩

/-- The exclusive or of the words of two rows. -/
def xor (x y : Row) : Row := ⟨x.a ^^^ y.a, x.b ^^^ y.b, x.c ^^^ y.c, x.d ^^^ y.d⟩

/-- A word rotated to the left. -/
def rotateWord (n x : UInt32) : UInt32 := (x <<< n) ||| (x >>> (32 - n))

/-- All words of a row rotated to the left. -/
def rotate (n : UInt32) (x : Row) : Row :=
  ⟨rotateWord n x.a, rotateWord n x.b, rotateWord n x.c, rotateWord n x.d⟩

/-- The words of a row moved one place to the left. -/
def shift (x : Row) : Row := ⟨x.b, x.c, x.d, x.a⟩

/-- The words of a row. -/
def words (x : Row) : List UInt32 := [x.a, x.b, x.c, x.d]

end Row

/-! ## Blocks of the key stream -/

/-- The state: constants, two rows of key, counters. -/
structure State where
  p : Row
  q : Row
  r : Row
  s : Row
  deriving DecidableEq, Repr, Inhabited

/-- The four quarter rounds of the columns at once. -/
def columnRound (x : State) : State :=
  let p := x.p.add x.q
  let s := (x.s.xor p).rotate 16
  let r := x.r.add s
  let q := (x.q.xor r).rotate 12
  let p := p.add q
  let s := (s.xor p).rotate 8
  let r := r.add s
  let q := (q.xor r).rotate 7
  ⟨p, q, r, s⟩

/-- A round over the columns and one over the diagonals. -/
def doubleRound (x : State) : State :=
  let y := columnRound x
  let z := columnRound ⟨y.p, y.q.shift, y.r.shift.shift, y.s.shift.shift.shift⟩
  ⟨z.p, z.q.shift.shift.shift, z.r.shift.shift, z.s.shift⟩

/-- The first row: the text "expand 32-byte k". -/
def constants : Row := ⟨0x61707865, 0x3320646E, 0x79622D32, 0x6B206574⟩

/-- The block of the key stream with a given number: six double rounds, then the start added. -/
def block (key : Row × Row) (number : Nat) : List UInt32 :=
  let start : State :=
    ⟨constants, key.1, key.2, ⟨UInt32.ofNat number, UInt32.ofNat (number / 0x100000000), 0, 0⟩⟩
  let mixed := Nat.repeat doubleRound 6 start
  (mixed.p.add start.p).words ++ (mixed.q.add start.q).words ++ (mixed.r.add start.r).words ++
    (mixed.s.add start.s).words

end ChaCha

/-- A random source: the key of its stream and the number of words already drawn. -/
structure RandomSource where
  key : ChaCha.Row × ChaCha.Row
  drawn : Nat := 0
  deriving DecidableEq, Repr, Inhabited

namespace RandomSource

open ChaCha

/-! ## Seeding -/

/-- The next state of the generator that expands a seed. -/
def seedStep (state : UInt64) : UInt64 := state * 6364136223846793005 + 11634580027462260723

/-- The word that a state of the generator yields: its bits are mixed and rotated by an amount
that the top bits give. -/
def seedWord (state : UInt64) : UInt32 :=
  let mixed := (((state >>> 18) ^^^ state) >>> 27).toUInt32
  let amount := (state >>> 59).toUInt32
  (mixed >>> amount) ||| (mixed <<< ((32 - amount) % 32))

/-- The next `n` words that expand a seed. -/
def seedWords : Nat → UInt64 → List UInt32
  | 0, _ => []
  | n + 1, state => seedWord (seedStep state) :: seedWords n (seedStep state)

/-- The source that a seed determines. -/
def ofSeed (seed : UInt64) : RandomSource :=
  match seedWords 8 seed with
  | [a, b, c, d, e, f, g, h] => ⟨(⟨a, b, c, d⟩, ⟨e, f, g, h⟩), 0⟩
  | _ => default

/-- The source whose key is given: eight words, each with its lowest byte first. -/
def ofKey (key : Octets 32) : RandomSource :=
  let word (i : Nat) : UInt32 := readUInt32 (key.toBytes.drop (4 * i))
  ⟨(⟨word 0, word 1, word 2, word 3⟩, ⟨word 4, word 5, word 6, word 7⟩), 0⟩

/-! ## Drawing -/

/-- The next `n` words of the stream. -/
def words (source : RandomSource) (n : Nat) : List UInt32 :=
  let first := source.drawn / 16
  let skipped := source.drawn % 16
  let blocks := (List.range ((skipped + n + 15) / 16)).flatMap fun i => block source.key (first + i)
  (blocks.drop skipped).take n

/-- The next `n` bytes and the source after them.  Whole words are drawn; what is left of the
last one is lost. -/
def draw (source : RandomSource) (n : Nat) : Octets n × RandomSource :=
  let count := (n + 3) / 4
  (Octets.ofBytes n ((source.words count).flatMap writeUInt32),
    { source with drawn := source.drawn + count })

/-- A new source whose key is drawn, and the source after that. -/
def split (source : RandomSource) : RandomSource × RandomSource :=
  let (key, source) := source.draw 32
  (ofKey key, source)

end RandomSource

end SmartLock
