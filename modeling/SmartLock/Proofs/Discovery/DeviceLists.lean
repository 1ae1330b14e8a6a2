/-
# Lists of devices, record by record

What one record of a list of devices can hold (`KnownDevice.Slot`): a device of the third
generation, a device of the second, nothing, or bytes that are no identifier.  Every list is made up
of such records and a tail that is too short for one (`KnownDevice.exists_listBytes`), and it is
read as the devices of its records, in their order (`KnownDevice.parseList_slots`): a record that
holds no device does not get in the way of the others.
-/
import Mathlib.Data.List.GetD
import SmartLock.Discovery.DeviceList
import SmartLock.Proofs.Text.Base64

namespace SmartLock.KnownDevice

/-! ## Records -/

/-- A record of a list, by what it holds. -/
inductive Slot where
  /-- The bytes of an identifier, five more bytes, a zero, and a mark that is none. -/
  | os3 (uuid : Uuid) (filler : Octets 5) (mark : UInt8) (hmark : mark ≠ 0)
  /-- The text of an identifier, and a mark. -/
  | os2 (uuid : Uuid) (mark : UInt8) (hmark : mark ≠ 0)
  /-- Any bytes without a mark. -/
  | empty (bytes : Octets 22)
  /-- Bytes that are neither, and a mark. -/
  | corrupt (bytes : Octets 22) (mark : UInt8) (hmark : mark ≠ 0)
      (hlast : bytes.toBytes.getD 21 0 ≠ 0)
      (htext : ∀ uuid : Uuid, Base64.encode uuid.toBytes ≠ bytes.toBytes)

namespace Slot

/-- The bytes of a record before its mark. -/
def content : Slot → Bytes
  | os3 uuid filler _ _ => uuid.toBytes ++ (filler.toBytes ++ [0])
  | os2 uuid _ _ => Base64.encode uuid.toBytes
  | empty bytes => bytes.toBytes
  | corrupt bytes _ _ _ _ => bytes.toBytes

/-- The mark of a record, its last byte. -/
def mark : Slot → UInt8
  | os3 _ _ mark _ => mark
  | os2 _ mark _ => mark
  | empty _ => 0
  | corrupt _ mark _ _ _ => mark

/-- The bytes of a record. -/
def toBytes (slot : Slot) : Bytes := slot.content ++ [slot.mark]

/-- The device of a record, if it holds one. -/
def device? : Slot → Option KnownDevice
  | os3 uuid _ _ _ => some ⟨uuid, .os3⟩
  | os2 uuid _ _ => some ⟨uuid, .os2⟩
  | empty _ => none
  | corrupt _ _ _ _ _ => none

/-- There are twenty-two bytes before the mark. -/
theorem length_content (slot : Slot) : slot.content.length = textSize := by
  cases slot with
  | os3 uuid filler mark hmark =>
      rw [content, List.length_append, List.length_append, uuid.length_toBytes,
        filler.length_toBytes]
      rfl
  | os2 uuid mark hmark =>
      rw [content, Base64.length_encode, uuid.length_toBytes]
      rfl
  | empty bytes => exact bytes.length_toBytes
  | corrupt bytes mark hmark hlast htext => exact bytes.length_toBytes

/-- Every record has the same size. -/
theorem length_toBytes (slot : Slot) : slot.toBytes.length = recordSize := by
  rw [toBytes, List.length_append, length_content]
  rfl

end Slot

/-! ## Reading one record -/

/-- What is read of the bytes before the mark, and of the mark. -/
theorem ofRecord?_append {content : Bytes} (h : content.length = textSize) (mark : UInt8) :
    ofRecord? (content ++ [mark]) =
      if mark = 0 then none
      else if content.getD 21 0 = 0 then some ⟨Octets.ofBytes 16 (content ++ [mark]), .os3⟩
      else ((Base64.decode? content).bind (Octets.ofBytes? 16)).map fun uuid => ⟨uuid, .os2⟩ := by
  have hsize : content.length = 22 := h
  have hmark : (content ++ [mark]).getD 22 0 = mark := by
    rw [List.getD_append_right _ _ _ _ (by omega), hsize]
    rfl
  have hlast : (content ++ [mark]).getD 21 0 = content.getD 21 0 :=
    List.getD_append _ _ _ _ (by omega)
  rw [ofRecord?, hmark, hlast, List.take_left' h, Option.map_eq_bind, Option.bind_assoc]
  rfl

/-- The last symbol of the text of an identifier is not zero. -/
theorem getD_encode_ne_zero (uuid : Uuid) : (Base64.encode uuid.toBytes).getD 21 0 ≠ 0 := by
  have hlength : 21 < (Base64.encode uuid.toBytes).length := by
    rw [Base64.length_encode, uuid.length_toBytes]
    decide
  rw [List.getD_eq_getElem _ _ hlength]
  obtain ⟨n, hn, hsymbol⟩ := Base64.exists_symbol_of_mem_encode (List.getElem_mem hlength)
  have hpos := (Base64.symbol_toNat hn).1
  rw [hsymbol]
  rintro hzero
  rw [hzero] at hpos
  exact Nat.lt_irrefl 0 hpos

/-- A record is read as the device that it holds. -/
theorem ofRecord?_toBytes (slot : Slot) : ofRecord? slot.toBytes = slot.device? := by
  rw [Slot.toBytes, ofRecord?_append slot.length_content]
  cases slot with
  | os3 uuid filler mark hmark =>
      have hlast : (uuid.toBytes ++ (filler.toBytes ++ [0])).getD 21 0 = 0 := by
        have huuid := uuid.length_toBytes
        have hfiller := filler.length_toBytes
        rw [List.getD_append_right _ _ _ _ (by omega), List.getD_append_right _ _ _ _ (by omega),
          huuid, hfiller]
        rfl
      simp only [Slot.content, Slot.mark, if_neg hmark, hlast, if_true, Slot.device?,
        List.append_assoc, Octets.ofBytes_append]
  | os2 uuid mark hmark =>
      have hread := Base64.octets_eq_some_iff.mpr (rfl : Base64.encode uuid.toBytes = _)
      simp only [Slot.content, Slot.mark, if_neg hmark, if_neg (getD_encode_ne_zero uuid), hread,
        Slot.device?, Option.map_some]
  | empty bytes => rfl
  | corrupt bytes mark hmark hlast htext =>
      have hread : (Base64.decode? bytes.toBytes).bind (Octets.ofBytes? 16) = none := by
        rw [Option.eq_none_iff_forall_ne_some]
        intro uuid huuid
        exact htext uuid (Base64.octets_eq_some_iff.mp huuid).symm
      simp only [Slot.content, Slot.mark, if_neg hmark, if_neg hlast, hread, Slot.device?,
        Option.map_none]

/-- Bytes are their first ones and the last one. -/
theorem eq_take_append_of_length {b : Bytes} {n : Nat} (h : b.length = n + 1) :
    b = b.take n ++ [b.getD n 0] := by
  have hlt : n < b.length := by omega
  calc b = b.take (n + 1) := (List.take_of_length_le (Nat.le_of_eq h)).symm
    _ = b.take n ++ [b[n]] := (List.take_append_getElem hlt).symm
    _ = b.take n ++ [b.getD n 0] := by rw [List.getD_eq_getElem _ _ hlt]

/-- There are no other records. -/
theorem exists_slot {r : Bytes} (h : r.length = recordSize) : ∃ slot : Slot, slot.toBytes = r := by
  have hsize : r.length = 22 + 1 := h
  have hr := eq_take_append_of_length hsize
  have hcontent : (r.take 22).length = 22 := by
    rw [List.length_take]
    omega
  let bytes : Octets 22 := ⟨r.take 22, hcontent⟩
  -- by the mark, then by the byte before it, then by whether there is an identifier to be read
  by_cases hmark : r.getD 22 0 = 0
  · exact ⟨.empty bytes, by rw [hr, hmark]; rfl⟩
  by_cases hlast : bytes.toBytes.getD 21 0 = 0
  · have huuid : (bytes.toBytes.take 16).length = 16 := by simp [bytes.length_toBytes]
    have hfiller : ((bytes.toBytes.drop 16).take 5).length = 5 := by simp [bytes.length_toBytes]
    refine ⟨.os3 ⟨_, huuid⟩ ⟨_, hfiller⟩ (r.getD 22 0) hmark, ?_⟩
    have hfields : bytes.toBytes.take 16 ++ ((bytes.toBytes.drop 16).take 5 ++ [0]) =
        bytes.toBytes := by
      have hbytes := eq_take_append_of_length bytes.length_toBytes
      rw [hlast, List.take_add (i := 16) (j := 5), List.append_assoc] at hbytes
      exact hbytes.symm
    show (bytes.toBytes.take 16 ++ ((bytes.toBytes.drop 16).take 5 ++ [0])) ++ [r.getD 22 0] = r
    rw [hfields]
    exact hr.symm
  by_cases htext : ∃ uuid : Uuid, Base64.encode uuid.toBytes = bytes.toBytes
  · obtain ⟨uuid, huuid⟩ := htext
    refine ⟨.os2 uuid (r.getD 22 0) hmark, ?_⟩
    show Base64.encode uuid.toBytes ++ [r.getD 22 0] = r
    rw [huuid]
    exact hr.symm
  · exact ⟨.corrupt bytes (r.getD 22 0) hmark hlast (not_exists.mp htext), hr.symm⟩

/-! ## Reading a list -/

/-- A record at the beginning of a list is read before the others. -/
theorem parseList_append {r : Bytes} (h : r.length = recordSize) (rest : Bytes) :
    parseList (r ++ rest) = (ofRecord? r).toList ++ parseList rest := by
  rw [parseList, Bytes.pieces_append (by decide) h, List.filterMap_cons, if_pos h, ← parseList]
  cases ofRecord? r <;> rfl

/-- A tail that is too short for a record is read as nothing. -/
theorem parseList_of_lt {tail : Bytes} (h : tail.length < recordSize) : parseList tail = [] := by
  rw [parseList, List.filterMap_eq_nil_iff]
  intro piece hpiece
  exact if_neg (Nat.ne_of_lt (Bytes.length_lt_of_mem_pieces h hpiece))

/-! ## Lists of records -/

/-- The bytes of a list: its records, and a tail. -/
def listBytes (slots : List Slot) (tail : Bytes) : Bytes := slots.flatMap Slot.toBytes ++ tail

/-- The first record of a list is followed by the bytes of the others. -/
theorem listBytes_cons (slot : Slot) (slots : List Slot) (tail : Bytes) :
    listBytes (slot :: slots) tail = slot.toBytes ++ listBytes slots tail := by
  rw [listBytes, List.flatMap_cons, List.append_assoc, ← listBytes]

/-- A list is read record by record. -/
theorem parseList_listBytes {tail : Bytes} (htail : tail.length < recordSize) (slots : List Slot) :
    parseList (listBytes slots tail) = slots.filterMap Slot.device? := by
  induction slots with
  | nil => exact parseList_of_lt htail
  | cons slot slots ih =>
      rw [listBytes_cons, parseList_append slot.length_toBytes, ofRecord?_toBytes, ih,
        List.filterMap_cons]
      cases slot.device? <;> rfl

/-- Every list is made up of records and a tail. -/
theorem exists_listBytes (body : Bytes) :
    ∃ slots tail, tail.length < recordSize ∧ listBytes slots tail = body := by
  -- on the length, as what follows the first record is a list, too
  induction hn : body.length using Nat.strongRecOn generalizing body with
  | ind n ih =>
      by_cases hshort : body.length < recordSize
      · exact ⟨[], body, hshort, rfl⟩
      have hfirst : (body.take recordSize).length = recordSize := by
        rw [List.length_take]
        omega
      have hrest : (body.drop recordSize).length < n := by
        have hpos : 0 < recordSize := by decide
        rw [List.length_drop]
        omega
      obtain ⟨slot, hslot⟩ := exists_slot hfirst
      obtain ⟨slots, tail, htail, hslots⟩ := ih _ hrest (body.drop recordSize) rfl
      refine ⟨slot :: slots, tail, htail, ?_⟩
      rw [listBytes_cons, hslot, hslots, List.take_append_drop]

/-- A list is read as the devices of its records. -/
structure ListsSlots : Prop where
  /-- The devices of the records are read, in their order. -/
  read : ∀ slots tail, tail.length < recordSize →
    parseList (listBytes slots tail) = slots.filterMap Slot.device?
  /-- There are no other lists. -/
  total : ∀ body, ∃ slots tail, tail.length < recordSize ∧ listBytes slots tail = body
  /-- What is read of the records before and after one does not depend on what it holds. -/
  apart : ∀ before slot after tail, tail.length < recordSize →
    parseList (listBytes (before ++ slot :: after) tail) =
      parseList (listBytes before []) ++ slot.device?.toList ++ parseList (listBytes after tail)
  /-- A record without a device can as well be left out. -/
  skipped : ∀ before slot after tail, tail.length < recordSize → slot.device? = none →
    parseList (listBytes (before ++ slot :: after) tail) =
      parseList (listBytes (before ++ after) tail)

/-- **A list is read as the devices of its records**, whatever stands beside them. -/
theorem parseList_slots : ListsSlots := by
  constructor
  · exact fun slots tail htail => parseList_listBytes htail slots
  · exact exists_listBytes
  · intro before slot after tail htail
    rw [parseList_listBytes htail, parseList_listBytes (by decide), parseList_listBytes htail,
      List.filterMap_append, List.filterMap_cons, List.append_assoc]
    cases slot.device? <;> rfl
  · intro before slot after tail htail hnone
    rw [parseList_listBytes htail, parseList_listBytes htail, List.filterMap_append,
      List.filterMap_append, List.filterMap_cons_none hnone]

/-- A device of the third generation and one of the second are read, with nothing and with bytes
that are no text between them and three bytes at the end. -/
theorem parseList_slots_mixed :
    let first : Uuid :=
      ⟨[26, 43, 60, 77, 94, 111, 112, 129, 146, 163, 180, 197, 214, 231, 248, 9], rfl⟩
    let second : Uuid := ⟨List.replicate 16 165, rfl⟩
    parseList ((first.toBytes ++ [1, 2, 3, 4, 5, 0, 1]) ++ List.replicate 23 0 ++
      List.replicate 23 255 ++ (Base64.encode second.toBytes ++ [2]) ++ [7, 8, 9]) =
      [⟨first, .os3⟩, ⟨second, .os2⟩] := by
  intro first second
  have htext : ∀ uuid : Uuid, Base64.encode uuid.toBytes ≠ List.replicate 22 255 := by
    intro uuid h
    have hread := Base64.octets_eq_some_iff.mpr h.symm
    rw [show Base64.decode? (List.replicate 22 255) = none by decide +kernel] at hread
    cases hread
  exact parseList_slots.read
    [.os3 first ⟨[1, 2, 3, 4, 5], rfl⟩ 1 (by decide),
      .empty ⟨List.replicate 22 0, rfl⟩,
      .corrupt ⟨List.replicate 22 255, rfl⟩ 255 (by decide) (by decide) htext,
      .os2 second 2 (by decide)]
    [7, 8, 9] (by decide)

end SmartLock.KnownDevice
