/-
# History records

A device answers a request for its history with one record: who did what, and when.  The two
generations lay it out differently; both keep the author as a tag whose length byte also tells,
for commands over Bluetooth, whether they came through a gateway.
-/
import SmartLock.Tag

namespace SmartLock

/-- A history record. -/
structure History where
  result : ResultCode := .success
  type : HistoryType := .none
  trigger : Option TriggerType := none
  recordId : Int32 := 0
  /-- Seconds since the start of 1970. -/
  time : Int64 := 0
  tag : String := ""
  deriving DecidableEq, Repr

instance : Inhabited History := ⟨{}⟩

namespace History

/-! ## Tags -/

/-- The type of a record as the length byte of its tag corrects it: sixty and more means a
command from the web, thirty to fifty-nine one through a gateway. -/
def reclassify (length : Nat) : HistoryType → HistoryType
  | .bleLock => if 60 ≤ length then .webLock else if 30 ≤ length then .wm2Lock else .bleLock
  | .bleUnlock =>
      if 60 ≤ length then .webUnlock else if 30 ≤ length then .wm2Unlock else .bleUnlock
  | type => type

/-- The length of the text that a length byte announces. -/
def textLength (length : Nat) : HistoryType → Nat
  | .bleLock | .bleUnlock => length % 30
  | _ => length

/-- A record with the text tag of a field, of at most `limit` bytes. -/
def withTag (limit : Nat) (h : History) : Bytes → History
  | [] => h
  | length :: rest =>
      let size := min (textLength length.toNat h.type) limit
      { h with
        type := reclassify length.toNat h.type
        tag := Utf8.cleanupTail (rest.take size) }

/-! ## Records of the second generation -/

/-- The type of a record of the second generation; it knows no types above those of the web,
except that of a click by the motor. -/
def typeOs2 (code : UInt8) : HistoryType :=
  let type := (HistoryType.ofCode? code).getD .none
  if HistoryType.webUnlock.code < code && type ≠ .driveClicked then .none else type

/-- The offset of the tag: a head of fifteen bytes and eighteen bytes of unknown meaning. -/
def tagOffsetOs2 : Nat := 33

/-- The record of an answer of the second generation.  A short one is an empty record. -/
def ofOs2 (body : Bytes) : History :=
  match body with
  | _ :: code :: rest =>
      let result := ResultCode.ofCode code
      if result ≠ .success || body.length < 15 then { result := result }
      else
        withTag Tag.maxSizeOs2
          { result := result
            type := typeOs2 (rest.getD 4 0)
            recordId := readInt32 rest
            time := readInt64 (rest.drop 5) / 1000 }
          (body.drop tagOffsetOs2)
  | _ => {}

/-! ## Records of the third generation -/

/-- The number of bytes before the tag. -/
def headSizeOs3 : Nat := 17

/-- The record of an answer of the third generation; an empty answer holds none. -/
def ofOs3? (body : Bytes) : Option History :=
  match body with
  | [] => none
  | code :: rest =>
      let result := ResultCode.ofCode code
      if result ≠ .success || body.length < headSizeOs3 then some { result := result }
      else
        let field := body.drop headSizeOs3
        let h : History :=
          { result := result
            type := (HistoryType.ofCode? (rest.getD 4 0)).getD .none
            recordId := readInt32 rest
            time := (readUInt32 (rest.drop 5)).toUInt64.toInt64 }
        match Tag.parseTrigger? field with
        | some (trigger, id) => some { h with trigger := trigger, tag := id }
        | none => some (withTag Tag.maxSizeOs3 h field)

end History

end SmartLock
