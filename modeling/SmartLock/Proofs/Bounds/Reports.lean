/-
# Reports with partial access

What a device reports, read by indices and ranges that may not be there: settings and statuses,
history records with their tags, and lists of devices.  The checks of length that stand before the
accesses are enough, for bytes of any length, and each reading gives what the reports give.
-/
import SmartLock.Discovery.DeviceList
import SmartLock.Mechanism.Status
import SmartLock.Proofs.Bounds.Text
import SmartLock.Proofs.HistoryReading

namespace SmartLock

/-! ## Batteries -/

namespace Battery

/-- The pairs of neighbours on a curve. -/
def neighbours : List Point → List (List Point)
  | high :: low :: rest => [high, low] :: neighbours (low :: rest)
  | _ => []

/-- The charge on the line of the first pair whose lower end does not exceed the voltage. -/
def alongChecked (voltage : Float32) : List (List Point) → Option Float32
  | [] => some 0.0
  | pair :: rest => do
      let high ← pair[0]?
      let low ← pair[1]?
      if low.voltage ≤ voltage then return between high low voltage else alongChecked voltage rest

/-- The charge left at a voltage, in percent. -/
def percentChecked (voltage : Float32) (model : Option Model) : Option Float32 := do
  let points := curve model
  let first ← points[0]?
  let last ← points[points.length - 1]?
  if first.voltage ≤ voltage then return first.percent
  else if voltage ≤ last.voltage then return last.percent
  else alongChecked voltage (neighbours points)

/-- The charge of a model at its voltage. -/
def percentOfChecked (model : Model) (voltage : Float32) : Option Float32 :=
  if model.osVersion = .unknown then some 0.0
  else percentChecked (voltage * scale model) (some model)

/-- Every pair has two ends. -/
theorem alongChecked_eq (voltage : Float32) (points : List Point) :
    alongChecked voltage (neighbours points) = some (along voltage points) := by
  induction points with
  | nil => rfl
  | cons high rest ih =>
      cases rest with
      | nil => rfl
      | cons low rest =>
          change (if low.voltage ≤ voltage then some (between high low voltage)
            else alongChecked voltage (neighbours (low :: rest))) = _
          rw [ih, along]
          split <;> rfl

/-- Every curve has a first and a last point. -/
theorem percentChecked_eq (voltage : Float32) (model : Option Model) :
    percentChecked voltage model = some (percent voltage model) := by
  have hcurve : curve model ≠ [] := by
    rw [curve]
    split <;> exact List.cons_ne_nil _ _
  have hfirst : (curve model)[0]? = some ((curve model).head hcurve) := by
    rw [← List.head?_eq_getElem?, List.head?_eq_some_head hcurve]
  have hlast : (curve model)[(curve model).length - 1]? = some ((curve model).getLast hcurve) := by
    rw [← List.getLast?_eq_getElem?, List.getLast?_eq_some_getLast hcurve]
  simp only [percentChecked, percent, hfirst, hlast, List.head?_eq_some_head hcurve,
    List.getLast?_eq_some_getLast hcurve, alongChecked_eq, Option.bind_eq_bind, Option.bind_some]
  split
  · rfl
  · split <;> rfl

/-- No access to a curve fails. -/
@[simp] theorem percentOfChecked_eq (model : Model) (voltage : Float32) :
    percentOfChecked model voltage = some (percentOf model voltage) := by
  rw [percentOfChecked, percentOf, percentChecked_eq]
  split <;> rfl

end Battery

/-! ## Settings -/

/-- A setting of the second generation as a model means it. -/
def Setting.ofOs2Checked (model : Model) (s : SettingOs2) : Option Setting := do
  let b := s.toBytes
  if model = .sesameBot then return .bot ⟨s⟩
  else return .lock ⟨readInt16 (← b.each? 0 2), readInt16 (← b.each? 2 2), -1⟩

/-- No access to the twelve bytes fails. -/
@[simp] theorem Setting.ofOs2Checked_eq (model : Model) (s : SettingOs2) :
    ofOs2Checked model s = some (ofOs2 model s) := by
  have hlength := s.length_toBytes
  rw [ofOs2Checked, ofOs2]
  split
  · rfl
  · simp [Bytes.each?_eq, hlength, SettingOs2.lockPosition, SettingOs2.unlockPosition]

namespace SettingOs3

/-- The setting at the start of a message; nothing in it if there are fewer than six bytes. -/
def ofBytesChecked (b : Bytes) : Option (Option SettingOs3) := do
  if b.length < 6 then return none
  else
    return some {
      lockPosition := readInt16 (← b.each? 0 2)
      unlockPosition := readInt16 (← b.each? 2 2)
      autoLockSeconds := readInt16 (← b.each? 4 2) }

/-- The six bytes of a setting, written one after the other. -/
def toBytesChecked (s : SettingOs3) : Option Bytes := do
  let out ← (Octets.zero 6).copy? 0 2 (writeInt16 s.lockPosition)
  let out ← out.copy? 2 4 (writeInt16 s.unlockPosition)
  let out ← out.copy? 4 6 (writeInt16 s.autoLockSeconds)
  return out.toBytes

/-- Six bytes are enough. -/
@[simp] theorem ofBytesChecked_eq (b : Bytes) : ofBytesChecked b = some (ofBytes? b) := by
  rw [ofBytesChecked, ofBytes?]
  split
  · rfl
  · rename_i hlength
    simp (disch := omega) [Bytes.each?_eq]

/-- There is place for all words. -/
@[simp] theorem toBytesChecked_eq (s : SettingOs3) :
    s.toBytesChecked = some s.toBytes := by
  rw [toBytesChecked, ← Octets.ofBytes_nil]
  simp [Octets.copy?_ofBytes, Octets.toBytes_ofBytes, toBytes]

end SettingOs3

/-! ## Statuses -/

namespace Status

/-- The status of a lock of the second generation. -/
def ofLockChecked (model : Model) (s : StatusOs2) : Option Status := do
  let b := s.toBytes
  let voltage := Battery.voltageOs2 (readUInt16 (← b.each? 0 2)) model
  return {
    voltage := voltage
    batteryPercent := ← Battery.percentOfChecked model voltage
    target := readInt16 (← b.each? 2 2)
    position := readInt16 (← b.each? 4 2)
    returnCode := ← b[6]?
    inLock := bit (← b[7]?) 1
    inUnlock := bit (← b[7]?) 2
    batteryCritical := bit (← b[7]?) 5 }

/-- The status of a bot of the second generation. -/
def ofBotChecked (model : Model) (s : StatusOs2) : Option Status := do
  let b := s.toBytes
  let voltage := Battery.voltageOs2 (readUInt16 (← b.each? 0 2)) model
  let motor := MotorStatus.ofCode (← b[4]?)
  return {
    voltage := voltage
    batteryPercent := ← Battery.percentOfChecked model voltage
    inLock := bit (← b[7]?) 1
    inUnlock := bit (← b[7]?) 2
    batteryCritical := bit (← b[7]?) 5
    stopped := motor = .idle || motor = .holding
    motor := motor }

/-- A status of the second generation as a model means it. -/
def ofOs2Checked (model : Model) (s : StatusOs2) : Option Status :=
  if model = .sesameBot then ofBotChecked model s else ofLockChecked model s

/-- The status of a bot of the third generation. -/
def ofBot2Checked (model : Model) (s : StatusBot2) : Option Status := do
  let voltage := Battery.voltageOs3 s.battery.toInt16
  return {
    voltage := voltage
    batteryPercent := ← Battery.percentOfChecked model voltage
    stopped := s.isIdle }

/-- A status of the third generation. -/
def ofOs3Checked (model : Model) (s : StatusOs3) : Option Status := do
  let voltage := Battery.voltageOs3 s.battery
  return {
    voltage := voltage
    batteryPercent := ← Battery.percentOfChecked model voltage
    target := s.target
    position := s.position
    inLock := s.inLock
    inUnlock := !s.inLock
    batteryCritical := s.batteryCritical
    stopped := s.isStopped
    isCritical := s.isCritical
    clutchFailed := s.clutchFailed }

/-- No access to the eight bytes fails. -/
@[simp] theorem ofOs2Checked_eq (model : Model) (s : StatusOs2) :
    ofOs2Checked model s = some (ofOs2 model s) := by
  have hlength := s.length_toBytes
  rw [ofOs2Checked, ofOs2]
  split
  · simp [ofBotChecked, ofBot, Bytes.each?_eq, hlength, StatusOs2.battery, StatusOs2.inLock,
      StatusOs2.inUnlock, StatusOs2.batteryCritical, StatusOs2.motor, StatusOs2.byte]
  · simp [ofLockChecked, ofLock, Bytes.each?_eq, hlength, StatusOs2.battery, StatusOs2.target,
      StatusOs2.position, StatusOs2.returnCode, StatusOs2.inLock, StatusOs2.inUnlock,
      StatusOs2.batteryCritical, StatusOs2.byte]

/-- No access of a bot's status fails. -/
@[simp] theorem ofBot2Checked_eq (model : Model) (s : StatusBot2) :
    ofBot2Checked model s = some (ofBot2 model s) := by
  simp [ofBot2Checked, ofBot2]

/-- No access of a status of the third generation fails. -/
@[simp] theorem ofOs3Checked_eq (model : Model) (s : StatusOs3) :
    ofOs3Checked model s = some (ofOs3 model s) := by
  simp [ofOs3Checked, ofOs3]

end Status

/-- The bot's status at the start of a message; nothing in it if there are fewer than three
bytes. -/
def StatusBot2.ofBytesChecked (b : Bytes) : Option (Option StatusBot2) := do
  if b.length < 3 then return none
  else return some ⟨readUInt16 (← b.each? 0 2), bit (← b[2]?) 2⟩

/-- Three bytes are enough. -/
@[simp] theorem StatusBot2.ofBytesChecked_eq (b : Bytes) :
    ofBytesChecked b = some (ofBytes? b) := by
  match b with
  | [] | [_] | [_, _] => rfl
  | low :: high :: flags :: rest => simp [ofBytesChecked, ofBytes?, Bytes.each?]

namespace StatusOs3

/-- The status at the start of a message; nothing in it if there are fewer than seven bytes. -/
def ofBytesChecked (b : Bytes) : Option (Option StatusOs3) := do
  if b.length < 7 then return none
  else
    let flags ← b[6]?
    return some {
      battery := readInt16 (← b.each? 0 2)
      target := readInt16 (← b.each? 2 2)
      position := readInt16 (← b.each? 4 2)
      clutchFailed := bit flags 0
      inLock := bit flags 1
      inUnlockRange := bit flags 2
      isCritical := bit flags 3
      isStopped := bit flags 4
      batteryCritical := bit flags 5
      isClockwise := bit flags 6 }

/-- The seven bytes of a status, written one after the other. -/
def toBytesChecked (s : StatusOs3) : Option Bytes := do
  let out ← (Octets.zero 7).copy? 0 2 (writeInt16 s.battery)
  let out ← out.copy? 2 4 (writeInt16 s.target)
  let out ← out.copy? 4 6 (writeInt16 s.position)
  let out ← out.set? 6 (packFlags s.flags)
  return out.toBytes

/-- Seven bytes are enough. -/
@[simp] theorem ofBytesChecked_eq (b : Bytes) : ofBytesChecked b = some (ofBytes? b) := by
  rw [ofBytesChecked, ofBytes?]
  split
  · rename_i hlength
    rw [List.drop_eq_nil_of_le (Nat.le_of_lt_succ hlength)]
    rfl
  · rename_i hlength
    have hflags : 6 < b.length := by omega
    rw [List.drop_eq_getElem_cons hflags]
    simp (disch := omega) [Bytes.each?_eq]

/-- There is place for all words and the flags. -/
@[simp] theorem toBytesChecked_eq (s : StatusOs3) :
    s.toBytesChecked = some s.toBytes := by
  rw [toBytesChecked, ← Octets.ofBytes_nil]
  simp [Octets.copy?_ofBytes, Octets.set?_ofBytes, Octets.toBytes_ofBytes, toBytes]

end StatusOs3

/-! ## Tags -/

/-- A field of `size` bytes with a text in it. -/
def Tag.textFieldChecked (size : Nat) (text : String) : Option Bytes := do
  let bytes := Utf8.bytesOf text
  let field ← (Octets.zero size).set? 0 (UInt8.ofNat bytes.length)
  let field ← field.copy? 1 (bytes.length + 1) bytes
  return field.toBytes

/-- A text that is shorter than its field fits into it. -/
theorem Tag.textFieldChecked_eq {size : Nat} {text : String}
    (h : (Utf8.bytesOf text).length < size) :
    textFieldChecked size text = some (textField size text) := by
  let bytes := Utf8.bytesOf text
  let length := UInt8.ofNat bytes.length
  have hlength : (Octets.ofBytes size []).set? 0 length = some (Octets.ofBytes size [length]) :=
    Octets.set?_ofBytes rfl (Nat.zero_lt_of_lt h) length
  have hbytes : (Octets.ofBytes size [length]).copy? 1 (bytes.length + 1) bytes =
      some (Octets.ofBytes size (length :: bytes)) :=
    Octets.copy?_ofBytes rfl (Nat.add_comm _ _) h
  rw [Octets.ofBytes_nil] at hlength
  rw [textFieldChecked, textField]
  simp only [Option.bind_eq_bind]
  rw [hlength, Option.bind_some, hbytes, Option.bind_some,
    Octets.toBytes_ofBytes_of_length_le (Nat.succ_le_of_lt h)]
  rfl

/-- The kind of a trigger and its identifier as text. -/
def Tag.parseTriggerChecked (field : Bytes) : Option (Option (Option TriggerType × String)) := do
  if field.length ≠ triggerSize then return none
  else if (← field[0]?) ≠ 0 then return none
  else return some (TriggerType.ofCode? (← field[1]?), Hex.encode (← field.rest? 2))

/-- Only the eighteen bytes of a trigger are taken apart. -/
@[simp] theorem Tag.parseTriggerChecked_eq (field : Bytes) :
    parseTriggerChecked field = some (parseTrigger? field) := by
  match field with
  | [] | [_] => rfl
  | first :: kind :: id =>
      by_cases hlength : id.length = 16
      · by_cases hfirst : first = 0
        · subst hfirst
          have hrest : Bytes.rest? (0 :: kind :: id) 2 = some id := Bytes.rest?_eq (by simp)
          simp [parseTriggerChecked, parseTrigger?, triggerSize, hlength, hrest]
        · simp [parseTriggerChecked, parseTrigger?, triggerSize, hlength, hfirst]
      · simp [parseTriggerChecked, parseTrigger?, triggerSize, hlength]

/-! ## History records -/

namespace History

/-- A record with the text tag of a field, cut to what is there. -/
def withTagChecked (limit : Nat) (h : History) : Bytes → Option History
  | [] => some h
  | length :: rest => do
      let size := min (min (textLength length.toNat h.type) limit) rest.length
      return { h with
        type := reclassify length.toNat h.type
        tag := ← Utf8.cleanupTailChecked (← Bytes.front? rest size) }

/-- What the head of an answer of the second generation says. -/
def readHeadOs2Checked (body : Bytes) : Option History := do
  let recordId := readInt32 (← body.each? 2 4)
  let code ← body[6]?
  let milliseconds ← Octets.copyOf? 8 (← body.slice? 7 15)
  return {
    result := .success
    type := typeOs2 code
    recordId := recordId
    time := readInt64 milliseconds.toBytes / 1000 }

/-- The record of an answer of the second generation. -/
def ofOs2Checked (body : Bytes) : Option History := do
  if body.length < 2 then return {}
  else
    let result := ResultCode.ofCode (← body[1]?)
    if result ≠ .success then return { result := result }
    else if body.length < 15 then return { result := result }
    else
      let h ← readHeadOs2Checked body
      if tagOffsetOs2 ≤ body.length then
        withTagChecked Tag.maxSizeOs2 h (← body.rest? tagOffsetOs2)
      else return h

/-- What the head of an answer of the third generation says. -/
def readHeadOs3Checked (body : Bytes) : Option History := do
  let recordId := readInt32 (← body.each? 1 4)
  let code ← body[5]?
  let seconds := readUInt32 (← body.each? 6 4)
  return {
    result := .success
    type := (HistoryType.ofCode? code).getD .none
    recordId := recordId
    time := seconds.toUInt64.toInt64 }

/-- The record of an answer of the third generation; an empty answer holds none. -/
def ofOs3Checked (body : Bytes) : Option (Option History) := do
  match body.head? with
  | none => return none
  | some code =>
      let result := ResultCode.ofCode code
      if result ≠ .success || body.length < headSizeOs3 then return some { result := result }
      else
        let h ← readHeadOs3Checked body
        let field ← body.rest? headSizeOs3
        match ← Tag.parseTriggerChecked field with
        | some (trigger, id) => return some { h with trigger := trigger, tag := id }
        | none => return some (← withTagChecked Tag.maxSizeOs3 h field)

/-- The text of a tag is never cut behind its field. -/
@[simp] theorem withTagChecked_eq (limit : Nat) (h : History) (field : Bytes) :
    withTagChecked limit h field = some (withTag limit h field) := by
  cases field with
  | nil => rfl
  | cons length rest =>
      let size := min (textLength length.toNat h.type) limit
      have hfront : Bytes.front? rest (min size rest.length) = some (rest.take size) := by
        rw [Bytes.front?_eq (Nat.min_le_right _ _), ← List.take_take, List.take_length]
      simp only [withTagChecked]
      rw [hfront, Option.bind_eq_bind, Option.bind_some, Utf8.cleanupTailChecked_eq]
      rfl

/-- A head of fifteen bytes is there. -/
theorem readHeadOs2Checked_eq {body : Bytes} (h : 15 ≤ body.length) :
    readHeadOs2Checked body = some (readHeadOs2 body) := by
  have htime : readInt64 (Octets.ofBytes 8 ((body.drop 7).take 8)).toBytes =
      readInt64 (body.drop 7) := by
    rw [Octets.toBytes_ofBytes (by simp; omega), readInt64_take]
  rw [readHeadOs2Checked, Bytes.each?_eq (by omega), Bytes.getElem?_eq_getD (by omega),
    Bytes.slice?_eq (by decide) h, List.drop_take]
  simp only [Option.bind_eq_bind, Option.bind_some, readInt32_take]
  rw [Octets.copyOf?_eq (by simp; omega), Option.bind_some, htime]
  rfl

/-- No access to an answer of the second generation fails. -/
@[simp] theorem ofOs2Checked_eq (body : Bytes) : ofOs2Checked body = some (ofOs2 body) := by
  by_cases hholds : HoldsOs2 body
  · obtain ⟨hresult, hlength⟩ := id hholds
    rw [ofOs2Checked, if_neg (by omega), Bytes.getElem?_eq_getD (by omega), ofOs2_of_holds hholds]
    simp only [Option.bind_eq_bind, Option.bind_some, hresult, ne_eq, not_true_eq_false, if_false,
      if_neg (Nat.not_lt.mpr hlength), readHeadOs2Checked_eq hlength]
    split
    · rename_i hfield
      rw [Bytes.rest?_eq hfield, Option.bind_some, withTagChecked_eq]
    · rename_i hfield
      rw [List.drop_eq_nil_of_le (by omega)]
      rfl
  · rw [ofOs2Checked, ofOs2_of_not_holds hholds]
    by_cases hcode : body.length < 2
    · rw [if_pos hcode, List.getD_eq_default _ _ (by omega)]
      rfl
    · rw [if_neg hcode, Bytes.getElem?_eq_getD (by omega), Option.bind_eq_bind, Option.bind_some]
      by_cases hresult : ResultCode.ofCode (body.getD 1 0) = .success
      · have hlength : body.length < 15 := Nat.not_le.mp fun hlength => hholds ⟨hresult, hlength⟩
        simp only [hresult, ne_eq, not_true_eq_false, if_false, if_pos hlength]
        rfl
      · exact if_pos hresult

/-- A head of seventeen bytes is there. -/
theorem readHeadOs3Checked_eq {body : Bytes} (h : headSizeOs3 ≤ body.length) :
    readHeadOs3Checked body = some (readHeadOs3 body) := by
  rw [headSizeOs3] at h
  rw [readHeadOs3Checked, Bytes.each?_eq (by omega), Bytes.getElem?_eq_getD (by omega),
    Bytes.each?_eq (by omega)]
  simp only [Option.bind_eq_bind, Option.bind_some, readInt32_take, readUInt32_take]
  rfl

/-- No access to an answer of the third generation fails. -/
@[simp] theorem ofOs3Checked_eq (body : Bytes) : ofOs3Checked body = some (ofOs3? body) := by
  rw [ofOs3Checked]
  cases hhead : body.head? with
  | none =>
      rw [List.head?_eq_none_iff.mp hhead]
      rfl
  | some code =>
      have hcode : body.getD 0 0 = code := by
        rw [List.getD_eq_getElem?_getD, ← List.head?_eq_getElem?, hhead, Option.getD_some]
      by_cases hholds : HoldsOs3 body
      · obtain ⟨hresult, hlength⟩ := id hholds
        rw [hcode] at hresult
        simp only [hresult, ne_eq, not_true_eq_false, decide_false, Bool.false_or,
          decide_eq_true_eq, if_neg (Nat.not_lt.mpr hlength), readHeadOs3Checked_eq hlength,
          Bytes.rest?_eq hlength, Tag.parseTriggerChecked_eq, withTagChecked_eq,
          Option.bind_eq_bind, Option.bind_some, ofOs3?_of_holds hholds]
        cases Tag.parseTrigger? (body.drop headSizeOs3) <;> rfl
      · have hne : body ≠ [] := by
          rintro rfl
          cases hhead
        rw [ofOs3?_of_not_holds hne hholds, hcode]
        refine if_pos ?_
        rw [Bool.or_eq_true, decide_eq_true_eq, decide_eq_true_eq, ← Nat.not_le, ← not_and_or,
          ← hcode]
        exact hholds

end History

/-! ## Lists of devices -/

namespace KnownDevice

/-- The device of one record; nothing in it if the record is empty or corrupt. -/
def ofRecordChecked (r : Bytes) : Option (Option KnownDevice) := do
  if (← r[22]?) = 0 then return none
  else if (← r[21]?) = 0 then
    let bytes ← r.front? 16
    return (Octets.ofBytes? 16 bytes).map (⟨·, .os3⟩)
  else
    let text ← r.front? textSize
    return (Base64.decode? text).bind fun bytes =>
      (Octets.ofBytes? 16 bytes).map (⟨·, .os2⟩)

/-- The devices of the records that are complete. -/
def ofRecordsChecked : List Bytes → Option (List KnownDevice)
  | [] => some []
  | r :: rest => do
      let device ← ofRecordChecked r
      return device.toList ++ (← ofRecordsChecked rest)

/-- The devices of a list of records; an incomplete record at the end is ignored. -/
def parseListChecked (body : Bytes) : Option (List KnownDevice) :=
  ofRecordsChecked ((body.pieces recordSize).filter (·.length = recordSize))

/-- No access to a complete record fails. -/
theorem ofRecordChecked_eq {r : Bytes} (h : r.length = recordSize) :
    ofRecordChecked r = some (ofRecord? r) := by
  have hlength : r.length = 23 := h
  have hid : Octets.ofBytes? 16 (r.take 16) = some (Octets.ofBytes 16 r) := by
    rw [Octets.ofBytes?_eq (by simp [hlength]), Octets.ofBytes_take (by omega)]
  have htext : textSize ≤ r.length := hlength ▸ (by decide)
  rw [ofRecordChecked, ofRecord?, Bytes.getElem?_eq_getD (by omega),
    Bytes.getElem?_eq_getD (by omega), Bytes.front?_eq (by omega), Bytes.front?_eq htext]
  simp only [Option.bind_eq_bind, Option.bind_some, hid]
  split
  · rfl
  · split
    · rfl
    · cases Base64.decode? (r.take textSize) with
      | none => rfl
      | some bytes =>
          rw [Option.bind_some, Option.bind_some, Option.map_eq_bind]
          rfl

/-- No access to a list fails. -/
@[simp] theorem parseListChecked_eq (body : Bytes) :
    parseListChecked body = some (parseList body) := by
  rw [parseListChecked, parseList]
  induction body.pieces recordSize with
  | nil => rfl
  | cons r rest ih =>
      by_cases hlength : r.length = recordSize
      · rw [List.filter_cons_of_pos (by simpa using hlength), ofRecordsChecked,
          ofRecordChecked_eq hlength, ih, List.filterMap_cons, if_pos hlength]
        cases ofRecord? r <;> rfl
      · rw [List.filter_cons_of_neg (by simpa using hlength), ih, List.filterMap_cons,
          if_neg hlength]

end KnownDevice

end SmartLock
