/-
# History records that are read back

The two layouts in which a device writes a record of its history (`History.bodyOs2`,
`History.bodyOs3`), each with a field for the tag (`History.tagField`).  The length byte of the
field counts thirties on top of the length of the text: none for a command that came directly, one
for a command through a gateway, and more for a command from the web.

What has been written is read back, with all that the thirties tell (`History.reads_written`).  The
one exception are fields of the third generation that have the form of a trigger.
-/
import SmartLock.History
import SmartLock.Proofs.Text.Utf8

namespace SmartLock

/-! ## Words -/

/-- The four bytes of a signed 32-bit word. -/
def writeInt32 (v : Int32) : Bytes := writeUInt32 v.toUInt32

/-- The eight bytes of a signed 64-bit word. -/
def writeInt64 (v : Int64) : Bytes := littleEndian 8 v.toUInt64.toNat

/-- A signed 32-bit word takes four bytes. -/
@[simp] theorem length_writeInt32 (v : Int32) : (writeInt32 v).length = 4 := length_writeUInt32 _

/-- A signed 64-bit word takes eight bytes. -/
@[simp] theorem length_writeInt64 (v : Int64) : (writeInt64 v).length = 8 := length_littleEndian _ _

/-- An unsigned word at the start of a byte string is read back. -/
theorem readUInt32_writeUInt32_append (v : UInt32) (rest : Bytes) :
    readUInt32 (writeUInt32 v ++ rest) = v := by
  have htake : (writeUInt32 v ++ rest).take 4 = writeUInt32 v := List.take_left' (by simp)
  have hsize : v.toNat % Nat.pow 256 4 = v.toNat := Nat.mod_eq_of_lt v.toNat_lt
  rw [readUInt32, htake, writeUInt32, ofLittleEndian_littleEndian, hsize, UInt32.ofNat_toNat]

/-- So is a signed one. -/
theorem readInt32_writeInt32_append (v : Int32) (rest : Bytes) :
    readInt32 (writeInt32 v ++ rest) = v := by
  rw [readInt32, writeInt32, readUInt32_writeUInt32_append, Int32.toInt32_toUInt32]

/-- So is a long one. -/
theorem readInt64_writeInt64_append (v : Int64) (rest : Bytes) :
    readInt64 (writeInt64 v ++ rest) = v := by
  have htake : (writeInt64 v ++ rest).take 8 = writeInt64 v := List.take_left' (by simp)
  have hsize : v.toUInt64.toNat % Nat.pow 256 8 = v.toUInt64.toNat :=
    Nat.mod_eq_of_lt v.toUInt64.toNat_lt
  rw [readInt64, htake, writeInt64, ofLittleEndian_littleEndian, hsize, UInt64.ofNat_toNat,
    Int64.toInt64_toUInt64]

/-- An unsigned 32-bit word as a signed one of 64 bits. -/
theorem toInt_toInt64_toUInt64 (v : UInt32) : v.toUInt64.toInt64.toInt = v.toNat := by
  have hlt := v.toNat_lt
  show v.toUInt64.toBitVec.toInt = v.toNat
  rw [BitVec.toInt_eq_toNat_of_lt]
  · rfl
  · show 2 * v.toUInt64.toNat < 2 ^ 64
    rw [UInt32.toNat_toUInt64]
    omega

namespace History

/-! ## Layouts -/

/-- The field of a text tag: a byte for its length and a number of thirties, its bytes, and whatever
follows. -/
def tagField (text : String) (thirties : Nat) (rest : Bytes) : Bytes :=
  UInt8.ofNat ((Utf8.bytesOf text).length + 30 * thirties) :: (Utf8.bytesOf text ++ rest)

/-- The beginning of a record in both layouts, its number and its type, before the rest. -/
def head (recordId : Int32) (type : HistoryType) (rest : Bytes) : Bytes :=
  writeInt32 recordId ++ type.code :: rest

section Head

variable (recordId : Int32) (type : HistoryType) (rest : Bytes)

/-- The beginning takes five bytes. -/
@[simp] theorem length_head : (head recordId type rest).length = rest.length + 5 := by
  rw [head, List.length_append, length_writeInt32, List.length_cons, Nat.add_comm]

/-- The number stands first. -/
@[simp] theorem readInt32_head : readInt32 (head recordId type rest) = recordId :=
  readInt32_writeInt32_append recordId _

/-- The type stands after the number. -/
@[simp] theorem getD_head : (head recordId type rest).getD 4 0 = type.code := by simp [head]

/-- The rest stands after both. -/
@[simp] theorem drop_head (n : Nat) : (head recordId type rest).drop (5 + n) = rest.drop n := by
  have hparts : head recordId type rest = (writeInt32 recordId ++ [type.code]) ++ rest := by
    simp [head]
  have hdrop : ((writeInt32 recordId ++ [type.code]) ++ rest).drop 5 = rest :=
    List.drop_left' (by simp)
  rw [hparts, ← List.drop_drop, hdrop]

end Head

/-- A record in the layout of the second generation, after the operation that it answers. -/
def bodyOs2 (op : UInt8) (recordId : Int32) (type : HistoryType) (milliseconds : Int64)
    (skipped : Octets 18) (field : Bytes) : Bytes :=
  op :: ResultCode.success.code ::
    head recordId type (writeInt64 milliseconds ++ (skipped.toBytes ++ field))

/-- A record in the layout of the third generation. -/
def bodyOs3 (recordId : Int32) (type : HistoryType) (seconds : UInt32) (status : Octets 7)
    (field : Bytes) : Bytes :=
  ResultCode.success.code ::
    head recordId type (writeUInt32 seconds ++ (status.toBytes ++ field))

/-! ## What is written -/

/-- The type of a command over Bluetooth that came directly, through a gateway or from the web. -/
def variant : HistoryType → Nat → HistoryType
  | .bleLock, 0 => .bleLock
  | .bleLock, 1 => .wm2Lock
  | .bleLock, _ => .webLock
  | .bleUnlock, 0 => .bleUnlock
  | .bleUnlock, 1 => .wm2Unlock
  | .bleUnlock, _ => .webUnlock
  | type, _ => type

/-- The type as the second generation knows it: nothing above the types of the web but the click of
a motor. -/
def knownOs2 (type : HistoryType) : HistoryType :=
  if HistoryType.webUnlock.code < type.code ∧ type ≠ .driveClicked then .none else type

/-- A text and a number of thirties that a tag field of limited size can hold. -/
structure FitsTag (limit : Nat) (type : HistoryType) (text : String) (thirties : Nat) : Prop where
  /-- There is no zero character in the text. -/
  zeroFree : '\x00' ∉ text.toList
  /-- The text is not too long. -/
  length : (Utf8.bytesOf text).length ≤ limit
  /-- The length byte can be written. -/
  byte : (Utf8.bytesOf text).length + 30 * thirties ≤ 255
  /-- Only commands over Bluetooth come through a gateway or from the web. -/
  remote : thirties ≠ 0 → type = .bleLock ∨ type = .bleUnlock

/-- A field that has the form of a trigger. -/
def IsTrigger (field : Bytes) : Prop := field.length = Tag.triggerSize ∧ field.head? = some 0

/-- What a record says. -/
structure Says (h : History) (recordId : Int32) (type : HistoryType) (time : Int)
    (trigger : Option TriggerType) (tag : String) : Prop where
  result : h.result = .success
  recordId : h.recordId = recordId
  type : h.type = type
  time : h.time.toInt = time
  trigger : h.trigger = trigger
  tag : h.tag = tag

/-! ## Tags -/

/-- The size of the text is what is left of the length byte without the thirties. -/
theorem textLength_eq {limit : Nat} (hlimit : limit < 30) {type : HistoryType} {text : String}
    {thirties : Nat} (h : FitsTag limit type text thirties) :
    textLength ((Utf8.bytesOf text).length + 30 * thirties) type = (Utf8.bytesOf text).length := by
  have hlength := h.length
  by_cases hremote : type = .bleLock ∨ type = .bleUnlock
  · rcases hremote with rfl | rfl
    · show ((Utf8.bytesOf text).length + 30 * thirties) % 30 = _
      omega
    · show ((Utf8.bytesOf text).length + 30 * thirties) % 30 = _
      omega
  · have hdirect : thirties = 0 := by
      by_contra hne
      exact hremote (h.remote hne)
    rw [hdirect, Nat.mul_zero, Nat.add_zero]
    cases type with
    | bleLock => exact absurd (.inl rfl) hremote
    | bleUnlock => exact absurd (.inr rfl) hremote
    | _ => rfl

/-- The thirties of the length byte tell how a command came. -/
theorem reclassify_eq {limit : Nat} (hlimit : limit < 30) {type : HistoryType} {text : String}
    {thirties : Nat} (h : FitsTag limit type text thirties) :
    reclassify ((Utf8.bytesOf text).length + 30 * thirties) type = variant type thirties := by
  have hlength := h.length
  cases type with
  | bleLock =>
      rw [reclassify]
      match thirties with
      | 0 => rw [if_neg (by omega), if_neg (by omega), variant]
      | 1 => rw [if_neg (by omega), if_pos (by omega), variant]
      | n + 2 => rw [if_pos (by omega)]; rfl
  | bleUnlock =>
      rw [reclassify]
      match thirties with
      | 0 => rw [if_neg (by omega), if_neg (by omega), variant]
      | 1 => rw [if_neg (by omega), if_pos (by omega), variant]
      | n + 2 => rw [if_pos (by omega)]; rfl
  | _ => rfl

/-- The field of a tag is read as the text, and as the type that the thirties make of it. -/
theorem withTag_tagField {limit : Nat} (hlimit : limit < 30) {record : History} {text : String}
    {thirties : Nat} (h : FitsTag limit record.type text thirties) (rest : Bytes) :
    withTag limit record (tagField text thirties rest) =
      { record with type := variant record.type thirties, tag := text } := by
  have hbyte : (UInt8.ofNat ((Utf8.bytesOf text).length + 30 * thirties)).toNat =
      (Utf8.bytesOf text).length + 30 * thirties :=
    Nat.mod_eq_of_lt (Nat.lt_succ_of_le h.byte)
  rw [tagField, withTag, hbyte, reclassify_eq hlimit h, textLength_eq hlimit h,
    Nat.min_eq_left h.length, List.take_left, Utf8.cleanupTail_bytesOf h.zeroFree]

/-- A field that has not the form of a trigger is read as none. -/
theorem parseTrigger?_eq_none {field : Bytes} (h : ¬ IsTrigger field) :
    Tag.parseTrigger? field = none := by
  match field with
  | [] => rfl
  | [_] => rfl
  | zero :: kind :: id =>
      rw [Tag.parseTrigger?, if_neg]
      intro htrigger
      rw [Bool.and_eq_true, decide_eq_true_eq, decide_eq_true_eq] at htrigger
      obtain ⟨rfl, hlength⟩ := htrigger
      exact h ⟨by rw [List.length_cons, List.length_cons, hlength]; rfl, rfl⟩

/-- A field that has the form of a trigger is read as one. -/
theorem parseTrigger?_eq_some {field : Bytes} (h : IsTrigger field) :
    Tag.parseTrigger? field =
      some (TriggerType.ofCode? (field.getD 1 0), Hex.encode (field.drop 2)) := by
  obtain ⟨hlength, hhead⟩ := h
  match field with
  | [] => cases hhead
  | [_] => cases hlength
  | zero :: kind :: id =>
      obtain rfl := Option.some.inj hhead
      have hid : id.length = 16 := Nat.succ.inj (Nat.succ.inj hlength)
      rw [Tag.parseTrigger?, if_pos (by simp [hid])]
      rfl

/-! ## Records -/

/-- What is read of a record of the third generation before its tag. -/
def headOs3 (recordId : Int32) (type : HistoryType) (seconds : UInt32) : History :=
  { result := .success
    type := type
    recordId := recordId
    time := seconds.toUInt64.toInt64 }

/-- Reading a record of the third generation comes down to its tag field. -/
theorem ofOs3?_bodyOs3 (recordId : Int32) (type : HistoryType) (seconds : UInt32)
    (status : Octets 7) (field : Bytes) :
    ofOs3? (bodyOs3 recordId type seconds status field) =
      match Tag.parseTrigger? field with
      | some (trigger, id) =>
          some { headOs3 recordId type seconds with trigger := trigger, tag := id }
      | none => some (withTag Tag.maxSizeOs3 (headOs3 recordId type seconds) field) := by
  have hstatus := status.length_toBytes
  let rest := writeUInt32 seconds ++ (status.toBytes ++ field)
  have hresult : ResultCode.ofCode ResultCode.success.code = .success := rfl
  have hlength : ¬ (ResultCode.success.code :: head recordId type rest).length < headSizeOs3 := by
    simp only [rest, headSizeOs3, List.length_cons, List.length_append, length_head,
      length_writeUInt32, hstatus]
    omega
  have htime : readUInt32 ((head recordId type rest).drop 5) = seconds := by
    rw [drop_head recordId type rest 0]
    exact readUInt32_writeUInt32_append seconds _
  have hfield : (ResultCode.success.code :: head recordId type rest).drop headSizeOs3 = field := by
    show (head recordId type rest).drop (5 + 11) = field
    have hparts : rest = (writeUInt32 seconds ++ status.toBytes) ++ field := by simp [rest]
    rw [drop_head, hparts]
    exact List.drop_left' (by simp [hstatus])
  show ofOs3? (ResultCode.success.code :: head recordId type rest) = _
  simp only [ofOs3?, hresult, hlength, hfield, getD_head, readInt32_head, htime,
    HistoryType.ofCode?_code, Option.getD_some, ne_eq, not_true_eq_false, decide_false,
    Bool.or_self, Bool.false_eq_true, if_false]
  rfl

/-- What is read of a record of the second generation before its tag. -/
def headOs2 (recordId : Int32) (type : HistoryType) (milliseconds : Int64) : History :=
  { result := .success
    type := knownOs2 type
    recordId := recordId
    time := milliseconds / 1000 }

/-- The types that the second generation knows. -/
theorem typeOs2_code (type : HistoryType) : typeOs2 type.code = knownOs2 type := by
  simp only [typeOs2, HistoryType.ofCode?_code, Option.getD_some, knownOs2, Bool.and_eq_true,
    decide_eq_true_eq]

/-- Reading a record of the second generation comes down to its tag field, too. -/
theorem ofOs2_bodyOs2 (op : UInt8) (recordId : Int32) (type : HistoryType) (milliseconds : Int64)
    (skipped : Octets 18) (field : Bytes) :
    ofOs2 (bodyOs2 op recordId type milliseconds skipped field) =
      withTag Tag.maxSizeOs2 (headOs2 recordId type milliseconds) field := by
  have hskipped := skipped.length_toBytes
  let rest := writeInt64 milliseconds ++ (skipped.toBytes ++ field)
  have hresult : ResultCode.ofCode ResultCode.success.code = .success := rfl
  have hlength : ¬ (op :: ResultCode.success.code :: head recordId type rest).length < 15 := by
    simp only [rest, List.length_cons, List.length_append, length_head, length_writeInt64, hskipped]
    omega
  have htime : readInt64 ((head recordId type rest).drop 5) = milliseconds := by
    rw [drop_head recordId type rest 0]
    exact readInt64_writeInt64_append milliseconds _
  have hfield : (op :: ResultCode.success.code :: head recordId type rest).drop tagOffsetOs2 =
      field := by
    show (head recordId type rest).drop (5 + 26) = field
    have hparts : rest = (writeInt64 milliseconds ++ skipped.toBytes) ++ field := by simp [rest]
    rw [drop_head, hparts]
    exact List.drop_left' (by simp [hskipped])
  show ofOs2 (op :: ResultCode.success.code :: head recordId type rest) = _
  simp only [ofOs2, hresult, hlength, hfield, getD_head, readInt32_head, htime, typeOs2_code, ne_eq,
    not_true_eq_false, decide_false, Bool.or_self, Bool.false_eq_true, if_false]
  rfl

/-- Types of commands over Bluetooth are known to the second generation. -/
theorem FitsTag.knownOs2 {limit : Nat} {type : HistoryType} {text : String} {thirties : Nat}
    (h : FitsTag limit type text thirties) : FitsTag limit (knownOs2 type) text thirties := by
  refine ⟨h.zeroFree, h.length, h.byte, fun hne => ?_⟩
  rcases h.remote hne with rfl | rfl
  · exact .inl rfl
  · exact .inr rfl

/-- What becomes of a record that has been written with a tag. -/
structure ReadsWritten (recordId : Int32) (type : HistoryType) (text : String) (thirties : Nat)
    (rest : Bytes) : Prop where
  /-- In the third generation it is read back, unless the field has the form of a trigger. -/
  os3 : FitsTag Tag.maxSizeOs3 type text thirties → ¬ IsTrigger (tagField text thirties rest) →
    ∀ seconds status, ∃ h,
      ofOs3? (bodyOs3 recordId type seconds status (tagField text thirties rest)) = some h ∧
      h.Says recordId (variant type thirties) seconds.toNat none text
  /-- A field that has this form is read as the trigger, whatever it was written for. -/
  trigger : ∀ field, IsTrigger field → ∀ seconds status, ∃ h,
    ofOs3? (bodyOs3 recordId type seconds status field) = some h ∧
    h.Says recordId type seconds.toNat (TriggerType.ofCode? (field.getD 1 0))
      (Hex.encode (field.drop 2))
  /-- In the second generation it is read back with the time in seconds and the type as known. -/
  os2 : FitsTag Tag.maxSizeOs2 type text thirties → ∀ op milliseconds skipped,
    (ofOs2 (bodyOs2 op recordId type milliseconds skipped (tagField text thirties rest))).Says
      recordId (variant (knownOs2 type) thirties) (milliseconds.toInt.tdiv 1000) none text

/-- **History records are read back** as they have been written, in both generations. -/
theorem reads_written (recordId : Int32) (type : HistoryType) (text : String) (thirties : Nat)
    (rest : Bytes) : ReadsWritten recordId type text thirties rest := by
  constructor
  · intro hfits htrigger seconds status
    have hhead : FitsTag Tag.maxSizeOs3 (headOs3 recordId type seconds).type text thirties := hfits
    have hread : ofOs3? (bodyOs3 recordId type seconds status (tagField text thirties rest)) =
        some { headOs3 recordId type seconds with type := variant type thirties, tag := text } := by
      rw [ofOs3?_bodyOs3, parseTrigger?_eq_none htrigger, withTag_tagField (by decide) hhead]
      rfl
    exact ⟨_, hread, rfl, rfl, rfl, toInt_toInt64_toUInt64 seconds, rfl, rfl⟩
  · intro field htrigger seconds status
    have hread : ofOs3? (bodyOs3 recordId type seconds status field) =
        some { headOs3 recordId type seconds with
          trigger := TriggerType.ofCode? (field.getD 1 0), tag := Hex.encode (field.drop 2) } := by
      rw [ofOs3?_bodyOs3, parseTrigger?_eq_some htrigger]
    exact ⟨_, hread, rfl, rfl, rfl, toInt_toInt64_toUInt64 seconds, rfl, rfl⟩
  · intro hfits op milliseconds skipped
    have hhead : FitsTag Tag.maxSizeOs2 (headOs2 recordId type milliseconds).type text thirties :=
      hfits.knownOs2
    have htime : (milliseconds / 1000).toInt = milliseconds.toInt.tdiv 1000 :=
      Int64.toInt_div_of_ne_right milliseconds 1000 (by decide)
    rw [ofOs2_bodyOs2, withTag_tagField (by decide) hhead]
    exact ⟨rfl, rfl, rfl, htime, rfl, rfl⟩

/-- A command from the web, with two characters of a tag and something else after them. -/
theorem reads_written_webLock :
    FitsTag Tag.maxSizeOs3 .bleLock "ok" 2 ∧ ¬ IsTrigger (tagField "ok" 2 [120]) ∧
      ∃ h, ofOs3? (bodyOs3 1234 .bleLock 1700000000 (Octets.zero 7) (tagField "ok" 2 [120])) =
          some h ∧ h.Says 1234 .webLock 1700000000 none "ok" := by
  have hfits : FitsTag Tag.maxSizeOs3 .bleLock "ok" 2 :=
    ⟨by decide +kernel, by decide +kernel, by decide +kernel, fun _ => .inl rfl⟩
  have htrigger : ¬ IsTrigger (tagField "ok" 2 [120]) := by
    rintro ⟨hlength, -⟩
    exact absurd hlength (by decide +kernel)
  exact ⟨hfits, htrigger, (reads_written 1234 .bleLock "ok" 2 [120]).os3 hfits htrigger 1700000000
    (Octets.zero 7)⟩

end History

end SmartLock
