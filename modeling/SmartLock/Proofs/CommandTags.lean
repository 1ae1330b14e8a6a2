/-
# Tags of commands in the history

A client names the author of a command, and the device keeps the name with the record of the
command.  When the client is given the record, it finds in it the text that the device was told,
and the record is not taken for one from the web or through a gateway; a trigger comes back with the
digits of its identifier, just as a server reads it out of the command (`Dialogue.tags_come_back`).
-/
import SmartLock.Proofs.Client.Talking
import SmartLock.Proofs.HistoryReading

namespace SmartLock

/-! ## Fields -/

/-- The field of a text is its length and its bytes, before whatever fills it up. -/
theorem Tag.textField_eq_tagField (size : Nat) (text : String) :
    ∃ rest, Tag.textField size text = History.tagField text 0 rest := by
  refine ⟨List.replicate (size - ((Utf8.bytesOf text).length + 1)) 0, ?_⟩
  rw [Tag.textField, History.tagField, Nat.mul_zero, Nat.add_zero]
  rfl

namespace History

/-- A text without the zero character fits a field that comes directly. -/
theorem fitsTag_direct {limit : Nat} (hlimit : limit < 256) {type : HistoryType} {text : String}
    (hzero : '\x00' ∉ text.toList) (hlength : (Utf8.bytesOf text).length ≤ limit) :
    FitsTag limit type text 0 :=
  ⟨hzero, hlength, by omega, fun hne => absurd rfl hne⟩

/-- What comes directly is of the type that it was. -/
theorem variant_zero (type : HistoryType) : variant type 0 = type := by
  cases type <;> rfl

/-- The field of a text is read as the text and changes nothing else. -/
theorem withTag_textField {limit : Nat} (hlimit : limit < 30) {record : History} {text : String}
    (hzero : '\x00' ∉ text.toList) (hlength : (Utf8.bytesOf text).length ≤ limit) (size : Nat) :
    withTag limit record (Tag.textField size text) = { record with tag := text } := by
  obtain ⟨rest, hfield⟩ := Tag.textField_eq_tagField size text
  rw [hfield, withTag_tagField hlimit (fitsTag_direct (by omega) hzero hlength), variant_zero]

/-- A field that is no longer than its text has not the form of a trigger. -/
theorem not_isTrigger_textField (text : String) :
    ¬ IsTrigger (Tag.textField ((Utf8.bytesOf text).length + 1) text) := by
  rw [Tag.textField_eq]
  rintro ⟨hlength, hhead⟩
  have hsize : (Utf8.bytesOf text).length = 17 := Nat.succ.inj hlength
  rw [hsize] at hhead
  exact absurd (Option.some.inj hhead) (by decide)

/-- The field of a trigger has the form of one. -/
theorem isTrigger_triggerField (trigger : TriggerType) (id : Octets 16) :
    IsTrigger (Tag.triggerField trigger id) :=
  ⟨congrArg (· + 2) id.length_toBytes, rfl⟩

end History

namespace Dialogue

/-! ## Records -/

/-- The text that a device is told for a tag: as much as it can keep, and nothing at all if it is a
bot of the third generation. -/
def toldText (d : Dialogue) (tag : String) : String :=
  if d.model = .sesameBot2 then ""
  else
    match d.osVersion with
    | .os2 => Utf8.truncate tag 21
    | _ => Utf8.truncate tag 29

/-- The beginning of an answer that holds a record, up to the field of the tag. -/
def IsRecordHead (d : Dialogue) (head : Bytes) : Prop :=
  match d.osVersion with
  | .os2 => History.HoldsOs2 head ∧ head.length = History.tagOffsetOs2
  | _ => History.HoldsOs3 head ∧ head.length = History.headSizeOs3

/-- The record that begins so, with the type of its head, a trigger and a tag. -/
def recordOf (d : Dialogue) (head : Bytes) (trigger : Option TriggerType) (tag : String) :
    History :=
  match d.osVersion with
  | .os2 => { History.readHeadOs2 head with trigger := trigger, tag := tag }
  | _ => { History.readHeadOs3 head with trigger := trigger, tag := tag }

variable (d : Dialogue) {head : Bytes}

/-- The text that is told is as long as the device can keep it. -/
theorem length_toldText_le (tag : String) :
    (Utf8.bytesOf (d.toldText tag)).length ≤ match d.osVersion with | .os2 => 21 | _ => 29 := by
  unfold toldText
  split
  · exact Nat.zero_le _
  split
  · exact Utf8.length_bytesOf_truncate_le ..
  · exact Utf8.length_bytesOf_truncate_le ..

/-- It has no zero character if the tag has none. -/
theorem zero_not_mem_toldText {tag : String} (h : '\x00' ∉ tag.toList) :
    '\x00' ∉ (d.toldText tag).toList := by
  unfold toldText
  split
  · decide
  split
  · exact fun hmem => h (Utf8.mem_of_mem_truncate hmem)
  · exact fun hmem => h (Utf8.mem_of_mem_truncate hmem)

/-- The field of a tag holds the text that is told; in the second generation it is filled up. -/
theorem tagField_eq (tag : String) :
    d.tagField d.model tag =
      Tag.textField (match d.osVersion with
        | .os2 => 22
        | _ => (Utf8.bytesOf (d.toldText tag)).length + 1) (d.toldText tag) := by
  obtain ⟨model, channel, login⟩ := d
  cases login <;> rfl

/-- The text of a command comes back. -/
theorem onHistory_tagField {tag : String} (hzero : '\x00' ∉ tag.toList)
    (hhead : d.IsRecordHead head) :
    d.onHistory (head ++ d.tagField d.model tag) =
      [.history (d.recordOf head none (d.toldText tag))] := by
  have hfield := d.tagField_eq tag
  have hlength := d.length_toldText_le tag
  have htold := d.zero_not_mem_toldText hzero
  rw [hfield]
  cases hlogin : d.login with
  | os2 keys =>
      have hos2 : d.osVersion = .os2 := by rw [osVersion, hlogin]
      simp only [IsRecordHead, recordOf, hos2] at hhead hlength ⊢
      change _ ≤ Tag.maxSizeOs2 at hlength
      rw [onHistory, hlogin]
      dsimp only
      rw [History.ofOs2_append hhead.1 hhead.2,
        History.withTag_textField (by decide) htold hlength]
      rfl
  | os3 secret setting status =>
      have hos3 : d.osVersion = .os3 := by rw [osVersion, hlogin]
      simp only [IsRecordHead, recordOf, hos3] at hhead hlength ⊢
      change _ ≤ Tag.maxSizeOs3 at hlength
      rw [onHistory, hlogin]
      dsimp only
      rw [History.ofOs3?_append hhead.1 hhead.2,
        History.parseTrigger?_eq_none (History.not_isTrigger_textField _)]
      dsimp only
      rw [History.withTag_textField (by decide) htold hlength]
      rfl

/-- The trigger of a command comes back. -/
theorem onHistory_triggerField (hos3 : d.osVersion = .os3) (hhead : d.IsRecordHead head)
    (trigger : TriggerType) (id : Octets 16) :
    d.onHistory (head ++ Tag.triggerField trigger id) =
      [.history (d.recordOf head (some trigger) (Hex.encode id.toBytes))] := by
  obtain ⟨secret, setting, status, hlogin⟩ := exists_login_os3 hos3
  have hread : Tag.parseTrigger? (Tag.triggerField trigger id) =
      some (some trigger, Hex.encode id.toBytes) := by
    rw [History.parseTrigger?_eq_some (History.isTrigger_triggerField trigger id)]
    show some (TriggerType.ofCode? trigger.code, Hex.encode id.toBytes) = _
    rw [TriggerType.ofCode?_code]
  simp only [IsRecordHead, recordOf, hos3] at hhead ⊢
  rw [onHistory, hlogin]
  dsimp only
  rw [History.ofOs3?_append hhead.1 hhead.2, hread]

/-- What comes back of the tags and the triggers of commands. -/
structure TagsComeBack (d : Dialogue) : Prop where
  /-- The text that the device was told comes back, without a trigger, in a record of the type that
  its head says. -/
  text : ∀ tag, '\x00' ∉ tag.toList → ∀ head, d.IsRecordHead head →
    d.onHistory (head ++ d.tagField d.model tag) =
      [.history (d.recordOf head none (d.toldText tag))]
  /-- A trigger comes back with the digits of its identifier. -/
  trigger : d.osVersion = .os3 → ∀ trigger id head, d.IsRecordHead head →
    d.onHistory (head ++ Tag.triggerField trigger id) =
      [.history (d.recordOf head (some trigger) (Hex.encode id.toBytes))]
  /-- So it does at a server that is given the command. -/
  server : ∀ trigger id host (t : Server.Turn) item, Server.isCommandItem item = true →
    t.session.state = .running → host.handler.isSome = true →
    Server.commands (Server.onCommand host t item (Tag.triggerField trigger id)).outputs =
      Server.commands t.outputs ++
        [.command t.session.id item (Hex.encode id.toBytes) (some trigger)]

/-- Every model that a client can control has a conversation of its generation. -/
theorem exists_ofModel? {model : Model} {version : OsVersion}
    (h : generation? model = some version) :
    ∃ d, ofModel? model = some d ∧ d.model = model ∧ d.osVersion = version := by
  cases model <;> cases h <;> exact ⟨_, rfl, rfl, rfl⟩

/-- **The tags of commands come back** as the device has been told them, in every conversation, and
so for every model that a client can control. -/
theorem tags_come_back :
    (∀ d : Dialogue, d.TagsComeBack) ∧
      ∀ model version, generation? model = some version →
        ∃ d, ofModel? model = some d ∧ d.model = model ∧ d.osVersion = version := by
  refine ⟨fun d => ?_, fun model version => exists_ofModel?⟩
  constructor
  · exact fun tag hzero head hhead => d.onHistory_tagField hzero hhead
  · exact fun hos3 trigger id head hhead => d.onHistory_triggerField hos3 hhead trigger id
  · intro trigger id host t item hitem hrunning hhandler
    rw [Server.commands_onCommand host t _ hitem, Server.commandOf,
      Server.readCommand?_triggerField hitem]
    dsimp only
    rw [if_pos ⟨hrunning, hhandler⟩]

/-- Of eight characters with three bytes each, a device of the second generation keeps seven, and
the command stays one over Bluetooth. -/
theorem tags_come_back_kana :
    let d : Dialogue := ⟨.sesame4, Channel.new .os2 .central, .os2 none⟩
    let head : Bytes := [2, 0, 0, 0, 0, 0, 1] ++ List.replicate 26 0
    '\x00' ∉ "ああああああああ".toList ∧ d.IsRecordHead head ∧
      d.onHistory (head ++ d.tagField .sesame4 "ああああああああ") =
        [.history { type := .bleLock, tag := "あああああああ" }] := by
  intro d head
  have hzero : '\x00' ∉ "ああああああああ".toList := by decide +kernel
  have hhead : d.IsRecordHead head := ⟨⟨rfl, by decide⟩, rfl⟩
  have hrecord : d.recordOf head none (d.toldText "ああああああああ") =
      { type := .bleLock, tag := "あああああああ" } := by decide +kernel
  exact ⟨hzero, hhead, hrecord ▸ (tags_come_back.1 d).text _ hzero head hhead⟩

end Dialogue

end SmartLock
