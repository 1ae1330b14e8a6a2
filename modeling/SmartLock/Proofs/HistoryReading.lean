/-
# History records of any bytes

The answer to a request for the history is whatever the device sends.  All that can be said of the
record that is read of it is said in `History.ReadsSoundly`: which tags there can be, what is left
of an answer that holds no record, and when a command over Bluetooth is taken for one from the web
or through a gateway.  It holds of every answer (`History.reads_soundly`), but for the third
generation only of those that are not empty: an empty answer is read as no record at all
(`History.not_forall_exists_readsSoundlyOs3`).
-/
import Mathlib.Data.List.GetD
import SmartLock.Proofs.HistoryRecords

namespace SmartLock.History

/-! ## Answers that hold a record -/

/-- An answer of the second generation that holds a record: it reports success, and its head is
whole. -/
def HoldsOs2 (body : Bytes) : Prop :=
  ResultCode.ofCode (body.getD 1 0) = .success ∧ 15 ≤ body.length

/-- An answer of the third generation that holds a record. -/
def HoldsOs3 (body : Bytes) : Prop :=
  ResultCode.ofCode (body.getD 0 0) = .success ∧ headSizeOs3 ≤ body.length

/-- What the head of an answer of the second generation says. -/
def readHeadOs2 (body : Bytes) : History :=
  { result := .success
    type := typeOs2 (body.getD 6 0)
    recordId := readInt32 (body.drop 2)
    time := readInt64 (body.drop 7) / 1000 }

/-- What the head of an answer of the third generation says. -/
def readHeadOs3 (body : Bytes) : History :=
  { result := .success
    type := (HistoryType.ofCode? (body.getD 5 0)).getD .none
    recordId := readInt32 (body.drop 1)
    time := (readUInt32 (body.drop 6)).toUInt64.toInt64 }

section Answers

variable {body : Bytes}

/-- A record of the second generation is its head and the tag of its field. -/
theorem ofOs2_of_holds (h : HoldsOs2 body) :
    ofOs2 body = withTag Tag.maxSizeOs2 (readHeadOs2 body) (body.drop tagOffsetOs2) := by
  obtain ⟨hresult, hlength⟩ := h
  match body with
  | [] | [_] => simp at hlength
  | op :: code :: rest =>
      change ResultCode.ofCode code = .success at hresult
      simp only [ofOs2, hresult, ne_eq, not_true_eq_false, decide_false, Bool.false_or,
        decide_eq_true_eq, if_neg (Nat.not_lt.mpr hlength)]
      rfl

/-- Of an answer of the second generation that holds no record only the result is left. -/
theorem ofOs2_of_not_holds (h : ¬ HoldsOs2 body) :
    ofOs2 body = { result := ResultCode.ofCode (body.getD 1 0) } := by
  match body with
  | [] | [_] => rfl
  | op :: code :: rest =>
      rw [ofOs2]
      apply if_pos
      rw [Bool.or_eq_true, decide_eq_true_eq, decide_eq_true_eq, ← Nat.not_le, ← not_and_or]
      exact h

/-- A record of the third generation is its head and the trigger or the tag of its field. -/
theorem ofOs3?_of_holds (h : HoldsOs3 body) :
    ofOs3? body =
      match Tag.parseTrigger? (body.drop headSizeOs3) with
      | some (trigger, id) => some { readHeadOs3 body with trigger := trigger, tag := id }
      | none => some (withTag Tag.maxSizeOs3 (readHeadOs3 body) (body.drop headSizeOs3)) := by
  obtain ⟨hresult, hlength⟩ := h
  match body with
  | [] => simp [headSizeOs3] at hlength
  | code :: rest =>
      change ResultCode.ofCode code = .success at hresult
      simp only [ofOs3?, hresult, ne_eq, not_true_eq_false, decide_false, Bool.false_or,
        decide_eq_true_eq, if_neg (Nat.not_lt.mpr hlength)]
      rfl

/-- Of an answer of the third generation that holds no record only the result is left, if there is
one. -/
theorem ofOs3?_of_not_holds (hne : body ≠ []) (h : ¬ HoldsOs3 body) :
    ofOs3? body = some { result := ResultCode.ofCode (body.getD 0 0) } := by
  match body with
  | [] => exact absurd rfl hne
  | code :: rest =>
      rw [ofOs3?]
      apply if_pos
      rw [Bool.or_eq_true, decide_eq_true_eq, decide_eq_true_eq, ← Nat.not_le, ← not_and_or]
      exact h

end Answers

section Heads

variable {head : Bytes}

/-- Bytes of the first of two parts. -/
theorem take_drop_append {n size : Nat} (h : n + size ≤ head.length) (rest : Bytes) :
    ((head ++ rest).drop n).take size = (head.drop n).take size := by
  rw [List.drop_append_of_le_length (by omega), List.take_append_of_le_length]
  rw [List.length_drop]
  omega

/-- What follows the head of an answer of the second generation does not change what it says. -/
theorem readHeadOs2_append (h : 15 ≤ head.length) (rest : Bytes) :
    readHeadOs2 (head ++ rest) = readHeadOs2 head := by
  have hid : ((head ++ rest).drop 2).take 4 = (head.drop 2).take 4 :=
    take_drop_append (by omega) rest
  have htype : (head ++ rest).getD 6 0 = head.getD 6 0 := List.getD_append _ _ _ _ (by omega)
  have htime : ((head ++ rest).drop 7).take 8 = (head.drop 7).take 8 := take_drop_append h rest
  simp only [readHeadOs2, readInt32, readUInt32, readInt64, hid, htype, htime]

/-- Neither does what follows the head of one of the third. -/
theorem readHeadOs3_append (h : headSizeOs3 ≤ head.length) (rest : Bytes) :
    readHeadOs3 (head ++ rest) = readHeadOs3 head := by
  rw [headSizeOs3] at h
  have hid : ((head ++ rest).drop 1).take 4 = (head.drop 1).take 4 :=
    take_drop_append (by omega) rest
  have htype : (head ++ rest).getD 5 0 = head.getD 5 0 := List.getD_append _ _ _ _ (by omega)
  have htime : ((head ++ rest).drop 6).take 4 = (head.drop 6).take 4 :=
    take_drop_append (by omega) rest
  simp only [readHeadOs3, readInt32, readUInt32, hid, htype, htime]

/-- An answer goes on holding a record when something follows. -/
theorem HoldsOs2.append (h : HoldsOs2 head) (rest : Bytes) : HoldsOs2 (head ++ rest) := by
  obtain ⟨hresult, hlength⟩ := h
  rw [HoldsOs2, List.getD_append _ _ _ _ (by omega), List.length_append]
  exact ⟨hresult, by omega⟩

/-- So it does in the third generation. -/
theorem HoldsOs3.append (h : HoldsOs3 head) (rest : Bytes) : HoldsOs3 (head ++ rest) := by
  obtain ⟨hresult, hlength⟩ := h
  have hpos : 0 < head.length := Nat.lt_of_lt_of_le (by decide) hlength
  rw [HoldsOs3, List.getD_append _ _ _ _ hpos, List.length_append]
  exact ⟨hresult, by omega⟩

/-- A head of the second generation and a field are read as the head with the tag of the field. -/
theorem ofOs2_append (h : HoldsOs2 head) (hlength : head.length = tagOffsetOs2) (field : Bytes) :
    ofOs2 (head ++ field) = withTag Tag.maxSizeOs2 (readHeadOs2 head) field := by
  rw [ofOs2_of_holds (h.append field), readHeadOs2_append h.2, List.drop_left' hlength]

/-- A head of the third generation and a field are read as the head with the trigger or the tag of
the field. -/
theorem ofOs3?_append (h : HoldsOs3 head) (hlength : head.length = headSizeOs3) (field : Bytes) :
    ofOs3? (head ++ field) =
      match Tag.parseTrigger? field with
      | some (trigger, id) => some { readHeadOs3 head with trigger := trigger, tag := id }
      | none => some (withTag Tag.maxSizeOs3 (readHeadOs3 head) field) := by
  rw [ofOs3?_of_holds (h.append field), readHeadOs3_append h.2, List.drop_left' hlength]

end Heads

/-! ## Tags -/

/-- A text that stands in a field after its length byte, as far as the field can be trusted. -/
structure StandsIn (limit : Nat) (field : Bytes) (text : String) : Prop where
  /-- There is no zero character in the text. -/
  zeroFree : '\x00' ∉ text.toList
  /-- The text is not too long. -/
  length : (Utf8.bytesOf text).length ≤ limit
  /-- Its bytes are the first ones after the length byte. -/
  copied : Utf8.bytesOf text <+: field.tail

/-- Thirty-two digits, all letters small ones. -/
def IsDigits (text : String) : Prop :=
  text.toList.length = 32 ∧ ∀ c ∈ text.toList, c ∈ "0123456789abcdef".toList

/-- A field without the text that it could hold stands for no text. -/
theorem standsIn_empty (limit : Nat) (field : Bytes) : StandsIn limit field "" :=
  ⟨by decide, Nat.zero_le _, List.nil_prefix⟩

/-- The text of a field stands in it, whatever its length byte says. -/
theorem standsIn_withTag {h : History} (htag : h.tag = "") (limit : Nat) (field : Bytes) :
    StandsIn limit field (withTag limit h field).tag := by
  cases field with
  | nil => exact htag ▸ standsIn_empty limit []
  | cons length rest =>
      let size := min (textLength length.toNat h.type) limit
      have hprefix : Utf8.bytesOf (Utf8.cleanupTail (rest.take size)) <+: rest.take size :=
        (Utf8.bytesOf_cleanupTail_prefix_takeWhile _).trans (List.takeWhile_prefix _)
      refine ⟨Utf8.zero_not_mem_cleanupTail _, ?_, hprefix.trans (List.take_prefix ..)⟩
      calc (Utf8.bytesOf (Utf8.cleanupTail (rest.take size))).length
          ≤ (rest.take size).length := hprefix.length_le
        _ ≤ size := List.length_take_le ..
        _ ≤ limit := Nat.min_le_right ..

/-- A number below sixteen has a small digit. -/
theorem digit_mem {n : Nat} (h : n < 16) : Hex.digit n ∈ "0123456789abcdef".toList := by
  revert n
  decide

/-- Sixteen bytes are written with thirty-two digits. -/
theorem isDigits_encode {id : Bytes} (h : id.length = 16) : IsDigits (Hex.encode id) := by
  rw [IsDigits, Hex.encode, String.toList_ofList]
  constructor
  · rw [Hex.length_digits, h]
  · intro c hc
    obtain ⟨x, -, hx⟩ := List.mem_flatMap.mp hc
    have hlt := x.toNat_lt
    simp only [List.mem_cons, List.not_mem_nil, or_false] at hx
    rcases hx with rfl | rfl
    · exact digit_mem (by omega)
    · exact digit_mem (by omega)

/-! ## Types -/

/-- The types of commands from the web. -/
def IsWeb (type : HistoryType) : Prop := type = .webLock ∨ type = .webUnlock

/-- The types of commands through a gateway. -/
def IsGateway (type : HistoryType) : Prop := type = .wm2Lock ∨ type = .wm2Unlock

/-- The types of commands over Bluetooth. -/
def IsDirect (type : HistoryType) : Prop := type = .bleLock ∨ type = .bleUnlock

/-- A command over Bluetooth is taken for one from the web or through a gateway only if the length
byte of the field says so. -/
structure TakenRemote (field : Bytes) (type : HistoryType) : Prop where
  web : IsWeb type → ∃ length ∈ field.head?, 60 ≤ length.toNat
  gateway : IsGateway type → ∃ length ∈ field.head?, 30 ≤ length.toNat ∧ length.toNat < 60

/-- A type that is neither is taken for neither. -/
theorem takenRemote_of_not {field : Bytes} {type : HistoryType} (hweb : ¬ IsWeb type)
    (hgateway : ¬ IsGateway type) : TakenRemote field type :=
  ⟨fun h => absurd h hweb, fun h => absurd h hgateway⟩

/-- A command over Bluetooth is none of the other two. -/
theorem takenRemote_of_isDirect {field : Bytes} {type : HistoryType} (h : IsDirect type) :
    TakenRemote field type := by
  rcases h with rfl | rfl
  · exact takenRemote_of_not (by simp [IsWeb]) (by simp [IsGateway])
  · exact takenRemote_of_not (by simp [IsWeb]) (by simp [IsGateway])

/-- What the length byte makes of a command over Bluetooth. -/
theorem isWeb_reclassify_iff {type : HistoryType} (h : IsDirect type) (length : Nat) :
    (IsWeb (reclassify length type) ↔ 60 ≤ length) ∧
      (IsGateway (reclassify length type) ↔ 30 ≤ length ∧ length < 60) := by
  by_cases hweb : 60 ≤ length
  · rcases h with rfl | rfl <;> simp [reclassify, hweb, IsWeb, IsGateway]
  by_cases hgateway : 30 ≤ length
  · have hlt : length < 60 := Nat.lt_of_not_le hweb
    rcases h with rfl | rfl <;> simp [reclassify, hweb, hgateway, hlt, IsWeb, IsGateway]
  · rcases h with rfl | rfl <;> simp [reclassify, hweb, hgateway, IsWeb, IsGateway]

/-- The field of a text makes of a command over Bluetooth what its length byte says. -/
theorem takenRemote_withTag {h : History} (hdirect : IsDirect h.type) (limit : Nat)
    (field : Bytes) : TakenRemote field (withTag limit h field).type := by
  cases field with
  | nil => exact takenRemote_of_isDirect hdirect
  | cons length rest =>
      obtain ⟨hweb, hgateway⟩ := isWeb_reclassify_iff hdirect length.toNat
      exact ⟨fun h => ⟨length, rfl, hweb.mp h⟩, fun h => ⟨length, rfl, hgateway.mp h⟩⟩

/-! ## Records -/

/-- The second generation knows no click over Bluetooth. -/
theorem typeOs2_ne_bleClick (code : UInt8) : typeOs2 code ≠ .bleClick := by
  intro htype
  unfold typeOs2 at htype
  dsimp only at htype
  split at htype
  · cases htype
  · rename_i hknown
    -- the code can only be that of the click, which lies above those of the web
    have hcode : HistoryType.ofCode? code = some .bleClick := by
      cases hread : HistoryType.ofCode? code with
      | none => rw [hread] at htype; cases htype
      | some type => rw [hread] at htype; exact congrArg some htype
    have hbyte : HistoryType.bleClick.code = code := by
      simpa using List.find?_some hcode
    rw [htype, ← hbyte] at hknown
    exact hknown (by decide)

/-- The length byte makes no other command a click. -/
theorem reclassify_ne_bleClick {type : HistoryType} (h : type ≠ .bleClick) (length : Nat) :
    reclassify length type ≠ .bleClick := by
  cases type with
  | bleLock => rw [reclassify]; split <;> [skip; split] <;> decide
  | bleUnlock => rw [reclassify]; split <;> [skip; split] <;> decide
  | bleClick => exact absurd rfl h
  | _ => exact h

/-- Neither does a field. -/
theorem type_withTag_ne_bleClick {h : History} (htype : h.type ≠ .bleClick) (limit : Nat)
    (field : Bytes) : (withTag limit h field).type ≠ .bleClick := by
  cases field with
  | nil => exact htype
  | cons length rest => exact reclassify_ne_bleClick htype length.toNat

/-- A field of a text sets no trigger off. -/
theorem trigger_withTag (limit : Nat) (h : History) (field : Bytes) :
    (withTag limit h field).trigger = h.trigger := by
  cases field <;> rfl

/-- A record that says nothing. -/
structure SaysNothing (h : History) : Prop where
  recordId : h.recordId = 0
  time : h.time = 0
  type : h.type = .none
  trigger : h.trigger = none
  tag : h.tag = ""

/-- A result alone says nothing. -/
theorem saysNothing_of_result (result : ResultCode) : SaysNothing { result := result } :=
  ⟨rfl, rfl, rfl, rfl, rfl⟩

/-- The tag and the trigger of a record of the third generation. -/
inductive Tagged (field : Bytes) (h : History) : Prop
  /-- A text that stands in the field. -/
  | text (htrigger : h.trigger = none) (htag : StandsIn Tag.maxSizeOs3 field h.tag)
  /-- The digits of an identifier, in a field that has the form of a trigger. -/
  | trigger (hform : IsTrigger field) (htag : IsDigits h.tag)

/-- What can be said of the record of an answer of the second generation. -/
structure ReadsSoundlyOs2 (body : Bytes) (h : History) : Prop where
  /-- The tag is a text out of the answer. -/
  tag : StandsIn Tag.maxSizeOs2 (body.drop tagOffsetOs2) h.tag
  /-- There are no triggers. -/
  trigger : h.trigger = none
  /-- There are no clicks over Bluetooth. -/
  type : h.type ≠ .bleClick
  /-- A failure and an answer that is too short say nothing. -/
  nothing : ¬ HoldsOs2 body → h.SaysNothing
  /-- Commands over Bluetooth are what the length byte makes of them. -/
  remote : ∀ type, IsDirect type → body.getD 6 0 = type.code →
    TakenRemote (body.drop tagOffsetOs2) h.type

/-- What can be said of the record of an answer of the third generation. -/
structure ReadsSoundlyOs3 (body : Bytes) (h : History) : Prop where
  /-- The tag is a text out of the answer or the identifier of a trigger. -/
  tag : Tagged (body.drop headSizeOs3) h
  /-- A failure and an answer that is too short say nothing. -/
  nothing : ¬ HoldsOs3 body → h.SaysNothing
  /-- Commands over Bluetooth are what the length byte makes of them. -/
  remote : ∀ type, IsDirect type → body.getD 5 0 = type.code →
    TakenRemote (body.drop headSizeOs3) h.type

/-- A result alone is all that an answer without a record can be. -/
theorem readsSoundlyOs2_of_not_holds {body : Bytes} (h : ¬ HoldsOs2 body) :
    ReadsSoundlyOs2 body (ofOs2 body) := by
  have hnothing : SaysNothing (ofOs2 body) := ofOs2_of_not_holds h ▸ saysNothing_of_result _
  have htype : (ofOs2 body).type = .none := hnothing.type
  refine ⟨?_, hnothing.trigger, ?_, fun _ => hnothing, fun _ _ _ => ?_⟩
  · exact hnothing.tag ▸ standsIn_empty ..
  · rw [htype]; decide
  · rw [htype]; exact takenRemote_of_not (by simp [IsWeb]) (by simp [IsGateway])

/-- A record of the second generation. -/
theorem readsSoundlyOs2_of_holds {body : Bytes} (h : HoldsOs2 body) :
    ReadsSoundlyOs2 body (ofOs2 body) := by
  rw [ofOs2_of_holds h]
  refine ⟨standsIn_withTag rfl .., trigger_withTag .., ?_, fun hnot => absurd h hnot, ?_⟩
  · apply type_withTag_ne_bleClick
    exact typeOs2_ne_bleClick _
  · intro type hdirect hcode
    apply takenRemote_withTag
    show IsDirect (typeOs2 (body.getD 6 0))
    rw [hcode, typeOs2_code]
    rcases hdirect with rfl | rfl
    · exact .inl rfl
    · exact .inr rfl

/-- An answer without a record says nothing in the third generation, too. -/
theorem readsSoundlyOs3_of_saysNothing {body : Bytes} {h : History} (hnothing : h.SaysNothing) :
    ReadsSoundlyOs3 body h := by
  refine ⟨.text hnothing.trigger ?_, fun _ => hnothing, fun _ _ _ => ?_⟩
  · exact hnothing.tag ▸ standsIn_empty ..
  · rw [hnothing.type]
    exact takenRemote_of_not (by simp [IsWeb]) (by simp [IsGateway])

/-- A record of the third generation. -/
theorem exists_readsSoundlyOs3 {body : Bytes} (hne : body ≠ []) :
    ∃ h, ofOs3? body = some h ∧ ReadsSoundlyOs3 body h := by
  by_cases hholds : HoldsOs3 body
  · have hdirect (type : HistoryType) (htype : IsDirect type) (hcode : body.getD 5 0 = type.code) :
        IsDirect (readHeadOs3 body).type := by
      show IsDirect ((HistoryType.ofCode? (body.getD 5 0)).getD .none)
      rw [hcode, HistoryType.ofCode?_code]
      exact htype
    rw [ofOs3?_of_holds hholds]
    by_cases htrigger : IsTrigger (body.drop headSizeOs3)
    · rw [parseTrigger?_eq_some htrigger]
      refine ⟨_, rfl, .trigger htrigger (isDigits_encode ?_), fun hnot => absurd hholds hnot, ?_⟩
      · rw [List.length_drop, htrigger.1]
        rfl
      · exact fun type htype hcode => takenRemote_of_isDirect (hdirect type htype hcode)
    · rw [parseTrigger?_eq_none htrigger]
      refine ⟨_, rfl, .text (trigger_withTag ..) (standsIn_withTag rfl ..),
        fun hnot => absurd hholds hnot, ?_⟩
      exact fun type htype hcode => takenRemote_withTag (hdirect type htype hcode) ..
  · exact ⟨_, ofOs3?_of_not_holds hne hholds,
      readsSoundlyOs3_of_saysNothing (saysNothing_of_result _)⟩

/-- **What any answer is read as.**  Whatever bytes the device sends, the second generation reads a
record of which all this can be said, and so does the third, unless there are no bytes at all: then
there is no record. -/
theorem reads_soundly (body : Bytes) :
    ReadsSoundlyOs2 body (ofOs2 body) ∧
      (body ≠ [] → ∃ h, ofOs3? body = some h ∧ ReadsSoundlyOs3 body h) ∧
      (body = [] → ofOs3? body = none) := by
  refine ⟨?_, exists_readsSoundlyOs3, fun hnil => hnil ▸ rfl⟩
  by_cases h : HoldsOs2 body
  · exact readsSoundlyOs2_of_holds h
  · exact readsSoundlyOs2_of_not_holds h

/-- A length byte that says more than there is, before a text that is cut inside a character. -/
theorem reads_soundly_cutText :
    let body : Bytes := [0, 210, 4, 0, 0, 1, 0, 241, 83, 101, 0, 0, 0, 0, 0, 0, 0, 255, 111, 0xC3]
    body ≠ [] ∧ HoldsOs3 body ∧ ∃ h, ofOs3? body = some h ∧ ReadsSoundlyOs3 body h ∧
      h.type = .webLock ∧ h.tag = "o" := by
  intro body
  obtain ⟨h, hread, hsound⟩ := (reads_soundly body).2.1 (by decide)
  have hexplicit : ofOs3? body = some
      { type := .webLock, recordId := 1234, time := 1700000000, tag := "o" } := by decide +kernel
  obtain rfl := Option.some.inj (hread.symm.trans hexplicit)
  exact ⟨by decide, ⟨rfl, by decide⟩, _, hread, hsound, rfl, rfl⟩

/-- Not every answer of the third generation is read as such a record: the empty one is read as no
record. -/
theorem not_forall_exists_readsSoundlyOs3 :
    ¬ ∀ body : Bytes, ∃ h, ofOs3? body = some h ∧ ReadsSoundlyOs3 body h := by
  intro h
  obtain ⟨_, hread, -⟩ := h []
  cases hread

end SmartLock.History
