/-
# A client that talks to a server

What a client that is active in the third generation does on its link (`Client.Talks`).  A command
is one encrypted message, from which a server reads the item, the tag and the trigger of the command,
and nothing else (`Client.Talks.call`).  The reports of a status and the answers to commands leave
the client active, and it sends nothing in return (`Client.Talks.hear`).
-/
import SmartLock.Proofs.Client.LoginSteps
import SmartLock.Proofs.Server.Commands
import SmartLock.Proofs.Text.Utf8

namespace SmartLock

/-! ## Fields -/

namespace Tag

/-- The text that a device of the third generation is told for a tag; a bot is told none. -/
def textFor (model : Model) (tag : String) : String :=
  if model = .sesameBot2 then "" else Utf8.truncate tag maxSizeOs3

/-- It is short. -/
theorem length_textFor_le (model : Model) (tag : String) :
    (Utf8.bytesOf (textFor model tag)).length ≤ maxSizeOs3 := by
  unfold textFor
  split
  · exact Nat.zero_le _
  · exact Utf8.length_bytesOf_truncate_le ..

/-- A field that is no longer than its text is the length of the text and its bytes. -/
theorem textField_eq (text : String) :
    textField ((Utf8.bytesOf text).length + 1) text =
      UInt8.ofNat (Utf8.bytesOf text).length :: Utf8.bytesOf text := by
  simp [textField]

end Tag

namespace Server

/-- From the field of a text the server reads the text, also if it is empty. -/
theorem readTag_textField {text : String} (h : (Utf8.bytesOf text).length < 256) :
    readTag (UInt8.ofNat (Utf8.bytesOf text).length).toNat
      (Tag.textField ((Utf8.bytesOf text).length + 1) text) = (text, none) := by
  have hsize : (UInt8.ofNat (Utf8.bytesOf text).length).toNat = (Utf8.bytesOf text).length :=
    Nat.mod_eq_of_lt h
  rw [hsize, Tag.textField_eq, readTag]
  split
  · simp
  · -- Without a byte there is nothing that could be taken for a trigger.
    have hnil : Utf8.bytesOf text = [] := List.eq_nil_of_length_eq_zero (by omega)
    have hempty : text = "" := by
      rw [← Utf8.decodeLossy_bytesOf text, hnil]
      rfl
    rw [hnil, hempty]
    rfl

/-- From the field of a trigger the server reads the digits of its identifier, and its kind. -/
theorem readTag_triggerField (trigger : TriggerType) (id : Octets 16) :
    readTag 0 (Tag.triggerField trigger id) = (Hex.encode id.toBytes, some trigger) := by
  simp [readTag, Tag.triggerField, Tag.parseTrigger?, id.length_toBytes]

/-- A command with a text is read as what it is. -/
theorem readCommand?_textField {item : ItemCode} (hitem : isCommandItem item = true) {text : String}
    (h : (Utf8.bytesOf text).length < 256) :
    readCommand? (item.code :: Tag.textField ((Utf8.bytesOf text).length + 1) text) =
      some (item, text, none) := by
  have hread := readTag_textField h
  have hsize : (UInt8.ofNat (Utf8.bytesOf text).length).toNat = (Utf8.bytesOf text).length :=
    Nat.mod_eq_of_lt h
  rw [Tag.textField_eq] at hread ⊢
  simp only [readCommand?, ItemCode.ofCode?_code, hitem, hread]
  simp [hsize]

/-- A command with a trigger is read as what it is. -/
theorem readCommand?_triggerField {item : ItemCode} (hitem : isCommandItem item = true)
    (trigger : TriggerType) (id : Octets 16) :
    readCommand? (item.code :: Tag.triggerField trigger id) =
      some (item, Hex.encode id.toBytes, some trigger) := by
  have hread := readTag_triggerField trigger id
  rw [Tag.triggerField] at hread ⊢
  simp only [readCommand?, ItemCode.ofCode?_code, hitem]
  simpa using hread

end Server

/-! ## Conversations of the third generation -/

/-- The generation of a login. -/
def Login.osVersion : Login → OsVersion
  | .os2 _ => .os2
  | .os3 .. => .os3

namespace Dialogue

variable {d : Dialogue} (h : d.osVersion = .os3)

include h

/-- They have a login of the third generation. -/
theorem exists_login_os3 : ∃ secret setting status, d.login = .os3 secret setting status := by
  cases hlogin : d.login with
  | os2 keys => simp [osVersion, hlogin] at h
  | os3 secret setting status => exact ⟨secret, setting, status, rfl⟩

/-- A message begins with its item. -/
theorem head_os3 (op : OpCode) (item : ItemCode) : d.head op item = [item.code] := by
  obtain ⟨secret, setting, status, hlogin⟩ := exists_login_os3 h
  simp only [head, hlogin]

/-- The field of a text tag is no longer than the text that the device is told. -/
theorem tagField_os3 (tag : String) :
    d.tagField d.model tag =
      Tag.textField ((Utf8.bytesOf (Tag.textFor d.model tag)).length + 1)
        (Tag.textFor d.model tag) := by
  obtain ⟨secret, setting, status, hlogin⟩ := exists_login_os3 h
  simp only [tagField, maxTagSize, tagFieldSize, hlogin, Tag.textFor]

/-- A report of a status moves the conversation of an active client on, over the same end of the
link, and leaves it active. -/
theorem onStatus_active (body : Bytes) :
    (d.onStatus .active body).1.channel = d.channel ∧ (d.onStatus .active body).1.model = d.model ∧
      (d.onStatus .active body).1.osVersion = .os3 ∧
      .disconnect ∉ (d.onStatus .active body).2 ∧
      (d.onStatus .active body).2.foldl Event.next .active = .active := by
  rcases d.onStatus_cases .active body with
    ⟨hsame, hnews⟩ | ⟨secret, setting, status, hlogin, hreports, hnew, hopen, hnext⟩
  · rw [hsame]
    exact ⟨rfl, rfl, h, Event.not_mem_of_news hnews, Event.foldl_next_of_news hnews .active⟩
  · rw [hnew]
    refine ⟨rfl, rfl, rfl, hopen, ?_⟩
    rw [hnext]
    cases setting <;> rfl

end Dialogue

/-- A model that a client talks to in the third generation is one of this generation. -/
theorem Dialogue.osVersion_of_generation? {model : Model} (h : generation? model = some .os3) :
    model.osVersion = .os3 := by
  revert h
  cases model <;> decide

/-! ## Commands -/

namespace Client

/-- The command of the third generation that a request to the client stands for, as the server
should be given it: its item, its tag and its trigger. -/
def Request.command? (model : Model) :
    Request → Option (ItemCode × String × Option TriggerType)
  | .unlock tag => some (.unlock, Tag.textFor model tag, none)
  | .lock tag => some (.lock, Tag.textFor model tag, none)
  | .unlockWithTrigger trigger id => some (.unlock, Hex.encode id.toBytes, some trigger)
  | .lockWithTrigger trigger id => some (.lock, Hex.encode id.toBytes, some trigger)
  | _ => none

/-- The client sends one short message, which a server reads as this command. -/
def Conveys (host : ClientHost) (c : Client) (d : Dialogue)
    (command : ItemCode × String × Option TriggerType) (outcome : ClientOutcome) : Prop :=
  ∃ body, outcome = sendCommand host c d .async command.1 body ∧ body.length ≤ 30 ∧
    Server.readCommand? (command.1.code :: body) = some command

section Conveys

variable (host : ClientHost) {c : Client} {d : Dialogue} (hactive : c.activeDialogue = .ok d)

include hactive

/-- A command with a text tag. -/
theorem conveys_sendTagged (hos3 : d.osVersion = .os3) {item : ItemCode}
    (hitem : Server.isCommandItem item = true) (tag : String) :
    Conveys host c d (item, Tag.textFor d.model tag, none) (sendTagged host c item tag) := by
  have hsize := Tag.length_textFor_le d.model tag
  rw [Tag.maxSizeOs3] at hsize
  refine ⟨d.tagField d.model tag, ?_, ?_, ?_⟩
  · rw [sendTagged, hactive]
  · rw [Dialogue.tagField_os3 hos3, Tag.textField_eq, List.length_cons]
    omega
  · rw [Dialogue.tagField_os3 hos3]
    exact Server.readCommand?_textField hitem (by omega)

/-- A command with a trigger. -/
theorem conveys_sendTriggered (hgeneration : Dialogue.generation? d.model = some .os3)
    {item : ItemCode} (hitem : Server.isCommandItem item = true) (operation : String)
    (trigger : TriggerType) (id : Octets 16) :
    Conveys host c d (item, Hex.encode id.toBytes, some trigger)
      (sendTriggered host c item operation trigger id) := by
  refine ⟨Tag.triggerField trigger id, ?_, ?_, Server.readCommand?_triggerField hitem trigger id⟩
  · rw [sendTriggered, hactive]
    exact if_neg (not_not_intro (Dialogue.osVersion_of_generation? hgeneration))
  · simp [Tag.triggerField, id.length_toBytes]

/-- Every request that stands for a command. -/
theorem conveys_of_command? (hos3 : d.osVersion = .os3)
    (hgeneration : Dialogue.generation? d.model = some .os3) {request : Request}
    {command : ItemCode × String × Option TriggerType}
    (hcommand : request.command? d.model = some command) :
    Conveys host c d command (c.step host request) := by
  cases request with
  | unlock tag =>
      cases hcommand
      exact conveys_sendTagged host hactive hos3 rfl tag
  | lock tag =>
      cases hcommand
      -- The one model that cannot be locked this way is not of the third generation.
      have hbike : ¬ c.model = some .sesameBike := by
        intro hbike
        rw [Client.model, dialogue_of_activeDialogue hactive, Option.map_some,
          Option.some_inj] at hbike
        rw [hbike] at hgeneration
        cases hgeneration
      rw [step, lock, if_neg hbike]
      exact conveys_sendTagged host hactive hos3 rfl tag
  | unlockWithTrigger trigger id =>
      cases hcommand
      exact conveys_sendTriggered host hactive hgeneration rfl ..
  | lockWithTrigger trigger id =>
      cases hcommand
      exact conveys_sendTriggered host hactive hgeneration rfl ..
  | _ => cases hcommand

end Conveys

/-! ## Talking -/

/-- The client is active and talks to a device of a model of the third generation, over its end of a
link. -/
structure Talks (model : Model) (channel : Channel) (c : Client) : Prop where
  active : c.state = .active
  dialogue : ∃ d, c.dialogue = some d ∧ d.channel = channel ∧ d.model = model ∧ d.osVersion = .os3
  generation : Dialogue.generation? model = some .os3

/-- The conversation is in the generation of its model. -/
def InGeneration (s : Dialogue.Standing) : Prop :=
  Dialogue.generation? s.model = some s.login.osVersion

/-- No request takes a conversation out of its generation. -/
theorem inGeneration_step {c : Client} (h : ∀ s, c.standing? = some s → InGeneration s) (m : Moment)
    {s : Dialogue.Standing} (hs : (c.step m.host m.request).client.standing? = some s) :
    InGeneration s := by
  -- The messages and the keys change the login within its generation.
  have hlogin {d : Dialogue} (hd : c.standing? = some d.standing) {login : Login}
      (hversion : login.osVersion = d.osVersion) :
      InGeneration { d.standing with login := login } := by
    have hmodel : Dialogue.generation? d.model = some d.osVersion := h _ hd
    exact hmodel.trans (congrArg some hversion.symm)
  cases effect_step c m with
  | keep _ hstanding => exact h s (hstanding.symm.trans hs)
  | begin model d _ hd _ hstanding =>
      obtain rfl := Option.some.inj (hs.symm.trans hstanding)
      rcases Dialogue.standing_of_ofModel? hd with ⟨hmodel, hnew⟩ | ⟨hmodel, hnew⟩ <;> rw [hnew] <;>
        exact hmodel
  | setKeysOs2 d old new hd hold _ hstanding =>
      obtain rfl := Option.some.inj (hs.symm.trans hstanding)
      exact hlogin (standing?_of_dialogue hd) (by rw [Dialogue.osVersion, hold]; rfl)
  | setKeysOs3 d old new setting status _ hd hold _ hstanding =>
      obtain rfl := Option.some.inj (hs.symm.trans hstanding)
      exact hlogin (standing?_of_dialogue hd) (by rw [Dialogue.osVersion, hold]; rfl)
  | encrypt d key _ hactive _ _ hstanding =>
      obtain rfl := Option.some.inj (hs.symm.trans hstanding)
      exact h d.standing (standing?_of_dialogue (dialogue_of_activeDialogue hactive))
  | drop _ hstanding =>
      obtain ⟨old, hold, rfl⟩ := Option.map_eq_some_iff.mp (hstanding.symm.trans hs)
      exact h old hold
  | opening d body key own hhears _ _ _ hstanding =>
      obtain rfl := Option.some.inj (hs.symm.trans hstanding)
      exact h d.standing hhears.standing?
  | accept d body hhears _ _ hstanding =>
      obtain rfl := Option.some.inj (hs.symm.trans hstanding)
      rw [Dialogue.standing_accepted]
      refine hlogin hhears.standing? ?_
      unfold Dialogue.accepted Dialogue.osVersion
      cases hd : d.login <;> simp only [hd, Login.osVersion]
  | setting d body old setting status hhears _ hold _ hstanding =>
      obtain rfl := Option.some.inj (hs.symm.trans hstanding)
      exact hlogin hhears.standing? (by rw [Dialogue.osVersion, hold]; rfl)
  | status d body old setting status hhears _ hold _ hstanding =>
      obtain rfl := Option.some.inj (hs.symm.trans hstanding)
      exact hlogin hhears.standing? (by rw [Dialogue.osVersion, hold]; rfl)

/-- In every run of a new client its conversation is in the generation of its model. -/
theorem inGeneration_run (random : RandomSource) (ms : List Moment) {s : Dialogue.Standing}
    (hs : ((Client.new random).run ms).1.standing? = some s) : InGeneration s := by
  induction ms using List.reverseRecOn generalizing s with
  | nil => cases hs
  | append_singleton ms m ih =>
      rw [run_concat] at hs
      exact inGeneration_step (fun _ => ih) m hs

/-- Whatever a new client has been through, when it is active in the third generation, it talks. -/
theorem talks_run {random : RandomSource} {ms : List Moment} {d : Dialogue}
    (hactive : ((Client.new random).run ms).1.state = .active)
    (hd : ((Client.new random).run ms).1.dialogue = some d) (hos3 : d.osVersion = .os3) :
    Talks d.model d.channel ((Client.new random).run ms).1 := by
  refine ⟨hactive, ⟨d, hd, rfl, rfl, hos3⟩, ?_⟩
  have hmodel := inGeneration_run random ms (standing?_of_dialogue hd)
  exact hmodel.trans (congrArg some hos3)

/-- When the link takes everything, a command succeeds, and its message goes out whole. -/
theorem Talks.call {model : Model} {channel : Channel} {c : Client} (h : c.Talks model channel)
    {key : Key} (hkey : channel.cipher.key = some key) {host : ClientHost}
    (htakes : ∀ outputs fragment, host.takes outputs fragment = true) {request : Request}
    {command : ItemCode × String × Option TriggerType}
    (hcommand : request.command? model = some command) :
    ∃ writer body, Fragment.TakesAll writer ∧ body.length ≤ 31 ∧
      Server.readCommand? body = some command ∧ (c.step host request).result = .ok () ∧
      Talks model (channel.send writer body true).channel (c.step host request).client ∧
      (c.step host request).outputs =
        (channel.send writer body true).offer.taken.map (.write · true) := by
  obtain ⟨d, hd, rfl, rfl, hos3⟩ := h.dialogue
  have hactive : c.activeDialogue = .ok d := activeDialogue_eq_ok_iff.mpr ⟨hd, h.active⟩
  obtain ⟨body, hstep, hlength, hread⟩ :=
    conveys_of_command? host hactive hos3 h.generation hcommand
  have hwriter : Fragment.TakesAll (({ client := c } : ClientTurn).writer host) :=
    fun _ _ => htakes _ _
  have hsendable : (⟨command.1.code :: body, true⟩ : Message).Sendable := by
    rw [Message.Sendable, if_pos rfl, List.length_cons]
    exact Nat.le_trans (Nat.succ_le_succ hlength) (by decide)
  have hsent := Channel.send_of_takesAll hkey hsendable hwriter
  refine ⟨_, command.1.code :: body, hwriter, Nat.succ_le_succ hlength, hread, ?_, ?_, ?_⟩
  · rw [hstep, sendCommand, Dialogue.send, Dialogue.head_os3 hos3, List.singleton_append, hsent]
    rfl
  · rw [hstep]
    refine ⟨h.active, ⟨_, rfl, ?_, rfl, hos3⟩, h.generation⟩
    rw [Dialogue.send, Dialogue.head_os3 hos3, List.singleton_append]
  · rw [hstep, sendCommand, Dialogue.send, Dialogue.head_os3 hos3, List.singleton_append, hsent]
    simp [ClientTurn.writes]

/-! ## Hearing -/

/-- A message of a server at work: a report of its status, or the answer to a command. -/
def AtWork (message : Bytes) : Prop :=
  (∃ body, message = OpCode.publish.code :: ItemCode.mechStatus.code :: body) ∨
    ∃ item body, Server.isCommandItem item = true ∧
      message = OpCode.response.code :: item.code :: body

/-- What comes from a server at work leaves the client active, and it sends nothing in return. -/
theorem Talks.hear {model : Model} {channel : Channel} {c : Client} {fragment : Bytes}
    (h : c.Talks model channel) (host : ClientHost)
    (hreceived : (channel.receive fragment).2.IsQuiet ∨ ∃ message authenticated,
      (channel.receive fragment).2 = .complete message authenticated ∧ AtWork message) :
    Talks model (channel.receive fragment).1 (receive host c fragment).client ∧
      (receive host c fragment).outputs.all ClientOutput.isTold = true := by
  obtain ⟨d, hd, rfl, rfl, hos3⟩ := h.dialogue
  -- The client when it has only taken the fragment in.
  have hheard : Talks d.model (d.channel.receive fragment).1 (heard c d fragment).client :=
    ⟨h.active, ⟨d.hearing fragment, rfl, rfl, rfl, hos3⟩, h.generation⟩
  rcases hreceived with hquiet | ⟨message, authenticated, hreceived, ⟨body, rfl⟩ |
    ⟨item, body, hitem, rfl⟩⟩
  · rw [receive_of_isQuiet host hd hquiet]
    exact ⟨hheard, rfl⟩
  · rw [receive_of_complete host hd hreceived, onMessage_publish, onPublish]
    have hstate : (heard c d fragment).client.state = .active := h.active
    obtain ⟨hchannel, hmodel, hnew, hopen, hstays⟩ :=
      Dialogue.onStatus_active (d := d.hearing fragment) hos3 body
    rw [hstate]
    generalize (d.hearing fragment).onStatus .active body = moved
      at hchannel hmodel hnew hopen hstays
    dsimp only
    obtain ⟨hdialogue, hnext⟩ := ClientTurn.apply_of_not_mem host
      { heard c d fragment with
        client := (heard c d fragment).client.withDialogue moved.1 } hopen
    obtain ⟨told, houtputs, htold⟩ := ClientTurn.outputs_apply_of_not_mem host
      { heard c d fragment with
        client := (heard c d fragment).client.withDialogue moved.1 } hopen
    refine ⟨⟨?_, ⟨moved.1, hdialogue, hchannel, hmodel, hnew⟩, h.generation⟩, ?_⟩
    · exact hnext.trans ((congrArg (moved.2.foldl Event.next) hstate).trans hstays)
    · rw [houtputs]
      exact htold
  · rw [receive_of_complete host hd hreceived, onMessage_response]
    cases item <;> first | exact ⟨hheard, rfl⟩ | cases hitem

end Client

end SmartLock
