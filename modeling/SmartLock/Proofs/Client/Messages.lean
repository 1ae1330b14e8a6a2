/-
# What the device's messages and the requests make of a client

From which messages a client may learn something about its device (`Dialogue.informs`), and with
which ones it may become active (`Dialogue.activates`).  Every other message is calm, and so is
every request but the beginning and the receipt of a fragment (`Client.calm_step`).
-/
import SmartLock.Proofs.Client.Turns

namespace SmartLock

namespace Dialogue

/-- Whether a client may learn something from a message about this item. -/
def informs (d : Dialogue) : OpCode → ItemCode → Bool
  | .publish, .pubSsmKey | .publish, .mechSetting | .publish, .mechStatus
  | .response, .mechStatus | .response, .history => true
  | .response, .login => d.osVersion = .os2
  | _, _ => false

/-- Whether a client may become active with a message about this item: in the second generation with
the answer to its login, in the third with the setting or the status that follow. -/
def activates (d : Dialogue) : OpCode → ItemCode → Bool
  | .response, .login => d.osVersion = .os2
  | .publish, .mechSetting | .publish, .mechStatus => d.osVersion = .os3
  | _, _ => false

/-! ## Events of messages -/

/-- A login that is sent has begun, and one that cannot be sent ends the connection. -/
theorem events_ofSent (sent : Sent) (random : RandomSource) :
    (Opening.ofSent sent random).events = [.disconnect] ∨
      (Opening.ofSent sent random).events = [.state .authenticating] := by
  unfold Opening.ofSent
  dsimp only
  split
  · exact .inr rfl
  · exact .inl rfl

/-- The same for the login of the second generation. -/
theorem events_openOs2 (d : Dialogue) (writer : Fragment.Writer) (random : RandomSource)
    (keys : DeviceKeys) (device : Token) :
    (d.openOs2 writer random keys device).events = [.disconnect] ∨
      (d.openOs2 writer random keys device).events = [.state .authenticating] := by
  rw [openOs2]
  rcases random.draw tokenSize with ⟨own, afterToken⟩
  dsimp only
  rcases PrivateKey.generate afterToken with ⟨fresh, afterKey⟩
  dsimp only
  cases fresh.sharedKey keys.publicKey with
  | error error => exact .inl rfl
  | ok shared => exact events_ofSent ..

/-- The same for the login of the third generation. -/
theorem events_openOs3 (d : Dialogue) (writer : Fragment.Writer) (random : RandomSource)
    (secret : Key) (device : Token) :
    (d.openOs3 writer random secret device).events = [.disconnect] ∨
      (d.openOs3 writer random secret device).events = [.state .authenticating] := by
  simp only [openOs3]
  exact events_ofSent ..

/-- With the device's first message a login begins, or the connection ends. -/
theorem events_onInitial (d : Dialogue) (writer : Fragment.Writer) (random : RandomSource)
    (body : Bytes) : (d.onInitial writer random body).events = [.disconnect] ∨
      (d.onInitial writer random body).events = [.state .authenticating] := by
  rw [onInitial]
  split
  · exact .inl rfl
  dsimp only
  rcases d.login with keys | ⟨secret, setting, status⟩
  · cases keys with
    | none => exact .inl rfl
    | some keys => exact events_openOs2 ..
  · cases secret with
    | none => exact .inl rfl
    | some secret => exact events_openOs3 ..

/-- In the third generation the answer to a login tells nothing but a refusal. -/
theorem events_onLogin {d : Dialogue} (h : d.osVersion ≠ .os2) (body : Bytes) :
    (d.onLogin body).2 = [] ∨ (d.onLogin body).2 = [.disconnect] := by
  unfold onLogin
  unfold osVersion at h
  split
  · rename_i keys hlogin
    simp [hlogin] at h
  · split
    · exact .inr rfl
    split
    · exact .inr rfl
    · exact .inl rfl

/-- In the second generation a setting does not make a client active. -/
theorem not_mem_onSetting {d : Dialogue} (h : d.osVersion ≠ .os3) (state : ClientState)
    (body : Bytes) : .state .active ∉ (d.onSetting state body).2 := by
  unfold onSetting
  unfold osVersion at h
  split
  · split <;> simp
  · rename_i secret setting status hlogin
    simp [hlogin] at h

/-- The status of the second generation does not make a client active. -/
theorem not_mem_statusEventsOs2 (model : Model) (body : Bytes) :
    .state .active ∉ statusEventsOs2 model body := by
  unfold statusEventsOs2
  split <;> simp

/-- In the second generation a status does not make a client active. -/
theorem not_mem_onStatus {d : Dialogue} (h : d.osVersion ≠ .os3) (state : ClientState)
    (body : Bytes) : .state .active ∉ (d.onStatus state body).2 := by
  unfold onStatus
  unfold osVersion at h
  split
  · exact not_mem_statusEventsOs2 _ _
  · rename_i secret setting status hlogin
    simp [hlogin] at h

/-- The answer to a request for the status does not make a client active. -/
theorem not_mem_onStatusReply (d : Dialogue) (body : Bytes) :
    .state .active ∉ d.onStatusReply body := by
  unfold onStatusReply
  split
  · exact not_mem_statusEventsOs2 _ _
  · split <;> simp

/-- The history does not make a client active. -/
theorem not_mem_onHistory (d : Dialogue) (body : Bytes) : .state .active ∉ d.onHistory body := by
  unfold onHistory
  split
  · simp
  · split <;> simp

/-! ## Channels of messages -/

/-- A login does not touch the channel. -/
theorem channel_onLogin (d : Dialogue) (body : Bytes) : (d.onLogin body).1.channel = d.channel := by
  unfold onLogin
  split <;> split <;> first | rfl | (split <;> rfl)

/-- A setting does not touch the channel. -/
theorem channel_onSetting (d : Dialogue) (state : ClientState) (body : Bytes) :
    (d.onSetting state body).1.channel = d.channel := by
  unfold onSetting
  split <;> split <;> rfl

/-- A status does not touch the channel. -/
theorem channel_onStatus (d : Dialogue) (state : ClientState) (body : Bytes) :
    (d.onStatus state body).1.channel = d.channel := by
  unfold onStatus
  split
  · rfl
  · split <;> rfl

end Dialogue

namespace Client

/-! ## Messages -/

section Messages

variable (host : ClientHost) (t : ClientTurn) (d : Dialogue) (body : Bytes)

/-- A publication from which nothing can be learnt is calm. -/
theorem calm_onPublish {item : ItemCode} (h : d.informs .publish item = false) :
    t.Calm (onPublish host t d item body) := by
  unfold onPublish
  split
  · simp [Dialogue.informs] at h
  · split
    · exact .refl t
    · dsimp only
      refine ClientTurn.Calm.trans ?_ (ClientTurn.calm_apply host _ ?_)
      · exact ⟨id, rfl, rfl, by simp⟩
      · rcases d.events_onInitial (t.writer host) t.client.random body with hevents | hevents <;>
          simp [hevents, Event.isCalm]
  · simp [Dialogue.informs] at h
  · simp [Dialogue.informs] at h
  · exact .refl t

/-- A response from which nothing can be learnt is calm. -/
theorem calm_onResponse {item : ItemCode} (h : d.informs .response item = false) :
    t.Calm (onResponse host t d item body) := by
  unfold onResponse
  split
  · have hversion : d.osVersion ≠ .os2 := by simpa [Dialogue.informs] using h
    dsimp only
    refine (ClientTurn.calm_withDialogue t (d.onLogin body).1).trans
      (ClientTurn.calm_apply host _ ?_)
    rcases Dialogue.events_onLogin hversion body with hevents | hevents <;>
      simp [hevents, Event.isCalm]
  · simp [Dialogue.informs] at h
  · simp [Dialogue.informs] at h
  · exact .refl t

/-- A message is dealt with as a publication or as a response, or nothing is done. -/
theorem onMessage_cases (message : Bytes) :
    (∃ item body, message = OpCode.publish.code :: ItemCode.code item :: body ∧
      onMessage host t d message = onPublish host t d item body) ∨
    (∃ item body, message = OpCode.response.code :: ItemCode.code item :: body ∧
      onMessage host t d message = onResponse host t d item body) ∨
    onMessage host t d message = t := by
  unfold onMessage
  split
  · rename_i opCode itemCode body
    split
    · rename_i item hop hitem
      rw [OpCode.ofCode?_eq_some_iff] at hop
      rw [ItemCode.ofCode?_eq_some_iff] at hitem
      exact .inl ⟨item, body, by rw [hop, hitem], rfl⟩
    · rename_i item hop hitem
      rw [OpCode.ofCode?_eq_some_iff] at hop
      rw [ItemCode.ofCode?_eq_some_iff] at hitem
      exact .inr (.inl ⟨item, body, by rw [hop, hitem], rfl⟩)
    · exact .inr (.inr rfl)
  · exact .inr (.inr rfl)

/-- A message from which nothing can be learnt is calm. -/
theorem calm_onMessage {message : Bytes}
    (h : ∀ op item body, message = OpCode.code op :: ItemCode.code item :: body →
      d.informs op item = false) : t.Calm (onMessage host t d message) := by
  rcases onMessage_cases host t d message with
    ⟨item, body, hmessage, heq⟩ | ⟨item, body, hmessage, heq⟩ | heq
  · rw [heq]
    exact calm_onPublish host t d body (h _ _ _ hmessage)
  · rw [heq]
    exact calm_onResponse host t d body (h _ _ _ hmessage)
  · rw [heq]
    exact .refl t

/-- A publication that does not activate leaves the client as active as it is. -/
theorem active_of_onPublish {item : ItemCode} (h : d.activates .publish item = false)
    (hactive : (onPublish host t d item body).client.state = .active) :
    t.client.state = .active := by
  unfold onPublish at hactive
  split at hactive
  · rwa [ClientTurn.client_emitIf] at hactive
  · have hcalm : t.Calm (onPublish host t d .initial body) := calm_onPublish host t d body rfl
    exact hcalm.state hactive
  · have hversion : d.osVersion ≠ .os3 := by simpa [Dialogue.activates] using h
    exact ClientTurn.active_of_apply host
      { t with client := t.client.withDialogue (d.onSetting t.client.state body).1 }
      (Dialogue.not_mem_onSetting hversion _ _) hactive
  · have hversion : d.osVersion ≠ .os3 := by simpa [Dialogue.activates] using h
    exact ClientTurn.active_of_apply host
      { t with client := t.client.withDialogue (d.onStatus t.client.state body).1 }
      (Dialogue.not_mem_onStatus hversion _ _) hactive
  · exact hactive

/-- A response that does not activate leaves the client as active as it is. -/
theorem active_of_onResponse {item : ItemCode} (h : d.activates .response item = false)
    (hactive : (onResponse host t d item body).client.state = .active) :
    t.client.state = .active := by
  unfold onResponse at hactive
  split at hactive
  · have hversion : d.osVersion ≠ .os2 := by simpa [Dialogue.activates] using h
    have hnot : .state .active ∉ (d.onLogin body).2 := by
      rcases Dialogue.events_onLogin hversion body with hevents | hevents <;> simp [hevents]
    exact ClientTurn.active_of_apply host
      { t with client := t.client.withDialogue (d.onLogin body).1 } hnot hactive
  · exact ClientTurn.active_of_apply host _ (Dialogue.not_mem_onStatusReply _ _) hactive
  · split at hactive
    · exact ClientTurn.active_of_apply host _ (Dialogue.not_mem_onHistory _ _) hactive
    · exact hactive
  · exact hactive

/-- A message that does not activate leaves the client as active as it is. -/
theorem active_of_onMessage {message : Bytes}
    (h : ∀ op item body, message = OpCode.code op :: ItemCode.code item :: body →
      d.activates op item = false)
    (hactive : (onMessage host t d message).client.state = .active) :
    t.client.state = .active := by
  rcases onMessage_cases host t d message with
    ⟨item, body, hmessage, heq⟩ | ⟨item, body, hmessage, heq⟩ | heq
  · rw [heq] at hactive
    exact active_of_onPublish host t d body (h _ _ _ hmessage) hactive
  · rw [heq] at hactive
    exact active_of_onResponse host t d body (h _ _ _ hmessage) hactive
  · rwa [heq] at hactive

/-- Events of a conversation over the same channel bring no session key. -/
theorem sessionKey?_of_apply_withDialogue {d' : Dialogue} (hchannel : d'.channel = d.channel)
    {events : List Event} {key : Key}
    (h : (ClientTurn.apply host { t with client := t.client.withDialogue d' }
      events).client.sessionKey? = some key) : d.channel.cipher.key = some key := by
  have hkey := ClientTurn.sessionKey?_of_apply host _ h
  rwa [← hchannel]

/-- No publication but the device's first message brings a session key. -/
theorem sessionKey?_of_onPublish {item : ItemCode} (hitem : item ≠ .initial) {key : Key}
    (hd : t.client.sessionKey? = d.channel.cipher.key)
    (h : (onPublish host t d item body).client.sessionKey? = some key) :
    d.channel.cipher.key = some key := by
  unfold onPublish at h
  split at h
  · rwa [ClientTurn.client_emitIf, hd] at h
  · exact absurd rfl hitem
  · exact sessionKey?_of_apply_withDialogue host t d (d.channel_onSetting _ _) h
  · exact sessionKey?_of_apply_withDialogue host t d (d.channel_onStatus _ _) h
  · rwa [hd] at h

/-- No response brings a session key. -/
theorem sessionKey?_of_onResponse {item : ItemCode} {key : Key}
    (hd : t.client.sessionKey? = d.channel.cipher.key)
    (h : (onResponse host t d item body).client.sessionKey? = some key) :
    d.channel.cipher.key = some key := by
  rw [← hd]
  unfold onResponse at h
  split at h
  · rw [hd]
    exact sessionKey?_of_apply_withDialogue host t d (d.channel_onLogin _) h
  · exact ClientTurn.sessionKey?_of_apply host _ h
  · split at h
    · exact ClientTurn.sessionKey?_of_apply host _ h
    · exact h
  · exact h

/-- No message but the device's first one brings a session key. -/
theorem sessionKey?_of_onMessage {message : Bytes} {key : Key}
    (hd : t.client.sessionKey? = d.channel.cipher.key)
    (h : (onMessage host t d message).client.sessionKey? = some key) :
    d.channel.cipher.key = some key ∨
      ∃ body, message = OpCode.publish.code :: ItemCode.initial.code :: body := by
  rcases onMessage_cases host t d message with
    ⟨item, body, hmessage, heq⟩ | ⟨item, body, hmessage, heq⟩ | heq
  · rw [heq] at h
    by_cases hitem : item = .initial
    · exact .inr ⟨body, by rw [hmessage, hitem]⟩
    · exact .inl (sessionKey?_of_onPublish host t d body hitem hd h)
  · rw [heq] at h
    exact .inl (sessionKey?_of_onResponse host t d body hd h)
  · rw [heq, hd] at h
    exact .inl h

end Messages

/-! ## Requests -/

/-- With this outcome a client does not become active, keeps its status and its setting, reports
nothing and gets no session key. -/
structure CalmOutcome (c : Client) (outcome : ClientOutcome) : Prop where
  state : outcome.client.state = .active → c.state = .active
  status : outcome.client.status = c.status
  setting : outcome.client.setting = c.setting
  reports : reports outcome.outputs = []
  key : ∀ key, outcome.client.sessionKey? = some key → c.sessionKey? = some key

/-- What is refused is calm. -/
theorem calm_refuse (c : Client) (error : ClientError) : CalmOutcome c (c.refuse error) :=
  ⟨id, rfl, rfl, rfl, fun _ h => h⟩

/-- A new conversation over the same channel is calm. -/
theorem calm_ok_withDialogue {c : Client} {d d' : Dialogue} (hd : c.dialogue = some d)
    (hchannel : d'.channel = d.channel) :
    CalmOutcome c ⟨c.withDialogue d', [], .ok ()⟩ := by
  refine ⟨id, rfl, rfl, rfl, fun key hkey => ?_⟩
  simp only [sessionKey?, withDialogue, Option.bind_some, hchannel] at hkey
  rw [sessionKey?, hd]
  exact hkey

/-- New keys for a login do not touch the channel. -/
theorem channel_setKeys {d d' : Dialogue} {publicKey : Option PublicKey} {secret : Key}
    (h : d.setKeys publicKey secret = .ok d') : d'.channel = d.channel := by
  unfold Dialogue.setKeys at h
  split at h
  · split at h
    · cases h
    · split at h
      · cases h
      · rw [← Except.ok.inj h]
  · rw [← Except.ok.inj h]

/-- New keys for a login, given as digits, do not touch the channel. -/
theorem channel_setKeysHex {d d' : Dialogue} {publicKey secret : String}
    (h : d.setKeysHex publicKey secret = .ok d') : d'.channel = d.channel := by
  unfold Dialogue.setKeysHex at h
  split at h
  · cases h
  · split at h
    · split at h
      · cases h
      · exact channel_setKeys h
    · exact channel_setKeys h

/-- Setting the keys for a login is calm. -/
theorem calm_silent_map {c : Client} {d : Dialogue} (hd : c.dialogue = some d)
    {keyed : Except DialogueError Dialogue} (h : ∀ d', keyed = .ok d' → d'.channel = d.channel) :
    CalmOutcome c (c.silent ((keyed.map c.withDialogue).mapError .dialogue)) := by
  cases keyed with
  | error error => exact calm_refuse ..
  | ok d' => exact calm_ok_withDialogue hd (h d' rfl)

/-- An active client has the conversation that it is in. -/
theorem activeDialogue_eq_ok_iff {c : Client} {d : Dialogue} :
    c.activeDialogue = .ok d ↔ c.dialogue = some d ∧ c.state = .active := by
  unfold activeDialogue
  cases c.dialogue with
  | none => simp
  | some found => by_cases hstate : c.state = .active <;> simp [isActive, hstate]

/-- The conversation of an active client is the one that the client has. -/
theorem dialogue_of_activeDialogue {c : Client} {d : Dialogue} (h : c.activeDialogue = .ok d) :
    c.dialogue = some d := (activeDialogue_eq_ok_iff.mp h).1

/-- Sending a command is calm. -/
theorem calm_sendCommand {c : Client} {d : Dialogue} (h : c.activeDialogue = .ok d)
    (host : ClientHost) (op : OpCode) (item : ItemCode) (body : Bytes) :
    CalmOutcome c (sendCommand host c d op item body) := by
  refine ⟨id, rfl, rfl, reports_writes _, fun key hkey => ?_⟩
  rw [sessionKey?, dialogue_of_activeDialogue h]
  simp only [sessionKey?, sendCommand, withDialogue, Dialogue.send, Option.bind_some,
    Channel.key_send] at hkey
  exact hkey

/-- A command with a text tag is calm. -/
theorem calm_sendTagged (host : ClientHost) (c : Client) (item : ItemCode) (tag : String) :
    CalmOutcome c (sendTagged host c item tag) := by
  unfold sendTagged
  split
  · exact calm_refuse ..
  · rename_i d hd
    exact calm_sendCommand hd ..

/-- A command with a trigger is calm. -/
theorem calm_sendTriggered (host : ClientHost) (c : Client) (item : ItemCode)
    (operation : String) (trigger : TriggerType) (id : Octets 16) :
    CalmOutcome c (sendTriggered host c item operation trigger id) := by
  unfold sendTriggered
  split
  · exact calm_refuse ..
  · rename_i d hd
    split
    · exact calm_refuse ..
    · exact calm_sendCommand hd ..

/-- Locking is calm. -/
theorem calm_lock (host : ClientHost) (c : Client) (tag : String) :
    CalmOutcome c (lock host c tag) := by
  unfold lock
  split
  · exact calm_refuse ..
  · exact calm_sendTagged ..

/-- A closed link is calm. -/
theorem calm_finish {c : Client} {t : ClientTurn}
    (h : ({ client := c } : ClientTurn).Calm t) (hkey : t.client.sessionKey? = none)
    (result : Except ClientError Unit) : CalmOutcome c (t.finish result) :=
  ⟨h.state, h.status, h.setting, h.reports,
    fun _ hsome => by simp [ClientTurn.finish, hkey] at hsome⟩

/-- Every request but the beginning and the receipt of a fragment is calm. -/
theorem calm_step {host : ClientHost} {c : Client} {request : Request}
    (hbegin : ∀ model, request ≠ .begin model)
    (hreceive : ∀ fragment, request ≠ .receive fragment) :
    CalmOutcome c (c.step host request) := by
  cases request with
  | begin model => exact absurd rfl (hbegin model)
  | receive fragment => exact absurd rfl (hreceive fragment)
  | setKeys publicKey secret =>
      simp only [step, setKeys]
      cases hd : c.dialogue with
      | none => exact calm_refuse ..
      | some d => exact calm_silent_map hd fun d' h => channel_setKeys h
  | setKeysHex publicKey secret =>
      simp only [step, setKeysHex]
      cases hd : c.dialogue with
      | none => exact calm_refuse ..
      | some d => exact calm_silent_map hd fun d' h => channel_setKeysHex h
  | disconnect =>
      exact calm_finish (ClientTurn.calm_disconnect host _)
        (ClientTurn.sessionKey?_disconnect host _) _
  | disconnected =>
      have hreset : ({ client := c } : ClientTurn).Calm ({ client := c } : ClientTurn).reset :=
        ⟨id, rfl, rfl, rfl⟩
      apply calm_finish (hreset.trans (ClientTurn.calm_setState host _ (by decide)))
      rw [ClientTurn.sessionKey?_setState, ClientTurn.sessionKey?_reset]
  | unlock tag => exact calm_sendTagged ..
  | lock tag => exact calm_lock ..
  | click tag =>
      simp only [step, click]
      split
      · exact calm_refuse ..
      · split
        · exact calm_refuse ..
        · exact calm_sendTagged ..
  | clickScript script =>
      simp only [step, clickScript]
      split
      · exact calm_refuse ..
      · split
        · exact calm_sendTagged ..
        · split
          · exact calm_lock ..
          · exact calm_sendTagged ..
      · split
        · exact calm_refuse ..
        · rename_i d hd
          exact calm_sendCommand hd ..
      · exact calm_refuse ..
  | lockWithTrigger trigger id => exact calm_sendTriggered ..
  | unlockWithTrigger trigger id => exact calm_sendTriggered ..
  | requestHistory =>
      simp only [step, requestHistory]
      split
      · exact calm_refuse ..
      · rename_i d hd
        exact calm_sendCommand hd ..
  | requestStatus =>
      simp only [step, requestStatus]
      split
      · exact calm_refuse ..
      · rename_i d hd
        exact calm_sendCommand hd ..

end Client

end SmartLock
