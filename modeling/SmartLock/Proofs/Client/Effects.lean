/-
# What one request does to a client

`Client.Effect` lists everything that a request can do to the state of a client and to the standing
of its conversation, and says from which message or command it comes.  Nothing else happens
(`Client.effect_step`), so that what is true of a client in every run is shown by going through
these effects.
-/
import SmartLock.Proofs.Client.Reports
import SmartLock.Proofs.Client.Standing

namespace SmartLock

/-- Whether an error refuses an operation before anything is done. -/
def ClientError.isRefusal : ClientError → Bool
  | .notInitialized | .notActive | .notSupported .. => true
  | .unsupportedModel _ | .dialogue _ => false

namespace Client

/-- The fragment of this moment completes a message for a client that is in this conversation. -/
def Hears (c : Client) (m : Moment) (d : Dialogue) (op : OpCode) (item : ItemCode) (body : Bytes) :
    Prop :=
  ∃ fragment authenticated, m.request = .receive fragment ∧ c.dialogue = some d ∧
    (d.channel.receive fragment).2 = .complete (op.code :: item.code :: body) authenticated

/-- The secret that a request sets, if it does so. -/
def Request.secret? : Request → Option Key
  | .setKeys _ secret => some secret
  | .setKeysHex _ text => (Hex.decodeExact 16 text).toOption
  | _ => none

/-- Whether a request is a command to the device. -/
def Request.isCommand : Request → Bool
  | .unlock _ | .lock _ | .click _ | .clickScript _ | .lockWithTrigger .. | .unlockWithTrigger ..
  | .requestHistory | .requestStatus => true
  | _ => false

/-- Whether a device of a model has a command. -/
def Request.isSupported (model : Model) : Request → Bool
  | .unlock _ | .requestHistory | .requestStatus => true
  | .lock _ => model ≠ .sesameBike
  | .click _ => model = .sesameBot
  | .clickScript _ => model = .sesameBot ∨ model = .sesameBot2
  | .lockWithTrigger .. | .unlockWithTrigger .. => model.osVersion = .os3
  | _ => false

/-- A command with a text tag, as a message. -/
def tagged (d : Dialogue) (item : ItemCode) (tag : String) : Bytes :=
  d.head .async item ++ d.tagField d.model tag

/-- The item of a bot's script in the second generation. -/
def scriptItem (script : Option UInt8) : ItemCode :=
  if script = some 0 then .unlock else if script = some 1 then .lock else .click

/-- The message of a command, whether or not the model has the command. -/
def Request.message (d : Dialogue) : Request → Bytes
  | .unlock tag => tagged d .unlock tag
  | .lock tag => tagged d .lock tag
  | .click tag => tagged d .click tag
  | .clickScript script =>
      if d.model = .sesameBot then tagged d (scriptItem script) ""
      else d.head .async .click ++ script.toList
  | .lockWithTrigger trigger id => d.head .async .lock ++ Tag.triggerField trigger id
  | .unlockWithTrigger trigger id => d.head .async .unlock ++ Tag.triggerField trigger id
  | .requestHistory => d.head .read .history ++ [0]
  | .requestStatus => d.head .read .mechStatus
  | _ => []

/-- A message that a client encrypts: under which key and nonce, and what it says. -/
structure Sealing where
  key : Key
  nonce : Nonce
  message : Bytes

/-- What a client encrypts at this moment: when it is active and has a session key, the message of a
command that its model has. -/
def encryption? (c : Client) (m : Moment) : Option Sealing :=
  match c.activeDialogue with
  | .error _ => none
  | .ok d =>
      if m.request.isSupported d.model then
        d.channel.cipher.key.map (⟨·, d.channel.cipher.sendNonce, m.request.message d⟩)
      else none

/-! ## Effects -/

/-- Everything that a request can do to the state of a client and to the standing of its
conversation. -/
inductive Effect (c : Client) (m : Moment) (c' : Client) : Prop
  /-- Nothing that counts has changed. -/
  | keep (hstate : c'.state = c.state) (hstanding : c'.standing? = c.standing?)
  /-- A new conversation. -/
  | begin (model : Model) (d : Dialogue) (hrequest : m.request = .begin model)
      (hd : Dialogue.ofModel? model = some d) (hstate : c'.state = .idle)
      (hstanding : c'.standing? = some d.standing)
  /-- New keys of the second generation. -/
  | setKeysOs2 (d : Dialogue) (old new : Option DeviceKeys) (hd : c.dialogue = some d)
      (hlogin : d.login = .os2 old) (hstate : c'.state = c.state)
      (hstanding : c'.standing? = some { d.standing with login := .os2 new })
  /-- A new secret of the third generation. -/
  | setKeysOs3 (d : Dialogue) (old : Option Key) (secret : Key) (setting status : Bool)
      (hrequest : m.request.secret? = some secret) (hd : c.dialogue = some d)
      (hlogin : d.login = .os3 old setting status) (hstate : c'.state = c.state)
      (hstanding : c'.standing? =
        some { d.standing with login := .os3 (some secret) setting status })
  /-- A command has been encrypted. -/
  | encrypt (d : Dialogue) (key : Key) (hencryption : (c.encryption? m).isSome = true)
      (hactive : c.activeDialogue = .ok d) (hkey : d.channel.cipher.key = some key)
      (hstate : c'.state = c.state)
      (hstanding : c'.standing? =
        some { d.standing with session := some (key, d.channel.cipher.advanceSend.sending) })
  /-- The connection has ended. -/
  | drop (hstate : c'.state = .idle)
      (hstanding : c'.standing? = c.standing?.map ({ · with session := none }))
  /-- A login has begun, under the session key for the device's token. -/
  | opening (d : Dialogue) (body : Bytes) (key : Key) (own : Token)
      (hhears : c.Hears m d .publish .initial body) (hold : c.state ≠ .authenticating)
      (hderives : d.Derives (Octets.ofBytes Dialogue.tokenSize body) key own)
      (hstate : c'.state = .authenticating)
      (hstanding : c'.standing? =
        some (d.keyed key own (Octets.ofBytes Dialogue.tokenSize body)).standing)
  /-- The device has accepted a login. -/
  | accept (d : Dialogue) (body : Bytes) (hhears : c.Hears m d .response .login body)
      (haccepts : d.accepts body = true)
      (hstate : c'.state = if d.osVersion = .os2 then .active else c.state)
      (hstanding : c'.standing? = some d.accepted.standing)
  /-- A setting that counts for the login has come. -/
  | setting (d : Dialogue) (body : Bytes) (secret : Option Key) (setting status : Bool)
      (hhears : c.Hears m d .publish .mechSetting body)
      (hreports : (SettingOs3.ofBytes? body).isSome = true)
      (hlogin : d.login = .os3 secret setting status)
      (hstate : c'.state = if status then .active else c.state)
      (hstanding : c'.standing? = some { d.standing with login := .os3 secret true status })
  /-- A status that counts for the login has come. -/
  | status (d : Dialogue) (body : Bytes) (secret : Option Key) (setting status : Bool)
      (hhears : c.Hears m d .publish .mechStatus body)
      (hreports : (Dialogue.statusOs3? d.model body).isSome = true)
      (hlogin : d.login = .os3 secret setting status)
      (hstate : c'.state = if setting then .active else c.state)
      (hstanding : c'.standing? = some { d.standing with login := .os3 secret setting true })

/-- The standing of a client in a conversation. -/
theorem standing?_of_dialogue {c : Client} {d : Dialogue} (hd : c.dialogue = some d) :
    c.standing? = some d.standing := by rw [standing?, hd, Option.map_some]

/-- What is heard is heard in the client's own conversation. -/
theorem Hears.dialogue {c : Client} {m : Moment} {d : Dialogue} {op : OpCode} {item : ItemCode}
    {body : Bytes} (h : c.Hears m d op item body) : c.dialogue = some d := by
  obtain ⟨fragment, authenticated, -, hd, -⟩ := h
  exact hd

/-- The standing of a client that hears something. -/
theorem Hears.standing? {c : Client} {m : Moment} {d : Dialogue} {op : OpCode} {item : ItemCode}
    {body : Bytes} (h : c.Hears m d op item body) : c.standing? = some d.standing :=
  standing?_of_dialogue h.dialogue

/-- The session key stands in the standing. -/
theorem sessionKey?_eq_standing? (c : Client) :
    c.sessionKey? = c.standing?.bind fun s => s.session.map Prod.fst := by
  rw [sessionKey?, standing?]
  cases c.dialogue with
  | none => rfl
  | some d => simp [Dialogue.standing, Cipher.session?, Option.map_map, Function.comp_def]

/-- A conversation that has moved on, with events that do not close the link. -/
theorem apply_withDialogue (host : ClientHost) (t : ClientTurn) {moved : Dialogue × List Event}
    (h : .disconnect ∉ moved.2) :
    let c' := (ClientTurn.apply host { t with client := t.client.withDialogue moved.1 }
      moved.2).client
    c'.standing? = some moved.1.standing ∧
      c'.state = moved.2.foldl Event.next t.client.state := by
  obtain ⟨hdialogue, hstate⟩ :=
    ClientTurn.apply_of_not_mem host { t with client := t.client.withDialogue moved.1 } h
  exact ⟨standing?_of_dialogue hdialogue, hstate⟩

/-- A client that may have become active is authenticating only if it was before. -/
theorem authenticating_of_ite {p : Prop} [Decidable p] {state : ClientState}
    (h : (if p then .active else state) = ClientState.authenticating) :
    state = .authenticating := by
  split at h
  · cases h
  · exact h

/-! ## Fragments -/

/-- The effect of an accepted login. -/
theorem accepted_onResponse (c : Client) {d : Dialogue} (fragment : Bytes) (host : ClientHost)
    {body : Bytes} (haccepts : d.accepts body = true) :
    let c' := (onResponse host (heard c d fragment) (d.hearing fragment) .login body).client
    c'.standing? = some d.accepted.standing ∧
      c'.state = if d.osVersion = .os2 then .active else c.state := by
  obtain ⟨hnew, hopen, hnext⟩ := Dialogue.onLogin_of_accepts (d := d.hearing fragment) haccepts
  obtain ⟨hstanding, hstate⟩ := apply_withDialogue host (heard c d fragment) hopen
  refine ⟨hstanding.trans ?_, hstate.trans (hnext _)⟩
  rw [hnew, Dialogue.standing_accepted_hearing]

section Fragments

variable {c : Client} {m : Moment} {d : Dialogue} {fragment : Bytes}
  (hd : c.dialogue = some d)

include hd

/-- A client that has taken a fragment in has the same standing. -/
theorem standing?_heard : (heard c d fragment).client.standing? = c.standing? := by
  rw [standing?_of_dialogue hd]
  exact congrArg some (d.standing_hearing fragment)

/-- News keeps everything that counts. -/
theorem effect_apply_of_news (host : ClientHost) {events : List Event}
    (h : events.all Event.isNews = true) :
    c.Effect m ((heard c d fragment).apply host events).client := by
  obtain ⟨hdialogue, hstate⟩ :=
    (heard c d fragment).apply_of_not_mem host (Event.not_mem_of_news h)
  refine .keep ?_ ?_
  · rw [hstate, Event.foldl_next_of_news h]
    rfl
  · rw [standing?, hdialogue]
    exact standing?_heard hd

/-- The end of the connection, in a conversation that differs from the present one at most in its
channel. -/
theorem effect_disconnect (host : ClientHost) {t : ClientTurn} {d' : Dialogue}
    (hdialogue : t.client.dialogue = some d') (hreset : d'.reset.standing = d.reset.standing) :
    c.Effect m (t.disconnect host).client := by
  refine .drop (t.state_disconnect host) ?_
  rw [standing?, ClientTurn.dialogue_disconnect, hdialogue, standing?_of_dialogue hd]
  exact congrArg some hreset

/-- The effect of a publication. -/
theorem effect_onPublish (host : ClientHost) {item : ItemCode} {body : Bytes}
    (hhears : c.Hears m d .publish item body) :
    c.Effect m (onPublish host (heard c d fragment) (d.hearing fragment) item body).client := by
  unfold onPublish
  split
  · rw [ClientTurn.client_emitIf]
    exact .keep rfl (standing?_heard hd)
  · split
    · exact .keep rfl (standing?_heard hd)
    rename_i hold
    dsimp only
    rcases (d.hearing fragment).begins_onInitial ((heard c d fragment).writer host)
      (heard c d fragment).client.random body with
      ⟨hevents, hreset⟩ | ⟨key, own, hderives, hevents, hstanding⟩
    · rw [hevents]
      exact effect_disconnect hd host rfl
        (hreset.trans (Dialogue.standing_reset_congr (d.standing_hearing fragment)))
    · rw [hevents]
      refine .opening d body key own hhears hold hderives (ClientTurn.state_setState ..) ?_
      rw [standing?, ClientTurn.apply, ClientTurn.apply, ClientTurn.dialogue_setState]
      exact congrArg some (hstanding.trans (d.standing_keyed_hearing ..))
  · rcases (d.hearing fragment).onSetting_cases (heard c d fragment).client.state body with
      ⟨hsame, hnews⟩ | ⟨secret, setting, status, hlogin, hreports, hnew, hopen, hnext⟩
    · dsimp only
      rw [hsame]
      exact effect_apply_of_news hd host hnews
    · obtain ⟨hstanding, hstate⟩ := apply_withDialogue host (heard c d fragment) hopen
      refine .setting d body secret setting status hhears hreports hlogin (hstate.trans hnext)
        (hstanding.trans ?_)
      rw [hnew]
      exact congrArg (fun s : Dialogue.Standing => some { s with login := .os3 secret true status })
        (d.standing_hearing fragment)
  · rcases (d.hearing fragment).onStatus_cases (heard c d fragment).client.state body with
      ⟨hsame, hnews⟩ | ⟨secret, setting, status, hlogin, hreports, hnew, hopen, hnext⟩
    · dsimp only
      rw [hsame]
      exact effect_apply_of_news hd host hnews
    · obtain ⟨hstanding, hstate⟩ := apply_withDialogue host (heard c d fragment) hopen
      refine .status d body secret setting status hhears hreports hlogin (hstate.trans hnext)
        (hstanding.trans ?_)
      rw [hnew]
      exact congrArg (fun s : Dialogue.Standing => some { s with login := .os3 secret setting true })
        (d.standing_hearing fragment)
  · exact .keep rfl (standing?_heard hd)

/-- The effect of a response. -/
theorem effect_onResponse (host : ClientHost) {item : ItemCode} {body : Bytes}
    (hhears : c.Hears m d .response item body) :
    c.Effect m (onResponse host (heard c d fragment) (d.hearing fragment) item body).client := by
  unfold onResponse
  split
  · cases haccepts : d.accepts body with
    | true =>
        obtain ⟨hstanding, hstate⟩ := accepted_onResponse c fragment host haccepts
        exact .accept d body hhears haccepts hstate hstanding
    | false =>
        simp only [Dialogue.onLogin_of_not_accepts (d := d.hearing fragment) haccepts]
        exact effect_disconnect hd host rfl
          (Dialogue.standing_reset_congr (d.standing_hearing fragment))
  · exact effect_apply_of_news hd host (Dialogue.news_onStatusReply ..)
  · split
    · exact effect_apply_of_news hd host (Dialogue.news_onHistory ..)
    · exact .keep rfl (standing?_heard hd)
  · exact .keep rfl (standing?_heard hd)

end Fragments

/-- A publication is dealt with as one. -/
theorem onMessage_publish (host : ClientHost) (t : ClientTurn) (d : Dialogue) (item : ItemCode)
    (body : Bytes) :
    onMessage host t d (OpCode.publish.code :: item.code :: body) =
      onPublish host t d item body := by
  simp only [onMessage, OpCode.ofCode?_code, ItemCode.ofCode?_code]

/-- A response is dealt with as one. -/
theorem onMessage_response (host : ClientHost) (t : ClientTurn) (d : Dialogue) (item : ItemCode)
    (body : Bytes) :
    onMessage host t d (OpCode.response.code :: item.code :: body) =
      onResponse host t d item body := by
  simp only [onMessage, OpCode.ofCode?_code, ItemCode.ofCode?_code]

/-- The effect of a fragment. -/
theorem effect_receive (host : ClientHost) (c : Client) (fragment : Bytes) :
    c.Effect ⟨host, .receive fragment⟩ (receive host c fragment).client := by
  cases hd : c.dialogue with
  | none =>
      rw [receive_of_dialogue_eq_none host hd]
      exact .keep rfl rfl
  | some d =>
      rcases receive_cases host hd fragment with
        ⟨message, authenticated, hreceived, heq⟩ | heq | heq
      · rw [heq]
        change c.Effect _ (onMessage host (heard c d fragment) (d.hearing fragment) message).client
        rcases onMessage_cases host (heard c d fragment) (d.hearing fragment) message with
          ⟨item, body, rfl, heq⟩ | ⟨item, body, rfl, heq⟩ | heq
        · rw [heq]
          exact effect_onPublish hd host ⟨fragment, authenticated, rfl, hd, hreceived⟩
        · rw [heq]
          exact effect_onResponse hd host ⟨fragment, authenticated, rfl, hd, hreceived⟩
        · rw [heq]
          exact .keep rfl (standing?_heard hd)
      · rw [heq]
        exact effect_disconnect hd host rfl
          (Dialogue.standing_reset_congr (d.standing_hearing fragment))
      · rw [heq]
        exact .keep rfl (standing?_heard hd)

/-- A complete message is dealt with. -/
theorem receive_of_complete (host : ClientHost) {c : Client} {d : Dialogue}
    (hd : c.dialogue = some d)
    {fragment message : Bytes} {authenticated : Bool}
    (h : (d.channel.receive fragment).2 = .complete message authenticated) :
    receive host c fragment = onMessage host (heard c d fragment) (d.hearing fragment) message := by
  rw [receive, hd]
  simp only [h]
  rfl

/-- With an accepted login the effect is that of the login. -/
theorem step_of_accepts {c : Client} {m : Moment} {d : Dialogue} {body : Bytes}
    (h : c.Hears m d .response .login body) (haccepts : d.accepts body = true) :
    (c.step m.host m.request).client.standing? = some d.accepted.standing ∧
      (c.step m.host m.request).client.state =
        if d.osVersion = .os2 then .active else c.state := by
  obtain ⟨fragment, authenticated, hrequest, hd, hreceived⟩ := h
  have hstep : (c.step m.host m.request).client =
      (onResponse m.host (heard c d fragment) (d.hearing fragment) .login body).client := by
    rw [hrequest, step, ClientTurn.finish, receive_of_complete m.host hd hreceived,
      onMessage_response]
  rw [hstep]
  exact accepted_onResponse c fragment m.host haccepts

/-! ## Commands -/

/-- Only commands are supported. -/
theorem Request.isCommand_of_isSupported {request : Request} {model : Model}
    (h : request.isSupported model = true) : request.isCommand = true := by
  cases request <;> first | rfl | cases h

/-- An active client has the model of its conversation. -/
theorem model_of_activeDialogue {c : Client} {d : Dialogue} (h : c.activeDialogue = .ok d) :
    c.model = some d.model := by
  rw [Client.model, dialogue_of_activeDialogue h, Option.map_some]

/-- What a command leads to: it is refused, because the client is not active or the model does not
have the command, or its message is sent encrypted. -/
inductive CommandCase (host : ClientHost) (c : Client) (request : Request) : ClientOutcome → Prop
  | refused (error : ClientError) (hrefusal : error.isRefusal = true)
      (hnot : ∀ d, c.activeDialogue = .ok d → request.isSupported d.model = false) :
      CommandCase host c request (c.refuse error)
  | sent (d : Dialogue) (op : OpCode) (item : ItemCode) (body : Bytes)
      (hactive : c.activeDialogue = .ok d) (hsupported : request.isSupported d.model = true)
      (hmessage : request.message d = d.head op item ++ body) :
      CommandCase host c request (sendCommand host c d op item body)

section Commands

variable (host : ClientHost) {c : Client} {request : Request}

/-- A client that is not active refuses every command. -/
theorem commandCase_of_inactive {error : ClientError} (h : c.activeDialogue = .error error) :
    CommandCase host c request (c.refuse error) := by
  refine .refused error ?_ fun d hd => ?_
  · unfold activeDialogue at h
    split at h
    · cases h
      rfl
    · split at h
      · cases h
      · cases h
        rfl
  · rw [h] at hd
    cases hd

/-- A command is refused on a model that does not have it. -/
theorem commandCase_of_not_isSupported {model : Model} (hmodel : c.model = some model)
    (h : request.isSupported model = false) (operation : String) :
    CommandCase host c request (c.refuse (.notSupported operation model)) := by
  refine .refused _ rfl fun d hd => ?_
  rw [model_of_activeDialogue hd, Option.some_inj] at hmodel
  rw [hmodel]
  exact h

/-- A client that has not begun refuses every command. -/
theorem commandCase_of_model_eq_none (hmodel : c.model = none) :
    CommandCase host c request (c.refuse .notInitialized) := by
  refine .refused _ rfl fun d hd => ?_
  rw [model_of_activeDialogue hd] at hmodel
  cases hmodel

/-- A command with a text tag. -/
theorem commandCase_sendTagged (item : ItemCode) (tag : String)
    (h : ∀ d, c.activeDialogue = .ok d → request.isSupported d.model = true ∧
      request.message d = tagged d item tag) :
    CommandCase host c request (sendTagged host c item tag) := by
  unfold sendTagged
  split
  · exact commandCase_of_inactive host ‹_›
  · rename_i d hactive
    obtain ⟨hsupported, hmessage⟩ := h d hactive
    exact .sent d _ _ _ hactive hsupported hmessage

/-- Locking. -/
theorem commandCase_lock (tag : String) :
    CommandCase host c (.lock tag) (lock host c tag) := by
  unfold lock
  split
  · exact commandCase_of_not_isSupported host ‹_› rfl _
  · rename_i hbike
    refine commandCase_sendTagged host _ _ fun d hd => ⟨decide_eq_true fun hmodel => ?_, rfl⟩
    rw [model_of_activeDialogue hd, hmodel] at hbike
    exact hbike rfl

/-- A click. -/
theorem commandCase_click (tag : String) :
    CommandCase host c (.click tag) (click host c tag) := by
  unfold click
  split
  · exact commandCase_of_model_eq_none host ‹_›
  · rename_i model hmodel
    split
    · rename_i hbot
      exact commandCase_of_not_isSupported host hmodel (by simpa [Request.isSupported] using hbot) _
    · rename_i hbot
      refine commandCase_sendTagged host _ _ fun d hd => ⟨decide_eq_true ?_, rfl⟩
      rw [model_of_activeDialogue hd, Option.some_inj] at hmodel
      rw [hmodel]
      exact not_not.mp hbot

/-- A script of a bot of the second generation is a command with an empty tag. -/
theorem clickScript_of_bot (hmodel : c.model = some .sesameBot) (script : Option UInt8) :
    clickScript host c script = sendTagged host c (scriptItem script) "" := by
  unfold clickScript scriptItem
  rw [hmodel]
  dsimp only
  split
  · rfl
  · split
    · rw [lock, if_neg (by simp [hmodel])]
    · rfl

/-- A click that runs a script. -/
theorem commandCase_clickScript (script : Option UInt8) :
    CommandCase host c (.clickScript script) (clickScript host c script) := by
  by_cases hbot : c.model = some .sesameBot
  · rw [clickScript_of_bot host hbot]
    refine commandCase_sendTagged host _ _ fun d hd => ?_
    rw [model_of_activeDialogue hd, Option.some_inj] at hbot
    exact ⟨decide_eq_true (.inl hbot), if_pos hbot⟩
  unfold clickScript
  split
  · exact commandCase_of_model_eq_none host ‹_›
  · exact absurd ‹_› hbot
  · rename_i hmodel
    split
    · exact commandCase_of_inactive host ‹_›
    · rename_i d hd
      rw [model_of_activeDialogue hd, Option.some_inj] at hmodel hbot
      exact .sent _ _ _ _ hd (decide_eq_true (.inr hmodel)) (if_neg hbot)
  · rename_i model _ hbot2 hmodel
    refine commandCase_of_not_isSupported host hmodel ?_ _
    rw [Request.isSupported, decide_eq_false_iff_not]
    rintro (rfl | rfl)
    · exact hbot hmodel
    · exact hbot2 rfl

/-- A command with a trigger. -/
theorem commandCase_sendTriggered (item : ItemCode) (operation : String) (trigger : TriggerType)
    (id : Octets 16)
    (hsupported : ∀ model : Model, request.isSupported model = decide (model.osVersion = .os3))
    (hmessage : ∀ d, request.message d = d.head .async item ++ Tag.triggerField trigger id) :
    CommandCase host c request (sendTriggered host c item operation trigger id) := by
  unfold sendTriggered
  split
  · exact commandCase_of_inactive host ‹_›
  · rename_i d hactive
    split
    · rename_i hgeneration
      exact commandCase_of_not_isSupported host (model_of_activeDialogue hactive)
        ((hsupported _).trans (decide_eq_false hgeneration)) _
    · rename_i hgeneration
      exact .sent _ _ _ _ hactive ((hsupported _).trans (decide_eq_true (not_not.mp hgeneration)))
        (hmessage d)

/-- Every command is refused or sent. -/
theorem commandCase_step (h : request.isCommand = true) :
    CommandCase host c request (c.step host request) := by
  cases request with
  | unlock tag => exact commandCase_sendTagged host _ _ fun _ _ => ⟨rfl, rfl⟩
  | lock tag => exact commandCase_lock host tag
  | click tag => exact commandCase_click ..
  | clickScript script => exact commandCase_clickScript ..
  | lockWithTrigger trigger id =>
      exact commandCase_sendTriggered host _ _ _ _ (fun _ => rfl) fun _ => rfl
  | unlockWithTrigger trigger id =>
      exact commandCase_sendTriggered host _ _ _ _ (fun _ => rfl) fun _ => rfl
  | requestHistory =>
      simp only [step, requestHistory]
      split
      · exact commandCase_of_inactive host ‹_›
      · exact .sent _ _ _ _ ‹_› rfl rfl
  | requestStatus =>
      simp only [step, requestStatus]
      split
      · exact commandCase_of_inactive host ‹_›
      · exact .sent _ _ _ _ ‹_› rfl (List.append_nil _).symm
  | _ => cases h

end Commands

/-- An active client with a session key encrypts the message of a command that its model has. -/
theorem encryption?_of_isSupported {c : Client} {m : Moment} {d : Dialogue} {key : Key}
    (hactive : c.activeDialogue = .ok d) (hsupported : m.request.isSupported d.model = true)
    (hkey : d.channel.cipher.key = some key) :
    c.encryption? m = some ⟨key, d.channel.cipher.sendNonce, m.request.message d⟩ := by
  rw [encryption?, hactive]
  dsimp only
  rw [if_pos hsupported, hkey, Option.map_some]

/-- It encrypts nothing else. -/
theorem of_encryption? {c : Client} {m : Moment} {x : Sealing} (h : c.encryption? m = some x) :
    ∃ d, c.activeDialogue = .ok d ∧ m.request.isSupported d.model = true ∧
      d.channel.cipher.key = some x.key ∧
      x = ⟨x.key, d.channel.cipher.sendNonce, m.request.message d⟩ := by
  unfold encryption? at h
  split at h
  · cases h
  · rename_i d hactive
    obtain ⟨hsupported, h⟩ := Option.ite_none_right_eq_some.mp h
    obtain ⟨key, hkey, rfl⟩ := Option.map_eq_some_iff.mp h
    exact ⟨d, hactive, hsupported, hkey, rfl⟩

/-- The message of a command that the model of an active client has is sent. -/
theorem step_of_isSupported {c : Client} {m : Moment} {d : Dialogue}
    (hactive : c.activeDialogue = .ok d) (hsupported : m.request.isSupported d.model = true) :
    ∃ op item body, m.request.message d = d.head op item ++ body ∧
      c.step m.host m.request = sendCommand m.host c d op item body := by
  generalize hstep : c.step m.host m.request = outcome
  cases hstep ▸ commandCase_step m.host (Request.isCommand_of_isSupported hsupported) with
  | refused error hrefusal hnot => simp [hnot d hactive] at hsupported
  | sent d' op item body hactive' _ hmessage =>
      obtain rfl : d = d' := Except.ok.inj (hactive.symm.trans hactive')
      exact ⟨op, item, body, hmessage, rfl⟩

/-- The effect of a command. -/
theorem effect_of_isCommand (c : Client) {m : Moment} (hcommand : m.request.isCommand = true) :
    c.Effect m (c.step m.host m.request).client := by
  generalize hstep : c.step m.host m.request = outcome
  cases hstep ▸ commandCase_step m.host hcommand with
  | refused error => exact .keep rfl rfl
  | sent d op item body hactive hsupported =>
      cases hkey : d.channel.cipher.key with
      | none =>
          refine .keep rfl ?_
          rw [standing?_of_dialogue (dialogue_of_activeDialogue hactive)]
          exact congrArg some (Dialogue.standing_send_of_key_eq_none hkey ..)
      | some key =>
          have hencryption := encryption?_of_isSupported hactive hsupported hkey
          exact .encrypt d key (by rw [hencryption]; rfl) hactive hkey rfl
            (congrArg some (Dialogue.standing_send hkey ..))

/-- What is encrypted moves the nonce for sending, and does nothing else. -/
theorem step_of_encryption {c : Client} {m : Moment} {x : Sealing}
    (h : c.encryption? m = some x) :
    ∃ d, c.dialogue = some d ∧ d.channel.cipher.key = some x.key ∧
      d.channel.cipher.sendNonce = x.nonce ∧
      (c.step m.host m.request).client.state = c.state ∧
      (c.step m.host m.request).client.standing? =
        some { d.standing with session := some (x.key, d.channel.cipher.advanceSend.sending) } := by
  obtain ⟨d, hactive, hsupported, hkey, heq⟩ := of_encryption? h
  obtain ⟨op, item, body, -, hstep⟩ := step_of_isSupported hactive hsupported
  refine ⟨d, dialogue_of_activeDialogue hactive, hkey, (congrArg Sealing.nonce heq).symm, ?_⟩
  rw [hstep]
  exact ⟨rfl, congrArg some (Dialogue.standing_send hkey ..)⟩

/-! ## Keys -/

/-- New keys change the login only. -/
theorem setKeys_cases {d d' : Dialogue} {publicKey : Option PublicKey} {secret : Key}
    (h : d.setKeys publicKey secret = .ok d') :
    (∃ old new, d.login = .os2 old ∧ d' = { d with login := .os2 new }) ∨
    ∃ old setting status, d.login = .os3 old setting status ∧
      d' = { d with login := .os3 (some secret) setting status } := by
  unfold Dialogue.setKeys at h
  split at h
  · rename_i old hlogin
    split at h
    · cases h
    · split at h
      · cases h
      · exact .inl ⟨old, _, hlogin, (Except.ok.inj h).symm⟩
  · rename_i old setting status hlogin
    exact .inr ⟨old, setting, status, hlogin, (Except.ok.inj h).symm⟩

/-- New keys, given as digits, change the login only. -/
theorem setKeysHex_cases {d d' : Dialogue} {publicKey text : String}
    (h : d.setKeysHex publicKey text = .ok d') :
    ∃ publicKey secret, Hex.decodeExact 16 text = .ok secret ∧
      d.setKeys publicKey secret = .ok d' := by
  unfold Dialogue.setKeysHex at h
  split at h
  · cases h
  · rename_i secret hsecret
    split at h
    · split at h
      · cases h
      · exact ⟨_, secret, hsecret, h⟩
    · exact ⟨_, secret, hsecret, h⟩

/-- The effect of new keys. -/
theorem effect_setKeys {c : Client} {m : Moment} {d : Dialogue} (hd : c.dialogue = some d)
    {keyed : Except DialogueError Dialogue}
    (h : ∀ d', keyed = .ok d' → ∃ publicKey secret, m.request.secret? = some secret ∧
      d.setKeys publicKey secret = .ok d') :
    c.Effect m (c.silent ((keyed.map c.withDialogue).mapError .dialogue)).client := by
  cases keyed with
  | error error => exact .keep rfl rfl
  | ok d' =>
      obtain ⟨publicKey, secret, hrequest, hkeys⟩ := h d' rfl
      rcases setKeys_cases hkeys with ⟨old, new, hlogin, rfl⟩ |
        ⟨old, setting, status, hlogin, rfl⟩
      · exact .setKeysOs2 d old new hd hlogin rfl rfl
      · exact .setKeysOs3 d old secret setting status hrequest hd hlogin rfl rfl

/-! ## Requests -/

/-- Everything that a request does is one of these effects. -/
theorem effect_step (c : Client) (m : Moment) : c.Effect m (c.step m.host m.request).client := by
  by_cases hcommand : m.request.isCommand = true
  · exact effect_of_isCommand c hcommand
  obtain ⟨host, request⟩ := m
  cases request with
  | begin model =>
      simp only [step, begin?]
      cases hd : Dialogue.ofModel? model with
      | none => exact .keep rfl rfl
      | some d => exact .begin model d rfl hd rfl rfl
  | setKeys publicKey secret =>
      simp only [step, setKeys]
      cases hd : c.dialogue with
      | none => exact .keep rfl rfl
      | some d => exact effect_setKeys hd fun d' h => ⟨publicKey, secret, rfl, h⟩
  | setKeysHex publicKey text =>
      simp only [step, setKeysHex]
      cases hd : c.dialogue with
      | none => exact .keep rfl rfl
      | some d =>
          refine effect_setKeys hd fun d' h => ?_
          obtain ⟨publicKey, secret, hsecret, hkeys⟩ := setKeysHex_cases h
          exact ⟨publicKey, secret, congrArg Except.toOption hsecret, hkeys⟩
  | receive fragment => exact effect_receive ..
  | disconnect =>
      refine .drop (ClientTurn.state_disconnect ..) ?_
      simp only [step, ClientTurn.finish, standing?, ClientTurn.dialogue_disconnect]
      cases c.dialogue <;> rfl
  | disconnected =>
      refine .drop (ClientTurn.state_setState ..) ?_
      simp only [step, disconnected, ClientTurn.finish, standing?, ClientTurn.dialogue_setState]
      cases hd : c.dialogue <;> simp only [ClientTurn.reset, hd] <;> rfl
  | _ => exact absurd rfl hcommand

end Client

end SmartLock
