/-
# Clients with partial access

What a client does with a fragment, built from accesses that may fail, for both generations: the
login that it starts, the answers and reports that it reads, and the field of a tag that it writes.
None of the accesses fails, in any state and for any fragment (`Client.receiveAllChecked_eq`), and
every tag has its field (`Dialogue.tagFieldChecked_eq`).
-/
import SmartLock.Client.Commands
import SmartLock.Proofs.Bounds.Link
import SmartLock.Proofs.Bounds.Reports

namespace SmartLock

namespace Dialogue

/-! ## Tags -/

/-- The text of a tag for a model. -/
def tagTextChecked (d : Dialogue) (model : Model) (tag : String) : Option String :=
  if model = .sesameBot2 then some "" else Utf8.truncateChecked tag d.maxTagSize

/-- The field of a text tag for a model. -/
def tagFieldChecked (d : Dialogue) (model : Model) (tag : String) : Option Bytes := do
  let text ← d.tagTextChecked model tag
  Tag.textFieldChecked (d.tagFieldSize (Utf8.bytesOf text).length) text

/-- A text that is not too long fits into its field, behind its length. -/
theorem length_lt_tagFieldSize (d : Dialogue) {size : Nat} (h : size ≤ d.maxTagSize) :
    size < d.tagFieldSize size := by
  rw [tagFieldSize]
  rw [maxTagSize] at h
  cases hlogin : d.login with
  | os2 keys =>
      rw [hlogin] at h
      exact Nat.lt_succ_of_le h
  | os3 secret setting status => exact Nat.lt_succ_self size

/-- **Every tag has its field.** -/
@[simp] theorem tagFieldChecked_eq (d : Dialogue) (model : Model) (tag : String) :
    d.tagFieldChecked model tag = some (d.tagField model tag) := by
  have htext : d.tagTextChecked model tag =
      some (if model = .sesameBot2 then "" else Utf8.truncate tag d.maxTagSize) := by
    rw [tagTextChecked, Utf8.truncateChecked_eq]
    split <;> rfl
  rw [tagFieldChecked, htext, Option.bind_eq_bind, Option.bind_some]
  apply Tag.textFieldChecked_eq
  apply length_lt_tagFieldSize
  split
  · exact Nat.zero_le _
  · exact Utf8.length_bytesOf_truncate_le tag d.maxTagSize

/-! ## Sending -/

/-- A message offered to the writer. -/
def sendChecked (d : Dialogue) (writer : Fragment.Writer) (op : OpCode) (item : ItemCode)
    (body : Bytes) (encrypted : Bool) : Option Sent := do
  let sent ← d.channel.sendChecked writer (d.head op item ++ body) encrypted
  return {
    dialogue := { d with channel := sent.channel }
    offer := sent.offer
    result := sent.result.mapError .link }

/-- No access while a message is sent fails. -/
@[simp] theorem sendChecked_eq (d : Dialogue) (writer : Fragment.Writer) (op : OpCode)
    (item : ItemCode) (body : Bytes) (encrypted : Bool) :
    d.sendChecked writer op item body encrypted = some (d.send writer op item body encrypted) := by
  simp [sendChecked, send]

/-! ## Logging in -/

/-- The start of a login in the second generation. -/
def openOs2Checked (d : Dialogue) (writer : Fragment.Writer) (random : RandomSource)
    (keys : DeviceKeys) (device : Token) : Option Opening := do
  let (own, random) := random.draw tokenSize
  let (fresh, random) := PrivateKey.generate random
  let publicKey ← fresh.publicKeyChecked
  match ← fresh.sharedKeyChecked keys.publicKey with
  | .error _ => return { dialogue := d, random := random, events := [.disconnect] }
  | .ok shared =>
      let channel ← d.channel.withKeyChecked (sessionKeyOs2 shared own device) own device
      let request := [0, 0] ++ publicKey.toBytes ++ own.toBytes
      let code := (cmac keys.secret (request ++ device.toBytes)).toBytes
      let body := request ++ (← code.front? Cipher.codeSize)
      let keyed := { d with channel := channel }
      return .ofSent (← keyed.sendChecked writer .sync .login body false) random

/-- The start of a login in the third generation. -/
def openOs3Checked (d : Dialogue) (writer : Fragment.Writer) (random : RandomSource) (secret : Key)
    (device : Token) : Option Opening := do
  let key := sessionKeyOs3 secret device
  let channel ← d.channel.withKeyChecked key (Octets.zero 4) device
  let keyed := { d with channel := channel }
  let code ← key.toBytes.front? Cipher.codeSize
  return .ofSent (← keyed.sendChecked writer .async .login code false) random

/-- The device's first message: its token, to which the client answers with a login. -/
def onInitialChecked (d : Dialogue) (writer : Fragment.Writer) (random : RandomSource)
    (body : Bytes) : Option Opening :=
  match (body.front? tokenSize).bind (Octets.ofBytes? tokenSize) with
  | none => some { dialogue := d, random := random, events := [.disconnect] }
  | some device =>
      match d.login with
      | .os2 keys =>
          let cleared := { d with channel := { d.channel with cipher := d.channel.cipher.reset } }
          match keys with
          | none => some { dialogue := cleared, random := random, events := [.disconnect] }
          | some keys => cleared.openOs2Checked writer random keys device
      | .os3 secret _ _ =>
          match secret with
          | none => some { dialogue := d, random := random, events := [.disconnect] }
          | some secret => d.openOs3Checked writer random secret device

section Openings

variable (d : Dialogue) (writer : Fragment.Writer) (random : RandomSource)

/-- No access at the start of a login of the second generation fails. -/
@[simp] theorem openOs2Checked_eq (keys : DeviceKeys) (device : Token) :
    d.openOs2Checked writer random keys device = some (d.openOs2 writer random keys device) := by
  rw [openOs2Checked, openOs2]
  rcases random.draw tokenSize with ⟨own, afterToken⟩
  dsimp only
  rcases PrivateKey.generate afterToken with ⟨fresh, afterKey⟩
  dsimp only
  rw [PrivateKey.publicKeyChecked_eq, Option.bind_eq_bind, Option.bind_some,
    PrivateKey.sharedKeyChecked_eq, Option.bind_eq_bind, Option.bind_some]
  cases fresh.sharedKey keys.publicKey with
  | error error => rfl
  | ok shared =>
      have hkeyed : d.channel.withKeyChecked (sessionKeyOs2 shared own device) own device =
          some (d.channel.withKey (sessionKeyOs2 shared own device) own device) :=
        d.channel.withKeyChecked_eq ..
      dsimp only
      simp only [hkeyed, Cipher.front?_code, sendChecked_eq, Option.bind_eq_bind, Option.bind_some]
      rfl

/-- No access at the start of a login of the third generation fails. -/
@[simp] theorem openOs3Checked_eq (secret : Key) (device : Token) :
    d.openOs3Checked writer random secret device =
      some (d.openOs3 writer random secret device) := by
  simp only [openOs3Checked, openOs3, Channel.withKeyChecked_eq, sendChecked_eq, Cipher.front?_code,
    Option.bind_eq_bind, Option.bind_some]
  rfl

/-- No access to the device's first message fails. -/
@[simp] theorem onInitialChecked_eq (body : Bytes) :
    d.onInitialChecked writer random body = some (d.onInitial writer random body) := by
  rw [onInitialChecked, onInitial]
  by_cases hshort : body.length < tokenSize
  · have hnone : body.front? tokenSize = none := if_neg (by omega)
    rw [if_pos hshort, hnone, Option.bind_none]
  · have hlong : tokenSize ≤ body.length := Nat.not_lt.mp hshort
    have hdevice : (body.front? tokenSize).bind (Octets.ofBytes? tokenSize) =
        some (Octets.ofBytes tokenSize body) := by
      rw [Bytes.front?_eq hlong, Option.bind_some,
        Octets.ofBytes?_eq (by rw [List.length_take, Nat.min_eq_left hlong]),
        Octets.ofBytes_take hlong]
    rw [if_neg hshort, hdevice]
    cases d.login with
    | os2 keys =>
        cases keys with
        | none => rfl
        | some keys => exact openOs2Checked_eq ..
    | os3 secret setting status =>
        cases secret with
        | none => rfl
        | some secret => exact d.openOs3Checked_eq ..

end Openings

/-! ## The device's messages -/

/-- The status event of a message of the second generation. -/
def statusEventsOs2Checked (model : Model) (body : Bytes) : Option (List Event) :=
  match StatusOs2.ofBytes? body with
  | some status => do return [.status (← Status.ofOs2Checked model status)]
  | none => some []

/-- The setting event of a message of the second generation. -/
def settingEventsOs2Checked (model : Model) (body : Bytes) : Option (List Event) :=
  match SettingOs2.ofBytes? body with
  | some setting => do return [.setting (← Setting.ofOs2Checked model setting)]
  | none => some []

/-- The status in a message of the third generation. -/
def statusOs3Checked (model : Model) (body : Bytes) : Option (Option Status) := do
  if model = .sesameBot2 then
    match ← StatusBot2.ofBytesChecked body with
    | some status => return some (← Status.ofBot2Checked model status)
    | none => return none
  else
    match ← StatusOs3.ofBytesChecked body with
    | some status => return some (← Status.ofOs3Checked model status)
    | none => return none

/-- The answer to a login.  The time of the device is read for the log. -/
def onLoginChecked (d : Dialogue) (body : Bytes) : Option (Dialogue × List Event) := do
  match d.login with
  | .os2 _ =>
      if body.length < loginSizeOs2 then return (d, [.disconnect])
      else if ResultCode.ofCode (← body[1]?) ≠ .success then return (d, [.disconnect])
      else
        let _ ← body.each? 2 4
        let settings ← settingEventsOs2Checked d.model (← body.rest? loginHeadOs2)
        let statuses ← statusEventsOs2Checked d.model (← body.rest? (loginHeadOs2 + 12))
        return (d, settings ++ .state .active :: statuses)
  | .os3 secret _ _ =>
      if body.length < loginSizeOs3 then return (d, [.disconnect])
      else if ResultCode.ofCode (← body[0]?) ≠ .success then return (d, [.disconnect])
      else
        let _ ← body.each? 1 4
        return ({ d with login := .os3 secret (!d.model.hasSetting) false }, [])

/-- A setting that the device reports while the client is in `state`. -/
def onSettingChecked (d : Dialogue) (state : ClientState) (body : Bytes) :
    Option (Dialogue × List Event) := do
  match d.login with
  | .os2 _ => return (d, ← settingEventsOs2Checked d.model body)
  | .os3 secret _ status =>
      match ← SettingOs3.ofBytesChecked body with
      | some setting =>
          return ({ d with login := .os3 secret true status },
            .setting (Setting.ofOs3 setting) :: activation state true status)
      | none => return (d, [])

/-- A status that the device reports while the client is in `state`. -/
def onStatusChecked (d : Dialogue) (state : ClientState) (body : Bytes) :
    Option (Dialogue × List Event) := do
  match d.login with
  | .os2 _ => return (d, ← statusEventsOs2Checked d.model body)
  | .os3 secret setting _ =>
      match ← statusOs3Checked d.model body with
      | some status =>
          return ({ d with login := .os3 secret setting true },
            .status status :: activation state setting true)
      | none => return (d, [])

/-- The answer to a request for the status; a head that is not there leaves nothing to read. -/
def onStatusReplyChecked (d : Dialogue) (body : Bytes) : Option (List Event) := do
  match d.login with
  | .os2 _ => statusEventsOs2Checked d.model ((body.rest? 2).getD [])
  | .os3 .. =>
      match body.rest? 1 with
      | none => return []
      | some report =>
          match ← statusOs3Checked d.model report with
          | some status => return [.status status]
          | none => return []

/-- The answer to a request for the history. -/
def onHistoryChecked (d : Dialogue) (body : Bytes) : Option (List Event) := do
  match d.login with
  | .os2 _ => return [.history (← History.ofOs2Checked body)]
  | .os3 .. =>
      match ← History.ofOs3Checked body with
      | some history => return [.history history]
      | none => return []

section Messages

variable (d : Dialogue) (state : ClientState) (model : Model) (body : Bytes)

/-- No access to a status of the second generation fails. -/
@[simp] theorem statusEventsOs2Checked_eq :
    statusEventsOs2Checked model body = some (statusEventsOs2 model body) := by
  rw [statusEventsOs2Checked, statusEventsOs2]
  cases StatusOs2.ofBytes? body <;> simp

/-- No access to a setting of the second generation fails. -/
@[simp] theorem settingEventsOs2Checked_eq :
    settingEventsOs2Checked model body =
      some (match SettingOs2.ofBytes? body with
        | some setting => [.setting (Setting.ofOs2 model setting)]
        | none => []) := by
  rw [settingEventsOs2Checked]
  cases SettingOs2.ofBytes? body <;> simp

/-- No access to a status of the third generation fails. -/
@[simp] theorem statusOs3Checked_eq :
    statusOs3Checked model body = some (statusOs3? model body) := by
  rw [statusOs3Checked, statusOs3?]
  split
  · cases h : StatusBot2.ofBytes? body <;> simp [h]
  · cases h : StatusOs3.ofBytes? body <;> simp [h]

/-- No access to the answer to a login fails. -/
@[simp] theorem onLoginChecked_eq : d.onLoginChecked body = some (d.onLogin body) := by
  rw [onLoginChecked, onLogin]
  cases d.login with
  | os2 keys =>
      dsimp only
      split
      · rfl
      · rename_i hshort
        have hlength : 30 ≤ body.length := Nat.not_lt.mp hshort
        rw [Bytes.getElem?_eq_getD (by omega), Option.bind_eq_bind, Option.bind_some]
        split
        · rfl
        · rw [Bytes.each?_eq (by omega), Bytes.rest?_eq (by rw [loginHeadOs2]; omega),
            Bytes.rest?_eq (by rw [loginHeadOs2]; omega)]
          simp only [settingEventsOs2Checked_eq, statusEventsOs2Checked_eq]
          rfl
  | os3 secret setting status =>
      dsimp only
      split
      · rfl
      · rename_i hshort
        have hlength : 5 ≤ body.length := Nat.not_lt.mp hshort
        rw [Bytes.getElem?_eq_getD (by omega), Option.bind_eq_bind, Option.bind_some]
        split
        · rfl
        · rw [Bytes.each?_eq (by omega)]
          rfl

/-- No access to a setting fails. -/
@[simp] theorem onSettingChecked_eq :
    d.onSettingChecked state body = some (d.onSetting state body) := by
  rw [onSettingChecked, onSetting]
  cases d.login with
  | os2 keys => cases h : SettingOs2.ofBytes? body <;> simp [h]
  | os3 secret setting status => cases h : SettingOs3.ofBytes? body <;> simp [h]

/-- No access to a status fails. -/
@[simp] theorem onStatusChecked_eq :
    d.onStatusChecked state body = some (d.onStatus state body) := by
  rw [onStatusChecked, onStatus]
  cases d.login with
  | os2 keys => simp
  | os3 secret setting status => cases h : statusOs3? d.model body <;> simp [h]

/-- No access to the answer to a request for the status fails. -/
@[simp] theorem onStatusReplyChecked_eq :
    d.onStatusReplyChecked body = some (d.onStatusReply body) := by
  rw [onStatusReplyChecked, onStatusReply]
  cases d.login with
  | os2 keys => simp [Bytes.getD_rest?]
  | os3 secret setting status =>
      cases body with
      | nil =>
          have hnone : statusOs3? d.model [] = none := by
            rw [statusOs3?]
            split <;> rfl
          simp only [List.drop_nil, hnone]
          rfl
      | cons first rest =>
          have hrest : Bytes.rest? (first :: rest) 1 = some rest := Bytes.rest?_eq (by simp)
          simp only [hrest, statusOs3Checked_eq, Option.bind_eq_bind, Option.bind_some,
            List.drop_one, List.tail_cons]
          cases statusOs3? d.model rest <;> rfl

/-- No access to the answer to a request for the history fails. -/
@[simp] theorem onHistoryChecked_eq : d.onHistoryChecked body = some (d.onHistory body) := by
  rw [onHistoryChecked, onHistory]
  cases d.login with
  | os2 keys => simp
  | os3 secret setting status => cases h : History.ofOs3? body <;> simp [h]

end Messages

end Dialogue

namespace Client

/-! ## Fragments -/

/-- A publication of the device. -/
def onPublishChecked (host : ClientHost) (t : ClientTurn) (d : Dialogue) (item : ItemCode)
    (body : Bytes) : Option ClientTurn := do
  match item with
  | .pubSsmKey =>
      if host.observers.devices then
        return t.emit (.devices (← KnownDevice.parseListChecked body))
      else return t
  | .initial =>
      if t.client.state = .authenticating then return t
      else
        let opening ← d.onInitialChecked (t.writer host) t.client.random body
        let client := { t.client.withDialogue opening.dialogue with random := opening.random }
        return ClientTurn.apply host
          { client := client, outputs := t.outputs ++ ClientTurn.writes opening.offer }
          opening.events
  | .mechSetting =>
      let (d, events) ← d.onSettingChecked t.client.state body
      return ClientTurn.apply host { t with client := t.client.withDialogue d } events
  | .mechStatus =>
      let (d, events) ← d.onStatusChecked t.client.state body
      return ClientTurn.apply host { t with client := t.client.withDialogue d } events
  | _ => return t

/-- A response of the device. -/
def onResponseChecked (host : ClientHost) (t : ClientTurn) (d : Dialogue) (item : ItemCode)
    (body : Bytes) : Option ClientTurn := do
  match item with
  | .login =>
      let (d, events) ← d.onLoginChecked body
      return ClientTurn.apply host { t with client := t.client.withDialogue d } events
  | .mechStatus => return t.apply host (← d.onStatusReplyChecked body)
  | .history =>
      if host.observers.history then return t.apply host (← d.onHistoryChecked body) else return t
  | _ => return t

/-- A whole message of the device. -/
def onMessageChecked (host : ClientHost) (t : ClientTurn) (d : Dialogue) (message : Bytes) :
    Option ClientTurn := do
  if message.length < 2 then return t
  else
    let body ← message.rest? 2
    match OpCode.ofCode? (← message[0]?), ItemCode.ofCode? (← message[1]?) with
    | some .publish, some item => onPublishChecked host t d item body
    | some .response, some item => onResponseChecked host t d item body
    | _, _ => return t

/-- A fragment from the device. -/
def receiveChecked (host : ClientHost) (c : Client) (fragment : Bytes) : Option ClientTurn := do
  match c.dialogue with
  | none => return { client := c }
  | some d =>
      let (channel, received) ← d.channel.receiveChecked fragment
      let d := { d with channel := channel }
      let t : ClientTurn := { client := c.withDialogue d }
      match received with
      | .complete message _ => onMessageChecked host t d message
      | .skipping true => return t.disconnect host
      | _ => return t

/-- Fragments from the device, each with the surroundings in which it comes. -/
def receiveAllChecked (c : Client) : List (ClientHost × Bytes) →
    Option (Client × List ClientOutput)
  | [] => some (c, [])
  | (host, fragment) :: rest => do
      let t ← receiveChecked host c fragment
      let (last, outputs) ← receiveAllChecked t.client rest
      return (last, t.outputs ++ outputs)

section Fragments

variable (host : ClientHost) (t : ClientTurn) (d : Dialogue) (c : Client)

/-- No access to a publication fails. -/
@[simp] theorem onPublishChecked_eq (item : ItemCode) (body : Bytes) :
    onPublishChecked host t d item body = some (onPublish host t d item body) := by
  cases item with
  | pubSsmKey => simp only [onPublishChecked, onPublish, ClientTurn.emitIf]; split <;> simp
  | initial => simp only [onPublishChecked, onPublish]; split <;> simp
  | mechSetting => simp [onPublishChecked, onPublish]
  | mechStatus => simp [onPublishChecked, onPublish]
  | _ => rfl

/-- No access to a response fails. -/
@[simp] theorem onResponseChecked_eq (item : ItemCode) (body : Bytes) :
    onResponseChecked host t d item body = some (onResponse host t d item body) := by
  cases item with
  | login => simp [onResponseChecked, onResponse]
  | mechStatus => simp [onResponseChecked, onResponse]
  | history => simp only [onResponseChecked, onResponse]; split <;> simp
  | _ => rfl

/-- No access to a message fails. -/
@[simp] theorem onMessageChecked_eq (message : Bytes) :
    onMessageChecked host t d message = some (onMessage host t d message) := by
  match message with
  | [] | [_] => rfl
  | op :: item :: body =>
      have hbody : Bytes.rest? (op :: item :: body) 2 = some body := Bytes.rest?_eq (by simp)
      have hlength : ¬ (op :: item :: body).length < 2 := by simp
      rw [onMessageChecked, onMessage, if_neg hlength, hbody]
      simp only [List.getElem?_cons_zero, List.getElem?_cons_succ, onPublishChecked_eq,
        onResponseChecked_eq, Option.bind_eq_bind, Option.bind_some]
      cases OpCode.ofCode? op with
      | none => rfl
      | some op => cases op <;> cases ItemCode.ofCode? item <;> rfl

/-- No access to a fragment fails. -/
@[simp] theorem receiveChecked_eq (fragment : Bytes) :
    receiveChecked host c fragment = some (receive host c fragment) := by
  rw [receiveChecked, receive]
  cases c.dialogue with
  | none => rfl
  | some d =>
      dsimp only
      rw [Channel.receiveChecked_eq, Option.bind_eq_bind, Option.bind_some]
      rcases d.channel.receive fragment with ⟨channel, received⟩
      cases received with
      | complete message authenticated => exact onMessageChecked_eq ..
      | skipping forged => cases forged <;> rfl
      | _ => rfl

/-- **No access to the device's fragments fails**, whatever state they find the client in. -/
theorem receiveAllChecked_eq (fragments : List (ClientHost × Bytes)) :
    c.receiveAllChecked fragments =
      some (c.run (fragments.map fun (host, fragment) => ⟨host, .receive fragment⟩)) := by
  induction fragments generalizing c with
  | nil => rfl
  | cons first rest ih =>
      obtain ⟨host, fragment⟩ := first
      rw [receiveAllChecked, receiveChecked_eq, Option.bind_eq_bind, Option.bind_some, ih]
      rfl

end Fragments

end Client

end SmartLock
