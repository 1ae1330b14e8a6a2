/-
# What counts of a client's conversation

For logins and for encryption it counts which model the conversation is with, how far the login has
come, and the session key with the nonce for sending (`Dialogue.Standing`).  What the device's
messages lead to is said here in these terms: the first message (`Dialogue.begins_onInitial`), the
answer to the login (`Dialogue.onLogin_of_accepts`), and the setting and the status that follow.

The two generations differ in how a client becomes active.  In the second it is the accepted login
that makes it active, in the third the last of the reports that it waits for.  Whether the client
is logging in at all plays no part in either.
-/
import SmartLock.Proofs.Client.Messages
import SmartLock.Proofs.Link.Numbering

namespace SmartLock

/-! ## Standing -/

/-- The session key and the nonce for sending, once there is a key. -/
def Cipher.session? (c : Cipher) : Option (Key × NonceState) := c.key.map (·, c.sending)

/-- What counts of a conversation for logins and for encryption.  What has been received in part and
the nonce for receiving are left out. -/
structure Dialogue.Standing where
  model : Model
  login : Login
  role : Role
  rule : NonceRule
  session : Option (Key × NonceState)
  deriving DecidableEq

namespace Dialogue

/-- The standing of a conversation. -/
def standing (d : Dialogue) : Standing :=
  ⟨d.model, d.login, d.channel.cipher.role, d.channel.cipher.rule, d.channel.cipher.session?⟩

/-- The conversation after it has taken a fragment in. -/
def hearing (d : Dialogue) (fragment : Bytes) : Dialogue :=
  { d with channel := (d.channel.receive fragment).1 }

/-- The conversation with a new session key. -/
def keyed (d : Dialogue) (key : Key) (own device : Token) : Dialogue :=
  { d with channel := d.channel.withKey key own device }

/-- The standing at the beginning of a conversation. -/
theorem standing_of_ofModel? {model : Model} {d : Dialogue} (h : ofModel? model = some d) :
    (generation? model = some .os2 ∧
      d.standing = ⟨model, .os2 none, .central, .os2, none⟩) ∨
    (generation? model = some .os3 ∧
      d.standing = ⟨model, .os3 none false false, .central, .os3, none⟩) := by
  unfold ofModel? at h
  split at h
  · rename_i hgeneration
    exact .inl ⟨hgeneration, by rw [← Option.some.inj h]; rfl⟩
  · rename_i hgeneration
    exact .inr ⟨hgeneration, by rw [← Option.some.inj h]; rfl⟩
  · cases h

/-- Fragments do not change the standing. -/
@[simp] theorem standing_hearing (d : Dialogue) (fragment : Bytes) :
    (d.hearing fragment).standing = d.standing := by
  rcases Channel.cipher_receive_eq_or d.channel fragment with h | h
  · simp only [standing, hearing, h]
  · simp only [standing, hearing, h, Cipher.session?, Cipher.key_advanceReceive,
      Cipher.sending_advanceReceive]
    rfl

/-- A new session key makes no difference between before and after a fragment. -/
theorem standing_keyed_hearing (d : Dialogue) (fragment : Bytes) (key : Key) (own device : Token) :
    ((d.hearing fragment).keyed key own device).standing = (d.keyed key own device).standing := by
  rcases Channel.cipher_receive_eq_or d.channel fragment with h | h
  · simp only [standing, keyed, hearing, Channel.withKey, h]
  · simp only [standing, keyed, hearing, Channel.withKey, h]
    rfl

/-- Without a key there is no encryption, and the standing stays. -/
theorem standing_send_of_key_eq_none {d : Dialogue} (hkey : d.channel.cipher.key = none)
    (writer : Fragment.Writer) (op : OpCode) (item : ItemCode) (body : Bytes) :
    (d.send writer op item body true).dialogue.standing = d.standing := by
  simp only [standing, send, Channel.send, Cipher.encrypt, hkey, if_true]

/-- An encrypted message moves the nonce for sending. -/
theorem standing_send {d : Dialogue} {key : Key} (hkey : d.channel.cipher.key = some key)
    (writer : Fragment.Writer) (op : OpCode) (item : ItemCode) (body : Bytes) :
    (d.send writer op item body true).dialogue.standing =
      { d.standing with session := some (key, d.channel.cipher.advanceSend.sending) } := by
  simp only [standing, send, Channel.cipher_send hkey, if_true, Cipher.session?,
    Cipher.key_advanceSend, hkey, Option.map_some]
  rfl

/-- A conversation that is reset has no session any more. -/
theorem standing_reset (d : Dialogue) :
    d.reset.standing = { d.standing with session := none } := rfl

/-- What is reset keeps nothing of the session. -/
theorem standing_reset_congr {d d' : Dialogue} (h : d'.standing = d.standing) :
    d'.reset.standing = d.reset.standing := by
  rw [standing_reset, standing_reset, h]

end Dialogue

/-- The standing of a client's conversation, if it has one. -/
def Client.standing? (c : Client) : Option Dialogue.Standing := c.dialogue.map Dialogue.standing

/-! ## Events -/

/-- The state to which an event moves a client. -/
def Event.next (state : ClientState) : Event → ClientState
  | .state new => new
  | _ => state

/-- Whether an event only tells something about the device. -/
def Event.isNews : Event → Bool
  | .setting _ | .status _ | .history _ => true
  | .disconnect | .state _ => false

/-- News does not close the link. -/
theorem Event.not_mem_of_news {events : List Event} (h : events.all Event.isNews = true) :
    .disconnect ∉ events := fun hmem => Bool.noConfusion (List.all_eq_true.mp h _ hmem)

/-- News does not move the state. -/
theorem Event.foldl_next_of_news {events : List Event} (h : events.all Event.isNews = true)
    (state : ClientState) : events.foldl Event.next state = state := by
  induction events with
  | nil => rfl
  | cons event rest ih =>
      obtain ⟨hevent, hrest⟩ := Bool.and_eq_true_iff.mp h
      have hnext : event.next state = state := by cases event <;> first | rfl | cases hevent
      rw [List.foldl_cons, hnext, ih hrest]

namespace ClientTurn

variable (host : ClientHost) (t : ClientTurn)

@[simp] theorem state_setState (state : ClientState) :
    (t.setState host state).client.state = state := by rw [client_setState]

@[simp] theorem dialogue_setState (state : ClientState) :
    (t.setState host state).client.dialogue = t.client.dialogue := by rw [client_setState]

@[simp] theorem state_disconnect : (t.disconnect host).client.state = .idle := by
  rw [disconnect, state_setState]

@[simp] theorem dialogue_disconnect :
    (t.disconnect host).client.dialogue = t.client.dialogue.map Dialogue.reset := by
  rw [disconnect, dialogue_setState]
  rfl

/-- Events that do not close the link leave the conversation alone, and each moves the state on. -/
theorem apply_of_not_mem {events : List Event} (h : .disconnect ∉ events) :
    (t.apply host events).client.dialogue = t.client.dialogue ∧
      (t.apply host events).client.state = events.foldl Event.next t.client.state := by
  induction events generalizing t with
  | nil => exact ⟨rfl, rfl⟩
  | cons event rest ih =>
      have hrest : .disconnect ∉ rest := fun hmem => h (List.mem_cons_of_mem _ hmem)
      cases event with
      | disconnect => exact absurd List.mem_cons_self h
      | state new =>
          have hnext := ih (t.setState host new) hrest
          rwa [dialogue_setState, state_setState] at hnext
      | setting setting =>
          exact ih { t with client := { t.client with setting := some setting } } hrest
      | status status =>
          have hnext := ih (ClientTurn.emitIf { t with client := { t.client with status := status } }
            host.observers.status (.status status)) hrest
          rwa [client_emitIf] at hnext
      | history history =>
          have hnext := ih (t.emitIf host.observers.history (.history history)) hrest
          rwa [client_emitIf] at hnext

end ClientTurn

/-! ## Messages that matter -/

namespace Dialogue

/-- Whether the answer to a login is long enough and says that the login is accepted. -/
def accepts (d : Dialogue) (body : Bytes) : Bool :=
  match d.login with
  | .os2 _ => loginSizeOs2 ≤ body.length && ResultCode.ofCode (body.getD 1 0) = .success
  | .os3 .. => loginSizeOs3 ≤ body.length && ResultCode.ofCode (body.getD 0 0) = .success

/-- The conversation after an accepted login: in the third generation the client waits anew for what
its model reports. -/
def accepted (d : Dialogue) : Dialogue :=
  match d.login with
  | .os2 _ => d
  | .os3 secret _ _ => { d with login := .os3 secret (!d.model.hasSetting) false }

/-- An accepted login changes nothing but what counts as reported. -/
theorem standing_accepted (d : Dialogue) :
    d.accepted.standing = { d.standing with login := d.accepted.login } := by
  unfold accepted
  split <;> rfl

/-- After an accepted login of the third generation nothing counts as reported that the model
reports. -/
theorem login_of_accepted {d : Dialogue} {secret : Option Key} {setting status : Bool}
    (h : d.accepted.login = .os3 secret setting status) :
    (∃ oldSetting oldStatus, d.login = .os3 secret oldSetting oldStatus) ∧
      setting = (!d.model.hasSetting) ∧ status = false := by
  unfold accepted at h
  split at h
  · rename_i keys hlogin
    simp [hlogin] at h
  · rename_i old oldSetting oldStatus hlogin
    cases h
    exact ⟨⟨oldSetting, oldStatus, hlogin⟩, rfl, rfl⟩

/-- An accepted login makes no difference between before and after a fragment. -/
theorem standing_accepted_hearing (d : Dialogue) (fragment : Bytes) :
    (d.hearing fragment).accepted.standing = d.accepted.standing := by
  obtain ⟨model, channel, login⟩ := d
  cases login with
  | os2 keys => exact standing_hearing ⟨model, channel, .os2 keys⟩ fragment
  | os3 secret setting status =>
      exact standing_hearing ⟨model, channel, .os3 secret (!model.hasSetting) false⟩ fragment

/-- The session key that a login installs for the device's token, and the client's own token. -/
def Derives (d : Dialogue) (device : Token) (key : Key) (own : Token) : Prop :=
  match d.login with
  | .os2 keys => ∃ pair fresh shared, keys = some pair ∧
      PrivateKey.sharedKey fresh pair.publicKey = .ok shared ∧ key = sessionKeyOs2 shared own device
  | .os3 secret _ _ => ∃ s, secret = some s ∧ key = sessionKeyOs3 s device ∧ own = Octets.zero 4

/-- What becomes of the device's first message: the connection ends, or a login has begun under a
new session key. -/
def Opening.Begins (opening : Opening) (d : Dialogue) (device : Token) : Prop :=
  (opening.events = [.disconnect] ∧ opening.dialogue.reset.standing = d.reset.standing) ∨
  ∃ key own, d.Derives device key own ∧ opening.events = [.state .authenticating] ∧
    opening.dialogue.standing = (d.keyed key own device).standing

/-- A login that is sent under a new key has begun, unless the link refuses it. -/
theorem begins_ofSent {d : Dialogue} {device own : Token} {key : Key}
    (h : d.Derives device key own) (writer : Fragment.Writer) (op : OpCode) (item : ItemCode)
    (body : Bytes) (random : RandomSource) :
    (Opening.ofSent ((d.keyed key own device).send writer op item body false) random).Begins d
      device := by
  rcases events_ofSent ((d.keyed key own device).send writer op item body false) random with
    hevents | hevents
  · exact .inl ⟨hevents, rfl⟩
  · exact .inr ⟨key, own, h, hevents, rfl⟩

/-- A login of the second generation. -/
theorem begins_openOs2 {d : Dialogue} {keys : DeviceKeys} (hlogin : d.login = .os2 (some keys))
    (writer : Fragment.Writer) (random : RandomSource) (device : Token) :
    (d.openOs2 writer random keys device).Begins d device := by
  rw [openOs2]
  rcases random.draw tokenSize with ⟨own, afterToken⟩
  dsimp only
  rcases PrivateKey.generate afterToken with ⟨fresh, afterKey⟩
  dsimp only
  cases hshared : fresh.sharedKey keys.publicKey with
  | error error => exact .inl ⟨rfl, rfl⟩
  | ok shared =>
      have hderives : d.Derives device (sessionKeyOs2 shared own device) own := by
        unfold Derives
        rw [hlogin]
        exact ⟨keys, fresh, shared, rfl, hshared, rfl⟩
      exact begins_ofSent hderives ..

/-- A login of the third generation. -/
theorem begins_openOs3 {d : Dialogue} {secret : Key} {setting status : Bool}
    (hlogin : d.login = .os3 (some secret) setting status) (writer : Fragment.Writer)
    (random : RandomSource) (device : Token) :
    (d.openOs3 writer random secret device).Begins d device := by
  have hderives : d.Derives device (sessionKeyOs3 secret device) (Octets.zero 4) := by
    unfold Derives
    rw [hlogin]
    exact ⟨secret, rfl, rfl, rfl⟩
  exact begins_ofSent hderives ..

/-- What the device's first message leads to. -/
theorem begins_onInitial (d : Dialogue) (writer : Fragment.Writer) (random : RandomSource)
    (body : Bytes) :
    (d.onInitial writer random body).Begins d (Octets.ofBytes tokenSize body) := by
  rw [onInitial]
  split
  · exact .inl ⟨rfl, rfl⟩
  dsimp only
  split
  · rename_i keys hlogin
    split
    · exact .inl ⟨rfl, rfl⟩
    -- That the old key is dropped first makes no difference once there is a new one.
    · rename_i keys
      exact begins_openOs2 (d := { d with channel := { d.channel with
        cipher := d.channel.cipher.reset } }) hlogin writer random _
  · rename_i secret setting status hlogin
    split
    · exact .inl ⟨rfl, rfl⟩
    · exact begins_openOs3 hlogin ..

/-- A login that is not accepted ends the connection. -/
theorem onLogin_of_not_accepts {d : Dialogue} {body : Bytes} (h : d.accepts body = false) :
    d.onLogin body = (d, [.disconnect]) := by
  obtain ⟨model, channel, login⟩ := d
  unfold accepts at h
  unfold onLogin
  cases login <;> dsimp only at h ⊢ <;> split
  case os2.isFalse hlen | os3.isFalse hlen =>
    simp only [decide_eq_true (Nat.not_lt.mp hlen), Bool.true_and, decide_eq_false_iff_not] at h
    rw [if_pos h]
  all_goals rfl

/-- A status of the second generation is news. -/
theorem news_statusEventsOs2 (model : Model) (body : Bytes) :
    (statusEventsOs2 model body).all Event.isNews = true := by
  unfold statusEventsOs2
  split <;> rfl

/-- The answer to a request for the status is news. -/
theorem news_onStatusReply (d : Dialogue) (body : Bytes) :
    (d.onStatusReply body).all Event.isNews = true := by
  unfold onStatusReply
  split
  · exact news_statusEventsOs2 ..
  · split <;> rfl

/-- The history is news. -/
theorem news_onHistory (d : Dialogue) (body : Bytes) :
    (d.onHistory body).all Event.isNews = true := by
  unfold onHistory
  split
  · rfl
  · split <;> rfl

/-- An accepted login makes a client of the second generation active, and one of the third wait. -/
theorem onLogin_of_accepts {d : Dialogue} {body : Bytes} (h : d.accepts body = true) :
    (d.onLogin body).1 = d.accepted ∧ .disconnect ∉ (d.onLogin body).2 ∧
      ∀ state, (d.onLogin body).2.foldl Event.next state =
        if d.osVersion = .os2 then .active else state := by
  obtain ⟨model, channel, login⟩ := d
  unfold accepts at h
  unfold onLogin accepted osVersion
  cases login <;> dsimp only at h ⊢ <;>
    obtain ⟨hlen, hcode⟩ := Bool.and_eq_true_iff.mp h <;>
    rw [if_neg (Nat.not_lt.mpr (of_decide_eq_true hlen)),
      if_neg (not_not_intro (of_decide_eq_true hcode))]
  · have hstatus := news_statusEventsOs2 model (body.drop (loginHeadOs2 + 12))
    refine ⟨rfl, ?_, fun state => ?_⟩
    · unfold loginEventsOs2
      split <;> simp [Event.not_mem_of_news hstatus]
    · unfold loginEventsOs2
      split <;> simp [Event.next, Event.foldl_next_of_news hstatus]
  · exact ⟨rfl, List.not_mem_nil, fun _ => rfl⟩

/-- A client that is not active becomes so once everything has been reported. -/
theorem activation_cases (state : ClientState) (setting status : Bool) :
    (state ≠ .active ∧ (setting && status) = true ∧
      activation state setting status = [.state .active]) ∨
    ((state = .active ∨ (setting && status) = false) ∧ activation state setting status = []) := by
  cases setting <;> cases status <;> cases state <;> decide

/-- Becoming active does not close the link. -/
theorem not_mem_activation (state : ClientState) (setting status : Bool) :
    .disconnect ∉ activation state setting status := by
  unfold activation
  split <;> simp

/-- A client becomes active once everything has been reported. -/
theorem foldl_next_activation (state : ClientState) (setting status : Bool) :
    (activation state setting status).foldl Event.next state =
      if setting && status then .active else state := by
  cases setting <;> cases status <;> cases state <;> rfl

/-- A setting of the third generation that can be read. -/
theorem onSetting_os3 {d : Dialogue} {secret : Option Key} {setting status : Bool}
    (hlogin : d.login = .os3 secret setting status) {body : Bytes} {reported : SettingOs3}
    (h : SettingOs3.ofBytes? body = some reported) (state : ClientState) :
    d.onSetting state body = ({ d with login := .os3 secret true status },
      .setting (.ofOs3 reported) :: activation state true status) := by
  obtain ⟨model, channel, login⟩ := d
  obtain rfl : login = .os3 secret setting status := hlogin
  simp only [onSetting, h]

/-- A status of the third generation that can be read. -/
theorem onStatus_os3 {d : Dialogue} {secret : Option Key} {setting status : Bool}
    (hlogin : d.login = .os3 secret setting status) {body : Bytes} {reported : Status}
    (h : statusOs3? d.model body = some reported) (state : ClientState) :
    d.onStatus state body = ({ d with login := .os3 secret setting true },
      .status reported :: activation state setting true) := by
  obtain ⟨model, channel, login⟩ := d
  obtain rfl : login = .os3 secret setting status := hlogin
  simp only [onStatus, h]

/-- What a setting leads to: in the second generation it is news, in the third it also counts for
the login. -/
theorem onSetting_cases (d : Dialogue) (state : ClientState) (body : Bytes) :
    ((d.onSetting state body).1 = d ∧ (d.onSetting state body).2.all Event.isNews = true) ∨
    ∃ secret setting status, d.login = .os3 secret setting status ∧
      (SettingOs3.ofBytes? body).isSome = true ∧
      (d.onSetting state body).1 = { d with login := .os3 secret true status } ∧
      .disconnect ∉ (d.onSetting state body).2 ∧
      (d.onSetting state body).2.foldl Event.next state = if status then .active else state := by
  cases hlogin : d.login with
  | os2 keys =>
      left
      rw [onSetting, hlogin]
      dsimp only
      split <;> exact ⟨rfl, rfl⟩
  | os3 secret setting status =>
      cases hreported : SettingOs3.ofBytes? body with
      | none =>
          left
          rw [onSetting, hlogin]
          dsimp only
          rw [hreported]
          exact ⟨rfl, rfl⟩
      | some reported =>
          rw [onSetting_os3 hlogin hreported]
          refine .inr ⟨secret, setting, status, rfl, rfl, rfl, ?_, ?_⟩
          · simp [not_mem_activation]
          · exact foldl_next_activation state true status

/-- What a status leads to: in the second generation it is news, in the third it also counts for
the login. -/
theorem onStatus_cases (d : Dialogue) (state : ClientState) (body : Bytes) :
    ((d.onStatus state body).1 = d ∧ (d.onStatus state body).2.all Event.isNews = true) ∨
    ∃ secret setting status, d.login = .os3 secret setting status ∧
      (statusOs3? d.model body).isSome = true ∧
      (d.onStatus state body).1 = { d with login := .os3 secret setting true } ∧
      .disconnect ∉ (d.onStatus state body).2 ∧
      (d.onStatus state body).2.foldl Event.next state = if setting then .active else state := by
  cases hlogin : d.login with
  | os2 keys =>
      left
      rw [onStatus, hlogin]
      exact ⟨rfl, news_statusEventsOs2 ..⟩
  | os3 secret setting status =>
      cases hreported : statusOs3? d.model body with
      | none =>
          left
          rw [onStatus, hlogin]
          dsimp only
          rw [hreported]
          exact ⟨rfl, rfl⟩
      | some reported =>
          rw [onStatus_os3 hlogin hreported]
          refine .inr ⟨secret, setting, status, rfl, rfl, rfl, ?_, ?_⟩
          · simp [not_mem_activation]
          · have hnext := foldl_next_activation state setting true
            rwa [Bool.and_true] at hnext

end Dialogue

end SmartLock
