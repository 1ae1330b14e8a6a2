/-
# How a client goes through a login

The messages of a login in the third generation, one by one, and what each of them makes of a client
whose link takes everything: the device's token, the accepted login, the status and the setting.
The token is answered with the login; the other messages are answered with nothing, and none of the
four closes the link.

What has happened to the client before makes no difference: in every run its end of the link is that
of the central, and its nonces follow the rule of its generation (`Client.regular_run`).
-/
import SmartLock.Proofs.Client.Effects
import SmartLock.Proofs.Link.ShortMessages

namespace SmartLock

/-! ## Outputs -/

/-- Whether an output only tells somebody something: nothing is sent, and the link stays open. -/
def ClientOutput.isTold : ClientOutput → Bool
  | .state _ | .status _ | .history _ | .devices _ => true
  | .write .. | .disconnect => false

namespace ClientTurn

variable (host : ClientHost) (t : ClientTurn)

/-- An output that somebody may listen to comes last. -/
theorem outputs_emitIf (observed : Bool) (output : ClientOutput) :
    (t.emitIf observed output).outputs = t.outputs ++ if observed then [output] else [] := by
  cases observed with
  | false => exact (List.append_nil _).symm
  | true => rfl

/-- A new state is told, and nothing else is put out. -/
theorem outputs_setState (state : ClientState) :
    ∃ told, (t.setState host state).outputs = t.outputs ++ told ∧
      told.all ClientOutput.isTold = true := by
  unfold setState
  split
  · exact ⟨[], (List.append_nil _).symm, rfl⟩
  · refine ⟨_, outputs_emitIf .., ?_⟩
    split <;> rfl

/-- Events that do not close the link put out nothing but what they tell. -/
theorem outputs_apply_of_not_mem {events : List Event} (h : .disconnect ∉ events) :
    ∃ told, (t.apply host events).outputs = t.outputs ++ told ∧
      told.all ClientOutput.isTold = true := by
  induction events generalizing t with
  | nil => exact ⟨[], (List.append_nil _).symm, rfl⟩
  | cons event rest ih =>
      have hrest : .disconnect ∉ rest := fun hmem => h (List.mem_cons_of_mem _ hmem)
      -- What one event tells comes before what the others do.
      have hcons {t' : ClientTurn} (hfirst : ∃ told, t'.outputs = t.outputs ++ told ∧
          told.all ClientOutput.isTold = true) :
          ∃ told, (t'.apply host rest).outputs = t.outputs ++ told ∧
            told.all ClientOutput.isTold = true := by
        obtain ⟨first, hfirst, hfirstTold⟩ := hfirst
        obtain ⟨told, heq, htold⟩ := ih t' hrest
        exact ⟨first ++ told, by rw [heq, hfirst, List.append_assoc],
          by rw [List.all_append, hfirstTold, htold]; rfl⟩
      cases event with
      | disconnect => exact absurd List.mem_cons_self h
      | state new => exact hcons (t.outputs_setState host new)
      | setting setting => exact hcons ⟨[], (List.append_nil _).symm, rfl⟩
      | status status =>
          refine hcons ⟨_, outputs_emitIf .., ?_⟩
          split <;> rfl
      | history history =>
          refine hcons ⟨_, outputs_emitIf .., ?_⟩
          split <;> rfl

/-- A report only tells something, also when it makes the client active. -/
theorem isTold_apply_report (client : Client) {report : Event} (h : report ≠ .disconnect)
    (state : ClientState) (setting status : Bool) :
    (ClientTurn.apply host { client := client }
      (report :: Dialogue.activation state setting status)).outputs.all
        ClientOutput.isTold = true := by
  have hopen : .disconnect ∉ report :: Dialogue.activation state setting status := by
    simp [h.symm, Dialogue.not_mem_activation]
  obtain ⟨told, heq, htold⟩ := outputs_apply_of_not_mem host { client := client } hopen
  exact heq ▸ htold

/-- A client becomes active once everything has been reported. -/
theorem client_apply_activation (setting status : Bool) :
    (t.apply host (Dialogue.activation t.client.state setting status)).client =
      { t.client with state := if setting && status then .active else t.client.state } := by
  rcases Dialogue.activation_cases t.client.state setting status with
    ⟨-, hready, hactivation⟩ | ⟨hactive | hnot, hactivation⟩
  · rw [hactivation, apply, apply, client_setState, if_pos hready]
  · rw [hactivation, apply, ← hactive, ite_self]
  · rw [hactivation, apply, hnot, if_neg Bool.false_ne_true]

end ClientTurn

namespace Dialogue

/-- In the third generation the login is the start of the key for the device's token. -/
theorem onInitial_os3 {d : Dialogue} {secret : Key} {setting status : Bool}
    (hlogin : d.login = .os3 (some secret) setting status) {writer : Fragment.Writer}
    (hwriter : Fragment.TakesAll writer) (random : RandomSource) (token : Token) :
    let key := sessionKeyOs3 secret token
    d.onInitial writer random token.toBytes =
      { dialogue := d.keyed key (Octets.zero 4) token
        random := random
        offer := ⟨[Fragment.whole false (loginRequest key)], none⟩
        events := [.state .authenticating] } := by
  intro key
  obtain ⟨model, channel, login⟩ := d
  obtain rfl : login = .os3 (some secret) setting status := hlogin
  have hsize : ¬ token.toBytes.length < tokenSize := by
    rw [token.length_toBytes]
    decide
  have hsend := Channel.send_plain (channel.withKey key (Octets.zero 4) token)
    (List.cons_ne_nil _ _) (length_loginRequest_le key) hwriter
  rw [onInitial, if_neg hsize]
  simp only [openOs3, send, head]
  rw [show Octets.ofBytes tokenSize token.toBytes = token from token.ofBytes_toBytes,
    List.singleton_append, hsend]
  rfl

/-- An accepted login of the third generation tells nothing. -/
theorem onLogin_os3 {d : Dialogue} {secret : Option Key} {setting status : Bool}
    (hlogin : d.login = .os3 secret setting status) {body : Bytes} (h : d.accepts body = true) :
    d.onLogin body = ({ d with login := .os3 secret (!d.model.hasSetting) false }, []) := by
  obtain ⟨model, channel, login⟩ := d
  obtain rfl : login = .os3 secret setting status := hlogin
  obtain ⟨hlen, hcode⟩ := Bool.and_eq_true_iff.mp h
  unfold onLogin
  dsimp only
  rw [if_neg (Nat.not_lt.mpr (of_decide_eq_true hlen)),
    if_neg (not_not_intro (of_decide_eq_true hcode))]

end Dialogue

/-- Under which rule the nonces of a login run. -/
def Login.rule : Login → NonceRule
  | .os2 _ => .os2
  | .os3 .. => .os3

namespace Client

/-! ## Regular conversations -/

/-- The end of the link is that of the central, and its nonces follow the rule of its
generation. -/
def Regular (s : Dialogue.Standing) : Prop := s.role = .central ∧ s.rule = s.login.rule

/-- No request makes a conversation irregular. -/
theorem regular_step {c : Client} (h : ∀ s, c.standing? = some s → Regular s) (m : Moment)
    {s : Dialogue.Standing} (hs : (c.step m.host m.request).client.standing? = some s) :
    Regular s := by
  -- The messages and the keys change the login within its generation.
  have hlogin {d : Dialogue} (hd : c.standing? = some d.standing) {login : Login}
      (hrule : login.rule = d.login.rule) : Regular { d.standing with login := login } := by
    obtain ⟨hrole, hregular⟩ := h _ hd
    exact ⟨hrole, hregular.trans hrule.symm⟩
  cases effect_step c m with
  | keep _ hstanding => exact h s (hstanding.symm.trans hs)
  | begin model d _ hd _ hstanding =>
      obtain rfl := Option.some.inj (hs.symm.trans hstanding)
      rcases Dialogue.standing_of_ofModel? hd with ⟨-, hnew⟩ | ⟨-, hnew⟩ <;> rw [hnew] <;>
        exact ⟨rfl, rfl⟩
  | setKeysOs2 d old new hd hold _ hstanding =>
      obtain rfl := Option.some.inj (hs.symm.trans hstanding)
      exact hlogin (standing?_of_dialogue hd) (by rw [hold]; rfl)
  | setKeysOs3 d old new setting status _ hd hold _ hstanding =>
      obtain rfl := Option.some.inj (hs.symm.trans hstanding)
      exact hlogin (standing?_of_dialogue hd) (by rw [hold]; rfl)
  | encrypt d key _ hactive _ _ hstanding =>
      obtain rfl := Option.some.inj (hs.symm.trans hstanding)
      exact h d.standing (standing?_of_dialogue (dialogue_of_activeDialogue hactive))
  | drop _ hstanding =>
      obtain ⟨old, hold, rfl⟩ := Option.map_eq_some_iff.mp (hstanding.symm.trans hs)
      exact h old hold
  | opening d body key own hhears _ _ _ hstanding =>
      obtain rfl := Option.some.inj (hs.symm.trans hstanding)
      exact h d.standing hhears.standing?
  | accept d body hhears _ _ hstanding =>
      obtain rfl := Option.some.inj (hs.symm.trans hstanding)
      rw [Dialogue.standing_accepted]
      refine hlogin hhears.standing? ?_
      unfold Dialogue.accepted
      cases hd : d.login <;> simp only [hd, Login.rule]
  | setting d body old setting status hhears _ hold _ hstanding =>
      obtain rfl := Option.some.inj (hs.symm.trans hstanding)
      exact hlogin hhears.standing? (by rw [hold]; rfl)
  | status d body old setting status hhears _ hold _ hstanding =>
      obtain rfl := Option.some.inj (hs.symm.trans hstanding)
      exact hlogin hhears.standing? (by rw [hold]; rfl)

/-- In every run of a new client its conversation is regular. -/
theorem regular_run (random : RandomSource) (ms : List Moment) {s : Dialogue.Standing}
    (hs : ((Client.new random).run ms).1.standing? = some s) : Regular s := by
  induction ms using List.reverseRecOn generalizing s with
  | nil => cases hs
  | append_singleton ms m ih =>
      rw [run_concat] at hs
      exact regular_step (fun _ => ih) m hs

/-! ## The messages of the login -/

/-- A fragment of no note is only taken in. -/
theorem receive_of_isQuiet (host : ClientHost) {c : Client} {d : Dialogue}
    (hd : c.dialogue = some d) {fragment : Bytes} (h : (d.channel.receive fragment).2.IsQuiet) :
    receive host c fragment = heard c d fragment := by
  rw [receive, hd, heard]
  dsimp only
  cases hresult : (d.channel.receive fragment).2 with
  | complete message authenticated => exact absurd hresult (h.2 message authenticated)
  | skipping forged =>
      cases forged with
      | true => exact absurd hresult h.1
      | false => rfl
  | _ => rfl

/-- Fragments of a kind with which a client in its state does nothing are only taken in, one after
the other. -/
theorem run_of_takesIn {c : Client} {d : Dialogue} (hd : c.dialogue = some d) {p : Received → Prop}
    (hp : ∀ (host : ClientHost) (c' : Client) (d' : Dialogue) (fragment : Bytes),
      c'.dialogue = some d' → c'.state = c.state → p (d'.channel.receive fragment).2 →
      receive host c' fragment = heard c' d' fragment)
    {ms : List Moment} {fragments : List Bytes}
    (hms : ms.map Moment.request = fragments.map Request.receive)
    (h : ∀ r ∈ (d.channel.receiveAll fragments).2, p r) :
    c.run ms = (c.withDialogue { d with channel := (d.channel.receiveAll fragments).1 }, []) := by
  induction ms generalizing c d fragments with
  | nil =>
      obtain rfl : fragments = [] := by simpa using hms
      obtain ⟨random, dialogue, state, setting, status⟩ := c
      obtain rfl : dialogue = some d := hd
      rfl
  | cons m rest ih =>
      obtain ⟨host, request⟩ := m
      cases fragments with
      | nil => simp at hms
      | cons fragment fragments =>
          obtain ⟨rfl, hrest⟩ := List.cons.inj hms
          have hreceive := hp host c d fragment hd rfl (h _ List.mem_cons_self)
          have hlater := ih (c := (heard c d fragment).client) (d := d.hearing fragment) rfl hp
            hrest fun r hr => h r (List.mem_cons_of_mem _ hr)
          rw [run]
          simp only [step, hreceive, ClientTurn.finish]
          rw [hlater]
          rfl

section Steps

variable (host : ClientHost) {c : Client} {d : Dialogue} {fragment : Bytes} {authenticated : Bool}
  (hd : c.dialogue = some d) {secret : Option Key} {setting status : Bool}

include hd

/-- The device's token is answered with the login under the key for this token. -/
theorem receive_initial (htakes : ∀ outputs fragment, host.takes outputs fragment = true)
    (hstate : c.state ≠ .authenticating) {secret : Key}
    (hlogin : d.login = .os3 (some secret) setting status) {token : Token}
    (h : (d.channel.receive fragment).2 =
      .complete (greeting token) authenticated) :
    let key := Dialogue.sessionKeyOs3 secret token
    let t := receive host c fragment
    t.client = { c.withDialogue ((d.hearing fragment).keyed key (Octets.zero 4) token) with
      state := .authenticating } ∧
    ∃ told, t.outputs = .write (Fragment.whole false (loginRequest key)) true :: told ∧
      told.all ClientOutput.isTold = true := by
  have hwriter : Fragment.TakesAll ((heard c d fragment).writer host) := fun _ _ => htakes _ _
  have hopening := (d.hearing fragment).onInitial_os3 hlogin hwriter c.random token
  rw [receive_of_complete host hd h, greeting, onMessage_publish, onPublish,
    if_neg (show (heard c d fragment).client.state ≠ .authenticating from hstate)]
  dsimp only
  rw [show (heard c d fragment).client.random = c.random from rfl, hopening, ClientTurn.apply,
    ClientTurn.apply]
  refine ⟨ClientTurn.client_setState .., ?_⟩
  obtain ⟨told, heq, htold⟩ := ClientTurn.outputs_setState host
    { client := c.withDialogue ((d.hearing fragment).keyed
        (Dialogue.sessionKeyOs3 secret token) (Octets.zero 4) token)
      outputs := [.write (Fragment.whole false
        (loginRequest (Dialogue.sessionKeyOs3 secret token))) true] }
    .authenticating
  exact ⟨told, heq, htold⟩

/-- A client that has answered a first message and waits for the device ignores another one. -/
theorem receive_initial_of_authenticating (hstate : c.state = .authenticating) {body : Bytes}
    (h : (d.channel.receive fragment).2 =
      .complete (OpCode.publish.code :: ItemCode.initial.code :: body) authenticated) :
    receive host c fragment = heard c d fragment := by
  rw [receive_of_complete host hd h, onMessage_publish, onPublish,
    if_pos (show (heard c d fragment).client.state = .authenticating from hstate)]

/-- An accepted login makes the client wait for the reports, and puts nothing out. -/
theorem receive_accepted (hlogin : d.login = .os3 secret setting status) {body : Bytes}
    (h : (d.channel.receive fragment).2 =
      .complete (OpCode.response.code :: ItemCode.login.code :: body) authenticated)
    (haccepts : d.accepts body = true) :
    receive host c fragment = { client := c.withDialogue { d.hearing fragment with
      login := .os3 secret (!d.model.hasSetting) false } } := by
  rw [receive_of_complete host hd h, onMessage_response, onResponse,
    Dialogue.onLogin_os3 (d := d.hearing fragment) hlogin haccepts]
  rfl

/-- A status is taken in, and may be the last thing that the client has waited for. -/
theorem receive_eq_of_status (hlogin : d.login = .os3 secret setting status) {body : Bytes}
    (h : (d.channel.receive fragment).2 =
      .complete (OpCode.publish.code :: ItemCode.mechStatus.code :: body) authenticated)
    {reported : Status} (hreported : Dialogue.statusOs3? d.model body = some reported) :
    receive host c fragment = ClientTurn.apply host
      { client := c.withDialogue { d.hearing fragment with login := .os3 secret setting true } }
      (.status reported :: Dialogue.activation c.state setting true) := by
  rw [receive_of_complete host hd h, onMessage_publish, onPublish,
    Dialogue.onStatus_os3 (d := d.hearing fragment) hlogin hreported]
  rfl

/-- A setting is taken in, and may be the last thing that the client has waited for. -/
theorem receive_eq_of_setting (hlogin : d.login = .os3 secret setting status) {body : Bytes}
    (h : (d.channel.receive fragment).2 =
      .complete (OpCode.publish.code :: ItemCode.mechSetting.code :: body) authenticated)
    {reported : SettingOs3} (hreported : SettingOs3.ofBytes? body = some reported) :
    receive host c fragment = ClientTurn.apply host
      { client := c.withDialogue { d.hearing fragment with login := .os3 secret true status } }
      (.setting (.ofOs3 reported) :: Dialogue.activation c.state true status) := by
  rw [receive_of_complete host hd h, onMessage_publish, onPublish,
    Dialogue.onSetting_os3 (d := d.hearing fragment) hlogin hreported]
  rfl

/-- A status is taken in, and makes the client active if it has been waiting for nothing else. -/
theorem receive_status (hlogin : d.login = .os3 secret setting status) {body : Bytes}
    (h : (d.channel.receive fragment).2 =
      .complete (OpCode.publish.code :: ItemCode.mechStatus.code :: body) authenticated)
    {reported : Status} (hreported : Dialogue.statusOs3? d.model body = some reported) :
    let t := receive host c fragment
    t.client = { c.withDialogue { d.hearing fragment with login := .os3 secret setting true } with
      status := reported
      state := if setting then .active else c.state } ∧
    t.outputs.all ClientOutput.isTold = true := by
  rw [receive_eq_of_status host hd hlogin h hreported]
  constructor
  · have hclient := ClientTurn.client_apply_activation host (ClientTurn.emitIf
      { client := { c.withDialogue { d.hearing fragment with login := .os3 secret setting true } with
          status := reported } } host.observers.status (.status reported)) setting true
    rw [ClientTurn.client_emitIf, Bool.and_true] at hclient
    exact hclient
  · exact ClientTurn.isTold_apply_report host _ (by simp) c.state setting true

/-- A setting is taken in, and makes the client active if it has been waiting for nothing else. -/
theorem receive_setting (hlogin : d.login = .os3 secret setting status) {body : Bytes}
    (h : (d.channel.receive fragment).2 =
      .complete (OpCode.publish.code :: ItemCode.mechSetting.code :: body) authenticated)
    {reported : SettingOs3} (hreported : SettingOs3.ofBytes? body = some reported) :
    let t := receive host c fragment
    t.client = { c.withDialogue { d.hearing fragment with login := .os3 secret true status } with
      setting := some (.ofOs3 reported)
      state := if status then .active else c.state } ∧
    t.outputs.all ClientOutput.isTold = true := by
  rw [receive_eq_of_setting host hd hlogin h hreported]
  constructor
  · exact ClientTurn.client_apply_activation host
      { client := { c.withDialogue { d.hearing fragment with login := .os3 secret true status } with
          setting := some (.ofOs3 reported) } } true status
  · exact ClientTurn.isTold_apply_report host _ (by simp) c.state true status

end Steps

end Client

end SmartLock
