/-
# A login of the second generation

The device's token is answered with a login of several fragments, and the device answers with one
encrypted message, which carries its setting and its status.  The two session keys come from both
tokens and from the secret that the client's fresh key pair and the device's own one have in common.

`Client.os2Login_run` follows such a login from the token to the active client, whatever the client
has been through before.
-/
import SmartLock.Proofs.Client.Openings
import SmartLock.Proofs.Crypto.KeyAgreement
import SmartLock.Proofs.Link.WholeMessages

namespace SmartLock

/-! ## Messages -/

/-- What a login of the second generation signs: the number of the key, which is zero, the fresh
public key, and the client's token. -/
def signedOs2 (fresh : PublicKey) (own : Token) : Bytes := [0, 0] ++ fresh.toBytes ++ own.toBytes

/-- The login is what is signed, and the first bytes of its code. -/
theorem loginRequestOs2_eq (secret : Key) (fresh : PublicKey) (own device : Token) :
    loginRequestOs2 secret fresh own device =
      [OpCode.sync.code, ItemCode.login.code] ++ signedOs2 fresh own ++
        (cmac secret (signedOs2 fresh own ++ device.toBytes)).toBytes.take 4 := rfl

/-- It travels in several fragments. -/
theorem length_loginRequestOs2 (secret : Key) (fresh : PublicKey) (own device : Token) :
    (loginRequestOs2 secret fresh own device).length = 76 := by
  simp [loginRequestOs2_eq, signedOs2, Octets.length_toBytes]

/-- The device's answer to a login of the second generation: a head, its setting and its status. -/
def loginAnswerOs2 (head : Octets 10) (setting : SettingOs2) (status : StatusOs2) : Bytes :=
  OpCode.response.code :: ItemCode.login.code ::
    (head.toBytes ++ setting.toBytes ++ status.toBytes)

namespace Dialogue

/-- The setting and the status are read where the device has put them. -/
theorem loginEventsOs2_eq (model : Model) (head : Octets 10) (setting : SettingOs2)
    (status : StatusOs2) :
    loginEventsOs2 model (head.toBytes ++ setting.toBytes ++ status.toBytes) =
      [.setting (Setting.ofOs2 model setting), .state .active,
        .status (Status.ofOs2 model status)] := by
  have hsetting : (head.toBytes ++ setting.toBytes ++ status.toBytes).drop loginHeadOs2 =
      setting.toBytes ++ status.toBytes := by
    rw [List.append_assoc, List.drop_left' (by rw [head.length_toBytes, loginHeadOs2])]
  have hstatus : (head.toBytes ++ setting.toBytes ++ status.toBytes).drop (loginHeadOs2 + 12) =
      status.toBytes := by
    rw [List.drop_left' (by simp [Octets.length_toBytes, loginHeadOs2])]
  have hreadSetting : SettingOs2.ofBytes? (setting.toBytes ++ status.toBytes) = some setting := by
    rw [SettingOs2.ofBytes?, List.take_left' setting.length_toBytes]
    exact dif_pos setting.length_toBytes
  have hreadStatus : StatusOs2.ofBytes? status.toBytes = some status := by
    rw [StatusOs2.ofBytes?, List.take_of_length_le (Nat.le_of_eq status.length_toBytes)]
    exact dif_pos status.length_toBytes
  simp only [loginEventsOs2, statusEventsOs2, hsetting, hstatus, hreadSetting, hreadStatus,
    List.singleton_append]

/-- The answer to a login, if its result is a success. -/
theorem onLogin_os2 {d : Dialogue} {keys : Option DeviceKeys} (hlogin : d.login = .os2 keys)
    {head : Octets 10} (hhead : ResultCode.ofCode (head.toBytes.getD 1 0) = .success)
    (setting : SettingOs2) (status : StatusOs2) :
    d.onLogin (head.toBytes ++ setting.toBytes ++ status.toBytes) =
      (d, [.setting (Setting.ofOs2 d.model setting), .state .active,
        .status (Status.ofOs2 d.model status)]) := by
  have hlength : (head.toBytes ++ setting.toBytes ++ status.toBytes).length = loginSizeOs2 := by
    simp [Octets.length_toBytes, loginSizeOs2]
  have hcode : (head.toBytes ++ setting.toBytes ++ status.toBytes).getD 1 0 =
      head.toBytes.getD 1 0 := by
    rw [List.append_assoc, List.getD_eq_getElem?_getD, List.getD_eq_getElem?_getD,
      List.getElem?_append_left (by rw [head.length_toBytes]; decide)]
  unfold onLogin
  rw [hlogin]
  dsimp only
  rw [if_neg (by rw [hlength]; exact Nat.lt_irrefl _), hcode, if_neg (not_not_intro hhead),
    loginEventsOs2_eq]

/-- In the second generation the answer to the device's token carries a fresh public key and a token
of the client's own. -/
theorem onInitial_os2 {d : Dialogue} {keys : DeviceKeys} (hlogin : d.login = .os2 (some keys))
    {writer : Fragment.Writer} (hwriter : Fragment.TakesAll writer) {random : RandomSource}
    {shared : Key} (hshared : (freshKey random).sharedKey keys.publicKey = .ok shared)
    (token : Token) :
    let own := drawnToken random
    d.onInitial writer random token.toBytes =
      { dialogue := d.keyed (sessionKeyOs2 shared own token) own token
        random := restOfRandom random
        offer := ⟨Fragment.split false
          (loginRequestOs2 keys.secret (freshKey random).publicKey own token), none⟩
        events := [.state .authenticating] } := by
  intro own
  obtain ⟨model, channel, login⟩ := d
  obtain rfl : login = .os2 (some keys) := hlogin
  have hsize : ¬ token.toBytes.length < tokenSize := by
    rw [token.length_toBytes]
    decide
  have htoken : Octets.ofBytes tokenSize token.toBytes = token := token.ofBytes_toBytes
  rw [onInitial, if_neg hsize]
  dsimp only
  rw [htoken]
  refine (openOs2_eq ..).trans ?_
  rw [hshared]
  dsimp only
  rw [Dialogue.send, Channel.send_plain_of_takesAll _ _ hwriter]
  rfl

end Dialogue

namespace Client

/-! ## Messages of several fragments -/

/-- The fragments of a message come one after the other. -/
def receipts (host : ClientHost) (fragments : List Bytes) : List Moment :=
  fragments.map fun fragment => ⟨host, .receive fragment⟩

section Receipts

variable (host : ClientHost) {c : Client} {d : Dialogue} (hd : c.dialogue = some d)

include hd

/-- Fragments of no note are only taken in. -/
theorem run_receipts_of_isQuiet {fragments : List Bytes}
    (h : ∀ r ∈ (d.channel.receiveAll fragments).2, r.IsQuiet) :
    c.run (receipts host fragments) =
      (c.withDialogue { d with channel := (d.channel.receiveAll fragments).1 }, []) := by
  refine run_of_takesIn hd (fun host c' d' fragment hd' _ => receive_of_isQuiet host hd') ?_ h
  rw [receipts, List.map_map]
  rfl

/-- With the last of its fragments a message is dealt with. -/
theorem run_receipts_of_complete {fragments : List Bytes} {after : Channel}
    {quiet : List Received} (hquiet : ∀ r ∈ quiet, r.IsQuiet) {message : Bytes}
    {authenticated : Bool} (h : d.channel.receiveAll fragments =
      (after, quiet ++ [.complete message authenticated])) :
    c.run (receipts host fragments) =
      let d' : Dialogue := { d with channel := after }
      let t := onMessage host { client := c.withDialogue d' } d' message
      (t.client, t.outputs) := by
  obtain ⟨first, last, rfl, hfirst, hlast⟩ := Channel.receiveAll_eq_concat h
  have hbefore : c.run (receipts host first) = _ :=
    run_receipts_of_isQuiet host hd (hfirst ▸ hquiet)
  have hstep := receive_of_complete host
    (c := c.withDialogue { d with channel := (d.channel.receiveAll first).1 }) rfl
    (congrArg Prod.snd hlast)
  rw [receipts, List.map_append, List.map_singleton, run_concat, ← receipts, hbefore]
  simp only [step, hstep, ClientTurn.finish, List.nil_append]
  rw [heard, Dialogue.hearing, hlast]
  rfl

end Receipts

/-! ## The messages of the login -/

section Steps

variable (host : ClientHost) {c : Client} {d : Dialogue} (hd : c.dialogue = some d)
  {keys : DeviceKeys} (hlogin : d.login = .os2 (some keys))

include hd hlogin

/-- The device's token is answered with the login under a fresh key pair. -/
theorem receive_initial_os2 (htakes : ∀ outputs fragment, host.takes outputs fragment = true)
    (hstate : c.state ≠ .authenticating) {shared : Key}
    (hshared : (Dialogue.freshKey c.random).sharedKey keys.publicKey = .ok shared)
    {fragment : Bytes} {token : Token} {authenticated : Bool}
    (h : (d.channel.receive fragment).2 = .complete (greeting token) authenticated) :
    let own := Dialogue.drawnToken c.random
    let t := receive host c fragment
    t.client = { c.withDialogue
        ((d.hearing fragment).keyed (Dialogue.sessionKeyOs2 shared own token) own token) with
      random := Dialogue.restOfRandom c.random
      state := .authenticating } ∧
    ∃ told, t.outputs = (Fragment.split false (loginRequestOs2 keys.secret
        (Dialogue.freshKey c.random).publicKey own token)).map (.write · true) ++ told ∧
      told.all ClientOutput.isTold = true := by
  intro own t
  have hwriter : Fragment.TakesAll ((heard c d fragment).writer host) := fun _ _ => htakes _ _
  have hopening := (d.hearing fragment).onInitial_os2 hlogin hwriter hshared token
  have ht : t = receive host c fragment := rfl
  rw [receive_of_complete host hd h, greeting, onMessage_publish, onPublish,
    if_neg (show (heard c d fragment).client.state ≠ .authenticating from hstate)] at ht
  dsimp only at ht
  rw [show (heard c d fragment).client.random = c.random from rfl, hopening, ClientTurn.apply,
    ClientTurn.apply] at ht
  rw [ht]
  refine ⟨ClientTurn.client_setState .., ?_⟩
  obtain ⟨told, heq, htold⟩ := ClientTurn.outputs_setState host
    { client := { (heard c d fragment).client.withDialogue ((d.hearing fragment).keyed
        (Dialogue.sessionKeyOs2 shared own token) own token) with
          random := Dialogue.restOfRandom c.random }
      outputs := (Fragment.split false (loginRequestOs2 keys.secret
        (Dialogue.freshKey c.random).publicKey own token)).map (.write · true) }
    .authenticating
  refine ⟨told, ?_, htold⟩
  rw [← heq]
  simp only [ClientTurn.writes, Option.toList_none, List.map_nil, List.append_nil]
  rfl

/-- The device's answer makes the client active, with the setting and the status in it. -/
theorem run_loginAnswerOs2 {fragments : List Bytes} {after : Channel} {quiet : List Received}
    (hquiet : ∀ r ∈ quiet, r.IsQuiet) {head : Octets 10} {setting : SettingOs2}
    {status : StatusOs2} (hhead : ResultCode.ofCode (head.toBytes.getD 1 0) = .success)
    {authenticated : Bool} (h : d.channel.receiveAll fragments =
      (after, quiet ++ [.complete (loginAnswerOs2 head setting status) authenticated])) :
    (c.run (receipts host fragments)).1 =
      { c.withDialogue { d with channel := after } with
        setting := some (Setting.ofOs2 d.model setting)
        state := .active
        status := Status.ofOs2 d.model status } := by
  rw [run_receipts_of_complete host hd hquiet h]
  dsimp only
  rw [loginAnswerOs2, onMessage_response, onResponse,
    Dialogue.onLogin_os2 (d := { d with channel := after }) hlogin hhead]
  simp only [ClientTurn.apply, ClientTurn.client_emitIf, ClientTurn.client_setState]
  rfl

end Steps

/-! ## The login -/

/-- The client holds the key of this device's end of the link and is in step with it.  When the
device accepts the login, with an encrypted message that its link takes, the client becomes active
with exactly the setting and the status in the message. -/
structure AwaitsOs2 (model : Model) (key : Key) (device : Channel) (c : Client) : Prop where
  inStep : ∃ d, c.dialogue = some d ∧ Channel.InStep key d.channel device
  accepted : ∀ (head : Octets 10) (setting : SettingOs2) (status : StatusOs2)
    (writer : Fragment.Writer) (host : ClientHost),
    ResultCode.ofCode (head.toBytes.getD 1 0) = .success → Fragment.TakesAll writer →
      let sent := device.send writer (loginAnswerOs2 head setting status) true
      let active := (c.run (receipts host sent.offer.taken)).1
      sent.result = .ok () ∧ active.state = .active ∧
        active.setting = some (Setting.ofOs2 model setting) ∧
        active.status = Status.ofOs2 model status

/-- The answer to a login is short enough. -/
theorem length_loginAnswerOs2 (head : Octets 10) (setting : SettingOs2) (status : StatusOs2) :
    (loginAnswerOs2 head setting status).length = 32 := by
  simp [loginAnswerOs2, Octets.length_toBytes]

/-- A client whose end of the link is paired with the device's one waits for it. -/
theorem awaitsOs2_of_paired {c : Client} {d : Dialogue} (hd : c.dialogue = some d)
    {keys : DeviceKeys} (hlogin : d.login = .os2 (some keys)) {device : Channel} {key : Key}
    (hpaired : Duplex.Paired (Role.ends d.channel device) key) :
    AwaitsOs2 d.model key device c where
  inStep := ⟨d, hd, hpaired.inStep⟩
  accepted := by
    intro head setting status writer host hhead hwriter
    have hlength := length_loginAnswerOs2 head setting status
    obtain ⟨hresult, after, quiet, hquiet, hreceived⟩ :=
      hpaired.receiveAll_sent .central (m := ⟨loginAnswerOs2 head setting status, true⟩)
        (by rw [Message.Sendable, if_pos rfl, hlength]; decide)
        (by rw [Message.Fits, Message.wireLength, if_pos rfl, hlength]; decide) hwriter
    have hactive := run_loginAnswerOs2 host hd hlogin hquiet hhead hreceived
    intro sent active
    have heq : active = _ := hactive
    rw [heq]
    exact ⟨hresult, rfl, rfl, rfl⟩

/-- In every run of a new client a conversation of the second generation is a central's. -/
theorem cipher_of_os2 (random : RandomSource) (ms : List Moment) {d : Dialogue}
    (hd : ((Client.new random).run ms).1.dialogue = some d) {keys : Option DeviceKeys}
    (hlogin : d.login = .os2 keys) (fragment : Bytes) :
    (d.hearing fragment).channel.cipher.role = .central ∧
      (d.hearing fragment).channel.cipher.rule = .os2 := by
  obtain ⟨hrole, hrule⟩ := regular_run random ms (standing?_of_dialogue hd)
  have hstanding := d.standing_hearing fragment
  have hrole' := (congrArg Dialogue.Standing.role hstanding).trans hrole
  have hrule' := (congrArg Dialogue.Standing.rule hstanding).trans hrule
  exact ⟨hrole', hrule'.trans (congrArg Login.rule hlogin)⟩

/-- **A login of the second generation.**  Take any client that any run of requests and fragments
has led to, with the device's public key and the common secret set, and a device's token that
arrives on its link.  If the client has already answered one it writes nothing.  Otherwise it
writes, in plain, a login that every end of a link reads as: its code, the number of the key, which
is zero, the public key of a fresh key pair, a token of its own, and the first four bytes of the
code under the secret for all that and the device's token.

The device to which the public key belongs comes to the session key of the client: it is the code
for the two tokens under what the device's key pair and the fresh one have in common.  Once it is
installed, with the device's own token first, the two ends are in step, and the device's answer
makes the client active with exactly the setting and the status that are in it. -/
theorem os2Login_run (random : RandomSource) (ms : List Moment) {d : Dialogue} {keys : DeviceKeys}
    (hd : ((Client.new random).run ms).1.dialogue = some d) (hlogin : d.login = .os2 (some keys))
    (hvalid : keys.publicKey.point?.isSome = true) (host : ClientHost)
    (htakes : ∀ outputs fragment, host.takes outputs fragment = true) {fragment : Bytes}
    {token : Token} {authenticated : Bool}
    (hgreeting : (d.channel.receive fragment).2 = .complete (greeting token) authenticated) :
    let c := ((Client.new random).run ms).1
    let own := Dialogue.drawnToken c.random
    let fresh := Dialogue.freshKey c.random
    let signed := signedOs2 fresh.publicKey own
    let request := [OpCode.sync.code, ItemCode.login.code] ++ signed ++
      (cmac keys.secret (signed ++ token.toBytes)).toBytes.take 4
    let opened := c.step host (.receive fragment)
    (c.state = .authenticating → opened.outputs = []) ∧
    (c.state ≠ .authenticating →
      (∃ told, opened.outputs = (Fragment.split false request).map (.write · true) ++ told ∧
        told.all ClientOutput.isTold = true) ∧
      (∀ receiver : Channel, ∃ (after : Channel) (quiet : List Received),
        (∀ r ∈ quiet, r.IsQuiet) ∧ receiver.receiveAll (Fragment.split false request) =
          (after, quiet ++ [.complete request false])) ∧
      ∀ device : PrivateKey, device.publicKey = keys.publicKey →
        ∃ shared, device.sharedKey fresh.publicKey = .ok shared ∧
          ∀ peripheral : Channel,
            peripheral.cipher.role = .peripheral → peripheral.cipher.rule = .os2 →
              let key := cmac shared (own.toBytes ++ token.toBytes)
              AwaitsOs2 d.model key (peripheral.withKey key token own) opened.client) := by
  intro c own fresh signed request opened
  refine ⟨fun hstate => ?_, fun hstate => ?_⟩
  · have hignored := receive_initial_of_authenticating host hd hstate hgreeting
    have heq : opened = (receive host c fragment).finish (.ok ()) := rfl
    rw [heq, hignored]
    rfl
  · obtain ⟨shared, hshared⟩ := fresh.exists_sharedKey_of_isSome hvalid
    obtain ⟨hclient, hwritten⟩ :=
      receive_initial_os2 host hd hlogin htakes hstate hshared hgreeting
    refine ⟨hwritten, fun receiver => ?_, fun device hdevice => ?_⟩
    · have hlength : request.length = 76 :=
        length_loginRequestOs2 keys.secret fresh.publicKey own token
      have hne : request ≠ [] := List.cons_ne_nil _ _
      obtain ⟨quiet, hquiet, hreceived⟩ := receiver.receiveAll_plain hne
        (hlength.trans_le (by decide))
      exact ⟨_, quiet, hquiet, hreceived⟩
    · refine ⟨shared, ?_, fun peripheral hrole hrule => ?_⟩
      · rw [device.sharedKey_comm, hdevice]
        exact hshared
      · have hopened : opened.client = _ := hclient
        have hpaired := Duplex.paired_withKey (cipher_of_os2 random ms hd hlogin fragment)
          ⟨hrole, hrule⟩ (Dialogue.sessionKeyOs2 shared own token) own token
        rw [hopened]
        let login := (d.hearing fragment).keyed (Dialogue.sessionKeyOs2 shared own token) own token
        exact awaitsOs2_of_paired (d := login) rfl hlogin hpaired

/-- A client gets to know a device whose private key is 1. -/
def acquaintance : List Moment :=
  [⟨quietHost, .begin .sesame3⟩,
    ⟨quietHost, .setKeys (some PrivateKey.one.publicKey) (Octets.zero 16)⟩]

/-- The device sends its token, and once it has installed the same key the client waits for it. -/
theorem os2Login_run_acquaintance :
    let c := ((Client.new (RandomSource.ofSeed 3)).run acquaintance).1
    let own := Dialogue.drawnToken c.random
    let token : Token := Octets.ofBytes 4 [1, 2, 3, 4]
    c.state = .idle ∧
      ∃ shared, PrivateKey.one.sharedKey (Dialogue.freshKey c.random).publicKey = .ok shared ∧
        let key := cmac shared (own.toBytes ++ token.toBytes)
        AwaitsOs2 .sesame3 key ((Channel.new .os2 .peripheral).withKey key token own)
          (c.step quietHost (.receive (Fragment.whole false (greeting token)))).client := by
  intro c own token
  have hstate : c.state = .idle := by decide +kernel
  have hmodel : c.dialogue.map Dialogue.model = some .sesame3 := by decide +kernel
  have hlogins : c.dialogue.map Dialogue.login =
      some (.os2 (some ⟨PrivateKey.one.publicKey, Octets.zero 16⟩)) := by decide +kernel
  obtain ⟨d, hd, hlogin⟩ := Option.map_eq_some_iff.mp hlogins
  rw [hd, Option.map_some, Option.some_inj] at hmodel
  have hne : greeting token ≠ [] := List.cons_ne_nil _ _
  have hgreeting := congrArg Prod.snd (d.channel.receive_plain hne (by decide))
  have hstarted := os2Login_run (RandomSource.ofSeed 3) acquaintance hd hlogin
    PrivateKey.one.isSome_point?_publicKey quietHost (fun _ _ => rfl) hgreeting
  have hnot : c.state ≠ .authenticating := by
    rw [hstate]
    decide
  obtain ⟨-, -, hdevice⟩ := hstarted.2 hnot
  obtain ⟨shared, hshared, hawaits⟩ := hdevice PrivateKey.one rfl
  exact ⟨hstate, shared, hshared, hmodel ▸ hawaits (Channel.new .os2 .peripheral) rfl rfl⟩

end Client

end SmartLock
