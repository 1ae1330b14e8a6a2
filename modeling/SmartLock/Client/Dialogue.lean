/-
# The client's side of the protocol

How a client talks to a device of a given model: the keys it needs, how it logs in, how it
frames its commands, and what each message of the device means.  The two generations differ in
all of this.

In the second generation, the client answers the device's token with a fresh public key, a
token of its own and an authentication code; the session key follows from both tokens and the
shared secret.  The device accepts with a message that carries its setting and status.

In the third, the session key is the code of the device's token under the secret, and its first
bytes are the login.  After the device has accepted, the client waits for a status and, where
the model has settings, for a setting.
-/
import SmartLock.Crypto.KeyPair
import SmartLock.History
import SmartLock.Link.Channel
import SmartLock.Mechanism.Status

namespace SmartLock

/-! ## Types -/

/-- How far a client has come. -/
inductive ClientState where
  | idle
  | authenticating
  | active
  deriving DecidableEq, Repr, Inhabited

/-- The name of a state in messages. -/
def ClientState.name : ClientState → String
  | .idle => "Idle"
  | .authenticating => "Authenticating"
  | .active => "Active"

/-- Why the client's side of the protocol could not go on. -/
inductive DialogueError where
  | invalidKeyFormat (error : HexError)
  | publicKeyRequired
  | keyNotSet
  | crypto (error : CryptoError)
  | link (error : LinkError)
  deriving DecidableEq, Repr

/-- The text that tells a user what failed. -/
def DialogueError.message : DialogueError → String
  | .invalidKeyFormat error => "Invalid key format: " ++ error.message
  | .publicKeyRequired => "Public key is required for OS2 devices"
  | .keyNotSet => "Keys are not set"
  | .crypto error => error.message
  | .link error => error.message

/-- What a message of the device asks the client to do. -/
inductive Event where
  | disconnect
  | state (state : ClientState)
  | setting (setting : Setting)
  | status (status : Status)
  | history (history : History)
  deriving DecidableEq, Repr

/-- The keys of a device of the second generation. -/
structure DeviceKeys where
  publicKey : PublicKey
  secret : Key
  deriving DecidableEq, Repr, Inhabited

/-- What a login needs and how far it has come. -/
inductive Login where
  | os2 (keys : Option DeviceKeys)
  | os3 (secret : Option Key) (settingReceived statusReceived : Bool)
  deriving DecidableEq, Repr

/-- A client's side of the conversation with one device. -/
structure Dialogue where
  model : Model
  channel : Channel
  login : Login
  deriving DecidableEq, Repr

namespace Dialogue

/-! ## Models -/

/-- The generation in which a client talks to a model; nothing for a model that it cannot
control. -/
def generation? : Model → Option OsVersion
  | .sesame3 | .sesameBot | .sesameBike | .sesame4 => some .os2
  | .sesame5 | .sesameBike2 | .sesame5Pro | .openSensor1 | .sesameTouchPro | .sesameTouch
  | .remote | .remoteNano | .sesameBot2 | .sesameFacePro | .sesameFace => some .os3
  | _ => none

/-- A new conversation with a device of a given model. -/
def ofModel? (model : Model) : Option Dialogue :=
  match generation? model with
  | some .os2 => some ⟨model, Channel.new .os2 .central, .os2 none⟩
  | some .os3 => some ⟨model, Channel.new .os3 .central, .os3 none false false⟩
  | _ => none

/-- The generation of a conversation. -/
def osVersion (d : Dialogue) : OsVersion :=
  match d.login with
  | .os2 .. => .os2
  | .os3 .. => .os3

/-! ## Keys -/

/-- Whether all keys that a login needs are set. -/
def hasKeys (d : Dialogue) : Bool :=
  match d.login with
  | .os2 keys => keys.isSome
  | .os3 secret _ _ => secret.isSome

/-- The conversation with new keys.  The second generation needs a public key that is a point of
the curve; the third ignores it. -/
def setKeys (d : Dialogue) (publicKey : Option PublicKey) (secret : Key) :
    Except DialogueError Dialogue :=
  match d.login with
  | .os2 _ =>
      match publicKey with
      | none => .error .publicKeyRequired
      | some key =>
          match key.check with
          | .error error => .error (.crypto error)
          | .ok key => .ok { d with login := .os2 (some ⟨key, secret⟩) }
  | .os3 _ setting status => .ok { d with login := .os3 (some secret) setting status }

/-- The conversation with new keys, given as hexadecimal digits.  The secret is read first. -/
def setKeysHex (d : Dialogue) (publicKey secret : String) : Except DialogueError Dialogue :=
  match Hex.decodeExact 16 secret with
  | .error error => .error (.invalidKeyFormat error)
  | .ok secret =>
      match d.login with
      | .os2 _ =>
          match Hex.decodeExact 64 publicKey with
          | .error error => .error (.invalidKeyFormat error)
          | .ok key => d.setKeys (some key) secret
      | .os3 .. => d.setKeys none secret

/-! ## Tags -/

/-- The most bytes of a text tag. -/
def maxTagSize (d : Dialogue) : Nat :=
  match d.login with
  | .os2 .. => Tag.maxSizeOs2
  | .os3 .. => Tag.maxSizeOs3

/-- The size of the field for a text tag of `size` bytes: fixed in the second generation, no
longer than needed in the third. -/
def tagFieldSize (d : Dialogue) (size : Nat) : Nat :=
  match d.login with
  | .os2 .. => Tag.maxSizeOs2 + 1
  | .os3 .. => size + 1

/-- The field of a text tag for a model; a bot of the third generation gets no text. -/
def tagField (d : Dialogue) (model : Model) (tag : String) : Bytes :=
  let text := if model = .sesameBot2 then "" else Utf8.truncate tag d.maxTagSize
  Tag.textField (d.tagFieldSize (Utf8.bytesOf text).length) text

/-! ## Sending -/

/-- What became of a message that the client sent. -/
structure Sent where
  dialogue : Dialogue
  offer : Fragment.Offer
  result : Except DialogueError Unit

/-- The head of a message; the third generation leaves out the operation. -/
def head (d : Dialogue) (op : OpCode) (item : ItemCode) : Bytes :=
  match d.login with
  | .os2 .. => [op.code, item.code]
  | .os3 .. => [item.code]

/-- A message offered to the writer. -/
def send (d : Dialogue) (writer : Fragment.Writer) (op : OpCode) (item : ItemCode) (body : Bytes)
    (encrypted : Bool) : Sent :=
  let sent := d.channel.send writer (d.head op item ++ body) encrypted
  { dialogue := { d with channel := sent.channel }
    offer := sent.offer
    result := sent.result.mapError .link }

/-- The conversation without a session key and without a packet in progress.  How far the login
had come is kept. -/
def reset (d : Dialogue) : Dialogue := { d with channel := d.channel.reset }

/-! ## Logging in -/

/-- What became of the device's first message. -/
structure Opening where
  dialogue : Dialogue
  random : RandomSource
  offer : Fragment.Offer := ⟨[], none⟩
  events : List Event

/-- The number of bytes of a token. -/
def tokenSize : Nat := 4

/-- What a message that starts a login leads to. -/
def Opening.ofSent (sent : Sent) (random : RandomSource) : Opening where
  dialogue := sent.dialogue
  random := random
  offer := sent.offer
  events :=
    match sent.result with
    | .ok () => [.state .authenticating]
    | .error _ => [.disconnect]

/-- The session key of the second generation. -/
def sessionKeyOs2 (shared : Key) (own device : Token) : Key :=
  cmac shared (own.toBytes ++ device.toBytes)

/-- The login of the second generation: the number of the key, which is zero, a fresh public key,
the client's token, and the first bytes of the code of all this and the device's token. -/
def loginBodyOs2 (secret : Key) (fresh : PublicKey) (own device : Token) : Bytes :=
  let request := [0, 0] ++ fresh.toBytes ++ own.toBytes
  request ++ (cmac secret (request ++ device.toBytes)).toBytes.take Cipher.codeSize

/-- The start of a login in the second generation. -/
def openOs2 (d : Dialogue) (writer : Fragment.Writer) (random : RandomSource) (keys : DeviceKeys)
    (device : Token) : Opening :=
  let (own, random) := random.draw tokenSize
  let (fresh, random) := PrivateKey.generate random
  match fresh.sharedKey keys.publicKey with
  | .error _ => { dialogue := d, random := random, events := [.disconnect] }
  | .ok shared =>
      let keyed := { d with channel := d.channel.withKey (sessionKeyOs2 shared own device) own device }
      let body := loginBodyOs2 keys.secret fresh.publicKey own device
      .ofSent (keyed.send writer .sync .login body false) random

/-- The session key of the third generation. -/
def sessionKeyOs3 (secret : Key) (device : Token) : Key := cmac secret device.toBytes

/-- The start of a login in the third generation. -/
def openOs3 (d : Dialogue) (writer : Fragment.Writer) (random : RandomSource) (secret : Key)
    (device : Token) : Opening :=
  let key := sessionKeyOs3 secret device
  let keyed := { d with channel := d.channel.withKey key (Octets.zero 4) device }
  .ofSent (keyed.send writer .async .login (key.toBytes.take Cipher.codeSize) false) random

/-- The device's first message: its token, to which the client answers with a login.  The second
generation drops the old session key first. -/
def onInitial (d : Dialogue) (writer : Fragment.Writer) (random : RandomSource) (body : Bytes) :
    Opening :=
  if body.length < tokenSize then { dialogue := d, random := random, events := [.disconnect] }
  else
    let device := Octets.ofBytes tokenSize body
    match d.login with
    | .os2 keys =>
        let cleared := { d with channel := { d.channel with cipher := d.channel.cipher.reset } }
        match keys with
        | none => { dialogue := cleared, random := random, events := [.disconnect] }
        | some keys => cleared.openOs2 writer random keys device
    | .os3 secret _ _ =>
        match secret with
        | none => { dialogue := d, random := random, events := [.disconnect] }
        | some secret => d.openOs3 writer random secret device

/-! ## The device's messages -/

/-- The status event of a message of the second generation; a short message is ignored. -/
def statusEventsOs2 (model : Model) (body : Bytes) : List Event :=
  match StatusOs2.ofBytes? body with
  | some status => [.status (Status.ofOs2 model status)]
  | none => []

/-- The status in a message of the third generation. -/
def statusOs3? (model : Model) (body : Bytes) : Option Status :=
  if model = .sesameBot2 then (StatusBot2.ofBytes? body).map (Status.ofBot2 model)
  else (StatusOs3.ofBytes? body).map (Status.ofOs3 model)

/-- The number of bytes before the setting in the answer to a login of the second generation. -/
def loginHeadOs2 : Nat := 10

/-- The number of bytes of the answer to a login of the second generation. -/
def loginSizeOs2 : Nat := 30

/-- The number of bytes of the answer to a login of the third generation. -/
def loginSizeOs3 : Nat := 5

/-- The events of an accepted login of the second generation: its setting, the new state, its
status. -/
def loginEventsOs2 (model : Model) (body : Bytes) : List Event :=
  (match SettingOs2.ofBytes? (body.drop loginHeadOs2) with
    | some setting => [.setting (Setting.ofOs2 model setting)]
    | none => []) ++
  .state .active :: statusEventsOs2 model (body.drop (loginHeadOs2 + 12))

/-- The answer to a login.  In the third generation an accepted login makes the client wait anew
for a status and, if the model has settings, for a setting. -/
def onLogin (d : Dialogue) (body : Bytes) : Dialogue × List Event :=
  match d.login with
  | .os2 _ =>
      if body.length < loginSizeOs2 then (d, [.disconnect])
      else if ResultCode.ofCode (body.getD 1 0) ≠ .success then (d, [.disconnect])
      else (d, loginEventsOs2 d.model body)
  | .os3 secret _ _ =>
      if body.length < loginSizeOs3 then (d, [.disconnect])
      else if ResultCode.ofCode (body.getD 0 0) ≠ .success then (d, [.disconnect])
      else ({ d with login := .os3 secret (!d.model.hasSetting) false }, [])

/-- The client becomes active once everything that it waited for has come. -/
def activation (state : ClientState) (settingReceived statusReceived : Bool) : List Event :=
  if state ≠ .active && settingReceived && statusReceived then [.state .active] else []

/-- A setting that the device reports while the client is in `state`. -/
def onSetting (d : Dialogue) (state : ClientState) (body : Bytes) : Dialogue × List Event :=
  match d.login with
  | .os2 _ =>
      match SettingOs2.ofBytes? body with
      | some setting => (d, [.setting (Setting.ofOs2 d.model setting)])
      | none => (d, [])
  | .os3 secret _ status =>
      match SettingOs3.ofBytes? body with
      | some setting =>
          ({ d with login := .os3 secret true status },
            .setting (Setting.ofOs3 setting) :: activation state true status)
      | none => (d, [])

/-- A status that the device reports while the client is in `state`. -/
def onStatus (d : Dialogue) (state : ClientState) (body : Bytes) : Dialogue × List Event :=
  match d.login with
  | .os2 _ => (d, statusEventsOs2 d.model body)
  | .os3 secret setting _ =>
      match statusOs3? d.model body with
      | some status =>
          ({ d with login := .os3 secret setting true },
            .status status :: activation state setting true)
      | none => (d, [])

/-- The answer to a request for the status, which has a head of two bytes in the second
generation and of one in the third. -/
def onStatusReply (d : Dialogue) (body : Bytes) : List Event :=
  match d.login with
  | .os2 _ => statusEventsOs2 d.model (body.drop 2)
  | .os3 .. =>
      match statusOs3? d.model (body.drop 1) with
      | some status => [.status status]
      | none => []

/-- The answer to a request for the history. -/
def onHistory (d : Dialogue) (body : Bytes) : List Event :=
  match d.login with
  | .os2 _ => [.history (History.ofOs2 body)]
  | .os3 .. =>
      match History.ofOs3? body with
      | some history => [.history history]
      | none => []

end Dialogue

end SmartLock
