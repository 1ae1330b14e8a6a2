/-
# What a client can be asked to do

Every operation of a client, as functions and as one type of requests with a step function.
-/
import SmartLock.Client.Messages

namespace SmartLock.Client

/-! ## Beginning and ending -/

/-- A new client with its source of random numbers. -/
def new (random : RandomSource) : Client := { random := random }

/-- The client at the start of its work with a device of a given model. -/
def begin? (c : Client) (model : Model) : Except ClientError Client :=
  match Dialogue.ofModel? model with
  | none => .error (.unsupportedModel model)
  | some d => .ok { random := c.random, dialogue := some d }

/-- The client with new keys. -/
def setKeys (c : Client) (publicKey : Option PublicKey) (secret : Key) :
    Except ClientError Client :=
  match c.dialogue with
  | none => .error .notInitialized
  | some d => ((d.setKeys publicKey secret).map c.withDialogue).mapError .dialogue

/-- The client with new keys, given as hexadecimal digits. -/
def setKeysHex (c : Client) (publicKey secret : String) : Except ClientError Client :=
  match c.dialogue with
  | none => .error .notInitialized
  | some d => ((d.setKeysHex publicKey secret).map c.withDialogue).mapError .dialogue

/-- The link has been closed by the other side. -/
def disconnected (host : ClientHost) (c : Client) : ClientTurn :=
  ({ client := c } : ClientTurn).reset.setState host .idle

/-! ## Commands -/

/-- The conversation of an active client. -/
def activeDialogue (c : Client) : Except ClientError Dialogue :=
  match c.dialogue with
  | none => .error .notInitialized
  | some d => if c.isActive then .ok d else .error .notActive

/-- The outcome of an operation that fails before it does anything. -/
def refuse (c : Client) (error : ClientError) : ClientOutcome := ⟨c, [], .error error⟩

/-- An encrypted message to the device. -/
def sendCommand (host : ClientHost) (c : Client) (d : Dialogue) (op : OpCode) (item : ItemCode)
    (body : Bytes) : ClientOutcome :=
  let sent := d.send (({ client := c } : ClientTurn).writer host) op item body true
  ⟨c.withDialogue sent.dialogue, ClientTurn.writes sent.offer, sent.result.mapError .dialogue⟩

/-- A command with a text tag. -/
def sendTagged (host : ClientHost) (c : Client) (item : ItemCode) (tag : String) :
    ClientOutcome :=
  match c.activeDialogue with
  | .error error => c.refuse error
  | .ok d => sendCommand host c d .async item (d.tagField d.model tag)

/-- Unlocks the device. -/
def unlock (host : ClientHost) (c : Client) (tag : String) : ClientOutcome :=
  sendTagged host c .unlock tag

/-- Locks the device; a bike lock cannot be locked this way. -/
def lock (host : ClientHost) (c : Client) (tag : String) : ClientOutcome :=
  if c.model = some .sesameBike then c.refuse (.notSupported "lock" .sesameBike)
  else sendTagged host c .lock tag

/-- Makes a bot click. -/
def click (host : ClientHost) (c : Client) (tag : String) : ClientOutcome :=
  match c.model with
  | none => c.refuse .notInitialized
  | some model =>
      if model ≠ .sesameBot then c.refuse (.notSupported "click" model)
      else sendTagged host c .click tag

/-- Makes a bot run one of its scripts.  For a bot of the second generation script 0 unlocks,
script 1 locks, and every other one clicks. -/
def clickScript (host : ClientHost) (c : Client) (script : Option UInt8) : ClientOutcome :=
  match c.model with
  | none => c.refuse .notInitialized
  | some .sesameBot =>
      if script = some 0 then unlock host c ""
      else if script = some 1 then lock host c ""
      else sendTagged host c .click ""
  | some .sesameBot2 =>
      match c.activeDialogue with
      | .error error => c.refuse error
      | .ok d => sendCommand host c d .async .click script.toList
  | some model => c.refuse (.notSupported "click" model)

/-- A command with a trigger in the place of a text tag, for the third generation only. -/
def sendTriggered (host : ClientHost) (c : Client) (item : ItemCode) (operation : String)
    (trigger : TriggerType) (id : Octets 16) : ClientOutcome :=
  match c.activeDialogue with
  | .error error => c.refuse error
  | .ok d =>
      if d.model.osVersion ≠ .os3 then c.refuse (.notSupported operation d.model)
      else sendCommand host c d .async item (Tag.triggerField trigger id)

/-- Locks the device, on behalf of a trigger. -/
def lockWithTrigger (host : ClientHost) (c : Client) (trigger : TriggerType) (id : Octets 16) :
    ClientOutcome :=
  sendTriggered host c .lock "lock_with_trigger" trigger id

/-- Unlocks the device, on behalf of a trigger. -/
def unlockWithTrigger (host : ClientHost) (c : Client) (trigger : TriggerType)
    (id : Octets 16) : ClientOutcome :=
  sendTriggered host c .unlock "unlock_with_trigger" trigger id

/-- Asks for the history. -/
def requestHistory (host : ClientHost) (c : Client) : ClientOutcome :=
  match c.activeDialogue with
  | .error error => c.refuse error
  | .ok d => sendCommand host c d .read .history [0]

/-- Asks for the status. -/
def requestStatus (host : ClientHost) (c : Client) : ClientOutcome :=
  match c.activeDialogue with
  | .error error => c.refuse error
  | .ok d => sendCommand host c d .read .mechStatus []

/-! ## Requests -/

/-- Everything that a client can be asked to do. -/
inductive Request where
  | begin (model : Model)
  | setKeys (publicKey : Option PublicKey) (secret : Key)
  | setKeysHex (publicKey secret : String)
  | receive (fragment : Bytes)
  | disconnect
  | disconnected
  | unlock (tag : String)
  | lock (tag : String)
  | click (tag : String)
  | clickScript (script : Option UInt8)
  | lockWithTrigger (trigger : TriggerType) (id : Octets 16)
  | unlockWithTrigger (trigger : TriggerType) (id : Octets 16)
  | requestHistory
  | requestStatus
  deriving DecidableEq, Repr

/-- The outcome of an operation that changes the state or fails, and puts nothing out. -/
def silent (c : Client) : Except ClientError Client → ClientOutcome
  | .ok c => ⟨c, [], .ok ()⟩
  | .error error => c.refuse error

/-- What a request leads to. -/
def step (host : ClientHost) (c : Client) : Request → ClientOutcome
  | .begin model => c.silent (c.begin? model)
  | .setKeys publicKey secret => c.silent (c.setKeys publicKey secret)
  | .setKeysHex publicKey secret => c.silent (c.setKeysHex publicKey secret)
  | .receive fragment => (receive host c fragment).finish (.ok ())
  | .disconnect => (({ client := c } : ClientTurn).disconnect host).finish (.ok ())
  | .disconnected => (disconnected host c).finish (.ok ())
  | .unlock tag => unlock host c tag
  | .lock tag => lock host c tag
  | .click tag => click host c tag
  | .clickScript script => clickScript host c script
  | .lockWithTrigger trigger id => lockWithTrigger host c trigger id
  | .unlockWithTrigger trigger id => unlockWithTrigger host c trigger id
  | .requestHistory => requestHistory host c
  | .requestStatus => requestStatus host c

/-- A request in the surroundings of its moment. -/
structure Moment where
  host : ClientHost
  request : Request

/-- The client after a run of requests, and all outputs of the run. -/
def run (c : Client) : List Moment → Client × List ClientOutput
  | [] => (c, [])
  | m :: rest =>
      let outcome := c.step m.host m.request
      let (last, outputs) := run outcome.client rest
      (last, outcome.outputs ++ outputs)

end SmartLock.Client
