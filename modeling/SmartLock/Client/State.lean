/-
# Clients

A client controls one device over a link that someone else provides.  Its state is a value; an
operation takes the state and the surroundings of the moment, and gives back the new state, the
outputs in the order in which they were made, and a result.
-/
import SmartLock.Client.Dialogue
import SmartLock.Discovery.DeviceList

namespace SmartLock

/-! ## Results -/

/-- Why an operation of a client failed. -/
inductive ClientError where
  | notInitialized
  | unsupportedModel (model : Model)
  | notActive
  | notSupported (operation : String) (model : Model)
  | dialogue (error : DialogueError)
  deriving DecidableEq, Repr

/-- The text that tells a user what failed. -/
def ClientError.message : ClientError → String
  | .notInitialized => "begin() not finished"
  | .unsupportedModel model => "Model not supported: " ++ model.name
  | .notActive => "Cannot operate while session is not active"
  | .notSupported operation model => operation ++ " is not supported on " ++ model.name
  | .dialogue error => error.message

/-- What a client gives to its surroundings. -/
inductive ClientOutput where
  /-- A fragment was offered to the link, which took or refused it. -/
  | write (fragment : Bytes) (taken : Bool)
  /-- The link is to be closed. -/
  | disconnect
  | state (state : ClientState)
  | status (status : Status)
  | history (history : History)
  | devices (devices : List KnownDevice)
  deriving DecidableEq, Repr

/-- The outputs that somebody listens to. -/
structure Observers where
  state : Bool := false
  status : Bool := false
  history : Bool := false
  devices : Bool := false
  deriving DecidableEq, Repr, Inhabited

/-- The surroundings of a client during one operation. -/
structure ClientHost where
  /-- Given what the operation has put out so far, does the link take a fragment? -/
  takes : List ClientOutput → Bytes → Bool
  observers : Observers

/-! ## State -/

/-- A client. -/
structure Client where
  random : RandomSource
  dialogue : Option Dialogue := none
  state : ClientState := .idle
  setting : Option Setting := none
  status : Status := {}
  deriving DecidableEq, Repr, Inhabited

/-- A client in the middle of an operation, with what it has put out so far. -/
structure ClientTurn where
  client : Client
  outputs : List ClientOutput := []
  deriving DecidableEq, Repr, Inhabited

/-- What an operation leads to. -/
structure ClientOutcome where
  client : Client
  outputs : List ClientOutput
  result : Except ClientError Unit

namespace Client

/-- The model of the device. -/
def model (c : Client) : Option Model := c.dialogue.map Dialogue.model

/-- Whether all keys are set. -/
def hasKeys (c : Client) : Bool := c.dialogue.any Dialogue.hasKeys

/-- Whether the client is logged in. -/
def isActive (c : Client) : Bool := c.state = .active

/-- Whether the device reports a setting. -/
def hasSetting (c : Client) : Bool := c.model.any Model.hasSetting

end Client

namespace ClientTurn

/-- One more output. -/
def emit (t : ClientTurn) (output : ClientOutput) : ClientTurn :=
  { t with outputs := t.outputs ++ [output] }

/-- One more output, if somebody listens to it. -/
def emitIf (t : ClientTurn) (observed : Bool) (output : ClientOutput) : ClientTurn :=
  if observed then t.emit output else t

/-- The writes of an offer. -/
def writes (offer : Fragment.Offer) : List ClientOutput :=
  offer.taken.map (.write · true) ++ offer.refused.toList.map (.write · false)

/-- The link as a writer of the fragments of one packet. -/
def writer (host : ClientHost) (t : ClientTurn) : Fragment.Writer := fun taken fragment =>
  host.takes (t.outputs ++ taken.reverse.map (.write · true)) fragment

/-- Moves to a state, and tells so if it is a new one. -/
def setState (host : ClientHost) (t : ClientTurn) (state : ClientState) : ClientTurn :=
  if t.client.state = state then t
  else
    ClientTurn.emitIf { t with client := { t.client with state := state } } host.observers.state
      (.state state)

/-- Forgets the session key and the packet in progress. -/
def reset (t : ClientTurn) : ClientTurn :=
  { t with client := { t.client with dialogue := t.client.dialogue.map Dialogue.reset } }

/-- Closes the link. -/
def disconnect (host : ClientHost) (t : ClientTurn) : ClientTurn :=
  (t.emit .disconnect).reset.setState host .idle

/-- Takes one event in; after a disconnection the events that follow are lost. -/
def apply (host : ClientHost) (t : ClientTurn) : List Event → ClientTurn
  | [] => t
  | .disconnect :: _ => t.disconnect host
  | .state state :: rest => (t.setState host state).apply host rest
  | .setting setting :: rest =>
      ClientTurn.apply host { t with client := { t.client with setting := some setting } } rest
  | .status status :: rest =>
      (ClientTurn.emitIf { t with client := { t.client with status := status } }
        host.observers.status (.status status)).apply host rest
  | .history history :: rest =>
      (t.emitIf host.observers.history (.history history)).apply host rest

/-- Ends the operation. -/
def finish (t : ClientTurn) (result : Except ClientError Unit) : ClientOutcome :=
  ⟨t.client, t.outputs, result⟩

end ClientTurn

end SmartLock
