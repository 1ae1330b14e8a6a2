/-
# What a client does with the device's messages

Fragments are put together to messages.  A message tells its operation in the first byte and its
item in the second; publications and responses about known items have an effect, everything
else is ignored.  An encrypted message with a wrong tag ends the connection.
-/
import SmartLock.Client.State

namespace SmartLock.Client

/-! ## Publications -/

/-- The client with a conversation that has moved on. -/
def withDialogue (c : Client) (d : Dialogue) : Client := { c with dialogue := some d }

/-- A publication of the device. -/
def onPublish (host : ClientHost) (t : ClientTurn) (d : Dialogue) (item : ItemCode)
    (body : Bytes) : ClientTurn :=
  match item with
  | .pubSsmKey => t.emitIf host.observers.devices (.devices (KnownDevice.parseList body))
  | .initial =>
      if t.client.state = .authenticating then t
      else
        let opening := d.onInitial (t.writer host) t.client.random body
        let client := { t.client.withDialogue opening.dialogue with random := opening.random }
        ClientTurn.apply host
          { client := client, outputs := t.outputs ++ ClientTurn.writes opening.offer }
          opening.events
  | .mechSetting =>
      let (d, events) := d.onSetting t.client.state body
      ClientTurn.apply host { t with client := t.client.withDialogue d } events
  | .mechStatus =>
      let (d, events) := d.onStatus t.client.state body
      ClientTurn.apply host { t with client := t.client.withDialogue d } events
  | _ => t

/-! ## Responses -/

/-- A response of the device.  The history is read only if somebody listens to it. -/
def onResponse (host : ClientHost) (t : ClientTurn) (d : Dialogue) (item : ItemCode)
    (body : Bytes) : ClientTurn :=
  match item with
  | .login =>
      let (d, events) := d.onLogin body
      ClientTurn.apply host { t with client := t.client.withDialogue d } events
  | .mechStatus => t.apply host (d.onStatusReply body)
  | .history => if host.observers.history then t.apply host (d.onHistory body) else t
  | _ => t

/-! ## Fragments -/

/-- A whole message of the device. -/
def onMessage (host : ClientHost) (t : ClientTurn) (d : Dialogue) : Bytes → ClientTurn
  | op :: item :: body =>
      match OpCode.ofCode? op, ItemCode.ofCode? item with
      | some .publish, some item => onPublish host t d item body
      | some .response, some item => onResponse host t d item body
      | _, _ => t
  | _ => t

/-- A fragment from the device. -/
def receive (host : ClientHost) (c : Client) (fragment : Bytes) : ClientTurn :=
  match c.dialogue with
  | none => { client := c }
  | some d =>
      let (channel, received) := d.channel.receive fragment
      let d := { d with channel := channel }
      let t : ClientTurn := { client := c.withDialogue d }
      match received with
      | .complete message _ => onMessage host t d message
      | .skipping true => t.disconnect host
      | _ => t

end SmartLock.Client
