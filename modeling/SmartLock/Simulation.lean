/-
# A session in memory

A whole session between a client and a device that exist only in memory: login, unlocking,
locking and the end.  The device carries commands out at once and publishes its new status, and
everything that happens is told in lines for the user.
-/
import SmartLock.Loopback
import SmartLock.Text.Quoted

namespace SmartLock

/-! ## What is told -/

namespace Simulation

/-- The line about an output of the client, if it is worth one. -/
def clientLine : ClientOutput → Option String
  | .state state => some ("📱 client: state " ++ state.name)
  | .status status =>
      some (s!"📱 client: in_lock={status.inLock} position={status.position.toInt} " ++
        s!"battery={Battery.rounded status.batteryPercent}%")
  | _ => none

/-- The word for a trigger that may be absent. -/
def triggerText : Option TriggerType → String
  | none => "None"
  | some trigger => "Some(" ++ trigger.name ++ ")"

/-- The line about an output of the device, if it is worth one. -/
def serverLine : ServerOutput → Option String
  | .command id item tag trigger =>
      some (s!"🔒 device: session {id.toNat} " ++ item.name ++ " tag=" ++ Text.quote tag ++
        " trigger=" ++ triggerText trigger)
  | _ => none

/-- The item of a command that the device was given. -/
def commandItem : ServerOutput → Option ItemCode
  | .command _ item _ _ => some item
  | _ => none

end Simulation

/-! ## The course of a session -/

/-- A session in memory: the two ends, the commands that are still to be carried out, and the
lines told so far. -/
structure Simulation where
  ends : Loopback
  commands : List ItemCode := []
  lines : List String := []
  deriving Inhabited

namespace Simulation

/-- A step of a simulation; it may fail with a complaint. -/
abbrev Step (α : Type) : Type := ExceptT String (StateM Simulation) α

/-- The only session of the device. -/
def session : SessionId := 1

/-- The position of a bolt that is locked. -/
def lockPosition : Int16 := 0

/-- The position of a bolt that is unlocked. -/
def unlockPosition : Int16 := 256

/-- The client tells its state and its status; the device welcomes every command. -/
def setup : Loopback.Setup where
  observers := { state := true, status := true }
  handler := some fun _ _ _ _ => .success

/-- One more line. -/
def tell (line : String) : Step Unit := modify fun s => { s with lines := s.lines ++ [line] }

/-- A simulation after outputs of the client. -/
def afterClient (s : Simulation) (ends : Loopback) (outputs : List ClientOutput) : Simulation :=
  { s with ends := ends, lines := s.lines ++ outputs.filterMap clientLine }

/-- A simulation after outputs of the device. -/
def afterServer (s : Simulation) (ends : Loopback) (outputs : List ServerOutput) : Simulation :=
  { s with
    ends := ends
    commands := s.commands ++ outputs.filterMap commandItem
    lines := s.lines ++ outputs.filterMap serverLine }

/-- A request to the client. -/
def askClient (request : Client.Request) : Step Unit := do
  let s ← get
  let (ends, outputs, result) := s.ends.askClient setup request
  set (s.afterClient ends outputs)
  match result with
  | .ok () => return
  | .error error => throw error.message

/-- A request to the device. -/
def askServer (request : Server.Request) : Step Unit := do
  let s ← get
  let (ends, outputs, result) := s.ends.askServer setup request
  set (s.afterServer ends outputs)
  match result with
  | .ok () => return
  | .error error => throw error.message

/-- One fragment is delivered to each end, if there is one for it. -/
def round (s : Simulation) : Simulation :=
  let (ends, outputs) := s.ends.deliverToServer setup
  let s := s.afterServer ends outputs
  let (ends, outputs) := s.ends.deliverToClient setup
  s.afterClient ends outputs

/-- At most so many rounds, until nothing is under way. -/
def settleWithin : Nat → Simulation → Simulation
  | 0, s => s
  | rounds + 1, s => if s.ends.isQuiet then s else settleWithin rounds s.round

/-- Everything under way is delivered.  One request leads to no more than a few messages, so the
bound on the rounds is never met. -/
def settle : Step Unit := modify (settleWithin 1000)

/-- The status of the device in a position. -/
def statusIn (position : Int16) (inLock : Bool) : StatusOs3 where
  battery := 3000
  target := position
  position := position
  inLock := inLock
  inUnlockRange := !inLock
  isStopped := true

/-- The device carries one command out and publishes its new status. -/
def actuate (item : ItemCode) : Step Unit := do
  let status? : Option StatusOs3 :=
    match item with
    | .lock => some (statusIn lockPosition true)
    | .unlock => some (statusIn unlockPosition false)
    | _ => none
  match status? with
  | none => return
  | some status =>
      askServer (.setMechStatus status)
      askServer (.notify none ⟨.publish, .mechStatus, status.toBytes⟩)
      settle

/-- A command of the client, up to its effect. -/
def command (request : Client.Request) : Step Unit := do
  askClient request
  settle
  let items := (← get).commands
  modify fun s => { s with commands := [] }
  items.forM actuate

/-! ## A whole session -/

/-- What a session starts from. -/
structure Plan where
  model : Model
  tag : String
  uuid : Uuid
  secret : Key
  /-- Seconds since the start of 1970. -/
  time : UInt32

/-- The device is set up and tells what it broadcasts. -/
def prepareServer (plan : Plan) : Step Unit := do
  askServer (.begin plan.model plan.uuid)
  askServer (.setRegistered plan.secret)
  askServer (.setCurrentTime plan.time 0)
  askServer (.setMechSetting ⟨lockPosition, unlockPosition, 0⟩)
  askServer (.setMechStatus { battery := 3000, inLock := true, isStopped := true })
  match (← get).ends.server.broadcast with
  | .error error => throw error.message
  | .ok broadcast => do
      tell ("📡 " ++ plan.model.name ++ " " ++ plan.uuid.toText)
      tell ("   manufacturer: " ++ Hex.encode broadcast.manufacturerData)
      tell ("   name: " ++ broadcast.localName)
      tell ("   secret: " ++ Hex.encode plan.secret.toBytes)

/-- The whole session. -/
def course (plan : Plan) : Step Unit := do
  prepareServer plan
  askClient (.begin plan.model)
  askClient (.setKeys none plan.secret)
  askServer (.subscribed session 0)
  settle
  let client := (← get).ends.client
  unless client.isActive do
    throw ("login did not complete, client is " ++ client.state.name)
  command (.unlock plan.tag)
  command (.lock plan.tag)
  askClient .disconnect
  askServer (.disconnected session)
  tell "✅ 模拟结束"

/-- A simulation before its start: a client and a device with one slot. -/
def start (client server : RandomSource) : Simulation where
  ends := { client := Client.new client, server := Server.new server 1, session := session }

/-- The lines that a whole session tells, and the complaint that it ended with, if it did. -/
def run (client server : RandomSource) (plan : Plan) : List String × Option String :=
  let (result, s) := (course plan).run.run (start client server)
  (s.lines,
    match result with
    | .ok () => none
    | .error complaint => some complaint)

end Simulation

end SmartLock
