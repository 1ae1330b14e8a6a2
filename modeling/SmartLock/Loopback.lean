/-
# A client and a server without a link between them

A client and one session of a server, joined by two queues of fragments, one for each direction.
Each queue is delivered in its order; which of the two is served next is free.
-/
import SmartLock.Client.Commands
import SmartLock.Server.Operations

namespace SmartLock

/-- A client and a server with the fragments that are under way between them. -/
structure Loopback where
  client : Client
  server : Server
  session : SessionId
  toServer : List Bytes := []
  toClient : List Bytes := []
  deriving DecidableEq, Repr, Inhabited

namespace Loopback

/-! ## Surroundings -/

/-- A client host that takes every fragment. -/
def clientHost (observers : Observers) : ClientHost := ⟨fun _ _ => true, observers⟩

/-- A server host that takes every fragment; registrations may be welcome, and commands may be
carried out. -/
def serverHost (registers : Bool) (handler : Option CommandHandler) : ServerHost where
  takes := fun _ _ _ => true
  registers := registers
  handler := handler

/-- What a loopback is run with. -/
structure Setup where
  observers : Observers := {}
  registers : Bool := false
  handler : Option CommandHandler := none

/-! ## Steps -/

/-- The fragments that a client's link took. -/
def written (outputs : List ClientOutput) : List Bytes :=
  outputs.filterMap fun
    | .write fragment true => some fragment
    | _ => none

/-- The fragments that the link of one session of a server took. -/
def writtenTo (session : SessionId) (outputs : List ServerOutput) : List Bytes :=
  outputs.filterMap fun
    | .write id fragment true => if id = session then some fragment else none
    | _ => none

/-- What the link of the client has taken has been written. -/
theorem written_map (fragments : List Bytes) :
    written (fragments.map (.write · true)) = fragments := by
  rw [written, List.filterMap_map]
  exact List.filterMap_some

/-- What the link of a session has taken has been written to it. -/
theorem writtenTo_map (session : SessionId) (fragments : List Bytes) :
    writtenTo session (fragments.map (.write session · true)) = fragments := by
  induction fragments with
  | nil => rfl
  | cons fragment rest ih =>
      simp only [writtenTo, List.map_cons, List.filterMap_cons, if_true]
      exact congrArg (fragment :: ·) ih

/-- A request to the client. -/
def askClient (setup : Setup) (l : Loopback) (request : Client.Request) :
    Loopback × List ClientOutput × Except ClientError Unit :=
  let outcome := l.client.step (clientHost setup.observers) request
  ({ l with client := outcome.client, toServer := l.toServer ++ written outcome.outputs },
    outcome.outputs, outcome.result)

/-- A request to the server. -/
def askServer (setup : Setup) (l : Loopback) (request : Server.Request) :
    Loopback × List ServerOutput × Except ServerError Unit :=
  let outcome := l.server.step (serverHost setup.registers setup.handler) request
  ({ l with server := outcome.server,
            toClient := l.toClient ++ writtenTo l.session outcome.outputs },
    outcome.outputs, outcome.result)

/-- The next fragment to the server is delivered.  The server's complaint about it is lost. -/
def deliverToServer (setup : Setup) (l : Loopback) : Loopback × List ServerOutput :=
  match l.toServer with
  | [] => (l, [])
  | fragment :: rest =>
      let (l, outputs, _) := askServer setup { l with toServer := rest } (.receive l.session fragment)
      (l, outputs)

/-- The next fragment to the client is delivered. -/
def deliverToClient (setup : Setup) (l : Loopback) : Loopback × List ClientOutput :=
  match l.toClient with
  | [] => (l, [])
  | fragment :: rest =>
      let (l, outputs, _) := askClient setup { l with toClient := rest } (.receive fragment)
      (l, outputs)

/-- Whether nothing is under way. -/
def isQuiet (l : Loopback) : Bool := l.toServer.isEmpty && l.toClient.isEmpty

end Loopback

end SmartLock
