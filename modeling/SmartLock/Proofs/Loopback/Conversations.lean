/-
# Conversations

A client and a session of a server, and what may happen between them (`Loopback.Action`): the client
is asked for something, the server tells a status, or the next fragment is delivered to the one or
the other side.

Of a conversation in which the client is active and the session runs, only the link matters: the
client talks, the session is served, and the same fragments are under way as on a link without a
client and a server (`Loopback.Mirrors`).  Each action is no, one or two moves of that link, and
what the session's link takes has been put on the way by them (`Loopback.Advances`).
-/
import SmartLock.Proofs.Client.Talking
import SmartLock.Proofs.Link.Deliveries
import SmartLock.Proofs.Loopback.Serving

namespace SmartLock

/-! ## Fragments towards a side -/

namespace Duplex

/-- The fragments that have been put on the way to a side, delivered or not. -/
def passed (l : Duplex) (role : Role) : List Bytes := l.delivered role ++ l.inbox role

/-- What a side sends is passed to the other one. -/
theorem passed_step_send (l : Duplex) (role : Role) (writer : Fragment.Writer) (m : Message) :
    (l.step (.send role writer m)).passed role.peer =
        l.passed role.peer ++ ((l.channel role).send writer m.body m.encrypted).offer.taken ∧
      (l.step (.send role writer m)).passed role = l.passed role := by
  obtain ⟨-, -, hpeer, hself, hdelivered⟩ := step_send l role writer m
  simp only [passed, hpeer, hself, hdelivered, List.append_assoc, and_self]

/-- A delivery puts nothing on the way. -/
theorem passed_step_deliver (l : Duplex) (receiver role : Role) :
    (l.step (.deliver receiver)).passed role = l.passed role := by
  cases hinbox : l.inbox receiver with
  | nil => simp only [step, hinbox]
  | cons fragment rest =>
      obtain ⟨-, -, hself, hpeer, hdelivered, hother⟩ := step_deliver l receiver hinbox
      by_cases hrole : role = receiver
      · subst hrole
        simp only [passed, hself, hdelivered, hinbox, List.append_assoc, List.singleton_append]
      · have hrole' : role = receiver.peer := by
          cases role <;> cases receiver <;> first | rfl | exact absurd rfl hrole
        subst hrole'
        simp only [passed, hpeer, hother]

end Duplex

namespace Loopback

open Client (AtWork)
open Server (commands readCommand?)

/-! ## Actions -/

/-- What happens next in a conversation: the client is asked for something, the server tells a
status to one session or to all, or the next fragment is delivered to a side. -/
inductive Action where
  | call (request : Client.Request)
  | tell (target : Option SessionId) (status : Bytes)
  | deliver (receiver : Role)

/-- The loopback after an action, with what has been put out. -/
def act (setup : Setup) (l : Loopback) : Action → Delivered
  | .call request =>
      let (l, outputs, _) := l.askClient setup request
      { loopback := l, clientOutputs := outputs }
  | .tell target status =>
      let (l, outputs, _) := l.askServer setup (.notify target ⟨.publish, .mechStatus, status⟩)
      { loopback := l, serverOutputs := outputs }
  | .deliver receiver => l.deliver setup receiver

/-- An action in its surroundings; what carries the commands out need not be the same each time. -/
structure Moment where
  setup : Setup
  action : Action

/-- One more action. -/
def Delivered.andThen (d : Delivered) (m : Moment) : Delivered :=
  let next := d.loopback.act m.setup m.action
  { loopback := next.loopback
    clientOutputs := d.clientOutputs ++ next.clientOutputs
    serverOutputs := d.serverOutputs ++ next.serverOutputs }

/-- The loopback after several actions, with all that has been put out. -/
def actAll (l : Loopback) (ms : List Moment) : Delivered :=
  ms.foldl Delivered.andThen { loopback := l }

/-- One more action is one more step. -/
theorem actAll_concat (l : Loopback) (ms : List Moment) (m : Moment) :
    l.actAll (ms ++ [m]) = (l.actAll ms).andThen m := by
  simp [actAll]

/-- The command that an action calls for. -/
def Action.command? (model : Model) : Action → Option (ItemCode × String × Option TriggerType)
  | .call request => request.command? model
  | _ => none

/-- The client is only asked for commands, and the server only tells what can be encrypted: a longer
status is refused with an error (`Server.Serves.notify_error_of_lt`). -/
def Action.Admissible (model : Model) : Action → Prop
  | .call request => (request.command? model).isSome = true
  | .tell _ status => status.length + 2 ≤ Ccm.maxLength
  | .deliver _ => True

/-- Somebody carries commands out, and the action is admissible. -/
structure Moment.Admissible (model : Model) (m : Moment) : Prop where
  handler : m.setup.handler.isSome = true
  action : m.action.Admissible model

/-- The message in which the server tells a status. -/
def statusMessage (status : Bytes) : Message :=
  ⟨OpCode.publish.code :: ItemCode.mechStatus.code :: status, true⟩

/-- It can be sent if it is not too long. -/
theorem sendable_statusMessage {status : Bytes} (h : status.length + 2 ≤ Ccm.maxLength) :
    (statusMessage status).Sendable := by
  rw [Message.Sendable, statusMessage, if_pos rfl]
  exact h

/-! ## The link behind it -/

/-- The client's link takes everything. -/
theorem takes_clientHost (setup : Setup) (outputs : List ClientOutput) (fragment : Bytes) :
    (clientHost setup.observers).takes outputs fragment = true := rfl

/-- The client talks and the session is served over the two ends of a link, and the same is under
way. -/
structure Mirrors (model : Model) (session : SessionId) (k : Duplex) (l : Loopback) : Prop where
  names : l.session = session
  client : l.client.Talks model (k.channel .central)
  server : l.server.Serves session (k.channel .peripheral)
  inbox : ∀ role, l.inbox role = k.inbox role

/-- What has been put out belongs to the moves from one link to another: no side has closed the
link, and what the session's link took has been passed to the client. -/
structure Advances (model : Model) (session : SessionId) (k k' : Duplex) (d : Delivered) :
    Prop where
  mirrors : Mirrors model session k' d.loopback
  opened : d.Open
  written : k'.passed .central = k.passed .central ++ writtenTo session d.serverOutputs

/-- Actions follow one another. -/
theorem Advances.andThen {model : Model} {session : SessionId} {k k' k'' : Duplex} {d : Delivered}
    (h : Advances model session k k' d) {m : Moment}
    (hnext : Advances model session k' k'' (d.loopback.act m.setup m.action)) :
    Advances model session k k'' (d.andThen m) := by
  refine ⟨hnext.mirrors, ⟨?_, fun id => ?_⟩, ?_⟩
  · simpa [Delivered.andThen] using ⟨h.opened.client, hnext.opened.client⟩
  · simpa [Delivered.andThen] using ⟨h.opened.server id, hnext.opened.server id⟩
  · rw [hnext.written, h.written, List.append_assoc, ← Server.writtenTo_append]
    rfl

section Steps

variable {model : Model} {session : SessionId} {k : Duplex} {l : Loopback}
  (h : Mirrors model session k l) {key : Key}
  (hkey : ∀ role, (k.channel role).cipher.key = some key) (setup : Setup)

include h

include hkey in
/-- A call is one message of the client, which a server reads as the command. -/
theorem Mirrors.call {request : Client.Request}
    {command : ItemCode × String × Option TriggerType}
    (hcommand : request.command? model = some command) :
    ∃ writer body, Fragment.TakesAll writer ∧ body.length ≤ 31 ∧ readCommand? body = some command ∧
      (l.askClient setup request).2.2 = .ok () ∧
      Advances model session k (k.step (.send .central writer ⟨body, true⟩))
        (l.act setup (.call request)) ∧
      (l.act setup (.call request)).serverOutputs = [] := by
  obtain ⟨writer, body, hwriter, hlength, hread, hok, htalks, houtputs⟩ :=
    h.client.call (hkey .central) (takes_clientHost setup) hcommand
  obtain ⟨hself, hpeer, hinbox, hsame, -⟩ := k.step_send .central writer ⟨body, true⟩
  refine ⟨writer, body, hwriter, hlength, hread, hok, ⟨⟨h.names, ?_, ?_, ?_⟩, ⟨?_, ?_⟩, ?_⟩, rfl⟩
  · rw [hself]
    exact htalks
  · exact hpeer ▸ h.server
  · have hwritten : written (l.client.step (clientHost setup.observers) request).outputs =
        ((k.channel .central).send writer body true).offer.taken := by
      rw [houtputs, written_map]
    intro role
    cases role with
    | central => exact (h.inbox .central).trans hsame.symm
    | peripheral =>
        refine Eq.trans ?_ hinbox.symm
        exact congrArg₂ (· ++ ·) (h.inbox .peripheral) hwritten
  · show _ ∉ (l.client.step (clientHost setup.observers) request).outputs
    rw [houtputs]
    simp
  · exact fun _ => List.not_mem_nil
  · rw [(k.passed_step_send .central writer ⟨body, true⟩).2]
    exact (List.append_nil _).symm

include hkey in
/-- A status that is told to the session, or to all, is one message of the server. -/
theorem Mirrors.tell {target : Option SessionId} (htarget : target = none ∨ target = some session)
    {status : Bytes} (hstatus : status.length + 2 ≤ Ccm.maxLength) :
    ∃ writer, Fragment.TakesAll writer ∧
      Advances model session k (k.step (.send .peripheral writer (statusMessage status)))
        (l.act setup (.tell target status)) := by
  obtain rfl := h.names
  obtain ⟨writer, hwriter, hserves, hwritten⟩ := h.server.notify
    (takes_serverHost setup) (hkey .peripheral) htarget
    (n := ⟨.publish, .mechStatus, status⟩) (sendable_statusMessage hstatus)
  obtain ⟨hself, hpeer, hinbox, hsame, -⟩ :=
    k.step_send .peripheral writer (statusMessage status)
  refine ⟨writer, hwriter, ⟨rfl, ?_, ?_, ?_⟩, ⟨List.not_mem_nil, fun id hmem => ?_⟩, ?_⟩
  · exact hpeer ▸ h.client
  · rw [hself]
    exact hserves
  · intro role
    cases role with
    | central =>
        refine Eq.trans ?_ hinbox.symm
        exact congrArg₂ (· ++ ·) (h.inbox .central) hwritten
    | peripheral => exact (h.inbox .peripheral).trans hsame.symm
  · obtain ⟨other, fragment, taken, heq⟩ := Server.write_of_mem_notify hmem
    cases heq
  · refine (k.passed_step_send .peripheral writer (statusMessage status)).1.trans ?_
    exact congrArg (k.passed .central ++ ·) hwritten.symm

/-- A status that is told to another session does not concern this one. -/
theorem Mirrors.tell_of_ne {other : SessionId} (hother : other ≠ session) (status : Bytes) :
    Advances model session k k (l.act setup (.tell (some other) status)) := by
  obtain rfl := h.names
  obtain ⟨hserves, hwritten⟩ := h.server.notify_of_ne
    (serverHost setup.registers setup.handler) hother ⟨.publish, .mechStatus, status⟩
  refine ⟨⟨rfl, h.client, hserves, ?_⟩, ⟨List.not_mem_nil, fun id hmem => ?_⟩, ?_⟩
  · intro role
    cases role with
    | central =>
        refine Eq.trans ?_ ((List.append_nil _).trans (h.inbox .central))
        exact congrArg (l.toClient ++ ·) hwritten
    | peripheral => exact h.inbox .peripheral
  · obtain ⟨_, fragment, taken, heq⟩ := Server.write_of_mem_notify hmem
    cases heq
  · refine (List.append_nil _).symm.trans ?_
    exact congrArg (k.passed .central ++ ·) hwritten.symm

omit h in
/-- A status is no command. -/
theorem commands_tell (target : Option SessionId) (status : Bytes) :
    commands (l.act setup (.tell target status)).serverOutputs = [] := by
  refine List.filter_eq_nil_iff.mpr fun output hmem => ?_
  obtain ⟨_, fragment, taken, rfl⟩ := Server.write_of_mem_notify hmem
  exact Bool.false_ne_true

/-- Where nothing is under way, a delivery does nothing. -/
theorem Mirrors.idle {receiver : Role} (hinbox : k.inbox receiver = []) :
    Advances model session k k (l.act setup (.deliver receiver)) := by
  rw [act, deliver_of_inbox_eq_nil setup ((h.inbox receiver).trans hinbox)]
  exact ⟨h, .refl l, (List.append_nil _).symm⟩

/-- The client takes a fragment in. -/
theorem Mirrors.hear_client {fragment : Bytes} {rest : List Bytes}
    (hinbox : k.inbox .central = fragment :: rest)
    (hreceived : ((k.channel .central).receive fragment).2.IsQuiet ∨ ∃ message authenticated,
      ((k.channel .central).receive fragment).2 = .complete message authenticated ∧
        AtWork message) :
    Advances model session k (k.step (.deliver .central)) (l.act setup (.deliver .central)) ∧
      (l.act setup (.deliver .central)).serverOutputs = [] := by
  obtain ⟨hself, hpeer, hrest, hsame, -, -⟩ := k.step_deliver .central hinbox
  obtain ⟨htalks, htold⟩ := h.client.hear (clientHost setup.observers) hreceived
  rw [act, deliver_central setup ((h.inbox .central).trans hinbox)]
  refine ⟨⟨⟨h.names, hself ▸ htalks, hpeer ▸ h.server, ?_⟩,
    ⟨not_mem_of_isTold htold, fun _ => List.not_mem_nil⟩, ?_⟩, rfl⟩
  · intro role
    cases role with
    | central => exact hrest.symm
    | peripheral =>
        refine Eq.trans ?_ ((h.inbox .peripheral).trans hsame.symm)
        show l.toServer ++ written _ = l.toServer
        rw [written_of_isTold htold, List.append_nil]
  · rw [k.passed_step_deliver]
    exact (List.append_nil _).symm

section Server

variable {fragment : Bytes} {rest : List Bytes} (hinbox : k.inbox .peripheral = fragment :: rest)

include hinbox

/-- The server takes a fragment in that is of no note. -/
theorem Mirrors.hear_server (hquiet : ((k.channel .peripheral).receive fragment).2.IsQuiet) :
    Advances model session k (k.step (.deliver .peripheral)) (l.act setup (.deliver .peripheral)) ∧
      (l.act setup (.deliver .peripheral)).serverOutputs = [] := by
  obtain rfl := h.names
  obtain ⟨hself, hpeer, hrest, hsame, -, -⟩ := k.step_deliver .peripheral hinbox
  obtain ⟨hserves, hnothing⟩ := h.server.hear (serverHost setup.registers setup.handler) hquiet
  rw [act, deliver_peripheral setup ((h.inbox .peripheral).trans hinbox)]
  dsimp only
  rw [hnothing]
  refine ⟨⟨⟨rfl, hpeer ▸ h.client, hself ▸ hserves, ?_⟩, .refl _, ?_⟩, rfl⟩
  · intro role
    cases role with
    | central => exact (List.append_nil _).trans ((h.inbox .central).trans hsame.symm)
    | peripheral => exact hrest.symm
  · rw [k.passed_step_deliver]
    exact (List.append_nil _).symm

include hkey in
/-- The server carries a command out and answers it. -/
theorem Mirrors.command {handler : CommandHandler} (hhandler : setup.handler = some handler)
    {message : Bytes} {authenticated : Bool}
    (hreceived : ((k.channel .peripheral).receive fragment).2 = .complete message authenticated)
    {item : ItemCode} {tag : String} {trigger : Option TriggerType}
    (hread : readCommand? message = some (item, tag, trigger)) :
    ∃ writer, Fragment.TakesAll writer ∧
      Advances model session k ((k.step (.deliver .peripheral)).step (.send .peripheral writer
          ⟨[OpCode.response.code, item.code, (handler session item tag trigger).code], true⟩))
        (l.act setup (.deliver .peripheral)) ∧
      commands (l.act setup (.deliver .peripheral)).serverOutputs =
        [.command session item tag trigger] := by
  obtain rfl := h.names
  obtain ⟨hself, hpeer, hrest, hsame, -, -⟩ := k.step_deliver .peripheral hinbox
  obtain ⟨writer, hwriter, hserves, houtputs⟩ := h.server.command (takes_serverHost setup)
    (hkey .peripheral) hhandler hreceived hread
  let answer : Message :=
    ⟨[OpCode.response.code, item.code, (handler l.session item tag trigger).code], true⟩
  obtain ⟨hself', hpeer', hinbox', hsame', -⟩ :=
    (k.step (.deliver .peripheral)).step_send .peripheral writer answer
  have hwritten := congrArg (writtenTo l.session) houtputs
  rw [show writtenTo l.session (.command l.session item tag trigger :: _) = _ from
    writtenTo_map l.session _] at hwritten
  rw [act, deliver_peripheral setup ((h.inbox .peripheral).trans hinbox)]
  dsimp only
  rw [hwritten, houtputs]
  refine ⟨writer, hwriter, ⟨⟨rfl, ?_, ?_, ?_⟩, ⟨List.not_mem_nil, ?_⟩, ?_⟩, ?_⟩
  · exact hpeer'.trans hpeer ▸ h.client
  · rw [hself', hself]
    exact hserves
  · intro role
    cases role with
    | central =>
        refine Eq.trans ?_ hinbox'.symm
        rw [hself]
        exact congrArg (· ++ _) ((h.inbox .central).trans hsame.symm)
    | peripheral => exact hrest.symm.trans hsame'.symm
  · intro id
    simp
  · refine ((k.step (.deliver .peripheral)).passed_step_send .peripheral writer answer).1.trans ?_
    rw [hself, show Role.peripheral.peer = .central from rfl, k.passed_step_deliver]
    exact congrArg (k.passed .central ++ ·) (writtenTo_map l.session _).symm
  · rw [commands, List.filter_cons_of_pos rfl,
      List.filter_eq_nil_iff.mpr (by simp [ServerOutput.isCommand])]

end Server

end Steps

end Loopback

end SmartLock
