/-
# Commands from end to end

A client of the third generation that is active, and a server whose session runs, over two ends of a
link that are paired.  The client is asked for commands, the server tells its status, and fragments
are delivered to the one or the other side, in any order (`Loopback.actAll`).

`commands_actAll` says that every command arrives exactly once, in the order of the calls and with
the tag or the trigger that it was called with, that each one is answered once, and that the ends
stay in step.  Which messages an action puts on the link, and which commands are carried out with
it, is all that has to be known of it (`Adds`); what becomes of the messages is known of the link
(`Duplex.receive_next`), and `Progress` is what a run has come to by both.
-/
import Mathlib.Data.List.Infix
import SmartLock.Proofs.Loopback.Conversations

namespace SmartLock.Loopback

open Client (AtWork)
open Server (commands readCommand?)

/-! ## Commands that are carried out -/

/-- The commands that are called for, in the order of the calls. -/
def calls (model : Model) (ms : List Moment) : List (ItemCode × String × Option TriggerType) :=
  ms.filterMap (·.action.command? model)

/-- What carries commands out, at one moment after the other. -/
def handlers (ms : List Moment) : List CommandHandler := ms.filterMap (·.setup.handler)

/-- Deliveries to the server and, after that, to the client. -/
def deliveries (setup : Setup) (toServer toClient : Nat) : List Moment :=
  List.replicate toServer ⟨setup, .deliver .peripheral⟩ ++
    List.replicate toClient ⟨setup, .deliver .central⟩

/-- They are admissible where commands can be carried out. -/
theorem admissible_deliveries (model : Model) {setup : Setup}
    (hhandler : setup.handler.isSome = true) (toServer toClient : Nat) :
    ∀ m ∈ deliveries setup toServer toClient, m.Admissible model := by
  intro m hm
  rcases List.mem_append.mp hm with hm | hm <;> rw [List.eq_of_mem_replicate hm] <;>
    exact ⟨hhandler, trivial⟩

/-- They call for nothing. -/
theorem calls_append_deliveries (model : Model) (ms : List Moment) (setup : Setup)
    (toServer toClient : Nat) :
    calls model (ms ++ deliveries setup toServer toClient) = calls model ms := by
  simp [calls, deliveries, Action.command?]

/-- A command that has been carried out, and by what. -/
structure Execution where
  command : ItemCode × String × Option TriggerType
  handler : CommandHandler

namespace Execution

variable (session : SessionId) (e : Execution)

/-- How the server hands the command out. -/
def output : ServerOutput := .command session e.command.1 e.command.2.1 e.command.2.2

/-- The answer to the command. -/
def answer : Message where
  body := [OpCode.response.code, e.command.1.code,
    (e.handler session e.command.1 e.command.2.1 e.command.2.2).code]
  encrypted := true

end Execution

/-- Whether a message of a server is an answer. -/
def isAnswer (m : Message) : Bool := m.body.head? = some OpCode.response.code

/-- One more action may call for one more command. -/
theorem calls_concat (model : Model) (ms : List Moment) (m : Moment) :
    calls model (ms ++ [m]) = calls model ms ++ (m.action.command? model).toList := by
  rw [calls, List.filterMap_append]
  cases h : m.action.command? model <;> simp [calls, h]

/-- What carries commands out at one more moment. -/
theorem handlers_concat (ms : List Moment) (m : Moment) :
    handlers (ms ++ [m]) = handlers ms ++ m.setup.handler.toList := by
  rw [handlers, List.filterMap_append]
  cases h : m.setup.handler <;> simp [handlers, h]

/-- What an action adds to a run: the moves that it makes on the link behind it, and the commands
that are carried out with it. -/
structure Adds (model : Model) (session : SessionId) (k : Duplex) (l : Loopback) (m : Moment)
    (more : List Move) (executed : List Execution) : Prop where
  admissible : ∀ move ∈ more, move.Admissible
  advances : Advances model session k (k.run more) (l.act m.setup m.action)
  called : (sentTo .peripheral more).map (readCommand? ·.body) =
    (m.action.command? model).toList.map some
  fits : ∀ m ∈ sentTo .peripheral more, m.Fits
  atWork : ∀ m ∈ sentTo .central more, AtWork m.body
  through : ((k.run more).delivered .peripheral).countP Fragment.isLast =
    (k.delivered .peripheral).countP Fragment.isLast + executed.length
  carriers : (executed.map Execution.handler).Sublist m.setup.handler.toList
  carried : commands (l.act m.setup m.action).serverOutputs = executed.map (·.output session)
  answered : (sentTo .central more).filter isAnswer = executed.map (·.answer session)

section Adds

variable {model : Model} {session : SessionId} {k : Duplex} {l : Loopback}
  (h : Mirrors model session k l) {key : Key}
  (hkey : ∀ role, (k.channel role).cipher.key = some key) (setup : Setup)

include h

include hkey in
/-- A call adds one message of the client. -/
theorem adds_call {request : Client.Request}
    {command : ItemCode × String × Option TriggerType}
    (hcommand : request.command? model = some command) :
    (l.askClient setup request).2.2 = .ok () ∧
      ∃ more, Adds model session k l ⟨setup, .call request⟩ more [] := by
  obtain ⟨writer, body, hwriter, hlength, hread, hok, hadvances, hnone⟩ :=
    h.call hkey setup hcommand
  refine ⟨hok, [.send .central writer ⟨body, true⟩], ?_⟩
  constructor
  case admissible =>
    refine List.forall_mem_singleton.mpr ⟨hwriter, ?_⟩
    rw [Message.Sendable, if_pos rfl]
    exact Nat.le_trans hlength (by decide)
  case advances => exact hadvances
  case called =>
    rw [Action.command?, hcommand]
    exact congrArg (fun command => [command]) hread
  case fits =>
    refine List.forall_mem_singleton.mpr ?_
    rw [Message.Fits, Message.wireLength, if_pos rfl]
    exact Nat.le_trans (Nat.add_le_add_right hlength _) (by decide)
  case atWork => exact List.forall_mem_nil _
  case through =>
    have hdelivered := congrFun (k.step_send .central writer ⟨body, true⟩).2.2.2.2 .peripheral
    exact congrArg (List.countP Fragment.isLast) hdelivered
  case carriers => exact List.nil_sublist _
  case carried => exact congrArg commands hnone
  case answered => rfl

include hkey in
/-- A status adds one message of the server, or none. -/
theorem adds_tell (target : Option SessionId) {status : Bytes}
    (hstatus : status.length + 2 ≤ Ccm.maxLength) :
    ∃ more, Adds model session k l ⟨setup, .tell target status⟩ more [] := by
  have hnone := commands_tell (l := l) setup target status
  by_cases htarget : target = none ∨ target = some session
  · obtain ⟨writer, hwriter, hadvances⟩ := h.tell hkey setup htarget hstatus
    refine ⟨[.send .peripheral writer (statusMessage status)], ?_⟩
    constructor
    case admissible =>
      exact List.forall_mem_singleton.mpr ⟨hwriter, sendable_statusMessage hstatus⟩
    case advances => exact hadvances
    case called => rfl
    case fits => exact List.forall_mem_nil _
    case atWork => exact List.forall_mem_singleton.mpr (.inl ⟨status, rfl⟩)
    case through =>
      have hdelivered :=
        congrFun (k.step_send .peripheral writer (statusMessage status)).2.2.2.2 .peripheral
      exact congrArg (List.countP Fragment.isLast) hdelivered
    case carriers => exact List.nil_sublist _
    case carried => exact hnone
    case answered => rfl
  · cases target with
    | none => exact absurd (.inl rfl) htarget
    | some other =>
        have hother : other ≠ session := fun heq => htarget (.inr (congrArg some heq))
        exact ⟨[], List.forall_mem_nil _, h.tell_of_ne setup hother status, rfl,
          List.forall_mem_nil _, List.forall_mem_nil _, rfl, List.nil_sublist _, hnone, rfl⟩

omit h in
/-- A delivery with which no command is carried out adds nothing but itself. -/
theorem adds_deliver {receiver : Role}
    (hadvances : Advances model session k (k.step (.deliver receiver))
      (l.act setup (.deliver receiver)))
    (hthrough : ((k.step (.deliver receiver)).delivered .peripheral).countP Fragment.isLast =
      (k.delivered .peripheral).countP Fragment.isLast)
    (hnone : (l.act setup (.deliver receiver)).serverOutputs = []) :
    Adds model session k l ⟨setup, .deliver receiver⟩ [.deliver receiver] [] where
  admissible := List.forall_mem_singleton.mpr trivial
  advances := hadvances
  called := rfl
  fits := List.forall_mem_nil _
  atWork := List.forall_mem_nil _
  through := hthrough
  carriers := List.nil_sublist _
  carried := congrArg commands hnone
  answered := rfl

/-- Where nothing is under way, a delivery adds nothing but itself. -/
theorem adds_idle {receiver : Role} (hinbox : k.inbox receiver = []) :
    Adds model session k l ⟨setup, .deliver receiver⟩ [.deliver receiver] [] := by
  have hsame : k.step (.deliver receiver) = k := by simp only [Duplex.step, hinbox]
  refine adds_deliver setup ?_ (by rw [hsame]) ?_
  · rw [hsame]
    exact h.idle setup hinbox
  · rw [act, deliver_of_inbox_eq_nil setup ((h.inbox receiver).trans hinbox)]

/-- A delivery to the client adds nothing but itself. -/
theorem adds_deliver_central {fragment : Bytes} {rest : List Bytes}
    (hinbox : k.inbox .central = fragment :: rest)
    (hreceived : ((k.channel .central).receive fragment).2.IsQuiet ∨ ∃ message authenticated,
      ((k.channel .central).receive fragment).2 = .complete message authenticated ∧
        AtWork message) :
    Adds model session k l ⟨setup, .deliver .central⟩ [.deliver .central] [] := by
  obtain ⟨hadvances, hnone⟩ := h.hear_client setup hinbox hreceived
  have hdelivered := (k.step_deliver .central hinbox).2.2.2.2.2
  exact adds_deliver setup hadvances (congrArg (List.countP Fragment.isLast) hdelivered) hnone

section Server

variable {fragment : Bytes} {rest : List Bytes} (hinbox : k.inbox .peripheral = fragment :: rest)

include hinbox

/-- A delivery to the server that completes nothing adds nothing but itself. -/
theorem adds_deliver_peripheral (hlast : Fragment.isLast fragment = false)
    (hquiet : ((k.channel .peripheral).receive fragment).2.IsQuiet) :
    Adds model session k l ⟨setup, .deliver .peripheral⟩ [.deliver .peripheral] [] := by
  obtain ⟨hadvances, hnone⟩ := h.hear_server setup hinbox hquiet
  refine adds_deliver setup hadvances ?_ hnone
  rw [(k.step_deliver .peripheral hinbox).2.2.2.2.1]
  simp [List.countP_append, hlast]

include hkey in
/-- A delivery that completes a command adds itself and the answer. -/
theorem adds_command (hlast : Fragment.isLast fragment = true) {handler : CommandHandler}
    (hhandler : setup.handler = some handler) {message : Bytes} {authenticated : Bool}
    (hreceived : ((k.channel .peripheral).receive fragment).2 = .complete message authenticated)
    {command : ItemCode × String × Option TriggerType}
    (hread : readCommand? message = some command) :
    ∃ more, Adds model session k l ⟨setup, .deliver .peripheral⟩ more [⟨command, handler⟩] := by
  obtain ⟨item, tag, trigger⟩ := command
  obtain ⟨writer, hwriter, hadvances, hcommand⟩ :=
    h.command hkey setup hinbox hhandler hreceived hread
  let e : Execution := ⟨(item, tag, trigger), handler⟩
  refine ⟨[.deliver .peripheral, .send .peripheral writer (e.answer session)], ?_⟩
  constructor
  case admissible =>
    simpa [Move.Admissible, Message.Sendable, Execution.answer, Ccm.maxLength] using hwriter
  case advances => exact hadvances
  case called => rfl
  case fits => exact List.forall_mem_nil _
  case atWork =>
    have hitem := Server.isCommandItem_of_readCommand? hread
    exact List.forall_mem_singleton.mpr (.inr ⟨item, _, hitem, rfl⟩)
  case through =>
    have hsent := congrFun ((k.step (.deliver .peripheral)).step_send .peripheral writer
      (e.answer session)).2.2.2.2 .peripheral
    have hdelivered := (k.step_deliver .peripheral hinbox).2.2.2.2.1
    refine (congrArg (List.countP Fragment.isLast) (hsent.trans hdelivered)).trans ?_
    simp [List.countP_append, hlast]
  case carriers => simp [hhandler]
  case carried => exact hcommand
  case answered => rfl

end Server

end Adds

/-- Where a run of a loopback has come to.  It has made these moves on the link behind it, and these
commands have been carried out: they are the first ones of those called for, as many as messages of
the client have come through, and the answers to them are what the server has answered. -/
structure Progress (model : Model) (start : Loopback) (ends : Role → Channel) (ms : List Moment)
    (moves : List Move) (done : List Execution) : Prop where
  admissible : ∀ move ∈ moves, move.Admissible
  advances : Advances model start.session (.between ends) ((Duplex.between ends).run moves)
    (start.actAll ms)
  called : (sentTo .peripheral moves).map (readCommand? ·.body) = (calls model ms).map some
  fits : ∀ m ∈ sentTo .peripheral moves, m.Fits
  atWork : ∀ m ∈ sentTo .central moves, AtWork m.body
  through : done.length =
    (((Duplex.between ends).run moves).delivered .peripheral).countP Fragment.isLast
  inOrder : done.map Execution.command <+: calls model ms
  carriers : (done.map Execution.handler).Sublist (handlers ms)
  carried : commands (start.actAll ms).serverOutputs = done.map (·.output start.session)
  answered : (sentTo .central moves).filter isAnswer = done.map (·.answer start.session)

/-- At the start nothing has happened. -/
theorem Progress.start {model : Model} {start : Loopback} {ends : Role → Channel}
    (hclient : start.client.Talks model (ends .central))
    (hserver : start.server.Serves start.session (ends .peripheral))
    (hquiet : start.isQuiet = true) : Progress model start ends [] [] [] where
  admissible := List.forall_mem_nil _
  advances := ⟨⟨rfl, hclient, hserver, isQuiet_iff.mp hquiet⟩, .refl start, rfl⟩
  called := rfl
  fits := List.forall_mem_nil _
  atWork := List.forall_mem_nil _
  through := rfl
  inOrder := List.prefix_rfl
  carriers := List.nil_sublist _
  carried := rfl
  answered := rfl

section Progress

variable {model : Model} {start : Loopback} {ends : Role → Channel} {ms : List Moment}
  {moves : List Move} {done : List Execution} (h : Progress model start ends ms moves done)

include h

/-- What an action adds, if the commands that are carried out with it are next. -/
theorem Progress.extend {m : Moment} {more : List Move} {executed : List Execution}
    (hadds : Adds model start.session ((Duplex.between ends).run moves) (start.actAll ms).loopback m
      more executed)
    (hnext : (done ++ executed).map Execution.command <+: calls model (ms ++ [m])) :
    Progress model start ends (ms ++ [m]) (moves ++ more) (done ++ executed) := by
  have hrun : (Duplex.between ends).run (moves ++ more) =
      ((Duplex.between ends).run moves).run more := List.foldl_append
  constructor
  case admissible => exact List.forall_mem_append.mpr ⟨h.admissible, hadds.admissible⟩
  case advances =>
    rw [hrun, actAll_concat]
    exact h.advances.andThen hadds.advances
  case called =>
    rw [sentTo_append, List.map_append, h.called, hadds.called, calls_concat, List.map_append]
  case fits =>
    rw [sentTo_append]
    exact List.forall_mem_append.mpr ⟨h.fits, hadds.fits⟩
  case atWork =>
    rw [sentTo_append]
    exact List.forall_mem_append.mpr ⟨h.atWork, hadds.atWork⟩
  case through => rw [hrun, hadds.through, List.length_append, h.through]
  case inOrder => exact hnext
  case carriers =>
    rw [handlers_concat, List.map_append]
    exact h.carriers.append hadds.carriers
  case carried =>
    rw [actAll_concat, Delivered.andThen, Server.commands_append, h.carried, hadds.carried,
      List.map_append]
  case answered =>
    rw [sentTo_append, List.filter_append, h.answered, hadds.answered, List.map_append]

/-- An action with which no command is carried out. -/
theorem Progress.pass {m : Moment} {more : List Move}
    (hadds : Adds model start.session ((Duplex.between ends).run moves) (start.actAll ms).loopback m
      more []) :
    Progress model start ends (ms ++ [m]) (moves ++ more) done := by
  have hprogress := h.extend hadds (by
    rw [List.append_nil, calls_concat]
    exact h.inOrder.trans (List.prefix_append _ _))
  rwa [List.append_nil] at hprogress

variable {key : Key} (hpaired : Duplex.Paired ends key)

include hpaired

/-- The client hears what comes from a server at work. -/
theorem Progress.deliver_central (setup : Setup) :
    Progress model start ends (ms ++ [⟨setup, .deliver .central⟩]) (moves ++ [.deliver .central])
      done := by
  have hmirrors := h.advances.mirrors
  cases hinbox : ((Duplex.between ends).run moves).inbox .central with
  | nil => exact h.pass (adds_idle hmirrors setup hinbox)
  | cons fragment rest =>
      refine h.pass (adds_deliver_central hmirrors setup hinbox ?_)
      rcases Duplex.receive_next hpaired h.admissible .central hinbox with
        ⟨-, hquiet⟩ | ⟨-, m, hm, hfits, hlong⟩
      · exact .inl hquiet
      · by_cases hm' : m.Fits
        · exact .inr ⟨m.body, m.encrypted, hfits hm', h.atWork m (List.mem_of_getElem? hm)⟩
        · exact .inl (hlong hm')

/-- The server hears what comes from a client that talks, and carries out the command that has come
through with it. -/
theorem Progress.deliver_peripheral {setup : Setup} (hhandler : setup.handler.isSome = true) :
    ∃ moves' done',
      Progress model start ends (ms ++ [⟨setup, .deliver .peripheral⟩]) moves' done' := by
  have hmirrors := h.advances.mirrors
  cases hinbox : ((Duplex.between ends).run moves).inbox .peripheral with
  | nil => exact ⟨_, done, h.pass (adds_idle hmirrors setup hinbox)⟩
  | cons fragment rest =>
      rcases Duplex.receive_next hpaired h.admissible .peripheral hinbox with
        ⟨hlast, hquiet⟩ | ⟨hlast, m, hm, hfits, -⟩
      · exact ⟨_, done, h.pass (adds_deliver_peripheral hmirrors setup hinbox hlast hquiet)⟩
      · -- The message is the first one of the client that was not through, its command the first
        -- one that was not carried out.
        have hreceived := hfits (h.fits m (List.mem_of_getElem? hm))
        rw [← h.through] at hm
        have hcalled := congrArg (·[done.length]?) h.called
        simp only [List.getElem?_map, hm, Option.map_some] at hcalled
        obtain ⟨command, hcommand, hread⟩ := Option.map_eq_some_iff.mp hcalled.symm
        obtain ⟨handler, hhandler⟩ := Option.isSome_iff_exists.mp hhandler
        obtain ⟨more, hadds⟩ := adds_command hmirrors
          (Duplex.key_between hpaired h.admissible) setup hinbox hlast hhandler hreceived hread.symm
        refine ⟨_, _, h.extend hadds ?_⟩
        obtain ⟨hlt, hget⟩ := List.getElem?_eq_some_iff.mp hcommand
        have hprefix := List.concat_get_prefix h.inOrder (by rwa [List.length_map])
        rw [calls_concat, List.map_append]
        simpa [hget, Action.command?] using hprefix

/-- Every admissible action goes on. -/
theorem Progress.next {m : Moment} (hm : m.Admissible model) :
    ∃ moves' done', Progress model start ends (ms ++ [m]) moves' done' := by
  have hmirrors := h.advances.mirrors
  have hkey := Duplex.key_between hpaired h.admissible
  obtain ⟨setup, action⟩ := m
  cases action with
  | call request =>
      obtain ⟨command, hcommand⟩ := Option.isSome_iff_exists.mp hm.action
      obtain ⟨-, more, hadds⟩ := adds_call hmirrors hkey setup hcommand
      exact ⟨_, done, h.pass hadds⟩
  | tell target status =>
      obtain ⟨more, hadds⟩ := adds_tell hmirrors hkey setup target hm.action
      exact ⟨_, done, h.pass hadds⟩
  | deliver receiver =>
      cases receiver with
      | central => exact ⟨_, done, h.deliver_central hpaired setup⟩
      | peripheral => exact h.deliver_peripheral hpaired hm.handler

omit h hpaired in
/-- Enough deliveries to the server leave nothing under way to it. -/
theorem exists_deliveries_toServer (setup : Setup) :
    ∃ n, (start.actAll (ms ++ List.replicate n ⟨setup, .deliver .peripheral⟩)).loopback.toServer =
      [] := by
  generalize hrest : (start.actAll ms).loopback.toServer = fragments
  induction fragments generalizing ms with
  | nil => exact ⟨0, by rw [List.replicate_zero, List.append_nil, hrest]⟩
  | cons fragment rest ih =>
      have hnext : (start.actAll (ms ++ [⟨setup, .deliver .peripheral⟩])).loopback.toServer =
          rest := by
        rw [actAll_concat, Delivered.andThen, act, deliver_peripheral setup hrest]
      obtain ⟨n, hn⟩ := ih hnext
      refine ⟨n + 1, ?_⟩
      rw [List.replicate_succ, List.append_cons]
      exact hn

/-- Enough deliveries to the client leave nothing under way to it, and it answers none of them. -/
theorem Progress.exists_deliveries_toClient (setup : Setup) :
    ∃ n, let after := start.actAll (ms ++ List.replicate n ⟨setup, .deliver .central⟩)
      after.loopback.toClient = [] ∧
        after.loopback.toServer = (start.actAll ms).loopback.toServer := by
  generalize hrest : (start.actAll ms).loopback.toClient = fragments
  induction fragments generalizing ms moves with
  | nil => exact ⟨0, by rw [List.replicate_zero, List.append_nil]; exact ⟨hrest, rfl⟩⟩
  | cons fragment rest ih =>
      have hnext : (start.actAll (ms ++ [⟨setup, .deliver .central⟩])).loopback.toClient =
          rest := by
        rw [actAll_concat, Delivered.andThen, act, Loopback.deliver_central setup hrest]
      have h' := h.deliver_central hpaired setup
      have hsame : (start.actAll (ms ++ [⟨setup, .deliver .central⟩])).loopback.toServer =
          (start.actAll ms).loopback.toServer := by
        have hinbox : ((Duplex.between ends).run moves).inbox .central = fragment :: rest :=
          (h.advances.mirrors.inbox .central).symm.trans hrest
        refine (h'.advances.mirrors.inbox .peripheral).trans ?_
        rw [Duplex.run_concat]
        exact (Duplex.step_deliver _ .central hinbox).2.2.2.1.trans
          (h.advances.mirrors.inbox .peripheral).symm
      obtain ⟨n, hclient, hserver⟩ := ih h' hnext
      refine ⟨n + 1, ?_⟩
      rw [List.replicate_succ, List.append_cons]
      exact ⟨hclient, hserver.trans hsame⟩

end Progress

section Runs

variable {model : Model} {start : Loopback} {ends : Role → Channel} {key : Key}
  (hclient : start.client.Talks model (ends .central))
  (hserver : start.server.Serves start.session (ends .peripheral))
  (hpaired : Duplex.Paired ends key) (hquiet : start.isQuiet = true) {ms : List Moment}
  (hms : ∀ m ∈ ms, m.Admissible model)

include hclient hserver hpaired hquiet hms

/-- Every admissible run goes on. -/
theorem progress_actAll : ∃ moves done, Progress model start ends ms moves done := by
  induction ms using List.reverseRecOn with
  | nil => exact ⟨[], [], .start hclient hserver hquiet⟩
  | append_singleton ms m ih =>
      obtain ⟨moves, done, h⟩ := ih fun m hm => hms m (List.mem_append_left _ hm)
      exact h.next hpaired (hms m (List.mem_append_right _ List.mem_cons_self))

/-- Every admissible run can be brought to its end by deliveries. -/
theorem exists_deliveries_isQuiet {setup : Setup} (hhandler : setup.handler.isSome = true) :
    ∃ toServer toClient,
      (start.actAll (ms ++ deliveries setup toServer toClient)).loopback.isQuiet = true := by
  obtain ⟨toServer, hserved⟩ := @exists_deliveries_toServer start ms setup
  have hmore : ∀ m ∈ ms ++ deliveries setup toServer 0, m.Admissible model :=
    List.forall_mem_append.mpr ⟨hms, admissible_deliveries model hhandler toServer 0⟩
  rw [deliveries, List.replicate_zero, List.append_nil] at hmore
  obtain ⟨moves, done, h⟩ := progress_actAll hclient hserver hpaired hquiet hmore
  obtain ⟨toClient, hheard, hsame⟩ := h.exists_deliveries_toClient hpaired setup
  refine ⟨toServer, toClient, ?_⟩
  rw [deliveries, ← List.append_assoc]
  exact Bool.and_eq_true_iff.mpr
    ⟨List.isEmpty_iff.mpr (hsame.trans hserved), List.isEmpty_iff.mpr hheard⟩

end Runs

/-- **Every command arrives exactly once and unaltered.**  A client of the third generation that is
active, and a server whose session runs, over paired ends of a link with nothing under way.  The
client is asked for commands, with any tags and triggers, the server tells its status, to this
session, to others or to all, and the fragments of each direction are delivered in their order.
Whatever the order of all this:

* no side closes the link, and every call succeeds;
* the commands that have been carried out are the first ones of those that were called for, each one
  once, in the order of the calls, with its item, its tag and its trigger; when nothing is under way
  to the server, they are all of them;
* each of them has been answered once to the session, with the result of what carried it out, and
  apart from these answers the session has only been told statuses;
* the client is still active and the session still runs, and when both sides have read what is under
  way to them, the ends are paired again. -/
theorem commands_actAll {model : Model} {start : Loopback} {ends : Role → Channel} {key : Key}
    (hclient : start.client.Talks model (ends .central))
    (hserver : start.server.Serves start.session (ends .peripheral))
    (hpaired : Duplex.Paired ends key) (hquiet : start.isQuiet = true) {ms : List Moment}
    (hms : ∀ m ∈ ms, m.Admissible model) :
    let after := start.actAll ms
    after.Open ∧
    (∀ (before later : List Moment) (setup : Setup) (request : Client.Request),
      ms = before ++ ⟨setup, .call request⟩ :: later →
        ((start.actAll before).loopback.askClient setup request).2.2 = .ok ()) ∧
    ∃ done : List Execution,
      done.map Execution.command <+: calls model ms ∧
      (after.loopback.toServer = [] → done.map Execution.command = calls model ms) ∧
      (done.map Execution.handler).Sublist (handlers ms) ∧
      commands after.serverOutputs = done.map (·.output start.session) ∧
      (∃ told : List Message,
        writtenTo start.session after.serverOutputs = (ends .peripheral).cipher.fragments told ∧
        (∀ m ∈ told, AtWork m.body) ∧
        told.filter isAnswer = done.map (·.answer start.session)) ∧
      ∃ ends' : Role → Channel,
        after.loopback.client.Talks model (ends' .central) ∧
        after.loopback.server.Serves start.session (ends' .peripheral) ∧
        Duplex.Paired
          (fun role => ((ends' role).receiveAll (after.loopback.inbox role)).1) key := by
  intro after
  obtain ⟨moves, done, h⟩ := progress_actAll hclient hserver hpaired hquiet hms
  have hinbox := h.advances.mirrors.inbox
  refine ⟨h.advances.opened, ?_, done, h.inOrder, ?_, h.carriers, h.carried, ?_,
    ((Duplex.between ends).run moves).channel, h.advances.mirrors.client,
    h.advances.mirrors.server, ?_⟩
  · rintro before later setup request rfl
    obtain ⟨hbefore, hlater⟩ := List.forall_mem_append.mp hms
    obtain ⟨moves, done, h⟩ := progress_actAll hclient hserver hpaired hquiet hbefore
    obtain ⟨command, hcommand⟩ :=
      Option.isSome_iff_exists.mp (hlater _ List.mem_cons_self).action
    exact (adds_call h.advances.mirrors (Duplex.key_between hpaired h.admissible) setup hcommand).1
  · intro hnone
    apply h.inOrder.eq_of_length
    have hcalled := congrArg List.length h.called
    rw [List.length_map, List.length_map] at hcalled
    rw [List.length_map, h.through, ← hcalled]
    exact Duplex.countP_of_inbox_eq_nil hpaired h.admissible .peripheral
      ((hinbox .peripheral).symm.trans hnone)
  · refine ⟨sentTo .central moves, ?_, h.atWork, h.answered⟩
    exact h.advances.written.symm.trans
      (Duplex.tracks_between hpaired h.admissible .central).queue.symm
  · rw [funext hinbox]
    exact Duplex.paired_run hpaired h.admissible

/-- Two ends that have just installed the key of zeros. -/
def workingLink : Duplex :=
  .keyed (Channel.new .os3) (Octets.zero 16)
    fun | .central => Octets.zero 4 | .peripheral => Octets.ofBytes 4 [1, 2, 3, 4]

/-- A client that is active and a server whose second session runs, over these ends. -/
def working : Loopback where
  client :=
    { random := RandomSource.ofSeed 3
      dialogue := some
        ⟨.sesame5, workingLink.channel .central, .os3 (some (Octets.zero 16)) true true⟩
      state := .active }
  server :=
    { station := { random := RandomSource.ofSeed 4 }
      slots := [
        some (Session.new 1 (Octets.zero 4)),
        some
          { id := 2
            channel := workingLink.channel .peripheral
            nonce := Octets.zero 4
            state := .running }] }
  session := 2

/-- Every command is carried out with success. -/
def carryOut : Setup := { handler := some fun _ _ _ _ => .success }

/-- A command with a tag that is too long and one with a trigger, and between them a status for
all. -/
def workingMoments : List Moment :=
  [⟨carryOut, .call (.unlock "0123456789012345678901234567890123456789")⟩,
    ⟨carryOut, .tell none [0, 0, 0, 0, 0, 0, 0]⟩,
    ⟨carryOut, .call (.lockWithTrigger .face (Octets.ofBytes 16 [0x01, 0xab]))⟩]

/-- Deliveries bring this to its end, and then both commands have been carried out. -/
theorem commands_actAll_working : ∃ toServer toClient,
    let after := working.actAll (workingMoments ++ deliveries carryOut toServer toClient)
    after.loopback.isQuiet = true ∧
      commands after.serverOutputs =
        [.command 2 .unlock "01234567890123456789012345678" none,
          .command 2 .lock "01ab0000000000000000000000000000" (some .face)] ∧
      after.loopback.client.state = .active ∧
      after.loopback.server.sessionState? 2 = some .running := by
  have hclient : working.client.Talks .sesame5 (workingLink.channel .central) :=
    ⟨rfl, ⟨_, rfl, rfl, rfl, rfl⟩, rfl⟩
  have hserver : working.server.Serves working.session (workingLink.channel .peripheral) :=
    ⟨by decide, _, rfl, rfl, rfl⟩
  have hpaired : Duplex.Paired workingLink.channel (Octets.zero 16) :=
    Duplex.paired_keyed _ _ fun _ => ⟨rfl, rfl⟩
  have hcarries : carryOut.handler.isSome = true := rfl
  have hstatus : 7 + 2 ≤ Ccm.maxLength := by decide
  have hmoments : ∀ m ∈ workingMoments, m.Admissible .sesame5 :=
    List.forall_mem_cons.mpr ⟨⟨rfl, rfl⟩,
      List.forall_mem_cons.mpr ⟨⟨rfl, hstatus⟩, List.forall_mem_singleton.mpr ⟨rfl, rfl⟩⟩⟩
  obtain ⟨toServer, toClient, hend⟩ : ∃ toServer toClient, (working.actAll
      (workingMoments ++ deliveries carryOut toServer toClient)).loopback.isQuiet = true :=
    exists_deliveries_isQuiet hclient hserver hpaired rfl hmoments hcarries
  obtain ⟨-, -, done, -, hdone, -, hcommands, -, ends, htalks, hserves, -⟩ :=
    commands_actAll hclient hserver hpaired rfl (List.forall_mem_append.mpr
      ⟨hmoments, admissible_deliveries .sesame5 hcarries toServer toClient⟩)
  have hcalls : calls .sesame5 workingMoments =
      [(.unlock, "01234567890123456789012345678", none),
        (.lock, "01ab0000000000000000000000000000", some .face)] := by
    decide +kernel
  have hall := hdone (isQuiet_iff.mp hend .peripheral)
  rw [calls_append_deliveries, hcalls] at hall
  obtain ⟨session, hsession, -, hrunning⟩ := hserves.session
  refine ⟨toServer, toClient, hend, ?_, htalks.active, ?_⟩
  · have houtputs : done.map (·.output working.session) =
        (done.map Execution.command).map fun c => .command 2 c.1 c.2.1 c.2.2 := by
      rw [List.map_map]
      rfl
    rw [hcommands, houtputs, hall]
    rfl
  · exact (congrArg (Option.map Session.state) hsession).trans (congrArg some hrunning)

end SmartLock.Loopback
