/-
# Schedules

The fragments between a client and a server are delivered to the one or the other side, in the order
that a schedule gives; each direction is a queue, and a delivery to a side for which nothing is
under way does nothing.

Where each delivery answers the last one, the order is not free: at every point one side has to be
served before anything else happens (`Leads`).  Every schedule then leads to the same goal, however
many idle deliveries it has, and it has reached it exactly if it contains the deliveries that were
due, in their order (`Leads.deliverAll`).
-/
import SmartLock.Loopback
import SmartLock.Proofs.Link.Lockstep

namespace SmartLock.Loopback

/-! ## Deliveries -/

/-- The fragments that are under way to a side. -/
def inbox (l : Loopback) : Role → List Bytes
  | .central => l.toClient
  | .peripheral => l.toServer

/-- A loopback after some deliveries, with all that has been put out on both sides. -/
structure Delivered where
  loopback : Loopback
  clientOutputs : List ClientOutput := []
  serverOutputs : List ServerOutput := []

/-- Neither side has closed the link. -/
structure Delivered.Open (d : Delivered) : Prop where
  client : .disconnect ∉ d.clientOutputs
  server : ∀ id, .disconnect id ∉ d.serverOutputs

/-- The next fragment to a side is delivered. -/
def deliver (setup : Setup) (l : Loopback) : Role → Delivered
  | .central =>
      let (l, outputs) := l.deliverToClient setup
      { loopback := l, clientOutputs := outputs }
  | .peripheral =>
      let (l, outputs) := l.deliverToServer setup
      { loopback := l, serverOutputs := outputs }

/-- Fragments are delivered by a schedule. -/
def deliverAll (setup : Setup) (l : Loopback) : List Role → Delivered
  | [] => { loopback := l }
  | role :: rest =>
      let first := l.deliver setup role
      let last := deliverAll setup first.loopback rest
      { loopback := last.loopback
        clientOutputs := first.clientOutputs ++ last.clientOutputs
        serverOutputs := first.serverOutputs ++ last.serverOutputs }

/-- Nothing is under way exactly if neither side waits for anything. -/
theorem isQuiet_iff {l : Loopback} : l.isQuiet = true ↔ ∀ role, l.inbox role = [] := by
  constructor
  · intro h role
    obtain ⟨hserver, hclient⟩ := Bool.and_eq_true_iff.mp h
    cases role with
    | central => exact List.isEmpty_iff.mp hclient
    | peripheral => exact List.isEmpty_iff.mp hserver
  · intro h
    exact Bool.and_eq_true_iff.mpr
      ⟨List.isEmpty_iff.mpr (h .peripheral), List.isEmpty_iff.mpr (h .central)⟩

section Deliveries

variable (setup : Setup) {l : Loopback}

/-- A delivery to a side that waits for nothing does nothing. -/
theorem deliver_of_inbox_eq_nil {role : Role} (h : l.inbox role = []) :
    l.deliver setup role = { loopback := l } := by
  cases role with
  | central => simp only [deliver, deliverToClient, show l.toClient = [] from h]
  | peripheral => simp only [deliver, deliverToServer, show l.toServer = [] from h]

/-- The next fragment to the client. -/
theorem deliver_central {fragment : Bytes} {rest : List Bytes} (h : l.toClient = fragment :: rest) :
    l.deliver setup .central =
      let t := l.client.receive (clientHost setup.observers) fragment
      { loopback := { l with
          client := t.client
          toClient := rest
          toServer := l.toServer ++ written t.outputs }
        clientOutputs := t.outputs } := by
  simp only [deliver, deliverToClient, h]
  rfl

/-- The next fragment to the server. -/
theorem deliver_peripheral {fragment : Bytes} {rest : List Bytes}
    (h : l.toServer = fragment :: rest) :
    l.deliver setup .peripheral =
      let o := l.server.step (serverHost setup.registers setup.handler)
        (.receive l.session fragment)
      { loopback := { l with
          server := o.server
          toServer := rest
          toClient := l.toClient ++ writtenTo l.session o.outputs }
        serverOutputs := o.outputs } := by
  simp only [deliver, deliverToServer, h]
  rfl

/-- When nothing has been put out, no link has been closed. -/
theorem Delivered.Open.refl (l : Loopback) : Delivered.Open { loopback := l } :=
  ⟨List.not_mem_nil, fun _ => List.not_mem_nil⟩

end Deliveries

/-! ## What is due -/

/-- Deliveries to these sides in this order lead to a goal, where nothing is under way any more.  At
each point there is nothing under way but to the side whose turn it is, and no link is closed. -/
inductive Leads (setup : Setup) (goal : Loopback → Prop) : List Role → Loopback → Prop
  | done {l : Loopback} (hquiet : l.isQuiet = true) (hgoal : goal l) : Leads setup goal [] l
  | next {l : Loopback} {role : Role} {rest : List Role} (hdue : l.inbox role ≠ [])
      (hother : l.inbox role.peer = []) (hopen : (l.deliver setup role).Open)
      (hrest : Leads setup goal rest (l.deliver setup role).loopback) :
      Leads setup goal (role :: rest) l

section Leads

variable {setup : Setup} {goal : Loopback → Prop}

/-- A side that is not the one whose turn it is waits for nothing. -/
theorem Leads.inbox_eq_nil {due : List Role} {l : Loopback} (h : Leads setup goal due l)
    {role : Role} (hrole : due.head? ≠ some role) : l.inbox role = [] := by
  cases h with
  | done hquiet => exact isQuiet_iff.mp hquiet role
  | @next _ first rest _ hother =>
      have hpeer : role = first.peer := by
        cases role <;> cases first <;> first | rfl | exact absurd rfl hrole
      rw [hpeer]
      exact hother

/-- As long as something is due, something is under way. -/
theorem Leads.isQuiet_iff {due : List Role} {l : Loopback} (h : Leads setup goal due l) :
    l.isQuiet = true ↔ due = [] := by
  cases h with
  | done hquiet => simp [hquiet]
  | next hdue => simpa using fun hquiet => hdue (Loopback.isQuiet_iff.mp hquiet _)

/-- **Every schedule leads to the goal.**  No delivery closes a link; nothing is under way any more
exactly if the schedule contains the deliveries that were due, in their order; and then the goal has
been reached. -/
theorem Leads.deliverAll {due : List Role} {l : Loopback} (h : Leads setup goal due l)
    (schedule : List Role) :
    let after := l.deliverAll setup schedule
    after.Open ∧ (after.loopback.isQuiet = true ↔ due.Sublist schedule) ∧
      (after.loopback.isQuiet = true → goal after.loopback) := by
  induction schedule generalizing due l with
  | nil =>
      refine ⟨.refl l, by rw [List.sublist_nil]; exact h.isQuiet_iff, fun hquiet => ?_⟩
      cases h with
      | done _ hgoal => exact hgoal
      | next hdue => exact absurd (Loopback.isQuiet_iff.mp hquiet _) hdue
  | cons role schedule ih =>
      by_cases hrole : due.head? = some role
      · -- It is the turn of this side.
        cases h with
        | done => cases hrole
        | next hdue hother hopen hrest =>
            obtain rfl := Option.some.inj hrole
            obtain ⟨hlater, hquiet, hgoal⟩ := ih hrest
            refine ⟨⟨?_, fun id => ?_⟩, hquiet.trans (by simp), hgoal⟩
            · simpa [Loopback.deliverAll] using ⟨hopen.client, hlater.client⟩
            · simpa [Loopback.deliverAll] using ⟨hopen.server id, hlater.server id⟩
      · have hidle : l.deliver setup role = { loopback := l } :=
          deliver_of_inbox_eq_nil setup (h.inbox_eq_nil hrole)
        have hsublist : due.Sublist (role :: schedule) ↔ due.Sublist schedule := by
          rw [List.sublist_cons_iff, or_iff_left]
          rintro ⟨rest, rfl, -⟩
          exact hrole rfl
        simp only [Loopback.deliverAll, hidle, List.nil_append]
        rw [hsublist]
        exact ih h

end Leads

end SmartLock.Loopback
