/-
# What an operation makes of a client

An operation is calm if the client does not become active, keeps its status and its setting, and
tells nobody anything about the device (`ClientTurn.Calm`).  Closing the link, sending and the start
of a login are calm; `calm_apply` gives the events of the device's messages that are.

The session key of a client comes from the device's first message and from nothing else
(`Client.sessionKey?_of_onMessage`).
-/
import SmartLock.Proofs.Link.Reception
import SmartLock.Client.Commands

namespace SmartLock

/-! ## Reports -/

/-- Whether an output tells something about the device: that it has accepted the login, a status, a
history or a list of devices. -/
def ClientOutput.isReport : ClientOutput → Bool
  | .state .active | .status _ | .history _ | .devices _ => true
  | _ => false

/-- The reports among some outputs. -/
def reports (outputs : List ClientOutput) : List ClientOutput :=
  outputs.filter ClientOutput.isReport

@[simp] theorem reports_append (first second : List ClientOutput) :
    reports (first ++ second) = reports first ++ reports second := List.filter_append ..

/-- The writes of an offer are no reports. -/
@[simp] theorem reports_writes (offer : Fragment.Offer) :
    reports (ClientTurn.writes offer) = [] := by
  rw [reports, List.filter_eq_nil_iff]
  intro output hmem
  rw [ClientTurn.writes, List.mem_append, List.mem_map, List.mem_map] at hmem
  rcases hmem with ⟨fragment, -, rfl⟩ | ⟨fragment, -, rfl⟩ <;> simp [ClientOutput.isReport]

/-- The session key of a client, if it has one. -/
def Client.sessionKey? (c : Client) : Option Key := c.dialogue.bind (·.channel.cipher.key)

/-- Whether an event makes nothing known about the device. -/
def Event.isCalm : Event → Bool
  | .disconnect => true
  | .state new => new ≠ .active
  | _ => false

namespace ClientTurn

/-! ## Calm turns -/

/-- From the one turn to the other the client does not become active, keeps its status and its
setting, and reports nothing. -/
structure Calm (t t' : ClientTurn) : Prop where
  state : t'.client.state = .active → t.client.state = .active
  status : t'.client.status = t.client.status
  setting : t'.client.setting = t.client.setting
  reports : reports t'.outputs = reports t.outputs

theorem Calm.refl (t : ClientTurn) : t.Calm t := ⟨id, rfl, rfl, rfl⟩

theorem Calm.trans {t t' t'' : ClientTurn} (h : t.Calm t') (h' : t'.Calm t'') : t.Calm t'' :=
  ⟨fun hactive => h.state (h'.state hactive), h'.status.trans h.status,
    h'.setting.trans h.setting, h'.reports.trans h.reports⟩

variable (host : ClientHost) (t : ClientTurn)

/-- An output that is no report is calm. -/
theorem calm_emit {output : ClientOutput} (h : output.isReport = false) :
    t.Calm (t.emit output) := by
  refine ⟨id, rfl, rfl, ?_⟩
  simp [emit, SmartLock.reports, h]

/-- The conversation may change without anything becoming known. -/
theorem calm_withDialogue (d : Dialogue) :
    t.Calm { t with client := t.client.withDialogue d } := ⟨id, rfl, rfl, rfl⟩

@[simp] theorem client_emitIf (observed : Bool) (output : ClientOutput) :
    (t.emitIf observed output).client = t.client := by
  unfold emitIf
  split <;> rfl

/-- A client in another state is the same client otherwise. -/
theorem client_setState (state : ClientState) :
    (t.setState host state).client = { t.client with state := state } := by
  unfold setState
  split
  · rename_i h
    rw [← h]
  · rw [client_emitIf]

/-- Falling back or waiting for a login is calm. -/
theorem calm_setState {state : ClientState} (h : state ≠ .active) :
    t.Calm (t.setState host state) := by
  unfold setState
  split
  · exact .refl t
  · have hstate : t.Calm { t with client := { t.client with state := state } } :=
      ⟨fun hactive => absurd hactive h, rfl, rfl, rfl⟩
    unfold emitIf
    split
    · refine hstate.trans (calm_emit _ ?_)
      cases state with
      | active => exact absurd rfl h
      | idle => rfl
      | authenticating => rfl
    · exact hstate

/-- Closing the link is calm. -/
theorem calm_disconnect : t.Calm (t.disconnect host) := by
  have hreset : (t.emit .disconnect).Calm (t.emit .disconnect).reset := ⟨id, rfl, rfl, rfl⟩
  exact ((calm_emit t rfl).trans hreset).trans (calm_setState host _ (by decide))

/-- Calm events make a calm turn. -/
theorem calm_apply {events : List Event} (h : ∀ event ∈ events, event.isCalm = true) :
    t.Calm (t.apply host events) := by
  induction events generalizing t with
  | nil => exact .refl t
  | cons event rest ih =>
      have hevent := h event List.mem_cons_self
      have hrest := fun t => ih t (fun e he => h e (List.mem_cons_of_mem _ he))
      cases event with
      | disconnect => exact calm_disconnect host t
      | state new =>
          have hnew : new ≠ .active := by simpa [Event.isCalm] using hevent
          exact (calm_setState host t hnew).trans (hrest _)
      | setting setting => cases hevent
      | status status => cases hevent
      | history history => cases hevent

/-- Only the event that says so makes a client active. -/
theorem active_of_apply {events : List Event} (h : .state .active ∉ events)
    (hactive : (t.apply host events).client.state = .active) : t.client.state = .active := by
  induction events generalizing t with
  | nil => exact hactive
  | cons event rest ih =>
      have hrest : .state .active ∉ rest := fun hmem => h (List.mem_cons_of_mem _ hmem)
      cases event with
      | disconnect => exact (calm_disconnect host t).state hactive
      | state new =>
          have hnew : new ≠ .active := by
            rintro rfl
            exact h List.mem_cons_self
          exact (calm_setState host t hnew).state (ih _ hrest hactive)
      | setting setting =>
          exact ih { t with client := { t.client with setting := some setting } } hrest hactive
      | status status =>
          have hemit := ih _ hrest hactive
          rwa [client_emitIf] at hemit
      | history history =>
          have hemit := ih _ hrest hactive
          rwa [client_emitIf] at hemit

/-! ## Session keys -/

@[simp] theorem sessionKey?_setState (state : ClientState) :
    (t.setState host state).client.sessionKey? = t.client.sessionKey? := by
  rw [client_setState]
  rfl

/-- A link that has been reset has no session key. -/
@[simp] theorem sessionKey?_reset : t.reset.client.sessionKey? = none := by
  cases hd : t.client.dialogue <;>
    simp [reset, Client.sessionKey?, hd, Dialogue.reset, Channel.reset, Cipher.reset]

/-- A closed link has no session key. -/
@[simp] theorem sessionKey?_disconnect : (t.disconnect host).client.sessionKey? = none := by
  rw [disconnect, sessionKey?_setState, sessionKey?_reset]

/-- Events bring no session key. -/
theorem sessionKey?_of_apply {events : List Event} {key : Key}
    (h : (t.apply host events).client.sessionKey? = some key) :
    t.client.sessionKey? = some key := by
  induction events generalizing t with
  | nil => exact h
  | cons event rest ih =>
      cases event with
      | disconnect => simp [apply] at h
      | state new => simpa using ih _ h
      | setting setting =>
          exact ih { t with client := { t.client with setting := some setting } } h
      | status status =>
          have hemit := ih _ h
          rwa [client_emitIf] at hemit
      | history history =>
          have hemit := ih _ h
          rwa [client_emitIf] at hemit

end ClientTurn

end SmartLock
