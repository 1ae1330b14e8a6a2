/-
# What makes a client believe something about its device

A client becomes active, takes a status or a setting in, or reports something about its device only
because of a message about that which a fragment completes (`believes_of_learns`).  The message has
come in plain, or encrypted with the right tag under the session key (`Client.Reads`).  The session
key in turn comes from the device's first message (`sessionKey?_of_step`).
-/
import Mathlib.Data.List.Induction
import SmartLock.Proofs.Client.Messages
import SmartLock.Proofs.Runs

namespace SmartLock.Client

/-! ## Fragments -/

/-- The fragment of this moment completes a message about an item for a client that is in this
conversation.  The message has been assembled in plain, or encrypted with the right tag under the
session key. -/
def Reads (c : Client) (m : Moment) (d : Dialogue) (op : OpCode) (item : ItemCode) : Prop :=
  ∃ fragment body, m.request = .receive fragment ∧ c.dialogue = some d ∧
    (d.channel.Assembles fragment .plain (op.code :: item.code :: body) ∨
      d.channel.Authenticates fragment (op.code :: item.code :: body))

/-- The client reads a message of a kind about which it matters. -/
def Believes (c : Client) (m : Moment) (about : Dialogue → OpCode → ItemCode → Bool) : Prop :=
  ∃ d op item, c.Reads m d op item ∧ about d op item = true

/-- With this moment the client becomes active, changes its status or its setting, or reports
something. -/
def Learns (c : Client) (m : Moment) : Prop :=
  let outcome := c.step m.host m.request
  (c.state ≠ .active ∧ outcome.client.state = .active) ∨ outcome.client.status ≠ c.status ∨
    outcome.client.setting ≠ c.setting ∨ reports outcome.outputs ≠ []

/-- A complete message has been read. -/
theorem Reads.of_complete {host : ClientHost} {c : Client} {d : Dialogue} {fragment body : Bytes}
    {op : OpCode} {item : ItemCode} {authenticated : Bool} (hd : c.dialogue = some d)
    (h : (d.channel.receive fragment).2 = .complete (op.code :: item.code :: body) authenticated) :
    c.Reads ⟨host, .receive fragment⟩ d op item := by
  refine ⟨fragment, body, rfl, hd, ?_⟩
  rcases Channel.snd_receive_eq_complete_iff.mp h with ⟨-, hplain⟩ | ⟨-, hauthentic⟩
  · exact .inl hplain
  · exact .inr hauthentic

/-- Without a conversation a fragment does nothing. -/
theorem receive_of_dialogue_eq_none (host : ClientHost) {c : Client} (hd : c.dialogue = none)
    (fragment : Bytes) : receive host c fragment = { client := c } := by
  rw [receive, hd]

/-- The client in the middle of a fragment: the channel has taken it in. -/
def heard (c : Client) (d : Dialogue) (fragment : Bytes) : ClientTurn :=
  { client := c.withDialogue { d with channel := (d.channel.receive fragment).1 } }

/-- What a fragment leads to: a complete message is dealt with, a forged one ends the connection,
and nothing else is done. -/
theorem receive_cases (host : ClientHost) {c : Client} {d : Dialogue} (hd : c.dialogue = some d)
    (fragment : Bytes) :
    (∃ message authenticated, (d.channel.receive fragment).2 = .complete message authenticated ∧
      receive host c fragment = onMessage host (heard c d fragment)
        { d with channel := (d.channel.receive fragment).1 } message) ∨
    receive host c fragment = (heard c d fragment).disconnect host ∨
    receive host c fragment = heard c d fragment := by
  rw [receive, hd, heard]
  dsimp only
  rcases d.channel.receive fragment with ⟨channel, received⟩
  cases received with
  | complete message authenticated => exact .inl ⟨message, authenticated, rfl, rfl⟩
  | skipping forged =>
      cases forged with
      | true => exact .inr (.inl rfl)
      | false => exact .inr (.inr rfl)
  | dropped => exact .inr (.inr rfl)
  | requireMore => exact .inr (.inr rfl)

/-- A fragment is calm unless it completes a message from which something can be learnt. -/
theorem calm_receive {host : ClientHost} {c : Client} {fragment : Bytes}
    (h : ¬ c.Believes ⟨host, .receive fragment⟩ Dialogue.informs) :
    ({ client := c } : ClientTurn).Calm (receive host c fragment) := by
  cases hd : c.dialogue with
  | none =>
      rw [receive_of_dialogue_eq_none host hd]
      exact .refl _
  | some d =>
      have hheard : ({ client := c } : ClientTurn).Calm (heard c d fragment) := ⟨id, rfl, rfl, rfl⟩
      rcases receive_cases host hd fragment with
        ⟨message, authenticated, hreceived, heq⟩ | heq | heq
      · rw [heq]
        apply hheard.trans (calm_onMessage ..)
        rintro op item body rfl
        by_contra hinforms
        exact h ⟨d, op, item, .of_complete hd hreceived, eq_true_of_ne_false hinforms⟩
      · rw [heq]
        exact hheard.trans (ClientTurn.calm_disconnect ..)
      · rw [heq]
        exact hheard

/-- A fragment makes a client active only if it completes a message that activates. -/
theorem active_of_receive {host : ClientHost} {c : Client} {fragment : Bytes}
    (h : ¬ c.Believes ⟨host, .receive fragment⟩ Dialogue.activates)
    (hactive : (receive host c fragment).client.state = .active) : c.state = .active := by
  cases hd : c.dialogue with
  | none => rwa [receive_of_dialogue_eq_none host hd] at hactive
  | some d =>
      rcases receive_cases host hd fragment with
        ⟨message, authenticated, hreceived, heq⟩ | heq | heq
      · rw [heq] at hactive
        refine active_of_onMessage host (heard c d fragment) _ ?_ hactive
        rintro op item body rfl
        by_contra hactivates
        exact h ⟨d, op, item, .of_complete hd hreceived, eq_true_of_ne_false hactivates⟩
      · rw [heq] at hactive
        exact (ClientTurn.calm_disconnect host (heard c d fragment)).state hactive
      · rwa [heq] at hactive

/-- A fragment keeps the session key, or completes the device's first message. -/
theorem sessionKey?_of_receive {host : ClientHost} {c : Client} {fragment : Bytes} {key : Key}
    (h : (receive host c fragment).client.sessionKey? = some key) :
    c.sessionKey? = some key ∨ ∃ d, c.Reads ⟨host, .receive fragment⟩ d .publish .initial := by
  cases hd : c.dialogue with
  | none =>
      rw [receive_of_dialogue_eq_none host hd] at h
      exact .inl h
  | some d =>
      have hkey : c.sessionKey? = (d.channel.receive fragment).1.cipher.key := by
        rw [Channel.key_receive, sessionKey?, hd, Option.bind_some]
      rcases receive_cases host hd fragment with
        ⟨message, authenticated, hreceived, heq⟩ | heq | heq
      · rw [heq] at h
        rcases sessionKey?_of_onMessage host (heard c d fragment) _ rfl h with hsame | ⟨body, rfl⟩
        · exact .inl (hkey.trans hsame)
        · exact .inr ⟨d, .of_complete hd hreceived⟩
      · simp [heq] at h
      · rw [heq] at h
        exact .inl (hkey.trans h)

/-! ## Steps -/

/-- A client learns something only from a message about that. -/
theorem believes_of_learns {c : Client} {m : Moment} (hbegin : ∀ model, m.request ≠ .begin model)
    (h : c.Learns m) : c.Believes m Dialogue.informs := by
  by_contra hnot
  obtain ⟨hstate, hstatus, hsetting, hreports⟩ : let outcome := c.step m.host m.request
      (outcome.client.state = .active → c.state = .active) ∧ outcome.client.status = c.status ∧
        outcome.client.setting = c.setting ∧ reports outcome.outputs = [] := by
    by_cases hreceive : ∃ fragment, m.request = .receive fragment
    · obtain ⟨host, request⟩ := m
      obtain ⟨fragment, rfl⟩ := hreceive
      have hcalm := calm_receive hnot
      exact ⟨hcalm.state, hcalm.status, hcalm.setting, hcalm.reports⟩
    · have hcalm : CalmOutcome c (c.step m.host m.request) :=
        calm_step hbegin (not_exists.mp hreceive)
      exact ⟨hcalm.state, hcalm.status, hcalm.setting, hcalm.reports⟩
  rcases h with ⟨hinactive, hactive⟩ | h | h | h
  · exact hinactive (hstate hactive)
  · exact h hstatus
  · exact h hsetting
  · exact h hreports

/-- A client that begins is as it is, or new. -/
theorem begin_cases (host : ClientHost) (c : Client) (model : Model) :
    (c.step host (.begin model)).client = c ∨
      ((c.step host (.begin model)).client.state = .idle ∧
        (c.step host (.begin model)).client.sessionKey? = none) := by
  simp only [step, begin?]
  cases hd : Dialogue.ofModel? model with
  | none => exact .inl rfl
  | some d =>
      refine .inr ⟨rfl, ?_⟩
      unfold Dialogue.ofModel? at hd
      split at hd
      · rw [← Option.some.inj hd]
        rfl
      · rw [← Option.some.inj hd]
        rfl
      · cases hd

/-- A client is active after a step only if it has been before or believes a message that
activates. -/
theorem active_of_step {c : Client} {m : Moment}
    (h : (c.step m.host m.request).client.state = .active) :
    c.state = .active ∨ c.Believes m Dialogue.activates := by
  by_cases hnot : c.Believes m Dialogue.activates
  · exact .inr hnot
  left
  obtain ⟨host, request⟩ := m
  cases request with
  | receive fragment => exact active_of_receive hnot h
  | begin model =>
      rcases begin_cases host c model with heq | ⟨hidle, -⟩
      · rwa [heq] at h
      · rw [hidle] at h
        cases h
  | _ => exact (calm_step (by simp) (by simp)).state h

/-- A session key after a step has been there before, or the step reads the device's first
message. -/
theorem sessionKey?_of_step {c : Client} {m : Moment} {key : Key}
    (h : (c.step m.host m.request).client.sessionKey? = some key) :
    c.sessionKey? = some key ∨ ∃ d, c.Reads m d .publish .initial := by
  obtain ⟨host, request⟩ := m
  cases request with
  | receive fragment => exact sessionKey?_of_receive h
  | begin model =>
      rcases begin_cases host c model with heq | ⟨-, hnone⟩
      · exact .inl (heq ▸ h)
      · simp [hnone] at h
  | _ => exact .inl ((calm_step (by simp) (by simp)).key key h)

/-! ## Runs -/

/-- A run of one more request. -/
theorem run_concat (c : Client) (ms : List Moment) (m : Moment) :
    c.run (ms ++ [m]) =
      (((c.run ms).1.step m.host m.request).client,
        (c.run ms).2 ++ ((c.run ms).1.step m.host m.request).outputs) := by
  induction ms generalizing c with
  | nil => simp [run]
  | cons first rest ih => simp only [List.cons_append, run, ih, List.append_assoc]

/-- At some moment of a run of a client something happens. -/
abbrev Happens (c : Client) (ms : List Moment) (event : Client → Moment → Prop) : Prop :=
  SmartLock.Happens (fun ms => (c.run ms).1) ms event

/-- A client that is active at the end of a run has believed a message that activates. -/
theorem believes_of_active_run {random : RandomSource} {ms : List Moment}
    (h : ((Client.new random).run ms).1.state = .active) :
    (Client.new random).Happens ms fun c m => c.Believes m Dialogue.activates := by
  induction ms using List.reverseRecOn with
  | nil => cases h
  | append_singleton ms m ih =>
      rw [run_concat] at h
      rcases active_of_step h with hactive | hbelieves
      · exact (ih hactive).append [m]
      · exact happens_concat.mpr (.inr hbelieves)

/-- A link that takes every fragment, for a client to which nobody listens. -/
def quietHost : ClientHost where
  takes := fun _ _ => true
  observers := {}

/-- A device sends its token, accepts the login, and reports a setting and a status, all of it in
plain. -/
def plainRun : List Moment :=
  [⟨quietHost, .begin .sesame5⟩, ⟨quietHost, .setKeys none (Octets.zero 16)⟩,
    ⟨quietHost, .receive [3, 8, 14, 1, 2, 3, 4]⟩,
    ⟨quietHost, .receive [3, 7, 2, 0, 0, 0, 0, 0]⟩,
    ⟨quietHost, .receive [3, 8, 80, 0, 0, 0, 0, 0, 0]⟩,
    ⟨quietHost, .receive [3, 8, 81, 0, 0, 0, 0, 0, 0, 0]⟩]

end SmartLock.Client
