/-
# What a client writes

A client writes for two reasons only (`Client.Writes`): it answers the device's first message with
its login, in plain, or it sends a command, encrypted under the session key and its nonce for sending
(`Client.encryption?`).  What it writes at one moment is nothing, or what the link is offered of one
such message (`Client.writes_step`).

A command is either refused, which leaves the client as it is, or one encrypted message
(`Client.CommandCase`).  It is refused unless the client is active and the model has the command;
without a session key, what is not refused fails.
-/
import SmartLock.Proofs.Client.Openings
import SmartLock.Proofs.Link.Written

namespace SmartLock

/-- Whether an output is a fragment that is offered to the link. -/
def ClientOutput.isWrite : ClientOutput → Bool
  | .write .. => true
  | _ => false

namespace Client

/-! ## Writes -/

/-- The fragments that are offered to the link. -/
def writes (outputs : List ClientOutput) : List ClientOutput := outputs.filter ClientOutput.isWrite

@[simp] theorem writes_append (first second : List ClientOutput) :
    writes (first ++ second) = writes first ++ writes second := List.filter_append ..

/-- An offer is made of writes. -/
@[simp] theorem writes_writes (offer : Fragment.Offer) :
    writes (ClientTurn.writes offer) = ClientTurn.writes offer := by
  rw [writes, List.filter_eq_self]
  intro output hmem
  rw [ClientTurn.writes, List.mem_append, List.mem_map, List.mem_map] at hmem
  rcases hmem with ⟨fragment, -, rfl⟩ | ⟨fragment, -, rfl⟩ <;> rfl

/-- Every fragment that is written has been taken or refused. -/
theorem mem_of_mem_writes {offer : Fragment.Offer} {fragment : Bytes} {taken : Bool}
    (h : .write fragment taken ∈ ClientTurn.writes offer) :
    fragment ∈ offer.taken ∨ offer.refused = some fragment := by
  rw [ClientTurn.writes, List.mem_append, List.mem_map, List.mem_map] at h
  rcases h with ⟨found, hfound, heq⟩ | ⟨found, hfound, heq⟩
  · cases heq
    exact .inl hfound
  · cases heq
    exact .inr (Option.mem_toList.mp hfound)

section Turns

variable (host : ClientHost) (t : ClientTurn)

/-- What is told somebody is not written. -/
theorem writes_emitIf {output : ClientOutput} (h : output.isWrite = false) (observed : Bool) :
    writes (t.emitIf observed output).outputs = writes t.outputs := by
  rw [ClientTurn.outputs_emitIf, writes_append]
  cases observed <;> simp [writes, h]

/-- Nothing is written when the state changes. -/
@[simp] theorem writes_setState (state : ClientState) :
    writes (t.setState host state).outputs = writes t.outputs := by
  unfold ClientTurn.setState
  split
  · rfl
  · exact writes_emitIf _ rfl _

/-- Nothing is written when the link is closed. -/
@[simp] theorem writes_disconnect : writes (t.disconnect host).outputs = writes t.outputs := by
  rw [ClientTurn.disconnect, writes_setState]
  simp [ClientTurn.emit, ClientTurn.reset, writes, ClientOutput.isWrite]

/-- No event makes a client write. -/
@[simp] theorem writes_apply (events : List Event) :
    writes (t.apply host events).outputs = writes t.outputs := by
  induction events generalizing t with
  | nil => rfl
  | cons event rest ih =>
      cases event with
      | disconnect => exact writes_disconnect host t
      | state state => exact (ih _).trans (writes_setState host t state)
      | setting setting => exact ih _
      | status status => exact (ih _).trans (writes_emitIf _ rfl _)
      | history history => exact (ih _).trans (writes_emitIf _ rfl _)

/-! ## Messages of the device -/

variable (d : Dialogue) (body : Bytes)

/-- A client writes nothing when it hears a response. -/
theorem writes_onResponse (item : ItemCode) :
    writes (onResponse host t d item body).outputs = writes t.outputs := by
  unfold onResponse
  split
  · exact writes_apply ..
  · exact writes_apply ..
  · split
    · exact writes_apply ..
    · rfl
  · rfl

/-- Nor when it hears a publication, but for the device's first message. -/
theorem writes_onPublish_of_ne {item : ItemCode} (h : item ≠ .initial) :
    writes (onPublish host t d item body).outputs = writes t.outputs := by
  unfold onPublish
  split
  · exact writes_emitIf _ rfl _
  · exact absurd rfl h
  · exact writes_apply ..
  · exact writes_apply ..
  · rfl

/-- The device's first message makes a client write its login, unless it has written one already. -/
theorem writes_onPublish_initial :
    writes (onPublish host t d .initial body).outputs = writes t.outputs ++
      if t.client.state = .authenticating then []
      else ClientTurn.writes (d.onInitial (t.writer host) t.client.random body).offer := by
  unfold onPublish
  dsimp only
  split
  · rw [List.append_nil]
  · rw [writes_apply, writes_append, writes_writes]

end Turns

/-- The link as a writer, when nothing has been put out yet. -/
def linkWriter (host : ClientHost) : Fragment.Writer := fun taken fragment =>
  host.takes (taken.reverse.map (.write · true)) fragment

/-- Everything that a client may write at one moment. -/
inductive Writes (c : Client) (m : Moment) : List ClientOutput → Prop
  | nothing (hencryption : c.encryption? m = none) : Writes c m []
  /-- The login in plain, in answer to the device's first message. -/
  | login (d : Dialogue) (body message : Bytes) (hencryption : c.encryption? m = none)
      (hhears : c.Hears m d .publish .initial body) (hstate : c.state ≠ .authenticating)
      (hmessage : d.loginMessage? c.random body = some message) :
      Writes c m
        (ClientTurn.writes (Fragment.offer (linkWriter m.host) (Fragment.split false message)))
  /-- A command: the packet that AES-CCM makes of it under the session key and its nonce. -/
  | command (x : Sealing) (hencryption : c.encryption? m = some x) :
      Writes c m (ClientTurn.writes (Fragment.offerSealed (linkWriter m.host)
        (Ccm.encrypt? x.key x.nonce Cipher.associated x.message)))

/-- What is no command encrypts nothing. -/
theorem encryption?_of_not_isCommand (c : Client) {m : Moment} (h : m.request.isCommand = false) :
    c.encryption? m = none := by
  rw [Option.eq_none_iff_forall_ne_some]
  intro x hx
  obtain ⟨d, -, hsupported, -⟩ := of_encryption? hx
  rw [Request.isCommand_of_isSupported hsupported] at h
  cases h

/-- What a client writes when it hears the device's first message. -/
theorem writes_hears_initial {host : ClientHost} {c : Client} {d : Dialogue} {fragment body : Bytes}
    (hhears : c.Hears ⟨host, .receive fragment⟩ d .publish .initial body) :
    c.Writes ⟨host, .receive fragment⟩
      (writes (onPublish host (heard c d fragment) (d.hearing fragment) .initial body).outputs) := by
  rw [writes_onPublish_initial, Dialogue.offer_onInitial]
  by_cases hstate : c.state = .authenticating
  · rw [if_pos (show (heard c d fragment).client.state = .authenticating from hstate)]
    exact .nothing (c.encryption?_of_not_isCommand rfl)
  · rw [if_neg (show ¬ (heard c d fragment).client.state = .authenticating from hstate)]
    cases hmessage : (d.hearing fragment).loginMessage? (heard c d fragment).client.random body with
    | none => exact .nothing (c.encryption?_of_not_isCommand rfl)
    | some message =>
        exact .login d body message (c.encryption?_of_not_isCommand rfl) hhears hstate hmessage

/-- What a client writes when a fragment comes. -/
theorem writes_receive (host : ClientHost) (c : Client) (fragment : Bytes) :
    c.Writes ⟨host, .receive fragment⟩ (writes (receive host c fragment).outputs) := by
  have hnothing : c.Writes ⟨host, .receive fragment⟩ [] :=
    .nothing (c.encryption?_of_not_isCommand rfl)
  cases hd : c.dialogue with
  | none =>
      rw [receive_of_dialogue_eq_none host hd]
      exact hnothing
  | some d =>
      rcases receive_cases host hd fragment with
        ⟨message, authenticated, hreceived, heq⟩ | heq | heq
      · rw [receive_of_complete host hd hreceived]
        rcases onMessage_cases host (heard c d fragment) (d.hearing fragment) message with
          ⟨item, body, rfl, heq⟩ | ⟨item, body, rfl, heq⟩ | heq
        · rw [heq]
          by_cases hitem : item = .initial
          · rw [hitem]
            exact writes_hears_initial ⟨fragment, authenticated, rfl, hd, hitem ▸ hreceived⟩
          · rw [writes_onPublish_of_ne host _ _ body hitem]
            exact hnothing
        · rw [heq, writes_onResponse]
          exact hnothing
        · rw [heq]
          exact hnothing
      · rw [heq, writes_disconnect]
        exact hnothing
      · rw [heq]
        exact hnothing

/-! ## Commands -/

section Commands

variable (host : ClientHost) {c : Client}

/-- A command that is sent is not refused any more. -/
theorem result_sendCommand_ne (d : Dialogue) (op : OpCode) (item : ItemCode) (body : Bytes)
    {error : ClientError} (h : error.isRefusal = true) :
    (sendCommand host c d op item body).result ≠ .error error := by
  unfold sendCommand
  dsimp only
  cases (d.send (({ client := c } : ClientTurn).writer host) op item body true).result with
  | ok => nofun
  | error cause =>
      rintro heq
      obtain rfl : .dialogue cause = error := Except.error.inj heq
      cases h

/-- Without a session key a command is not sent, and nothing changes. -/
theorem sendCommand_of_key_eq_none {d : Dialogue} (hactive : c.activeDialogue = .ok d)
    (hkey : d.channel.cipher.key = none) (op : OpCode) (item : ItemCode) (body : Bytes) :
    sendCommand host c d op item body =
      c.refuse (.dialogue (.link (.crypto .keyNotPrepared))) := by
  rw [sendCommand, Dialogue.send, Channel.send_of_key_eq_none hkey]
  obtain ⟨random, dialogue, state, setting, status⟩ := c
  obtain rfl : dialogue = some d := dialogue_of_activeDialogue hactive
  rfl

end Commands

/-! ## Steps -/

/-- A command that is encrypted is written as its packet. -/
theorem outputs_of_encryption {c : Client} {m : Moment} {x : Sealing}
    (h : c.encryption? m = some x) :
    (c.step m.host m.request).outputs = ClientTurn.writes (Fragment.offerSealed (linkWriter m.host)
      (Ccm.encrypt? x.key x.nonce Cipher.associated x.message)) := by
  obtain ⟨d, hactive, hsupported, hkey, heq⟩ := of_encryption? h
  obtain ⟨op, item, body, hbody, hstep⟩ := step_of_isSupported hactive hsupported
  rw [hstep, sendCommand, Dialogue.send, heq, hbody]
  exact congrArg ClientTurn.writes (Channel.offer_send_encrypted hkey _ _)

/-- What a command writes. -/
theorem writes_of_isCommand (c : Client) {m : Moment} (hcommand : m.request.isCommand = true) :
    c.Writes m (writes (c.step m.host m.request).outputs) := by
  cases hencryption : c.encryption? m with
  | some x =>
      rw [outputs_of_encryption hencryption, writes_writes]
      exact .command x hencryption
  | none =>
      generalize hstep : c.step m.host m.request = outcome
      cases hstep ▸ commandCase_step m.host hcommand with
      | refused error => exact .nothing hencryption
      | sent d op item body hactive hsupported =>
          -- What is supported and not encrypted lacks the key.
          cases hkey : d.channel.cipher.key with
          | some key =>
              cases hencryption.symm.trans (encryption?_of_isSupported hactive hsupported hkey)
          | none =>
              rw [sendCommand_of_key_eq_none m.host hactive hkey]
              exact .nothing hencryption

/-- Setting keys writes nothing. -/
theorem outputs_silent (c : Client) (changed : Except ClientError Client) :
    (c.silent changed).outputs = [] := by
  cases changed <;> rfl

/-- **What a client writes.**  Whatever a client is asked to do, it writes nothing, its login or a
command. -/
theorem writes_step (c : Client) (m : Moment) :
    c.Writes m (writes (c.step m.host m.request).outputs) := by
  by_cases hcommand : m.request.isCommand = true
  · exact writes_of_isCommand c hcommand
  have hnothing : c.Writes m [] :=
    .nothing (c.encryption?_of_not_isCommand (eq_false_of_ne_true hcommand))
  obtain ⟨host, request⟩ := m
  cases request with
  | receive fragment => exact writes_receive host c fragment
  | begin model =>
      rw [step, outputs_silent]
      exact hnothing
  | setKeys publicKey secret =>
      rw [step, outputs_silent]
      exact hnothing
  | setKeysHex publicKey secret =>
      rw [step, outputs_silent]
      exact hnothing
  | disconnect =>
      rw [step, ClientTurn.finish, writes_disconnect]
      exact hnothing
  | disconnected =>
      rw [step, ClientTurn.finish, disconnected, writes_setState]
      exact hnothing
  | _ => exact absurd rfl hcommand

end Client

end SmartLock
