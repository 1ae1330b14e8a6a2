/-
# Messages of any number of fragments

What becomes of a message when its fragments are all taken and come one after the other.  In plain
it is read by every end, whatever that has been through (`Channel.receiveAll_plain`).  Encrypted it
is read by the other one of two paired ends (`Duplex.Paired.receiveAll_sent`,
`Duplex.Paired.delivers`).  Only the last fragment completes the message; what comes before is of no
note (`Channel.receiveAll_eq_concat`).
-/
import SmartLock.Proofs.Link.Deliveries

namespace SmartLock

namespace Channel

/-! ## In plain -/

/-- A message in plain is read in every state, and changes nothing but that it stays in the buffer
and what follows is skipped up to the next packet. -/
theorem receiveAll_plain (c : Channel) {message : Bytes} (hne : message ≠ [])
    (h : message.length ≤ maxReceived) :
    ∃ quiet : List Received, (∀ r ∈ quiet, r.IsQuiet) ∧
      c.receiveAll (Fragment.split false message) =
        ({ c with reassembly := .skipping message }, quiet ++ [.complete message false]) := by
  obtain ⟨quiet, hquiet, heq⟩ := receiveAll_split c false hne
  rw [Reassembly.ofPacket_of_le h] at heq
  exact ⟨quiet, hquiet, heq⟩

/-- A packet in plain of any length changes nothing but the buffer either, and leads to nothing of
note unless it is read. -/
theorem receiveAll_split_plain (c : Channel) {packet : Bytes} (hne : packet ≠ []) :
    (c.receiveAll (Fragment.split false packet)).1 =
        { c with reassembly := .skipping (Reassembly.ofPacket packet).buffer } ∧
      ∀ r ∈ (c.receiveAll (Fragment.split false packet)).2,
        r.IsQuiet ∨ r = .complete packet false := by
  by_cases h : packet.length ≤ maxReceived
  · obtain ⟨quiet, hquiet, heq⟩ := c.receiveAll_plain hne h
    rw [heq, Reassembly.ofPacket_of_le h]
    exact ⟨rfl, by simpa [or_imp, forall_and] using fun r hr => .inl (hquiet r hr)⟩
  · obtain ⟨quiet, hquiet, heq⟩ := c.receiveAll_split false hne
    obtain ⟨kept, hkept⟩ := Reassembly.exists_ofPacket_eq_skipping (Nat.not_le.mp h)
    rw [heq, hkept]
    refine ⟨rfl, fun r hr => .inl ?_⟩
    rcases List.mem_append.mp hr with hr | hr
    · exact hquiet r hr
    · rw [List.mem_singleton.mp hr]
      exact ⟨nofun, nofun⟩

/-- The last of several fragments comes after all others. -/
theorem receiveAll_eq_concat {c after : Channel} {fragments : List Bytes} {before : List Received}
    {last : Received} (h : c.receiveAll fragments = (after, before ++ [last])) :
    ∃ first fragment, fragments = first ++ [fragment] ∧ (c.receiveAll first).2 = before ∧
      (c.receiveAll first).1.receive fragment = (after, last) := by
  rcases List.eq_nil_or_concat fragments with rfl | ⟨first, fragment, rfl⟩
  · have hnil := (Prod.mk.inj h).2
    exact absurd hnil.symm (by simp)
  · rw [List.concat_eq_append, receiveAll_append] at h
    obtain ⟨hafter, hreceived⟩ := Prod.mk.inj h
    obtain ⟨hbefore, hlast⟩ := List.append_inj' hreceived rfl
    exact ⟨first, fragment, List.concat_eq_append, hbefore,
      Prod.ext hafter (List.singleton_inj.mp hlast)⟩

/-! ## Encrypted -/

/-- Two ends that hold the same key, each of which receives under the nonce that the other one sends
under. -/
structure InStep (key : Key) (a b : Channel) : Prop where
  ownKey : a.cipher.key = some key
  peerKey : b.cipher.key = some key
  sending : a.cipher.sendNonce = b.cipher.receiveNonce
  receiving : a.cipher.receiveNonce = b.cipher.sendNonce

end Channel

/-- The ends of a central and of a peripheral. -/
def Role.ends {α : Type} (central peripheral : α) : Role → α
  | .central => central
  | .peripheral => peripheral

/-- Paired ends are in step. -/
theorem Duplex.Paired.inStep {ends : Role → Channel} {key : Key} (h : Paired ends key) :
    Channel.InStep key (ends .central) (ends .peripheral) :=
  ⟨h.key .central, h.key .peripheral, h.sendNonce_eq .peripheral, (h.sendNonce_eq .central).symm⟩

/-- A central and a peripheral that follow one rule are paired when they have installed the same key
with mirrored tokens. -/
theorem Duplex.paired_withKey {central peripheral : Channel} {rule : NonceRule}
    (hcentral : central.cipher.role = .central ∧ central.cipher.rule = rule)
    (hperipheral : peripheral.cipher.role = .peripheral ∧ peripheral.cipher.rule = rule)
    (key : Key) (own peer : Token) :
    Paired (Role.ends (central.withKey key own peer) (peripheral.withKey key peer own)) key := by
  have hold : ∀ role, (Role.ends central peripheral role).cipher.role = role ∧
      (Role.ends central peripheral role).cipher.rule = rule := by
    intro role
    cases role with
    | central => exact hcentral
    | peripheral => exact hperipheral
  have hpaired := paired_keyed key (Role.ends own peer) hold
  have hends : (keyed (Role.ends central peripheral) key (Role.ends own peer)).channel =
      Role.ends (central.withKey key own peer) (peripheral.withKey key peer own) := by
    funext role
    cases role <;> rfl
  exact hends ▸ hpaired

/-- A message that one of two paired ends sends is read by the other one. -/
theorem Duplex.Paired.receiveAll_sent {ends : Role → Channel} {key : Key} (h : Paired ends key)
    (receiver : Role) {m : Message} (hm : m.Sendable) (hfits : m.Fits) {writer : Fragment.Writer}
    (hwriter : Fragment.TakesAll writer) :
    let sent := (ends receiver.peer).send writer m.body m.encrypted
    sent.result = .ok () ∧ ∃ (after : Channel) (quiet : List Received),
      (∀ r ∈ quiet, r.IsQuiet) ∧
        (ends receiver).receiveAll sent.offer.taken = (after, quiet ++ [m.received]) := by
  intro sent
  have hsent : sent = _ := Channel.send_of_takesAll (h.key receiver.peer) hm hwriter
  obtain ⟨after, quiet, hquiet, heq, -⟩ :=
    Channel.receiveAll_pack (a := (ends receiver.peer).cipher) (h.key receiver)
      (by rw [h.role, h.role])
      (by rw [h.role]; exact h.agrees receiver) hm
  rw [if_pos hfits] at heq
  rw [hsent]
  exact ⟨rfl, after, quiet, hquiet, heq⟩

/-- The ends read what they send each other: whatever they send, and whatever of it is delivered in
between, a party to which nothing is under way any more has received all messages that have been
sent to it and are short enough, in their order. -/
def Duplex.Delivers (ends : Role → Channel) : Prop :=
  ∀ moves, (∀ move ∈ moves, move.Admissible) → ∀ receiver,
    ((between ends).run moves).inbox receiver = [] →
      (((between ends).run moves).received receiver).filter Received.isComplete =
        ((sentTo receiver moves).filter (·.Fits)).map Message.received

/-- Paired ends do. -/
theorem Duplex.Paired.delivers {ends : Role → Channel} {key : Key} (h : Paired ends key) :
    Delivers ends := by
  intro moves hmoves receiver hinbox
  have htracks := tracks_between h hmoves receiver
  have hfollows := follows_between h hmoves receiver htracks.queue
  have hall := countP_of_inbox_eq_nil h hmoves receiver hinbox
  have hcomplete := hfollows.complete
  rw [hall, List.take_length] at hcomplete
  rw [← hcomplete]
  exact congrArg (List.filter Received.isComplete) htracks.log

end SmartLock
