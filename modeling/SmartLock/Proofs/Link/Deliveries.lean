/-
# One delivery after the other

Two ends of a link that hold the same key and agree on both directions (`Duplex.Paired`), and a run
of sends and deliveries between them.  What the next fragment leads to is known in advance
(`Duplex.receive_next`): a last one completes the first message that is not through yet, if that is
short enough, and everything else is of no note.  When both ends have read what is under way to
them, they are paired again (`Duplex.paired_run`).
-/
import SmartLock.Proofs.Link.Stream

namespace SmartLock

/-! ## Reading on -/

namespace Channel

/-- Views that agree read several fragments alike. -/
theorem AgreesOn.receiveAll {c c' : Channel} (h : AgreesOn c.cipher.role.inward c c')
    (hrole : c.cipher.role = c'.cipher.role) (fragments : List Bytes) :
    AgreesOn c.cipher.role.inward (c.receiveAll fragments).1 (c'.receiveAll fragments).1 := by
  induction fragments generalizing c c' with
  | nil => exact h
  | cons fragment rest ih =>
      have hafter := (h.receive hrole fragment).2
      have hkept : (c.receive fragment).1.cipher.role = c.cipher.role := role_receive c fragment
      have hrest := ih (hkept.symm ▸ hafter)
        (hkept.trans (hrole.trans (role_receive c' fragment).symm))
      exact hkept ▸ hrest

/-- What a party reads goes unnoticed in the other direction. -/
theorem agreesOn_receiveAll (c : Channel) (fragments : List Bytes) :
    c.cipher.AgreesOn c.cipher.role.outward (c.receiveAll fragments).1.cipher := by
  induction fragments generalizing c with
  | nil => exact .refl _ _
  | cons fragment rest ih =>
      have hrest := ih (c.receive fragment).1
      rw [role_receive] at hrest
      exact (agreesOn_receive c fragment).trans hrest

end Channel

namespace Duplex

/-! ## Paired ends -/

/-- Two ends, each in its role, that hold the same key and agree on both directions. -/
structure Paired (ends : Role → Channel) (key : Key) : Prop where
  role : ∀ role, (ends role).cipher.role = role
  key : ∀ role, (ends role).cipher.key = some key
  agrees : ∀ receiver,
    (ends receiver.peer).cipher.AgreesOn receiver.inward (ends receiver).cipher

/-- Paired ends have the nonce of the next message in common. -/
theorem Paired.sendNonce_eq {ends : Role → Channel} {key : Key} (h : Paired ends key)
    (receiver : Role) :
    (ends receiver.peer).cipher.sendNonce = (ends receiver).cipher.receiveNonce := by
  apply Cipher.AgreesOn.sendNonce_eq
  · rw [h.role]
    exact h.agrees receiver
  · rw [h.role, h.role]

/-- Two ends that have just installed a key with mirrored tokens are paired. -/
theorem paired_keyed {old : Role → Channel} {rule : NonceRule} (key : Key) (token : Role → Token)
    (hold : ∀ role, (old role).cipher.role = role ∧ (old role).cipher.rule = rule) :
    Paired (keyed old key token).channel key :=
  ⟨fun role => (hold role).1, key_keyed old key token,
    fun receiver => agreesOn_keyed key token hold receiver.inward receiver⟩

/-! ## Moves -/

section Moves

variable (l : Duplex) (role : Role)

/-- A message that is sent changes the end of its sender and what is under way to the other end. -/
theorem step_send (writer : Fragment.Writer) (m : Message) :
    let sent := (l.channel role).send writer m.body m.encrypted
    let after := l.step (.send role writer m)
    after.channel role = sent.channel ∧ after.channel role.peer = l.channel role.peer ∧
      after.inbox role.peer = l.inbox role.peer ++ sent.offer.taken ∧
      after.inbox role = l.inbox role ∧ after.delivered = l.delivered := by
  simp only [step, Function.update_self, Function.update_of_ne role.peer_ne,
    Function.update_of_ne role.peer_ne.symm, and_self]

/-- A fragment that is delivered changes the end of its receiver and what is under way to it. -/
theorem step_deliver {fragment : Bytes} {rest : List Bytes} (h : l.inbox role = fragment :: rest) :
    let after := l.step (.deliver role)
    after.channel role = ((l.channel role).receive fragment).1 ∧
      after.channel role.peer = l.channel role.peer ∧ after.inbox role = rest ∧
      after.inbox role.peer = l.inbox role.peer ∧
      after.delivered role = l.delivered role ++ [fragment] ∧
      after.delivered role.peer = l.delivered role.peer := by
  simp only [step, h, Function.update_self, Function.update_of_ne role.peer_ne, and_self]

end Moves

/-! ## Runs -/

/-- A link between two ends, with nothing under way. -/
def between (ends : Role → Channel) : Duplex := { channel := ends }

section Runs

variable {ends : Role → Channel} {key : Key} (h : Paired ends key) {moves : List Move}
  (hmoves : ∀ move ∈ moves, move.Admissible) (receiver : Role)

include h hmoves

/-- Every admissible run keeps both directions in order. -/
theorem tracks_between :
    (between ends).Tracks receiver (sentTo receiver moves) ((between ends).run moves) :=
  tracks_run h.role h.key rfl rfl rfl hmoves

/-- Each party follows what is sent to it. -/
theorem follows_between {delivered rest : List Bytes}
    (heq : (ends receiver.peer).cipher.fragments (sentTo receiver moves) = delivered ++ rest) :
    Channel.Follows (ends receiver.peer).cipher (ends receiver) (sentTo receiver moves)
      delivered := by
  refine Channel.follows_of_fragments (h.key receiver) ?_ ?_
    (fun m hm => sendable_of_mem_sentTo hmoves hm) heq
  · rw [h.role, h.role]
  · rw [h.role]
    exact h.agrees receiver

/-- The keys stay. -/
theorem key_between (role : Role) :
    (((between ends).run moves).channel role).cipher.key = some key := by
  rw [← (tracks_between h hmoves role).receiving.1.1, Channel.key_receiveAll]
  exact h.key role

/-- What the next fragment leads to.  One that is not the last one of its message is of no note; a
last one completes the first message that is not through, or leads to nothing of note if that
message is too long. -/
theorem receive_next {fragment : Bytes} {rest : List Bytes}
    (hinbox : ((between ends).run moves).inbox receiver = fragment :: rest) :
    let l := (between ends).run moves
    let r := ((l.channel receiver).receive fragment).2
    (Fragment.isLast fragment = false ∧ r.IsQuiet) ∨
      Fragment.isLast fragment = true ∧
        ∃ m, (sentTo receiver moves)[(l.delivered receiver).countP Fragment.isLast]? = some m ∧
          (m.Fits → r = m.received) ∧ (¬ m.Fits → r.IsQuiet) := by
  intro l r
  have htracks : (between ends).Tracks receiver (sentTo receiver moves) l :=
    tracks_between h hmoves receiver
  cases hlast : Fragment.isLast fragment with
  | false => exact .inl ⟨rfl, (Channel.receive_of_not_isLast _ hlast).1⟩
  | true =>
      refine .inr ⟨rfl, ?_⟩
      -- The receiver takes the fragment as the end from the start does that only receives.
      have hin : ((ends receiver).receiveAll (l.delivered receiver)).1.cipher.role.inward =
          receiver.inward := by
        rw [Channel.role_receiveAll, h.role]
      have hresult :
          (((ends receiver).receiveAll (l.delivered receiver)).1.receive fragment).2 = r :=
        (Channel.AgreesOn.receive (hin.symm ▸ htracks.receiving)
          (by
            rw [Channel.role_receiveAll, h.role]
            exact ((role_run (between ends) moves receiver).trans (h.role receiver)).symm)
          fragment).1
      have hqueue := htracks.queue
      have hbefore := follows_between h hmoves receiver hqueue
      rw [hinbox, List.append_cons] at hqueue
      have hafter := follows_between h hmoves receiver hqueue
      have hcount : (l.delivered receiver ++ [fragment]).countP Fragment.isLast =
          (l.delivered receiver).countP Fragment.isLast + 1 := by
        simp [List.countP_append, hlast]
      have hreceived : ((ends receiver).receiveAll (l.delivered receiver ++ [fragment])).2 =
          ((ends receiver).receiveAll (l.delivered receiver)).2 ++ [r] := by
        rw [Channel.receiveAll_append, ← hresult]
        rfl
      have hlt := hafter.count_le
      rw [hcount] at hlt
      obtain ⟨m, hm⟩ : ∃ m,
          (sentTo receiver moves)[(l.delivered receiver).countP Fragment.isLast]? = some m :=
        ⟨_, List.getElem?_eq_getElem hlt⟩
      -- One message more is through, and all that this adds comes from the fragment.
      have hone : [r].filter Received.isComplete = ([m].filter (·.Fits)).map Message.received := by
        have hcomplete := hafter.complete
        rw [hcount, hreceived, List.take_add_one, hm, List.filter_append, hbefore.complete,
          List.filter_append, List.map_append] at hcomplete
        exact List.append_cancel_left hcomplete
      have hnotForged : r ≠ .skipping true := by
        rintro hforged
        refine hafter.not_forged ?_
        rw [hreceived, hforged]
        exact List.mem_append_right _ List.mem_cons_self
      refine ⟨m, hm, fun hfits => ?_, fun hfits => ⟨hnotForged, ?_⟩⟩
      · have hmem : m.received ∈ [r].filter Received.isComplete := by
          rw [hone]
          simp [hfits]
        exact (List.mem_singleton.mp (List.mem_filter.mp hmem).1).symm
      · intro message authenticated hr
        rw [hr] at hone
        simp [hfits, Received.isComplete] at hone

/-- When nothing is under way to a party, all messages that have been sent to it are through. -/
theorem countP_of_inbox_eq_nil (hinbox : ((between ends).run moves).inbox receiver = []) :
    (((between ends).run moves).delivered receiver).countP Fragment.isLast =
      (sentTo receiver moves).length := by
  have hqueue := (tracks_between h hmoves receiver).queue
  rw [hinbox, List.append_nil] at hqueue
  rw [← hqueue]
  exact Cipher.countP_isLast_fragments (h.key receiver.peer)
    fun m hm => sendable_of_mem_sentTo hmoves hm

/-- When a party has read what is under way to it, the other end agrees with it on this
direction. -/
theorem agrees_run :
    (((between ends).run moves).channel receiver.peer).cipher.AgreesOn receiver.inward
      ((((between ends).run moves).channel receiver).receiveAll
        (((between ends).run moves).inbox receiver)).1.cipher := by
  have htracks := tracks_between h hmoves receiver
  have hqueue := htracks.queue
  have hcount : (((between ends).run moves).delivered receiver ++
      ((between ends).run moves).inbox receiver).countP Fragment.isLast =
      (sentTo receiver moves).length := by
    rw [← hqueue]
    exact Cipher.countP_isLast_fragments (h.key receiver.peer)
      fun m hm => sendable_of_mem_sentTo hmoves hm
  have hagrees := (follows_between h hmoves receiver (hqueue.trans (List.append_nil _).symm)).agrees
  rw [hcount, List.take_length, h.role, Channel.receiveAll_append] at hagrees
  -- The party reads the rest as the end from the start does that only receives.
  have hin : ((ends receiver).receiveAll
      (((between ends).run moves).delivered receiver)).1.cipher.role.inward = receiver.inward := by
    rw [Channel.role_receiveAll, h.role]
  have hread := Channel.AgreesOn.receiveAll (hin.symm ▸ htracks.receiving)
    (by
      rw [Channel.role_receiveAll, h.role]
      exact ((role_run (between ends) moves receiver).trans (h.role receiver)).symm)
    (((between ends).run moves).inbox receiver)
  exact (htracks.sending.symm.trans hagrees).trans (hin ▸ hread).1

omit receiver in
/-- When both parties have read what is under way to them, the ends are paired again. -/
theorem paired_run :
    Paired (fun role => ((((between ends).run moves).channel role).receiveAll
      (((between ends).run moves).inbox role)).1) key := by
  have hrole (role : Role) : (((between ends).run moves).channel role).cipher.role = role :=
    (role_run (between ends) moves role).trans (h.role role)
  refine ⟨fun role => ?_, fun role => ?_, fun receiver => ?_⟩
  · rw [Channel.role_receiveAll, hrole]
  · rw [Channel.key_receiveAll, key_between h hmoves]
  · have hread := Channel.agreesOn_receiveAll (((between ends).run moves).channel receiver.peer)
      (((between ends).run moves).inbox receiver.peer)
    rw [hrole, Role.outward_peer] at hread
    exact hread.symm.trans (agrees_run h hmoves receiver)

end Runs

end Duplex

end SmartLock
