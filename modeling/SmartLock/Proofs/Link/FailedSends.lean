/-
# Sends that fail

An encrypted message takes a nonce before its first fragment is offered to the link.  If the link
refuses one of its fragments, the last fragment is never delivered: the peer gets nothing of note
and keeps its nonce (`Channel.quiet_of_send_error`), while the sender has moved on.

`Duplex.Ahead` says by how many steps a sender is ahead of its peer: one for each encrypted last
fragment that is under way, and one for each send that has failed (`Duplex.ahead_run`).  The first
ones are made up for by delivery, the second ones never.  As long as the number of failures is not
zero, and not too large, the two nonces are different (`NonceState.nonce_iterate_advance_ne`), and
the peer reads what comes under a nonce that it was not encrypted under (`Duplex.drifted_run`).
-/
import SmartLock.Proofs.Link.Counters
import SmartLock.Proofs.Link.Stream

namespace SmartLock

/-! ## Fragments that are refused -/

namespace Fragment

/-- Of the fragments around some pieces, the last one is encrypted if the packet is. -/
theorem isEncrypted_of_mem_wrap (encrypted start : Bool) {pieces : List Bytes}
    (hpieces : ∀ piece ∈ pieces, piece ≠ []) :
    ∀ fragment ∈ wrap encrypted start pieces,
      isEncrypted fragment = (encrypted && isLast fragment) := by
  have hheader (start : Bool) (k : FragmentKind) {piece : Bytes} (h : piece ≠ []) :
      isEncrypted (header start k :: piece) = decide (k = .encrypted) := by
    obtain ⟨byte, rest, rfl⟩ := List.exists_cons_of_ne_nil h
    simp [isEncrypted]
  induction pieces generalizing start with
  | nil => simp [wrap]
  | cons piece rest ih =>
      have hpiece := hpieces piece List.mem_cons_self
      intro fragment hmem
      cases rest with
      | nil =>
          rw [wrap, List.mem_singleton] at hmem
          rw [hmem, hheader start _ hpiece, isLast_header _ _ hpiece]
          cases encrypted <;> rfl
      | cons next rest =>
          rw [wrap_cons_cons, List.mem_cons] at hmem
          rcases hmem with rfl | hmem
          · rw [hheader start _ hpiece, isLast_header _ _ hpiece]
            cases encrypted <;> rfl
          · exact ih false (fun p hp => hpieces p (List.mem_cons_of_mem _ hp)) fragment hmem

/-- Of the fragments of a packet, the last one is encrypted if the packet is. -/
theorem isEncrypted_of_mem_split {encrypted : Bool} {packet fragment : Bytes}
    (h : fragment ∈ split encrypted packet) :
    isEncrypted fragment = (encrypted && isLast fragment) :=
  isEncrypted_of_mem_wrap _ _ (fun _ hpiece => ne_nil_of_mem_pieces hpiece) fragment h

/-- Fragments that are not last ones are not encrypted last ones. -/
theorem countP_isEncrypted_eq_zero {fragments : List Bytes}
    (h : ∀ fragment ∈ fragments, isLast fragment = false) : fragments.countP isEncrypted = 0 := by
  rw [List.countP_eq_zero]
  intro fragment hmem
  have hlast := h fragment hmem
  match fragment with
  | [] | [_] => simp [isEncrypted]
  | byte :: _ :: _ =>
      simp only [isLast, ne_eq, decide_not, Bool.not_eq_false', decide_eq_true_eq] at hlast
      simp [isEncrypted, hlast]

/-- An encrypted packet has one encrypted last fragment. -/
theorem countP_isEncrypted_split {packet : Bytes} (h : packet ≠ []) :
    (split true packet).countP isEncrypted = 1 := by
  rw [← countP_isLast_split true h]
  apply List.countP_congr
  intro fragment hmem
  rw [isEncrypted_of_mem_split hmem, Bool.true_and]

/-- A writer takes all fragments, or those before one that it refuses. -/
theorem offerAfter_cases (writer : Writer) (taken fragments : List Bytes) :
    offerAfter writer taken fragments = ⟨taken.reverse ++ fragments, none⟩ ∨
      ∃ more refused rest, fragments = more ++ refused :: rest ∧
        offerAfter writer taken fragments = ⟨taken.reverse ++ more, some refused⟩ := by
  induction fragments generalizing taken with
  | nil => exact .inl (by simp [offerAfter])
  | cons fragment rest ih =>
      by_cases htake : writer taken fragment = true
      · rw [offerAfter, if_pos htake]
        rcases ih (fragment :: taken) with heq | ⟨more, refused, later, rfl, heq⟩
        · exact .inl (by simp [heq])
        · exact .inr ⟨fragment :: more, refused, later, rfl, by simp [heq]⟩
      · rw [offerAfter, if_neg htake]
        exact .inr ⟨[], fragment, rest, rfl, by simp⟩

/-- What precedes a refused fragment of a packet is not a last one. -/
theorem not_isLast_of_split_eq {encrypted : Bool} {packet refused : Bytes}
    {taken rest : List Bytes} (h : split encrypted packet = taken ++ refused :: rest) :
    ∀ fragment ∈ taken, isLast fragment = false := by
  intro fragment hmem
  apply not_isLast_of_mem_dropLast_split encrypted packet
  rw [h, List.dropLast_append_of_ne_nil (List.cons_ne_nil _ _)]
  exact List.mem_append_left _ hmem

end Fragment

/-! ## Messages that are not sent -/

namespace Channel

/-- A packet is taken whole, or up to a fragment that is refused. -/
theorem sendPacket_cases (c : Channel) (writer : Fragment.Writer) (packet : Bytes)
    (encrypted : Bool) :
    c.sendPacket writer packet encrypted =
        { channel := c, offer := ⟨Fragment.split encrypted packet, none⟩, result := .ok () } ∨
      ∃ taken refused rest, Fragment.split encrypted packet = taken ++ refused :: rest ∧
        c.sendPacket writer packet encrypted =
          { channel := c
            offer := ⟨taken, some refused⟩
            result := .error (.writeFailed taken.length) } := by
  rcases Fragment.offerAfter_cases writer [] (Fragment.split encrypted packet) with heq |
    ⟨taken, refused, rest, hsplit, heq⟩
  · exact .inl (by simp [sendPacket, Fragment.offer, heq])
  · exact .inr ⟨taken, refused, rest, hsplit, by simp [sendPacket, Fragment.offer, heq]⟩

/-- A packet that is sent is taken whole. -/
theorem taken_of_sendPacket_ok {c : Channel} {writer : Fragment.Writer} {packet : Bytes}
    {encrypted : Bool} (h : (c.sendPacket writer packet encrypted).result = .ok ()) :
    (c.sendPacket writer packet encrypted).offer.taken = Fragment.split encrypted packet := by
  rcases c.sendPacket_cases writer packet encrypted with heq | ⟨taken, refused, rest, -, heq⟩
  · rw [heq]
  · rw [heq] at h
    cases h

section Send

variable {c : Channel} {key : Key} (hkey : c.cipher.key = some key) (writer : Fragment.Writer)
  (message : Bytes)

include hkey

/-- With a key, an encrypted message moves the nonce for sending.  Either it is too long to be
encrypted, or its packet is offered to the link. -/
theorem send_encrypted_cases :
    c.send writer message true =
        { channel := { c with cipher := c.cipher.advanceSend }
          result := .error (.crypto .encrypt) } ∨
      ∃ packet, Ccm.encrypt? key c.cipher.sendNonce Cipher.associated message = some packet ∧
        c.send writer message true =
          sendPacket { c with cipher := c.cipher.advanceSend } writer packet true := by
  cases hencrypt : Ccm.encrypt? key c.cipher.sendNonce Cipher.associated message with
  | none => exact .inl (by simp [send, Cipher.encrypt, hkey, hencrypt])
  | some packet => exact .inr ⟨packet, rfl, by simp [send, Cipher.encrypt, hkey, hencrypt]⟩

/-- Nothing that is taken of a message that is not sent is a last fragment. -/
theorem not_isLast_of_send_error {encrypted : Bool} {error : LinkError}
    (h : (c.send writer message encrypted).result = .error error) :
    ∀ fragment ∈ (c.send writer message encrypted).offer.taken,
      Fragment.isLast fragment = false := by
  -- What has been offered is a packet, which has been refused somewhere.
  have hoffered (c : Channel) (packet : Bytes)
      (h : (c.sendPacket writer packet encrypted).result = .error error) :
      ∀ fragment ∈ (c.sendPacket writer packet encrypted).offer.taken,
        Fragment.isLast fragment = false := by
    rcases c.sendPacket_cases writer packet encrypted with heq | ⟨taken, refused, rest, hsplit, heq⟩
    · rw [heq] at h
      cases h
    · rw [heq]
      exact Fragment.not_isLast_of_split_eq hsplit
  cases encrypted with
  | false => exact hoffered c message h
  | true =>
      rcases send_encrypted_cases hkey writer message with heq | ⟨packet, -, heq⟩
      · rw [heq]
        simp
      · rw [heq] at h ⊢
        exact hoffered _ packet h

/-- Of a message that is sent, all fragments of its packet are taken. -/
theorem taken_of_send_ok {encrypted : Bool}
    (h : (c.send writer message encrypted).result = .ok ()) :
    ∃ packet, (c.send writer message encrypted).offer.taken = Fragment.split encrypted packet ∧
      (encrypted = true → packet ≠ []) := by
  cases encrypted with
  | false => exact ⟨message, taken_of_sendPacket_ok h, nofun⟩
  | true =>
      rcases send_encrypted_cases hkey writer message with heq | ⟨packet, hencrypt, heq⟩
      · rw [heq] at h
        cases h
      · rw [heq] at h ⊢
        refine ⟨packet, taken_of_sendPacket_ok h, fun _ => ?_⟩
        -- The packet has at least a tag.
        rintro rfl
        have hlength := Ccm.length_of_encrypt? hencrypt
        rw [List.length_nil, Ccm.tagSize] at hlength
        omega

/-- An encrypted last fragment is taken exactly if the message is encrypted and sent. -/
theorem countP_isEncrypted_send (encrypted : Bool) :
    (c.send writer message encrypted).offer.taken.countP Fragment.isEncrypted =
      if encrypted && (c.send writer message encrypted).result.isOk then 1 else 0 := by
  cases hresult : (c.send writer message encrypted).result with
  | error error =>
      rw [Fragment.countP_isEncrypted_eq_zero
        (not_isLast_of_send_error hkey writer message hresult)]
      simp [Except.isOk, Except.toBool]
  | ok =>
      obtain ⟨packet, htaken, hne⟩ := taken_of_send_ok hkey writer message hresult
      rw [htaken]
      cases encrypted with
      | true => exact Fragment.countP_isEncrypted_split (hne rfl)
      | false =>
          refine List.countP_eq_zero.mpr fun fragment hmem => ?_
          simp [Fragment.isEncrypted_of_mem_split hmem]

/-- When a message is not sent, its receiver gets nothing of note from what was taken of it, and keeps
its cipher. -/
theorem quiet_of_send_error {encrypted : Bool} {error : LinkError}
    (h : (c.send writer message encrypted).result = .error error) (receiver : Channel) :
    (∀ r ∈ (receiver.receiveAll (c.send writer message encrypted).offer.taken).2, r.IsQuiet) ∧
      (receiver.receiveAll (c.send writer message encrypted).offer.taken).1.cipher =
        receiver.cipher :=
  receiver.receiveAll_of_not_isLast (not_isLast_of_send_error hkey writer message h)

end Send

end Channel

/-! ## Nonces that show their counter -/

/-- A nonce has the low bytes of the new counter in front, and otherwise the bytes of the old
nonce. -/
theorem toBytes_writeCounter (nonce : Nonce) (count : UInt64) :
    (writeCounter nonce count).toBytes =
      littleEndian 5 count.toNat ++ nonce.toBytes.drop 5 :=
  Octets.toBytes_ofBytes (by simp [nonce.length_toBytes])

namespace NonceState

/-- The nonce says the low bytes of its counter. -/
def IsShown (s : NonceState) : Prop := s.nonce.toBytes.take 5 = littleEndian 5 s.count.toNat

/-- It does so after every step. -/
theorem isShown_advance (rule : NonceRule) (d : Direction) (s : NonceState) :
    (s.advance rule d).IsShown := by
  simp only [IsShown, advance]
  rw [toBytes_writeCounter, List.take_left' (length_littleEndian 5 _)]

/-- It does so after several steps if it did before them. -/
theorem IsShown.iterate {s : NonceState} (h : s.IsShown) (rule : NonceRule) (d : Direction)
    (steps : Nat) : ((advance rule d)^[steps] s).IsShown := by
  cases steps with
  | zero => exact h
  | succ steps =>
      rw [Function.iterate_succ_apply']
      exact isShown_advance ..

/-- Some steps, but not too many, lead to another nonce. -/
theorem nonce_iterate_advance_ne {s : NonceState} (h : s.IsShown) (rule : NonceRule)
    (d : Direction) {steps : Nat} (hpos : 0 < steps) (hlt : steps < 2 ^ 39) :
    ((advance rule d)^[steps] s).nonce ≠ s.nonce := by
  intro heq
  have hcount := count_iterate_advance rule d s steps
  have hshown := h.iterate rule d steps
  rw [IsShown, heq, h, littleEndian_eq_littleEndian_iff] at hshown
  -- The counters agree on their low bits, and differ by the number of steps.
  have hlow : s.count.toNat ≡ ((advance rule d)^[steps] s).count.toNat [MOD 2 ^ 39] :=
    Nat.ModEq.of_dvd (by decide) hshown
  have hsteps : ((advance rule d)^[steps] s).count.toNat ≡ s.count.toNat + steps [MOD 2 ^ 39] :=
    hcount.of_dvd (by cases rule <;> decide)
  have hzero : s.count.toNat + 0 ≡ s.count.toNat + steps [MOD 2 ^ 39] := hlow.trans hsteps
  have hnone := Nat.ModEq.add_left_cancel' _ hzero
  rw [Nat.ModEq, Nat.zero_mod, Nat.mod_eq_of_lt hlt] at hnone
  omega

end NonceState

/-- Both nonces of a new link show their counters. -/
theorem Nonces.isShown_start (rule : NonceRule) (central peripheral : Token) (d : Direction) :
    ((Nonces.start rule central peripheral).get d).IsShown := by
  have hzero : littleEndian 5 0 = List.replicate 5 0 := by decide
  cases rule with
  | os3 =>
      rw [get_start_os3, NonceState.IsShown, NonceState.numbered, toBytes_numbered]
      exact List.take_left' (length_littleEndian 5 _)
  | os2 =>
      cases d with
      | toPeripheral =>
          simp only [get, start, NonceState.IsShown]
          rw [toBytes_writeCounter, List.take_left' (length_littleEndian 5 _)]
      | toCentral =>
          simp only [get, start, NonceState.IsShown]
          rw [Octets.toBytes_ofBytes (by simp [Octets.length_toBytes]), List.append_assoc,
            List.take_left' List.length_replicate]
          exact hzero.symm

/-! ## Reading under another nonce -/

/-- What an end with a key makes of an encrypted packet: the message that it reads under its nonce
for receiving, or a forgery. -/
def Cipher.opens (c : Cipher) (key : Key) (packet : Bytes) : Received :=
  match Ccm.decrypt? key c.receiveNonce associated packet with
  | some message => .complete message true
  | none => .skipping true

/-- The fragments of an encrypted packet lead to nothing of note before the last one, and then to
what the packet is under the nonce of the receiver. -/
theorem Channel.receiveAll_encrypted {c : Channel} {key : Key} (hkey : c.cipher.key = some key)
    {packet : Bytes} (htag : Ccm.tagSize ≤ packet.length) (hlen : packet.length ≤ maxReceived) :
    ∃ quiet : List Received, (∀ r ∈ quiet, r.IsQuiet) ∧
      (c.receiveAll (Fragment.split true packet)).2 = quiet ++ [c.cipher.opens key packet] := by
  have hne : packet ≠ [] := by
    rintro rfl
    simp [Ccm.tagSize] at htag
  obtain ⟨quiet, hquiet, heq⟩ := receiveAll_split c true hne
  refine ⟨quiet, hquiet, ?_⟩
  rw [heq, Reassembly.ofPacket_of_le hlen]
  change quiet ++ [(c.finish .encrypted packet).2] = _
  congr 2
  rw [Cipher.opens]
  cases hdecrypt : Ccm.decrypt? key c.cipher.receiveNonce Cipher.associated packet with
  | none => exact snd_finish_eq_forged_iff.mpr ⟨rfl, key, hkey, htag, hdecrypt⟩
  | some message => exact snd_finish_eq_complete_iff.mpr (.inr ⟨rfl, rfl, key, hkey, hdecrypt⟩)

/-! ## How far a sender is ahead -/

/-- A step for sending does not touch the nonce for receiving. -/
theorem Cipher.receiving_advanceSend (c : Cipher) : c.advanceSend.receiving = c.receiving := by
  simp only [receiving, advanceSend, Nonces.get_advance_of_ne c.role.outward_ne_inward]

namespace Duplex

/-- Both ends follow the rule and hold the key. -/
def Shares (l : Duplex) (rule : NonceRule) (key : Key) : Prop :=
  ∀ role, (l.channel role).cipher.role = role ∧ (l.channel role).cipher.rule = rule ∧
    (l.channel role).cipher.key = some key

/-- A move changes nothing about an end but one of its nonces. -/
theorem cipher_step_cases (l : Duplex) (move : Move) (role : Role) :
    ((l.step move).channel role).cipher = (l.channel role).cipher ∨
      ((l.step move).channel role).cipher = (l.channel role).cipher.advanceSend ∨
      ((l.step move).channel role).cipher = (l.channel role).cipher.advanceReceive := by
  cases move with
  | send sender writer message =>
      by_cases h : role = sender
      · subst h
        simp only [step, Function.update_self]
        exact (Channel.cipher_send_eq_or ..).imp_right .inl
      · simp only [step, Function.update_of_ne h, true_or]
  | deliver receiver =>
      cases hinbox : l.inbox receiver with
      | nil => simp only [step, hinbox, true_or]
      | cons fragment rest =>
          by_cases h : role = receiver
          · subst h
            simp only [step, hinbox, Function.update_self]
            exact (Channel.cipher_receive_eq_or ..).imp_right .inr
          · simp only [step, hinbox, Function.update_of_ne h, true_or]

/-- So both ends go on sharing the key. -/
theorem Shares.step {l : Duplex} {rule : NonceRule} {key : Key} (h : l.Shares rule key)
    (move : Move) : (l.step move).Shares rule key := by
  intro role
  rcases cipher_step_cases l move role with heq | heq | heq <;> rw [heq] <;> exact h role

/-- They do so for a whole run. -/
theorem Shares.run {l : Duplex} {rule : NonceRule} {key : Key} (h : l.Shares rule key)
    (moves : List Move) : (l.run moves).Shares rule key := by
  induction moves using List.reverseRecOn with
  | nil => exact h
  | append_singleton moves move ih =>
      rw [run_concat]
      exact ih.step move

/-- The move is an encrypted message to a party, and is not sent. -/
def fails (l : Duplex) (receiver : Role) : Move → Bool
  | .send sender writer message =>
      decide (sender = receiver.peer) && (message.encrypted &&
        !((l.channel sender).send writer message.body message.encrypted).result.isOk)
  | .deliver _ => false

/-- How many encrypted messages to a party are not sent in a run. -/
def failures (l : Duplex) (receiver : Role) : List Move → Nat
  | [] => 0
  | move :: rest => (l.fails receiver move).toNat + (l.step move).failures receiver rest

/-- One more move may be one more failure. -/
theorem failures_concat (l : Duplex) (receiver : Role) (moves : List Move) (move : Move) :
    l.failures receiver (moves ++ [move]) =
      l.failures receiver moves + ((l.run moves).fails receiver move).toNat := by
  induction moves generalizing l with
  | nil => simp [failures, run]
  | cons first rest ih =>
      rw [List.cons_append, failures, failures, ih, Nat.add_assoc]
      rfl

/-- The nonce for sending to a party is ahead of the party's nonce for receiving: by a number of
steps, and by one more for each encrypted last fragment that is under way. -/
structure Ahead (rule : NonceRule) (receiver : Role) (steps : Nat) (l : Duplex) : Prop where
  sending : (l.channel receiver.peer).cipher.sending =
    (NonceState.advance rule receiver.inward)^[
      (l.inbox receiver).countP Fragment.isEncrypted + steps]
      (l.channel receiver).cipher.receiving
  shown : (l.channel receiver).cipher.receiving.IsShown

section Steps

variable {l : Duplex} {rule : NonceRule} {key : Key} {receiver : Role} {steps : Nat}
  (hshares : l.Shares rule key) (h : l.Ahead rule receiver steps)

include hshares h

/-- An encrypted message is under way, or has failed; in both cases its sender is one step further
ahead. -/
theorem Ahead.send_peer (writer : Fragment.Writer) (m : Message) :
    (l.step (.send receiver.peer writer m)).Ahead rule receiver
      (steps + (l.fails receiver (.send receiver.peer writer m)).toNat) := by
  obtain ⟨hrole, hrule, hkey⟩ := hshares receiver.peer
  have hcipher := Channel.cipher_send hkey writer m.body m.encrypted
  have htaken := Channel.countP_isEncrypted_send hkey writer m.body m.encrypted
  constructor
  · simp only [step, fails, Function.update_self, Function.update_of_ne receiver.peer_ne.symm,
      Role.peer_peer, List.countP_append, decide_true, Bool.true_and]
    rw [hcipher, htaken]
    -- Of the two counts, one is one and the other is zero.
    cases m.encrypted with
    | false => simpa using h.sending
    | true =>
        have hstep : (l.channel receiver.peer).cipher.advanceSend.sending =
            NonceState.advance rule receiver.inward (l.channel receiver.peer).cipher.sending := by
          rw [Cipher.sending_advanceSend, hrule, hrole, Role.outward_peer]
        rw [if_pos rfl, hstep, h.sending,
          ← Function.iterate_succ_apply' (NonceState.advance rule receiver.inward)]
        congr 2
        cases ((l.channel receiver.peer).send writer m.body true).result.isOk <;>
          simp <;> omega
  · simp only [step, Function.update_of_ne receiver.peer_ne.symm]
    exact h.shown

omit hshares in
/-- What a party sends itself does not matter. -/
theorem Ahead.send_self (writer : Fragment.Writer) (m : Message) :
    (l.step (.send receiver writer m)).Ahead rule receiver steps := by
  have hreceiving : ((l.channel receiver).send writer m.body m.encrypted).channel.cipher.receiving =
      (l.channel receiver).cipher.receiving := by
    rcases Channel.cipher_send_eq_or (l.channel receiver) writer m.body m.encrypted with heq | heq
    · rw [heq]
    · rw [heq, Cipher.receiving_advanceSend]
  constructor
  · simp only [step, Function.update_self, Function.update_of_ne receiver.peer_ne,
      Function.update_of_ne receiver.peer_ne.symm, hreceiving]
    exact h.sending
  · simp only [step, Function.update_self, hreceiving]
    exact h.shown

/-- What is delivered is not under way any more. -/
theorem Ahead.deliver_self : (l.step (.deliver receiver)).Ahead rule receiver steps := by
  obtain ⟨hrole, hrule, hkey⟩ := hshares receiver
  cases hinbox : l.inbox receiver with
  | nil => simpa only [step, hinbox] using h
  | cons fragment rest =>
      have hhas : (l.channel receiver).cipher.hasKey = true := by
        rw [Cipher.hasKey, hkey]
        rfl
      have hcipher := Channel.cipher_receive hhas fragment
      have hsending := h.sending
      rw [hinbox, List.countP_cons] at hsending
      constructor
      · simp only [step, hinbox, Function.update_self, Function.update_of_ne receiver.peer_ne]
        rw [hcipher, hsending]
        cases Fragment.isEncrypted fragment with
        | false => rfl
        | true =>
            rw [if_pos rfl, if_pos rfl, Cipher.receiving_advanceReceive, hrule, hrole,
              Nat.add_right_comm, Function.iterate_succ_apply]
      · simp only [step, hinbox, Function.update_self]
        rw [hcipher]
        cases Fragment.isEncrypted fragment with
        | false => exact h.shown
        | true =>
            rw [if_pos rfl, Cipher.receiving_advanceReceive]
            exact NonceState.isShown_advance ..

omit hshares in
/-- What is delivered to the sender does not matter. -/
theorem Ahead.deliver_peer : (l.step (.deliver receiver.peer)).Ahead rule receiver steps := by
  cases hinbox : l.inbox receiver.peer with
  | nil => simpa only [step, hinbox] using h
  | cons fragment rest =>
      have hsending : ((l.channel receiver.peer).receive fragment).1.cipher.sending =
          (l.channel receiver.peer).cipher.sending := by
        rcases Channel.cipher_receive_eq_or (l.channel receiver.peer) fragment with heq | heq
        · rw [heq]
        · rw [heq, Cipher.sending_advanceReceive]
      constructor
      · simp only [step, hinbox, Function.update_self, Function.update_of_ne receiver.peer_ne.symm,
          hsending]
        exact h.sending
      · simp only [step, hinbox, Function.update_of_ne receiver.peer_ne.symm]
        exact h.shown

/-- With every failure, and with nothing else, a sender gets further ahead. -/
theorem Ahead.step (move : Move) :
    (l.step move).Ahead rule receiver (steps + (l.fails receiver move).toNat) := by
  cases move with
  | send sender writer m =>
      by_cases hsender : sender = receiver
      · subst hsender
        have hother : l.fails sender (.send sender writer m) = false := by
          simp [fails, sender.peer_ne.symm]
        rw [hother]
        exact h.send_self writer m
      · obtain rfl := Role.eq_peer_of_ne hsender
        exact h.send_peer hshares writer m
  | deliver other =>
      by_cases hother : other = receiver
      · subst hother
        exact h.deliver_self hshares
      · obtain rfl := Role.eq_peer_of_ne hother
        exact h.deliver_peer

end Steps

/-! ## Links in lockstep -/

/-- Both ends share a key, nothing is under way between them, and each nonce for sending is the
other party's nonce for receiving. -/
structure InLockstep (l : Duplex) (rule : NonceRule) (key : Key) : Prop where
  shares : l.Shares rule key
  quiet : ∀ receiver, l.inbox receiver = []
  agrees : ∀ receiver, (l.channel receiver.peer).cipher.sending =
    (l.channel receiver).cipher.receiving
  shown : ∀ receiver, (l.channel receiver).cipher.receiving.IsShown

/-- Two ends that have just installed a key with mirrored tokens are in lockstep. -/
theorem inLockstep_keyed {old : Role → Channel} {rule : NonceRule} (key : Key)
    (token : Role → Token)
    (hold : ∀ role, (old role).cipher.role = role ∧ (old role).cipher.rule = rule) :
    (keyed old key token).InLockstep rule key := by
  constructor
  · exact fun role => ⟨(hold role).1, (hold role).2, rfl⟩
  · exact fun receiver => rfl
  · intro receiver
    have hagrees := (agreesOn_keyed key token hold receiver.inward receiver).2.2
    have hrole (role : Role) : ((keyed old key token).channel role).cipher.role = role :=
      (hold role).1
    rw [Cipher.sending, Cipher.receiving, hrole, hrole, Role.outward_peer, hagrees]
  · intro receiver
    obtain ⟨hrole, hrule⟩ := hold receiver
    simp only [Cipher.receiving, keyed, Channel.withKey, Cipher.withKey, hrole, hrule]
    cases receiver <;> exact Nonces.isShown_start ..

/-- From there, a sender is ahead by the number of its failures. -/
theorem ahead_run {start : Duplex} {rule : NonceRule} {key : Key}
    (h : start.InLockstep rule key) (receiver : Role) (moves : List Move) :
    (start.run moves).Ahead rule receiver (start.failures receiver moves) := by
  induction moves using List.reverseRecOn with
  | nil =>
      refine ⟨?_, h.shown receiver⟩
      rw [run, List.foldl_nil, h.quiet receiver]
      exact h.agrees receiver
  | append_singleton moves move ih =>
      rw [run_concat, failures_concat]
      exact ih.step (h.shares.run moves) move

/-- Nothing is under way to a party, and the other one is so many steps ahead of it.  As long as
these are some, but not too many, the nonces are different.  An encrypted message that is short
enough can still be sent; once it has been, the party reads it under its own nonce: without a step
ahead as what it is. -/
structure Drifted (rule : NonceRule) (key : Key) (receiver : Role) (steps : Nat) (l : Duplex) :
    Prop where
  sending : (l.channel receiver.peer).cipher.sending =
    (NonceState.advance rule receiver.inward)^[steps] (l.channel receiver).cipher.receiving
  nonce_ne : 0 < steps → steps < 2 ^ 39 →
    (l.channel receiver.peer).cipher.sendNonce ≠ (l.channel receiver).cipher.receiveNonce
  sends : ∀ (writer : Fragment.Writer) (body : Bytes), Fragment.TakesAll writer →
    body.length + Ccm.tagSize ≤ Channel.maxReceived →
    ((l.channel receiver.peer).send writer body true).result = .ok ()
  reads : ∀ (writer : Fragment.Writer) (body : Bytes),
    body.length + Ccm.tagSize ≤ Channel.maxReceived →
    let sent := (l.channel receiver.peer).send writer body true
    sent.result = .ok () →
    ∃ packet quiet, Ccm.encrypt? key (l.channel receiver.peer).cipher.sendNonce Cipher.associated
        body = some packet ∧ (∀ r ∈ quiet, Received.IsQuiet r) ∧
      ((l.channel receiver).receiveAll sent.offer.taken).2 =
        quiet ++ [(l.channel receiver).cipher.opens key packet] ∧
      (steps = 0 → (l.channel receiver).cipher.opens key packet = .complete body true)

/-- A message that is short enough can be sent. -/
theorem send_of_shares {l : Duplex} {rule : NonceRule} {key : Key} (h : l.Shares rule key)
    (sender : Role) {writer : Fragment.Writer} {body : Bytes} (hwriter : Fragment.TakesAll writer)
    (hbody : body.length + Ccm.tagSize ≤ Channel.maxReceived) :
    ((l.channel sender).send writer body true).result = .ok () := by
  obtain ⟨-, -, hkey⟩ := h sender
  have hsendable : (⟨body, true⟩ : Message).Sendable := by
    rw [Message.Sendable, if_pos rfl]
    exact Nat.le_trans (Nat.le_of_add_right_le hbody) (by decide)
  have hsent := Channel.send_of_takesAll hkey hsendable hwriter
  rw [hsent]

/-- A message that is short enough and has been sent is read under the nonce of its receiver. -/
theorem reads_of_shares {l : Duplex} {rule : NonceRule} {key : Key} (h : l.Shares rule key)
    (receiver : Role) {writer : Fragment.Writer} {body : Bytes}
    (hbody : body.length + Ccm.tagSize ≤ Channel.maxReceived)
    (hsent : ((l.channel receiver.peer).send writer body true).result = .ok ()) :
    ∃ packet quiet, Ccm.encrypt? key (l.channel receiver.peer).cipher.sendNonce Cipher.associated
        body = some packet ∧ (∀ r ∈ quiet, Received.IsQuiet r) ∧
      ((l.channel receiver).receiveAll
          ((l.channel receiver.peer).send writer body true).offer.taken).2 =
        quiet ++ [(l.channel receiver).cipher.opens key packet] := by
  obtain ⟨-, -, hkey⟩ := h receiver.peer
  rcases Channel.send_encrypted_cases hkey writer body with heq | ⟨packet, hencrypt, heq⟩
  · rw [heq] at hsent
    cases hsent
  · have hlength : packet.length = body.length + Ccm.tagSize := Ccm.length_of_encrypt? hencrypt
    have htag : Ccm.tagSize ≤ packet.length := by omega
    obtain ⟨quiet, hquiet, hread⟩ :=
      Channel.receiveAll_encrypted (h receiver).2.2 htag (hlength ▸ hbody)
    refine ⟨packet, quiet, hencrypt, hquiet, ?_⟩
    rw [heq] at hsent ⊢
    rw [Channel.taken_of_sendPacket_ok hsent]
    exact hread

/-- Whatever has been sent and delivered, and whatever the links have refused: when nothing is under
way to a party, the other one has drifted away from it by the number of its failures. -/
theorem drifted_run {start : Duplex} {rule : NonceRule} {key : Key}
    (h : start.InLockstep rule key) {moves : List Move} {receiver : Role}
    (hquiet : (start.run moves).inbox receiver = []) :
    (start.run moves).Drifted rule key receiver (start.failures receiver moves) := by
  obtain ⟨hsending, hshown⟩ := ahead_run h receiver moves
  rw [hquiet, List.countP_nil, Nat.zero_add] at hsending
  have hshares := h.shares.run moves
  refine ⟨hsending, ?_, fun writer body => send_of_shares hshares receiver.peer, ?_⟩
  · intro hpos hlt
    rw [← Cipher.nonce_sending, hsending]
    exact NonceState.nonce_iterate_advance_ne hshown rule receiver.inward hpos hlt
  · intro writer body hbody sent hsent
    obtain ⟨packet, quiet, hencrypt, hnote, hread⟩ := reads_of_shares hshares receiver hbody hsent
    refine ⟨packet, quiet, hencrypt, hnote, hread, fun hzero => ?_⟩
    -- Without a step ahead the message is read under the nonce that it was encrypted under.
    rw [hzero] at hsending
    have hnonce : ((start.run moves).channel receiver.peer).cipher.sendNonce =
        ((start.run moves).channel receiver).cipher.receiveNonce :=
      congrArg NonceState.nonce hsending
    rw [Cipher.opens, ← hnonce, Ccm.decrypt?_of_encrypt? hencrypt]

end Duplex

end SmartLock
