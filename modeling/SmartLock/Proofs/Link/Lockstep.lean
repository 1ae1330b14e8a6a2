/-
# Two ends in lockstep

A message that one end of a link encrypts is read by the other end as long as both hold the same
key, and the sender's nonce for sending is the receiver's nonce for receiving.  This correspondence
is `Cipher.AgreesOn`, for one direction of the link at a time:

* packing a message on one side and receiving its packet on the other side keeps it, whether the
  packet is short enough to be delivered or not (`Channel.conclude_pack`);
* what happens in the other direction does not touch it (`Cipher.agreesOn_advance_of_ne`).
-/
import SmartLock.Proofs.Link.Packets

namespace SmartLock

/-! ## Directions -/

/-- The party at the other end. -/
def Role.peer : Role → Role
  | .central => .peripheral
  | .peripheral => .central

@[simp] theorem Role.peer_peer (role : Role) : role.peer.peer = role := by
  cases role <;> rfl

/-- The two parties are different. -/
theorem Role.peer_ne (role : Role) : role.peer ≠ role := by
  cases role <;> decide

/-- There is no third party. -/
theorem Role.eq_peer_of_ne {role other : Role} (h : other ≠ role) : other = role.peer := by
  cases role <;> cases other <;> first | rfl | exact absurd rfl h

/-- What one party sends, the other receives. -/
@[simp] theorem Role.outward_peer (role : Role) : role.peer.outward = role.inward := by
  cases role <;> rfl

/-- A party does not receive in the direction in which it sends. -/
theorem Role.outward_ne_inward (role : Role) : role.outward ≠ role.inward := by
  cases role <;> decide

/-! ## Agreement -/

namespace Cipher

/-- Two ends that agree on one direction: the same key, and the same nonce of that direction, which
moves by the same rule. -/
def AgreesOn (d : Direction) (a b : Cipher) : Prop :=
  a.key = b.key ∧ a.rule = b.rule ∧ a.nonces.get d = b.nonces.get d

theorem AgreesOn.refl (d : Direction) (a : Cipher) : AgreesOn d a a := ⟨rfl, rfl, rfl⟩

theorem AgreesOn.symm {d : Direction} {a b : Cipher} (h : AgreesOn d a b) : AgreesOn d b a :=
  ⟨h.1.symm, h.2.1.symm, h.2.2.symm⟩

theorem AgreesOn.trans {d : Direction} {a b c : Cipher} (h : AgreesOn d a b)
    (h' : AgreesOn d b c) : AgreesOn d a c :=
  ⟨h.1.trans h'.1, h.2.1.trans h'.2.1, h.2.2.trans h'.2.2⟩

/-- The end after one step of the nonce of a direction. -/
def advance (c : Cipher) (d : Direction) : Cipher :=
  { c with nonces := c.nonces.advance c.rule d }

/-- Two ends that agree on a direction still do when both have moved it. -/
theorem AgreesOn.advance {d : Direction} {a b : Cipher} (h : AgreesOn d a b) :
    AgreesOn d (a.advance d) (b.advance d) := by
  obtain ⟨hkey, hrule, hnonce⟩ := h
  refine ⟨hkey, hrule, ?_⟩
  simp only [Cipher.advance, Nonces.get_advance_self, hrule, hnonce]

/-- The steps for sending, of two views of one end. -/
theorem AgreesOn.advanceSend {a b : Cipher} (h : AgreesOn a.role.outward a b)
    (hrole : a.role = b.role) : AgreesOn a.role.outward a.advanceSend b.advanceSend := by
  rw [Cipher.advanceSend, Cipher.advanceSend, ← hrole]
  exact h.advance

/-- The steps for receiving, of two views of one end. -/
theorem AgreesOn.advanceReceive {a b : Cipher} (h : AgreesOn a.role.inward a b)
    (hrole : a.role = b.role) : AgreesOn a.role.inward a.advanceReceive b.advanceReceive := by
  rw [Cipher.advanceReceive, Cipher.advanceReceive, ← hrole]
  exact h.advance

/-- One end sends and the other one receives. -/
theorem AgreesOn.advanceSend_advanceReceive {a b : Cipher} (h : AgreesOn b.role.inward a b)
    (hrole : a.role = b.role.peer) : AgreesOn b.role.inward a.advanceSend b.advanceReceive := by
  rw [Cipher.advanceSend, Cipher.advanceReceive, hrole, Role.outward_peer]
  exact h.advance

/-- A step of the other direction goes unnoticed. -/
theorem agreesOn_advance_of_ne {d e : Direction} (c : Cipher) (h : e ≠ d) :
    AgreesOn d c (c.advance e) :=
  ⟨rfl, rfl, (Nonces.get_advance_of_ne h).symm⟩

/-- Two ends that agree on the direction from one to the other have the nonce of its next message
in common. -/
theorem AgreesOn.sendNonce_eq {a b : Cipher} (h : AgreesOn b.role.inward a b)
    (hrole : a.role = b.role.peer) : a.sendNonce = b.receiveNonce := by
  rw [sendNonce, receiveNonce, hrole, Role.outward_peer, h.2.2]

end Cipher

/-! ## Messages -/

/-- A message for the other end, to be encrypted or not. -/
structure Message where
  body : Bytes
  encrypted : Bool
  deriving DecidableEq, Repr, Inhabited

namespace Message

/-- The bytes of the message on the link: an encrypted one has a tag at its end. -/
def wireLength (m : Message) : Nat :=
  if m.encrypted then m.body.length + Ccm.tagSize else m.body.length

/-- What can be sent: encrypted any message that the encryption takes, in plain any message that is
not empty. -/
def Sendable (m : Message) : Prop :=
  if m.encrypted then m.body.length ≤ Ccm.maxLength else m.body ≠ []

instance (m : Message) : Decidable m.Sendable := by
  unfold Sendable
  infer_instance

/-- Whether the message is short enough to be delivered. -/
def Fits (m : Message) : Prop := m.wireLength ≤ Channel.maxReceived

instance (m : Message) : Decidable m.Fits := by
  unfold Fits
  infer_instance

/-- How the other end takes the message in. -/
def received (m : Message) : Received := .complete m.body m.encrypted

end Message

namespace Cipher

/-- The end after a message, and the packet that the message travels in. -/
def pack (c : Cipher) (m : Message) : Cipher × Bytes :=
  if m.encrypted then ((c.encrypt m.body).1, (c.encrypt m.body).2.toOption.getD [])
  else (c, m.body)

/-- An encrypted message that is not too long is encrypted under the nonce for sending, which
moves. -/
theorem pack_encrypted {c : Cipher} {key : Key} (hkey : c.key = some key) {body packet : Bytes}
    (h : Ccm.encrypt? key c.sendNonce associated body = some packet) :
    c.pack ⟨body, true⟩ = (c.advanceSend, packet) := by
  simp [pack, encrypt, hkey, h, Except.toOption]

/-- The encryption takes every message that is not too long. -/
theorem exists_encrypt? (key : Key) (nonce : Nonce) (data : Bytes) {body : Bytes}
    (h : body.length ≤ Ccm.maxLength) :
    ∃ packet, Ccm.encrypt? key nonce data body = some packet := by
  exact ⟨_, if_pos h⟩

@[simp] theorem role_pack (c : Cipher) (m : Message) : (c.pack m).1.role = c.role := by
  unfold pack
  split
  · exact role_encrypt c m.body
  · rfl

@[simp] theorem key_pack (c : Cipher) (m : Message) : (c.pack m).1.key = c.key := by
  unfold pack
  split
  · exact key_encrypt c m.body
  · rfl

/-- What packing a message does, once the key is known: the packet is as long as the message is on
the link, is not empty, and if it is encrypted, the nonce for sending has moved and the message is
read back under the old one. -/
theorem pack_spec {c : Cipher} {key : Key} (hkey : c.key = some key) {m : Message}
    (hm : m.Sendable) :
    (c.pack m).2.length = m.wireLength ∧ (c.pack m).2 ≠ [] ∧
      (m.encrypted = false → c.pack m = (c, m.body)) ∧
      (m.encrypted = true → (c.pack m).1 = c.advanceSend ∧
        Ccm.decrypt? key c.sendNonce associated (c.pack m).2 = some m.body) := by
  obtain ⟨body, encrypted⟩ := m
  cases encrypted with
  | false => exact ⟨rfl, hm, fun _ => rfl, nofun⟩
  | true =>
      obtain ⟨packet, hpacket⟩ := exists_encrypt? key c.sendNonce associated hm
      have hlen : packet.length = body.length + Ccm.tagSize := Ccm.length_of_encrypt? hpacket
      rw [pack_encrypted hkey hpacket]
      refine ⟨hlen, ?_, nofun, fun _ => ⟨rfl, Ccm.decrypt?_of_encrypt? hpacket⟩⟩
      -- The packet has at least a tag.
      rintro rfl
      rw [List.length_nil, Ccm.tagSize] at hlen
      omega

/-- Ends that agree on the direction in which one of them sends pack alike, and still agree. -/
theorem AgreesOn.pack {a b : Cipher} {m : Message} (h : AgreesOn a.role.outward a b)
    (hrole : a.role = b.role) :
    (a.pack m).2 = (b.pack m).2 ∧ AgreesOn a.role.outward (a.pack m).1 (b.pack m).1 := by
  have hnonce : a.sendNonce = b.sendNonce := by
    rw [sendNonce, sendNonce, ← hrole, h.2.2]
  have hadvance := h.advanceSend hrole
  obtain ⟨body, encrypted⟩ := m
  cases encrypted with
  | false => exact ⟨rfl, h⟩
  | true =>
      simp only [Cipher.pack, encrypt, if_true, h.1, hnonce]
      cases b.key with
      | none => exact ⟨rfl, h⟩
      | some key =>
          dsimp only
          cases Ccm.encrypt? key b.sendNonce associated body with
          | none => exact ⟨rfl, hadvance⟩
          | some packet => exact ⟨rfl, hadvance⟩

/-- Ends that agree on the direction in which one of them receives decrypt alike, and still
agree. -/
theorem AgreesOn.decrypt {a b : Cipher} (h : AgreesOn a.role.inward a b) (hrole : a.role = b.role)
    (packet : Bytes) :
    (a.decrypt packet).2 = (b.decrypt packet).2 ∧
      AgreesOn a.role.inward (a.decrypt packet).1 (b.decrypt packet).1 := by
  have hnonce : a.receiveNonce = b.receiveNonce := by
    rw [receiveNonce, receiveNonce, ← hrole, h.2.2]
  have hadvance := h.advanceReceive hrole
  simp only [Cipher.decrypt, h.1, hnonce]
  cases b.key with
  | none => exact ⟨rfl, h⟩
  | some key =>
      by_cases hlen : packet.length < Ccm.tagSize
      · simp only [if_pos hlen]
        exact ⟨trivial, hadvance⟩
      · simp only [if_neg hlen]
        cases Ccm.decrypt? key b.receiveNonce associated packet with
        | none => exact ⟨rfl, hadvance⟩
        | some message => exact ⟨rfl, hadvance⟩

/-- Packing a message does not touch the direction in which an end receives. -/
theorem agreesOn_pack (c : Cipher) (m : Message) : AgreesOn c.role.inward c (c.pack m).1 := by
  obtain ⟨body, encrypted⟩ := m
  cases encrypted with
  | false => exact .refl _ c
  | true =>
      have hadvance := agreesOn_advance_of_ne c c.role.outward_ne_inward
      simp only [Cipher.pack, encrypt, if_true]
      cases c.key with
      | none => exact .refl _ c
      | some key =>
          dsimp only
          cases Ccm.encrypt? key c.sendNonce associated body with
          | none => exact hadvance
          | some packet => exact hadvance

end Cipher

/-! ## Sending -/

/-- A writer that takes every fragment. -/
def Fragment.TakesAll (writer : Fragment.Writer) : Prop :=
  ∀ taken fragment, writer taken fragment = true

/-- A writer that takes every fragment after those before it takes them all. -/
theorem Fragment.offerAfter_of_takes {writer : Fragment.Writer} {taken fragments : List Bytes}
    (h : ∀ before fragment after, fragments = before ++ fragment :: after →
      writer (before.reverse ++ taken) fragment = true) :
    offerAfter writer taken fragments = ⟨taken.reverse ++ fragments, none⟩ := by
  induction fragments generalizing taken with
  | nil => rw [offerAfter, List.append_nil]
  | cons first rest ih =>
      have hfirst := h [] first rest rfl
      rw [List.reverse_nil, List.nil_append] at hfirst
      rw [offerAfter, if_pos hfirst, ih, List.reverse_cons, List.append_assoc,
        List.singleton_append]
      intro before fragment after hrest
      have hnext := h (first :: before) fragment after (by rw [hrest, List.cons_append])
      rwa [List.reverse_cons, List.append_assoc, List.singleton_append] at hnext

/-- A writer that takes every fragment takes those after the ones that it has taken. -/
theorem Fragment.offerAfter_of_takesAll {writer : Fragment.Writer} (h : TakesAll writer)
    (taken fragments : List Bytes) :
    offerAfter writer taken fragments = ⟨taken.reverse ++ fragments, none⟩ :=
  offerAfter_of_takes fun _ _ _ _ => h _ _

namespace Channel

/-- A packet goes out in its fragments if they are all taken. -/
theorem sendPacket_of_offer (c : Channel) {writer : Fragment.Writer} {packet : Bytes}
    {encrypted : Bool} (h : Fragment.offer writer (Fragment.split encrypted packet) =
      ⟨Fragment.split encrypted packet, none⟩) :
    c.sendPacket writer packet encrypted =
      { channel := c, offer := ⟨Fragment.split encrypted packet, none⟩, result := .ok () } := by
  simp [sendPacket, h]

/-- In plain a message goes out as it is, with or without a key. -/
theorem send_plain_of_takesAll (c : Channel) (message : Bytes) {writer : Fragment.Writer}
    (hwriter : Fragment.TakesAll writer) :
    c.send writer message false =
      { channel := c, offer := ⟨Fragment.split false message, none⟩, result := .ok () } :=
  c.sendPacket_of_offer (Fragment.offerAfter_of_takesAll hwriter [] _)

/-- A message that is sent goes out whole in the fragments of its packet. -/
theorem send_of_takesAll {c : Channel} {key : Key} (hkey : c.cipher.key = some key) {m : Message}
    (hm : m.Sendable) {writer : Fragment.Writer} (hwriter : Fragment.TakesAll writer) :
    c.send writer m.body m.encrypted =
      { channel := { c with cipher := (c.cipher.pack m).1 }
        offer := ⟨Fragment.split m.encrypted (c.cipher.pack m).2, none⟩
        result := .ok () } := by
  obtain ⟨body, encrypted⟩ := m
  cases encrypted with
  | false => exact c.send_plain_of_takesAll body hwriter
  | true =>
      obtain ⟨packet, hencrypt⟩ :=
        Cipher.exists_encrypt? key c.cipher.sendNonce Cipher.associated hm
      rw [Cipher.pack_encrypted hkey hencrypt]
      simp only [send, Cipher.encrypt, hkey, hencrypt, if_true]
      exact sendPacket_of_offer _ (Fragment.offerAfter_of_takesAll hwriter [] _)

/-! ## Receiving -/

/-- Two views of one end that differ at most in the direction that `d` is not. -/
def AgreesOn (d : Direction) (c c' : Channel) : Prop :=
  c.cipher.AgreesOn d c'.cipher ∧ c.reassembly = c'.reassembly

theorem AgreesOn.refl (d : Direction) (c : Channel) : AgreesOn d c c := ⟨.refl d _, rfl⟩

/-- Views that agree skip a fragment alike. -/
theorem AgreesOn.skip {c c' : Channel} (h : AgreesOn c.cipher.role.inward c c')
    (hrole : c.cipher.role = c'.cipher.role) (kind : FragmentKind) (buffer : Bytes) :
    AgreesOn c.cipher.role.inward (c.skip kind buffer).1 (c'.skip kind buffer).1 := by
  by_cases hkind : kind = .encrypted
  · simp only [Channel.skip, if_pos hkind]
    exact ⟨h.1.advanceReceive hrole, rfl⟩
  · simp only [Channel.skip, if_neg hkind]
    exact ⟨h.1, rfl⟩

/-- Views that agree take the end of a packet alike. -/
theorem AgreesOn.finish {c c' : Channel} (h : AgreesOn c.cipher.role.inward c c')
    (hrole : c.cipher.role = c'.cipher.role) (kind : FragmentKind) (packet : Bytes) :
    (c.finish kind packet).2 = (c'.finish kind packet).2 ∧
      AgreesOn c.cipher.role.inward (c.finish kind packet).1 (c'.finish kind packet).1 := by
  cases kind with
  | notFinished => exact ⟨rfl, h.1, rfl⟩
  | reserved => exact ⟨rfl, h.1, rfl⟩
  | plain => exact ⟨rfl, h.1, rfl⟩
  | encrypted =>
      obtain ⟨hresult, hcipher⟩ := h.1.decrypt hrole packet
      have hkey : c.cipher.hasKey = c'.cipher.hasKey := by
        rw [Cipher.hasKey, Cipher.hasKey, h.1.1]
      simp only [Channel.finish, hkey]
      by_cases hhas : c'.cipher.hasKey = true
      · rcases hdecrypt : c.cipher.decrypt packet with ⟨a, result⟩
        rcases hdecrypt' : c'.cipher.decrypt packet with ⟨b, result'⟩
        rw [hdecrypt, hdecrypt'] at hresult hcipher
        dsimp only at hresult hcipher
        subst hresult
        cases result with
        | ok message => simpa only [if_pos hhas, true_and] using ⟨hcipher, rfl⟩
        | error error => simpa only [if_pos hhas, true_and] using ⟨hcipher, rfl⟩
      · simp only [if_neg hhas]
        exact ⟨trivial, h.1, rfl⟩

/-- Views that agree receive alike, and still agree. -/
theorem AgreesOn.receive {c c' : Channel} (h : AgreesOn c.cipher.role.inward c c')
    (hrole : c.cipher.role = c'.cipher.role) (fragment : Bytes) :
    (c.receive fragment).2 = (c'.receive fragment).2 ∧
      AgreesOn c.cipher.role.inward (c.receive fragment).1 (c'.receive fragment).1 := by
  match fragment with
  | [] => exact ⟨rfl, h⟩
  | [_] => exact ⟨rfl, h⟩
  | header :: byte :: rest =>
      simp only [Channel.receive, ← h.2]
      cases c.reassembly.before (Fragment.isStart header) with
      | skipping buffer => exact ⟨rfl, h.skip hrole _ _⟩
      | collecting buffer =>
          dsimp only
          split
          · exact ⟨rfl, h.skip hrole _ _⟩
          · split
            · exact ⟨rfl, h.1, rfl⟩
            · exact h.finish hrole _ _

/-- A fragment does not touch the direction in which an end sends. -/
theorem agreesOn_receive (c : Channel) (fragment : Bytes) :
    c.cipher.AgreesOn c.cipher.role.outward (c.receive fragment).1.cipher := by
  rcases cipher_receive_eq_or c fragment with h | h
  · rw [h]
    exact .refl _ _
  · rw [h]
    exact Cipher.agreesOn_advance_of_ne c.cipher c.cipher.role.outward_ne_inward.symm

/-! ## Whole messages -/

/-- The end of the packet of a message: the message itself, if it is short enough.  In both cases
the receiver's nonce moves as the sender's has moved. -/
theorem conclude_pack {a : Cipher} {c : Channel} {key : Key} (hkey : c.cipher.key = some key)
    (hrole : a.role = c.cipher.role.peer) (h : a.AgreesOn c.cipher.role.inward c.cipher)
    {m : Message} (hm : m.Sendable) :
    let packet := (a.pack m).2
    let last := c.conclude (Fragment.lastKind m.encrypted) (Reassembly.ofPacket packet)
    last.2 = (if m.Fits then m.received else .skipping false) ∧
      (a.pack m).1.AgreesOn c.cipher.role.inward last.1.cipher := by
  obtain ⟨hlen, -, hplain, hencrypted⟩ := Cipher.pack_spec (h.1.trans hkey) hm
  have hadvance : m.encrypted = true →
      (a.pack m).1.AgreesOn c.cipher.role.inward c.cipher.advanceReceive := by
    intro henc
    rw [(hencrypted henc).1]
    exact h.advanceSend_advanceReceive hrole
  have hstay : m.encrypted = false → (a.pack m).1.AgreesOn c.cipher.role.inward c.cipher := by
    intro hpl
    rw [hplain hpl]
    exact h
  dsimp only
  by_cases hfits : m.Fits
  · rw [if_pos hfits, Reassembly.ofPacket_of_le (Nat.le_trans (Nat.le_of_eq hlen) hfits)]
    cases henc : m.encrypted with
    | false =>
        refine ⟨?_, hstay henc⟩
        rw [hplain henc, Message.received, henc]
        rfl
    | true =>
        obtain ⟨-, hdecrypt⟩ := hencrypted henc
        constructor
        · rw [conclude, Message.received, henc, Fragment.lastKind, if_pos rfl,
            snd_finish_eq_complete_iff]
          exact .inr ⟨rfl, rfl, key, hkey, h.sendNonce_eq hrole ▸ hdecrypt⟩
        · rw [conclude, Fragment.lastKind, if_pos rfl, cipher_finish_eq,
            if_pos ⟨rfl, by rw [Cipher.hasKey, hkey]; rfl⟩]
          exact hadvance henc
  -- A packet that is too long is skipped, and its last fragment moves the nonce all the same.
  · obtain ⟨kept, hkept⟩ :=
      Reassembly.exists_ofPacket_eq_skipping (hlen.symm ▸ Nat.lt_of_not_le hfits)
    rw [if_neg hfits, hkept]
    cases henc : m.encrypted with
    | false => exact ⟨rfl, hstay henc⟩
    | true => exact ⟨rfl, hadvance henc⟩

/-- A whole message, received: nothing of note before its last fragment, and with that one the
message, if it is short enough. -/
theorem receiveAll_pack {a : Cipher} {c : Channel} {key : Key} (hkey : c.cipher.key = some key)
    (hrole : a.role = c.cipher.role.peer) (h : a.AgreesOn c.cipher.role.inward c.cipher)
    {m : Message} (hm : m.Sendable) :
    ∃ (after : Channel) (quiet : List Received), (∀ r ∈ quiet, r.IsQuiet) ∧
      c.receiveAll (Fragment.split m.encrypted (a.pack m).2) =
        (after, quiet ++ [if m.Fits then m.received else .skipping false]) ∧
      (a.pack m).1.AgreesOn c.cipher.role.inward after.cipher := by
  obtain ⟨-, hne, -⟩ := Cipher.pack_spec (h.1.trans hkey) hm
  obtain ⟨quiet, hquiet, heq⟩ := receiveAll_split c m.encrypted hne
  obtain ⟨hlast, hagrees⟩ := conclude_pack hkey hrole h hm
  refine ⟨_, quiet, hquiet, ?_, hagrees⟩
  rw [heq, ← hlast]

@[simp] theorem role_receiveAll (c : Channel) (fragments : List Bytes) :
    (c.receiveAll fragments).1.cipher.role = c.cipher.role := by
  induction fragments generalizing c with
  | nil => rfl
  | cons fragment rest ih => rw [receiveAll, ih, role_receive]

@[simp] theorem key_receiveAll (c : Channel) (fragments : List Bytes) :
    (c.receiveAll fragments).1.cipher.key = c.cipher.key := by
  induction fragments generalizing c with
  | nil => rfl
  | cons fragment rest ih => rw [receiveAll, ih, key_receive]

end Channel

end SmartLock
