/-
# Messages of one fragment

All messages of a login are so short that each travels in a single fragment.  One that is sent in
plain is read whatever state the receiver is in (`Channel.receive_plain`); one that is encrypted is
read by an end that agrees with the sender, and both still agree after it
(`Channel.receive_pack`).

A login begins with two such messages in plain: the device tells a token (`greeting`), and the
client answers with the start of the key for it (`loginRequest`).
-/
import SmartLock.Catalog.Code
import SmartLock.Proofs.Link.Stream

namespace SmartLock

namespace Fragment

/-- The fragment around a whole packet. -/
def whole (encrypted : Bool) (packet : Bytes) : Bytes :=
  header true (lastKind encrypted) :: packet

/-- A short packet has a single piece. -/
theorem pieces_of_length_le {packet : Bytes} (hne : packet ≠ [])
    (h : packet.length ≤ payloadSize) : packet.pieces payloadSize = [packet] := by
  obtain ⟨byte, rest, rfl⟩ := List.exists_cons_of_ne_nil hne
  rw [Bytes.pieces, List.length_cons, piecesWithin, if_neg (by simp), List.take_of_length_le h,
    List.drop_eq_nil_of_le h]
  cases rest.length <;> rfl

/-- A short packet travels in a single fragment. -/
theorem split_of_length_le (encrypted : Bool) {packet : Bytes} (hne : packet ≠ [])
    (h : packet.length ≤ payloadSize) : split encrypted packet = [whole encrypted packet] := by
  rw [split, pieces_of_length_le hne h]
  rfl

end Fragment

namespace Message

/-- A message that is short enough for a single fragment. -/
structure IsShort (m : Message) : Prop where
  sendable : m.Sendable
  wireLength_le : m.wireLength ≤ Fragment.payloadSize

/-- A short message is also short enough to be delivered. -/
theorem IsShort.fits {m : Message} (h : m.IsShort) : m.Fits :=
  Nat.le_trans h.wireLength_le (by decide)

end Message

namespace Channel

/-- In plain a short message goes out in a single fragment. -/
theorem send_plain (c : Channel) {message : Bytes} (hne : message ≠ [])
    (h : message.length ≤ Fragment.payloadSize) {writer : Fragment.Writer}
    (hwriter : Fragment.TakesAll writer) :
    c.send writer message false =
      { channel := c, offer := ⟨[Fragment.whole false message], none⟩, result := .ok () } := by
  rw [c.send_plain_of_takesAll message hwriter, Fragment.split_of_length_le false hne h]

/-- A short message in plain is read in every state, and changes nothing but that it stays in the
buffer and what follows is skipped up to the next packet. -/
theorem receive_plain (c : Channel) {message : Bytes} (hne : message ≠ [])
    (h : message.length ≤ Fragment.payloadSize) :
    c.receive (Fragment.whole false message) =
      ({ c with reassembly := .skipping message }, .complete message false) := by
  have hlen : ¬ ([] : Bytes).length + message.length > maxReceived := by
    rw [Fragment.payloadSize] at h
    rw [maxReceived, List.length_nil]
    omega
  rw [Fragment.whole, receive_header_lastKind c true false hne, Reassembly.before_true,
    Reassembly.grow, if_neg hlen]
  rfl

section Pack

variable {a : Cipher} {c : Channel} {key : Key} {m : Message} (hkey : c.cipher.key = some key)
  (hrole : a.role = c.cipher.role.peer) (h : a.AgreesOn c.cipher.role.inward c.cipher)
  (hm : m.IsShort)

include hkey h hm

/-- The single fragment of a short message. -/
theorem split_pack : Fragment.split m.encrypted (a.pack m).2 =
    [Fragment.whole m.encrypted (a.pack m).2] := by
  obtain ⟨hlen, hne, -⟩ := Cipher.pack_spec (h.1.trans hkey) hm.sendable
  exact Fragment.split_of_length_le _ hne (hlen ▸ hm.wireLength_le)

include hrole

/-- A short message is read by an end that agrees with its sender, and both agree after it. -/
theorem receive_pack :
    (c.receive (Fragment.whole m.encrypted (a.pack m).2)).2 = m.received ∧
      (a.pack m).1.AgreesOn c.cipher.role.inward
        (c.receive (Fragment.whole m.encrypted (a.pack m).2)).1.cipher := by
  obtain ⟨after, quiet, -, heq, hafter⟩ := receiveAll_pack hkey hrole h hm.sendable
  rw [split_pack hkey h hm, if_pos hm.fits] at heq
  obtain ⟨rfl, hreceived⟩ := Prod.mk.inj heq
  -- There is one fragment, so nothing comes before the message.
  rcases quiet with _ | ⟨first, rest⟩
  · exact ⟨by simpa [receiveAll] using hreceived, hafter⟩
  · have hlength := congrArg List.length hreceived
    simp [receiveAll] at hlength

omit h in
/-- Ends that agree in both directions still do so after a short message from one to the other. -/
theorem agreesOn_receive_pack (hagrees : ∀ direction, a.AgreesOn direction c.cipher)
    (direction : Direction) : (a.pack m).1.AgreesOn direction
      (c.receive (Fragment.whole m.encrypted (a.pack m).2)).1.cipher := by
  have hsender := Cipher.agreesOn_pack a m
  have hreceiver := agreesOn_receive c (Fragment.whole m.encrypted (a.pack m).2)
  have hother : a.role.inward = c.cipher.role.outward := by
    rw [hrole]
    cases c.cipher.role <;> rfl
  rw [hother] at hsender
  have hdirection : direction = c.cipher.role.inward ∨ direction = c.cipher.role.outward := by
    cases direction <;> cases c.cipher.role <;> simp [Role.inward, Role.outward]
  rcases hdirection with rfl | rfl
  · exact (receive_pack hkey hrole (hagrees _) hm).2
  -- Neither the sender nor the receiver touches the other direction.
  · exact hsender.symm.trans ((hagrees _).trans hreceiver)

end Pack

end Channel

/-! ## The beginning of a login -/

/-- The message by which a device tells its token. -/
def greeting (token : Token) : Bytes :=
  OpCode.publish.code :: ItemCode.initial.code :: token.toBytes

/-- The message by which a client of the third generation logs in under a session key. -/
def loginRequest (key : Key) : Bytes :=
  ItemCode.login.code :: key.toBytes.take Cipher.codeSize

/-- A token is told in a single fragment. -/
theorem length_greeting_le (token : Token) :
    (greeting token).length ≤ Fragment.payloadSize := by
  rw [greeting, List.length_cons, List.length_cons, token.length_toBytes]
  decide

/-- A login is sent in a single fragment. -/
theorem length_loginRequest_le (key : Key) :
    (loginRequest key).length ≤ Fragment.payloadSize := by
  rw [loginRequest, List.length_cons, List.length_take, key.length_toBytes]
  decide

/-- A token is read in every state of the receiver. -/
theorem Channel.receive_greeting (c : Channel) (token : Token) :
    c.receive (Fragment.whole false (greeting token)) =
      ({ c with reassembly := .skipping (greeting token) }, .complete (greeting token) false) :=
  c.receive_plain (List.cons_ne_nil _ _) (length_greeting_le token)

/-- A login is read in every state of the receiver. -/
theorem Channel.receive_loginRequest (c : Channel) (key : Key) :
    c.receive (Fragment.whole false (loginRequest key)) =
      ({ c with reassembly := .skipping (loginRequest key) },
        .complete (loginRequest key) false) :=
  c.receive_plain (List.cons_ne_nil _ _) (length_loginRequest_le key)

end SmartLock
