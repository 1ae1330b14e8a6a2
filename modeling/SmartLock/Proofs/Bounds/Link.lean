/-
# Links with partial access

The steps of a link, each built from accesses that may fail: how counters are written to nonces,
how a message is encrypted and put in fragments, and how a fragment is received.  None of the
accesses fails, and each step gives what the link gives
(`Channel.receiveChecked_eq`, `Channel.sendChecked_eq`).
-/
import SmartLock.Crypto.KeyPair
import SmartLock.Link.Channel
import SmartLock.Proofs.Bounds.Access

namespace SmartLock

/-! ## Keys -/

namespace PublicKey

/-- The point of a key from its encoding in 65 bytes: a mark, then the two coordinates. -/
def pointChecked (key : PublicKey) : Option (Option Curve.Point) := do
  let marked ← (Octets.zero 65).set? 0 0x04
  let encoded ← marked.copy? 1 65 key.toBytes
  return Curve.Point.ofAffine? (ofBigEndian ((encoded.toBytes.drop 1).take 32))
    (ofBigEndian (encoded.toBytes.drop 33))

/-- The key of a point from its encoding in 65 bytes. -/
def ofPointChecked (u : Curve.Point) : Option PublicKey := do
  let encoded : Bytes := 0x04 :: (ofPoint u).toBytes
  Octets.copyOf? 64 (← encoded.rest? 1)

/-- Every key is read. -/
@[simp] theorem pointChecked_eq (key : PublicKey) : key.pointChecked = some key.point? := by
  have hmarked : (Octets.ofBytes 65 []).set? 0 0x04 = some (Octets.ofBytes 65 [0x04]) :=
    Octets.set?_ofBytes rfl (by decide) 0x04
  have hencoded : (Octets.ofBytes 65 [0x04]).copy? 1 65 key.toBytes =
      some (Octets.ofBytes 65 (0x04 :: key.toBytes)) :=
    Octets.copy?_ofBytes rfl (by rw [key.length_toBytes]) (Nat.le_refl 65)
  have hbytes : (Octets.ofBytes 65 (0x04 :: key.toBytes)).toBytes = 0x04 :: key.toBytes :=
    Octets.toBytes_ofBytes (by simp [key.length_toBytes])
  rw [pointChecked, ← Octets.ofBytes_nil, hmarked,
    Option.bind_eq_bind, Option.bind_some, hencoded, Option.bind_some, hbytes]
  rfl

/-- Every point is written. -/
@[simp] theorem ofPointChecked_eq (u : Curve.Point) : ofPointChecked u = some (ofPoint u) := by
  have hrest : Bytes.rest? (0x04 :: (ofPoint u).toBytes) 1 = some (ofPoint u).toBytes :=
    Bytes.rest?_eq (by simp)
  rw [ofPointChecked, hrest, Option.bind_eq_bind, Option.bind_some,
    Octets.copyOf?_eq (ofPoint u).length_toBytes, Octets.ofBytes_toBytes]

end PublicKey

namespace PrivateKey

/-- The public key of a private key, from its encoding. -/
def publicKeyChecked (k : PrivateKey) : Option PublicKey :=
  PublicKey.ofPointChecked (Curve.Point.smul k.factor .base)

/-- The shared secret, copied to an array. -/
def sharedSecretChecked (k : PrivateKey) (peer : PublicKey) :
    Option (Except CryptoError (Octets 32)) := do
  match ← peer.pointChecked with
  | some u =>
      let coordinate := bigEndian 32 (Curve.Point.smul k.factor u).affine.1
      return .ok (← Octets.copyOf? 32 coordinate)
  | none => return .error .invalidPublicKey

/-- The first sixteen bytes of the shared secret, copied to an array. -/
def sharedKeyChecked (k : PrivateKey) (peer : PublicKey) : Option (Except CryptoError Key) := do
  match ← k.sharedSecretChecked peer with
  | .ok secret => return .ok (← Octets.copyOf? 16 (← secret.toBytes.front? 16))
  | .error error => return .error error

/-- Every private key has its public key. -/
@[simp] theorem publicKeyChecked_eq (k : PrivateKey) : k.publicKeyChecked = some k.publicKey :=
  PublicKey.ofPointChecked_eq _

/-- No access of the key agreement fails. -/
@[simp] theorem sharedKeyChecked_eq (k : PrivateKey) (peer : PublicKey) :
    k.sharedKeyChecked peer = some (k.sharedKey peer) := by
  have hsecret : k.sharedSecretChecked peer = some (k.sharedSecret peer) := by
    rw [sharedSecretChecked, PublicKey.pointChecked_eq, sharedSecret]
    cases peer.point? with
    | none => rfl
    | some u => simp [Octets.copyOf?_eq]
  rw [sharedKeyChecked, hsecret, sharedKey]
  cases k.sharedSecret peer with
  | error error => rfl
  | ok secret =>
      have hlength : 16 ≤ secret.toBytes.length := by simp [secret.length_toBytes]
      simp [Bytes.front?_eq hlength, Octets.copyOf?_eq, hlength, Octets.ofBytes_take hlength,
        Except.map]

end PrivateKey

/-! ## Nonces -/

/-- A counter written to its nonce. -/
def writeCounterChecked (nonce : Nonce) (count : UInt64) : Option Nonce := do
  nonce.copy? 0 5 (← Bytes.front? (littleEndian 8 count.toNat) 5)

/-- Every counter is written. -/
@[simp] theorem writeCounterChecked_eq (nonce : Nonce) (count : UInt64) :
    writeCounterChecked nonce count = some (writeCounter nonce count) := by
  have hlow : Bytes.front? (littleEndian 8 count.toNat) 5 = some (littleEndian 5 count.toNat) := by
    rw [Bytes.front?_eq (by simp), take_littleEndian (by decide)]
  have hwritten : nonce.copy? 0 5 (littleEndian 5 count.toNat) = some (writeCounter nonce count) :=
    Octets.copy?_eq (by decide) (by decide) (length_littleEndian 5 _)
      (Octets.toBytes_ofBytes (by simp [nonce.length_toBytes]))
  rw [writeCounterChecked, hlow, Option.bind_eq_bind, Option.bind_some, hwritten]

/-- A nonce, one step on. -/
def NonceState.advanceChecked (rule : NonceRule) (direction : Direction) (s : NonceState) :
    Option NonceState := do
  let count := rule.next direction s.count
  return ⟨← writeCounterChecked s.nonce count, count⟩

namespace Nonces

/-- One direction, a step on. -/
def advanceChecked (rule : NonceRule) (nonces : Nonces) : Direction → Option Nonces
  | .toPeripheral => do
      return { nonces with
        toPeripheral := ← nonces.toPeripheral.advanceChecked rule .toPeripheral }
  | .toCentral => do
      return { nonces with toCentral := ← nonces.toCentral.advanceChecked rule .toCentral }

/-- The nonces of a new link, with the tokens copied to their places. -/
def startChecked (rule : NonceRule) (central peripheral : Token) : Option Nonces :=
  match rule with
  | .os2 => do
      let nonce ← (Octets.zero 13).copy? 5 9 central.toBytes
      let nonce ← nonce.copy? 9 13 peripheral.toBytes
      return ⟨⟨← writeCounterChecked nonce outwardBit, outwardBit⟩, ⟨nonce, 0⟩⟩
  | .os3 => do
      let nonce ← (Octets.zero 13).copy? 9 13 peripheral.toBytes
      return ⟨⟨nonce, 0⟩, ⟨nonce, 0⟩⟩

/-- Every step can be taken. -/
@[simp] theorem advanceChecked_eq (rule : NonceRule) (nonces : Nonces) (direction : Direction) :
    nonces.advanceChecked rule direction = some (nonces.advance rule direction) := by
  cases direction <;>
    simp [advanceChecked, advance, NonceState.advanceChecked, NonceState.advance]

/-- Every two tokens start a link. -/
@[simp] theorem startChecked_eq (rule : NonceRule) (central peripheral : Token) :
    startChecked rule central peripheral = some (start rule central peripheral) := by
  have hcentral := central.length_toBytes
  have hperipheral := peripheral.length_toBytes
  cases rule with
  | os2 =>
      have hfirst : (Octets.ofBytes 13 (List.replicate 5 0)).copy? 5 9 central.toBytes =
          some (Octets.ofBytes 13 (List.replicate 5 0 ++ central.toBytes)) :=
        Octets.copy?_ofBytes (by simp) (by omega) (by decide)
      have hboth : (Octets.ofBytes 13 (List.replicate 5 0 ++ central.toBytes)).copy? 9 13
            peripheral.toBytes =
          some (Octets.ofBytes 13 (List.replicate 5 0 ++ central.toBytes ++ peripheral.toBytes)) :=
        Octets.copy?_ofBytes (by simp [hcentral]) (by omega) (by decide)
      rw [Octets.ofBytes_replicate (by decide)] at hfirst
      simp only [startChecked, hfirst, hboth, writeCounterChecked_eq, Option.bind_eq_bind,
        Option.bind_some]
      rfl
  | os3 =>
      have honly : (Octets.ofBytes 13 (List.replicate 9 0)).copy? 9 13 peripheral.toBytes =
          some (Octets.ofBytes 13 (List.replicate 9 0 ++ peripheral.toBytes)) :=
        Octets.copy?_ofBytes (by simp) (by omega) (by decide)
      rw [Octets.ofBytes_replicate (by decide)] at honly
      simp only [startChecked, honly, Option.bind_eq_bind, Option.bind_some]
      rfl

end Nonces

/-! ## Encryption -/

namespace Cipher

/-- One step of the nonce for sending. -/
def advanceSendChecked (c : Cipher) : Option Cipher := do
  return { c with nonces := ← c.nonces.advanceChecked c.rule c.role.outward }

/-- One step of the nonce for receiving. -/
def advanceReceiveChecked (c : Cipher) : Option Cipher := do
  return { c with nonces := ← c.nonces.advanceChecked c.rule c.role.inward }

/-- The end with a new session key. -/
def withKeyChecked (c : Cipher) (key : Key) (own peer : Token) : Option Cipher := do
  let nonces ←
    match c.role with
    | .central => Nonces.startChecked c.rule own peer
    | .peripheral => Nonces.startChecked c.rule peer own
  return { c with key := some key, nonces := nonces }

/-- A message encrypted under the nonce for sending. -/
def encryptChecked (c : Cipher) (message : Bytes) : Option (Cipher × Except CryptoError Bytes) :=
  match c.key with
  | none => some (c, .error .keyNotPrepared)
  | some key => do
      let nonce ← Octets.ofBytes? 13 c.sendNonce.toBytes
      let moved ← c.advanceSendChecked
      match Ccm.encrypt? key nonce associated message with
      | some encrypted => return (moved, .ok encrypted)
      | none => return (moved, .error .encrypt)

/-- The message of an encrypted one under the nonce for receiving. -/
def decryptChecked (c : Cipher) (encrypted : Bytes) : Option (Cipher × Except CryptoError Bytes) :=
  match c.key with
  | none => some (c, .error .keyNotPrepared)
  | some key => do
      if encrypted.length < Ccm.tagSize then
        return (← c.advanceReceiveChecked, .error (.tooShort encrypted.length))
      else
        let nonce ← Octets.ofBytes? 13 c.receiveNonce.toBytes
        let moved ← c.advanceReceiveChecked
        match Ccm.decrypt? key nonce associated encrypted with
        | some message => return (moved, .ok message)
        | none => return (moved, .error .decrypt)

/-- Whether a login code is the start of the session key. -/
def verifyCodeChecked (c : Cipher) (code : Bytes) : Option Bool :=
  match c.key with
  | none => some false
  | some key => do return code = (← key.toBytes.front? codeSize)

variable (c : Cipher)

/-- The nonce for sending can move. -/
@[simp] theorem advanceSendChecked_eq : c.advanceSendChecked = some c.advanceSend := by
  simp [advanceSendChecked, advanceSend]

/-- The nonce for receiving can move. -/
@[simp] theorem advanceReceiveChecked_eq : c.advanceReceiveChecked = some c.advanceReceive := by
  simp [advanceReceiveChecked, advanceReceive]

/-- Every session key can be taken. -/
@[simp] theorem withKeyChecked_eq (key : Key) (own peer : Token) :
    c.withKeyChecked key own peer = some (c.withKey key own peer) := by
  rw [withKeyChecked, withKey]
  cases c.role <;> simp

/-- No access of the encryption fails. -/
@[simp] theorem encryptChecked_eq (message : Bytes) :
    c.encryptChecked message = some (c.encrypt message) := by
  rw [encryptChecked, encrypt]
  cases c.key with
  | none => rfl
  | some key => cases h : Ccm.encrypt? key c.sendNonce associated message <;> simp [h]

/-- No access of the decryption fails. -/
@[simp] theorem decryptChecked_eq (encrypted : Bytes) :
    c.decryptChecked encrypted = some (c.decrypt encrypted) := by
  rw [decryptChecked, decrypt]
  cases c.key with
  | none => rfl
  | some key =>
      by_cases hshort : encrypted.length < Ccm.tagSize
      · simp [hshort]
      · cases h : Ccm.decrypt? key c.receiveNonce associated encrypted <;> simp [hshort, h]

/-- The bytes of a key that a login code shows are there. -/
theorem front?_code (key : Key) :
    key.toBytes.front? codeSize = some (key.toBytes.take codeSize) :=
  Bytes.front?_eq (by rw [key.length_toBytes]; decide)

/-- Every login code can be compared. -/
@[simp] theorem verifyCodeChecked_eq (code : Bytes) :
    c.verifyCodeChecked code = some (c.verifyCode code) := by
  rw [verifyCodeChecked, verifyCode]
  cases c.key with
  | none => rfl
  | some key =>
      simp only [front?_code]
      rfl

end Cipher

/-! ## Fragments -/

namespace Fragment

/-- A fragment, laid out in a buffer of twenty bytes that still holds the one before it. -/
def fillChecked (buffer : Octets 20) (header : UInt8) (piece : Bytes) :
    Option (Octets 20 × Bytes) := do
  let buffer ← buffer.set? 0 header
  let buffer ← buffer.copy? 1 (piece.length + 1) piece
  return (buffer, ← buffer.toBytes.front? (piece.length + 1))

/-- Fragments around pieces, each laid out in the buffer and offered before the next one. -/
def offerChecked (writer : Writer) (encrypted : Bool) :
    Octets 20 → List Bytes → Bool → List Bytes → Option Offer
  | _, taken, _, [] => some ⟨taken.reverse, none⟩
  | buffer, taken, start, piece :: rest => do
      let kind := if rest.isEmpty then lastKind encrypted else .notFinished
      let (buffer, fragment) ← fillChecked buffer (header start kind) piece
      if writer taken fragment then
        offerChecked writer encrypted buffer (fragment :: taken) false rest
      else return ⟨taken.reverse, some fragment⟩

/-- A piece of a packet fits into the buffer behind its header. -/
theorem exists_fillChecked (buffer : Octets 20) (header : UInt8) {piece : Bytes}
    (h : piece.length ≤ payloadSize) :
    ∃ filled, fillChecked buffer header piece = some (filled, header :: piece) := by
  rw [payloadSize] at h
  have hbuffer := buffer.length_toBytes
  let marked : Octets 20 := ⟨buffer.toBytes.set 0 header, by simp [hbuffer]⟩
  have hmarked : buffer.set? 0 header = some marked := Octets.set?_eq (by decide) header rfl
  have hfirst : (buffer.toBytes.set 0 header).take 1 = [header] := by
    cases hbytes : buffer.toBytes with
    | nil => simp [hbytes] at hbuffer
    | cons first rest => rfl
  let filled : Octets 20 :=
    ⟨header :: piece ++ buffer.toBytes.drop (piece.length + 1), by simp [hbuffer]; omega⟩
  have hfilled : marked.copy? 1 (piece.length + 1) piece = some filled := by
    refine Octets.copy?_eq (by omega) (by omega) (by omega) ?_
    rw [hfirst, List.drop_set_of_lt (by omega)]
    rfl
  have hfront : filled.toBytes.front? (piece.length + 1) = some (header :: piece) := by
    rw [Bytes.front?_eq (by rw [filled.length_toBytes]; omega)]
    exact congrArg some (List.take_left' rfl)
  exact ⟨filled, by simp [fillChecked, hmarked, hfilled, hfront]⟩

/-- Pieces that are not too long are offered as their fragments. -/
theorem offerChecked_eq (writer : Writer) (encrypted : Bool) {pieces : List Bytes}
    (h : ∀ piece ∈ pieces, piece.length ≤ payloadSize) (buffer : Octets 20) (taken : List Bytes)
    (start : Bool) :
    offerChecked writer encrypted buffer taken start pieces =
      some (offerAfter writer taken (wrap encrypted start pieces)) := by
  induction pieces generalizing buffer taken start with
  | nil => rfl
  | cons piece rest ih =>
      obtain ⟨hpiece, hrest⟩ := List.forall_mem_cons.mp h
      let kind := if rest.isEmpty then lastKind encrypted else .notFinished
      have hwrap : wrap encrypted start (piece :: rest) =
          (header start kind :: piece) :: wrap encrypted false rest := by
        cases rest <;> rfl
      obtain ⟨filled, hfilled⟩ := exists_fillChecked buffer (header start kind) hpiece
      simp only [offerChecked, hwrap, offerAfter]
      rw [hfilled, Option.bind_eq_bind, Option.bind_some]
      cases writer taken (header start kind :: piece) with
      | false => rfl
      | true => exact ih hrest filled _ false

end Fragment

/-- No piece is longer than its size. -/
theorem length_le_of_mem_piecesWithin {size fuel : Nat} {b piece : Bytes}
    (h : piece ∈ piecesWithin size fuel b) : piece.length ≤ size := by
  induction fuel generalizing b with
  | zero => cases h
  | succ fuel ih =>
      rw [piecesWithin] at h
      split at h
      · cases h
      · rcases List.mem_cons.mp h with rfl | h
        · exact List.length_take_le ..
        · exact ih h

/-! ## Channels -/

namespace Channel

/-- The end with a new session key. -/
def withKeyChecked (c : Channel) (key : Key) (own peer : Token) : Option Channel := do
  return { c with cipher := ← c.cipher.withKeyChecked key own peer }

/-- The fragment is skipped. -/
def skipChecked (c : Channel) (kind : FragmentKind) (buffer : Bytes) :
    Option (Channel × Received) := do
  let cipher ← if kind = .encrypted then c.cipher.advanceReceiveChecked else some c.cipher
  return (⟨cipher, .skipping buffer⟩, .skipping false)

/-- A packet is complete. -/
def finishChecked (c : Channel) (kind : FragmentKind) (packet : Bytes) :
    Option (Channel × Received) :=
  let rest : Channel := { c with reassembly := .skipping packet }
  match kind with
  | .encrypted =>
      if c.cipher.hasKey then do
        match ← c.cipher.decryptChecked packet with
        | (cipher, .ok message) => return (⟨cipher, .skipping message⟩, .complete message true)
        | (cipher, .error error) =>
            return ({ rest with cipher := cipher }, .skipping (error = .decrypt))
      else some (rest, .skipping false)
  | .plain => some (rest, .complete packet false)
  | _ => some (rest, .skipping false)

/-- The channel after a fragment, and what the fragment led to. -/
def receiveChecked (c : Channel) : Bytes → Option (Channel × Received)
  | [] => some (c, .dropped)
  | [_] => some (c, .dropped)
  | header :: payload =>
      let kind := Fragment.kind header
      match c.reassembly.before (Fragment.isStart header) with
      | .skipping buffer => c.skipChecked kind buffer
      | .collecting buffer =>
          if buffer.length + payload.length > maxReceived then c.skipChecked kind buffer
          else if kind = .notFinished then
            some ({ c with reassembly := .collecting (buffer ++ payload) }, .requireMore)
          else c.finishChecked kind (buffer ++ payload)

/-- A packet offered to the writer in fragments. -/
def sendPacketChecked (c : Channel) (writer : Fragment.Writer) (packet : Bytes) (encrypted : Bool) :
    Option Sent := do
  let offer ← Fragment.offerChecked writer encrypted (Octets.zero 20) [] true
    (packet.pieces Fragment.payloadSize)
  return {
    channel := c
    offer := offer
    result := if offer.refused.isSome then .error (.writeFailed offer.taken.length) else .ok () }

/-- A message, encrypted if wanted, offered to the writer in fragments. -/
def sendChecked (c : Channel) (writer : Fragment.Writer) (message : Bytes) (encrypted : Bool) :
    Option Sent :=
  if encrypted then do
    match ← c.cipher.encryptChecked message with
    | (cipher, .ok packet) =>
        ({ c with cipher := cipher } : Channel).sendPacketChecked writer packet true
    | (cipher, .error error) =>
        return { channel := { c with cipher := cipher }, result := .error (.crypto error) }
  else c.sendPacketChecked writer message false

variable (c : Channel)

/-- Every session key can be taken. -/
@[simp] theorem withKeyChecked_eq (key : Key) (own peer : Token) :
    c.withKeyChecked key own peer = some (c.withKey key own peer) := by
  simp [withKeyChecked, withKey]

/-- Every fragment can be skipped. -/
@[simp] theorem skipChecked_eq (kind : FragmentKind) (buffer : Bytes) :
    c.skipChecked kind buffer = some (c.skip kind buffer) := by
  rw [skipChecked, skip]
  split <;> simp

/-- No access at the end of a packet fails. -/
@[simp] theorem finishChecked_eq (kind : FragmentKind) (packet : Bytes) :
    c.finishChecked kind packet = some (c.finish kind packet) := by
  cases kind with
  | encrypted =>
      simp only [finishChecked, finish]
      split
      · rcases h : c.cipher.decrypt packet with ⟨cipher, error | message⟩ <;> simp [h]
      · rfl
  | _ => rfl

/-- **No access to a fragment fails**, and the link receives what it receives. -/
@[simp] theorem receiveChecked_eq (fragment : Bytes) :
    c.receiveChecked fragment = some (c.receive fragment) := by
  match fragment with
  | [] | [_] => rfl
  | header :: first :: payload =>
      simp only [receiveChecked, receive, skipChecked_eq, finishChecked_eq]
      cases c.reassembly.before (Fragment.isStart header) with
      | skipping buffer => rfl
      | collecting buffer =>
          simp only []
          split
          · rfl
          · split <;> rfl

/-- No access to the buffer of the fragments fails. -/
@[simp] theorem sendPacketChecked_eq (writer : Fragment.Writer) (packet : Bytes)
    (encrypted : Bool) :
    c.sendPacketChecked writer packet encrypted = some (c.sendPacket writer packet encrypted) := by
  have hpieces : ∀ piece ∈ packet.pieces Fragment.payloadSize,
      piece.length ≤ Fragment.payloadSize := fun _ => length_le_of_mem_piecesWithin
  rw [sendPacketChecked, Fragment.offerChecked_eq writer encrypted hpieces]
  rfl

/-- **No access while a message is sent fails**, and the link sends what it sends. -/
@[simp] theorem sendChecked_eq (writer : Fragment.Writer) (message : Bytes) (encrypted : Bool) :
    c.sendChecked writer message encrypted = some (c.send writer message encrypted) := by
  rw [sendChecked, send]
  cases encrypted with
  | false => exact c.sendPacketChecked_eq writer message false
  | true => rcases h : c.cipher.encrypt message with ⟨cipher, error | packet⟩ <;> simp [h]

end Channel

end SmartLock
