/-
# Channels

One party's end of a link that carries messages: the cipher, and the packet that is being put
together from received fragments.

A packet that grows over `maxReceived` bytes is given up, and so is every fragment up to the
next one that starts a packet.  An encrypted last fragment moves the nonce for receiving even
when its packet has been given up, because the sender has moved it too.
-/
import SmartLock.Link.Cipher
import SmartLock.Link.Fragment

namespace SmartLock

/-! ## Results -/

/-- Why a message was not sent. -/
inductive LinkError where
  | writeFailed (index : Nat)
  | crypto (error : CryptoError)
  deriving DecidableEq, Repr

/-- The text that tells a user what failed. -/
def LinkError.message : LinkError → String
  | .writeFailed index => s!"Failed to write fragment {index}"
  | .crypto error => error.message

/-- What a received fragment led to. -/
inductive Received where
  /-- A fragment without payload is dropped. -/
  | dropped
  /-- The packet is given up; `forged` if its tag was wrong. -/
  | skipping (forged : Bool)
  /-- More fragments are needed. -/
  | requireMore
  /-- A message is complete; `authenticated` if it was encrypted and its tag was right. -/
  | complete (message : Bytes) (authenticated : Bool)
  deriving DecidableEq, Repr, Inhabited

/-- The packet that is being put together, or what the buffer holds after the last one. -/
inductive Reassembly where
  /-- Everything is skipped up to the next first fragment.  The buffer stays as the last packet has
  left it. -/
  | skipping (buffer : Bytes)
  /-- The payloads received so far. -/
  | collecting (buffer : Bytes)
  deriving DecidableEq, Repr

/-- A new reassembly collects from the first fragment on, whatever its start mark. -/
instance : Inhabited Reassembly := ⟨.collecting []⟩

/-- What a fragment is added to: a first one starts a new packet. -/
def Reassembly.before (start : Bool) (r : Reassembly) : Reassembly :=
  if start then .collecting [] else r

/-- The bytes in the buffer: the payloads received so far, or what the last packet has left. -/
def Reassembly.buffer : Reassembly → Bytes
  | .skipping buffer => buffer
  | .collecting buffer => buffer

/-- One party's end of a link that carries messages. -/
structure Channel where
  cipher : Cipher
  reassembly : Reassembly := .collecting []
  deriving DecidableEq, Repr, Inhabited

namespace Channel

/-- A new end without a key. -/
def new (version : OsVersion) (role : Role) : Channel := { cipher := Cipher.new version role }

/-- The end without a key and without a packet in progress. -/
def reset (c : Channel) : Channel :=
  { c with cipher := c.cipher.reset, reassembly := .collecting [] }

/-- The end with a new session key. -/
def withKey (c : Channel) (key : Key) (own peer : Token) : Channel :=
  { c with cipher := c.cipher.withKey key own peer }

/-! ## Receiving -/

/-- The most bytes of a packet. -/
def maxReceived : Nat := 128

/-- The fragment is skipped, and the buffer stays as it is: an encrypted fragment still moves the
nonce for receiving. -/
def skip (c : Channel) (kind : FragmentKind) (buffer : Bytes) : Channel × Received :=
  let cipher := if kind = .encrypted then c.cipher.advanceReceive else c.cipher
  (⟨cipher, .skipping buffer⟩, .skipping false)

/-- A packet is complete: what its last fragment makes of it.  A message that has been decrypted
takes the place of its packet in the buffer. -/
def finish (c : Channel) (kind : FragmentKind) (packet : Bytes) : Channel × Received :=
  let rest : Channel := { c with reassembly := .skipping packet }
  match kind with
  | .encrypted =>
      if c.cipher.hasKey then
        match c.cipher.decrypt packet with
        | (cipher, .ok message) => (⟨cipher, .skipping message⟩, .complete message true)
        | (cipher, .error error) => ({ rest with cipher := cipher }, .skipping (error = .decrypt))
      else (rest, .skipping false)
  | .plain => (rest, .complete packet false)
  | _ => (rest, .skipping false)

/-- The channel after a fragment, and what the fragment led to. -/
def receive (c : Channel) : Bytes → Channel × Received
  | [] => (c, .dropped)
  | [_] => (c, .dropped)
  | header :: payload =>
      let kind := Fragment.kind header
      match c.reassembly.before (Fragment.isStart header) with
      | .skipping buffer => c.skip kind buffer
      | .collecting buffer =>
          if buffer.length + payload.length > maxReceived then c.skip kind buffer
          else if kind = .notFinished then
            ({ c with reassembly := .collecting (buffer ++ payload) }, .requireMore)
          else c.finish kind (buffer ++ payload)

/-! ## Sending -/

/-- What became of a message that was sent. -/
structure Sent where
  channel : Channel
  offer : Fragment.Offer := ⟨[], none⟩
  result : Except LinkError Unit

/-- A packet offered to the writer in fragments. -/
def sendPacket (c : Channel) (writer : Fragment.Writer) (packet : Bytes) (encrypted : Bool) :
    Sent :=
  let offer := Fragment.offer writer (Fragment.split encrypted packet)
  { channel := c
    offer := offer
    result := if offer.refused.isSome then .error (.writeFailed offer.taken.length) else .ok () }

/-- A message, encrypted if wanted, offered to the writer in fragments. -/
def send (c : Channel) (writer : Fragment.Writer) (message : Bytes) (encrypted : Bool) : Sent :=
  if encrypted then
    match c.cipher.encrypt message with
    | (cipher, .ok packet) => { c with cipher := cipher }.sendPacket writer packet true
    | (cipher, .error error) =>
        { channel := { c with cipher := cipher }, result := .error (.crypto error) }
  else c.sendPacket writer message false

end Channel

end SmartLock
