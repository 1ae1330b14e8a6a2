/-
# Encryption on a link

One party's end of an encrypted link: its role, the session key once it is known, and the
nonces of both directions.  Every message that is encrypted or decrypted moves the nonce of
its direction one step, whether it succeeds or not.
-/
import SmartLock.Crypto.Error
import SmartLock.Link.Nonces

namespace SmartLock

/-- One party's end of an encrypted link. -/
structure Cipher where
  rule : NonceRule
  role : Role
  key : Option Key := none
  nonces : Nonces := {}
  deriving DecidableEq, Repr, Inhabited

namespace Cipher

/-- The associated data of every message: one zero byte. -/
def associated : Bytes := [0]

/-- A new end without a key. -/
def new (version : OsVersion) (role : Role) : Cipher := { rule := version.nonceRule, role := role }

/-- Whether the session key is known. -/
def hasKey (c : Cipher) : Bool := c.key.isSome

/-- The nonce of the next message sent. -/
def sendNonce (c : Cipher) : Nonce := (c.nonces.get c.role.outward).nonce

/-- The nonce of the next message received. -/
def receiveNonce (c : Cipher) : Nonce := (c.nonces.get c.role.inward).nonce

/-- One step of the nonce for sending. -/
def advanceSend (c : Cipher) : Cipher :=
  { c with nonces := c.nonces.advance c.rule c.role.outward }

/-- One step of the nonce for receiving. -/
def advanceReceive (c : Cipher) : Cipher :=
  { c with nonces := c.nonces.advance c.rule c.role.inward }

/-- The end with a new session key; both nonces start afresh from the tokens of this party and
of its peer. -/
def withKey (c : Cipher) (key : Key) (own peer : Token) : Cipher :=
  let nonces :=
    match c.role with
    | .central => Nonces.start c.rule own peer
    | .peripheral => Nonces.start c.rule peer own
  { c with key := some key, nonces := nonces }

/-- The end without its key; the nonces stay as they are. -/
def reset (c : Cipher) : Cipher := { c with key := none }

/-- A message encrypted for the peer. -/
def encrypt (c : Cipher) (message : Bytes) : Cipher × Except CryptoError Bytes :=
  match c.key with
  | none => (c, .error .keyNotPrepared)
  | some key =>
      match Ccm.encrypt? key c.sendNonce associated message with
      | some encrypted => (c.advanceSend, .ok encrypted)
      | none => (c.advanceSend, .error .encrypt)

/-- The message of an encrypted one from the peer. -/
def decrypt (c : Cipher) (encrypted : Bytes) : Cipher × Except CryptoError Bytes :=
  match c.key with
  | none => (c, .error .keyNotPrepared)
  | some key =>
      if encrypted.length < Ccm.tagSize then
        (c.advanceReceive, .error (.tooShort encrypted.length))
      else
        match Ccm.decrypt? key c.receiveNonce associated encrypted with
        | some message => (c.advanceReceive, .ok message)
        | none => (c.advanceReceive, .error .decrypt)

/-- The number of bytes of the code that proves knowledge of the session key. -/
def codeSize : Nat := 4

/-- Whether a login code is the start of the session key. -/
def verifyCode (c : Cipher) (code : Bytes) : Bool :=
  match c.key with
  | none => false
  | some key => code = key.toBytes.take codeSize

end Cipher

end SmartLock
