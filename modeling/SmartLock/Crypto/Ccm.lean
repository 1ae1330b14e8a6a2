/-
# Authenticated encryption

AES-128-CCM (RFC 3610) with nonces of thirteen bytes and tags of four.  An encrypted message
is the message under a key stream, followed by its tag under the first block of that stream.

`decrypt?_of_encrypt?` says that every message that can be encrypted is read back under the
same key, nonce and associated data.
-/
import SmartLock.Crypto.Cmac

namespace SmartLock

/-- A nonce for one message. -/
abbrev Nonce : Type := Octets 13

namespace Ccm

open Aes (Block)

/-- The number of bytes of a tag. -/
def tagSize : Nat := 4

/-- The longest message: its length is written in two bytes. -/
def maxLength : Nat := 65535

/-! ## The key stream -/

/-- The block of the key stream with a given number. -/
def streamBlock (key : Block) (nonce : Nonce) (number : Nat) : Bytes :=
  (Aes.encrypt key (Block.ofBytes (0x01 :: nonce.toBytes ++ bigEndian 2 number))).toBytes

/-- The blocks of the key stream from number 1 on. -/
def keyStream (key : Block) (nonce : Nonce) (blocks : Nat) : Bytes :=
  (List.range blocks).flatMap fun i => streamBlock key nonce (i + 1)

/-- A message under the key stream; block 0 of the stream is left for the tag. -/
def crypt (key : Block) (nonce : Nonce) (message : Bytes) : Bytes :=
  message.xor (keyStream key nonce ((message.length + 15) / 16))

/-! ## The tag -/

/-- What is authenticated: a first block with the nonce and the length, then the associated
data after its own length, then the message, each filled up to whole blocks. -/
def authenticated (nonce : Nonce) (associated message : Bytes) : List Bytes :=
  (0x49 :: nonce.toBytes ++ bigEndian 2 message.length) ::
    (Bytes.pieces 16 (bigEndian 2 associated.length ++ associated) ++ Bytes.pieces 16 message)

/-- The chain of blocks through the cipher. -/
def chain (key : Block) (pieces : List Bytes) : Block :=
  pieces.foldl (fun acc b => Aes.encrypt key (acc.xor (Block.ofBytes b))) (Block.ofBytes [])

/-- The tag of a message. -/
def tag (key : Block) (nonce : Nonce) (associated message : Bytes) : Bytes :=
  Bytes.xor ((chain key (authenticated nonce associated message)).toBytes.take tagSize)
    (streamBlock key nonce 0)

/-! ## Messages -/

/-- A message encrypted under a key, unless it is too long. -/
def encrypt? (key : Key) (nonce : Nonce) (associated message : Bytes) : Option Bytes :=
  let k := Block.ofBytes key.toBytes
  if message.length ≤ maxLength then
    some (crypt k nonce message ++ tag k nonce associated message)
  else none

/-- The message of an encrypted one, unless that is too short, too long or has a wrong tag. -/
def decrypt? (key : Key) (nonce : Nonce) (associated encrypted : Bytes) : Option Bytes :=
  let k := Block.ofBytes key.toBytes
  let size := encrypted.length - tagSize
  if encrypted.length < tagSize || size > maxLength then none
  else
    let message := crypt k nonce (encrypted.take size)
    if encrypted.drop size = tag k nonce associated message then some message else none

/-! ## Reading back -/

/-- A block of the key stream is sixteen bytes long. -/
@[simp] theorem length_streamBlock (key : Block) (nonce : Nonce) (number : Nat) :
    (streamBlock key nonce number).length = 16 := rfl

/-- The key stream has sixteen bytes for each block. -/
@[simp] theorem length_keyStream (key : Block) (nonce : Nonce) (blocks : Nat) :
    (keyStream key nonce blocks).length = 16 * blocks := by
  induction blocks with
  | zero => rfl
  | succ n ih =>
      rw [keyStream, List.range_succ, List.flatMap_append, List.length_append,
        ← keyStream, ih]
      simp
      omega

/-- A tag is four bytes long. -/
@[simp] theorem length_tag (key : Block) (nonce : Nonce) (associated message : Bytes) :
    (tag key nonce associated message).length = tagSize := by
  simp [tag, Bytes.length_xor, tagSize]

/-- The message under the stream is as long as the message. -/
@[simp] theorem length_crypt (key : Block) (nonce : Nonce) (message : Bytes) :
    (crypt key nonce message).length = message.length := by
  rw [crypt, Bytes.length_xor, length_keyStream]
  omega

/-- The stream, applied twice, gives back the message. -/
theorem crypt_crypt (key : Block) (nonce : Nonce) (message : Bytes) :
    crypt key nonce (crypt key nonce message) = message := by
  rw [crypt, length_crypt, crypt]
  exact Bytes.xor_xor_of_length_le _ _ (by rw [length_keyStream]; omega)

/-- An encrypted message is four bytes longer than the message. -/
theorem length_of_encrypt? {key : Key} {nonce : Nonce} {associated message encrypted : Bytes}
    (h : encrypt? key nonce associated message = some encrypted) :
    encrypted.length = message.length + tagSize := by
  unfold encrypt? at h
  split at h
  · cases h
    simp
  · cases h

/-- Every message that is not too long is encrypted, and read back from the result. -/
theorem decrypt?_of_encrypt? {key : Key} {nonce : Nonce} {associated message encrypted : Bytes}
    (h : encrypt? key nonce associated message = some encrypted) :
    decrypt? key nonce associated encrypted = some message := by
  unfold encrypt? at h
  split at h
  · rename_i hle
    cases h
    have hsize : message.length + tagSize - tagSize = message.length := by omega
    simp only [decrypt?, List.length_append, length_crypt, length_tag, hsize]
    rw [if_neg (by simp only [Bool.or_eq_true, decide_eq_true_eq, not_or]; omega),
      List.take_append_of_le_length (by simp), List.take_of_length_le (by simp),
      List.drop_append_of_le_length (by simp), List.drop_eq_nil_of_le (by simp),
      List.nil_append, crypt_crypt, if_pos rfl]
  · cases h

end Ccm

end SmartLock
