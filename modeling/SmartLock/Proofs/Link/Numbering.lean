/-
# Numbered nonces

In the third generation the messages of one direction are numbered from the installation of the key
on, and the nonce of a message says its number and the token of the peripheral
(`Nonces.numbered`).  Nothing in it tells the two directions apart.

Numbers are written in five bytes, so that they begin again after `Nonces.period` messages.  Up to
that the nonce determines token and number (`Nonces.numbered_eq_numbered_iff`).
-/
import SmartLock.Proofs.Link.Reception

namespace SmartLock

/-! ## Numbers in a few bytes -/

/-- Two numbers have the same low bytes exactly if they are equal modulo the size of the word. -/
theorem littleEndian_eq_littleEndian_iff {n v w : Nat} :
    littleEndian n v = littleEndian n w ↔ v % Nat.pow 256 n = w % Nat.pow 256 n := by
  constructor
  · intro h
    have hread := congrArg ofLittleEndian h
    rw [ofLittleEndian_littleEndian, ofLittleEndian_littleEndian] at hread
    exact hread
  · intro h
    induction n generalizing v w with
    | zero => rfl
    | succ n ih =>
        have hsize : Nat.pow 256 (n + 1) = 256 * Nat.pow 256 n := Nat.mul_comm _ _
        rw [hsize, Nat.mod_mul, Nat.mod_mul] at h
        have hlow : v % 256 = w % 256 := by omega
        have hhigh : v / 256 % Nat.pow 256 n = w / 256 % Nat.pow 256 n := by omega
        rw [littleEndian, littleEndian, ih hhigh, ← UInt8.ofNat_mod_size, hlow,
          UInt8.ofNat_mod_size]

/-! ## Nonces of the third generation -/

namespace Nonces

/-- How many numbers five bytes can tell apart. -/
def period : Nat := Nat.pow 256 5

/-- The nonce of the message with a given number in either direction: the number, four zeros and the
token of the peripheral. -/
def numbered (peripheral : Token) (number : Nat) : Nonce :=
  Octets.ofBytes 13 (littleEndian 5 number ++ (List.replicate 4 0 ++ peripheral.toBytes))

/-- The bytes of a numbered nonce. -/
theorem toBytes_numbered (peripheral : Token) (number : Nat) :
    (numbered peripheral number).toBytes =
      littleEndian 5 number ++ (List.replicate 4 0 ++ peripheral.toBytes) :=
  Octets.toBytes_ofBytes (by simp [peripheral.length_toBytes])

/-- A nonce says token and number. -/
theorem numbered_eq_numbered_iff {p q : Token} {m n : Nat} :
    numbered p m = numbered q n ↔ p = q ∧ m % period = n % period := by
  constructor
  · intro h
    have hbytes := congrArg Octets.toBytes h
    rw [toBytes_numbered, toBytes_numbered] at hbytes
    obtain ⟨hnumber, hrest⟩ := List.append_inj hbytes (by simp)
    exact ⟨Octets.ext (List.append_cancel_left hrest), littleEndian_eq_littleEndian_iff.mp hnumber⟩
  · rintro ⟨rfl, h⟩
    rw [numbered, numbered, littleEndian_eq_littleEndian_iff.mpr h]

end Nonces

/-- The nonce of the message with a given number, and the counter that says so. -/
def NonceState.numbered (peripheral : Token) (number : Nat) : NonceState :=
  ⟨Nonces.numbered peripheral number, UInt64.ofNat number⟩

/-- Both directions of a new link begin with number zero. -/
theorem Nonces.get_start_os3 (central peripheral : Token) (d : Direction) :
    (Nonces.start .os3 central peripheral).get d = .numbered peripheral 0 := by
  cases d <;> rfl

/-- A step leads to the next number. -/
theorem NonceState.advance_numbered (d : Direction) (peripheral : Token) (number : Nat) :
    (NonceState.numbered peripheral number).advance .os3 d = .numbered peripheral (number + 1) := by
  have hcount : UInt64.ofNat number + 1 = UInt64.ofNat (number + 1) :=
    (UInt64.ofNat_add number 1).symm
  -- The counter has eight bytes, of which only the low five are written.
  have hlow : littleEndian 5 (UInt64.ofNat (number + 1)).toNat = littleEndian 5 (number + 1) := by
    rw [littleEndian_eq_littleEndian_iff, UInt64.toNat_ofNat']
    exact Nat.mod_mod_of_dvd _ (by decide)
  have hdrop : (Nonces.numbered peripheral number).toBytes.drop 5 =
      List.replicate 4 0 ++ peripheral.toBytes := by
    rw [Nonces.toBytes_numbered, List.drop_left' (length_littleEndian 5 number)]
  simp only [NonceState.numbered, NonceState.advance, NonceRule.next, hcount, writeCounter, hlow,
    hdrop]
  rfl

/-! ## The nonce for sending -/

namespace Cipher

/-- The nonce for sending, with its counter. -/
def sending (c : Cipher) : NonceState := c.nonces.get c.role.outward

@[simp] theorem nonce_sending (c : Cipher) : c.sending.nonce = c.sendNonce := rfl

/-- A step for sending. -/
theorem sending_advanceSend (c : Cipher) :
    c.advanceSend.sending = c.sending.advance c.rule c.role.outward := by
  simp only [sending, advanceSend, Nonces.get_advance_self]

/-- A step for receiving goes unnoticed. -/
theorem sending_advanceReceive (c : Cipher) : c.advanceReceive.sending = c.sending := by
  have hne : c.role.inward ≠ c.role.outward := by cases c.role <;> decide
  simp only [sending, advanceReceive, Nonces.get_advance_of_ne hne]

/-- With a key, every encryption moves the nonce for sending. -/
theorem fst_encrypt {c : Cipher} {key : Key} (hkey : c.key = some key) (message : Bytes) :
    (c.encrypt message).1 = c.advanceSend := by
  unfold encrypt
  rw [hkey]
  dsimp only
  split <;> rfl

/-- An end of the third generation with a key, where the next message that it encrypts has a given
number. -/
structure Numbered (c : Cipher) (key : Key) (peripheral : Token) (next : Nat) : Prop where
  rule : c.rule = .os3
  key : c.key = some key
  sending : c.sending = .numbered peripheral next

/-- The next message is encrypted under the nonce with its number. -/
theorem Numbered.sendNonce {c : Cipher} {key : Key} {peripheral : Token} {next : Nat}
    (h : c.Numbered key peripheral next) : c.sendNonce = Nonces.numbered peripheral next := by
  rw [← nonce_sending, h.sending]
  rfl

/-- An end that has just installed a key begins with number zero. -/
theorem numbered_withKey {c : Cipher} (hrule : c.rule = .os3) (key : Key) (own peer : Token) :
    (c.withKey key own peer).Numbered key
      (match c.role with
        | .central => peer
        | .peripheral => own) 0 := by
  refine ⟨hrule, rfl, ?_⟩
  simp only [sending, withKey, hrule]
  cases c.role <;> exact Nonces.get_start_os3 ..

/-- A message that is encrypted takes its number. -/
theorem Numbered.advanceSend {c : Cipher} {key : Key} {peripheral : Token} {next : Nat}
    (h : c.Numbered key peripheral next) : c.advanceSend.Numbered key peripheral (next + 1) := by
  refine ⟨h.rule, h.key, ?_⟩
  rw [sending_advanceSend, h.sending, h.rule, NonceState.advance_numbered]

end Cipher

namespace Channel

/-- With a key, exactly the encrypted messages move the nonce for sending. -/
theorem cipher_send {c : Channel} {key : Key} (hkey : c.cipher.key = some key)
    (writer : Fragment.Writer) (message : Bytes) (encrypted : Bool) :
    (c.send writer message encrypted).channel.cipher =
      if encrypted then c.cipher.advanceSend else c.cipher := by
  cases encrypted with
  | false => rfl
  | true =>
      have hfst := Cipher.fst_encrypt hkey message
      simp only [send, if_true]
      rcases hencrypt : c.cipher.encrypt message with ⟨cipher, error | packet⟩
      · rwa [hencrypt] at hfst
      · rwa [hencrypt] at hfst

/-- What is received leaves the nonce for sending alone. -/
@[simp] theorem sendNonce_receive (c : Channel) (fragment : Bytes) :
    (c.receive fragment).1.cipher.sendNonce = c.cipher.sendNonce := by
  rcases cipher_receive_eq_or c fragment with heq | heq
  · rw [heq]
  · rw [heq, ← Cipher.nonce_sending, Cipher.sending_advanceReceive, Cipher.nonce_sending]

section Numbered

variable {c : Channel} {key : Key} {peripheral : Token} {next : Nat}
  (h : c.cipher.Numbered key peripheral next)

include h

/-- Exactly the encrypted messages take a number, whether the link takes them or not. -/
theorem numbered_send (writer : Fragment.Writer) (message : Bytes) (encrypted : Bool) :
    (c.send writer message encrypted).channel.cipher.Numbered key peripheral
      (next + if encrypted then 1 else 0) := by
  rw [cipher_send h.key]
  cases encrypted with
  | false => exact h
  | true => exact h.advanceSend

/-- What is received takes no number. -/
theorem numbered_receive (fragment : Bytes) :
    (c.receive fragment).1.cipher.Numbered key peripheral next := by
  rcases cipher_receive_eq_or c fragment with heq | heq
  · rwa [heq]
  · rw [heq]
    exact ⟨h.rule, h.key, (Cipher.sending_advanceReceive _).trans h.sending⟩

end Numbered

end Channel

end SmartLock
