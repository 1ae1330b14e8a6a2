/-
# The counter for receiving

Under a key a channel counts the encrypted last fragments that come, and nothing else.  Whether the
packet of such a fragment is read, has a wrong tag, is too short for one, or is given up, the nonce
for receiving moves one step (`Channel.cipher_receiveAll`).  Its counter shows how many there have
been, modulo the numbers that it runs through (`Channel.counts_receiveAll`).

Nothing else of the cipher changes, and the buffer never grows over the limit.
-/
import Mathlib.Data.List.Induction
import Mathlib.Data.Nat.ModEq
import Mathlib.Logic.Function.Iterate
import SmartLock.Proofs.Link.Numbering
import SmartLock.Proofs.Link.Packets

namespace SmartLock

/-! ## Counters -/

namespace NonceRule

/-- How many numbers a counter runs through: in the second generation those of 39 bits, in the third
those of a whole word. -/
def modulus : NonceRule → Nat
  | .os2 => 2 ^ 39
  | .os3 => 2 ^ 64

/-- The bits of a counter of the second generation. -/
theorem toNat_and_counterMask (count : UInt64) :
    (count &&& counterMask).toNat = count.toNat % 2 ^ 39 := by
  have hmask : counterMask.toNat = 2 ^ 39 - 1 := by decide
  rw [UInt64.toNat_and, hmask, Nat.and_two_pow_sub_one_eq_mod]

/-- The bit that marks the direction does not count. -/
theorem toNat_or_outwardBit_mod (count : UInt64) :
    (count ||| outwardBit).toNat % 2 ^ 39 = count.toNat % 2 ^ 39 := by
  have hbit : outwardBit.toNat % 2 ^ 39 = 0 := by decide
  rw [UInt64.toNat_or, Nat.or_mod_two_pow, hbit, Nat.or_zero]

/-- A step counts one. -/
theorem toNat_next_modEq (rule : NonceRule) (d : Direction) (count : UInt64) :
    (rule.next d count).toNat ≡ count.toNat + 1 [MOD rule.modulus] := by
  have hsum : (count + 1).toNat = (count.toNat + 1) % 2 ^ 64 := UInt64.toNat_add count 1
  -- In the second generation the mark of the direction is set after the masking.
  have hmask : ((count + 1) &&& counterMask).toNat % 2 ^ 39 = (count.toNat + 1) % 2 ^ 39 := by
    rw [toNat_and_counterMask, Nat.mod_mod, hsum]
    exact Nat.mod_mod_of_dvd _ (by decide)
  cases rule with
  | os2 =>
      cases d with
      | toPeripheral => exact (toNat_or_outwardBit_mod _).trans hmask
      | toCentral => exact hmask
  | os3 =>
      change (count + 1).toNat % 2 ^ 64 = _
      rw [hsum, Nat.mod_mod]
      rfl

end NonceRule

/-- So many steps count so many. -/
theorem NonceState.count_iterate_advance (rule : NonceRule) (d : Direction) (s : NonceState)
    (steps : Nat) :
    ((advance rule d)^[steps] s).count.toNat ≡ s.count.toNat + steps [MOD rule.modulus] := by
  induction steps with
  | zero => rfl
  | succ steps ih =>
      rw [Function.iterate_succ_apply']
      exact (NonceRule.toNat_next_modEq rule d _).trans (ih.add_right 1)

/-! ## The nonce for receiving -/

namespace Cipher

/-- The nonce for receiving, with its counter. -/
def receiving (c : Cipher) : NonceState := c.nonces.get c.role.inward

/-- A step for receiving. -/
theorem receiving_advanceReceive (c : Cipher) :
    c.advanceReceive.receiving = c.receiving.advance c.rule c.role.inward := by
  simp only [receiving, advanceReceive, Nonces.get_advance_self]

/-- So many steps for receiving move the nonce for receiving, and nothing else. -/
theorem iterate_advanceReceive (c : Cipher) (steps : Nat) :
    let after := advanceReceive^[steps] c
    after.receiving = (NonceState.advance c.rule c.role.inward)^[steps] c.receiving ∧
      after.sending = c.sending ∧ after.key = c.key ∧ after.role = c.role ∧
      after.rule = c.rule := by
  induction steps with
  | zero => exact ⟨rfl, rfl, rfl, rfl, rfl⟩
  | succ steps ih =>
      obtain ⟨hreceiving, hsending, hkey, hrole, hrule⟩ := ih
      rw [Function.iterate_succ_apply', Function.iterate_succ_apply']
      refine ⟨?_, ?_, hkey, hrole, hrule⟩
      · rw [receiving_advanceReceive, hreceiving, hrole, hrule]
      · rw [sending_advanceReceive, hsending]

end Cipher

/-! ## Packets within the limit -/

/-- A message is shorter than what it has been decrypted from. -/
theorem Ccm.length_le_of_decrypt? {key : Key} {nonce : Nonce} {associated encrypted message : Bytes}
    (h : decrypt? key nonce associated encrypted = some message) :
    message.length ≤ encrypted.length := by
  simp only [decrypt?] at h
  split at h
  · cases h
  split at h
  · rw [← Option.some.inj h, length_crypt, List.length_take]
    exact Nat.min_le_right ..
  · cases h

namespace Channel

/-- After the end of a packet everything is skipped, and the buffer holds the packet or the message
that it has been decrypted to. -/
theorem exists_reassembly_finish (c : Channel) (kind : FragmentKind) (packet : Bytes) :
    ∃ kept : Bytes, (c.finish kind packet).1.reassembly = .skipping kept ∧
      kept.length ≤ packet.length := by
  cases kind with
  | encrypted =>
      cases hkey : c.cipher.key with
      | none => exact ⟨packet, by simp [finish, Cipher.hasKey, hkey], Nat.le_refl _⟩
      | some key =>
          have hok := Cipher.snd_decrypt_eq_ok_iff hkey packet
          rcases hdecrypt : c.cipher.decrypt packet with ⟨cipher, error | message⟩
          · exact ⟨packet, by simp [finish, Cipher.hasKey, hkey, hdecrypt], Nat.le_refl _⟩
          · refine ⟨message, by simp [finish, Cipher.hasKey, hkey, hdecrypt], ?_⟩
            exact Ccm.length_le_of_decrypt? ((hok message).mp (congrArg Prod.snd hdecrypt))
  | plain => exact ⟨packet, rfl, Nat.le_refl _⟩
  | notFinished => exact ⟨packet, rfl, Nat.le_refl _⟩
  | reserved => exact ⟨packet, rfl, Nat.le_refl _⟩

/-- A fragment that is skipped does not add to the buffer; one that starts a packet clears it. -/
theorem length_buffer_before_le (start : Bool) (r : Reassembly) :
    (r.before start).buffer.length ≤ r.buffer.length := by
  cases start with
  | false => exact Nat.le_refl _
  | true => exact Nat.zero_le _

/-- The buffer never grows over the limit: neither while a packet is put together, nor when it has
come to its end, nor while everything is skipped. -/
theorem length_buffer_receive_le {c : Channel} (h : c.reassembly.buffer.length ≤ maxReceived)
    (fragment : Bytes) : (c.receive fragment).1.reassembly.buffer.length ≤ maxReceived := by
  rcases receive_cases c fragment with ⟨-, heq⟩ | ⟨header, payload, -, -, heq⟩ |
    ⟨packet, ⟨header, payload, buffer, -, -, -, -, -, hlen⟩, heq⟩ |
    ⟨kind, packet, -, ⟨header, payload, buffer, -, -, -, -, -, hlen⟩, heq⟩
  · rwa [heq]
  · rw [heq]
    exact (length_buffer_before_le _ _).trans h
  · rwa [heq]
  · obtain ⟨kept, hkept, hle⟩ := exists_reassembly_finish c kind packet
    rw [heq, hkept]
    exact hle.trans hlen

/-- No message is longer than a packet may be. -/
theorem length_le_of_complete {c : Channel} {fragment message : Bytes} {authenticated : Bool}
    (h : (c.receive fragment).2 = .complete message authenticated) :
    message.length ≤ maxReceived := by
  rcases snd_receive_eq_complete_iff.mp h with
    ⟨-, header, payload, buffer, -, -, -, -, -, hlen⟩ |
    ⟨-, key, packet, -, ⟨header, payload, buffer, -, -, -, -, -, hlen⟩, hdecrypt⟩
  · exact hlen
  · exact (Ccm.length_le_of_decrypt? hdecrypt).trans hlen

end Channel

/-! ## Intakes -/

/-- What can happen to a packet in progress: a fragment comes, and finds the cipher in some state,
or the packet is given up. -/
inductive Intake where
  | receive (cipher : Cipher) (fragment : Bytes)
  | reset
  deriving DecidableEq, Repr

namespace Reassembly

/-- The packet in progress after one more intake. -/
def take (r : Reassembly) : Intake → Reassembly
  | .receive cipher fragment => ((⟨cipher, r⟩ : Channel).receive fragment).1.reassembly
  | .reset => default

/-- The packet in progress of a new channel after some intakes. -/
def afterAll (intakes : List Intake) : Reassembly := intakes.foldl take default

/-- What a channel has in progress changes with a fragment as with the intake of that fragment. -/
theorem reassembly_receive (c : Channel) (fragment : Bytes) :
    (c.receive fragment).1.reassembly = c.reassembly.take (.receive c.cipher fragment) := rfl

/-- A channel that is reset gives its packet up. -/
theorem reassembly_reset (c : Channel) : c.reset.reassembly = c.reassembly.take .reset := rfl

/-- One more intake comes last. -/
theorem afterAll_concat (intakes : List Intake) (intake : Intake) :
    afterAll (intakes ++ [intake]) = (afterAll intakes).take intake := by
  rw [afterAll, List.foldl_append]
  rfl

/-- Whatever a new channel has taken in, its buffer is within the limit. -/
theorem length_buffer_afterAll_le (intakes : List Intake) :
    (afterAll intakes).buffer.length ≤ Channel.maxReceived := by
  induction intakes using List.reverseRecOn with
  | nil => exact Nat.zero_le _
  | append_singleton intakes intake ih =>
      rw [afterAll_concat]
      cases intake with
      | receive cipher fragment => exact Channel.length_buffer_receive_le ih fragment
      | reset => exact Nat.zero_le _

end Reassembly

namespace Channel

/-! ## Counting -/

/-- Under a key every encrypted last fragment moves the nonce for receiving, whatever becomes of its
packet, and no other fragment does. -/
theorem cipher_receiveAll {c : Channel} (hkey : c.cipher.hasKey = true) (fragments : List Bytes) :
    (c.receiveAll fragments).1.cipher =
      Cipher.advanceReceive^[fragments.countP Fragment.isEncrypted] c.cipher := by
  induction fragments generalizing c with
  | nil => rfl
  | cons fragment rest ih =>
      have hkept : (c.receive fragment).1.cipher.hasKey = true := by
        rw [Cipher.hasKey, key_receive]
        exact hkey
      rw [receiveAll, ih hkept, cipher_receive hkey, List.countP_cons]
      split
      · exact (Function.iterate_succ_apply ..).symm
      · rfl

/-- However many fragments come, the buffer never grows over the limit. -/
theorem length_buffer_receiveAll_le {c : Channel} (h : c.reassembly.buffer.length ≤ maxReceived)
    (fragments : List Bytes) :
    (c.receiveAll fragments).1.reassembly.buffer.length ≤ maxReceived := by
  induction fragments generalizing c with
  | nil => exact h
  | cons fragment rest ih => exact ih (length_buffer_receive_le h fragment)

/-- However many fragments come, no message is longer than a packet may be. -/
theorem length_le_of_complete_mem {c : Channel} {fragments : List Bytes} {message : Bytes}
    {authenticated : Bool}
    (h : .complete message authenticated ∈ (c.receiveAll fragments).2) :
    message.length ≤ maxReceived := by
  induction fragments generalizing c with
  | nil => cases h
  | cons fragment rest ih =>
      rcases List.mem_cons.mp h with heq | hmem
      · exact length_le_of_complete heq.symm
      · exact ih hmem

/-- **What is counted.**  A channel with a key, whatever it is doing, receives any fragments.  The
nonce for receiving has moved one step for every encrypted last fragment, so that its counter has
grown by their number, modulo its numbers.  The nonce for sending, the key and the role are the
same.  After every fragment the buffer is within the limit, also where it holds what a packet has
left that was given up, forged or read, and no message that is complete is longer than that.  It is
within the limit from the beginning, whatever a new channel has taken in before, under any ciphers
and with any resets.  Whatever other fragments are lost on the way, the cipher is the same. -/
theorem counts_receiveAll {c : Channel} (hkey : c.cipher.hasKey = true) (fragments : List Bytes) :
    let after := (c.receiveAll fragments).1
    let count := fragments.countP Fragment.isEncrypted
    (after.cipher.receiving =
        (NonceState.advance c.cipher.rule c.cipher.role.inward)^[count] c.cipher.receiving ∧
      after.cipher.receiving.count.toNat ≡
        c.cipher.receiving.count.toNat + count [MOD c.cipher.rule.modulus]) ∧
    (after.cipher.sending = c.cipher.sending ∧ after.cipher.key = c.cipher.key ∧
      after.cipher.role = c.cipher.role ∧ after.cipher.rule = c.cipher.rule) ∧
    (∀ before rest, fragments = before ++ rest →
      (c.reassembly.buffer.length ≤ maxReceived →
        (c.receiveAll before).1.reassembly.buffer.length ≤ maxReceived) ∧
      ∀ message authenticated, .complete message authenticated ∈ (c.receiveAll before).2 →
        message.length ≤ maxReceived) ∧
    (∀ intakes, (Reassembly.afterAll intakes).buffer.length ≤ maxReceived) ∧
    ∀ kept, kept.Sublist fragments →
      kept.filter Fragment.isEncrypted = fragments.filter Fragment.isEncrypted →
      (c.receiveAll kept).1.cipher = after.cipher := by
  intro after count
  have hcipher : after.cipher = Cipher.advanceReceive^[count] c.cipher :=
    cipher_receiveAll hkey fragments
  -- All that is said about the cipher is a matter of this one number of steps.
  obtain ⟨hreceiving, hsending, hsame⟩ := Cipher.iterate_advanceReceive c.cipher count
  rw [← hcipher] at hreceiving hsending hsame
  refine ⟨⟨hreceiving, ?_⟩, ⟨hsending, hsame⟩, ?_, Reassembly.length_buffer_afterAll_le, ?_⟩
  · rw [hreceiving]
    exact NonceState.count_iterate_advance ..
  · exact fun before _ _ => ⟨fun hlimit => length_buffer_receiveAll_le hlimit before,
      fun _ _ hmem => length_le_of_complete_mem hmem⟩
  · intro kept _ hfilter
    rw [hcipher, cipher_receiveAll hkey, List.countP_eq_length_filter, hfilter,
      ← List.countP_eq_length_filter]

/-- Fragments that do not fit together: one without payload, an encrypted one that continues
nothing, one that is too short for a tag, one with a wrong tag, a plain one, one of a kind that is
not used, and an encrypted one after the end of its packet. -/
def strayFragments : List Bytes :=
  [[5], [4, 7], [5, 1], [5, 1, 2, 3, 4, 5], [3, 9], [7, 8], [4, 7]]

/-- Four of them are encrypted, and as many are counted. -/
theorem counts_receiveAll_strayFragments :
    let c : Channel :=
      { (Channel.new .os2 .peripheral).withKey (Octets.zero 16) (Octets.zero 4) (Octets.zero 4) with
        reassembly := .skipping [9] }
    c.cipher.hasKey = true ∧
      (c.receiveAll strayFragments).1.cipher.receiving.count.toNat ≡ 4 [MOD 2 ^ 39] ∧
      (c.receiveAll (strayFragments.filter Fragment.isEncrypted)).1.cipher =
        (c.receiveAll strayFragments).1.cipher := by
  intro c
  have hkey : c.cipher.hasKey = true := rfl
  obtain ⟨⟨-, hcount⟩, -, -, -, hlost⟩ := counts_receiveAll hkey strayFragments
  have hstart : c.cipher.receiving.count.toNat + strayFragments.countP Fragment.isEncrypted ≡ 4
      [MOD 2 ^ 39] := by decide
  exact ⟨hkey, hcount.trans hstart, hlost _ List.filter_sublist (by simp)⟩

end Channel

end SmartLock
