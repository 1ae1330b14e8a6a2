/-
# What is written on a link

A message in plain goes out as it is.  An encrypted one goes out as the packet that AES-CCM makes of
it under the key of the channel and its nonce for sending, or not at all
(`Channel.offer_send_encrypted`); without a key nothing of it is written
(`Channel.send_of_key_eq_none`).

The last fragment of a packet tells which of the two it is: no fragment of an encrypted packet is
the end of a plain one (`Fragment.isPlain_of_mem_split_encrypted`).
-/
import SmartLock.Proofs.Link.FailedSends
import SmartLock.Proofs.Link.FragmentRuns

namespace SmartLock

namespace Fragment

/-- What is taken or refused of some fragments is one of them. -/
theorem mem_of_mem_offer {writer : Writer} {fragments : List Bytes} {fragment : Bytes}
    (h : fragment ∈ (offer writer fragments).taken ∨
      (offer writer fragments).refused = some fragment) : fragment ∈ fragments := by
  rcases offerAfter_cases writer [] fragments with heq | ⟨more, refused, rest, hsplit, heq⟩
  · rw [offer, heq] at h
    simpa using h
  · rw [offer, heq] at h
    rw [hsplit]
    rcases h with h | h
    · exact List.mem_append_left _ h
    · rw [Option.some_inj.mp h]
      simp

/-- When no fragment is refused, all have been taken. -/
theorem offer_of_refused_eq_none {writer : Writer} {fragments : List Bytes}
    (h : (offer writer fragments).refused = none) : offer writer fragments = ⟨fragments, none⟩ := by
  rcases offerAfter_cases writer [] fragments with heq | ⟨more, refused, rest, -, heq⟩
  · exact heq
  · rw [offer, heq] at h
    cases h

/-- No fragment of an encrypted packet is the end of a plain one. -/
theorem isPlain_of_mem_split_encrypted {packet fragment : Bytes}
    (h : fragment ∈ split true packet) : isPlain fragment = false := by
  have hencrypted := isEncrypted_of_mem_split h
  match fragment with
  | [] | [_] => rfl
  | byte :: _ :: _ =>
      by_contra hplain
      rw [Bool.not_eq_false, isPlain, decide_eq_true_eq] at hplain
      simp [isEncrypted, isLast, hplain] at hencrypted

/-- What becomes of an encrypted packet, if there is one: its fragments are offered to the writer. -/
def offerSealed (writer : Writer) (packet? : Option Bytes) : Offer :=
  match packet? with
  | some packet => offer writer (split true packet)
  | none => ⟨[], none⟩

/-- Without a packet nothing is taken or refused, and what is taken or refused of a packet is one of
its fragments. -/
theorem mem_of_mem_offerSealed {writer : Writer} {packet? : Option Bytes} {fragment : Bytes}
    (h : fragment ∈ (offerSealed writer packet?).taken ∨
      (offerSealed writer packet?).refused = some fragment) :
    ∃ packet, packet? = some packet ∧ fragment ∈ split true packet := by
  cases packet? with
  | none => simp [offerSealed] at h
  | some packet => exact ⟨packet, rfl, mem_of_mem_offer h⟩

end Fragment

namespace Channel

/-- With a key, what is offered of an encrypted message is the packet that AES-CCM makes of it under
this key and the nonce for sending. -/
theorem offer_send_encrypted {c : Channel} {key : Key} (hkey : c.cipher.key = some key)
    (writer : Fragment.Writer) (message : Bytes) :
    (c.send writer message true).offer = Fragment.offerSealed writer
      (Ccm.encrypt? key c.cipher.sendNonce Cipher.associated message) := by
  cases hencrypt : Ccm.encrypt? key c.cipher.sendNonce Cipher.associated message with
  | none => simp [send, Cipher.encrypt, hkey, hencrypt, Fragment.offerSealed]
  | some packet =>
      simp [send, sendPacket, Cipher.encrypt, hkey, hencrypt, Fragment.offerSealed]

/-- Without a key an encrypted message is not sent, and nothing changes. -/
theorem send_of_key_eq_none {c : Channel} (h : c.cipher.key = none) (writer : Fragment.Writer)
    (message : Bytes) :
    c.send writer message true =
      { channel := c, result := .error (.crypto .keyNotPrepared) } := by
  rw [send, if_pos rfl, Cipher.encrypt, h]

end Channel

end SmartLock
