/-
# Receiving one fragment

What one fragment does to a channel, said without the order in which `Channel.receive` asks its
questions:

* `receive_cases` lists everything that a fragment can lead to;
* `snd_receive_eq_complete_iff` says when a message is complete: a plain one when its packet has
  been assembled, an encrypted one when moreover its tag is right under the key and the nonce of
  the channel (`Channel.Authenticates`);
* `snd_receive_eq_forged_iff` says when a tag is wrong (`Channel.Forges`);
* `cipher_receive` says that a channel with a key moves its nonce for receiving at every encrypted
  last fragment and at no other.

Sending moves at most the nonce for sending (`cipher_send_eq_or`).
-/
import SmartLock.Link.Channel

namespace SmartLock

/-! ## Kinds of fragments -/

namespace Fragment

/-- Whether a fragment is the last one of a packet. -/
def isLast : Bytes → Bool
  | header :: _ :: _ => kind header ≠ .notFinished
  | _ => false

/-- Whether a fragment is the last one of an encrypted packet. -/
def isEncrypted : Bytes → Bool
  | header :: _ :: _ => kind header = .encrypted
  | _ => false

end Fragment

/-! ## Steps of a cipher -/

namespace Cipher

@[simp] theorem key_advanceSend (c : Cipher) : c.advanceSend.key = c.key := rfl

@[simp] theorem key_advanceReceive (c : Cipher) : c.advanceReceive.key = c.key := rfl

@[simp] theorem role_advanceSend (c : Cipher) : c.advanceSend.role = c.role := rfl

@[simp] theorem role_advanceReceive (c : Cipher) : c.advanceReceive.role = c.role := rfl

/-- An encryption moves at most the nonce for sending. -/
theorem fst_encrypt_eq_or (c : Cipher) (message : Bytes) :
    (c.encrypt message).1 = c ∨ (c.encrypt message).1 = c.advanceSend := by
  unfold encrypt
  split
  · exact .inl rfl
  · split
    · exact .inr rfl
    · exact .inr rfl

@[simp] theorem key_encrypt (c : Cipher) (message : Bytes) : (c.encrypt message).1.key = c.key := by
  rcases fst_encrypt_eq_or c message with h | h <;> simp [h]

@[simp] theorem role_encrypt (c : Cipher) (message : Bytes) :
    (c.encrypt message).1.role = c.role := by
  rcases fst_encrypt_eq_or c message with h | h <;> simp [h]

/-- With a key, every decryption moves the nonce for receiving. -/
theorem fst_decrypt {c : Cipher} {key : Key} (hkey : c.key = some key) (packet : Bytes) :
    (c.decrypt packet).1 = c.advanceReceive := by
  unfold decrypt
  rw [hkey]
  dsimp only
  split
  · rfl
  · split <;> rfl

/-- What is too short for a tag is not decrypted. -/
theorem decrypt?_of_length_lt {key : Key} {nonce : Nonce} {packet : Bytes}
    (h : packet.length < Ccm.tagSize) : Ccm.decrypt? key nonce associated packet = none := by
  simp [Ccm.decrypt?, h]

/-- A packet is decrypted to a message exactly if the message authenticates. -/
theorem snd_decrypt_eq_ok_iff {c : Cipher} {key : Key} (hkey : c.key = some key)
    (packet message : Bytes) :
    (c.decrypt packet).2 = .ok message ↔
      Ccm.decrypt? key c.receiveNonce associated packet = some message := by
  unfold decrypt
  rw [hkey]
  dsimp only
  split
  · rename_i hlen
    simp [decrypt?_of_length_lt hlen]
  · split
    · rename_i found hfound
      simp [hfound]
    · rename_i hnone
      simp [hnone]

/-- A packet is refused for its tag exactly if it is long enough for one and does not
authenticate. -/
theorem snd_decrypt_eq_error_decrypt_iff {c : Cipher} {key : Key} (hkey : c.key = some key)
    (packet : Bytes) :
    (c.decrypt packet).2 = .error .decrypt ↔
      Ccm.tagSize ≤ packet.length ∧
        Ccm.decrypt? key c.receiveNonce associated packet = none := by
  unfold decrypt
  rw [hkey]
  dsimp only
  split
  · rename_i hlen
    simp [Nat.not_le.mpr hlen]
  · rename_i hlen
    split
    · rename_i found hfound
      simp [hfound]
    · rename_i hnone
      simp [hnone, Nat.not_lt.mp hlen]

end Cipher

namespace Channel

/-! ## Packets in progress -/

/-- With this fragment, which is of the given kind, the packet in progress has grown to `packet`:
the fragment has a payload, the packet is not being skipped, and it is not too long. -/
def Assembles (c : Channel) (fragment : Bytes) (kind : FragmentKind) (packet : Bytes) : Prop :=
  ∃ header payload buffer, fragment = header :: payload ∧ payload ≠ [] ∧
    Fragment.kind header = kind ∧
    c.reassembly.before (Fragment.isStart header) = .collecting buffer ∧
    packet = buffer ++ payload ∧ packet.length ≤ maxReceived

/-- The fragment completes an encrypted packet that has the right tag under the key of the
channel and its nonce for receiving, and that says `message`. -/
def Authenticates (c : Channel) (fragment message : Bytes) : Prop :=
  ∃ key packet, c.cipher.key = some key ∧ c.Assembles fragment .encrypted packet ∧
    Ccm.decrypt? key c.cipher.receiveNonce Cipher.associated packet = some message

/-- The fragment completes an encrypted packet that is long enough for a tag, but has a wrong one
under the key of the channel and its nonce for receiving. -/
def Forges (c : Channel) (fragment : Bytes) : Prop :=
  ∃ key packet, c.cipher.key = some key ∧ c.Assembles fragment .encrypted packet ∧
    Ccm.tagSize ≤ packet.length ∧
    Ccm.decrypt? key c.cipher.receiveNonce Cipher.associated packet = none

/-- A message that authenticates was completed by an encrypted last fragment. -/
theorem Authenticates.isEncrypted {c : Channel} {fragment message : Bytes}
    (h : c.Authenticates fragment message) : Fragment.isEncrypted fragment = true := by
  obtain ⟨key, packet, -, ⟨header, payload, buffer, rfl, hne, hkind, -⟩, -⟩ := h
  obtain ⟨byte, rest, rfl⟩ := List.exists_cons_of_ne_nil hne
  simp [Fragment.isEncrypted, hkind]

/-! ## What a fragment leads to -/

/-- Everything that a fragment can lead to. -/
theorem receive_cases (c : Channel) (fragment : Bytes) :
    (fragment.length ≤ 1 ∧ c.receive fragment = (c, .dropped)) ∨
    (∃ header payload, fragment = header :: payload ∧ payload ≠ [] ∧
      c.receive fragment = c.skip (Fragment.kind header)
        (c.reassembly.before (Fragment.isStart header)).buffer) ∨
    (∃ packet, c.Assembles fragment .notFinished packet ∧
      c.receive fragment = ({ c with reassembly := .collecting packet }, .requireMore)) ∨
    (∃ kind packet, kind ≠ .notFinished ∧ c.Assembles fragment kind packet ∧
      c.receive fragment = c.finish kind packet) := by
  match fragment with
  | [] => exact .inl ⟨by simp, rfl⟩
  | [_] => exact .inl ⟨by simp, rfl⟩
  | header :: byte :: rest =>
      right
      cases hbefore : c.reassembly.before (Fragment.isStart header) with
      | skipping buffer =>
          exact .inl ⟨header, byte :: rest, rfl, by simp, by simp [receive, hbefore,
            Reassembly.buffer]⟩
      | collecting buffer =>
          by_cases hlong : buffer.length + (byte :: rest).length > maxReceived
          · refine .inl ⟨header, byte :: rest, rfl, by simp, ?_⟩
            simp only [receive, hbefore, if_pos hlong, Reassembly.buffer]
          · have hassembles : c.Assembles (header :: byte :: rest) (Fragment.kind header)
                (buffer ++ byte :: rest) :=
              ⟨header, byte :: rest, buffer, rfl, by simp, rfl, hbefore, rfl,
                by rw [List.length_append]; omega⟩
            by_cases hkind : Fragment.kind header = .notFinished
            · refine .inr (.inl ⟨buffer ++ byte :: rest, hkind ▸ hassembles, ?_⟩)
              simp only [receive, hbefore, if_neg hlong, if_pos hkind]
            · refine .inr (.inr ⟨_, buffer ++ byte :: rest, hkind, hassembles, ?_⟩)
              simp only [receive, hbefore, if_neg hlong, if_neg hkind]

/-- A fragment that completes a packet is dealt with as the end of that packet. -/
theorem receive_of_assembles {c : Channel} {fragment packet : Bytes} {kind : FragmentKind}
    (h : c.Assembles fragment kind packet) (hkind : kind ≠ .notFinished) :
    c.receive fragment = c.finish kind packet := by
  obtain ⟨header, payload, buffer, rfl, hne, rfl, hbefore, rfl, hlen⟩ := h
  obtain ⟨byte, rest, rfl⟩ := List.exists_cons_of_ne_nil hne
  rw [List.length_append] at hlen
  simp only [receive, hbefore, if_neg (Nat.not_lt.mpr hlen), if_neg hkind]

/-- A skipped fragment completes nothing and is no forgery. -/
@[simp] theorem snd_skip (c : Channel) (kind : FragmentKind) (buffer : Bytes) :
    (c.skip kind buffer).2 = .skipping false := rfl

/-- The end of a packet is a message exactly if the packet is plain or authenticates. -/
theorem snd_finish_eq_complete_iff {c : Channel} {kind : FragmentKind} {packet message : Bytes}
    {authenticated : Bool} :
    (c.finish kind packet).2 = .complete message authenticated ↔
      (kind = .plain ∧ authenticated = false ∧ packet = message) ∨
      (kind = .encrypted ∧ authenticated = true ∧ ∃ key, c.cipher.key = some key ∧
        Ccm.decrypt? key c.cipher.receiveNonce Cipher.associated packet = some message) := by
  cases kind with
  | notFinished => simp [finish]
  | reserved => simp [finish]
  | plain => simp [finish, eq_comm, and_comm]
  | encrypted =>
      cases hkey : c.cipher.key with
      | none => simp [finish, Cipher.hasKey, hkey]
      | some key =>
          have hok := Cipher.snd_decrypt_eq_ok_iff hkey packet message
          rcases hdecrypt : c.cipher.decrypt packet with ⟨cipher, error | found⟩
          · have hnot : ¬ Ccm.decrypt? key c.cipher.receiveNonce Cipher.associated packet =
                some message := by
              rw [← hok, hdecrypt]
              simp
            simp [finish, Cipher.hasKey, hkey, hdecrypt, hnot]
          · rw [hdecrypt] at hok
            simp only [finish, Cipher.hasKey, hkey, hdecrypt, Option.isSome_some, if_true,
              Received.complete.injEq, reduceCtorEq, false_and, false_or, true_and,
              Option.some.injEq, exists_eq_left']
            rw [← hok, Except.ok.injEq, and_comm, eq_comm (a := true)]

/-- A message is complete exactly if its packet has been assembled in plain, or has been
assembled encrypted and authenticates. -/
theorem snd_receive_eq_complete_iff {c : Channel} {fragment message : Bytes}
    {authenticated : Bool} :
    (c.receive fragment).2 = .complete message authenticated ↔
      (authenticated = false ∧ c.Assembles fragment .plain message) ∨
      (authenticated = true ∧ c.Authenticates fragment message) := by
  constructor
  · intro h
    rcases receive_cases c fragment with ⟨-, heq⟩ | ⟨header, payload, -, -, heq⟩ |
      ⟨packet, -, heq⟩ | ⟨kind, packet, -, hassembles, heq⟩
    · simp [heq] at h
    · simp [heq] at h
    · simp [heq] at h
    · rw [heq, snd_finish_eq_complete_iff] at h
      rcases h with ⟨rfl, hplain, rfl⟩ | ⟨rfl, hauth, key, hkey, hdecrypt⟩
      · exact .inl ⟨hplain, hassembles⟩
      · exact .inr ⟨hauth, key, packet, hkey, hassembles, hdecrypt⟩
  · rintro (⟨rfl, hassembles⟩ | ⟨rfl, key, packet, hkey, hassembles, hdecrypt⟩)
    · rw [receive_of_assembles hassembles (by decide)]
      rfl
    · rw [receive_of_assembles hassembles (by decide), snd_finish_eq_complete_iff]
      exact .inr ⟨rfl, rfl, key, hkey, hdecrypt⟩

/-- The end of a packet is a forgery exactly if the packet is encrypted and has a wrong tag. -/
theorem snd_finish_eq_forged_iff {c : Channel} {kind : FragmentKind} {packet : Bytes} :
    (c.finish kind packet).2 = .skipping true ↔
      kind = .encrypted ∧ ∃ key, c.cipher.key = some key ∧ Ccm.tagSize ≤ packet.length ∧
        Ccm.decrypt? key c.cipher.receiveNonce Cipher.associated packet = none := by
  cases kind with
  | notFinished => simp [finish]
  | reserved => simp [finish]
  | plain => simp [finish]
  | encrypted =>
      cases hkey : c.cipher.key with
      | none => simp [finish, Cipher.hasKey, hkey]
      | some key =>
          have herror := Cipher.snd_decrypt_eq_error_decrypt_iff hkey packet
          rcases hdecrypt : c.cipher.decrypt packet with ⟨cipher, error | message⟩
          · rw [hdecrypt] at herror
            simpa [finish, Cipher.hasKey, hkey, hdecrypt] using herror
          · rw [hdecrypt] at herror
            simpa [finish, Cipher.hasKey, hkey, hdecrypt] using herror

/-- A fragment is taken for a forgery exactly if it completes a packet with a wrong tag. -/
theorem snd_receive_eq_forged_iff {c : Channel} {fragment : Bytes} :
    (c.receive fragment).2 = .skipping true ↔ c.Forges fragment := by
  constructor
  · intro h
    rcases receive_cases c fragment with ⟨-, heq⟩ | ⟨header, payload, -, -, heq⟩ |
      ⟨packet, -, heq⟩ | ⟨kind, packet, -, hassembles, heq⟩
    · simp [heq] at h
    · simp [heq] at h
    · simp [heq] at h
    · rw [heq, snd_finish_eq_forged_iff] at h
      obtain ⟨rfl, key, hkey, hlen, hdecrypt⟩ := h
      exact ⟨key, packet, hkey, hassembles, hlen, hdecrypt⟩
  · rintro ⟨key, packet, hkey, hassembles, hlen, hdecrypt⟩
    rw [receive_of_assembles hassembles (by decide), snd_finish_eq_forged_iff]
    exact ⟨rfl, key, hkey, hlen, hdecrypt⟩

/-! ## What stays -/

/-- The end of a packet moves at most the nonce for receiving. -/
theorem cipher_finish_eq (c : Channel) (kind : FragmentKind) (packet : Bytes) :
    (c.finish kind packet).1.cipher =
      if kind = .encrypted ∧ c.cipher.hasKey = true then c.cipher.advanceReceive
      else c.cipher := by
  cases kind with
  | notFinished => rfl
  | reserved => rfl
  | plain => rfl
  | encrypted =>
      cases hkey : c.cipher.key with
      | none => simp [finish, Cipher.hasKey, hkey]
      | some key =>
          have hfst := Cipher.fst_decrypt hkey packet
          rcases hdecrypt : c.cipher.decrypt packet with ⟨cipher, error | found⟩
          · rw [hdecrypt] at hfst
            simpa [finish, Cipher.hasKey, hkey, hdecrypt] using hfst
          · rw [hdecrypt] at hfst
            simpa [finish, Cipher.hasKey, hkey, hdecrypt] using hfst

/-- A fragment moves at most the nonce for receiving. -/
theorem cipher_receive_eq_or (c : Channel) (fragment : Bytes) :
    (c.receive fragment).1.cipher = c.cipher ∨
      (c.receive fragment).1.cipher = c.cipher.advanceReceive := by
  rcases receive_cases c fragment with ⟨-, heq⟩ | ⟨header, payload, -, -, heq⟩ |
    ⟨packet, -, heq⟩ | ⟨kind, packet, -, -, heq⟩
  · exact .inl (by rw [heq])
  · rw [heq, skip]
    split
    · exact .inr rfl
    · exact .inl rfl
  · exact .inl (by rw [heq])
  · rw [heq, cipher_finish_eq]
    split
    · exact .inr rfl
    · exact .inl rfl

/-- A fragment leaves the key alone. -/
@[simp] theorem key_receive (c : Channel) (fragment : Bytes) :
    (c.receive fragment).1.cipher.key = c.cipher.key := by
  rcases cipher_receive_eq_or c fragment with h | h <;> simp [h]

/-- A fragment leaves the role alone. -/
@[simp] theorem role_receive (c : Channel) (fragment : Bytes) :
    (c.receive fragment).1.cipher.role = c.cipher.role := by
  rcases cipher_receive_eq_or c fragment with h | h <;> simp [h]

/-- Sending moves at most the nonce for sending. -/
theorem cipher_send_eq_or (c : Channel) (writer : Fragment.Writer) (message : Bytes)
    (encrypted : Bool) :
    (c.send writer message encrypted).channel.cipher = c.cipher ∨
      (c.send writer message encrypted).channel.cipher = c.cipher.advanceSend := by
  cases encrypted with
  | false => exact .inl rfl
  | true =>
      have hfst := Cipher.fst_encrypt_eq_or c.cipher message
      simp only [send, if_true]
      rcases hencrypt : c.cipher.encrypt message with ⟨cipher, error | packet⟩
      · rwa [hencrypt] at hfst
      · rwa [hencrypt] at hfst

/-- Sending leaves the key alone. -/
@[simp] theorem key_send (c : Channel) (writer : Fragment.Writer) (message : Bytes)
    (encrypted : Bool) : (c.send writer message encrypted).channel.cipher.key = c.cipher.key := by
  rcases cipher_send_eq_or c writer message encrypted with h | h <;> simp [h]

/-- Sending does not change which end this is. -/
@[simp] theorem role_send (c : Channel) (writer : Fragment.Writer) (message : Bytes)
    (encrypted : Bool) : (c.send writer message encrypted).channel.cipher.role = c.cipher.role := by
  rcases cipher_send_eq_or c writer message encrypted with h | h <;> simp [h]

/-- With a key, exactly the encrypted last fragments move the nonce for receiving. -/
theorem cipher_receive {c : Channel} (hkey : c.cipher.hasKey = true) (fragment : Bytes) :
    (c.receive fragment).1.cipher =
      if Fragment.isEncrypted fragment then c.cipher.advanceReceive else c.cipher := by
  rcases receive_cases c fragment with ⟨hlen, heq⟩ | ⟨header, payload, rfl, hne, heq⟩ |
    ⟨packet, ⟨header, payload, buffer, rfl, hne, hkind, -⟩, heq⟩ |
    ⟨kind, packet, -, ⟨header, payload, buffer, rfl, hne, rfl, -⟩, heq⟩
  · have hshort : Fragment.isEncrypted fragment = false := by
      match fragment with
      | [] | [_] => rfl
      | _ :: _ :: _ => simp at hlen
    simp [heq, hshort]
  · obtain ⟨byte, rest, rfl⟩ := List.exists_cons_of_ne_nil hne
    simp [heq, skip, Fragment.isEncrypted]
  · obtain ⟨byte, rest, rfl⟩ := List.exists_cons_of_ne_nil hne
    simp [heq, Fragment.isEncrypted, hkind]
  · obtain ⟨byte, rest, rfl⟩ := List.exists_cons_of_ne_nil hne
    simp [heq, cipher_finish_eq, Fragment.isEncrypted, hkey]

end Channel

end SmartLock
