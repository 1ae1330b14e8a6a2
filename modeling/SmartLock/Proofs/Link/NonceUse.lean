/-
# Which nonces the two ends of a link use

A link of the third generation whose ends have installed one key.  For every message that a party
encrypts in a run, `Duplex.encryptions` notes the nonce, the message and the fragments that have
come to the link.  These are the fragments of the packet that AES-CCM makes of the message under the
key and this nonce.

Whatever is sent and delivered in which order, the nonces of a party are the numbered ones from zero
on (`Duplex.nonces_encryptions_keyed`).  They are the same for both parties, so that each party uses
the nonces of the other one, for the messages of the same numbers and for no others
(`Duplex.nonce_eq_nonce_iff_run`).
-/
import SmartLock.Proofs.Link.Numbering
import SmartLock.Proofs.Link.Written

namespace SmartLock

/-- Whether a move is the sending of an encrypted message by a party. -/
def Move.encryptsBy (sender : Role) : Move → Bool
  | .send other _ message => decide (other = sender) && message.encrypted
  | .deliver _ => false

namespace Duplex

/-- A message that a party has encrypted: under which nonce, to whom its packet has been offered, and
the fragments that have come to the link. -/
structure Encryption where
  nonce : Nonce
  message : Bytes
  writer : Fragment.Writer
  placed : List Bytes

/-- The encryption that a party makes with this move, if it does. -/
def encryption? (l : Duplex) (sender : Role) : Move → Option Encryption
  | .send other writer message =>
      if other = sender ∧ message.encrypted = true then
        some
          { nonce := (l.channel sender).cipher.sendNonce
            message := message.body
            writer := writer
            placed := ((l.step (.send other writer message)).inbox sender.peer).drop
              (l.inbox sender.peer).length }
      else none
  | .deliver _ => none

/-- The encryptions of a party in a run. -/
def encryptions (l : Duplex) (sender : Role) : List Move → List Encryption
  | [] => []
  | move :: rest => (l.encryption? sender move).toList ++ (l.step move).encryptions sender rest

/-- What is noted of an encryption: the nonce is the one for sending, and the fragments are those
that the writer has taken of the message. -/
theorem of_encryption? {l : Duplex} {sender : Role} {move : Move} {x : Encryption}
    (h : l.encryption? sender move = some x) : x.nonce = (l.channel sender).cipher.sendNonce ∧
      x.placed = ((l.channel sender).send x.writer x.message true).offer.taken := by
  cases move with
  | deliver receiver => cases h
  | send other writer message =>
      obtain ⟨⟨rfl, hencrypted⟩, hx⟩ := Option.ite_none_right_eq_some.mp h
      rw [← Option.some.inj hx]
      refine ⟨rfl, ?_⟩
      -- They come behind what is under way already.
      simp only [step, Function.update_self, List.drop_left, hencrypted]

/-- A party makes an encryption exactly with the moves in which it sends a message encrypted. -/
theorem isSome_encryption? (l : Duplex) (sender : Role) (move : Move) :
    (l.encryption? sender move).isSome = move.encryptsBy sender := by
  cases move with
  | deliver receiver => rfl
  | send other writer message =>
      by_cases hother : other = sender <;> cases hencrypted : message.encrypted <;>
        simp [encryption?, Move.encryptsBy, hother, hencrypted]

/-- With a key, what has come to the link is the packet of the message under this key and the nonce,
as far as it has been taken. -/
theorem placed_of_encryption? {l : Duplex} {sender : Role} {move : Move} {x : Encryption} {key : Key}
    (hkey : (l.channel sender).cipher.key = some key) (h : l.encryption? sender move = some x) :
    x.placed = (Fragment.offerSealed x.writer
      (Ccm.encrypt? key x.nonce Cipher.associated x.message)).taken := by
  obtain ⟨hnonce, hplaced⟩ := of_encryption? h
  rw [hplaced, hnonce, Channel.offer_send_encrypted hkey]

/-! ## Numbers along a run -/

section Numbers

variable {key : Key} {peripheral : Token}

/-- A move takes a number of a party if that party encrypts, and of nobody else. -/
theorem numbered_step {l : Duplex} {role : Role} {next : Nat}
    (h : (l.channel role).cipher.Numbered key peripheral next) (move : Move) :
    ((l.step move).channel role).cipher.Numbered key peripheral
      (next + if move.encryptsBy role then 1 else 0) := by
  cases move with
  | send sender writer message =>
      by_cases hrole : sender = role
      · subst hrole
        simp only [step, Function.update_self, Move.encryptsBy, decide_true, Bool.true_and]
        exact Channel.numbered_send h writer message.body message.encrypted
      · simp only [step, Function.update_of_ne (Ne.symm hrole), Move.encryptsBy, hrole,
          decide_false, Bool.false_and]
        exact h
  | deliver receiver =>
      change ((l.step (.deliver receiver)).channel role).cipher.Numbered key peripheral next
      cases hinbox : l.inbox receiver with
      | nil => simpa only [step, hinbox] using h
      | cons fragment rest =>
          simp only [step, hinbox]
          by_cases hrole : receiver = role
          · subst hrole
            rw [Function.update_self]
            exact Channel.numbered_receive h fragment
          · rw [Function.update_of_ne (Ne.symm hrole)]
            exact h

/-- From then on a party encrypts under the numbered nonces that come next. -/
theorem nonces_of_numbered {l : Duplex} {sender : Role} {next : Nat}
    (h : (l.channel sender).cipher.Numbered key peripheral next) (moves : List Move) :
    (l.encryptions sender moves).map Encryption.nonce =
      (List.range' next (moves.countP (Move.encryptsBy sender))).map
        (Nonces.numbered peripheral) := by
  induction moves generalizing l next with
  | nil => rfl
  | cons move rest ih =>
      rw [encryptions, List.map_append, ih (numbered_step h move), List.countP_cons,
        ← isSome_encryption? l sender move]
      cases hused : l.encryption? sender move with
      | none => rfl
      | some x =>
          rw [Option.toList_some, List.map_singleton, (of_encryption? hused).1, h.sendNonce]
          rfl

/-- From then on everything that a party encrypts comes to the link as its packet. -/
theorem placed_of_numbered {l : Duplex} {sender : Role} {next : Nat}
    (h : (l.channel sender).cipher.Numbered key peripheral next) {moves : List Move} :
    ∀ x ∈ l.encryptions sender moves, x.placed = (Fragment.offerSealed x.writer
      (Ccm.encrypt? key x.nonce Cipher.associated x.message)).taken := by
  induction moves generalizing l next with
  | nil => exact fun x hx => absurd hx List.not_mem_nil
  | cons move rest ih =>
      intro x hx
      rcases List.mem_append.mp hx with hx | hx
      · exact placed_of_encryption? h.key (Option.mem_toList.mp hx)
      · exact ih (numbered_step h move) x hx

end Numbers

/-! ## Links under a key -/

section Keyed

variable {old : Role → Channel} (key : Key) (token : Role → Token)
  (hold : ∀ role, (old role).cipher.role = role ∧ (old role).cipher.rule = .os3)

include hold

/-- Both parties begin with number zero and say the token of the peripheral. -/
theorem numbered_keyed (role : Role) :
    ((keyed old key token).channel role).cipher.Numbered key (token .peripheral) 0 := by
  obtain ⟨hrole, hrule⟩ := hold role
  have hnumbered := Cipher.numbered_withKey hrule key (token role) (token role.peer)
  rw [hrole] at hnumbered
  cases role with
  | central => exact hnumbered
  | peripheral => exact hnumbered

/-- Each party encrypts under the numbered nonces from zero on, one after the other. -/
theorem nonces_encryptions_keyed (sender : Role) (moves : List Move) :
    ((keyed old key token).encryptions sender moves).map Encryption.nonce =
      (List.range (moves.countP (Move.encryptsBy sender))).map
        (Nonces.numbered (token .peripheral)) := by
  rw [nonces_of_numbered (numbered_keyed key token hold sender), List.range_eq_range']

end Keyed

/-- **The nonces of both directions.**  Two ends of the third generation install the same key with
mirrored tokens.  Whatever they send and receive after that, each makes one encryption for every
message that it sends encrypted, and what comes to the link is the packet that AES-CCM makes of the
message under the key and the nonce of the encryption.  The nonces of two encryptions, of one party
or of both, are equal exactly if these have the same number in their directions, modulo the period.
Up to the period that means: no party uses a nonce twice, and the two parties have the nonces of
equal numbers in common. -/
theorem nonce_eq_nonce_iff_run {old : Role → Channel} (key : Key) (token : Role → Token)
    (hold : ∀ role, (old role).cipher.role = role ∧ (old role).cipher.rule = .os3)
    (moves : List Move) :
    let log := fun role => (keyed old key token).encryptions role moves
    (∀ role, (log role).length = moves.countP (Move.encryptsBy role)) ∧
      (∀ role, ∀ x ∈ log role, x.placed = (Fragment.offerSealed x.writer
        (Ccm.encrypt? key x.nonce Cipher.associated x.message)).taken) ∧
      (∀ a b i j (hi : i < (log a).length) (hj : j < (log b).length),
        (log a)[i].nonce = (log b)[j].nonce ↔ i % Nonces.period = j % Nonces.period) ∧
      ((∀ role, (log role).length ≤ Nonces.period) →
        ∀ a b i j (hi : i < (log a).length) (hj : j < (log b).length),
          (log a)[i].nonce = (log b)[j].nonce ↔ i = j) := by
  intro log
  have hnonces (role : Role) : (log role).map Encryption.nonce =
      (List.range (moves.countP (Move.encryptsBy role))).map
        (Nonces.numbered (token .peripheral)) := nonces_encryptions_keyed key token hold role moves
  have hget (role : Role) (i : Nat) (hi : i < (log role).length) :
      (log role)[i].nonce = Nonces.numbered (token .peripheral) i := by
    have hnonce := List.getElem_map Encryption.nonce (l := log role) (i := i)
      (h := by rwa [List.length_map])
    rw [← hnonce]
    simp only [hnonces, List.getElem_map, List.getElem_range]
  have hiff (a b : Role) (i j : Nat) (hi : i < (log a).length) (hj : j < (log b).length) :
      (log a)[i].nonce = (log b)[j].nonce ↔ i % Nonces.period = j % Nonces.period := by
    rw [hget, hget, Nonces.numbered_eq_numbered_iff]
    exact and_iff_right rfl
  refine ⟨fun role => ?_, fun role => placed_of_numbered (numbered_keyed key token hold role), hiff,
    fun hfew a b i j hi hj => ?_⟩
  · rw [← List.length_map Encryption.nonce, hnonces, List.length_map, List.length_range]
  · rw [hiff, Nat.mod_eq_of_lt (Nat.lt_of_lt_of_le hi (hfew a)),
      Nat.mod_eq_of_lt (Nat.lt_of_lt_of_le hj (hfew b))]

/-- Each of the two parties encrypts an empty message. -/
def greetings : List Move :=
  [.send .central (fun _ _ => true) ⟨[], true⟩, .send .peripheral (fun _ _ => true) ⟨[], true⟩]

/-- The first messages of the two parties have the same nonce. -/
theorem nonce_eq_nonce_greetings :
    let start := keyed (Channel.new .os3) (Octets.zero 16) fun _ => Octets.zero 4
    (∀ role, (Channel.new .os3 role).cipher.role = role ∧
        (Channel.new .os3 role).cipher.rule = .os3) ∧
      ∃ x ∈ start.encryptions .central greetings, ∃ y ∈ start.encryptions .peripheral greetings,
        x.nonce = y.nonce := by
  intro start
  have hnew : ∀ role, (Channel.new .os3 role).cipher.role = role ∧
      (Channel.new .os3 role).cipher.rule = .os3 := fun _ => ⟨rfl, rfl⟩
  obtain ⟨hlength, -, hiff, -⟩ :=
    nonce_eq_nonce_iff_run (Octets.zero 16) (fun _ => Octets.zero 4) hnew greetings
  have hcentral : 0 < (start.encryptions .central greetings).length := by
    rw [hlength]
    decide
  have hperipheral : 0 < (start.encryptions .peripheral greetings).length := by
    rw [hlength]
    decide
  exact ⟨hnew, _, List.getElem_mem hcentral, _, List.getElem_mem hperipheral,
    (hiff .central .peripheral 0 0 hcentral hperipheral).mpr rfl⟩

/-- Not even with one message each are the nonces of the two parties different. -/
theorem not_forall_nonces_disjoint :
    ¬ ∀ (old : Role → Channel) (key : Key) (token : Role → Token) (moves : List Move),
      (∀ role, (old role).cipher.role = role ∧ (old role).cipher.rule = .os3) →
      (∀ role, moves.countP (Move.encryptsBy role) < Nonces.period) →
      ∀ x ∈ (keyed old key token).encryptions .central moves,
        ∀ y ∈ (keyed old key token).encryptions .peripheral moves, x.nonce ≠ y.nonce := by
  intro h
  have hnew : ∀ role, (Channel.new .os3 role).cipher.role = role ∧
      (Channel.new .os3 role).cipher.rule = .os3 := fun _ => ⟨rfl, rfl⟩
  have hfew : ∀ role, greetings.countP (Move.encryptsBy role) < Nonces.period := by
    intro role
    cases role <;> decide
  have hnonce (role : Role) : Nonces.numbered (Octets.zero 4) 0 ∈
      ((keyed (Channel.new .os3) (Octets.zero 16) fun _ => Octets.zero 4).encryptions role
        greetings).map Encryption.nonce := by
    rw [nonces_encryptions_keyed (Octets.zero 16) (fun _ => Octets.zero 4) hnew]
    cases role <;> exact List.mem_cons_self
  obtain ⟨x, hx, hxnonce⟩ := List.mem_map.mp (hnonce .central)
  obtain ⟨y, hy, hynonce⟩ := List.mem_map.mp (hnonce .peripheral)
  exact h (Channel.new .os3) (Octets.zero 16) (fun _ => Octets.zero 4) greetings hnew hfew x hx y hy
    (hxnonce.trans hynonce.symm)

end Duplex

end SmartLock
