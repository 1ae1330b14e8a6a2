/-
# Reliable streams

Two ends of a link with what is under way between them.  Messages go in both directions, sends and
deliveries interleave freely, and each direction keeps its order.

`Duplex.reliable_run` says what every such run comes to: each side has received exactly the messages
of the other side that are short enough, in their order, up to the fragment that has been delivered
last; nothing ever counts as forged; and the nonce for receiving is the one that the other side had
for sending after as many messages.

The direction towards one party is looked at on its own.  All that its sender does is to put the
fragments of one message after another into the queue (`Cipher.fragments`), all that its receiver
does is to take them out (`Channel.receiveAll`), and what either of them does in the other direction
goes unnoticed.
-/
import Mathlib.Data.List.Induction
import Mathlib.Logic.Function.Basic
import SmartLock.Proofs.Link.Lockstep

namespace SmartLock

/-! ## Messages one after the other -/

namespace Cipher

/-- The end after several messages. -/
def afterAll (c : Cipher) : List Message → Cipher
  | [] => c
  | m :: rest => (c.pack m).1.afterAll rest

/-- The fragments of several messages. -/
def fragments (c : Cipher) : List Message → List Bytes
  | [] => []
  | m :: rest => Fragment.split m.encrypted (c.pack m).2 ++ (c.pack m).1.fragments rest

/-- One more message moves the end once more. -/
theorem afterAll_concat (c : Cipher) (ms : List Message) (m : Message) :
    c.afterAll (ms ++ [m]) = ((c.afterAll ms).pack m).1 := by
  induction ms generalizing c with
  | nil => rfl
  | cons first rest ih => exact ih _

/-- The fragments of one more message come last. -/
theorem fragments_concat (c : Cipher) (ms : List Message) (m : Message) :
    c.fragments (ms ++ [m]) =
      c.fragments ms ++ Fragment.split m.encrypted ((c.afterAll ms).pack m).2 := by
  induction ms generalizing c with
  | nil => simp [fragments, afterAll]
  | cons first rest ih => simp only [List.cons_append, fragments, ih, afterAll, List.append_assoc]

/-- Each message has one last fragment. -/
theorem countP_isLast_fragments {c : Cipher} {key : Key} (hkey : c.key = some key)
    {ms : List Message} (hms : ∀ m ∈ ms, m.Sendable) :
    (c.fragments ms).countP Fragment.isLast = ms.length := by
  induction ms generalizing c with
  | nil => rfl
  | cons m rest ih =>
      obtain ⟨-, hne, -⟩ := pack_spec hkey (hms m List.mem_cons_self)
      rw [fragments, List.countP_append, Fragment.countP_isLast_split _ hne,
        ih ((key_pack c m).trans hkey) (fun m hm => hms m (List.mem_cons_of_mem _ hm)),
        List.length_cons, Nat.add_comm]

@[simp] theorem role_afterAll (c : Cipher) (ms : List Message) :
    (c.afterAll ms).role = c.role := by
  induction ms generalizing c with
  | nil => rfl
  | cons m rest ih => rw [afterAll, ih, role_pack]

@[simp] theorem key_afterAll (c : Cipher) (ms : List Message) : (c.afterAll ms).key = c.key := by
  induction ms generalizing c with
  | nil => rfl
  | cons m rest ih => rw [afterAll, ih, key_pack]

end Cipher

/-- Whether a whole message has come. -/
def Received.isComplete : Received → Bool
  | .complete .. => true
  | _ => false

/-- What is of no note is no message. -/
theorem Received.IsQuiet.isComplete_eq {r : Received} (h : r.IsQuiet) : r.isComplete = false := by
  cases r with
  | complete message authenticated => exact absurd rfl (h.2 message authenticated)
  | _ => rfl

/-- Among what is of no note there are no messages. -/
theorem filter_isComplete_of_isQuiet {quiet : List Received} (h : ∀ r ∈ quiet, r.IsQuiet) :
    quiet.filter Received.isComplete = [] := by
  rw [List.filter_eq_nil_iff]
  intro r hr
  simp [(h r hr).isComplete_eq]

namespace Channel

/-- What a receiver has of a stream of messages when some of their fragments have been delivered to
it.  As many messages are through as last fragments are among those: the ones that are short enough
have come, no fragment counted as forged, and the nonces agree as after these messages. -/
structure Follows (a : Cipher) (c : Channel) (ms : List Message) (delivered : List Bytes) :
    Prop where
  count_le : delivered.countP Fragment.isLast ≤ ms.length
  complete : (c.receiveAll delivered).2.filter Received.isComplete =
    ((ms.take (delivered.countP Fragment.isLast)).filter (·.Fits)).map Message.received
  not_forged : .skipping true ∉ (c.receiveAll delivered).2
  agrees : (a.afterAll (ms.take (delivered.countP Fragment.isLast))).AgreesOn
    c.cipher.role.inward (c.receiveAll delivered).1.cipher

/-- As long as no last fragment has come, no message is through. -/
theorem Follows.of_not_isLast {a : Cipher} {c : Channel} (ms : List Message)
    (hagrees : a.AgreesOn c.cipher.role.inward c.cipher) {delivered : List Bytes}
    (h : ∀ fragment ∈ delivered, Fragment.isLast fragment = false) : Follows a c ms delivered := by
  obtain ⟨hquiet, hcipher⟩ := receiveAll_of_not_isLast c h
  have hcount : delivered.countP Fragment.isLast = 0 := by
    rw [List.countP_eq_zero]
    intro fragment hmem
    simp [h fragment hmem]
  constructor
  · rw [hcount]
    exact Nat.zero_le _
  · rw [hcount, filter_isComplete_of_isQuiet hquiet]
    rfl
  · exact fun hr => (hquiet _ hr).1 rfl
  · rw [hcount, hcipher]
    exact hagrees

/-- A whole message comes before what follows it. -/
theorem Follows.cons {a : Cipher} {c : Channel} {key : Key} (hkey : c.cipher.key = some key)
    (hrole : a.role = c.cipher.role.peer) (hagrees : a.AgreesOn c.cipher.role.inward c.cipher)
    {m : Message} (hm : m.Sendable) {later : List Message} {more : List Bytes}
    (h : ∀ after : Channel, after.cipher.key = some key → after.cipher.role = c.cipher.role →
      (a.pack m).1.AgreesOn c.cipher.role.inward after.cipher →
      Follows (a.pack m).1 after later more) :
    Follows a c (m :: later) (Fragment.split m.encrypted (a.pack m).2 ++ more) := by
  obtain ⟨-, hne, -⟩ := Cipher.pack_spec (hagrees.1.trans hkey) hm
  obtain ⟨after, quiet, hquiet, heq, hafter⟩ := receiveAll_pack hkey hrole hagrees hm
  have hrole' : after.cipher.role = c.cipher.role := by
    simpa only [heq] using role_receiveAll c (Fragment.split m.encrypted (a.pack m).2)
  have hkey' : after.cipher.key = c.cipher.key := by
    simpa only [heq] using key_receiveAll c (Fragment.split m.encrypted (a.pack m).2)
  obtain ⟨hle, hcomplete, hforged, hnonce⟩ := h after (hkey'.trans hkey) hrole' hafter
  -- The fragments of the message have one last one, so one message more is through.
  have hcount : (Fragment.split m.encrypted (a.pack m).2 ++ more).countP Fragment.isLast =
      more.countP Fragment.isLast + 1 := by
    rw [List.countP_append, Fragment.countP_isLast_split _ hne, Nat.add_comm]
  constructor
  · rw [hcount]
    exact Nat.succ_le_succ hle
  · rw [hcount, receiveAll_append, heq, List.filter_append, List.filter_append,
      filter_isComplete_of_isQuiet hquiet, hcomplete, List.take_succ_cons, List.filter_cons]
    by_cases hfits : m.Fits
    · simp [hfits, Message.received, Received.isComplete]
    · simp [hfits, Received.isComplete]
  · rw [receiveAll_append, heq, List.mem_append, List.mem_append, not_or, not_or]
    refine ⟨⟨fun hr => (hquiet _ hr).1 rfl, ?_⟩, hforged⟩
    by_cases hfits : m.Fits
    · simp [hfits, Message.received]
    · simp [hfits]
  · rw [hcount, receiveAll_append, heq, List.take_succ_cons, Cipher.afterAll, ← hrole']
    exact hnonce

/-- A receiver follows a stream of messages, wherever the delivery of their fragments stands. -/
theorem follows_of_fragments {a : Cipher} {c : Channel} {key : Key}
    (hkey : c.cipher.key = some key) (hrole : a.role = c.cipher.role.peer)
    (hagrees : a.AgreesOn c.cipher.role.inward c.cipher) {ms : List Message}
    (hms : ∀ m ∈ ms, m.Sendable) {delivered rest : List Bytes}
    (h : a.fragments ms = delivered ++ rest) : Follows a c ms delivered := by
  -- Each message moves both ends, so the induction is over all ends that agree.
  induction ms generalizing a c delivered with
  | nil =>
      obtain ⟨rfl, rfl⟩ := List.append_eq_nil_iff.mp h.symm
      exact .of_not_isLast [] hagrees (by simp)
  | cons m later ih =>
      have hm := hms m List.mem_cons_self
      have hlater : ∀ m ∈ later, m.Sendable := fun m hm => hms m (List.mem_cons_of_mem _ hm)
      have hcons {more : List Bytes} (hmore : (a.pack m).1.fragments later = more ++ rest) :
          Follows a c (m :: later) (Fragment.split m.encrypted (a.pack m).2 ++ more) := by
        apply Follows.cons hkey hrole hagrees hm
        intro after hkey' hrole' hafter
        exact ih hkey' (by rw [Cipher.role_pack, hrole', hrole]) (hrole' ▸ hafter) hlater hmore
      -- Either the first message has been delivered whole, or its last fragment is missing.
      rw [Cipher.fragments] at h
      rcases List.append_eq_append_iff.mp h with ⟨more, rfl, hmore⟩ | ⟨missing, hpart, hrest⟩
      · exact hcons hmore
      · by_cases hmissing : missing = []
        · subst hmissing
          rw [List.append_nil] at hpart
          rw [← hpart, ← List.append_nil (Fragment.split m.encrypted (a.pack m).2)]
          exact hcons (by simpa using hrest.symm)
        · apply Follows.of_not_isLast _ hagrees
          intro fragment hmem
          apply Fragment.not_isLast_of_mem_dropLast_split m.encrypted (a.pack m).2
          rw [hpart, List.dropLast_append_of_ne_nil hmissing]
          exact List.mem_append_left _ hmem

end Channel

/-! ## Both directions -/

/-- Two ends of a link, the fragments that are under way to each of them, those that have been
delivered to it, and what each of these led to. -/
structure Duplex where
  channel : Role → Channel
  inbox : Role → List Bytes := fun _ => []
  delivered : Role → List Bytes := fun _ => []
  received : Role → List Received := fun _ => []

/-- One side sends a message through a writer, or the next fragment is delivered to it. -/
inductive Move where
  | send (sender : Role) (writer : Fragment.Writer) (message : Message)
  | deliver (receiver : Role)

/-- The message can be sent, and the writer takes all of its fragments. -/
def Move.Admissible : Move → Prop
  | .send _ writer message => Fragment.TakesAll writer ∧ message.Sendable
  | .deliver _ => True

/-- The messages that have been sent to a party. -/
def sentTo (receiver : Role) (moves : List Move) : List Message :=
  moves.filterMap fun
    | .send sender _ message => if sender = receiver.peer then some message else none
    | .deliver _ => none

/-- What is sent in two parts of a run is sent one after the other. -/
theorem sentTo_append (receiver : Role) (first second : List Move) :
    sentTo receiver (first ++ second) = sentTo receiver first ++ sentTo receiver second :=
  List.filterMap_append

/-- A message counts as sent to the party that did not send it. -/
theorem sentTo_concat_send (receiver : Role) (moves : List Move) (sender : Role)
    (writer : Fragment.Writer) (message : Message) :
    sentTo receiver (moves ++ [.send sender writer message]) =
      sentTo receiver moves ++ if sender = receiver.peer then [message] else [] := by
  rw [sentTo_append]
  by_cases h : sender = receiver.peer <;> simp [sentTo, h]

/-- A delivery sends nothing. -/
theorem sentTo_concat_deliver (receiver : Role) (moves : List Move) (other : Role) :
    sentTo receiver (moves ++ [.deliver other]) = sentTo receiver moves := by
  simp [sentTo]

/-- What has been sent to a party can be sent. -/
theorem sendable_of_mem_sentTo {receiver : Role} {moves : List Move}
    (hmoves : ∀ move ∈ moves, move.Admissible) {m : Message} (hm : m ∈ sentTo receiver moves) :
    m.Sendable := by
  obtain ⟨move, hmem, hsent⟩ := List.mem_filterMap.mp hm
  cases move with
  | send sender writer message =>
      by_cases h : sender = receiver.peer
      · obtain rfl : message = m := by simpa [h] using hsent
        exact (hmoves _ hmem).2
      · simp [h] at hsent
  | deliver other => simp at hsent

namespace Duplex

/-- Two ends that have just installed a key, with mirrored tokens, in the middle of whatever packets
they were receiving. -/
def keyed (old : Role → Channel) (key : Key) (token : Role → Token) : Duplex where
  channel role := (old role).withKey key (token role) (token role.peer)

/-- The link after a move; when nothing is under way, nothing is delivered. -/
def step (l : Duplex) : Move → Duplex
  | .send sender writer message =>
      let sent := (l.channel sender).send writer message.body message.encrypted
      { l with
        channel := Function.update l.channel sender sent.channel
        inbox := Function.update l.inbox sender.peer (l.inbox sender.peer ++ sent.offer.taken) }
  | .deliver receiver =>
      match l.inbox receiver with
      | [] => l
      | fragment :: rest =>
          let after := (l.channel receiver).receive fragment
          { channel := Function.update l.channel receiver after.1
            inbox := Function.update l.inbox receiver rest
            delivered := Function.update l.delivered receiver (l.delivered receiver ++ [fragment])
            received := Function.update l.received receiver (l.received receiver ++ [after.2]) }

/-- The link after several moves. -/
def run (l : Duplex) (moves : List Move) : Duplex := moves.foldl step l

/-- One more move is one more step. -/
theorem run_concat (l : Duplex) (moves : List Move) (move : Move) :
    l.run (moves ++ [move]) = (l.run moves).step move := by
  simp [run]

/-- No move changes which end is which. -/
theorem role_step (l : Duplex) (move : Move) (role : Role) :
    ((l.step move).channel role).cipher.role = (l.channel role).cipher.role := by
  cases move with
  | send sender writer message =>
      by_cases h : role = sender
      · subst h
        simp only [step, Function.update_self, Channel.role_send]
      · simp only [step, Function.update_of_ne h]
  | deliver receiver =>
      cases hinbox : l.inbox receiver with
      | nil => simp only [step, hinbox]
      | cons fragment rest =>
          by_cases h : role = receiver
          · subst h
            simp only [step, hinbox, Function.update_self, Channel.role_receive]
          · simp only [step, hinbox, Function.update_of_ne h]

/-- No run changes which end is which. -/
theorem role_run (l : Duplex) (moves : List Move) (role : Role) :
    ((l.run moves).channel role).cipher.role = (l.channel role).cipher.role := by
  induction moves using List.reverseRecOn with
  | nil => rfl
  | append_singleton moves move ih => rw [run_concat, role_step, ih]

/-! ### One direction of the two -/

/-- What holds of the direction towards one party after some messages have been sent to it, in terms
of the two ends at the start: which fragments have been made and where they are, and how the two
ends stand in this direction. -/
structure Tracks (start : Duplex) (receiver : Role) (sent : List Message) (l : Duplex) :
    Prop where
  queue : (start.channel receiver.peer).cipher.fragments sent =
    l.delivered receiver ++ l.inbox receiver
  sending : ((start.channel receiver.peer).cipher.afterAll sent).AgreesOn receiver.inward
    (l.channel receiver.peer).cipher
  receiving : (((start.channel receiver).receiveAll (l.delivered receiver)).1).AgreesOn
    receiver.inward (l.channel receiver)
  log : l.received receiver = ((start.channel receiver).receiveAll (l.delivered receiver)).2

section Steps

variable {start l : Duplex} {receiver : Role} {sent : List Message} {key : Key}
  (hstart : ∀ role, (start.channel role).cipher.role = role)
  (hrole : ∀ role, (l.channel role).cipher.role = role)
  (hkey : ∀ role, (start.channel role).cipher.key = some key)

include hstart hrole hkey

/-- What is sent to a party lines up behind what is under way to it. -/
theorem Tracks.send_peer (h : start.Tracks receiver sent l) {writer : Fragment.Writer}
    {m : Message} (hwriter : Fragment.TakesAll writer) (hm : m.Sendable) :
    start.Tracks receiver (sent ++ [m]) (l.step (.send receiver.peer writer m)) := by
  have hkey' : (l.channel receiver.peer).cipher.key = some key := by
    rw [← h.sending.1, Cipher.key_afterAll, hkey]
  have hout : ((start.channel receiver.peer).cipher.afterAll sent).role.outward =
      receiver.inward := by
    rw [Cipher.role_afterAll, hstart, Role.outward_peer]
  -- The sender has moved its other nonce meanwhile, which does not change what it writes.
  obtain ⟨hpacket, hagrees⟩ := Cipher.AgreesOn.pack (m := m) (hout.symm ▸ h.sending)
    (by rw [Cipher.role_afterAll, hstart, hrole])
  rw [hout] at hagrees
  constructor
  · simp only [step, Channel.send_of_takesAll hkey' hm hwriter, Role.peer_peer,
      Function.update_self]
    rw [Cipher.fragments_concat, h.queue, hpacket, List.append_assoc]
  · simp only [step, Channel.send_of_takesAll hkey' hm hwriter, Function.update_self]
    rw [Cipher.afterAll_concat]
    exact hagrees
  · simp only [step, Function.update_of_ne receiver.peer_ne.symm]
    exact h.receiving
  · exact h.log

omit hstart in
/-- What a party sends itself does not concern the direction towards it. -/
theorem Tracks.send_self (h : start.Tracks receiver sent l) {writer : Fragment.Writer}
    {m : Message} (hwriter : Fragment.TakesAll writer) (hm : m.Sendable) :
    start.Tracks receiver sent (l.step (.send receiver writer m)) := by
  have hkey' : (l.channel receiver).cipher.key = some key := by
    rw [← h.receiving.1.1, Channel.key_receiveAll, hkey]
  constructor
  · simp only [step, Function.update_of_ne receiver.peer_ne.symm]
    exact h.queue
  · simp only [step, Function.update_of_ne receiver.peer_ne]
    exact h.sending
  · simp only [step, Channel.send_of_takesAll hkey' hm hwriter, Function.update_self]
    have hpack := Cipher.agreesOn_pack (l.channel receiver).cipher m
    rw [hrole] at hpack
    exact ⟨h.receiving.1.trans hpack, h.receiving.2⟩
  · exact h.log

omit hkey in
/-- What is delivered to a party leaves the queue and goes into its log. -/
theorem Tracks.deliver_self (h : start.Tracks receiver sent l) :
    start.Tracks receiver sent (l.step (.deliver receiver)) := by
  cases hinbox : l.inbox receiver with
  | nil => simpa only [step, hinbox] using h
  | cons fragment rest =>
      have hin : ((start.channel receiver).receiveAll (l.delivered receiver)).1.cipher.role.inward =
          receiver.inward := by
        rw [Channel.role_receiveAll, hstart]
      obtain ⟨hresult, hagrees⟩ := Channel.AgreesOn.receive (hin.symm ▸ h.receiving)
        (by rw [Channel.role_receiveAll, hstart, hrole]) fragment
      rw [hin] at hagrees
      constructor
      · simp only [step, hinbox, Function.update_self]
        rw [h.queue, hinbox, List.append_assoc]
        rfl
      · simp only [step, hinbox, Function.update_of_ne receiver.peer_ne]
        exact h.sending
      · simp only [step, hinbox, Function.update_self, Channel.receiveAll_append]
        exact hagrees
      · simp only [step, hinbox, Function.update_self, Channel.receiveAll_append]
        rw [h.log, ← hresult]
        rfl

omit hstart hkey in
/-- What is delivered to the other party does not concern the direction towards this one. -/
theorem Tracks.deliver_peer (h : start.Tracks receiver sent l) :
    start.Tracks receiver sent (l.step (.deliver receiver.peer)) := by
  cases hinbox : l.inbox receiver.peer with
  | nil => simpa only [step, hinbox] using h
  | cons fragment rest =>
      have hreceive := Channel.agreesOn_receive (l.channel receiver.peer) fragment
      rw [hrole, Role.outward_peer] at hreceive
      constructor
      · simp only [step, hinbox, Function.update_of_ne receiver.peer_ne.symm]
        exact h.queue
      · simp only [step, hinbox, Function.update_self]
        exact h.sending.trans hreceive
      · simp only [step, hinbox, Function.update_of_ne receiver.peer_ne.symm]
        exact h.receiving
      · simp only [step, hinbox, Function.update_of_ne receiver.peer_ne.symm]
        exact h.log

end Steps

/-- Every admissible move keeps the direction towards each party in order. -/
theorem Tracks.step {start l : Duplex} {receiver : Role} {moves : List Move} {key : Key}
    (hstart : ∀ role, (start.channel role).cipher.role = role)
    (hrole : ∀ role, (l.channel role).cipher.role = role)
    (hkey : ∀ role, (start.channel role).cipher.key = some key)
    (h : start.Tracks receiver (sentTo receiver moves) l) {move : Move} (hmove : move.Admissible) :
    start.Tracks receiver (sentTo receiver (moves ++ [move])) (l.step move) := by
  cases move with
  | send sender writer message =>
      obtain ⟨hwriter, hm⟩ := hmove
      by_cases hsender : sender = receiver
      · subst hsender
        rw [sentTo_concat_send, if_neg sender.peer_ne.symm, List.append_nil]
        exact h.send_self hrole hkey hwriter hm
      · obtain rfl := Role.eq_peer_of_ne hsender
        rw [sentTo_concat_send, if_pos rfl]
        exact h.send_peer hstart hrole hkey hwriter hm
  | deliver other =>
      rw [sentTo_concat_deliver]
      by_cases hother : other = receiver
      · subst hother
        exact h.deliver_self hstart hrole
      · obtain rfl := Role.eq_peer_of_ne hother
        exact h.deliver_peer hrole

/-- From two ends that hold the same key, every admissible run keeps both directions in order. -/
theorem tracks_run {start : Duplex} {key : Key}
    (hstart : ∀ role, (start.channel role).cipher.role = role)
    (hkey : ∀ role, (start.channel role).cipher.key = some key) {receiver : Role}
    (hinbox : start.inbox receiver = [])
    (hdelivered : start.delivered receiver = []) (hreceived : start.received receiver = [])
    {moves : List Move} (hmoves : ∀ move ∈ moves, move.Admissible) :
    start.Tracks receiver (sentTo receiver moves) (start.run moves) := by
  induction moves using List.reverseRecOn with
  | nil =>
      constructor
      · rw [run, List.foldl_nil, hinbox, hdelivered]
        rfl
      · exact .refl _ _
      · rw [run, List.foldl_nil, hdelivered]
        exact .refl _ _
      · rw [run, List.foldl_nil, hdelivered, hreceived]
        rfl
  | append_singleton moves move ih =>
      rw [run_concat]
      apply Tracks.step hstart (fun role => (role_run start moves role).trans (hstart role)) hkey
      · exact ih fun move hmove => hmoves move (List.mem_append_left _ hmove)
      · exact hmoves move (by simp)

/-! ### Every run -/

/-- Both ends know the key. -/
theorem key_keyed (old : Role → Channel) (key : Key) (token : Role → Token) (role : Role) :
    ((keyed old key token).channel role).cipher.key = some key := rfl

section Keyed

variable {old : Role → Channel} {rule : NonceRule} (key : Key) (token : Role → Token)
  (hold : ∀ role, (old role).cipher.role = role ∧ (old role).cipher.rule = rule)

include hold

/-- Two ends that have installed a key with mirrored tokens agree on both directions. -/
theorem agreesOn_keyed (d : Direction) (role : Role) :
    ((keyed old key token).channel role.peer).cipher.AgreesOn d
      ((keyed old key token).channel role).cipher := by
  have hnonces (role : Role) : ((keyed old key token).channel role).cipher.nonces =
      Nonces.start rule (token .central) (token .peripheral) := by
    obtain ⟨hrole, hrule⟩ := hold role
    simp only [keyed, Channel.withKey, Cipher.withKey, hrole, hrule]
    cases role <;> rfl
  refine ⟨rfl, ?_, ?_⟩
  · exact (hold role.peer).2.trans (hold role).2.symm
  · rw [hnonces, hnonces]

/-- No run from there changes which end is which. -/
theorem role_run_keyed (moves : List Move) (role : Role) :
    (((keyed old key token).run moves).channel role).cipher.role = role :=
  (role_run _ moves role).trans (hold role).1

/-- From there, every admissible run keeps both directions in order. -/
theorem tracks_keyed {moves : List Move} (hmoves : ∀ move ∈ moves, move.Admissible)
    (receiver : Role) : (keyed old key token).Tracks receiver (sentTo receiver moves)
      ((keyed old key token).run moves) :=
  tracks_run (fun role => (hold role).1) (key_keyed old key token) rfl rfl rfl hmoves

/-- From there, each party follows what is sent to it. -/
theorem follows_keyed {moves : List Move} (hmoves : ∀ move ∈ moves, move.Admissible)
    (receiver : Role) : Channel.Follows ((keyed old key token).channel receiver.peer).cipher
      ((keyed old key token).channel receiver) (sentTo receiver moves)
      (((keyed old key token).run moves).delivered receiver) := by
  have hrole (role : Role) : ((keyed old key token).channel role).cipher.role = role :=
    (hold role).1
  apply Channel.follows_of_fragments (key_keyed old key token receiver)
  · rw [hrole, hrole]
  · exact agreesOn_keyed key token hold _ receiver
  · exact fun m hm => sendable_of_mem_sentTo hmoves hm
  · exact (tracks_keyed key token hold hmoves receiver).queue

/-- The nonce for receiving is the one for sending that the other party had when it had sent as many
messages as are through now. -/
theorem sendNonce_eq_receiveNonce {before after : List Move}
    (hmoves : ∀ move ∈ before ++ after, move.Admissible) (receiver : Role)
    (hlen : (sentTo receiver before).length =
      (((keyed old key token).run (before ++ after)).delivered receiver).countP Fragment.isLast) :
    (((keyed old key token).run before).channel receiver.peer).cipher.sendNonce =
      (((keyed old key token).run (before ++ after)).channel receiver).cipher.receiveNonce := by
  have hbefore := tracks_keyed key token hold
    (fun move hmem => hmoves move (List.mem_append_left _ hmem)) receiver
  have hnow := tracks_keyed key token hold hmoves receiver
  have hnonce := (follows_keyed key token hold hmoves receiver).agrees
  have hrole : ((keyed old key token).channel receiver).cipher.role = receiver := (hold receiver).1
  -- The messages that are through are the ones that had been sent by then.
  rw [← hlen, sentTo_append, List.take_left, hrole] at hnonce
  apply Cipher.AgreesOn.sendNonce_eq
  · rw [role_run_keyed key token hold]
    exact (hbefore.sending.symm.trans hnonce).trans hnow.receiving.1
  · rw [role_run_keyed key token hold, role_run_keyed key token hold]

/-- When nothing is under way to a party, all messages that have been sent to it are through. -/
theorem countP_isLast_delivered {moves : List Move} (hmoves : ∀ move ∈ moves, move.Admissible)
    {receiver : Role} (hinbox : ((keyed old key token).run moves).inbox receiver = []) :
    (((keyed old key token).run moves).delivered receiver).countP Fragment.isLast =
      (sentTo receiver moves).length := by
  have hqueue := (tracks_keyed key token hold hmoves receiver).queue
  rw [hinbox, List.append_nil] at hqueue
  rw [← hqueue]
  exact Cipher.countP_isLast_fragments (key_keyed old key token receiver.peer)
    fun m hm => sendable_of_mem_sentTo hmoves hm

end Keyed

/-- **A reliable stream in both directions.**  Two ends install the same key with mirrored tokens,
whatever packets they were in the middle of.  After any interleaving of sends and deliveries, let
`n` be the number of messages that are through to a party, one for each last fragment delivered.
The party has received exactly those of the first `n` messages sent to it that are short enough, in
their order, and nothing counted as forged.  Its nonce for receiving is the one that the other party
had for sending when it had sent `n` messages.  When nothing is under way, all messages are
through. -/
theorem reliable_run {old : Role → Channel} {rule : NonceRule} (key : Key) (token : Role → Token)
    (hold : ∀ role, (old role).cipher.role = role ∧ (old role).cipher.rule = rule)
    {moves : List Move} (hmoves : ∀ move ∈ moves, move.Admissible) (receiver : Role) :
    let start := keyed old key token
    let l := start.run moves
    let sent := sentTo receiver moves
    let n := (l.delivered receiver).countP Fragment.isLast
    n ≤ sent.length ∧
      (l.received receiver).filter Received.isComplete =
        ((sent.take n).filter (·.Fits)).map Message.received ∧
      .skipping true ∉ l.received receiver ∧
      (∀ before after, moves = before ++ after → (sentTo receiver before).length = n →
        ((start.run before).channel receiver.peer).cipher.sendNonce =
          (l.channel receiver).cipher.receiveNonce) ∧
      (l.inbox receiver = [] → n = sent.length ∧
        (l.channel receiver.peer).cipher.sendNonce =
          (l.channel receiver).cipher.receiveNonce) := by
  intro start l sent n
  have htracks := tracks_keyed key token hold hmoves receiver
  obtain ⟨hle, hcomplete, hforged, -⟩ := follows_keyed key token hold hmoves receiver
  refine ⟨hle, htracks.log ▸ hcomplete, htracks.log ▸ hforged, ?_, ?_⟩
  · rintro before after rfl hlen
    exact sendNonce_eq_receiveNonce key token hold hmoves receiver hlen
  · intro hinbox
    have hall := countP_isLast_delivered key token hold hmoves hinbox
    refine ⟨hall, ?_⟩
    have hnow : ∀ move ∈ moves ++ [], move.Admissible := by simpa using hmoves
    have hnonce := sendNonce_eq_receiveNonce key token hold hnow receiver
      (by rw [List.append_nil, hall])
    rwa [List.append_nil] at hnonce

/-- Traffic that crosses: a message in plain and one that is too long, an answer, and a short
encrypted message. -/
def crossing : List Move :=
  let writer : Fragment.Writer := fun _ _ => true
  [.send .central writer ⟨[7], false⟩, .send .central writer ⟨List.replicate 125 9, true⟩,
    .send .peripheral writer ⟨[], true⟩] ++
  List.replicate 5 (.deliver .peripheral) ++ [.send .central writer ⟨[8, 8], true⟩] ++
  List.replicate 4 (.deliver .peripheral) ++ [.deliver .central]

/-- The message that is too long is lost, the one after it is not, and the nonces still agree. -/
theorem reliable_run_crossing :
    let l := (keyed (Channel.new .os3) (Octets.zero 16) fun _ => Octets.zero 4).run crossing
    (∀ role, (Channel.new .os3 role).cipher.role = role ∧
        (Channel.new .os3 role).cipher.rule = .os3) ∧
      (∀ move ∈ crossing, move.Admissible) ∧ l.inbox .peripheral = [] ∧
      (l.received .peripheral).filter Received.isComplete =
        [.complete [7] false, .complete [8, 8] true] ∧
      (l.channel .central).cipher.sendNonce = (l.channel .peripheral).cipher.receiveNonce := by
  have hnew : ∀ role, (Channel.new .os3 role).cipher.role = role ∧
      (Channel.new .os3 role).cipher.rule = .os3 := fun _ => ⟨rfl, rfl⟩
  have hmoves : ∀ move ∈ crossing, move.Admissible := by
    simp [crossing, Move.Admissible, Fragment.TakesAll, Message.Sendable, Ccm.maxLength]
  have hinbox : ((keyed (Channel.new .os3) (Octets.zero 16) fun _ => Octets.zero 4).run
      crossing).inbox .peripheral = [] := List.isEmpty_iff.mp (by decide +kernel)
  obtain ⟨-, hreceived, -, -, hquiet⟩ :=
    reliable_run (Octets.zero 16) (fun _ => Octets.zero 4) hnew hmoves .peripheral
  obtain ⟨hall, hnonce⟩ := hquiet hinbox
  rw [show Role.peripheral.peer = .central from rfl] at hnonce
  refine ⟨hnew, hmoves, hinbox, ?_, hnonce⟩
  rw [hreceived, hall]
  decide +kernel

end Duplex

end SmartLock
