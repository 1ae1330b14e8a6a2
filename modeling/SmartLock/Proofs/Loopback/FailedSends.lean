/-
# Commands and notifications that are not sent

What a link that refuses a fragment means for a client and for a server.  The operation fails, and
its error says how many fragments have been taken (`Client.command_of_writeFailed`,
`Server.notifyOne_of_writeFailed`).  The client is still active, and the session is in the state that
it was in before; but the nonce for sending has moved, and nothing ever takes this back
(`drift_of_failed_sends`).
-/
import SmartLock.Loopback
import SmartLock.Proofs.Client.Effects
import SmartLock.Proofs.Link.FailedSends
import SmartLock.Proofs.Server.Table

namespace SmartLock

/-! ## Fragments that are taken -/

/-- When the link refuses a fragment of an encrypted message, the end of the sender has a key, and
has moved its nonce for sending.  What has been taken before holds no last fragment. -/
theorem Channel.send_of_writeFailed {c : Channel} {writer : Fragment.Writer} {message : Bytes}
    {i : Nat} (h : (c.send writer message true).result = .error (.writeFailed i)) :
    c.cipher.hasKey = true ∧
      (c.send writer message true).channel = { c with cipher := c.cipher.advanceSend } ∧
      (c.send writer message true).offer.taken.length = i ∧
      ∀ fragment ∈ (c.send writer message true).offer.taken, Fragment.isLast fragment = false := by
  cases hkey : c.cipher.key with
  | none => simp [send, Cipher.encrypt, hkey] at h
  | some key =>
      have hlast := not_isLast_of_send_error hkey writer message h
      rcases send_encrypted_cases hkey writer message with heq | ⟨packet, -, heq⟩
      · rw [heq] at h
        cases h
      · rw [heq] at h hlast ⊢
        rcases sendPacket_cases { c with cipher := c.cipher.advanceSend } writer packet true with
          heq | ⟨taken, refused, rest, -, heq⟩
        · rw [heq] at h
          cases h
        · rw [heq] at h hlast ⊢
          exact ⟨by rw [Cipher.hasKey, hkey]; rfl, rfl,
            LinkError.writeFailed.inj (Except.error.inj h), hlast⟩

namespace Loopback

/-- Of an offer of a client, what is taken is written. -/
theorem written_writes (offer : Fragment.Offer) :
    written (ClientTurn.writes offer) = offer.taken := by
  have hrefused : written (offer.refused.toList.map (.write · false)) = [] := by
    cases offer.refused <;> rfl
  rw [written] at hrefused
  rw [ClientTurn.writes, written, List.filterMap_append, hrefused, List.append_nil, ← written,
    written_map]

/-- Of an offer of a server to a session, what is taken is written. -/
theorem writtenTo_writes (id : SessionId) (offer : Fragment.Offer) :
    writtenTo id (Server.Turn.writes id offer) = offer.taken := by
  have hrefused : writtenTo id (offer.refused.toList.map (.write id · false)) = [] := by
    cases offer.refused <;> rfl
  rw [writtenTo] at hrefused
  rw [Server.Turn.writes, writtenTo, List.filterMap_append, hrefused, List.append_nil, ← writtenTo,
    writtenTo_map]

end Loopback

/-! ## Operations that fail -/

/-- A command that is refused by the link, after a number of fragments, leaves the client as it was,
active and with its key, but for its nonce for sending. -/
theorem Client.command_of_writeFailed {host : ClientHost} {c : Client} {request : Request}
    (hcommand : request.isCommand = true) {i : Nat}
    (h : (c.step host request).result = .error (.dialogue (.link (.writeFailed i)))) :
    ∃ d, c.dialogue = some d ∧ c.state = .active ∧ d.channel.cipher.hasKey = true ∧
      (c.step host request).client = c.withDialogue
        { d with channel := { d.channel with cipher := d.channel.cipher.advanceSend } } ∧
      (Loopback.written (c.step host request).outputs).length = i ∧
      ∀ fragment ∈ Loopback.written (c.step host request).outputs,
        Fragment.isLast fragment = false := by
  generalize houtcome : c.step host request = outcome at h
  cases houtcome ▸ commandCase_step host hcommand with
  | refused error hrefusal =>
      rw [Except.error.inj h] at hrefusal
      cases hrefusal
  | sent d op item body hactive =>
      obtain ⟨hdialogue, hstate⟩ := activeDialogue_eq_ok_iff.mp hactive
      -- The error of the client is the one of its channel.
      have hsent : (d.channel.send (({ client := c } : ClientTurn).writer host)
          (d.head op item ++ body) true).result = .error (.writeFailed i) := by
        simp only [sendCommand, Dialogue.send] at h
        revert h
        cases (d.channel.send (({ client := c } : ClientTurn).writer host)
          (d.head op item ++ body) true).result with
        | ok => intro h; cases h
        | error error => intro h; cases h; rfl
      obtain ⟨hkey, hchannel, htaken, hlast⟩ := Channel.send_of_writeFailed hsent
      refine ⟨d, hdialogue, hstate, hkey, ?_, ?_, ?_⟩
      · simp only [sendCommand, Dialogue.send, hchannel]
      · simpa only [sendCommand, Dialogue.send, Loopback.written_writes] using htaken
      · simpa only [sendCommand, Dialogue.send, Loopback.written_writes] using hlast

/-- A notification that is refused by the link of its session, after a number of fragments, leaves
the server as it was, and the session in its state and with its key, but for its nonce for
sending. -/
theorem Server.notifyOne_of_writeFailed {host : ServerHost} {s : Server} {id : SessionId}
    {n : Notice} {i : Nat}
    (h : (s.step host (.notify (some id) n)).result = .error (.link (.writeFailed i))) :
    ∃ session, s.session? id = some session ∧ session.channel.cipher.hasKey = true ∧
      (s.step host (.notify (some id) n)).server.station = s.station ∧
      (s.step host (.notify (some id) n)).server.session? id = some { session with
        channel := { session.channel with cipher := session.channel.cipher.advanceSend } } ∧
      (Loopback.writtenTo id (s.step host (.notify (some id) n)).outputs).length = i ∧
      ∀ fragment ∈ Loopback.writtenTo id (s.step host (.notify (some id) n)).outputs,
        Fragment.isLast fragment = false := by
  simp only [step, notifyOne] at h ⊢
  cases hsession : s.session? id with
  | none => rw [hsession] at h; cases h
  | some session =>
      rw [hsession] at h
      dsimp only at h ⊢
      obtain ⟨-, rfl⟩ := mem_of_session? hsession
      -- The notification is one message of the session's channel.
      generalize hturn : Turn.notify host { station := s.station, session := session } n.op n.item
        n.body true = t at h ⊢
      simp only [Turn.notify] at hturn
      subst hturn
      dsimp only at h ⊢
      generalize hwriter : (fun taken fragment => host.takes
        ([] ++ taken.reverse.map (ServerOutput.write session.id · true)) session.id fragment :
        Fragment.Writer) = writer at h ⊢
      have hsent : (session.channel.send writer (n.op.code :: n.item.code :: n.body) true).result =
          .error (.writeFailed i) := by
        revert h
        cases (session.channel.send writer (n.op.code :: n.item.code :: n.body) true).result with
        | ok => intro h; cases h
        | error error => intro h; cases h; rfl
      obtain ⟨hkey, hchannel, htaken, hlast⟩ := Channel.send_of_writeFailed hsent
      refine ⟨session, rfl, hkey, rfl, ?_, ?_, ?_⟩
      · rw [hchannel]
        exact session?_replaceIn s.station hsession
      · rw [List.nil_append, Loopback.writtenTo_writes]
        exact htaken
      · rw [List.nil_append, Loopback.writtenTo_writes]
        exact hlast

/-! ## Drift -/

/-- **A failed send sets its sender ahead for good.**  Two ends with the same key start in lockstep,
and messages are sent in both directions and delivered, over links that may refuse any fragment.

* An encrypted message that is not sent has moved the nonce of its sender by one step.  What has been
  taken of it leads its receiver to no message and to no forgery, and leaves the receiver's key and
  nonces as they are.
* Whenever nothing is under way to a party, the other one has drifted away from it by the number of
  encrypted messages to it that have not been sent so far (`Duplex.Drifted`): a later message that is
  sent and delivered is read under a nonce that it was not encrypted under, unless that number is
  zero.

A command of a client, or a notification of a session, that is refused by the link is such a send.
Its error is the number of fragments that have been taken; the client is still active, and the
session is in the state that it was in before. -/
theorem drift_of_failed_sends :
    (∀ (start : Duplex) (rule : NonceRule) (key : Key), start.InLockstep rule key →
      ∀ (moves : List Move) (receiver : Role),
        let l := start.run moves
        (∀ (writer : Fragment.Writer) (body : Bytes) (error : LinkError),
          let sent := (l.channel receiver.peer).send writer body true
          let read := (l.channel receiver).receiveAll sent.offer.taken
          sent.result = .error error →
            sent.channel.cipher = (l.channel receiver.peer).cipher.advanceSend ∧
              (∀ r ∈ read.2, r.IsQuiet) ∧ read.1.cipher = (l.channel receiver).cipher) ∧
        (l.inbox receiver = [] → l.Drifted rule key receiver (start.failures receiver moves))) ∧
    (∀ (host : ClientHost) (c : Client) (request : Client.Request) (i : Nat),
      let after := c.step host request
      request.isCommand = true → after.result = .error (.dialogue (.link (.writeFailed i))) →
        ∃ d, c.dialogue = some d ∧ d.channel.cipher.hasKey = true ∧ after.client.state = .active ∧
          after.client = c.withDialogue
            { d with channel := { d.channel with cipher := d.channel.cipher.advanceSend } } ∧
          (Loopback.written after.outputs).length = i ∧
          ∀ fragment ∈ Loopback.written after.outputs, Fragment.isLast fragment = false) ∧
    ∀ (host : ServerHost) (s : Server) (id : SessionId) (n : Server.Notice) (i : Nat),
      let after := s.step host (.notify (some id) n)
      after.result = .error (.link (.writeFailed i)) →
        ∃ session, s.session? id = some session ∧ session.channel.cipher.hasKey = true ∧
          after.server.station = s.station ∧
          after.server.session? id = some { session with
            channel := { session.channel with cipher := session.channel.cipher.advanceSend } } ∧
          (Loopback.writtenTo id after.outputs).length = i ∧
          ∀ fragment ∈ Loopback.writtenTo id after.outputs, Fragment.isLast fragment = false := by
  refine ⟨?_, ?_, fun host s id n i h => Server.notifyOne_of_writeFailed h⟩
  · intro start rule key hstart moves receiver l
    refine ⟨?_, Duplex.drifted_run hstart⟩
    intro writer body error sent read hfailed
    obtain ⟨-, -, hkey⟩ := (hstart.shares.run moves) receiver.peer
    obtain ⟨hquiet, hcipher⟩ :=
      Channel.quiet_of_send_error hkey writer body hfailed (l.channel receiver)
    refine ⟨?_, hquiet, hcipher⟩
    rw [Channel.cipher_send hkey, if_pos rfl]
  · intro host c request i after hcommand hfailed
    obtain ⟨d, hd, hactive, hkey, hclient, htaken⟩ := Client.command_of_writeFailed hcommand hfailed
    refine ⟨d, hd, hkey, ?_, hclient, htaken⟩
    rw [hclient]
    exact hactive

/-- Two ends of the third generation under the key of zeros. -/
def freshLink : Duplex :=
  .keyed (Channel.new .os3) (Octets.zero 16)
    fun | .central => Octets.zero 4 | .peripheral => Octets.ofBytes 4 [1, 2, 3, 4]

/-- They are in lockstep. -/
theorem inLockstep_freshLink : freshLink.InLockstep .os3 (Octets.zero 16) :=
  Duplex.inLockstep_keyed _ _ fun _ => ⟨rfl, rfl⟩

/-- A client that is active on such a link. -/
def freshClient : Client where
  random := RandomSource.ofSeed 3
  dialogue := some ⟨.sesame5, freshLink.channel .central, .os3 (some (Octets.zero 16)) true true⟩
  state := .active

/-- A server with a session that runs on such a link. -/
def freshServer : Server where
  station := { random := RandomSource.ofSeed 3 }
  slots := [some
    { id := 1, channel := freshLink.channel .peripheral, nonce := Octets.zero 4, state := .running }]

/-- A link that takes one fragment of a message. -/
def takesOne : Fragment.Writer := fun taken _ => taken.isEmpty

/-- A message of two fragments, of which one is taken and delivered. -/
def lostOnce : List Move :=
  [.send .central takesOne ⟨List.replicate 20 0xaa, true⟩, .deliver .peripheral]

/-- A message is lost, a command is lost, and a notification is lost. -/
theorem drift_of_failed_sends_once :
    (freshLink.run lostOnce).Drifted .os3 (Octets.zero 16) .peripheral 1 ∧
    ((freshLink.run lostOnce).channel .central).cipher.sendNonce ≠
      ((freshLink.run lostOnce).channel .peripheral).cipher.receiveNonce ∧
    (∀ r ∈ ((freshLink.channel .peripheral).receiveAll ((freshLink.channel .central).send takesOne
      (List.replicate 20 0xaa) true).offer.taken).2, r.IsQuiet) ∧
    (freshClient.step ⟨fun _ _ => false, {}⟩ (.unlock "")).client.state = .active ∧
    (freshServer.step ⟨fun _ _ _ => false, false, none⟩
      (.notify (some 1) ⟨.publish, .mechStatus, []⟩)).server.sessionState? 1 = some .running := by
  obtain ⟨hlink, hclient, hserver⟩ := drift_of_failed_sends
  have hquiet : (freshLink.run lostOnce).inbox .peripheral = [] := by decide +kernel
  have hone : freshLink.failures .peripheral lostOnce = 1 := by decide +kernel
  have hdrifted := (hlink freshLink .os3 _ inLockstep_freshLink lostOnce .peripheral).2 hquiet
  rw [hone] at hdrifted
  have hlost : ((freshLink.channel .central).send takesOne (List.replicate 20 0xaa) true).result =
      .error (.writeFailed 1) := by decide +kernel
  obtain ⟨-, hread, -⟩ := (hlink freshLink .os3 _ inLockstep_freshLink [] .peripheral).1 takesOne
    (List.replicate 20 0xaa) (.writeFailed 1) hlost
  refine ⟨hdrifted, hdrifted.nonce_ne (by decide) (by decide), hread, ?_, ?_⟩
  · have hfailed : (freshClient.step ⟨fun _ _ => false, {}⟩ (.unlock "")).result =
        .error (.dialogue (.link (.writeFailed 0))) := by decide +kernel
    obtain ⟨-, -, -, hactive, -⟩ := hclient _ freshClient (.unlock "") 0 rfl hfailed
    exact hactive
  · have hfailed : (freshServer.step ⟨fun _ _ _ => false, false, none⟩
        (.notify (some 1) ⟨.publish, .mechStatus, []⟩)).result =
        .error (.link (.writeFailed 0)) := by decide +kernel
    obtain ⟨session, hsession, -, -, hafter, -⟩ := hserver _ freshServer 1 _ 0 hfailed
    rw [Server.sessionState?, hafter, Option.map_some]
    have hrunning : freshServer.sessionState? 1 = some .running := by decide
    rw [Server.sessionState?, hsession, Option.map_some] at hrunning
    exact hrunning

/-- Not every later message is received: after one that the link has refused, the next one is taken
for a forgery. -/
theorem not_forall_received_after_failed_send :
    ¬ ∀ (l : Duplex) (rule : NonceRule) (key : Key), l.InLockstep rule key →
      ∀ (receiver : Role) (refuses takes : Fragment.Writer) (lost body : Bytes) (error : LinkError),
        let failed := (l.channel receiver.peer).send refuses lost true
        let later := failed.channel.send takes body true
        failed.result = .error error → later.result = .ok () → body.length ≤ 124 →
          .complete body true ∈
            (((l.channel receiver).receiveAll failed.offer.taken).1.receiveAll
              later.offer.taken).2 := by
  intro h
  -- Two empty messages do: what is compared is the tag.
  have hreceived := h freshLink .os3 _ inLockstep_freshLink .peripheral (fun _ _ => false)
    (fun _ _ => true) [] [] (.writeFailed 0) (by decide +kernel) (by decide +kernel)
    (by decide)
  exact absurd hreceived (by decide +kernel)

end SmartLock
