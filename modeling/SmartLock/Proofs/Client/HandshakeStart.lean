/-
# The start of a login is all or nothing

A client that hears the device's first message has either begun a login, with the session key
installed and the whole login taken by the link (`Client.LoginBegun`), or it has given the
connection up, with no key and nothing in progress (`Client.LoginGivenUp`).  There is nothing in
between, whichever fragment of the login the link refuses.

While it waits for the answer to its login, another first message in plain changes nothing but the
buffer of its link.  `Client.handshakeStart_run` says both for every run of a new client.
-/
import SmartLock.Proofs.Client.Writes
import SmartLock.Proofs.Link.WholeMessages

namespace SmartLock

/-! ## Outputs -/

namespace ClientTurn

/-- When the link is closed, that is put out once, and otherwise only something is told. -/
theorem outputs_disconnect (host : ClientHost) (t : ClientTurn) :
    ∃ told, (t.disconnect host).outputs = t.outputs ++ .disconnect :: told ∧
      told.all ClientOutput.isTold = true := by
  obtain ⟨told, heq, htold⟩ := (t.emit .disconnect).reset.outputs_setState host .idle
  refine ⟨told, ?_, htold⟩
  rw [disconnect, heq]
  simp [emit, reset]

end ClientTurn

/-- What only tells something does not close the link. -/
theorem count_disconnect_of_isTold {told : List ClientOutput}
    (h : told.all ClientOutput.isTold = true) : told.count .disconnect = 0 :=
  List.count_eq_zero.mpr fun hmem => Bool.noConfusion (List.all_eq_true.mp h _ hmem)

/-- Nor does what is offered to it. -/
theorem count_disconnect_writes (offer : Fragment.Offer) :
    (ClientTurn.writes offer).count .disconnect = 0 :=
  List.count_eq_zero.mpr (by simp [ClientTurn.writes])

namespace Client

/-! ## All or nothing -/

/-- With the device's first message a login has begun: the client waits for the answer, the key for
the token in the first bytes of the message is installed with fresh nonces, and the link has taken
all fragments of the login, which goes out in plain. -/
structure LoginBegun (c : Client) (m : Moment) (d : Dialogue) (body : Bytes) : Prop where
  state : (c.step m.host m.request).client.state = .authenticating
  session : ∃ after key own device, (c.step m.host m.request).client.dialogue = some after ∧
    d.loginSession? c.random body = some (key, own) ∧
    device.toBytes = body.take Dialogue.tokenSize ∧ after.channel.cipher.key = some key ∧
    after.channel.cipher.nonces = Nonces.start d.login.rule own device
  outputs : ∃ message told, d.loginMessage? c.random body = some message ∧
    (c.step m.host m.request).outputs =
      (Fragment.split false message).map (.write · true) ++ told ∧
    told.all ClientOutput.isTold = true

/-- With the device's first message the connection has been given up, because there is no login for
it or because the link has refused a fragment: the client is idle, without a session key and without
a packet in progress, and the link is closed once. -/
structure LoginGivenUp (c : Client) (m : Moment) (d : Dialogue) (body : Bytes) : Prop where
  state : (c.step m.host m.request).client.state = .idle
  channel : ∃ after, (c.step m.host m.request).client.dialogue = some after ∧
    after.channel.cipher.key = none ∧ after.channel.reassembly = .collecting []
  disconnects : (c.step m.host m.request).outputs.count .disconnect = 1
  cause : d.loginMessage? c.random body = none ∨
    ∃ fragment, .write fragment false ∈ (c.step m.host m.request).outputs

/-- A client that closes the link gives the connection up. -/
theorem loginGivenUp_of_disconnect {c : Client} {m : Moment} {d after : Dialogue} {body : Bytes}
    {t : ClientTurn} {offer : Fragment.Offer}
    (hstep : c.step m.host m.request = (t.disconnect m.host).finish (.ok ()))
    (hdialogue : t.client.dialogue = some after) (houtputs : t.outputs = ClientTurn.writes offer)
    (hcause : d.loginMessage? c.random body = none ∨ offer.refused.isSome = true) :
    c.LoginGivenUp m d body := by
  obtain ⟨told, heq, htold⟩ := t.outputs_disconnect m.host
  have hclosed : (c.step m.host m.request).outputs =
      ClientTurn.writes offer ++ .disconnect :: told := by
    rw [hstep, ClientTurn.finish, heq, houtputs]
  constructor
  · rw [hstep]
    exact t.state_disconnect m.host
  · refine ⟨after.reset, ?_, rfl, rfl⟩
    rw [hstep, ClientTurn.finish, ClientTurn.dialogue_disconnect, hdialogue, Option.map_some]
  · rw [hclosed, List.count_append, count_disconnect_writes, List.count_cons_self,
      count_disconnect_of_isTold htold]
  · refine hcause.imp_right fun hrefused => ?_
    obtain ⟨fragment, hfragment⟩ := Option.isSome_iff_exists.mp hrefused
    refine ⟨fragment, ?_⟩
    rw [hclosed]
    simp [ClientTurn.writes, hfragment]

/-- A fresh session key of a central starts both nonces from the two tokens. -/
theorem nonces_keyed {d : Dialogue} (h : Regular d.standing) (key : Key) (own device : Token) :
    (d.keyed key own device).channel.cipher.nonces = Nonces.start d.login.rule own device := by
  obtain ⟨hrole, hrule⟩ := h
  have hrole : d.channel.cipher.role = .central := hrole
  have hrule : d.channel.cipher.rule = d.login.rule := hrule
  simp only [Dialogue.keyed, Channel.withKey, Cipher.withKey, hrole, hrule]

/-- The device's first message is dealt with entirely or not at all. -/
theorem loginBegun_or_loginGivenUp {c : Client} {m : Moment} {d : Dialogue} {body : Bytes}
    (hregular : Regular d.standing) (h : c.Hears m d .publish .initial body)
    (hstate : c.state ≠ .authenticating) : c.LoginBegun m d body ∨ c.LoginGivenUp m d body := by
  obtain ⟨host, request⟩ := m
  obtain ⟨fragment, authenticated, rfl, hd, hreceived⟩ := h
  let opening := (d.hearing fragment).onInitial ((heard c d fragment).writer host) c.random body
  let opened : ClientTurn :=
    { client := { (heard c d fragment).client.withDialogue opening.dialogue with
        random := opening.random }
      outputs := ClientTurn.writes opening.offer }
  have hstep : c.step host (.receive fragment) =
      (opened.apply host opening.events).finish (.ok ()) := by
    rw [step, receive_of_complete host hd hreceived, onMessage_publish, onPublish,
      if_neg (show (heard c d fragment).client.state ≠ .authenticating from hstate)]
    rfl
  rcases (d.hearing fragment).onInitial_cases ((heard c d fragment).writer host) c.random body with
    ⟨hmessage, hevents⟩ | ⟨key, own, message, hsize, hsession, hmessage, hdialogue, hevents⟩
  · rw [show opening.events = _ from hevents, ClientTurn.apply] at hstep
    exact .inr (loginGivenUp_of_disconnect hstep rfl rfl (.inl hmessage))
  · have hoffer : opening.offer = Fragment.offer ((heard c d fragment).writer host)
        (Fragment.split false message) := by
      refine (Dialogue.offer_onInitial ..).trans ?_
      rw [hmessage]
    rw [show opening.events = _ from hevents] at hstep
    cases hrefused : opening.offer.refused with
    | some refused =>
        have hsome : opening.offer.refused.isSome = true := by rw [hrefused]; rfl
        rw [if_pos hsome, ClientTurn.apply] at hstep
        exact .inr (loginGivenUp_of_disconnect hstep rfl rfl (.inr hsome))
    | none =>
        have hnone : ¬ opening.offer.refused.isSome = true := by rw [hrefused]; simp
        rw [if_neg hnone, ClientTurn.apply, ClientTurn.apply] at hstep
        have hregular : Regular (d.hearing fragment).standing := by rwa [d.standing_hearing]
        obtain ⟨told, heq, htold⟩ := opened.outputs_setState host .authenticating
        refine .inl ⟨?_, ⟨opening.dialogue, key, own, Octets.ofBytes Dialogue.tokenSize body, ?_,
          hsession, Octets.toBytes_ofBytes_of_le hsize, ?_, ?_⟩, message, told, hmessage, ?_, htold⟩
        · rw [hstep]
          exact opened.state_setState host .authenticating
        · rw [hstep]
          exact opened.dialogue_setState host .authenticating
        · rw [show opening.dialogue = _ from hdialogue]
          rfl
        · rw [show opening.dialogue = _ from hdialogue]
          exact nonces_keyed hregular key own _
        · rw [hoffer] at hrefused
          rw [hstep, ClientTurn.finish, heq]
          dsimp only [opened]
          rw [hoffer, Fragment.offer_of_refused_eq_none hrefused]
          simp [ClientTurn.writes]

/-! ## While a login is under way -/

/-- The client when it skips all fragments up to the next packet, with this left in the buffer, and
otherwise as it was. -/
def skipping (c : Client) (d : Dialogue) (left : Bytes) : Client :=
  c.withDialogue { d with channel := { d.channel with reassembly := .skipping left } }

section Waiting

variable {c : Client} {d : Dialogue} (hd : c.dialogue = some d)
  (hstate : c.state = .authenticating)

include hd hstate

/-- A client that waits for an answer only takes in fragments that lead to nothing of note or to
another first message. -/
theorem run_of_authenticating {ms : List Moment} {fragments : List Bytes}
    (hms : ms.map Moment.request = fragments.map Request.receive)
    (h : ∀ r ∈ (d.channel.receiveAll fragments).2, r.IsQuiet ∨ ∃ body authenticated,
      r = .complete (OpCode.publish.code :: ItemCode.initial.code :: body) authenticated) :
    c.run ms = (c.withDialogue { d with channel := (d.channel.receiveAll fragments).1 }, []) := by
  refine run_of_takesIn hd (fun host c' d' fragment hd' hstate' hr => ?_) hms h
  rcases hr with hquiet | ⟨body, authenticated, hcomplete⟩
  · exact receive_of_isQuiet host hd' hquiet
  · exact receive_initial_of_authenticating host hd' (hstate'.trans hstate) hcomplete

/-- With the last fragment of another first message in plain, nothing changes but the buffer, which
holds that message. -/
theorem step_of_authenticating (host : ClientHost) {fragment body : Bytes}
    (h : (d.channel.receive fragment).2 =
      .complete (OpCode.publish.code :: ItemCode.initial.code :: body) false) :
    c.step host (.receive fragment) =
      ⟨c.skipping d (OpCode.publish.code :: ItemCode.initial.code :: body), [], .ok ()⟩ := by
  have hchannel : (d.channel.receive fragment).1 = { d.channel with
      reassembly := .skipping (OpCode.publish.code :: ItemCode.initial.code :: body) } := by
    rcases Channel.snd_receive_eq_complete_iff.mp h with ⟨-, hplain⟩ | ⟨hauthenticated, -⟩
    · rw [Channel.receive_of_assembles hplain (by decide)]
      rfl
    · cases hauthenticated
  rw [step, receive_initial_of_authenticating host hd hstate h, heard, hchannel]
  rfl

/-- With all fragments of another first message in plain, of any length, nothing changes but the
buffer. -/
theorem run_split_of_authenticating {ms : List Moment} {body : Bytes}
    (hms : ms.map Moment.request =
      (Fragment.split false (OpCode.publish.code :: ItemCode.initial.code :: body)).map
        Request.receive) :
    c.run ms = (c.skipping d
      (Reassembly.ofPacket (OpCode.publish.code :: ItemCode.initial.code :: body)).buffer, []) := by
  obtain ⟨hafter, hreceived⟩ := d.channel.receiveAll_split_plain
    (List.cons_ne_nil OpCode.publish.code (ItemCode.initial.code :: body))
  rw [run_of_authenticating hd hstate hms fun r hr => (hreceived r hr).imp_right fun hr =>
    ⟨body, false, hr⟩, hafter]
  rfl

end Waiting

/-! ## Runs -/

/-- **The start of a login is all or nothing.**  Take any client that any run of requests and
fragments has led to, with any source of random numbers.  Unless it waits for the answer to a login,
the device's first message, with any body and over any link, either begins a login or makes the
client give the connection up.  While it waits, another first message in plain changes nothing but
the buffer, which keeps what its fragments have made of it, and puts nothing out. -/
theorem handshakeStart_run (random random' : RandomSource) (ms : List Moment) :
    let c : Client := { ((Client.new random).run ms).1 with random := random' }
    (c.state ≠ .authenticating → ∀ m d body, c.Hears m d .publish .initial body →
      c.LoginBegun m d body ∨ c.LoginGivenUp m d body) ∧
    (c.state = .authenticating → ∀ d, c.dialogue = some d → ∀ body,
      let again := OpCode.publish.code :: ItemCode.initial.code :: body
      (∀ host fragment, (d.channel.receive fragment).2 = .complete again false →
        c.step host (.receive fragment) = ⟨c.skipping d again, [], .ok ()⟩) ∧
      ∀ later : List Moment, later.map Moment.request =
          (Fragment.split false again).map Request.receive →
        c.run later = (c.skipping d (Reassembly.ofPacket again).buffer, [])) := by
  intro c
  refine ⟨fun hstate m d body hhears => ?_, fun hstate d hd body => ⟨?_, ?_⟩⟩
  · have hstanding : ((Client.new random).run ms).1.standing? = some d.standing := hhears.standing?
    exact loginBegun_or_loginGivenUp (regular_run random ms hstanding) hhears hstate
  · exact fun host fragment => step_of_authenticating hd hstate host
  · exact fun later => run_split_of_authenticating hd hstate

/-- A client with a secret hears a token: over an open link a login begins, over a dead one it is
given up, and after the begun one the token is ignored. -/
theorem handshakeStart_run_plainRun :
    let c := ((Client.new (RandomSource.ofSeed 3)).run (plainRun.take 2)).1
    let begun := ((Client.new (RandomSource.ofSeed 3)).run (plainRun.take 3)).1
    let m (taken : Bool) : Moment := ⟨⟨fun _ _ => taken, {}⟩, .receive [3, 8, 14, 1, 2, 3, 4]⟩
    ∃ d after, (∀ taken, c.Hears (m taken) d .publish .initial [1, 2, 3, 4]) ∧
      c.LoginBegun (m true) d [1, 2, 3, 4] ∧ c.LoginGivenUp (m false) d [1, 2, 3, 4] ∧
      begun.dialogue = some after ∧
      begun.run [m true] = (begun.skipping after [8, 14, 1, 2, 3, 4], []) := by
  intro c begun m
  have hd : c.dialogue = some ⟨.sesame5, Channel.new .os3 .central,
      .os3 (some (Octets.zero 16)) false false⟩ := by decide +kernel
  have hhears (taken : Bool) := show c.Hears (m taken) _ .publish .initial [1, 2, 3, 4] from
    ⟨_, false, rfl, hd, by decide +kernel⟩
  have hidle : c.state ≠ .authenticating := by decide +kernel
  have hafter : begun.dialogue.isSome = true := by decide +kernel
  obtain ⟨after, hafter⟩ := Option.isSome_iff_exists.mp hafter
  obtain ⟨hstart, -⟩ := handshakeStart_run (RandomSource.ofSeed 3) c.random (plainRun.take 2)
  obtain ⟨-, hignored⟩ := handshakeStart_run (RandomSource.ofSeed 3) begun.random (plainRun.take 3)
  refine ⟨_, after, hhears, ?_, ?_, hafter, ?_⟩
  · refine (hstart hidle _ _ _ (hhears true)).resolve_right fun hnot => ?_
    have hstate : (c.step (m true).host (m true).request).client.state = .authenticating := by
      decide +kernel
    cases hstate.symm.trans hnot.state
  · refine (hstart hidle _ _ _ (hhears false)).resolve_left fun hnot => ?_
    have hstate : (c.step (m false).host (m false).request).client.state = .idle := by
      decide +kernel
    cases hstate.symm.trans hnot.state
  · have hwaits : begun.state = .authenticating := by decide +kernel
    have hignored := (hignored hwaits after hafter [1, 2, 3, 4]).2 [m true] rfl
    rw [Reassembly.ofPacket_of_le (by decide)] at hignored
    exact hignored

end Client

end SmartLock
