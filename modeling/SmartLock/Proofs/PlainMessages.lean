/-
# Which messages travel in plain

In plain go the login of a client, the greeting of a server and its answer to a registration;
everything else is encrypted under the session key, and without one it is not sent.
`Client.Disciplined` and `Server.Disciplined` say this for one moment, together with what becomes of
a command that is not sent; `disciplined_run` says it for every run, and draws the conclusion for
the fragments on the link: the end of a plain packet is always the end of one of these three
messages.
-/
import SmartLock.Proofs.Client.Writes
import SmartLock.Proofs.Server.Writes

namespace SmartLock

namespace Client

/-! ## Clients -/

/-- What a client does at one moment, as far as its writes and its commands are concerned. -/
structure Disciplined (c : Client) (m : Moment) : Prop where
  /-- It writes nothing, its login, or an encrypted command. -/
  writes : c.Writes m (writes (c.step m.host m.request).outputs)
  /-- A command that is refused has not done anything. -/
  refused : ∀ error, m.request.isCommand = true → error.isRefusal = true →
    (c.step m.host m.request).result = .error error →
      (c.step m.host m.request).outputs = [] ∧ (c.step m.host m.request).client = c
  /-- A client that is not active refuses every command. -/
  inactive : m.request.isCommand = true → c.state ≠ .active →
    ∃ error, error.isRefusal = true ∧ (c.step m.host m.request).result = .error error
  /-- Without a session key a command that the model has fails, and nothing is written. -/
  keyless : ∀ d, c.state = .active → c.dialogue = some d → d.channel.cipher.key = none →
    m.request.isSupported d.model = true →
      (c.step m.host m.request).outputs = [] ∧
        (c.step m.host m.request).result =
          .error (.dialogue (.link (.crypto .keyNotPrepared)))

/-- Every client is disciplined at every moment. -/
theorem disciplined (c : Client) (m : Moment) : c.Disciplined m where
  writes := writes_step c m
  refused := by
    intro error hcommand hrefusal hresult
    generalize hstep : c.step m.host m.request = outcome at hresult
    cases hstep ▸ commandCase_step m.host hcommand with
    | refused => exact ⟨rfl, rfl⟩
    | sent d op item body hactive =>
        exact absurd hresult (result_sendCommand_ne m.host d op item body hrefusal)
  inactive := by
    intro hcommand hstate
    generalize hstep : c.step m.host m.request = outcome
    cases hstep ▸ commandCase_step m.host hcommand with
    | refused error hrefusal => exact ⟨error, hrefusal, rfl⟩
    | sent d op item body hactive => exact absurd (activeDialogue_eq_ok_iff.mp hactive).2 hstate
  keyless := by
    intro d hstate hd hkey hsupported
    have hactive : c.activeDialogue = .ok d := activeDialogue_eq_ok_iff.mpr ⟨hd, hstate⟩
    generalize hstep : c.step m.host m.request = outcome
    cases hstep ▸ commandCase_step m.host (Request.isCommand_of_isSupported hsupported) with
    | refused error hrefusal hnot =>
        rw [hnot d hactive] at hsupported
        cases hsupported
    | sent d' op item body hactive' =>
        obtain rfl : d = d' := Except.ok.inj (hactive.symm.trans hactive')
        rw [sendCommand_of_key_eq_none m.host hactive hkey]
        exact ⟨rfl, rfl⟩

/-- The client answers the device's first message with its login, and the fragment is one of it. -/
def SendsLogin (c : Client) (m : Moment) (fragment : Bytes) : Prop :=
  ∃ d body message, c.Hears m d .publish .initial body ∧ c.state ≠ .authenticating ∧
    d.loginMessage? c.random body = some message ∧ fragment ∈ Fragment.split false message

/-- The end of a plain packet belongs to the login. -/
theorem sendsLogin_of_isPlain {c : Client} {m : Moment} {fragment : Bytes} {taken : Bool}
    (h : .write fragment taken ∈ (c.step m.host m.request).outputs)
    (hplain : Fragment.isPlain fragment = true) : c.SendsLogin m fragment := by
  have hwrite : .write fragment taken ∈ writes (c.step m.host m.request).outputs :=
    List.mem_filter.mpr ⟨h, rfl⟩
  generalize hwrites : writes (c.step m.host m.request).outputs = outputs at hwrite
  cases hwrites ▸ writes_step c m with
  | nothing => cases hwrite
  | login d body message hencryption hhears hstate hmessage =>
      exact ⟨d, body, message, hhears, hstate, hmessage,
        Fragment.mem_of_mem_offer (mem_of_mem_writes hwrite)⟩
  | command x hencryption =>
      obtain ⟨packet, -, hpacket⟩ := Fragment.mem_of_mem_offerSealed (mem_of_mem_writes hwrite)
      rw [Fragment.isPlain_of_mem_split_encrypted hpacket] at hplain
      cases hplain

/-- An output of a run is one of some step of it. -/
theorem mem_run_iff {c : Client} {ms : List Moment} {output : ClientOutput} :
    output ∈ (c.run ms).2 ↔
      c.Happens ms fun c m => output ∈ (c.step m.host m.request).outputs := by
  induction ms using List.reverseRecOn with
  | nil => simp [run, SmartLock.Happens]
  | append_singleton ms m ih =>
      rw [run_concat, List.mem_append, ih]
      exact happens_concat.symm

end Client

namespace Server

/-! ## Servers -/

/-- What a server does at one moment, as far as its writes and its notifications are concerned. -/
structure Disciplined (s : Server) (m : Moment) : Prop where
  /-- It writes greetings and answers to registrations in plain, and everything else is encrypted for
  a session under its key and the nonce that its cipher has then. -/
  writes : ∃ last, Written m.host (s.SendsPlain m) (s.cipher? m) last
    (s.step m.host m.request).outputs
  /-- A notification for a session without a key fails, and nothing is written. -/
  keyless : ∀ id notice session, m.request = .notify (some id) notice →
    s.session? id = some session → session.channel.cipher.key = none →
      (s.step m.host m.request).outputs = [] ∧
        (s.step m.host m.request).result = .error (.link (.crypto .keyNotPrepared))

/-- Every server whose sessions have numbers of their own is disciplined at every moment. -/
theorem disciplined {s : Server} (hnodup : s.ids.Nodup) (m : Moment) : s.Disciplined m where
  writes := written_step hnodup m
  keyless := by
    intro id notice session hrequest hsession hkey
    rw [hrequest]
    exact notifyOne_of_key_eq_none m.host hsession hkey notice

/-- The server sends a session something in plain, and the fragment is one of it. -/
def SendsInPlain (s : Server) (m : Moment) (id : SessionId) (fragment : Bytes) : Prop :=
  ∃ message, s.SendsPlain m id message ∧ fragment ∈ Fragment.split false message

/-- The end of a plain packet belongs to something that is sent in plain. -/
theorem sendsInPlain_of_isPlain {s : Server} (hnodup : s.ids.Nodup) {m : Moment} {id : SessionId}
    {fragment : Bytes} {taken : Bool}
    (h : .write id fragment taken ∈ (s.step m.host m.request).outputs)
    (hplain : Fragment.isPlain fragment = true) : s.SendsInPlain m id fragment := by
  obtain ⟨last, hwritten⟩ := written_step hnodup m
  rcases hwritten.of_mem h with hmessage | ⟨packet, hpacket⟩
  · exact hmessage
  · rw [Fragment.isPlain_of_mem_split_encrypted hpacket] at hplain
    cases hplain

end Server

/-! ## Runs -/

/-- **Which messages travel in plain.**  In every run of a new client and of a new server, whatever
they are asked to do and whatever comes on their links:

* at every moment the client writes nothing, its login in answer to the device's first message, or a
  command encrypted under the session key; a command that is refused leaves it as it is, a client
  that is not active refuses every command, and without a session key a command that is not refused
  fails;
* the end of a plain packet that the client has written is the end of a login;
* at every moment the server writes greetings and answers to registrations in plain, and every other
  message encrypted under the key of its session and the nonce that comes next; without a key a
  notification for one session fails;
* the end of a plain packet that the server has written is the end of a greeting or of such an
  answer. -/
theorem disciplined_run (random : RandomSource) (maxSessions : Nat) :
    ((∀ ms m, ((Client.new random).run ms).1.Disciplined m) ∧
      ∀ ms fragment taken, .write fragment taken ∈ ((Client.new random).run ms).2 →
        Fragment.isPlain fragment = true →
          (Client.new random).Happens ms fun c m => c.SendsLogin m fragment) ∧
    (∀ ms m, ((Server.new random maxSessions).run ms).1.Disciplined m) ∧
      ∀ ms id fragment taken,
        .write id fragment taken ∈ ((Server.new random maxSessions).run ms).2 →
        Fragment.isPlain fragment = true →
          (Server.new random maxSessions).Happens ms fun s m => s.SendsInPlain m id fragment := by
  have hnodup := Server.nodup_ids_run random maxSessions
  refine ⟨⟨fun ms m => Client.disciplined _ m, ?_⟩,
    fun ms m => Server.disciplined (hnodup ms) m, ?_⟩
  · intro ms fragment taken hmem hplain
    obtain ⟨before, m, after, hrun, hstep⟩ := Client.mem_run_iff.mp hmem
    exact ⟨before, m, after, hrun, Client.sendsLogin_of_isPlain hstep hplain⟩
  · intro ms id fragment taken hmem hplain
    obtain ⟨before, m, after, hrun, hstep⟩ := Server.mem_run_iff.mp hmem
    exact ⟨before, m, after, hrun,
      Server.sendsInPlain_of_isPlain (hnodup before) hstep hplain⟩

end SmartLock
