/-
# A registration agrees on a secret

A central registers with a message of several fragments, in plain, and is answered in plain.  Each
fragment goes straight to the server, and the central goes on only if the server has no objection
(`Server.wire`).  A message that is long enough for several fragments is dealt with when the last
one has come (`Server.step_of_complete`).

`Server.registration_run` follows a registration on any server that nobody owns yet, up to the
encrypted messages that both sides can exchange after it.
-/
import SmartLock.Proofs.Crypto.KeyAgreement
import SmartLock.Proofs.Link.WholeMessages
import SmartLock.Proofs.Server.Equipment
import SmartLock.Proofs.Server.LoginSteps
import SmartLock.Proofs.Server.SessionKeys
import SmartLock.Proofs.Server.Table
import SmartLock.Proofs.Server.Writes

namespace SmartLock

namespace Server

/-! ## Messages of several fragments -/

/-- The fragments of a message come one after the other. -/
def receipts (host : ServerHost) (id : SessionId) (fragments : List Bytes) : List Moment :=
  fragments.map fun fragment => ⟨host, .receive id fragment⟩

/-- The way from a central to a server: every fragment is handed to the server, and counts as taken
if the server has no objection. -/
def wire (s : Server) (host : ServerHost) (id : SessionId) : Fragment.Writer :=
  fun taken fragment =>
    ((s.run (receipts host id taken.reverse)).1.step host (.receive id fragment)).result.isOk

section Receipts

variable (host : ServerHost) {s : Server} {id : SessionId} {session : Session}
  (hsession : s.session? id = some session)

include hsession

/-- A fragment of no note is only taken in. -/
theorem step_of_isQuiet {fragment : Bytes} (h : (session.channel.receive fragment).2.IsQuiet) :
    let heard := s.step host (.receive id fragment)
    heard.server.station = s.station ∧
      heard.server.session? id =
        some { session with channel := (session.channel.receive fragment).1 } ∧
      heard.outputs = [] ∧ heard.result = .ok () := by
  intro heard
  have hturn := onFragment_of_isQuiet host s.station h
  have hfound := session?_receive hsession host fragment
  have hheard : heard = _ := receive_of_session? hsession host fragment
  rw [hturn] at hfound hheard
  rw [hheard]
  exact ⟨rfl, hheard ▸ hfound, rfl, rfl⟩

/-- With its last fragment a message is dealt with. -/
theorem step_of_complete {fragment message : Bytes} {authenticated : Bool}
    (h : (session.channel.receive fragment).2 = .complete message authenticated) :
    let t := onMessage host
      { station := s.station
        session := { session with channel := (session.channel.receive fragment).1 } } message
    let heard := s.step host (.receive id fragment)
    heard.server.station = t.station ∧ heard.server.session? id = some t.session ∧
      heard.outputs = t.outputs ∧ heard.result = t.result := by
  intro t heard
  have hturn : onFragment host s.station session fragment = t := onFragment_of_complete h
  have hfound := session?_receive hsession host fragment
  have hheard : heard = _ := receive_of_session? hsession host fragment
  rw [hturn] at hfound hheard
  rw [hheard]
  exact ⟨rfl, hheard ▸ hfound, rfl, rfl⟩

/-- Several fragments of no note. -/
theorem run_receipts_of_isQuiet {fragments : List Bytes}
    (h : ∀ r ∈ (session.channel.receiveAll fragments).2, r.IsQuiet) :
    let heard := s.run (receipts host id fragments)
    heard.1.station = s.station ∧
      heard.1.session? id =
        some { session with channel := (session.channel.receiveAll fragments).1 } ∧
      heard.2 = [] := by
  induction fragments generalizing s session with
  | nil => exact ⟨rfl, hsession, rfl⟩
  | cons fragment rest ih =>
      obtain ⟨hstation, hfound, houtputs, -⟩ :=
        step_of_isQuiet host hsession (h _ List.mem_cons_self)
      obtain ⟨hstation', hfound', houtputs'⟩ := ih hfound
        fun r hr => h r (List.mem_cons_of_mem _ hr)
      refine ⟨hstation'.trans hstation, hfound', ?_⟩
      rw [receipts, List.map_cons, run]
      dsimp only
      rw [houtputs, List.nil_append]
      exact houtputs'

/-- The server has no objection to a fragment of no note. -/
theorem wire_of_isQuiet {before : List Bytes} {fragment : Bytes}
    (h : ∀ r ∈ (session.channel.receiveAll (before ++ [fragment])).2, r.IsQuiet) :
    s.wire host id before.reverse fragment = true := by
  rw [Channel.receiveAll_append] at h
  obtain ⟨-, hfound, -⟩ := run_receipts_of_isQuiet host hsession
    fun r hr => h r (List.mem_append_left _ hr)
  obtain ⟨-, -, -, hresult⟩ := step_of_isQuiet host hfound
    (h _ (List.mem_append_right _ List.mem_cons_self))
  rw [wire, List.reverse_reverse, hresult]
  rfl

/-- With the last of its fragments a message is dealt with; if there is no objection to it, there is
none to any of the fragments. -/
theorem run_receipts_of_complete {fragments : List Bytes} {after : Channel}
    {quiet : List Received} (hquiet : ∀ r ∈ quiet, r.IsQuiet) {message : Bytes}
    {authenticated : Bool} (h : session.channel.receiveAll fragments =
      (after, quiet ++ [.complete message authenticated])) :
    let t := onMessage host
      { station := s.station, session := { session with channel := after } } message
    let heard := s.run (receipts host id fragments)
    heard.1.station = t.station ∧ heard.1.session? id = some t.session ∧ heard.2 = t.outputs ∧
      (t.result = .ok () → ∀ before fragment rest, fragments = before ++ fragment :: rest →
        s.wire host id before.reverse fragment = true) := by
  intro t heard
  obtain ⟨first, last, rfl, hfirst, hlast⟩ := Channel.receiveAll_eq_concat h
  -- Before the last fragment nothing comes of the message.
  have hbefore : ∀ r ∈ (session.channel.receiveAll first).2, r.IsQuiet := hfirst ▸ hquiet
  obtain ⟨hstation, hfound, houtputs⟩ := run_receipts_of_isQuiet host hsession hbefore
  have hcomplete := step_of_complete host hfound (congrArg Prod.snd hlast)
  rw [hlast, hstation] at hcomplete
  obtain ⟨hstation', hfound', houtputs', hresult⟩ := hcomplete
  have hheard : heard = s.run (receipts host id first ++ [⟨host, .receive id last⟩]) :=
    congrArg s.run List.map_append
  rw [hheard, run_concat]
  refine ⟨hstation', hfound', ?_, fun hok before fragment rest heq => ?_⟩
  · rw [houtputs, List.nil_append]
    exact houtputs'
  · rcases List.eq_nil_or_concat rest with rfl | ⟨rest, final, rfl⟩
    · obtain ⟨rfl, hfragment⟩ := List.append_inj' heq rfl
      rw [← List.singleton_inj.mp hfragment, wire, List.reverse_reverse, hresult]
      exact congrArg Except.isOk hok
    · have hends : first ++ [last] = before ++ [fragment] ++ rest ++ [final] := by
        rw [heq]
        simp
      obtain ⟨rfl, -⟩ := List.append_inj' hends rfl
      refine wire_of_isQuiet host hsession fun r hr => hbefore r ?_
      rw [Channel.receiveAll_append]
      exact List.mem_append_left _ hr

/-- A message in plain to which the server has no objection goes through as a whole. -/
theorem send_wire (c : Channel) {message : Bytes} (hne : message ≠ [])
    (hlength : message.length ≤ Channel.maxReceived) :
    let t := onMessage host
      { station := s.station
        session := { session with
          channel := { session.channel with reassembly := .skipping message } } } message
    t.result = .ok () →
    let sent := c.send (s.wire host id) message false
    let heard := s.run (receipts host id sent.offer.taken)
    sent.result = .ok () ∧ sent.offer.taken = Fragment.split false message ∧
      heard.1.station = t.station ∧ heard.1.session? id = some t.session ∧
      heard.2 = t.outputs := by
  intro t hok sent heard
  obtain ⟨quiet, hquiet, hreceived⟩ := session.channel.receiveAll_plain hne hlength
  obtain ⟨hstation, hfound, houtputs, htakes⟩ :=
    run_receipts_of_complete host hsession hquiet hreceived
  have hoffer : Fragment.offer (s.wire host id) (Fragment.split false message) =
      ⟨Fragment.split false message, none⟩ := by
    refine Fragment.offerAfter_of_takes fun before fragment rest heq => ?_
    rw [List.append_nil]
    exact htakes hok before fragment rest heq
  have hsent : sent = _ := c.sendPacket_of_offer hoffer
  have htaken : sent.offer.taken = Fragment.split false message := by rw [hsent]
  have hheard : heard = s.run (receipts host id (Fragment.split false message)) :=
    congrArg (fun fragments => s.run (receipts host id fragments)) htaken
  rw [hheard]
  exact ⟨by rw [hsent], htaken, hstation, hfound, houtputs⟩

end Receipts

/-! ## The registration -/

/-- A registration: the central's public key and a time. -/
def registrationRequest (key : PublicKey) (time : Octets 4) : Bytes :=
  ItemCode.registration.code :: (key.toBytes ++ time.toBytes)

/-- It travels in several fragments. -/
theorem length_registrationRequest (key : PublicKey) (time : Octets 4) :
    (registrationRequest key time).length = 69 := by
  simp [registrationRequest, Octets.length_toBytes]

/-- And so does the answer. -/
theorem length_registrationAnswer (station : Station) (key : PublicKey) :
    (registrationAnswer station key).length = 80 := by
  simp [registrationAnswer, registrationBody, Octets.length_toBytes]

/-- A server that nobody owns answers a registration, runs the session under the key of the common
secret, and names the secret. -/
theorem onMessage_registration {host : ServerHost}
    (htakes : ∀ outputs id fragment, host.takes outputs id fragment = true)
    (hregisters : host.registers = true) {t : Turn} {own : PrivateKey}
    (hown : t.station.keys = some own) (hnew : t.station.registered = false) {key : PublicKey}
    {secret : Key} (hsecret : own.sharedKey key = .ok secret) (time : Octets 4) :
    onMessage host t (registrationRequest key time) =
      { station := { t.station with secret := secret, registered := true }
        session := (t.session.withSecret secret).setState .running t.station.now
        outputs := t.outputs ++
          (Fragment.split false (registrationAnswer t.station own.publicKey)).map
            (.write t.session.id · true) ++ [.registered t.session.id secret]
        result := .ok () } := by
  have hsize : ¬ (key.toBytes ++ time.toBytes).length ≠ registrationSize := by
    simp [Octets.length_toBytes, registrationSize]
  have hderived : t.station.deriveSecret (Octets.ofBytes 64 (key.toBytes ++ time.toBytes)) =
      .ok secret := by
    rw [Octets.ofBytes_append, Station.deriveSecret, hown]
    exact hsecret
  have hpublic : t.station.publicKey = .ok own.publicKey := by rw [Station.publicKey, hown]
  rw [registrationRequest, onMessage, ItemCode.ofCode?_code]
  dsimp only
  rw [onRegistration, if_neg hsize, if_neg (by rw [hnew]; decide),
    if_neg (by rw [hregisters]; decide), hderived, hpublic]
  dsimp only
  rw [notify_plain htakes, andThen_of_ok rfl]
  rfl

/-- **A registration.**  Take any server that any run of requests and fragments has led to, started
and owned by nobody, any of its sessions, and any central with a key pair, which sends its public
key and a time in plain.  The server takes every fragment; with the last one it is registered and
the session runs.  It answers, in plain, with a message that every end of a link reads as the
result, its status, its setting and its public key, and it names a secret, which is the one that the
central comes to with that public key.

Once the central has installed the code under the secret for the nonce of the session, both sides
read the encrypted messages of each other. -/
theorem registration_run (random : RandomSource) (maxSessions : Nat) (ms : List Moment)
    {id : SessionId} {session : Session}
    (hstarted : ((Server.new random maxSessions).run ms).1.station.model.isSome = true)
    (hnew : ((Server.new random maxSessions).run ms).1.station.registered = false)
    (hsession : ((Server.new random maxSessions).run ms).1.session? id = some session)
    (host : ServerHost) (htakes : ∀ outputs id fragment, host.takes outputs id fragment = true)
    (hregisters : host.registers = true) (k : PrivateKey) (time : Octets 4) (c : Channel) :
    let s := ((Server.new random maxSessions).run ms).1
    let request := ItemCode.registration.code :: (k.publicKey.toBytes ++ time.toBytes)
    let sent := c.send (s.wire host id) request false
    let done := s.run (receipts host id sent.offer.taken)
    ∃ (own : PrivateKey) (secret : Key) (registered : Session),
      let answer := [OpCode.response.code, ItemCode.registration.code, ResultCode.success.code] ++
        s.station.mechStatus.toBytes ++ s.station.mechSetting.toBytes ++ own.publicKey.toBytes
      let key := cmac secret session.nonce.toBytes
      s.station.publicKey = .ok own.publicKey ∧
      sent.result = .ok () ∧ sent.offer.taken = Fragment.split false request ∧
      done.1.station.registered = true ∧
      done.1.session? id = some registered ∧ registered.state = .running ∧
      done.2 = (Fragment.split false answer).map (.write id · true) ++ [.registered id secret] ∧
      (∀ receiver : Channel, ∃ (after : Channel) (quiet : List Received),
        (∀ r ∈ quiet, r.IsQuiet) ∧ receiver.receiveAll (Fragment.split false answer) =
          (after, quiet ++ [.complete answer false])) ∧
      k.sharedKey own.publicKey = .ok secret ∧
      ∀ central : Channel, central.cipher.role = .central → central.cipher.rule = .os3 →
        Duplex.Delivers (Role.ends (central.withKey key (Octets.zero 4) session.nonce)
          registered.channel) := by
  intro s request sent done
  obtain ⟨hkeys, hdevices⟩ := equipped_run random maxSessions ms
  obtain ⟨own, hown⟩ := Option.isSome_iff_exists.mp (hkeys hstarted)
  obtain ⟨hmem, hid⟩ := mem_of_session? hsession
  obtain ⟨secret, hsecret⟩ := own.exists_sharedKey_of_isSome k.isSome_point?_publicKey
  let heard : Turn :=
    { station := s.station
      session := { session with
        channel := { session.channel with reassembly := .skipping request } } }
  let registered := (heard.session.withSecret secret).setState .running s.station.now
  have hturn : onMessage host heard request = _ :=
    onMessage_registration htakes hregisters hown hnew hsecret time
  have hlength : request.length = 69 := length_registrationRequest k.publicKey time
  have hne : request ≠ [] := List.cons_ne_nil _ _
  have hheard := send_wire host hsession c hne (hlength.trans_le (by decide))
  dsimp only at hheard
  rw [show onMessage host _ request = _ from hturn] at hheard
  obtain ⟨hresult, htaken, hstation, hfound, houtputs⟩ := hheard rfl
  have hanswer := length_registrationAnswer s.station own.publicKey
  have hend : registered.channel = heard.session.channel.withKey
      (cmac secret session.nonce.toBytes) session.nonce (Octets.zero 4) :=
    Session.channel_setState ..
  refine ⟨own, secret, registered, ?_, hresult, htaken, ?_, hfound, ?_, ?_, fun receiver => ?_, ?_,
    fun central hrole hrule => ?_⟩
  · rw [Station.publicKey, hown]
  · rw [hstation]
  · exact Session.state_setState ..
  · rw [← hid]
    exact houtputs
  · obtain ⟨quiet, hquiet, hreceived⟩ := receiver.receiveAll_plain
      (List.cons_ne_nil _ _) (hanswer.trans_le (by decide))
    exact ⟨_, quiet, hquiet, hreceived⟩
  · rw [k.sharedKey_comm]
    exact hsecret
  · have hdevice : heard.session.channel.cipher.role = .peripheral ∧
        heard.session.channel.cipher.rule = .os3 :=
      ⟨(hdevices session hmem).role, (hdevices session hmem).rule⟩
    rw [hend]
    exact (Duplex.paired_withKey ⟨hrole, hrule⟩ hdevice _ _ _).delivers

/-- A server is started, and a central subscribes. -/
def welcome : List Moment :=
  [⟨registrar true, .begin .sesame5 Uuid.nil⟩, ⟨registrar true, .subscribed 1 0⟩]

/-- The central, whose private key is 1, registers. -/
theorem registration_run_welcome :
    let s := ((Server.new (RandomSource.ofSeed 3) 1).run welcome).1
    let request := registrationRequest PrivateKey.one.publicKey (Octets.zero 4)
    let sent := (Channel.new .os3 .central).send (s.wire (registrar true) 1) request false
    s.station.model = some .sesame5 ∧ s.station.registered = false ∧
      s.sessionState? 1 = some .waitingLogin ∧
      ∃ (own : PrivateKey) (secret : Key), s.station.publicKey = .ok own.publicKey ∧
        PrivateKey.one.sharedKey own.publicKey = .ok secret ∧
        .registered 1 secret ∈ (s.run (receipts (registrar true) 1 sent.offer.taken)).2 := by
  have hstarted : ((Server.new (RandomSource.ofSeed 3) 1).run welcome).1.station.model =
      some .sesame5 := by decide +kernel
  have hnew : ((Server.new (RandomSource.ofSeed 3) 1).run welcome).1.station.registered = false := by
    decide +kernel
  have hstate : ((Server.new (RandomSource.ofSeed 3) 1).run welcome).1.sessionState? 1 =
      some .waitingLogin := by decide +kernel
  obtain ⟨session, hsession, -⟩ := Option.map_eq_some_iff.mp hstate
  obtain ⟨own, secret, registered, hown, -, -, -, -, -, houtputs, -, hsecret, -⟩ :=
    registration_run (RandomSource.ofSeed 3) 1 welcome (by rw [hstarted]; rfl) hnew hsession
      (registrar true) (fun _ _ _ => rfl) rfl PrivateKey.one (Octets.zero 4)
      (Channel.new .os3 .central)
  refine ⟨hstarted, hnew, hstate, own, secret, hown, hsecret, ?_⟩
  exact houtputs ▸ List.mem_append_right _ List.mem_cons_self

end Server

end SmartLock
