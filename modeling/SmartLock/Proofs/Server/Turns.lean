/-
# What a fragment does to a server

Every fragment from a central has one of five effects on the shared part of a server and on its own
session (`FragmentEffect`): it leaves them as they are, drops the session, lets it run after a login
or a registration, or, when the answer to a registration is not taken, leaves it with a key under a
secret that nobody is registered with.  `onFragment_effect` says that there is no other.

Which commands a message puts out is an equation of its own (`commands_onMessage`).
-/
import SmartLock.Proofs.Link.Lockstep
import SmartLock.Server.Operations

namespace SmartLock

/-- A code is right only under a key. -/
theorem Cipher.hasKey_of_verifyCode {c : Cipher} {code : Bytes} (h : c.verifyCode code = true) :
    c.hasKey = true := by
  unfold verifyCode at h
  cases hkey : c.key with
  | none => simp [hkey] at h
  | some key => simp [hasKey, hkey]

/-! ## Sessions that are alike -/

/-- Two views of a session with the same number, nonce, key and state.  The packet in progress, the
nonces of the link and the time of the last change of state may differ. -/
structure Session.Like (a b : Session) : Prop where
  id : a.id = b.id
  nonce : a.nonce = b.nonce
  key : a.channel.cipher.key = b.channel.cipher.key
  state : a.state = b.state

namespace Session

theorem Like.refl (a : Session) : a.Like a := ⟨rfl, rfl, rfl, rfl⟩

theorem Like.trans {a b c : Session} (h : a.Like b) (h' : b.Like c) : a.Like c :=
  ⟨h.id.trans h'.id, h.nonce.trans h'.nonce, h.key.trans h'.key, h.state.trans h'.state⟩

@[simp] theorem id_setState (s : Session) (state : SessionState) (now : UInt32) :
    (s.setState state now).id = s.id := by
  unfold setState
  split <;> rfl

@[simp] theorem nonce_setState (s : Session) (state : SessionState) (now : UInt32) :
    (s.setState state now).nonce = s.nonce := by
  unfold setState
  split <;> rfl

@[simp] theorem channel_setState (s : Session) (state : SessionState) (now : UInt32) :
    (s.setState state now).channel = s.channel := by
  unfold setState
  split <;> rfl

@[simp] theorem state_setState (s : Session) (state : SessionState) (now : UInt32) :
    (s.setState state now).state = state := by
  unfold setState
  split
  · assumption
  · rfl

/-- Moves to one state keep sessions alike. -/
theorem Like.setState {a b : Session} (h : a.Like b) (state : SessionState) (now : UInt32) :
    (a.setState state now).Like (b.setState state now) := by
  constructor
  · rw [id_setState, id_setState, h.id]
  · rw [nonce_setState, nonce_setState, h.nonce]
  · rw [channel_setState, channel_setState, h.key]
  · rw [state_setState, state_setState]

/-- A key under one secret keeps sessions alike. -/
theorem Like.withSecret {a b : Session} (h : a.Like b) (secret : Key) :
    (a.withSecret secret).Like (b.withSecret secret) := by
  refine ⟨h.id, h.nonce, ?_, h.state⟩
  simp only [Session.withSecret, Channel.withKey, Cipher.withKey, keyUnder, h.nonce]

/-- A dropped session has neither key nor state. -/
theorem Like.drop {a b : Session} (h : a.Like b) (now : UInt32) :
    (a.drop now).Like (b.drop now) := by
  constructor
  · simp only [Session.drop, id_setState, h.id]
  · simp only [Session.drop, nonce_setState, h.nonce]
  · simp only [Session.drop, channel_setState]
    rfl
  · simp only [Session.drop, state_setState]

end Session

/-! ## Outputs -/

/-- Whether an output is a command to be carried out. -/
def ServerOutput.isCommand : ServerOutput → Bool
  | .command .. => true
  | _ => false

namespace Server

/-- The commands among some outputs. -/
def commands (outputs : List ServerOutput) : List ServerOutput :=
  outputs.filter ServerOutput.isCommand

@[simp] theorem commands_append (first second : List ServerOutput) :
    commands (first ++ second) = commands first ++ commands second := List.filter_append ..

/-- The writes of an offer are writes to its session. -/
theorem mem_writes {id : SessionId} {offer : Fragment.Offer} {output : ServerOutput}
    (h : output ∈ Turn.writes id offer) :
    ∃ fragment taken, output = .write id fragment taken := by
  rw [Turn.writes, List.mem_append, List.mem_map, List.mem_map] at h
  rcases h with ⟨fragment, -, rfl⟩ | ⟨fragment, -, rfl⟩
  · exact ⟨fragment, true, rfl⟩
  · exact ⟨fragment, false, rfl⟩

/-- The writes of an offer are no commands. -/
@[simp] theorem commands_writes (id : SessionId) (offer : Fragment.Offer) :
    commands (Turn.writes id offer) = [] := by
  rw [commands, List.filter_eq_nil_iff]
  intro output hmem
  obtain ⟨fragment, taken, rfl⟩ := mem_writes hmem
  simp [ServerOutput.isCommand]

/-! ## Sending -/

section Notify

variable (host : ServerHost) (t : Turn) (op : OpCode) (item : ItemCode) (body : Bytes)
  (encrypted : Bool)

@[simp] theorem commands_notify :
    commands (t.notify host op item body encrypted).outputs = commands t.outputs := by
  simp [Turn.notify]

/-- Sending a message leaves a session as it is but for the nonces of its link. -/
theorem like_notify : (t.notify host op item body encrypted).session.Like t.session :=
  ⟨rfl, rfl, Channel.key_send .., rfl⟩

/-- A message fails only because of the link. -/
theorem result_notify : (t.notify host op item body encrypted).result = .ok () ∨
    ∃ error, (t.notify host op item body encrypted).result = .error (.link error) := by
  simp only [Turn.notify]
  cases (t.session.channel.send _ (op.code :: item.code :: body) encrypted).result with
  | ok => exact .inl rfl
  | error error => exact .inr ⟨error, rfl⟩

/-- A plain message fails only because a fragment is not taken. -/
theorem result_notify_plain : (t.notify host op item body false).result = .ok () ∨
    ∃ index, (t.notify host op item body false).result = .error (.link (.writeFailed index)) := by
  simp only [Turn.notify, Channel.send, Channel.sendPacket, Bool.false_eq_true, if_false]
  split
  · exact .inr ⟨_, rfl⟩
  · exact .inl rfl

end Notify

/-- A message that is too long to be encrypted is refused with an error. -/
theorem notify_error_of_lt (host : ServerHost) {t : Turn} (op : OpCode) (item : ItemCode)
    {body : Bytes} {key : Key}
    (hkey : t.session.channel.cipher.key = some key) (hlong : Ccm.maxLength < body.length + 2) :
    ∃ error, (t.notify host op item body true).result = .error error := by
  have hencrypt (nonce : Nonce) : Ccm.encrypt? key nonce Cipher.associated
      (op.code :: item.code :: body) = none :=
    if_neg (Nat.not_le.mpr hlong)
  refine ⟨.link (.crypto .encrypt), ?_⟩
  simp only [Turn.notify, Channel.send, Cipher.encrypt, hkey, hencrypt, if_true]
  rfl

/-- Nothing of it is written. -/
theorem outputs_notify_of_lt (host : ServerHost) (t : Turn) (op : OpCode) (item : ItemCode)
    {body : Bytes} (hlong : Ccm.maxLength < body.length + 2) :
    (t.notify host op item body true).outputs = t.outputs := by
  have hencrypt (key : Key) (nonce : Nonce) : Ccm.encrypt? key nonce Cipher.associated
      (op.code :: item.code :: body) = none :=
    if_neg (Nat.not_le.mpr hlong)
  cases hkey : t.session.channel.cipher.key with
  | none => simp [Turn.notify, Channel.send, Cipher.encrypt, hkey, Turn.writes]
  | some key => simp [Turn.notify, Channel.send, Cipher.encrypt, hkey, hencrypt, Turn.writes]

/-- The answer to a login is short. -/
theorem length_loginBody_le (station : Station) :
    (loginBody station).length + 2 ≤ Ccm.maxLength := by
  show (writeUInt32 station.currentTime).length + 1 + 2 ≤ 65535
  rw [length_writeUInt32]
  omega

/-- An encrypted message of a session that has a key goes out whole. -/
theorem notify_takesAll {host : ServerHost}
    (htakes : ∀ outputs id fragment, host.takes outputs id fragment = true)
    {t : Turn} {op : OpCode} {item : ItemCode} {body : Bytes} {key : Key}
    (hkey : t.session.channel.cipher.key = some key)
    (hsendable : (⟨op.code :: item.code :: body, true⟩ : Message).Sendable) :
    ∃ writer, Fragment.TakesAll writer ∧
      let sent := t.session.channel.send writer (op.code :: item.code :: body) true
      t.notify host op item body true =
        { station := t.station
          session := { t.session with channel := sent.channel }
          outputs := t.outputs ++ sent.offer.taken.map (.write t.session.id · true)
          result := .ok () } := by
  let writer : Fragment.Writer := fun taken fragment =>
    host.takes (t.outputs ++ taken.reverse.map (.write t.session.id · true)) t.session.id fragment
  have hwriter : Fragment.TakesAll writer := fun _ _ => htakes _ _ _
  have hsent := Channel.send_of_takesAll hkey hsendable hwriter
  refine ⟨writer, hwriter, ?_⟩
  change Turn.mk _ _ (t.outputs ++ Turn.writes t.session.id
      (t.session.channel.send writer (op.code :: item.code :: body) true).offer)
    ((t.session.channel.send writer (op.code :: item.code :: body) true).result.mapError .link) = _
  rw [hsent]
  simp only [Turn.writes, Option.toList_none, List.map_nil, List.append_nil]
  rfl

/-- After a success the turn goes on. -/
theorem andThen_of_ok {t : Turn} (h : t.result = .ok ()) (next : Turn → Turn) :
    t.andThen next = next t := by
  rw [Turn.andThen, h]

/-- After a failure nothing more happens. -/
theorem andThen_of_error {t : Turn} {error : ServerError} (h : t.result = .error error)
    (next : Turn → Turn) : t.andThen next = t := by
  rw [Turn.andThen, h]

/-! ## Effects of a fragment -/

/-- What a fragment can do to the shared part and to its own session, given what it led to: `t` is
the turn that comes of `station` and `session`. -/
inductive FragmentEffect (station : Station) (session : Session) (received : Received) (t : Turn) :
    Prop
  /-- Nothing but outputs. -/
  | keep (hstation : t.station = station) (hlike : t.session.Like session)
  /-- The session loses its key and is idle, because of a wrong code or tag. -/
  | drop (hstation : t.station = station) (hlike : t.session.Like (session.drop station.now))
      (hresult : t.result = .error .authenticationFailed)
  /-- The session runs after a login with the right code. -/
  | login (payload : Bytes) (authenticated : Bool)
      (hreceived : received = .complete (ItemCode.login.code :: payload) authenticated)
      (hcode : session.channel.cipher.verifyCode payload = true) (hstation : t.station = station)
      (hlike : t.session.Like (session.setState .running station.now))
      (hresult : t.result = .ok ())
  /-- The session runs after a registration, whose secret is now the one of the server. -/
  | register (payload : Bytes) (authenticated : Bool)
      (hreceived : received = .complete (ItemCode.registration.code :: payload) authenticated)
      (secret : Key) (hnew : station.registered = false)
      (hstation : t.station = { station with secret := secret, registered := true })
      (hlike : t.session.Like ((session.withSecret secret).setState .running station.now))
      (hresult : t.result = .ok ())
  /-- The answer to a registration was not taken: secret and key stay, but nobody is registered. -/
  | strand (payload : Bytes) (authenticated : Bool)
      (hreceived : received = .complete (ItemCode.registration.code :: payload) authenticated)
      (secret : Key) (hnew : station.registered = false)
      (hstation : t.station = { station with secret := secret })
      (hlike : t.session.Like (session.withSecret secret)) (index : Nat)
      (hresult : t.result = .error (.link (.writeFailed index)))

/-- The effect is the same on a session that is alike. -/
theorem FragmentEffect.of_like {station : Station} {session session' : Session}
    {received : Received} {t : Turn} (hsession : session'.Like session)
    (h : FragmentEffect station session' received t) :
    FragmentEffect station session received t := by
  cases h with
  | keep hstation hlike => exact .keep hstation (hlike.trans hsession)
  | drop hstation hlike hresult => exact .drop hstation (hlike.trans (hsession.drop _)) hresult
  | login payload authenticated hreceived hcode hstation hlike hresult =>
      refine .login payload authenticated hreceived ?_ hstation
        (hlike.trans (hsession.setState _ _)) hresult
      rwa [Cipher.verifyCode, ← hsession.key]
  | register payload authenticated hreceived secret hnew hstation hlike hresult =>
      exact .register payload authenticated hreceived secret hnew hstation
        (hlike.trans ((hsession.withSecret secret).setState _ _)) hresult
  | strand payload authenticated hreceived secret hnew hstation hlike index hresult =>
      exact .strand payload authenticated hreceived secret hnew hstation
        (hlike.trans (hsession.withSecret secret)) index hresult

section Messages

variable (host : ServerHost) (t : Turn) (payload : Bytes) (authenticated : Bool)

/-- A registration is refused, or succeeds, or its answer is not taken; the last two only as long as
nobody is registered. -/
theorem onRegistration_cases :
    (∃ error, onRegistration host t payload = t.fail error ∧ ∀ cause, error ≠ .link cause) ∨
    ∃ secret, t.station.registered = false ∧
      t.station.deriveSecret (Octets.ofBytes 64 payload) = .ok secret ∧
      (((onRegistration host t payload).station =
            { t.station with secret := secret, registered := true } ∧
          (onRegistration host t payload).session.Like
            ((t.session.withSecret secret).setState .running t.station.now) ∧
          (onRegistration host t payload).result = .ok ()) ∨
        ((onRegistration host t payload).station = { t.station with secret := secret } ∧
          (onRegistration host t payload).session.Like (t.session.withSecret secret) ∧
          ∃ index, (onRegistration host t payload).result =
            .error (.link (.writeFailed index)))) := by
  simp only [onRegistration]
  split
  · exact .inl ⟨_, rfl, nofun⟩
  split
  · exact .inl ⟨_, rfl, nofun⟩
  rename_i hregistered
  split
  · exact .inl ⟨_, rfl, nofun⟩
  split
  · exact .inl ⟨_, rfl, nofun⟩
  · exact .inl ⟨_, rfl, nofun⟩
  · rename_i secret key hsecret hkey
    refine .inr ⟨secret, by simpa using hregistered, hsecret, ?_⟩
    -- The answer is sent when secret and key have changed already.
    let keyed : Turn :=
      { t with
        station := { t.station with secret := secret }
        session := t.session.withSecret secret }
    have hlike := like_notify host keyed .response .registration
      (registrationBody keyed.station key) false
    rcases result_notify_plain host keyed .response .registration
      (registrationBody keyed.station key) with hok | ⟨index, herror⟩
    · rw [andThen_of_ok hok]
      exact .inl ⟨rfl, hlike.setState .running t.station.now, hok⟩
    · rw [andThen_of_error herror]
      exact .inr ⟨rfl, hlike, index, herror⟩

/-- What a registration does. -/
theorem onRegistration_effect :
    FragmentEffect t.station t.session
      (.complete (ItemCode.registration.code :: payload) authenticated)
      (onRegistration host t payload) := by
  rcases onRegistration_cases host t payload with ⟨error, heq, -⟩ |
    ⟨secret, hnew, -, ⟨hstation, hlike, hresult⟩ | ⟨hstation, hlike, index, hresult⟩⟩
  · rw [heq]
    exact .keep rfl (.refl _)
  · exact .register payload _ rfl secret hnew hstation hlike hresult
  · exact .strand payload _ rfl secret hnew hstation hlike index hresult

/-- A login leaves the session as it is, drops it or, if it succeeds, lets it run. -/
theorem onLogin_cases : (onLogin host t payload).station = t.station ∧
    (((onLogin host t payload).session.Like t.session ∧ (onLogin host t payload).result ≠ .ok ()) ∨
    ((onLogin host t payload).session.Like (t.session.drop t.station.now) ∧
      (onLogin host t payload).result = .error .authenticationFailed) ∨
    (t.session.channel.cipher.verifyCode payload = true ∧
      (onLogin host t payload).session.Like (t.session.setState .running t.station.now) ∧
      (onLogin host t payload).result = .ok ())) := by
  simp only [onLogin]
  split
  · exact ⟨rfl, .inl ⟨.refl _, nofun⟩⟩
  split
  · exact ⟨rfl, .inl ⟨.refl _, nofun⟩⟩
  split
  · exact ⟨rfl, .inr (.inl ⟨.refl _, rfl⟩)⟩
  · rename_i hcode
    have hlike := like_notify host t .response .login (loginBody t.station) true
    rcases result_notify host t .response .login (loginBody t.station) true with
      hok | ⟨error, herror⟩
    · rw [andThen_of_ok hok]
      refine ⟨rfl, .inr (.inr ⟨by simpa using hcode, ?_, rfl⟩)⟩
      exact ((like_notify ..).trans (like_notify ..)).trans (hlike.setState .running t.station.now)
    · rw [andThen_of_error herror]
      exact ⟨rfl, .inl ⟨hlike, by rw [herror]; nofun⟩⟩

/-- What a login does. -/
theorem onLogin_effect :
    FragmentEffect t.station t.session (.complete (ItemCode.login.code :: payload) authenticated)
      (onLogin host t payload) := by
  obtain ⟨hstation, ⟨hlike, -⟩ | ⟨hlike, hresult⟩ | ⟨hcode, hlike, hresult⟩⟩ :=
    onLogin_cases host t payload
  · exact .keep hstation hlike
  · exact .drop hstation hlike hresult
  · exact .login payload _ rfl hcode hstation hlike hresult

/-- What a command does. -/
theorem onCommand_effect (item : ItemCode) (received : Received) :
    FragmentEffect t.station t.session received (onCommand host t item payload) := by
  unfold onCommand
  split
  · exact .keep rfl (.refl _)
  split
  · exact .keep rfl (.refl _)
  split
  · exact .keep rfl (.refl _)
  dsimp only
  split
  · exact .keep rfl (like_notify ..)
  · exact .keep rfl (like_notify ..)

/-- What a whole message does. -/
theorem onMessage_effect (message : Bytes) :
    FragmentEffect t.station t.session (.complete message authenticated)
      (onMessage host t message) := by
  cases message with
  | nil => exact .keep rfl (.refl _)
  | cons code payload =>
      rw [onMessage]
      split
      · rename_i hcode
        rw [ItemCode.ofCode?_eq_some_iff.mp hcode]
        exact onRegistration_effect host t payload authenticated
      · rename_i hcode
        rw [ItemCode.ofCode?_eq_some_iff.mp hcode]
        exact onLogin_effect host t payload authenticated
      · exact onCommand_effect host t payload .lock _
      · exact onCommand_effect host t payload .unlock _
      · exact onCommand_effect host t payload .doorOpen _
      · exact onCommand_effect host t payload .doorClosed _
      · exact .keep rfl (.refl _)

end Messages

/-! ## Fragments -/

/-- A fragment that completes a message is dealt with as that message. -/
theorem onFragment_of_complete {host : ServerHost} {station : Station} {session : Session}
    {fragment message : Bytes} {authenticated : Bool}
    (h : (session.channel.receive fragment).2 = .complete message authenticated) :
    onFragment host station session fragment =
      onMessage host
        { station := station
          session := { session with channel := (session.channel.receive fragment).1 } }
        message := by
  rw [onFragment]
  rcases hreceive : session.channel.receive fragment with ⟨channel, received⟩
  rw [hreceive] at h
  dsimp only at h ⊢
  rw [h]

/-- A fragment with a wrong tag drops the session. -/
theorem onFragment_of_forged (host : ServerHost) (station : Station) {session : Session}
    {fragment : Bytes} (h : (session.channel.receive fragment).2 = .skipping true) :
    onFragment host station session fragment =
      (Turn.drop
        { station := station
          session := { session with channel := (session.channel.receive fragment).1 } }).fail
        .authenticationFailed := by
  rw [onFragment]
  rcases hreceive : session.channel.receive fragment with ⟨channel, received⟩
  rw [hreceive] at h
  dsimp only at h ⊢
  rw [h]

/-- A fragment of no note is only taken in. -/
theorem onFragment_of_isQuiet (host : ServerHost) (station : Station) {session : Session}
    {fragment : Bytes} (h : (session.channel.receive fragment).2.IsQuiet) :
    onFragment host station session fragment =
      { station := station
        session := { session with channel := (session.channel.receive fragment).1 } } := by
  rw [onFragment]
  rcases hreceive : session.channel.receive fragment with ⟨channel, received⟩
  rw [hreceive] at h
  cases received with
  | complete message authenticated => exact absurd rfl (h.2 message authenticated)
  | skipping forged =>
      cases forged with
      | true => exact absurd rfl h.1
      | false => rfl
  | _ => rfl

/-- The session takes every fragment in first.  Then a message is complete and dealt with, or the
session is dropped for a wrong tag, or there is nothing more to do. -/
theorem onFragment_cases (host : ServerHost) (station : Station) (session : Session)
    (fragment : Bytes) :
    let received := (session.channel.receive fragment).2
    let t : Turn :=
      { station := station
        session := { session with channel := (session.channel.receive fragment).1 } }
    (∃ message authenticated, received = .complete message authenticated ∧
      onFragment host station session fragment = onMessage host t message) ∨
    (received = .skipping true ∧
      onFragment host station session fragment = t.drop.fail .authenticationFailed) ∨
    (received.IsQuiet ∧ onFragment host station session fragment = t) := by
  intro received t
  by_cases hforged : received = .skipping true
  · exact .inr (.inl ⟨hforged, onFragment_of_forged host station hforged⟩)
  by_cases hcomplete : ∃ message authenticated, received = .complete message authenticated
  · obtain ⟨message, authenticated, heq⟩ := hcomplete
    exact .inl ⟨message, authenticated, heq, onFragment_of_complete heq⟩
  · have hquiet : received.IsQuiet :=
      ⟨hforged, fun message authenticated heq => hcomplete ⟨message, authenticated, heq⟩⟩
    exact .inr (.inr ⟨hquiet, onFragment_of_isQuiet host station hquiet⟩)

/-- What a fragment does. -/
theorem onFragment_effect (host : ServerHost) (station : Station) (session : Session)
    (fragment : Bytes) : FragmentEffect station session (session.channel.receive fragment).2
      (onFragment host station session fragment) := by
  -- The message is dealt with in a session whose channel has taken the fragment in already.
  have hlike : Session.Like { session with channel := (session.channel.receive fragment).1 }
      session := ⟨rfl, rfl, Channel.key_receive .., rfl⟩
  apply FragmentEffect.of_like hlike
  rcases onFragment_cases host station session fragment with
    ⟨message, authenticated, hreceived, heq⟩ | ⟨-, heq⟩ | ⟨-, heq⟩
  · rw [heq, hreceived]
    exact onMessage_effect host ⟨station, { session with channel := _ }, [], .ok ()⟩ authenticated
      message
  · rw [heq]
    exact .drop rfl (.refl _) rfl
  · rw [heq]
    exact .keep rfl (.refl _)

/-- On a registered server a fragment leaves the shared part alone. -/
theorem station_onFragment {station : Station} (h : station.registered = true) (host : ServerHost)
    (session : Session) (fragment : Bytes) :
    (onFragment host station session fragment).station = station := by
  cases onFragment_effect host station session fragment with
  | keep hstation => exact hstation
  | drop hstation => exact hstation
  | login payload authenticated hreceived hcode hstation => exact hstation
  | register payload authenticated hreceived secret hnew => simp [h] at hnew
  | strand payload authenticated hreceived secret hnew => simp [h] at hnew

/-- A fragment changes the owner of a server, and nothing else of its shared part. -/
theorem exists_station_onFragment (host : ServerHost) (station : Station) (session : Session)
    (fragment : Bytes) : ∃ registered secret, (onFragment host station session fragment).station =
      { station with registered := registered, secret := secret } := by
  cases onFragment_effect host station session fragment with
  | keep hstation => exact ⟨_, _, hstation⟩
  | drop hstation => exact ⟨_, _, hstation⟩
  | login payload authenticated hreceived hcode hstation => exact ⟨_, _, hstation⟩
  | register payload authenticated hreceived secret hnew hstation => exact ⟨_, _, hstation⟩
  | strand payload authenticated hreceived secret hnew hstation => exact ⟨_, _, hstation⟩

/-- A fragment that completes a login is dealt with as that login. -/
theorem onFragment_login {host : ServerHost} {station : Station} {session : Session}
    {fragment payload : Bytes} {authenticated : Bool}
    (h : (session.channel.receive fragment).2 =
      .complete (ItemCode.login.code :: payload) authenticated) :
    onFragment host station session fragment =
      onLogin host
        { station := station
          session := { session with channel := (session.channel.receive fragment).1 } }
        payload := by
  rw [onFragment_of_complete h, onMessage, ItemCode.ofCode?_code]

/-- A fragment that completes a registration is dealt with as that registration. -/
theorem onFragment_registration {host : ServerHost} {station : Station} {session : Session}
    {fragment payload : Bytes} {authenticated : Bool}
    (h : (session.channel.receive fragment).2 =
      .complete (ItemCode.registration.code :: payload) authenticated) :
    onFragment host station session fragment =
      onRegistration host
        { station := station
          session := { session with channel := (session.channel.receive fragment).1 } }
        payload := by
  rw [onFragment_of_complete h, onMessage, ItemCode.ofCode?_code]

end Server

end SmartLock
