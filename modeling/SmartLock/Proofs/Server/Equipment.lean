/-
# What every server has at hand

A server that has been started has a key pair, and the ends of its sessions are those of a device of
the third generation, whatever requests and fragments there have been (`Server.equipped_run`).
Neither a key pair nor the kind of an end is ever taken away; keys and nonces come and go.
-/
import SmartLock.Proofs.Server.Sessions

namespace SmartLock

/-! ## Ends of devices -/

/-- The end of a device of the third generation. -/
structure Channel.IsDevice (c : Channel) : Prop where
  role : c.cipher.role = .peripheral
  rule : c.cipher.rule = .os3

namespace Channel.IsDevice

variable {c : Channel} (h : c.IsDevice)

include h

/-- Receiving moves at most a nonce. -/
theorem receive (fragment : Bytes) : (c.receive fragment).1.IsDevice := by
  rcases cipher_receive_eq_or c fragment with heq | heq <;>
    exact ⟨by rw [heq]; exact h.role, by rw [heq]; exact h.rule⟩

/-- So does sending. -/
theorem send (writer : Fragment.Writer) (message : Bytes) (encrypted : Bool) :
    (c.send writer message encrypted).channel.IsDevice := by
  rcases cipher_send_eq_or c writer message encrypted with heq | heq <;>
    exact ⟨by rw [heq]; exact h.role, by rw [heq]; exact h.rule⟩

/-- A new session key changes the key and the nonces. -/
theorem withKey (key : Key) (own peer : Token) : (c.withKey key own peer).IsDevice :=
  ⟨h.role, h.rule⟩

/-- A reset takes the key away. -/
theorem reset : c.reset.IsDevice := ⟨h.role, h.rule⟩

end Channel.IsDevice

namespace Server

/-! ## Messages -/

section Messages

variable {host : ServerHost} {t : Turn} (h : t.session.channel.IsDevice)

include h

variable (host) in
/-- A message of the server. -/
theorem isDevice_notify (op : OpCode) (item : ItemCode) (body : Bytes) (encrypted : Bool) :
    (t.notify host op item body encrypted).session.channel.IsDevice := h.send ..

/-- What is only done when nothing has failed. -/
theorem isDevice_andThen {next : Turn → Turn} (hnext : (next t).session.channel.IsDevice) :
    (t.andThen next).session.channel.IsDevice := by
  rw [Turn.andThen]
  split
  · exact hnext
  · exact h

/-- The end of a session. -/
theorem isDevice_drop : t.drop.session.channel.IsDevice := by
  rw [Turn.drop, Session.drop, Session.channel_setState]
  exact h.reset

/-- A registration. -/
theorem isDevice_onRegistration (payload : Bytes) :
    (onRegistration host t payload).session.channel.IsDevice := by
  rw [onRegistration]
  split
  · exact h
  split
  · exact h
  split
  · exact h
  split
  · exact h
  · exact h
  · rename_i secret key _ _
    let keyed : Turn :=
      { t with
        station := { t.station with secret := secret }
        session := t.session.withSecret secret }
    have hkeyed : keyed.session.channel.IsDevice := h.withKey ..
    have hsent := isDevice_notify host hkeyed .response .registration
      (registrationBody keyed.station key) false
    refine isDevice_andThen hsent ?_
    dsimp only [Turn.setState]
    rw [Session.channel_setState]
    exact hsent

/-- A login. -/
theorem isDevice_onLogin (payload : Bytes) :
    (onLogin host t payload).session.channel.IsDevice := by
  rw [onLogin]
  split
  · exact h
  split
  · exact h
  split
  · exact isDevice_drop h
  · have hanswered := isDevice_notify host h .response .login (loginBody t.station) true
    refine isDevice_andThen hanswered ?_
    have hrunning : ((t.notify host .response .login (loginBody t.station) true).setState
        .running).session.channel.IsDevice := by
      rw [Turn.setState, Session.channel_setState]
      exact hanswered
    exact isDevice_notify host (isDevice_notify host hrunning ..) ..

/-- A command. -/
theorem isDevice_onCommand (item : ItemCode) (payload : Bytes) :
    (onCommand host t item payload).session.channel.IsDevice := by
  unfold onCommand
  split
  · exact h
  split
  · exact h
  split
  · exact h
  dsimp only
  split
  · have htold (outputs : List ServerOutput) :
        ({ t with outputs := outputs } : Turn).session.channel.IsDevice := h
    exact isDevice_notify host (htold _) ..
  · exact isDevice_notify host h ..

/-- A whole message. -/
theorem isDevice_onMessage (message : Bytes) :
    (onMessage host t message).session.channel.IsDevice := by
  cases message with
  | nil => exact h
  | cons code payload =>
      rw [onMessage]
      split
      · exact isDevice_onRegistration h payload
      · exact isDevice_onLogin h payload
      · exact isDevice_onCommand h .lock payload
      · exact isDevice_onCommand h .unlock payload
      · exact isDevice_onCommand h .doorOpen payload
      · exact isDevice_onCommand h .doorClosed payload
      · exact h

end Messages

/-- A fragment. -/
theorem isDevice_onFragment (host : ServerHost) (station : Station) {session : Session}
    (h : session.channel.IsDevice) (fragment : Bytes) :
    (onFragment host station session fragment).session.channel.IsDevice := by
  let t : Turn :=
    { station := station
      session := { session with channel := (session.channel.receive fragment).1 } }
  have hheard : t.session.channel.IsDevice := h.receive fragment
  rcases onFragment_cases host station session fragment with
    ⟨message, authenticated, -, heq⟩ | ⟨-, heq⟩ | ⟨-, heq⟩
  · rw [heq]
    exact isDevice_onMessage hheard message
  · rw [heq]
    exact isDevice_drop hheard
  · rw [heq]
    exact hheard

/-- The greeting of a new session. -/
theorem isDevice_greet (host : ServerHost) (station : Station) (id : SessionId) (nonce : Token) :
    (greet host station (Session.new id nonce)).session.channel.IsDevice := by
  have hnew : (Session.new id nonce).channel.IsDevice := ⟨rfl, rfl⟩
  have hsent := isDevice_notify host
    (t := { station := station, session := Session.new id nonce }) hnew .publish .initial
    nonce.toBytes false
  refine isDevice_andThen hsent ?_
  dsimp only [Turn.setState]
  rw [Session.channel_setState]
  split
  · exact hsent.withKey ..
  · exact hsent

/-- A notification of all sessions. -/
theorem isDevice_notifySlots (host : ServerHost) (station : Station) (n : Notice)
    (outputs : List ServerOutput) {slots : List (Option Session)}
    (h : ∀ session, some session ∈ slots → session.channel.IsDevice) {session : Session}
    (hmem : some session ∈ (notifySlots host station n outputs slots).1) :
    session.channel.IsDevice := by
  induction slots generalizing outputs with
  | nil => simp [notifySlots] at hmem
  | cons slot rest ih =>
      have hrest : ∀ outputs, some session ∈ (notifySlots host station n outputs rest).1 →
          session.channel.IsDevice :=
        fun outputs => ih outputs fun session hsession => h session (List.mem_cons_of_mem _ hsession)
      cases slot with
      | none =>
          rcases List.mem_cons.mp hmem with hmem | hmem
          · cases hmem
          · exact hrest outputs hmem
      | some first =>
          have hfirst := h first List.mem_cons_self
          simp only [notifySlots] at hmem
          split at hmem
          · rcases List.mem_cons.mp hmem with hmem | hmem
            · rw [Option.some.inj hmem]
              exact isDevice_notify host
                (t := { station := station, session := first, outputs := outputs }) hfirst ..
            · exact hrest _ hmem
          · rcases List.mem_cons.mp hmem with hmem | hmem
            · rw [Option.some.inj hmem]
              exact hfirst
            · exact hrest _ hmem

/-! ## Servers -/

/-- A server that has been started has a key pair, and all its sessions are a device's. -/
structure Equipped (s : Server) : Prop where
  keys : s.station.model.isSome = true → s.station.keys.isSome = true
  device : ∀ session ∈ s.sessions, session.channel.IsDevice

/-- A fragment changes neither the model nor the key pair. -/
theorem keys_onFragment (host : ServerHost) (station : Station) (session : Session)
    (fragment : Bytes) :
    (onFragment host station session fragment).station.model = station.model ∧
      (onFragment host station session fragment).station.keys = station.keys := by
  obtain ⟨registered, secret, hstation⟩ := exists_station_onFragment host station session fragment
  rw [hstation]
  exact ⟨rfl, rfl⟩

/-- One step takes nothing away. -/
theorem equipped_step {s : Server} (h : s.Equipped) (m : Moment) :
    (s.step m.host m.request).server.Equipped := by
  obtain ⟨host, request⟩ := m
  cases request with
  | begin model uuid =>
      refine ⟨fun _ => ?_, h.device⟩
      simp only [step, begin, modifyStation]
      split
      · assumption
      · rfl
  | generateKeys => exact ⟨fun _ => rfl, h.device⟩
  | loadKey key =>
      simp only [step, loadKey]
      cases PrivateKey.ofBytes? key with
      | none => exact h
      | some k => exact ⟨fun _ => rfl, h.device⟩
  | setRegistered secret => exact ⟨h.keys, h.device⟩
  | setMechStatus status => exact ⟨h.keys, h.device⟩
  | setMechSetting setting => exact ⟨h.keys, h.device⟩
  | setLoginTimeout milliseconds => exact ⟨h.keys, h.device⟩
  | setCurrentTime seconds now => exact ⟨h.keys, h.device⟩
  | subscribed id now =>
      rcases subscribed_cases host s id now with ⟨error, -, hstep⟩ | ⟨-, -, -, hstep⟩
      · rw [hstep]
        exact ⟨h.keys, h.device⟩
      · rw [hstep, opened]
        refine ⟨?_, fun session hmem => ?_⟩
        · rw [station_greet]
          exact h.keys
        · rcases mem_placeIn (mem_sessions.mp hmem) with rfl | hold
          · exact isDevice_greet ..
          · exact h.device session (mem_sessions.mpr hold)
  | disconnected id =>
      exact ⟨h.keys, fun session hmem =>
        h.device session (mem_sessions.mpr (mem_clearIn (mem_sessions.mp hmem)))⟩
  | receive id fragment =>
      simp only [step, receive]
      cases hold : s.session? id with
      | none => exact h
      | some old =>
          obtain ⟨hmodel, hkeys⟩ := keys_onFragment host s.station old fragment
          refine ⟨by rw [hmodel, hkeys]; exact h.keys, fun session hmem => ?_⟩
          rcases mem_replaceIn (mem_sessions.mp hmem) with rfl | hkept
          · exact isDevice_onFragment host s.station (h.device old (mem_of_session? hold).1) fragment
          · exact h.device session (mem_sessions.mpr hkept)
  | update now =>
      refine ⟨h.keys, fun session hmem => ?_⟩
      obtain ⟨slot, hslot, hmap⟩ := List.mem_map.mp (mem_sessions.mp hmem)
      obtain ⟨old, rfl, rfl⟩ := Option.map_eq_some_iff.mp hmap
      have hold := h.device old (mem_sessions.mpr hslot)
      unfold checkTime
      split
      · rw [Session.drop, Session.channel_setState]
        exact hold.reset
      · exact hold
  | notify id notice =>
      cases id with
      | none =>
          exact ⟨h.keys, fun session hmem => isDevice_notifySlots host s.station notice []
            (fun old hold => h.device old (mem_sessions.mpr hold)) (mem_sessions.mp hmem)⟩
      | some id =>
          simp only [step, notifyOne]
          cases hold : s.session? id with
          | none => exact h
          | some old =>
              refine ⟨h.keys, fun session hmem => ?_⟩
              rcases mem_replaceIn (mem_sessions.mp hmem) with rfl | hkept
              · exact isDevice_notify host (t := { station := s.station, session := old })
                  (h.device old (mem_of_session? hold).1) ..
              · exact h.device session (mem_sessions.mpr hkept)

/-- In every run of a new server it is equipped. -/
theorem equipped_run (random : RandomSource) (maxSessions : Nat) (ms : List Moment) :
    ((Server.new random maxSessions).run ms).1.Equipped := by
  induction ms using List.reverseRecOn with
  | nil =>
      refine ⟨fun hmodel => absurd hmodel Bool.false_ne_true, fun session hmem => ?_⟩
      obtain ⟨-, hslot⟩ := List.mem_replicate.mp (mem_sessions.mp hmem)
      cases hslot
  | append_singleton ms m ih =>
      rw [run_concat]
      exact equipped_step ih m

end Server

end SmartLock
