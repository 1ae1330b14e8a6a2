/-
# What a server writes

A server writes two messages in plain, each at one occasion only: the greeting when a central
subscribes, and the answer to a registration (`Server.SendsPlain`).  Everything else that it writes
is what AES-CCM makes of a message under the key of the session that it is written to.

`Server.Written` says so of the outputs of one moment, message after message.  It carries the ciphers
of all sessions along: a message is encrypted under the key and the nonce that its session has after
the messages before it, and moves this nonce.  `Server.written_step` is the theorem for a step.

A notification is not written at all when it is too long to be encrypted
(`Server.outputs_notify_of_lt`) or its session has no key (`Server.notifyOne_of_key_eq_none`).
-/
import Mathlib.Data.List.Nodup
import Mathlib.Logic.Function.Basic
import SmartLock.Proofs.Link.ShortMessages
import SmartLock.Proofs.Link.Written
import SmartLock.Proofs.Server.Numbers
import SmartLock.Proofs.Server.Outputs

namespace SmartLock

/-- Whether an output is a fragment that is offered to a link. -/
def ServerOutput.isWrite : ServerOutput → Bool
  | .write .. => true
  | _ => false

namespace Server

/-- The answer to a registration. -/
def registrationAnswer (station : Station) (key : PublicKey) : Bytes :=
  OpCode.response.code :: ItemCode.registration.code :: registrationBody station key

/-! ## Writes -/

/-- The link of a session as a writer, after some outputs. -/
def linkWriter (host : ServerHost) (outputs : List ServerOutput) (id : SessionId) :
    Fragment.Writer := fun taken fragment =>
  host.takes (outputs ++ taken.reverse.map (.write id · true)) id fragment

/-- How the outputs of one moment come about.  In between, messages are sent: `plain` says which of
them may go out in plain to which session, and with every encrypted one the cipher of its session
moves on from `start` to `now`. -/
inductive Written (host : ServerHost) (plain : SessionId → Bytes → Prop)
    (start : SessionId → Option Cipher) : (SessionId → Option Cipher) → List ServerOutput → Prop
  | nil : Written host plain start start []
  /-- Something that is not written. -/
  | other {now : SessionId → Option Cipher} {outputs : List ServerOutput}
      (h : Written host plain start now outputs) (output : ServerOutput)
      (houtput : output.isWrite = false) : Written host plain start now (outputs ++ [output])
  /-- A message in plain. -/
  | plain {now : SessionId → Option Cipher} {outputs : List ServerOutput}
      (h : Written host plain start now outputs) (id : SessionId) (message : Bytes)
      (hplain : plain id message) :
      Written host plain start now (outputs ++ Turn.writes id
        (Fragment.offer (linkWriter host outputs id) (Fragment.split false message)))
  /-- A message that is encrypted under the key of its session and the nonce that is next. -/
  | encrypted {now : SessionId → Option Cipher} {outputs : List ServerOutput}
      (h : Written host plain start now outputs) (id : SessionId) (cipher : Cipher) (key : Key)
      (message packet : Bytes) (hcipher : now id = some cipher) (hkey : cipher.key = some key)
      (hpacket : Ccm.encrypt? key cipher.sendNonce Cipher.associated message = some packet) :
      Written host plain start (Function.update now id (some cipher.advanceSend))
        (outputs ++ Turn.writes id
          (Fragment.offer (linkWriter host outputs id) (Fragment.split true packet)))

/-- Several things that are not written. -/
theorem Written.others {host : ServerHost} {plain : SessionId → Bytes → Prop}
    {start now : SessionId → Option Cipher} {outputs more : List ServerOutput}
    (h : Written host plain start now outputs) (hmore : ∀ output ∈ more, output.isWrite = false) :
    Written host plain start now (outputs ++ more) := by
  induction more generalizing outputs with
  | nil => rwa [List.append_nil]
  | cons output rest ih =>
      rw [List.append_cons]
      exact ih (h.other output (hmore output List.mem_cons_self)) fun later hlater =>
        hmore later (List.mem_cons_of_mem output hlater)

/-- What is offered of a packet, or of none, is a fragment of it. -/
theorem mem_of_mem_writes {id other : SessionId} {offer : Fragment.Offer} {fragment : Bytes}
    {taken : Bool} (h : .write other fragment taken ∈ Turn.writes id offer) :
    other = id ∧ (fragment ∈ offer.taken ∨ offer.refused = some fragment) := by
  rw [Turn.writes, List.mem_append, List.mem_map, List.mem_map] at h
  rcases h with ⟨found, hfound, heq⟩ | ⟨found, hfound, heq⟩
  · cases heq
    exact ⟨rfl, .inl hfound⟩
  · cases heq
    exact ⟨rfl, .inr (Option.mem_toList.mp hfound)⟩

/-- Each fragment of such writes is one of a message in plain, or of an encrypted packet. -/
theorem Written.of_mem {host : ServerHost} {plain : SessionId → Bytes → Prop}
    {start now : SessionId → Option Cipher} {outputs : List ServerOutput}
    (h : Written host plain start now outputs) {id : SessionId} {fragment : Bytes} {taken : Bool}
    (hmem : .write id fragment taken ∈ outputs) :
    (∃ message, plain id message ∧ fragment ∈ Fragment.split false message) ∨
      ∃ packet, fragment ∈ Fragment.split true packet := by
  induction h with
  | nil => cases hmem
  | other _ output houtput ih =>
      rcases List.mem_append.mp hmem with hmem | hmem
      · exact ih hmem
      · rw [← List.mem_singleton.mp hmem] at houtput
        cases houtput
  | plain _ other message hplain ih =>
      rcases List.mem_append.mp hmem with hmem | hmem
      · exact ih hmem
      · obtain ⟨rfl, hfragment⟩ := mem_of_mem_writes hmem
        exact .inl ⟨message, hplain, Fragment.mem_of_mem_offer hfragment⟩
  | encrypted _ other cipher key message packet _ _ _ ih =>
      rcases List.mem_append.mp hmem with hmem | hmem
      · exact ih hmem
      · obtain ⟨-, hfragment⟩ := mem_of_mem_writes hmem
        exact .inr ⟨packet, Fragment.mem_of_mem_offer hfragment⟩

/-! ## Messages -/

/-- The outputs of a turn have come about so, and of the ciphers only that of its session has
moved. -/
def Orderly (host : ServerHost) (plain : SessionId → Bytes → Prop)
    (start now : SessionId → Option Cipher) (t : Turn) : Prop :=
  Written host plain start (Function.update now t.session.id (some t.session.channel.cipher))
    t.outputs

section Messages

variable {host : ServerHost} {plain : SessionId → Bytes → Prop}
  {start now : SessionId → Option Cipher} {t : Turn}

/-- When nothing has been sent to a session, its cipher has not moved. -/
theorem orderly_of_eq (h : Written host plain start now t.outputs)
    (hcipher : now t.session.id = some t.session.channel.cipher) :
    Orderly host plain start now t := by
  rw [Orderly, ← hcipher, Function.update_eq_self]
  exact h

/-- A message in plain that may be sent. -/
theorem written_notify_plain (h : Written host plain start now t.outputs) {op : OpCode}
    {item : ItemCode} {body : Bytes} (hplain : plain t.session.id (op.code :: item.code :: body)) :
    Written host plain start now (t.notify host op item body false).outputs :=
  h.plain t.session.id (op.code :: item.code :: body) hplain

/-- An encrypted message moves the cipher of its session; without a key it is not sent. -/
theorem Orderly.notify (h : Orderly host plain start now t) (op : OpCode) (item : ItemCode)
    {body : Bytes} (hlength : body.length + 2 ≤ Ccm.maxLength) :
    Orderly host plain start now (t.notify host op item body true) := by
  rw [Orderly] at h ⊢
  cases hkey : t.session.channel.cipher.key with
  | none =>
      simpa [Turn.notify, Channel.send_of_key_eq_none hkey, Turn.writes] using h
  | some key =>
      have hmessage : (op.code :: item.code :: body).length ≤ Ccm.maxLength := hlength
      obtain ⟨packet, hpacket⟩ := Cipher.exists_encrypt? key
        t.session.channel.cipher.sendNonce Cipher.associated hmessage
      have hnext := h.encrypted t.session.id _ key (op.code :: item.code :: body) packet
        (Function.update_self ..) hkey hpacket
      rw [Function.update_idem] at hnext
      rw [Turn.notify]
      dsimp only
      rw [Channel.cipher_send hkey, if_pos rfl, Channel.offer_send_encrypted hkey, hpacket]
      exact hnext

/-- An encrypted message of any length leaves the ciphers of the other sessions as they are; when it
is too long, it is not written. -/
theorem written_notify (h : Written host plain start now t.outputs)
    (hcipher : now t.session.id = some t.session.channel.cipher) (op : OpCode) (item : ItemCode)
    (body : Bytes) :
    ∃ last, Written host plain start last (t.notify host op item body true).outputs ∧
      ∀ other ≠ t.session.id, last other = now other := by
  by_cases hlength : body.length + 2 ≤ Ccm.maxLength
  · exact ⟨_, (orderly_of_eq h hcipher).notify op item hlength,
      fun other hother => Function.update_of_ne hother ..⟩
  · rw [outputs_notify_of_lt host t op item (Nat.lt_of_not_le hlength)]
    exact ⟨now, h, fun _ _ => rfl⟩

/-- A registration is answered in plain. -/
theorem written_onRegistration (h : Written host plain start now t.outputs) (payload : Bytes)
    (hanswer : ∀ key, t.station.registered = false → host.registers = true →
      t.station.publicKey = .ok key → plain t.session.id (registrationAnswer t.station key)) :
    Written host plain start now (onRegistration host t payload).outputs := by
  simp only [onRegistration]
  split
  · exact h
  split
  · exact h
  split
  · exact h
  split
  · exact h
  · exact h
  · rename_i hregistered hwelcome _ _ secret key hsecret hkey
    -- The answer tells what the server has been told before; the new secret is not part of it.
    let keyed : Turn :=
      { t with
        station := { t.station with secret := secret }
        session := t.session.withSecret secret }
    have hsent : Written host plain start now (keyed.notify host .response .registration
        (registrationBody keyed.station key) false).outputs :=
      written_notify_plain (t := keyed) h
        (hanswer key (by simpa using hregistered) (by simpa using hwelcome) hkey)
    rcases result_notify host keyed .response .registration (registrationBody keyed.station key)
      false with hok | ⟨error, herror⟩
    · rw [andThen_of_ok hok]
      exact hsent.other _ rfl
    · rw [andThen_of_error herror]
      exact hsent

/-- A login is answered under the key of the session, and so are the reports that follow. -/
theorem written_onLogin (h : Orderly host plain start now t) (payload : Bytes) :
    ∃ last, Written host plain start last (onLogin host t payload).outputs := by
  simp only [onLogin]
  split
  · exact ⟨_, h⟩
  split
  · exact ⟨_, h⟩
  split
  · exact ⟨_, Written.other h _ rfl⟩
  · have hanswered := h.notify .response .login (length_loginBody_le t.station)
    rcases result_notify host t .response .login (loginBody t.station) true with
      hok | ⟨error, herror⟩
    · rw [andThen_of_ok hok]
      have hrunning : Orderly host plain start now
          ((t.notify host .response .login (loginBody t.station) true).setState .running) := by
        simpa only [Orderly, Turn.setState, Session.id_setState, Session.channel_setState]
          using hanswered
      have hstatus : t.station.mechStatus.toBytes.length + 2 ≤ Ccm.maxLength := by
        rw [t.station.mechStatus.length_toBytes]
        decide
      have hsetting : t.station.mechSetting.toBytes.length + 2 ≤ Ccm.maxLength := by
        rw [t.station.mechSetting.length_toBytes]
        decide
      exact ⟨_, (hrunning.notify .publish .mechStatus hstatus).notify
        .publish .mechSetting hsetting⟩
    · rw [andThen_of_error herror]
      exact ⟨_, hanswered⟩

/-- A command is answered under the key of the session. -/
theorem written_onCommand (h : Orderly host plain start now t) (item : ItemCode) (payload : Bytes) :
    ∃ last, Written host plain start last (onCommand host t item payload).outputs := by
  unfold onCommand
  split
  · exact ⟨_, h⟩
  split
  · exact ⟨_, h⟩
  split
  · exact ⟨_, h⟩
  dsimp only
  split
  · have htold (tag : String) (trigger : Option TriggerType) : Orderly host plain start now
        { t with outputs := t.outputs ++ [.command t.session.id item tag trigger] } :=
      Written.other h _ rfl
    exact ⟨_, (htold ..).notify .response item (by decide : 3 ≤ 65535)⟩
  · exact ⟨_, h.notify .response item (by decide : 3 ≤ 65535)⟩

/-- What is written in answer to a whole message. -/
theorem written_onMessage (h : Orderly host plain start now t) {message : Bytes}
    (hanswer : ∀ payload key, message = ItemCode.registration.code :: payload →
      t.station.registered = false → host.registers = true → t.station.publicKey = .ok key →
        plain t.session.id (registrationAnswer t.station key)) :
    ∃ last, Written host plain start last (onMessage host t message).outputs := by
  cases message with
  | nil => exact ⟨_, h⟩
  | cons code payload =>
      rw [onMessage]
      split
      · rename_i hcode
        have hitem := ItemCode.ofCode?_eq_some_iff.mp hcode
        exact ⟨_, written_onRegistration h payload fun key => hanswer payload key (by rw [hitem])⟩
      · exact written_onLogin h payload
      · exact written_onCommand h .lock payload
      · exact written_onCommand h .unlock payload
      · exact written_onCommand h .doorOpen payload
      · exact written_onCommand h .doorClosed payload
      · exact ⟨_, h⟩

end Messages

/-- What is written in answer to a fragment. -/
theorem written_onFragment {host : ServerHost} {plain : SessionId → Bytes → Prop}
    {start : SessionId → Option Cipher} {station : Station} {session : Session} {fragment : Bytes}
    (hcipher : start session.id = some (session.channel.receive fragment).1.cipher)
    (hanswer : ∀ payload authenticated key,
      (session.channel.receive fragment).2 =
          .complete (ItemCode.registration.code :: payload) authenticated →
        station.registered = false → host.registers = true → station.publicKey = .ok key →
          plain session.id (registrationAnswer station key)) :
    ∃ last, Written host plain start last (onFragment host station session fragment).outputs := by
  rcases onFragment_cases host station session fragment with
    ⟨message, authenticated, hreceived, heq⟩ | ⟨-, heq⟩ | ⟨-, heq⟩
  · rw [heq]
    refine written_onMessage (orderly_of_eq .nil hcipher) ?_
    rintro payload key rfl
    exact hanswer payload authenticated key hreceived
  · rw [heq]
    exact ⟨_, Written.nil.other _ rfl⟩
  · rw [heq]
    exact ⟨_, .nil⟩

/-! ## Greetings and notifications -/

/-- A greeting is written in plain. -/
theorem written_greet {host : ServerHost} {plain : SessionId → Bytes → Prop}
    {start : SessionId → Option Cipher} (station : Station) {session : Session}
    (hplain : plain session.id (greeting session.nonce)) :
    Written host plain start start (greet host station session).outputs := by
  have hsent : Written host plain start start
      (Turn.notify host { station := station, session := session }
        .publish .initial session.nonce.toBytes false).outputs :=
    written_notify_plain (t := { station := station, session := session }) .nil hplain
  rw [greet, Turn.andThen]
  split
  · dsimp only
    split <;> exact hsent
  · exact hsent

/-- A notification of all sessions is encrypted for each of them with its own cipher. -/
theorem written_notifySlots {host : ServerHost} {plain : SessionId → Bytes → Prop}
    {start now : SessionId → Option Cipher} (station : Station) (n : Notice)
    {outputs : List ServerOutput} {slots : List (Option Session)}
    (hnodup : (ids ⟨station, slots⟩).Nodup)
    (hciphers : ∀ session, some session ∈ slots → now session.id = some session.channel.cipher)
    (hwritten : Written host plain start now outputs) :
    ∃ last, Written host plain start last (notifySlots host station n outputs slots).2.1 := by
  induction slots generalizing outputs now with
  | nil => exact ⟨_, hwritten⟩
  | cons slot rest ih =>
      have hrest := fun session hmem => hciphers session (List.mem_cons_of_mem slot hmem)
      cases slot with
      | none => exact ih hnodup hrest hwritten
      | some session =>
          rw [ids_some_cons, List.nodup_cons] at hnodup
          rw [notifySlots]
          split
          · obtain ⟨last, hsent, hothers⟩ := written_notify
              (t := { station := station, session := session, outputs := outputs }) hwritten
              (hciphers session List.mem_cons_self) n.op n.item n.body
            refine ih hnodup.2 (fun other hother => ?_) hsent
            rw [hothers, hrest other hother]
            intro heq
            exact hnodup.1 (heq ▸ List.mem_map_of_mem (mem_sessions.mpr hother))
          · exact ih hnodup.2 hrest hwritten

/-- A notification for a session without a key fails, and nothing is written. -/
theorem notifyOne_of_key_eq_none (host : ServerHost) {s : Server} {id : SessionId}
    {session : Session} (hsession : s.session? id = some session)
    (hkey : session.channel.cipher.key = none) (n : Notice) :
    (s.notifyOne host id n).outputs = [] ∧
      (s.notifyOne host id n).result = .error (.link (.crypto .keyNotPrepared)) := by
  rw [notifyOne, hsession]
  dsimp only
  rw [Turn.notify]
  dsimp only
  rw [Channel.send_of_key_eq_none hkey]
  exact ⟨rfl, rfl⟩

/-! ## Steps -/

/-- The messages that a server may send in plain at one moment, and to which session. -/
inductive SendsPlain (s : Server) (m : Moment) : SessionId → Bytes → Prop
  /-- The greeting, for a central that subscribes. -/
  | greeting (id : SessionId) (now : UInt32) (hrequest : m.request = .subscribed id now)
      (hnew : s.hasSession id = false) :
      SendsPlain s m id (SmartLock.greeting (s.station.random.draw 4).1)
  /-- The answer to a registration, as long as nobody is registered. -/
  | registration (id : SessionId) (fragment payload : Bytes) (session : Session)
      (authenticated : Bool) (key : PublicKey) (hrequest : m.request = .receive id fragment)
      (hsession : s.session? id = some session)
      (hreceived : (session.channel.receive fragment).2 =
        .complete (ItemCode.registration.code :: payload) authenticated)
      (hnew : s.station.registered = false) (hwelcome : m.host.registers = true)
      (hkey : s.station.publicKey = .ok key) :
      SendsPlain s m id (registrationAnswer s.station key)

/-- The cipher of a session before anything is sent to it at this moment: if a fragment comes from
its central, it has been taken in. -/
def cipher? (s : Server) (m : Moment) (id : SessionId) : Option Cipher :=
  (s.session? id).map fun session =>
    match m.request with
    | .receive other fragment =>
        if other = id then (session.channel.receive fragment).1.cipher else session.channel.cipher
    | _ => session.channel.cipher

/-- Every session is found by its number. -/
theorem session?_of_mem {s : Server} (hnodup : s.ids.Nodup) {session : Session}
    (h : session ∈ s.sessions) : s.session? session.id = some session := by
  obtain ⟨found, hfound⟩ := Option.ne_none_iff_exists'.mp fun hnone =>
    session?_eq_none_iff.mp hnone (List.mem_map_of_mem h)
  obtain ⟨hmem, hid⟩ := mem_of_session? hfound
  rw [hfound, List.inj_on_of_nodup_map hnodup hmem h hid]

/-- **What a server writes.**  Whatever a server is asked to do, it writes greetings and answers to
registrations in plain, and everything else is encrypted for a session with the cipher of this
session. -/
theorem written_step {s : Server} (hnodup : s.ids.Nodup) (m : Moment) :
    ∃ last, Written m.host (s.SendsPlain m) (s.cipher? m) last
      (s.step m.host m.request).outputs := by
  obtain ⟨host, request⟩ := m
  cases request with
  | receive id fragment =>
      cases hsession : s.session? id with
      | none =>
          rw [step, receive, hsession]
          exact ⟨_, .nil⟩
      | some session =>
          obtain ⟨-, rfl⟩ := mem_of_session? hsession
          rw [receive_of_session? hsession]
          refine written_onFragment ?_ ?_
          · simp [cipher?, hsession]
          · intro payload authenticated key hreceived hnew hwelcome hkey
            exact .registration session.id fragment payload session authenticated key rfl hsession
              hreceived hnew hwelcome hkey
  | subscribed id now =>
      rcases subscribed_cases host s id now with ⟨error, -, hstep⟩ | ⟨-, hunused, -, hstep⟩
      · rw [hstep]
        exact ⟨_, .nil⟩
      · rw [hstep]
        exact ⟨_, written_greet _ (.greeting id now rfl hunused)⟩
  | notify id notice =>
      cases id with
      | none =>
          refine written_notifySlots s.station notice hnodup (fun session hmem => ?_) .nil
          rw [cipher?, session?_of_mem hnodup (mem_sessions.mpr hmem), Option.map_some]
      | some id =>
          rw [step, notifyOne]
          cases hsession : s.session? id with
          | none => exact ⟨_, .nil⟩
          | some session =>
              obtain ⟨-, rfl⟩ := mem_of_session? hsession
              have hcipher : s.cipher? ⟨host, .notify (some session.id) notice⟩ session.id =
                  some session.channel.cipher := by rw [cipher?, hsession, Option.map_some]
              obtain ⟨last, hsent, -⟩ := written_notify
                (t := { station := s.station, session := session }) .nil hcipher
                notice.op notice.item notice.body
              exact ⟨last, hsent⟩
  | update now =>
      refine ⟨_, Written.nil.others fun output hmem => ?_⟩
      obtain ⟨session, -, hcheck⟩ := List.mem_flatMap.mp hmem
      unfold checkTime at hcheck
      split at hcheck
      · rw [List.mem_singleton.mp hcheck]
        rfl
      · cases hcheck
  | loadKey key =>
      rw [step]
      split <;> exact ⟨_, .nil⟩
  | _ => exact ⟨_, .nil⟩

end Server

end SmartLock
