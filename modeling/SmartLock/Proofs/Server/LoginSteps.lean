/-
# How a server lets a central log in

The two steps of a login on the side of a registered server whose links take everything: a central
subscribes and is told the token of its session (`Server.subscribed_eq`), and a login with the right
code is answered with three encrypted messages, the acceptance, the status and the setting
(`Server.onLogin_eq`).
-/
import SmartLock.Proofs.Link.ShortMessages
import SmartLock.Proofs.Server.Table

namespace SmartLock.Server

/-! ## Sending -/

namespace Turn

/-- The turn after some messages, all of which the link has taken. -/
def telling (t : Turn) (ms : List Message) : Turn :=
  { t with
    session := { t.session with
      channel := { t.session.channel with cipher := t.session.channel.cipher.afterAll ms } }
    outputs := t.outputs ++ (t.session.channel.cipher.fragments ms).map (.write t.session.id · true)
    result := .ok () }

/-- Messages do not change what the sessions share. -/
@[simp] theorem station_telling (t : Turn) (ms : List Message) :
    (t.telling ms).station = t.station := rfl

/-- One more message comes last. -/
theorem telling_concat (t : Turn) (ms : List Message) (m : Message) :
    (t.telling ms).telling [m] = t.telling (ms ++ [m]) := by
  simp [telling, Cipher.afterAll, Cipher.fragments, Cipher.afterAll_concat,
    Cipher.fragments_concat]

/-- It does not matter whether the state changes before the messages or after them. -/
theorem setState_telling (t : Turn) (ms : List Message) (state : SessionState) :
    (t.telling ms).setState state = (t.setState state).telling ms := by
  by_cases h : t.session.state = state <;> simp [telling, setState, Session.setState, h]

end Turn

section Notify

variable {host : ServerHost} (htakes : ∀ outputs id fragment, host.takes outputs id fragment = true)
  {t : Turn} {op : OpCode} {item : ItemCode} {body : Bytes}

include htakes

/-- In plain a message goes out as it is. -/
theorem notify_plain :
    t.notify host op item body false =
      { t with
        outputs := t.outputs ++ (Fragment.split false (op.code :: item.code :: body)).map
          (.write t.session.id · true)
        result := .ok () } := by
  rw [Turn.notify, Channel.send_plain_of_takesAll _ _ fun _ _ => htakes _ _ _]
  simp [Turn.writes, Except.mapError]

/-- An encrypted message goes out in its fragments. -/
theorem notify_encrypted {key : Key} (hkey : t.session.channel.cipher.key = some key)
    (h : (⟨op.code :: item.code :: body, true⟩ : Message).Sendable) :
    t.notify host op item body true = t.telling [⟨op.code :: item.code :: body, true⟩] := by
  simp only [Turn.notify]
  rw [Channel.send_of_takesAll hkey h (fun _ _ => htakes _ _ _)]
  simp [Turn.writes, Turn.telling, Cipher.afterAll, Cipher.fragments, Except.mapError]

end Notify

/-! ## The login -/

/-- The message by which an accepted login is answered. -/
def acceptance (station : Station) : Message :=
  ⟨OpCode.response.code :: ItemCode.login.code :: loginBody station, true⟩

/-- The message that tells the status. -/
def statusReport (station : Station) : Message :=
  ⟨OpCode.publish.code :: ItemCode.mechStatus.code :: station.mechStatus.toBytes, true⟩

/-- The message that tells the setting. -/
def settingReport (station : Station) : Message :=
  ⟨OpCode.publish.code :: ItemCode.mechSetting.code :: station.mechSetting.toBytes, true⟩

/-- The messages by which a login is answered. -/
def loginMessages (station : Station) : List Message :=
  [acceptance station, statusReport station, settingReport station]

/-- They are short. -/
theorem isShort_of_mem_loginMessages (station : Station) :
    ∀ m ∈ loginMessages station, m.IsShort := by
  have hlen (m : Message) (h : m ∈ loginMessages station) :
      m.encrypted = true ∧ m.body.length ≤ 9 := by
    simp only [loginMessages, List.mem_cons, List.not_mem_nil, or_false] at h
    rcases h with rfl | rfl | rfl <;> refine ⟨rfl, ?_⟩
    · simp [acceptance, loginBody]
    · simp [statusReport]
    · simp [settingReport]
  intro m hm
  obtain ⟨hencrypted, hbody⟩ := hlen m hm
  constructor
  · rw [Message.Sendable, if_pos hencrypted]
    exact Nat.le_trans hbody (by decide)
  · rw [Message.wireLength, if_pos hencrypted]
    exact Nat.le_trans (Nat.add_le_add_right hbody _) (by decide)

section Login

variable {host : ServerHost} (htakes : ∀ outputs id fragment, host.takes outputs id fragment = true)

include htakes

/-- The session of a registered server is told its token, and waits for the login under the key for
this token. -/
theorem greet_eq {station : Station} (hregistered : station.registered = true) {id : SessionId}
    {token : Token} :
    greet host station (Session.new id token) =
      { station := station
        session := ((Session.new id token).withSecret station.secret).setState .waitingLogin
          station.now
        outputs := [.write id (Fragment.whole false (greeting token)) true]
        result := .ok () } := by
  have hsplit : Fragment.split false (greeting token) = [Fragment.whole false (greeting token)] :=
    Fragment.split_of_length_le false (List.cons_ne_nil _ _) (length_greeting_le token)
  rw [greet]
  dsimp only
  rw [show (Session.new id token).nonce = token from rfl, notify_plain htakes, ← greeting, hsplit,
    andThen_of_ok rfl]
  simp only [hregistered, if_true]
  rfl

/-- A central that subscribes to a registered server with a free slot is told the token of its
session, which then waits for the login under the key for this token. -/
theorem subscribed_eq {s : Server} {id : SessionId}
    (hstarted : s.station.model.isSome = true) (hregistered : s.station.registered = true)
    (hunused : s.hasSession id = false) (hfree : s.slots.all Option.isSome = false)
    (now : UInt32) :
    let token := (s.station.random.draw 4).1
    let session := ((Session.new id token).withSecret s.station.secret).setState .waitingLogin now
    s.subscribed host id now =
      ⟨⟨{ s.station with now := now, random := (s.station.random.draw 4).2 },
          placeIn s.slots session⟩,
        [.write id (Fragment.whole false (greeting token)) true], .ok ()⟩ := by
  intro token session
  have hnone : ¬ s.station.model.isNone = true := by
    rw [Option.isNone_iff_eq_none]
    exact Option.isSome_iff_ne_none.mp hstarted
  have hstart : s.subscribed host id now =
      let t := greet host { s.station with now := now, random := (s.station.random.draw 4).2 }
        (Session.new id token)
      ⟨⟨t.station, placeIn s.slots t.session⟩, t.outputs, t.result⟩ := by
    rw [subscribed, modifyStation]
    dsimp only
    rw [if_neg hnone, if_neg (by rw [Bool.not_eq_true]; exact hunused),
      if_neg (by rw [Bool.not_eq_true]; exact hfree)]
  rw [hstart, greet_eq htakes]
  exact hregistered

/-- A login with the right code is answered, and the session runs. -/
theorem onLogin_eq {t : Turn} {key : Key} (hkey : t.session.channel.cipher.key = some key) :
    onLogin host t (key.toBytes.take Cipher.codeSize) =
      (t.setState .running).telling (loginMessages t.station) := by
  have hlength : (key.toBytes.take Cipher.codeSize).length = Cipher.codeSize := by
    rw [List.length_take, key.length_toBytes]
    decide
  have hhas : t.session.channel.cipher.hasKey = true := by
    rw [Cipher.hasKey, hkey]
    rfl
  have hcode : t.session.channel.cipher.verifyCode (key.toBytes.take Cipher.codeSize) = true := by
    rw [Cipher.verifyCode, hkey]
    exact decide_eq_true rfl
  -- The key is still there after whatever has been told.
  have hnotify (ms : List Message) (op : OpCode) (item : ItemCode) (body : Bytes)
      (h : ⟨op.code :: item.code :: body, true⟩ ∈ loginMessages t.station) :
      ((t.setState .running).telling ms).notify host op item body true =
        (t.setState .running).telling (ms ++ [⟨op.code :: item.code :: body, true⟩]) := by
    have hkept : ((t.setState .running).telling ms).session.channel.cipher.key = some key := by
      simp only [Turn.telling, Turn.setState, Session.channel_setState, Cipher.key_afterAll, hkey]
    rw [notify_encrypted htakes hkept (isShort_of_mem_loginMessages t.station _ h).sendable,
      Turn.telling_concat]
  have hanswer : t.notify host .response .login (loginBody t.station) true =
      t.telling [acceptance t.station] := by
    apply notify_encrypted htakes hkey
    exact (isShort_of_mem_loginMessages t.station _ List.mem_cons_self).sendable
  rw [onLogin, if_neg (not_not_intro hlength), if_neg (by simp [hhas]), if_neg (by simp [hcode]),
    hanswer, andThen_of_ok rfl]
  dsimp only
  rw [Turn.setState_telling, Turn.station_telling,
    hnotify _ .publish .mechStatus _ (by simp [loginMessages, statusReport]),
    hnotify _ .publish .mechSetting _ (by simp [loginMessages, settingReport])]
  rfl

/-- The right login, in a single fragment, is answered. -/
theorem onFragment_eq (station : Station) {session : Session} {key : Key}
    (hkey : session.channel.cipher.key = some key) :
    onFragment host station session (Fragment.whole false (loginRequest key)) =
      Turn.telling
        { station := station
          session := Session.setState
            { session with channel :=
              { session.channel with reassembly := .skipping (loginRequest key) } }
            .running station.now }
        (loginMessages station) := by
  have hreceive := session.channel.receive_loginRequest key
  rw [onFragment_login (congrArg Prod.snd hreceive), hreceive, onLogin_eq htakes hkey]
  rfl

/-- When the right login comes, in a single fragment, the session runs and its central is told the
acceptance, the status and the setting. -/
theorem receive_login {s : Server} {id : SessionId} {session : Session} {key : Key}
    (hsession : s.session? id = some session) (hkey : session.channel.cipher.key = some key) :
    let told := session.channel.cipher
    let o := s.step host (.receive id (Fragment.whole false (loginRequest key)))
    (∃ running, o.server.session? id = some running ∧ running.state = .running ∧
      running.channel.cipher = told.afterAll (loginMessages s.station)) ∧
    o.outputs = (told.fragments (loginMessages s.station)).map (.write id · true) := by
  intro told o
  obtain ⟨-, rfl⟩ := mem_of_session? hsession
  have ho : o = _ := receive_of_session? hsession host _
  rw [onFragment_eq htakes s.station hkey] at ho
  dsimp only [Turn.telling] at ho
  rw [ho]
  simp only [Session.id_setState, Session.channel_setState, List.nil_append]
  exact ⟨⟨_, session?_replaceIn s.station hsession, Session.state_setState .., rfl⟩, rfl⟩

end Login

end SmartLock.Server
