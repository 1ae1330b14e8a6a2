/-
# What a server does with a central's messages

A message begins with its item.  A registration makes the sender the owner of the server, a
login proves knowledge of the secret, and a command is carried out for a session that runs.
Everything else is ignored.  An encrypted message with a wrong tag drops the session.
-/
import SmartLock.Server.State
import SmartLock.Tag

namespace SmartLock.Server

/-! ## Turns -/

/-- What one message may change: the shared part and its own session. -/
structure Turn where
  station : Station
  session : Session
  outputs : List ServerOutput := []
  result : Except ServerError Unit := .ok ()

namespace Turn

/-- The turn with a failure as its result. -/
def fail (t : Turn) (error : ServerError) : Turn := { t with result := .error error }

/-- The writes of an offer. -/
def writes (id : SessionId) (offer : Fragment.Offer) : List ServerOutput :=
  offer.taken.map (.write id · true) ++ offer.refused.toList.map (.write id · false)

/-- Sends a message of a server: its operation, its item and its body. -/
def notify (host : ServerHost) (t : Turn) (op : OpCode) (item : ItemCode) (body : Bytes)
    (encrypted : Bool) : Turn :=
  let id := t.session.id
  let writer : Fragment.Writer := fun taken fragment =>
    host.takes (t.outputs ++ taken.reverse.map (.write id · true)) id fragment
  let sent := t.session.channel.send writer (op.code :: item.code :: body) encrypted
  { station := t.station
    session := { t.session with channel := sent.channel }
    outputs := t.outputs ++ writes id sent.offer
    result := sent.result.mapError .link }

/-- Goes on only if nothing has failed. -/
def andThen (t : Turn) (next : Turn → Turn) : Turn :=
  match t.result with
  | .ok () => next t
  | .error _ => t

/-- Moves the session to a state. -/
def setState (t : Turn) (state : SessionState) : Turn :=
  { t with session := t.session.setState state t.station.now }

/-- Closes the link of the session and drops it. -/
def drop (t : Turn) : Turn :=
  { t with
    session := t.session.drop t.station.now
    outputs := t.outputs ++ [.disconnect t.session.id] }

end Turn

/-! ## Registration -/

/-- The number of bytes of a registration: a public key and a time. -/
def registrationSize : Nat := 68

/-- The body of the answer to a registration: the result, the status, the setting and the
server's public key. -/
def registrationBody (station : Station) (key : PublicKey) : Bytes :=
  ResultCode.success.code :: station.mechStatus.toBytes ++ station.mechSetting.toBytes ++
    key.toBytes

/-- The registration of a new owner.  The secret follows from the owner's public key; the answer
is sent in plain, and only when it has been taken is the server registered. -/
def onRegistration (host : ServerHost) (t : Turn) (payload : Bytes) : Turn :=
  if payload.length ≠ registrationSize then t.fail (.payloadLength .registration payload.length)
  else if t.station.registered then t.fail .alreadyRegistered
  else if !host.registers then t.fail .noRegistrationCallback
  else
    match t.station.deriveSecret (Octets.ofBytes 64 payload), t.station.publicKey with
    | .error error, _ => t.fail (.crypto error)
    | _, .error error => t.fail (.crypto error)
    | .ok secret, .ok key =>
        let keyed : Turn :=
          { t with
            station := { t.station with secret := secret }
            session := t.session.withSecret secret }
        let body := registrationBody keyed.station key
        (keyed.notify host .response .registration body false).andThen fun t =>
          let registered : Turn := { t with station := { t.station with registered := true } }
          let running := registered.setState .running
          { running with outputs := running.outputs ++ [.registered t.session.id secret] }

/-! ## Login -/

/-- The body of the answer to a login: the result and the time. -/
def loginBody (station : Station) : Bytes :=
  ResultCode.success.code :: writeUInt32 station.currentTime

/-- The login of a central.  A wrong code drops the session.  After the answer the session runs,
and the central is told the status and the setting, whether or not it takes them. -/
def onLogin (host : ServerHost) (t : Turn) (payload : Bytes) : Turn :=
  if payload.length ≠ Cipher.codeSize then t.fail (.payloadLength .login payload.length)
  else if !t.session.channel.cipher.hasKey then t.fail .keyNotShared
  else if !t.session.channel.cipher.verifyCode payload then t.drop.fail .authenticationFailed
  else
    (t.notify host .response .login (loginBody t.station) true).andThen fun t =>
      let running := t.setState .running
      let told := running.notify host .publish .mechStatus t.station.mechStatus.toBytes true
      let told := told.notify host .publish .mechSetting t.station.mechSetting.toBytes true
      { told with result := .ok () }

/-! ## Commands -/

/-- The tag and the trigger of a command with a non-empty payload. -/
def readTag (size : Nat) (payload : Bytes) : String × Option TriggerType :=
  if 0 < size then (Utf8.decodeLossy ((payload.drop 1).take size), none)
  else
    match Tag.parseTrigger? payload with
    | some (trigger, id) => (id, trigger)
    | none => ("", none)

/-- A command of a central.  The session must run; the answer is the result of the command. -/
def onCommand (host : ServerHost) (t : Turn) (item : ItemCode) (payload : Bytes) : Turn :=
  if t.session.state ≠ .running then t.fail (.notRunning t.session.id)
  else
    match payload with
    | [] => t.fail (.payloadLength item 0)
    | size :: _ =>
        if payload.length < size.toNat + 1 then t.fail (.payloadLength item payload.length)
        else
          let (tag, trigger) := readTag size.toNat payload
          match host.handler with
          | some handler =>
              let result := handler t.session.id item tag trigger
              let told : Turn :=
                { t with outputs := t.outputs ++ [.command t.session.id item tag trigger] }
              told.notify host .response item [result.code] true
          | none => t.notify host .response item [ResultCode.notSupported.code] true

/-! ## Fragments -/

/-- A whole message of a central. -/
def onMessage (host : ServerHost) (t : Turn) : Bytes → Turn
  | [] => t
  | code :: payload =>
      match ItemCode.ofCode? code with
      | some .registration => onRegistration host t payload
      | some .login => onLogin host t payload
      | some .lock => onCommand host t .lock payload
      | some .unlock => onCommand host t .unlock payload
      | some .doorOpen => onCommand host t .doorOpen payload
      | some .doorClosed => onCommand host t .doorClosed payload
      | _ => t

/-- A fragment from a central, as its session takes it. -/
def onFragment (host : ServerHost) (station : Station) (session : Session) (fragment : Bytes) :
    Turn :=
  let (channel, received) := session.channel.receive fragment
  let t : Turn := { station := station, session := { session with channel := channel } }
  match received with
  | .complete message _ => onMessage host t message
  | .skipping true => t.drop.fail .authenticationFailed
  | _ => t

/-- A fragment from the central with a given number. -/
def receive (host : ServerHost) (s : Server) (id : SessionId) (fragment : Bytes) : Outcome :=
  match s.session? id with
  | none => ⟨s, [], .error (.unknownSession id)⟩
  | some session =>
      let t := onFragment host s.station session fragment
      ⟨⟨t.station, replaceIn s.slots t.session⟩, t.outputs, t.result⟩

end SmartLock.Server
