/-
# What a server can be asked to do

Every operation of a server, as functions and as one type of requests with a step function.
-/
import SmartLock.Server.Messages

namespace SmartLock.Server

/-! ## Setting up -/

/-- A new server with a number of slots and its source of random numbers. -/
def new (random : RandomSource) (maxSessions : Nat) : Server :=
  ⟨{ random := random }, List.replicate maxSessions none⟩

/-- The server with a change of its shared part. -/
def modifyStation (s : Server) (f : Station → Station) : Server := { s with station := f s.station }

/-- The shared part with a new key pair. -/
def generateKeys (station : Station) : Station :=
  let (key, random) := PrivateKey.generate station.random
  { station with keys := some key, random := random }

/-- The start of the work as a device of a given model and identifier; a key pair is made if
there is none. -/
def begin (s : Server) (model : Model) (uuid : Uuid) : Server :=
  s.modifyStation fun station =>
    let named := { station with model := some model, uuid := uuid }
    if named.keys.isSome then named else generateKeys named

/-- The server with a key pair of its own; one that is out of range changes nothing. -/
def loadKey (s : Server) (key : Octets 32) : Except ServerError Server :=
  match PrivateKey.ofBytes? key with
  | none => .error (.crypto .invalidPrivateKey)
  | some k => .ok (s.modifyStation fun station => { station with keys := some k })

/-- The key pair of a server. -/
def exportKeys (s : Server) : Except ServerError (PublicKey × Octets 32) :=
  match s.station.keys with
  | none => .error (.crypto .noKeypair)
  | some k => .ok (k.publicKey, k.toOctets)

/-- The server as it is after a registration with a given secret. -/
def setRegistered (s : Server) (secret : Key) : Server :=
  s.modifyStation fun station => { station with secret := secret, registered := true }

/-- The server with its clock set: at `now` milliseconds it is `seconds` since the start of
1970. -/
def setCurrentTime (s : Server) (seconds now : UInt32) : Server :=
  s.modifyStation fun station => { station with now := now, clock := some (seconds, now) }

/-- What the server broadcasts. -/
def broadcast (s : Server) : Except ServerError Broadcast :=
  match s.station.model with
  | none => .error .notStarted
  | some model => .ok (Advertisement.build model s.station.registered s.station.uuid)

/-! ## Subscriptions -/

/-- The start of a session: the nonce is told in plain; when it has been taken, the session has
its key, if the server is registered, and waits for a login. -/
def greet (host : ServerHost) (station : Station) (session : Session) : Turn :=
  let t : Turn := { station := station, session := session }
  (t.notify host .publish .initial session.nonce.toBytes false).andThen fun t =>
    let keyed :=
      if t.station.registered then { t with session := t.session.withSecret t.station.secret }
      else t
    keyed.setState .waitingLogin

/-- A central has subscribed: it gets a session in the first free slot, even if its link does not
take the nonce. -/
def subscribed (host : ServerHost) (s : Server) (id : SessionId) (now : UInt32) : Outcome :=
  let s := s.modifyStation fun station => { station with now := now }
  if s.station.model.isNone then ⟨s, [], .error .notStarted⟩
  else if s.hasSession id then ⟨s, [], .error (.duplicateSession id)⟩
  else if s.slots.all Option.isSome then ⟨s, [], .error .tableFull⟩
  else
    let (nonce, random) := s.station.random.draw 4
    let t := greet host { s.station with random := random } (Session.new id nonce)
    ⟨⟨t.station, placeIn s.slots t.session⟩, t.outputs, t.result⟩

/-- A central has disconnected: its slot is free. -/
def disconnected (s : Server) (id : SessionId) : Server := { s with slots := clearIn s.slots id }

/-! ## Time -/

/-- Whether a session has waited too long for its login. -/
def isLate (timeout now : UInt32) (session : Session) : Bool :=
  session.state = .waitingLogin && timeout < now - session.since

/-- One session after the check of its time, and the closing of its link. -/
def checkTime (timeout now : UInt32) (session : Session) : Session × List ServerOutput :=
  if isLate timeout now session then (session.drop now, [.disconnect session.id])
  else (session, [])

/-- Drops every session that has waited too long for its login. -/
def update (s : Server) (now : UInt32) : Server × List ServerOutput :=
  let check := checkTime s.station.loginTimeout now
  (⟨{ s.station with now := now }, s.slots.map (Option.map fun session => (check session).1)⟩,
    s.sessions.flatMap fun session => (check session).2)

/-! ## Notifications -/

/-- One encrypted message of a server. -/
structure Notice where
  op : OpCode
  item : ItemCode
  body : Bytes
  deriving DecidableEq, Repr, Inhabited

/-- A notification for one session, whatever its state. -/
def notifyOne (host : ServerHost) (s : Server) (id : SessionId) (n : Notice) : Outcome :=
  match s.session? id with
  | none => ⟨s, [], .error (.unknownSession id)⟩
  | some session =>
      let t : Turn := { station := s.station, session := session }
      let t := t.notify host n.op n.item n.body true
      ⟨{ s with slots := replaceIn s.slots t.session }, t.outputs, t.result⟩

/-- A notification for the running sessions of a list of slots: the slots afterwards, the outputs
after those so far, and the number of sessions that it could not be sent to. -/
def notifySlots (host : ServerHost) (station : Station) (n : Notice) :
    List ServerOutput → List (Option Session) → List (Option Session) × List ServerOutput × Nat
  | outputs, [] => ([], outputs, 0)
  | outputs, none :: rest =>
      let (slots, outputs, failed) := notifySlots host station n outputs rest
      (none :: slots, outputs, failed)
  | outputs, some session :: rest =>
      if session.state = .running then
        let t : Turn := { station := station, session := session, outputs := outputs }
        let t := t.notify host n.op n.item n.body true
        let (slots, outputs, failed) := notifySlots host station n t.outputs rest
        (some t.session :: slots, outputs,
          match t.result with
          | .ok () => failed
          | .error _ => failed + 1)
      else
        let (slots, outputs, failed) := notifySlots host station n outputs rest
        (some session :: slots, outputs, failed)

/-- A notification for every running session. -/
def notifyAll (host : ServerHost) (s : Server) (n : Notice) : Outcome :=
  let (slots, outputs, failed) := notifySlots host s.station n [] s.slots
  ⟨{ s with slots := slots }, outputs, if 0 < failed then .error (.broadcastFailed failed) else .ok ()⟩

/-! ## Requests -/

/-- Everything that a server can be asked to do. -/
inductive Request where
  | begin (model : Model) (uuid : Uuid)
  | generateKeys
  | loadKey (key : Octets 32)
  | setRegistered (secret : Key)
  | setMechStatus (status : StatusOs3)
  | setMechSetting (setting : SettingOs3)
  | setLoginTimeout (milliseconds : UInt32)
  | setCurrentTime (seconds now : UInt32)
  | subscribed (id : SessionId) (now : UInt32)
  | disconnected (id : SessionId)
  | receive (id : SessionId) (fragment : Bytes)
  | update (now : UInt32)
  | notify (id : Option SessionId) (notice : Notice)
  deriving DecidableEq, Repr

/-- What a request leads to. -/
def step (host : ServerHost) (s : Server) : Request → Outcome
  | .begin model uuid => ⟨s.begin model uuid, [], .ok ()⟩
  | .generateKeys => ⟨s.modifyStation Server.generateKeys, [], .ok ()⟩
  | .loadKey key =>
      match s.loadKey key with
      | .ok s => ⟨s, [], .ok ()⟩
      | .error error => ⟨s, [], .error error⟩
  | .setRegistered secret => ⟨s.setRegistered secret, [], .ok ()⟩
  | .setMechStatus status =>
      ⟨s.modifyStation fun station => { station with mechStatus := status }, [], .ok ()⟩
  | .setMechSetting setting =>
      ⟨s.modifyStation fun station => { station with mechSetting := setting }, [], .ok ()⟩
  | .setLoginTimeout milliseconds =>
      ⟨s.modifyStation fun station => { station with loginTimeout := milliseconds }, [], .ok ()⟩
  | .setCurrentTime seconds now => ⟨s.setCurrentTime seconds now, [], .ok ()⟩
  | .subscribed id now => s.subscribed host id now
  | .disconnected id => ⟨s.disconnected id, [], .ok ()⟩
  | .receive id fragment => s.receive host id fragment
  | .update now =>
      let (s, outputs) := s.update now
      ⟨s, outputs, .ok ()⟩
  | .notify (some id) notice => s.notifyOne host id notice
  | .notify none notice => s.notifyAll host notice

/-- A request in the surroundings of its moment. -/
structure Moment where
  host : ServerHost
  request : Request

/-- The server after a run of requests, and all outputs of the run. -/
def run (s : Server) : List Moment → Server × List ServerOutput
  | [] => (s, [])
  | m :: rest =>
      let outcome := s.step m.host m.request
      let (last, outputs) := run outcome.server rest
      (last, outcome.outputs ++ outputs)

end SmartLock.Server
