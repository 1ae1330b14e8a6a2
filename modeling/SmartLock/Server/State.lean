/-
# Servers

A server plays a device of the third generation.  It has a table of slots for sessions, one for
each central that has subscribed; what all sessions share is kept apart from the table, so that
a message can change nothing but the shared part and its own session.

A session waits for a login until it runs; it falls back to idle when it is dropped or takes too
long, and its slot is free again once its central has disconnected.
-/
import SmartLock.Crypto.KeyPair
import SmartLock.Discovery.Advertisement
import SmartLock.Link.Channel
import SmartLock.Mechanism.Status

namespace SmartLock

/-! ## Results -/

/-- The number of a session. -/
abbrev SessionId : Type := UInt16

/-- Why an operation of a server failed. -/
inductive ServerError where
  | notStarted
  | unknownSession (id : SessionId)
  | duplicateSession (id : SessionId)
  | tableFull
  | payloadLength (item : ItemCode) (size : Nat)
  | alreadyRegistered
  | noRegistrationCallback
  | keyNotShared
  | authenticationFailed
  | notRunning (id : SessionId)
  | broadcastFailed (sessions : Nat)
  | crypto (error : CryptoError)
  | link (error : LinkError)
  deriving DecidableEq, Repr

/-- The text that tells a user what failed. -/
def ServerError.message : ServerError → String
  | .notStarted => "begin() not finished"
  | .unknownSession id => s!"Session {id.toNat} not found"
  | .duplicateSession id => s!"Session {id.toNat} already exists"
  | .tableFull => "Too many sessions"
  | .payloadLength item size => item.name ++ s!": unexpected payload length {size}"
  | .alreadyRegistered => "Already registered, registration ignored"
  | .noRegistrationCallback => "Registration callback not set"
  | .keyNotShared => "Session key is not shared yet"
  | .authenticationFailed => "Authentication failed"
  | .notRunning id => s!"Session {id.toNat} is not running"
  | .broadcastFailed sessions => s!"Failed to notify {sessions} session(s)"
  | .crypto error => error.message
  | .link error => error.message

/-- What a server gives to its surroundings. -/
inductive ServerOutput where
  /-- A fragment was offered to the link of a session, which took or refused it. -/
  | write (id : SessionId) (fragment : Bytes) (taken : Bool)
  /-- The link of a session is to be closed. -/
  | disconnect (id : SessionId)
  /-- A central has registered; the secret is the one both sides now share. -/
  | registered (id : SessionId) (secret : Key)
  /-- A central has given a command. -/
  | command (id : SessionId) (item : ItemCode) (tag : String) (trigger : Option TriggerType)
  deriving DecidableEq, Repr

/-- What carries commands out: it is told the session, the item, the tag and the trigger. -/
abbrev CommandHandler : Type :=
  SessionId → ItemCode → String → Option TriggerType → ResultCode

/-- The surroundings of a server during one operation. -/
structure ServerHost where
  /-- Given what the operation has put out so far, does the link of a session take a fragment? -/
  takes : List ServerOutput → SessionId → Bytes → Bool
  /-- Whether registrations are welcome. -/
  registers : Bool := false
  /-- What carries commands out, if anything does. -/
  handler : Option CommandHandler := none

/-! ## Sessions -/

/-- How far a session has come. -/
inductive SessionState where
  | idle
  | waitingLogin
  | running
  deriving DecidableEq, Repr, Inhabited

/-- The session of one central. -/
structure Session where
  id : SessionId
  channel : Channel
  nonce : Token
  state : SessionState := .idle
  /-- The time of the last change of state, in milliseconds. -/
  since : UInt32 := 0
  deriving DecidableEq, Repr, Inhabited

namespace Session

/-- A new session with its nonce. -/
def new (id : SessionId) (nonce : Token) : Session :=
  { id := id, channel := Channel.new .os3 .peripheral, nonce := nonce }

/-- The session in a state; the time of the change is noted only if it is a new state. -/
def setState (s : Session) (state : SessionState) (now : UInt32) : Session :=
  if s.state = state then s else { s with state := state, since := now }

/-- The session without its key, without a packet in progress, and idle. -/
def drop (s : Session) (now : UInt32) : Session :=
  Session.setState { s with channel := s.channel.reset } .idle now

/-- The key of a session under a secret. -/
def keyUnder (s : Session) (secret : Key) : Key := cmac secret s.nonce.toBytes

/-- The session with its key under a secret. -/
def withSecret (s : Session) (secret : Key) : Session :=
  { s with channel := s.channel.withKey (s.keyUnder secret) s.nonce (Octets.zero 4) }

end Session

/-! ## The shared part -/

/-- What all sessions of a server share. -/
structure Station where
  random : RandomSource
  keys : Option PrivateKey := none
  model : Option Model := none
  uuid : Uuid := Uuid.nil
  registered : Bool := false
  secret : Key := Octets.zero 16
  mechStatus : StatusOs3 := {}
  mechSetting : SettingOs3 := {}
  /-- How long a session may wait for its login, in milliseconds. -/
  loginTimeout : UInt32 := 10000
  /-- The time of the last operation that told it, in milliseconds. -/
  now : UInt32 := 0
  /-- Seconds since the start of 1970, and the time in milliseconds at which they were right. -/
  clock : Option (UInt32 × UInt32) := none
  deriving DecidableEq, Repr, Inhabited

namespace Station

/-- Seconds since the start of 1970; zero as long as the clock has not been set. -/
def currentTime (s : Station) : UInt32 :=
  match s.clock with
  | none => 0
  | some (seconds, at_) => seconds + (s.now - at_) / 1000

/-- The public key of the server. -/
def publicKey (s : Station) : Except CryptoError PublicKey :=
  match s.keys with
  | none => .error .noKeypair
  | some k => .ok k.publicKey

/-- The secret that the server shares with the owner of a public key. -/
def deriveSecret (s : Station) (peer : PublicKey) : Except CryptoError Key :=
  match s.keys with
  | none => .error .noKeypair
  | some k => k.sharedKey peer

end Station

/-! ## Servers -/

/-- A server: the shared part and the slots of its table. -/
structure Server where
  station : Station
  slots : List (Option Session)
  deriving DecidableEq, Repr, Inhabited

namespace Server

/-- The sessions in the order of their slots. -/
def sessions (s : Server) : List Session := s.slots.filterMap id

/-- The session with a given number. -/
def session? (s : Server) (id : SessionId) : Option Session := s.sessions.find? (·.id = id)

/-- Whether there is a session with a given number. -/
def hasSession (s : Server) (id : SessionId) : Bool := (s.session? id).isSome

/-- The number of sessions. -/
def sessionCount (s : Server) : Nat := s.sessions.length

/-- The state of the session with a given number. -/
def sessionState? (s : Server) (id : SessionId) : Option SessionState :=
  (s.session? id).map Session.state

/-- Slots with a session in the place of the one with the same number. -/
def replaceIn (slots : List (Option Session)) (new : Session) : List (Option Session) :=
  slots.map fun slot => slot.map fun old => if old.id = new.id then new else old

/-- Slots with a session in the first free one. -/
def placeIn : List (Option Session) → Session → List (Option Session)
  | [], _ => []
  | none :: rest, new => some new :: rest
  | some old :: rest, new => some old :: placeIn rest new

/-- Slots without the session with a given number. -/
def clearIn (slots : List (Option Session)) (id : SessionId) : List (Option Session) :=
  slots.map fun slot => slot.filter (·.id ≠ id)

/-- What an operation leads to. -/
structure Outcome where
  server : Server
  outputs : List ServerOutput
  result : Except ServerError Unit

end Server

end SmartLock
