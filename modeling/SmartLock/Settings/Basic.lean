/-
# Settings

What is kept between two runs of a program: the devices a client knows, with their keys, and
how a server is to be set up.  Keys are kept as the text that the user entered; they are read
when they are used.
-/
import SmartLock.Catalog.Model
import SmartLock.Crypto.KeyPair
import SmartLock.Discovery.Uuid

namespace SmartLock

/-! ## Known devices -/

/-- A device that a client knows. -/
structure DeviceProfile where
  name : String
  model : Model
  uuid : Option Uuid := none
  /-- The secret in hexadecimal digits. -/
  secret : String
  /-- The public key in hexadecimal digits; only the second generation has one. -/
  publicKey : Option String := none
  deriving DecidableEq, Repr

namespace DeviceProfile

/-- The secret of a device. -/
def secretBytes (device : DeviceProfile) : Except HexError Key :=
  Hex.decodeExact 16 device.secret

/-- The public key of a device, if it has one. -/
def publicKeyBytes (device : DeviceProfile) : Except HexError (Option PublicKey) :=
  device.publicKey.mapM (Hex.decodeExact 64)

end DeviceProfile

/-! ## Servers -/

/-- How a server is set up. -/
structure ServerSettings where
  model : Model := .sesame5
  uuid : Option Uuid := none
  maxSessions : UInt64 := 3
  /-- How long a session may take to log in, in milliseconds. -/
  loginTimeout : UInt32 := 10000
  /-- The private key in hexadecimal digits. -/
  privateKey : Option String := none
  /-- The secret that a registration left, in hexadecimal digits. -/
  secret : Option String := none
  deriving DecidableEq, Repr, Inhabited

namespace ServerSettings

/-- The private key, if there is one. -/
def privateKeyBytes (server : ServerSettings) : Except HexError (Option (Octets 32)) :=
  server.privateKey.mapM (Hex.decodeExact 32)

/-- The secret, if there is one. -/
def secretBytes (server : ServerSettings) : Except HexError (Option Key) :=
  server.secret.mapM (Hex.decodeExact 16)

end ServerSettings

/-! ## All settings -/

/-- The settings of a program. -/
structure Settings where
  logLevel : String := "info"
  devices : List DeviceProfile := []
  server : ServerSettings := {}
  deriving DecidableEq, Repr, Inhabited

/-- The first known device with a given name. -/
def Settings.device? (settings : Settings) (name : String) : Option DeviceProfile :=
  settings.devices.find? (·.name = name)

end SmartLock
