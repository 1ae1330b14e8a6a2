/-
# Captured traffic

The decryption of captured fragments of the third generation, when the secret and the nonce of
the session are known.  Fragments are taken in the part of one of the two parties, and each part
has its own channel: what is read in one part changes nothing for the other.
-/
import SmartLock.Crypto.Cmac
import SmartLock.Link.Channel
import SmartLock.Text.Hex

namespace SmartLock

/-! ## Lines of a capture -/

/-- What one line of a capture says. -/
inductive CaptureLine where
  /-- The part to take for the fragments that follow. -/
  | take (role : Role)
  /-- A fragment that was received in the part taken. -/
  | fragment (bytes : Bytes)
  /-- Neither a part nor a fragment. -/
  | unreadable (text : String)
  deriving DecidableEq, Repr

/-- The meaning of a line: one of two letters in either case, or hexadecimal digits, with white
space around. -/
def CaptureLine.ofText (text : String) : CaptureLine :=
  let trimmed := Text.trim text.toList
  if trimmed = ['c'] || trimmed = ['C'] then .take .central
  else if trimmed = ['p'] || trimmed = ['P'] then .take .peripheral
  else
    match Hex.decode (String.ofList trimmed) with
    | .ok bytes => .fragment bytes
    | .error _ => .unreadable (String.ofList trimmed)

/-- What is told about one line of a capture. -/
inductive CaptureReport where
  | taking (role : Role)
  | unreadable (text : String)
  | message (plain : Bytes)
  | requireMore (size : Nat)
  | failed
  deriving DecidableEq, Repr

/-- The line that is printed. -/
def CaptureReport.text : CaptureReport → String
  | .taking .central => "AS central"
  | .taking .peripheral => "AS peripheral"
  | .unreadable text => text ++ ": invalid input"
  | .message plain => s!"decoded({plain.length}) " ++ Hex.encode plain
  | .requireMore size => s!">> ({size} bytes)"
  | .failed => "decode failed"

/-! ## Reading a capture -/

/-- A capture that is being read: a channel for each part, and the part that is taken. -/
structure Capture where
  central : Channel
  peripheral : Channel
  role : Role
  deriving DecidableEq, Repr, Inhabited

namespace Capture

/-- The start of reading under a session key: the nonce is the peripheral's own token, and the
central's is zero. -/
def start (key : Key) (nonce : Token) (role : Role) : Capture where
  central := (Channel.new .os3 .central).withKey key (Octets.zero 4) nonce
  peripheral := (Channel.new .os3 .peripheral).withKey key nonce (Octets.zero 4)
  role := role

/-- The channel of the part that is taken. -/
def channel (c : Capture) : Channel :=
  match c.role with
  | .central => c.central
  | .peripheral => c.peripheral

/-- The capture with another channel for the part that is taken. -/
def withChannel (c : Capture) (channel : Channel) : Capture :=
  match c.role with
  | .central => { c with central := channel }
  | .peripheral => { c with peripheral := channel }

/-- Reads one line. -/
def read (c : Capture) : CaptureLine → Capture × CaptureReport
  | .take role => ({ c with role := role }, .taking role)
  | .unreadable text => (c, .unreadable text)
  | .fragment bytes =>
      let (channel, received) := c.channel.receive bytes
      (c.withChannel channel,
        match received with
        | .complete plain _ => .message plain
        | .requireMore => .requireMore bytes.length
        | .skipping _ | .dropped => .failed)

/-- The reports about the lines of a capture, in order. -/
def readAll (c : Capture) : List CaptureLine → List CaptureReport
  | [] => []
  | line :: lines =>
      let (c, report) := c.read line
      report :: c.readAll lines

end Capture

end SmartLock
