/-
# Mechanical status

What a device reports about its battery, its motor and its position: eight bytes in the second
generation, three from a bot of the third, seven from every other device of the third.

`StatusOs3.ofBytes?_toBytes` says that a status of the third generation is read back from its bytes.
-/
import SmartLock.Catalog.Code
import SmartLock.Mechanism.Battery
import SmartLock.Mechanism.Setting

namespace SmartLock

/-- Whether the bit with a given number is set. -/
def bit (flags : UInt8) (n : UInt8) : Bool := flags &&& (1 <<< n) ≠ 0

/-! ## On the wire -/

/-- The eight bytes of a status of the second generation. -/
abbrev StatusOs2 : Type := Octets 8

namespace StatusOs2

/-- The status at the start of a message; nothing if there are fewer than eight bytes. -/
def ofBytes? (b : Bytes) : Option StatusOs2 := Octets.ofBytes? 8 (b.take 8)

/-- One byte of a status. -/
def byte (s : StatusOs2) (i : Nat) : UInt8 := s.toBytes.getD i 0

/-- The reading of the voltmeter. -/
def battery (s : StatusOs2) : UInt16 := readUInt16 s.toBytes

/-- The position that the motor turns to. -/
def target (s : StatusOs2) : Int16 := readInt16 (s.toBytes.drop 2)

/-- The position of the bolt. -/
def position (s : StatusOs2) : Int16 := readInt16 (s.toBytes.drop 4)

/-- The result of the last movement. -/
def returnCode (s : StatusOs2) : UInt8 := s.byte 6

/-- The state of a bot's motor. -/
def motor (s : StatusOs2) : MotorStatus := MotorStatus.ofCode (s.byte 4)

/-- Whether a bot is moving. -/
def isMoving (s : StatusOs2) : Bool := bit (s.byte 7) 0

/-- Whether the bolt is in the range of the locked position. -/
def inLock (s : StatusOs2) : Bool := bit (s.byte 7) 1

/-- Whether the bolt is in the range of the unlocked position. -/
def inUnlock (s : StatusOs2) : Bool := bit (s.byte 7) 2

/-- Whether the battery is about to fail. -/
def batteryCritical (s : StatusOs2) : Bool := bit (s.byte 7) 5

end StatusOs2

/-- The status of a bot of the third generation, which reports no position. -/
structure StatusBot2 where
  battery : UInt16
  isIdle : Bool
  deriving DecidableEq, Repr, Inhabited

/-- The bot's status at the start of a message; nothing if there are fewer than three bytes. -/
def StatusBot2.ofBytes? : Bytes → Option StatusBot2
  | a :: b :: flags :: _ => some ⟨readUInt16 [a, b], bit flags 2⟩
  | _ => none

/-- A status of the third generation. -/
structure StatusOs3 where
  battery : Int16 := 0
  target : Int16 := 0
  position : Int16 := 0
  clutchFailed : Bool := false
  inLock : Bool := false
  inUnlockRange : Bool := false
  isCritical : Bool := false
  isStopped : Bool := false
  batteryCritical : Bool := false
  isClockwise : Bool := false
  deriving DecidableEq, Repr, Inhabited

namespace StatusOs3

/-- The flags of a status, lowest bit first. -/
def flags (s : StatusOs3) : List Bool :=
  [s.clutchFailed, s.inLock, s.inUnlockRange, s.isCritical, s.isStopped, s.batteryCritical,
    s.isClockwise]

/-- Flags as one byte, lowest bit first. -/
def packFlags : List Bool → UInt8
  | [] => 0
  | f :: rest => (if f then (1 : UInt8) else 0) ||| (packFlags rest <<< (1 : UInt8))

/-- The status at the start of a message; nothing if there are fewer than seven bytes. -/
def ofBytes? (b : Bytes) : Option StatusOs3 :=
  match b.drop 6 with
  | [] => none
  | flags :: _ =>
      some {
        battery := readInt16 b
        target := readInt16 (b.drop 2)
        position := readInt16 (b.drop 4)
        clutchFailed := bit flags 0
        inLock := bit flags 1
        inUnlockRange := bit flags 2
        isCritical := bit flags 3
        isStopped := bit flags 4
        batteryCritical := bit flags 5
        isClockwise := bit flags 6 }

/-- The seven bytes of a status. -/
def toBytes (s : StatusOs3) : Bytes :=
  writeInt16 s.battery ++ writeInt16 s.target ++ writeInt16 s.position ++ [packFlags s.flags]

@[simp] theorem length_toBytes (s : StatusOs3) : s.toBytes.length = 7 := by simp [toBytes]

end StatusOs3

/-! ## As the user sees it -/

/-- The status of a device. -/
structure Status where
  voltage : Float32 := 0.0
  batteryPercent : Float32 := 0.0
  target : Int16 := 0
  position : Int16 := 0
  returnCode : UInt8 := 0
  inLock : Bool := false
  inUnlock : Bool := false
  batteryCritical : Bool := false
  /-- Without meaning for locks of the second generation. -/
  stopped : Bool := false
  isCritical : Bool := false
  clutchFailed : Bool := false
  /-- Of a bot of the second generation; idle for every other device. -/
  motor : MotorStatus := .idle
  deriving DecidableEq, Repr

instance : Inhabited Status := ⟨{}⟩

namespace Status

/-- The status of a lock of the second generation. -/
def ofLock (model : Model) (s : StatusOs2) : Status :=
  let voltage := Battery.voltageOs2 s.battery model
  { voltage := voltage
    batteryPercent := Battery.percentOf model voltage
    target := s.target
    position := s.position
    returnCode := s.returnCode
    inLock := s.inLock
    inUnlock := s.inUnlock
    batteryCritical := s.batteryCritical }

/-- The status of a bot of the second generation. -/
def ofBot (model : Model) (s : StatusOs2) : Status :=
  let voltage := Battery.voltageOs2 s.battery model
  { voltage := voltage
    batteryPercent := Battery.percentOf model voltage
    inLock := s.inLock
    inUnlock := s.inUnlock
    batteryCritical := s.batteryCritical
    stopped := s.motor = .idle || s.motor = .holding
    motor := s.motor }

/-- A status of the second generation as a model means it. -/
def ofOs2 (model : Model) (s : StatusOs2) : Status :=
  if model = .sesameBot then ofBot model s else ofLock model s

/-- The status of a bot of the third generation.  Its reading is taken as a signed word. -/
def ofBot2 (model : Model) (s : StatusBot2) : Status :=
  let voltage := Battery.voltageOs3 s.battery.toInt16
  { voltage := voltage
    batteryPercent := Battery.percentOf model voltage
    stopped := s.isIdle }

/-- A status of the third generation; what is not locked counts as unlocked. -/
def ofOs3 (model : Model) (s : StatusOs3) : Status :=
  let voltage := Battery.voltageOs3 s.battery
  { voltage := voltage
    batteryPercent := Battery.percentOf model voltage
    target := s.target
    position := s.position
    inLock := s.inLock
    inUnlock := !s.inLock
    batteryCritical := s.batteryCritical
    stopped := s.isStopped
    isCritical := s.isCritical
    clutchFailed := s.clutchFailed }

end Status

/-! ## Reading back -/

namespace StatusOs3

/-- The bits of packed flags are the flags. -/
theorem bit_packFlags (a b c d e f g : Bool) :
    let flags := packFlags [a, b, c, d, e, f, g]
    bit flags 0 = a ∧ bit flags 1 = b ∧ bit flags 2 = c ∧ bit flags 3 = d ∧ bit flags 4 = e ∧
      bit flags 5 = f ∧ bit flags 6 = g := by
  revert a b c d e f g
  decide

/-- A status of the third generation is read back from its bytes, whatever follows them. -/
theorem ofBytes?_toBytes (s : StatusOs3) (rest : Bytes) :
    ofBytes? (s.toBytes ++ rest) = some s := by
  have h0 : s.toBytes ++ rest = writeInt16 s.battery ++
      (writeInt16 s.target ++ (writeInt16 s.position ++ packFlags s.flags :: rest)) := by
    simp [toBytes, List.append_assoc]
  have h2 : (s.toBytes ++ rest).drop 2 =
      writeInt16 s.target ++ (writeInt16 s.position ++ packFlags s.flags :: rest) := by
    simp [toBytes, List.append_assoc]
  have h4 : (s.toBytes ++ rest).drop 4 = writeInt16 s.position ++ packFlags s.flags :: rest := by
    simp [toBytes, List.append_assoc, List.drop_append]
  have h6 : (s.toBytes ++ rest).drop 6 = packFlags s.flags :: rest := by
    rw [show 6 = 4 + 2 from rfl, ← List.drop_drop, h4]
    simp
  obtain ⟨hclutch, hlock, hunlock, hcritical, hstopped, hbattery, hclockwise⟩ :=
    bit_packFlags s.clutchFailed s.inLock s.inUnlockRange s.isCritical s.isStopped
      s.batteryCritical s.isClockwise
  unfold ofBytes?
  rw [h6, h2, h4, h0]
  simp only [readInt16_writeInt16_append, flags, hclutch, hlock, hunlock, hcritical, hstopped,
    hbattery, hclockwise]

end StatusOs3

end SmartLock
