/-
# Mechanical settings

What a device reports about the positions and times it has been set to.  Devices of the second
generation send twelve bytes, which a lock and a bot read differently; those of the third send
six.

`SettingOs3.ofBytes?_toBytes` says that a setting of the third generation is read back from
its bytes, whatever follows them.
-/
import SmartLock.Bytes
import SmartLock.Catalog.Model

namespace SmartLock

/-! ## On the wire -/

/-- The twelve bytes of a setting of the second generation. -/
abbrev SettingOs2 : Type := Octets 12

namespace SettingOs2

/-- The setting at the start of a message; nothing if there are fewer than twelve bytes. -/
def ofBytes? (b : Bytes) : Option SettingOs2 := Octets.ofBytes? 12 (b.take 12)

/-- The position in which the lock is locked. -/
def lockPosition (s : SettingOs2) : Int16 := readInt16 s.toBytes

/-- The position in which the lock is unlocked. -/
def unlockPosition (s : SettingOs2) : Int16 := readInt16 (s.toBytes.drop 2)

end SettingOs2

/-- A setting of the third generation. -/
structure SettingOs3 where
  lockPosition : Int16 := 0
  unlockPosition : Int16 := 0
  autoLockSeconds : Int16 := 0
  deriving DecidableEq, Repr, Inhabited

namespace SettingOs3

/-- The setting at the start of a message; nothing if there are fewer than six bytes. -/
def ofBytes? (b : Bytes) : Option SettingOs3 :=
  if b.length < 6 then none
  else
    some {
      lockPosition := readInt16 b
      unlockPosition := readInt16 (b.drop 2)
      autoLockSeconds := readInt16 (b.drop 4) }

/-- The six bytes of a setting. -/
def toBytes (s : SettingOs3) : Bytes :=
  writeInt16 s.lockPosition ++ writeInt16 s.unlockPosition ++ writeInt16 s.autoLockSeconds

@[simp] theorem length_toBytes (s : SettingOs3) : s.toBytes.length = 6 := by simp [toBytes]

end SettingOs3

/-! ## As the user sees them -/

/-- The setting of a lock. -/
structure LockSetting where
  lockPosition : Int16
  unlockPosition : Int16
  /-- Minus one where the device does not tell. -/
  autoLockSeconds : Int16
  deriving DecidableEq, Repr, Inhabited

/-- The setting of a bot: all twelve bytes, of which the first seven have a meaning.  Times are in
tenths of a second. -/
structure BotSetting where
  raw : SettingOs2
  deriving DecidableEq, Repr, Inhabited

namespace BotSetting

/-- One of the twelve bytes. -/
def field (s : BotSetting) (index : Fin 12) : UInt8 :=
  s.raw.toBytes.get (index.cast s.raw.length_toBytes.symm)

/-- The direction in which a click begins: zero pushes, one pulls. -/
def userPrefDir (s : BotSetting) : UInt8 := s.field 0

/-- How long the bot moves to lock. -/
def lockTime (s : BotSetting) : UInt8 := s.field 1

/-- How long the bot moves to unlock. -/
def unlockTime (s : BotSetting) : UInt8 := s.field 2

/-- How long a click moves to lock. -/
def clickLockTime (s : BotSetting) : UInt8 := s.field 3

/-- How long a click holds its position. -/
def clickHoldTime (s : BotSetting) : UInt8 := s.field 4

/-- How long a click moves to unlock. -/
def clickUnlockTime (s : BotSetting) : UInt8 := s.field 5

/-- What the button does. -/
def buttonMode (s : BotSetting) : UInt8 := s.field 6

end BotSetting

/-- The setting of a device. -/
inductive Setting where
  | lock (setting : LockSetting)
  | bot (setting : BotSetting)
  deriving DecidableEq, Repr, Inhabited

namespace Setting

/-- A setting of the third generation. -/
def ofOs3 (s : SettingOs3) : Setting :=
  .lock ⟨s.lockPosition, s.unlockPosition, s.autoLockSeconds⟩

/-- A setting of the second generation as a model means it. -/
def ofOs2 (model : Model) (s : SettingOs2) : Setting :=
  if model = .sesameBot then .bot ⟨s⟩
  else .lock ⟨s.lockPosition, s.unlockPosition, -1⟩

end Setting

/-! ## Reading back -/

/-- A signed word at the start of a byte string is read back. -/
theorem readInt16_writeInt16_append (v : Int16) (rest : Bytes) :
    readInt16 (writeInt16 v ++ rest) = v := by
  have h : (writeInt16 v ++ rest).take 2 = writeInt16 v := by
    rw [List.take_append_of_le_length (by simp), List.take_of_length_le (by simp)]
  have size : v.toUInt16.toNat % Nat.pow 256 2 = v.toUInt16.toNat := by
    exact Nat.mod_eq_of_lt v.toUInt16.toNat_lt
  rw [readInt16, readUInt16, h, writeInt16, ofLittleEndian_littleEndian, size,
    UInt16.ofNat_toNat]
  rfl

/-- A setting of the third generation is read back from its bytes, whatever follows them. -/
theorem SettingOs3.ofBytes?_toBytes (s : SettingOs3) (rest : Bytes) :
    SettingOs3.ofBytes? (s.toBytes ++ rest) = some s := by
  have h2 : (s.toBytes ++ rest).drop 2
      = writeInt16 s.unlockPosition ++ (writeInt16 s.autoLockSeconds ++ rest) := by
    simp [SettingOs3.toBytes, List.append_assoc]
  have h4 : (s.toBytes ++ rest).drop 4 = writeInt16 s.autoLockSeconds ++ rest := by
    simp [SettingOs3.toBytes, List.append_assoc, List.drop_append]
  have h0 : s.toBytes ++ rest = writeInt16 s.lockPosition
      ++ (writeInt16 s.unlockPosition ++ (writeInt16 s.autoLockSeconds ++ rest)) := by
    simp [SettingOs3.toBytes, List.append_assoc]
  unfold SettingOs3.ofBytes?
  rw [if_neg (by simp [SettingOs3.toBytes]; omega), h2, h4, h0]
  simp only [readInt16_writeInt16_append]

end SmartLock
