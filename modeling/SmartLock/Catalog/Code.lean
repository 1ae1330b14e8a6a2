/-
# Codes on the wire

The operations, items, results, record types, triggers and motor states of the protocol, each
with its byte.  Every table is read in both directions, and `ofCode?_code` says for each that
the two directions agree.
-/

namespace SmartLock

/-! ## Operations -/

/-- What a message does with its item. -/
inductive OpCode where
  | create
  | read
  | update
  | delete
  | sync
  | async
  | response
  | publish
  | undefine
  deriving DecidableEq, Repr, Inhabited

namespace OpCode

/-- All of them, in the order of their codes. -/
def all : List OpCode := [
  .create, .read, .update, .delete, .sync, .async, .response, .publish, .undefine]

/-- The byte of an operation. -/
def code : OpCode → UInt8
  | .create => 1
  | .read => 2
  | .update => 3
  | .delete => 4
  | .sync => 5
  | .async => 6
  | .response => 7
  | .publish => 8
  | .undefine => 16

/-- The one with a given byte. -/
def ofCode? (code : UInt8) : Option OpCode := all.find? (·.code = code)

/-- Each is found by its byte. -/
@[simp] theorem ofCode?_code (x : OpCode) : ofCode? x.code = some x := by
  cases x <;> decide

/-- A byte is read as an operation exactly if it is the code of that operation. -/
theorem ofCode?_eq_some_iff {byte : UInt8} {x : OpCode} : ofCode? byte = some x ↔ byte = x.code := by
  constructor
  · intro h
    have hcode := List.find?_some h
    exact (of_decide_eq_true hcode).symm
  · rintro rfl
    exact ofCode?_code x

end OpCode

/-! ## Items -/

/-- What a message is about. -/
inductive ItemCode where
  | none
  | registration
  | login
  | user
  | history
  | versionTag
  | disconnectRebootNow
  | enableDfu
  | time
  | bleConnectionParam
  | bleAdvParam
  | autolock
  | serverAdvKick
  | ssmToken
  | initial
  | irer
  | timePhone
  | mechSetting
  | mechStatus
  | lock
  | unlock
  | moveTo
  | driveDirection
  | stop
  | detectDir
  | toggle
  | click
  | doorOpen
  | doorClosed
  | addSesame
  | pubSsmKey
  | removeSesame
  deriving DecidableEq, Repr, Inhabited

namespace ItemCode

/-- All of them, in the order of their codes. -/
def all : List ItemCode := [
  .none, .registration, .login, .user, .history, .versionTag, .disconnectRebootNow, .enableDfu,
  .time, .bleConnectionParam, .bleAdvParam, .autolock, .serverAdvKick, .ssmToken, .initial,
  .irer, .timePhone, .mechSetting, .mechStatus, .lock, .unlock, .moveTo, .driveDirection, .stop,
  .detectDir, .toggle, .click, .doorOpen, .doorClosed, .addSesame, .pubSsmKey, .removeSesame]

/-- The byte of an item. -/
def code : ItemCode → UInt8
  | .none => 0
  | .registration => 1
  | .login => 2
  | .user => 3
  | .history => 4
  | .versionTag => 5
  | .disconnectRebootNow => 6
  | .enableDfu => 7
  | .time => 8
  | .bleConnectionParam => 9
  | .bleAdvParam => 10
  | .autolock => 11
  | .serverAdvKick => 12
  | .ssmToken => 13
  | .initial => 14
  | .irer => 15
  | .timePhone => 16
  | .mechSetting => 80
  | .mechStatus => 81
  | .lock => 82
  | .unlock => 83
  | .moveTo => 84
  | .driveDirection => 85
  | .stop => 86
  | .detectDir => 87
  | .toggle => 88
  | .click => 89
  | .doorOpen => 90
  | .doorClosed => 91
  | .addSesame => 101
  | .pubSsmKey => 102
  | .removeSesame => 103

/-- The one with a given byte. -/
def ofCode? (code : UInt8) : Option ItemCode := all.find? (·.code = code)

/-- The name of an item in messages. -/
def name : ItemCode → String
  | .none => "None"
  | .registration => "Registration"
  | .login => "Login"
  | .user => "User"
  | .history => "History"
  | .versionTag => "VersionTag"
  | .disconnectRebootNow => "DisconnectRebootNow"
  | .enableDfu => "EnableDfu"
  | .time => "Time"
  | .bleConnectionParam => "BleConnectionParam"
  | .bleAdvParam => "BleAdvParam"
  | .autolock => "Autolock"
  | .serverAdvKick => "ServerAdvKick"
  | .ssmToken => "SsmToken"
  | .initial => "Initial"
  | .irer => "Irer"
  | .timePhone => "TimePhone"
  | .mechSetting => "MechSetting"
  | .mechStatus => "MechStatus"
  | .lock => "Lock"
  | .unlock => "Unlock"
  | .moveTo => "MoveTo"
  | .driveDirection => "DriveDirection"
  | .stop => "Stop"
  | .detectDir => "DetectDir"
  | .toggle => "Toggle"
  | .click => "Click"
  | .doorOpen => "DoorOpen"
  | .doorClosed => "DoorClosed"
  | .addSesame => "AddSesame"
  | .pubSsmKey => "PubSsmKey"
  | .removeSesame => "RemoveSesame"

/-- Each is found by its byte. -/
@[simp] theorem ofCode?_code (x : ItemCode) : ofCode? x.code = some x := by
  cases x <;> decide

/-- A byte is read as an item exactly if it is the code of that item. -/
theorem ofCode?_eq_some_iff {byte : UInt8} {x : ItemCode} : ofCode? byte = some x ↔ byte = x.code := by
  constructor
  · intro h
    have hcode := List.find?_some h
    exact (of_decide_eq_true hcode).symm
  · rintro rfl
    exact ofCode?_code x

end ItemCode

/-! ## Results -/

/-- What became of a request. -/
inductive ResultCode where
  | success
  | invalidFormat
  | notSupported
  | storageFail
  | invalidSig
  | notFound
  | unknown
  | busy
  | invalidParam
  deriving DecidableEq, Repr, Inhabited

namespace ResultCode

/-- All of them, in the order of their codes. -/
def all : List ResultCode := [
  .success, .invalidFormat, .notSupported, .storageFail, .invalidSig, .notFound, .unknown, .busy,
  .invalidParam]

/-- The byte of a result. -/
def code : ResultCode → UInt8
  | .success => 0
  | .invalidFormat => 1
  | .notSupported => 2
  | .storageFail => 3
  | .invalidSig => 4
  | .notFound => 5
  | .unknown => 6
  | .busy => 7
  | .invalidParam => 8

/-- The one with a given byte. -/
def ofCode? (code : UInt8) : Option ResultCode := all.find? (·.code = code)

/-- The result with a given byte; one that is not in the table is unknown. -/
def ofCode (code : UInt8) : ResultCode := (ofCode? code).getD .unknown

/-- Each is found by its byte. -/
@[simp] theorem ofCode?_code (x : ResultCode) : ofCode? x.code = some x := by
  cases x <;> decide

end ResultCode

/-! ## Record types -/

/-- What a history record is about. -/
inductive HistoryType where
  | none
  | bleLock
  | bleUnlock
  | timeChanged
  | autolockUpdated
  | mechSettingUpdated
  | autolock
  | manualLocked
  | manualUnlocked
  | manualElse
  | driveLocked
  | driveUnlocked
  | driveFailed
  | bleAdvParamUpdated
  | wm2Lock
  | wm2Unlock
  | webLock
  | webUnlock
  | bleClick
  | driveClicked
  deriving DecidableEq, Repr, Inhabited

namespace HistoryType

/-- All of them, in the order of their codes. -/
def all : List HistoryType := [
  .none, .bleLock, .bleUnlock, .timeChanged, .autolockUpdated, .mechSettingUpdated, .autolock,
  .manualLocked, .manualUnlocked, .manualElse, .driveLocked, .driveUnlocked, .driveFailed,
  .bleAdvParamUpdated, .wm2Lock, .wm2Unlock, .webLock, .webUnlock, .bleClick, .driveClicked]

/-- The byte of a record type. -/
def code : HistoryType → UInt8
  | .none => 0
  | .bleLock => 1
  | .bleUnlock => 2
  | .timeChanged => 3
  | .autolockUpdated => 4
  | .mechSettingUpdated => 5
  | .autolock => 6
  | .manualLocked => 7
  | .manualUnlocked => 8
  | .manualElse => 9
  | .driveLocked => 10
  | .driveUnlocked => 11
  | .driveFailed => 12
  | .bleAdvParamUpdated => 13
  | .wm2Lock => 14
  | .wm2Unlock => 15
  | .webLock => 16
  | .webUnlock => 17
  | .bleClick => 18
  | .driveClicked => 21

/-- The one with a given byte. -/
def ofCode? (code : UInt8) : Option HistoryType := all.find? (·.code = code)

/-- Each is found by its byte. -/
@[simp] theorem ofCode?_code (x : HistoryType) : ofCode? x.code = some x := by
  cases x <;> decide

end HistoryType

/-! ## Triggers -/

/-- What set off a command. -/
inductive TriggerType where
  | icCard
  | faceFinger
  | face
  | faceVein
  | touchFinger
  | openSensor
  | faceClose
  | remote
  | remoteNano
  | androidBle
  | androidWifi
  deriving DecidableEq, Repr, Inhabited

namespace TriggerType

/-- All of them, in the order of their codes. -/
def all : List TriggerType := [
  .icCard, .faceFinger, .face, .faceVein, .touchFinger, .openSensor, .faceClose, .remote,
  .remoteNano, .androidBle, .androidWifi]

/-- The byte of a trigger. -/
def code : TriggerType → UInt8
  | .icCard => 0
  | .faceFinger => 1
  | .face => 3
  | .faceVein => 4
  | .touchFinger => 6
  | .openSensor => 7
  | .faceClose => 9
  | .remote => 10
  | .remoteNano => 11
  | .androidBle => 14
  | .androidWifi => 16

/-- The one with a given byte. -/
def ofCode? (code : UInt8) : Option TriggerType := all.find? (·.code = code)

/-- The name of a trigger in messages. -/
def name : TriggerType → String
  | .icCard => "IcCard"
  | .faceFinger => "FaceFinger"
  | .face => "Face"
  | .faceVein => "FaceVein"
  | .touchFinger => "TouchFinger"
  | .openSensor => "OpenSensor"
  | .faceClose => "FaceClose"
  | .remote => "Remote"
  | .remoteNano => "RemoteNano"
  | .androidBle => "AndroidBle"
  | .androidWifi => "AndroidWifi"

/-- Each is found by its byte. -/
@[simp] theorem ofCode?_code (x : TriggerType) : ofCode? x.code = some x := by
  cases x <;> decide

end TriggerType

/-! ## Motor states -/

/-- What the motor of a bot is doing. -/
inductive MotorStatus where
  | idle
  | locking
  | holding
  | unlocking
  deriving DecidableEq, Repr, Inhabited

namespace MotorStatus

/-- All of them, in the order of their codes. -/
def all : List MotorStatus := [
  .idle, .locking, .holding, .unlocking]

/-- The byte of a motor state. -/
def code : MotorStatus → UInt8
  | .idle => 0
  | .locking => 1
  | .holding => 2
  | .unlocking => 3

/-- The one with a given byte. -/
def ofCode? (code : UInt8) : Option MotorStatus := all.find? (·.code = code)

/-- The state with a given byte; one that is not in the table is taken for idle. -/
def ofCode (code : UInt8) : MotorStatus := (ofCode? code).getD .idle

/-- Each is found by its byte. -/
@[simp] theorem ofCode?_code (x : MotorStatus) : ofCode? x.code = some x := by
  cases x <;> decide

end MotorStatus

end SmartLock
