/-
# Device models

The models that speak the protocol, with their codes on the wire, their names and the
generation of the protocol that each one speaks.

`ofCode?_code` and `ofName?_name` say that codes and names determine the model.
-/
import SmartLock.Text.Blank

namespace SmartLock

/-! ## Generations -/

/-- A generation of the protocol, as far as a model's code tells it. -/
inductive OsVersion where
  | unknown
  | os2
  | os3
  deriving DecidableEq, Repr, Inhabited

/-! ## Models -/

/-- A device model. -/
inductive Model where
  | sesame3
  | wifi2
  | sesameBot
  | sesameBike
  | sesame4
  | sesame5
  | sesameBike2
  | sesame5Pro
  | openSensor1
  | sesameTouchPro
  | sesameTouch
  | bleConnector
  | hub3
  | remote
  | remoteNano
  | sesame5Us
  | sesameBot2
  | sesameFacePro
  | sesameFace
  | sesame6
  | sesame6Pro
  deriving DecidableEq, Repr, Inhabited

namespace Model

/-- All models, in the order of their codes. -/
def all : List Model := [
  .sesame3, .wifi2, .sesameBot, .sesameBike, .sesame4, .sesame5, .sesameBike2, .sesame5Pro,
  .openSensor1, .sesameTouchPro, .sesameTouch, .bleConnector, .hub3, .remote, .remoteNano,
  .sesame5Us, .sesameBot2, .sesameFacePro, .sesameFace, .sesame6, .sesame6Pro]

/-- The code of a model on the wire. -/
def code : Model → UInt8
  | .sesame3 => 0
  | .wifi2 => 1
  | .sesameBot => 2
  | .sesameBike => 3
  | .sesame4 => 4
  | .sesame5 => 5
  | .sesameBike2 => 6
  | .sesame5Pro => 7
  | .openSensor1 => 8
  | .sesameTouchPro => 9
  | .sesameTouch => 10
  | .bleConnector => 11
  | .hub3 => 13
  | .remote => 14
  | .remoteNano => 15
  | .sesame5Us => 16
  | .sesameBot2 => 17
  | .sesameFacePro => 18
  | .sesameFace => 19
  | .sesame6 => 20
  | .sesame6Pro => 21

/-- The model with a given code. -/
def ofCode? (code : UInt8) : Option Model := all.find? (·.code = code)

/-- The name of a model. -/
def name : Model → String
  | .sesame3 => "sesame_3"
  | .wifi2 => "wifi_2"
  | .sesameBot => "sesame_bot"
  | .sesameBike => "sesame_bike"
  | .sesame4 => "sesame_4"
  | .sesame5 => "sesame_5"
  | .sesameBike2 => "sesame_bike_2"
  | .sesame5Pro => "sesame_5_pro"
  | .openSensor1 => "open_sensor_1"
  | .sesameTouchPro => "sesame_touch_pro"
  | .sesameTouch => "sesame_touch"
  | .bleConnector => "ble_connector"
  | .hub3 => "hub3"
  | .remote => "remote"
  | .remoteNano => "remote_nano"
  | .sesame5Us => "sesame_5_us"
  | .sesameBot2 => "sesame_bot_2"
  | .sesameFacePro => "sesame_face_pro"
  | .sesameFace => "sesame_face"
  | .sesame6 => "sesame_6"
  | .sesame6Pro => "sesame_6_pro"

/-- The model with a given name, letter for letter. -/
def ofName? (name : String) : Option Model := all.find? (·.name = name)

/-- The complaint about a text that names no model. -/
def unknownMessage (text : String) : String := s!"unknown model: {text}"

/-- The model that a user names: white space around the name is trimmed, and letters from
`A` to `Z` stand for small ones. -/
def ofText? (text : String) : Option Model :=
  ofName? (String.ofList ((Text.trim text.toList).map Char.toLower))

/-- The generation that a model speaks: the second up to `sesame_4`, the third up to
`sesame_face`; for the codes above it is not known. -/
def osVersion (model : Model) : OsVersion :=
  if model.code ≤ sesame4.code then .os2
  else if model.code ≤ sesameFace.code then .os3
  else .unknown

/-- Whether a model reports its mechanical setting. -/
def hasSetting : Model → Bool
  | .openSensor1 | .sesameTouch | .sesameTouchPro | .remote | .remoteNano | .sesameBot2
  | .sesameFacePro | .sesameFace => false
  | _ => true

/-- A model is found by its code. -/
@[simp] theorem ofCode?_code (model : Model) : ofCode? model.code = some model := by
  cases model <;> decide

/-- A model is found by its name. -/
@[simp] theorem ofName?_name (model : Model) : ofName? model.name = some model := by
  cases model <;> decide

end Model

end SmartLock
