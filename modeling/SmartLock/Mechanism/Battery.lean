/-
# Batteries

From the reading of a device's voltmeter to a voltage, and from a voltage to the share of the
charge that is left.  All arithmetic is in single precision, in the order written here.
-/
import SmartLock.Catalog.Model

namespace SmartLock.Battery

/-! ## Discharge curves -/

/-- A point of a discharge curve: a voltage and the charge left, in percent. -/
structure Point where
  voltage : Float32
  percent : Float32
  deriving Repr, Inhabited

/-- The curve of two cells in series, from full to empty. -/
def twoCells : List Point := [
  ⟨5.85, 100.0⟩, ⟨5.82, 95.0⟩, ⟨5.79, 90.0⟩, ⟨5.76, 85.0⟩, ⟨5.73, 80.0⟩, ⟨5.70, 70.0⟩,
  ⟨5.65, 60.0⟩, ⟨5.60, 50.0⟩, ⟨5.55, 40.0⟩, ⟨5.50, 32.0⟩, ⟨5.40, 21.0⟩, ⟨5.20, 13.0⟩,
  ⟨5.10, 10.0⟩, ⟨5.0, 7.0⟩, ⟨4.8, 3.0⟩, ⟨4.6, 0.0⟩]

/-- The curve of the open sensor, from full to empty. -/
def openSensor : List Point := [
  ⟨5.820, 100.0⟩, ⟨5.810, 95.0⟩, ⟨5.755, 90.0⟩, ⟨5.735, 85.0⟩, ⟨5.665, 80.0⟩, ⟨5.620, 70.0⟩,
  ⟨5.585, 60.0⟩, ⟨5.556, 50.0⟩, ⟨5.550, 40.0⟩, ⟨5.530, 32.0⟩, ⟨5.450, 21.0⟩, ⟨5.400, 13.0⟩,
  ⟨5.320, 10.0⟩, ⟨5.280, 7.0⟩, ⟨5.225, 3.0⟩, ⟨5.150, 0.0⟩]

/-- The curve of a model; the one of two cells where no model is given. -/
def curve (model : Option Model) : List Point :=
  if model = some .openSensor1 then openSensor else twoCells

/-- The charge between two points of a curve, on the line through them. -/
def between (high low : Point) (voltage : Float32) : Float32 :=
  (voltage - low.voltage) / (high.voltage - low.voltage) * (high.percent - low.percent) +
    low.percent

/-- The charge below the first point of a curve: that of the last point at or below its
voltage, else on the line of the first pair whose lower end does not exceed the voltage, and
zero if there is none, as for a voltage that is not a number. -/
def along (voltage : Float32) : List Point → Float32
  | high :: low :: rest =>
      if low.voltage ≤ voltage then between high low voltage else along voltage (low :: rest)
  | _ => 0.0

/-- The charge left at a voltage, in percent. -/
def percent (voltage : Float32) (model : Option Model) : Float32 :=
  let points := curve model
  match points.head?, points.getLast? with
  | some first, some last =>
      if first.voltage ≤ voltage then first.percent
      else if voltage ≤ last.voltage then last.percent
      else along voltage points
  | _, _ => 0.0

/-! ## Readings -/

/-- The voltage of a reading of the second generation: a share of 1023 steps of the range that
the model measures. -/
def voltageOs2 (reading : UInt16) : Model → Float32
  | .sesame3 | .sesame4 => reading.toFloat32 * 7.2 / 1023.0
  | .sesameBike | .sesameBot => reading.toFloat32 * 3.6 / 1023.0
  | _ => 0.0

/-- The voltage of a reading of the third generation, in units of two millivolts. -/
def voltageOs3 (reading : Int16) : Float32 := reading.toFloat32 * 2.0 / 1000.0

/-- The factor from the voltage of a model to that of two cells. -/
def scale : Model → Float32
  | .sesameBike | .sesameBot | .sesameBike2 => 2.0
  | _ => 1.0

/-- The charge of a model at its voltage; zero for models of no known generation. -/
def percentOf (model : Model) (voltage : Float32) : Float32 :=
  if model.osVersion = .unknown then 0.0 else percent (voltage * scale model) (some model)

/-- The whole number next to a percentage; a half goes to the even neighbour. -/
def rounded (percent : Float32) : Nat :=
  let whole := percent.toUInt8.toNat
  let rest := percent - percent.floor
  if 0.5 < rest || (rest == 0.5 && whole % 2 = 1) then whole + 1 else whole

end SmartLock.Battery
