import ListMode.Hit.Digitized
import ListMode.Table

/-!
# Detectors and calibrations

A calibration is a polynomial that turns a channel number into a physical
value; its coefficients refer to one bit resolution.  A detector keeps at most
one calibration per resolution.  Calibrations describe the axes of a spectrum,
they never change its counts.
-/

namespace ListMode

/-! ## Calibrations -/

/-- A polynomial calibration at one bit resolution. -/
structure Calibration where
  /-- The calibrated quantity. -/
  kind : String := ""
  /-- The units of the calibrated value. -/
  units : String := ""
  /-- The resolution the coefficients refer to. -/
  bits : Nat := 0
  /-- The coefficients, constant term first. -/
  coefficients : List Float := []
deriving Inhabited

/-- Two to the power of a difference of resolutions, by repeated doubling. -/
def powerOfTwo (exponent : Int) : Float :=
  let magnitude := Nat.repeat (fun x : Float => x * 2.0) exponent.natAbs 1.0
  if exponent < 0 then 1.0 / magnitude else magnitude

namespace Calibration

/-- The calibration that leaves channel numbers as they are. -/
def identity (kind : String) (bits : Nat) : Calibration := ⟨kind, "channels", bits, [0.0, 1.0]⟩

/-- A calibration is usable when it has a coefficient beyond the constant. -/
def valid (c : Calibration) : Bool := 1 < c.coefficients.length

/-- The calibrated value of `x`, which is `x` itself when the calibration is
not usable. -/
def transform (c : Calibration) (x : Float) : Float :=
  if c.valid then c.coefficients.reverse.foldl (fun acc a => acc * x + a) 0.0 else x

/-- The calibrated value of `x` given at another resolution. -/
def transformAt (c : Calibration) (x : Float) (bits : Nat) : Float :=
  c.transform (x * powerOfTwo (c.bits - bits))

end Calibration

/-! ## Detectors -/

/-- A named detector with its calibrations. -/
structure Detector where
  /-- The detector's name. -/
  name : String := "none"
  /-- The detector's type. -/
  kind : String := "none"
  /-- The calibrations, one per resolution, coarsest first. -/
  calibrations : List Calibration := []
deriving Inhabited

namespace Detector

/-- The detector with a calibration added or replaced. -/
def addCalibration (d : Detector) (c : Calibration) : Detector :=
  { d with calibrations := insertByKey (fun c => c.bits) c d.calibrations }

/-- The calibration of exactly the given resolution. -/
def calibration? (d : Detector) (bits : Nat) : Option Calibration :=
  findByKey? (fun c => c.bits) bits d.calibrations

/-- The calibration of the finest resolution. -/
def finest? (d : Detector) : Option Calibration := d.calibrations.getLast?

/-- The calibrated value of a digitized value, by the calibration of its own
width or else the finest one; without any it is the sample itself. -/
def calibrate (d : Detector) (v : Digitized) : Float :=
  match d.calibration? v.bits <|> d.finest? with
  | some c => c.transformAt v.raw.toNat.toFloat v.bits
  | none => v.raw.toNat.toFloat

end Detector

end ListMode
