import SensorEvents.Config.Error
import SensorEvents.Single.Arithmetic

/-!
# Response curves

A curve reshapes a signal between zero and one and decides where along the travel the sensitivity
sits. `apply` keeps its argument and its result between zero and one; it does so for every
parameter, but only accepted parameters are meant to be used.
-/
namespace SensorEvents

/-- The exponential, the logarithm and the power. Their last bits are a matter of the mathematics
library that a program is linked with, so the signal path takes them as a parameter. -/
class Elementary where
  exp : Float32 → Float32
  ln : Float32 → Float32
  power : Float32 → Float32 → Float32

/-- What programs run with. -/
@[reducible] def Elementary.linked : Elementary where
  exp := Float32.exp
  ln := Float32.log
  power := Float32.pow

inductive ResponseCurve where
  /-- `x` to the power `gamma`. -/
  | power (gamma : Float32)
  /-- Fine control at low travel. -/
  | exponential (factor : Float32)
  /-- Coarse control at low travel. -/
  | logarithmic (factor : Float32)

namespace ResponseCurve

def linear : ResponseCurve := .power 1

def parameter : ResponseCurve → String × Float32
  | power gamma => ("gamma", gamma)
  | exponential factor => ("factor", factor)
  | logarithmic factor => ("factor", factor)

def validate (c : ResponseCurve) : Accepted Unit :=
  let (name, value) := c.parameter
  if value.isFinite && value > 0 then .ok () else .error (.notPositive name value)

/-- The curve's formula on a signal between zero and one. Where the formula would divide by
(nearly) zero, the curve is a straight line. -/
def shape [Elementary] (c : ResponseCurve) (x : Float32) : Float32 :=
  match c with
  | power gamma => if gamma == 1 then x else Elementary.power x gamma
  | exponential factor =>
    let denominator := Elementary.exp factor - 1
    if denominator.abs < Single.epsilon then x
    else (Elementary.exp (factor * x) - 1) / denominator
  | logarithmic factor =>
    let denominator := Elementary.ln (1 + factor)
    if denominator.abs < Single.epsilon then x
    else Elementary.ln (1 + factor * x) / denominator

/-- Reshape a signal after keeping it between zero and one. -/
def apply [Elementary] (c : ResponseCurve) (x : Float32) : Float32 :=
  Single.limit (c.shape (Single.limit x 0 1)) 0 1

end ResponseCurve

end SensorEvents
