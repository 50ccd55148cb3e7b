import VscpAutomation.Rational
import Mathlib.Analysis.SpecialFunctions.Complex.Arg
/-!
# The driver on real numbers

`rationalEnv` with the functions of `<math.h>` as they are on `ℝ`.
-/

namespace VscpAutomation

noncomputable def realEnv : Env ℝ :=
  { rationalEnv fun _ => .error .parse_error with
    sin := Real.sin
    cos := Real.cos
    tan := Real.tan
    asin := Real.arcsin
    atan2 := fun y x => Complex.arg ⟨x, y⟩
    tzOffset2LocalTime := fun _ => 1
    readJson := fun _ => .error .parse_error }

end VscpAutomation
