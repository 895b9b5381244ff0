import PlaneSketch.Number
import PlaneSketch.Scalar.Double
import PlaneSketch.Session

/-!
Solving with doubles: settings are numbers as they were written.
-/

namespace PlaneSketch.Doubles

/-- The settings that hold when nothing else is said. -/
def options : Options Number :=
  Options.standard fun mantissa exponent => .float (Decimal.nearest mantissa exponent)

/-- Settings as doubles and in messages. -/
def numerals : Numerals Number Float := ⟨Number.toFloat, Number.text⟩

/-- The least-squares method and the singular values. -/
def methods : Methods Float := .orthogonal

end PlaneSketch.Doubles
