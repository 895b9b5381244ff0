import PlaneSketch.Scalar
import PlaneSketch.Decimal.Format
import PlaneSketch.Decimal.Read

/-!
Numbers as they are written: a whole number stays one, and is compared with a double exactly.
-/

namespace PlaneSketch

/-- A whole number or a double. -/
inductive Number
  | int (value : Int)
  | float (value : Float)
  deriving Inhabited

namespace Number

/-- The place of a number among the others; none when it is undefined. -/
inductive Place
  | belowAll
  /-- the number `num / den` -/
  | at (num : Int) (den : Nat)
  | aboveAll

/-- Where the number stands. -/
def place? : Number → Option Place
  | int value => some (.at value 1)
  | float value =>
    match Decimal.Reading.ofFloat value with
    | .nan => none
    | .infinite negative => some (if negative then .belowAll else .aboveAll)
    | .finite b =>
      let size : Int := b.ratio.num
      some (.at (if b.negative then -size else size) b.ratio.den)

/-- Does the first place come strictly before the second? -/
def Place.before : Place → Place → Bool
  | .belowAll, .belowAll => false
  | .belowAll, _ => true
  | .at _ _, .belowAll => false
  | .at num den, .at num' den' => decide (num * den' < num' * den)
  | .at _ _, .aboveAll => true
  | .aboveAll, _ => false

instance : Ordered Number where
  zero := int 0
  one := int 1
  lt a b :=
    match a.place?, b.place? with
    | some p, some q => p.before q
    | _, _ => false
  le a b :=
    match a.place?, b.place? with
    | some p, some q => !q.before p
    | _, _ => false

/-- Are the numbers equal, whatever their form? What is undefined counts as equal to itself. -/
def same (a b : Number) : Bool :=
  match a.place?, b.place? with
  | some p, some q => !p.before q && !q.before p
  | none, none => true
  | _, _ => false

/-- The number in full. -/
def text : Number → String
  | int value => toString value
  | float value => Decimal.exact value

/-- The double that stands for the number; none when the number is too large for one. -/
def double? : Number → Option Float
  | int value => Decimal.ofInt? value
  | float value => some value

/-- The double nearest to the number, infinite when the number is too large for one. -/
def toFloat : Number → Float
  | int value =>
    let size := Decimal.nearest value.natAbs 0
    if value < 0 then -size else size
  | float value => value

end Number

end PlaneSketch
