import ControlPlane.Json.Decoder
import ControlPlane.Number.Fixed

/-!
# Accumulators

A counter that an execution keeps: a whole number of sixty-four bits, or a double.  Whole numbers
add up to a whole number and stop at the ends of their range; as soon as a double takes part, the
sum is a double.

* `Accumulator.merge` — the sum of two counters.
* `Accumulators` — the counters of one job, by name.
-/

namespace ControlPlane

/-- A counter.  A whole number lies between `minLong` and `maxLong`. -/
inductive Accumulator where
  | long (n : Int)
  | double (d : Double)
  deriving DecidableEq, Repr, Inhabited

/-- The counters of a job, by name. -/
abbrev Accumulators := Table Accumulator

namespace Accumulator

/-! ## Sums -/

/-- The smallest whole number of a counter. -/
def minLong : Int := -0x8000000000000000

/-- The largest whole number of a counter. -/
def maxLong : Int := 0x7FFFFFFFFFFFFFFF

/-- A whole number, moved to the nearer end of the range when it lies outside. -/
def clamp (n : Int) : Int := max minLong (min maxLong n)

/-- The value as a double. -/
def toDouble : Accumulator → Double
  | long n => Double.ofInt n
  | double d => d

/-- The value as a whole number, for a whole number. -/
def toLong? : Accumulator → Option Int
  | long n => some n
  | double _ => none

/-- **The sum of two counters.** -/
def merge : Accumulator → Accumulator → Accumulator
  | long a, long b => long (clamp (a + b))
  | a, b => double (a.toDouble.add b.toDouble)

/-! ## Texts -/

/-- The value in a message: a double with four places. -/
def label : Accumulator → String
  | long n => String.ofList (Decimal.ofInt n)
  | double d => String.ofList (d.fixed 4)

def toJson : Accumulator → Json.Value
  | long n => .object [("kind", .string "long"), ("value", .number (.int n))]
  | double d => .object [("kind", .string "double"), ("value", .number (.double d))]

/-- Reads a counter: its kind is the tag of its value. -/
def decoder : Json.Decoder Accumulator :=
  .tagged "kind" "value"
    [("long", fun depth t => (Json.Decoder.integer minLong maxLong depth t).map long),
      ("double", fun depth t => (Json.Decoder.double depth t).map double)]

end Accumulator

namespace Accumulators

def toJson (a : Accumulators) : Json.Value :=
  .object (a.map Accumulator.toJson).entries

def decoder : Json.Decoder Accumulators := .table Accumulator.decoder

end Accumulators

end ControlPlane
