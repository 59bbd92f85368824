import ControlPlane.Accumulator.Basic

/-!
# Writing to counters

An execution writes to its counters while others read them.  A write either adds to a counter,
which it creates when there is none, or puts a value in its place.
-/

namespace ControlPlane

/-- A write to one counter. -/
inductive SinkWrite where
  | add (name : String) (value : Accumulator)
  | set (name : String) (value : Accumulator)
  deriving DecidableEq, Repr

/-- **A write carried out.** -/
def SinkWrite.apply (a : Accumulators) : SinkWrite → Accumulators
  | add name value =>
    match a.find? name with
    | some current => a.insert name (current.merge value)
    | none => a.insert name value
  | set name value => a.insert name value

/-- Writes carried out one after the other. -/
def Accumulators.write (a : Accumulators) (writes : List SinkWrite) : Accumulators :=
  writes.foldl SinkWrite.apply a

end ControlPlane
