import ControlPlane.Json.Decoder

/-!
# Health levels

How much a node says about its health.
-/

namespace ControlPlane

/-- How much the monitor of a node logs. -/
inductive HealthLevel where
  /-- Nothing; the monitor is never started. -/
  | off
  /-- The samples above the threshold. -/
  | silent
  /-- Every sample. -/
  | noisy
  deriving DecidableEq, Repr, Inhabited

namespace HealthLevel

def all : List HealthLevel := [.off, .silent, .noisy]

def name : HealthLevel → String
  | .off => "off"
  | .silent => "silent"
  | .noisy => "noisy"

/-- **The level that a text names**, in upper or lower case. -/
def parse? (text : String) : Option HealthLevel :=
  all.find? fun l => l.name.toList = text.toList.map Char.toLower

/-- The message about a text that names no level. -/
def unknown (text : String) : String :=
  s!"unknown health level '{text}' (expected off, silent or noisy)"

def decoder : Json.Decoder HealthLevel := .choice (all.map fun l => (l.name, l))

end HealthLevel

end ControlPlane
