import ControlPlane.Number.Reading
import ControlPlane.Text.Blank

/-!
# What the kernel tells

A Linux kernel tells about the node and the process in small texts: lines that begin with the name
of a figure, or figures one after the other.  Figures are words of sixty-four bits, and so is what
is made of them: where a product or a sum does not fit in a word, the arithmetic is checked and the
program panics.

* `Overflow`, `Told` — a figure, none, or a panic.
* `memoryOf?`, `threadsOf?` — figures by name.
* `loadOf?`, `ticksOf?` — figures by position.
-/

namespace ControlPlane.Kernel

/-! ## Words -/

/-- The panic of a program whose product or sum does not fit in a word. -/
inductive Overflow where
  | overflow
  deriving DecidableEq, Repr

/-- **What is made of a text**: a figure, none where none is told, or a panic in the course of it. -/
abbrev Told (α : Type) := OptionT (Except Overflow) α

namespace Told

/-- A figure that is made of others. -/
def ofChecked {α : Type} (result : Except Overflow α) : Told α := OptionT.mk (result.map some)

/-- A figure that is read. -/
def ofOption {α : Type} (read : Option α) : Told α := OptionT.mk (.ok read)

end Told

/-- A number as a word. -/
def fit (n : Nat) : Except Overflow UInt64 :=
  if n < 0x10000000000000000 then .ok (UInt64.ofNat n) else .error .overflow

/-- A word of sixty-four bits in decimals. -/
def word? (s : List Char) : Option UInt64 := (Decimal.count? 0x10000000000000000 s).map UInt64.ofNat

/-- What follows a name at the beginning of a line, in the first line that begins with it. -/
def afterName? (name : String) (text : List Char) : Option (List Char) :=
  (lines text).findSome? (dropStart? name.toList)

/-! ## Figures by name -/

/-- A text without the `kB` at its end, however often it stands there. -/
def dropKilobytes (s : List Char) : List Char := (dropBk s.reverse).reverse
where
  /-- The same for a text that is read backwards. -/
  dropBk : List Char → List Char
    | 'B' :: 'k' :: rest => dropBk rest
    | s => s

/-- A figure that counts kilobytes, in bytes. -/
def kilobytes? (name : String) (text : List Char) : Told UInt64 := do
  let rest ← Told.ofOption (afterName? name text)
  let n ← Told.ofOption (word? (trimBlank (dropKilobytes (trimBlank rest))))
  Told.ofChecked (fit (n.toNat * 1024))

/-- **All memory and the memory that is available**, in bytes. -/
def memoryOf? (text : List Char) : Told (UInt64 × UInt64) := do
  let total ← kilobytes? "MemTotal:" text
  let available ← kilobytes? "MemAvailable:" text
  return (total, available)

/-- **The number of threads** of the process. -/
def threadsOf? (text : List Char) : Option UInt64 :=
  (afterName? "Threads:" text).bind fun rest => word? (trimBlank rest)

/-! ## Figures by position -/

/-- **The load average** over one minute: the first word. -/
def loadOf? (text : List Char) : Option Double :=
  (words text).head?.bind Double.parse?

/-- **The ticks that the process has run**, in its own code and in the kernel's.  The name of the
process stands in parentheses and may hold some itself, so that figures are counted from the last
closing one on. -/
def ticksOf? (text : List Char) : Told UInt64 := do
  let (_, rest) ← Told.ofOption (splitLast ')' text)
  let fields := words rest
  let user ← Told.ofOption (fields[11]?.bind word?)
  let system ← Told.ofOption (fields[12]?.bind word?)
  Told.ofChecked (fit (user.toNat + system.toNat))

end ControlPlane.Kernel
