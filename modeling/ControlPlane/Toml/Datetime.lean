import ControlPlane.Number.Decimal

/-!
# Dates and times

A TOML date, time, or both, the latter with or without an offset.  Days are checked against the
length of their month; a second may be the sixtieth, for leap seconds.

* `Datetime.read` — a date or time cut off a text.
* `Datetime.text` — its one written form.
-/

namespace ControlPlane.Toml

/-- A day of the calendar. -/
structure Date where
  year : Nat
  month : Nat
  day : Nat
  deriving DecidableEq, Repr

/-- A time of the day. -/
structure Time where
  hour : Nat
  minute : Nat
  second : Nat
  nanosecond : Nat
  deriving DecidableEq, Repr

/-- How far a clock is ahead of universal time. -/
inductive Offset where
  | universal
  | minutes (m : Int)
  deriving DecidableEq, Repr

/-- A date, a time, or a date with a time. -/
inductive Datetime where
  | date (d : Date)
  | time (t : Time)
  | both (d : Date) (t : Time) (offset : Option Offset)
  deriving DecidableEq, Repr

namespace Datetime

/-! ## Writing -/

def dateText (d : Date) : List Char :=
  Decimal.padded 4 d.year ++ '-' :: Decimal.padded 2 d.month ++ '-' :: Decimal.padded 2 d.day

/-- The digits of a fraction of a second, without the zeros at its end. -/
def fractionText (nanosecond : Nat) : List Char :=
  if nanosecond = 0 then []
  else '.' :: ((Decimal.padded 9 nanosecond).reverse.dropWhile (· = '0')).reverse

def timeText (t : Time) : List Char :=
  Decimal.padded 2 t.hour ++ ':' :: Decimal.padded 2 t.minute ++ ':' :: Decimal.padded 2 t.second
    ++ fractionText t.nanosecond

def offsetText : Offset → List Char
  | .universal => ['Z']
  | .minutes m =>
    (if m < 0 then '-' else '+') :: Decimal.padded 2 (m.natAbs / 60)
      ++ ':' :: Decimal.padded 2 (m.natAbs % 60)

/-- **The written form.** -/
def text : Datetime → List Char
  | date d => dateText d
  | time t => timeText t
  | both d t offset =>
    dateText d ++ 'T' :: timeText t ++ (match offset with | some o => offsetText o | none => [])

/-! ## Reading -/

/-- A number of exactly `width` digits, from `low` to `high`. -/
def readNumber (width low high : Nat) (cs : List Char) : Option (Nat × List Char) :=
  let digits := cs.take width
  let n := Decimal.toNat digits
  if digits.length = width && digits.all Decimal.isDigit && low ≤ n && n ≤ high then
    some (n, cs.drop width)
  else none

/-- The rest of a text that begins with `c`. -/
def readMark (c : Char) : List Char → Option (List Char)
  | [] => none
  | d :: rest => if d = c then some rest else none

def isLeap (year : Nat) : Bool := year % 4 = 0 && (year % 100 ≠ 0 || year % 400 = 0)

/-- The number of days of a month. -/
def daysOf (year month : Nat) : Nat :=
  if month = 2 then (if isLeap year then 29 else 28)
  else if month = 4 || month = 6 || month = 9 || month = 11 then 30
  else 31

def readDate (cs : List Char) : Option (Date × List Char) := do
  let (year, cs) ← readNumber 4 0 9999 cs
  let cs ← readMark '-' cs
  let (month, cs) ← readNumber 2 1 12 cs
  let cs ← readMark '-' cs
  let (day, cs) ← readNumber 2 1 31 cs
  if day ≤ daysOf year month then some (⟨year, month, day⟩, cs) else none

/-- The fraction of a second, if a point and a digit follow; digits after the ninth are dropped. -/
def readFraction (cs : List Char) : Nat × List Char :=
  match cs with
  | '.' :: rest =>
    let digits := rest.takeWhile Decimal.isDigit
    if digits.isEmpty then (0, cs)
    else
      let kept := digits.take 9
      (Decimal.toNat (kept ++ List.replicate (9 - kept.length) '0'), rest.drop digits.length)
  | _ => (0, cs)

def readTime (cs : List Char) : Option (Time × List Char) := do
  let (hour, cs) ← readNumber 2 0 23 cs
  let cs ← readMark ':' cs
  let (minute, cs) ← readNumber 2 0 59 cs
  let cs ← readMark ':' cs
  let (second, cs) ← readNumber 2 0 60 cs
  let (nanosecond, cs) := readFraction cs
  some (⟨hour, minute, second, nanosecond⟩, cs)

def readOffset (cs : List Char) : Option (Offset × List Char) :=
  match cs with
  | [] => none
  | sign :: cs =>
    if sign = 'Z' || sign = 'z' then some (.universal, cs)
    else if sign = '+' || sign = '-' then do
      let (hours, cs) ← readNumber 2 0 23 cs
      let cs ← readMark ':' cs
      let (minutes, cs) ← readNumber 2 0 59 cs
      let total : Int := (60 * hours + minutes : Nat)
      some (.minutes (if sign = '-' then -total else total), cs)
    else none

/-- The time that may follow a date, after a `T` or a blank. -/
def readTimeAfterDate (cs : List Char) : Option ((Time × Option Offset) × List Char) :=
  match cs with
  | [] => none
  | mark :: cs =>
    if mark = 'T' || mark = 't' || mark = ' ' then do
      let (t, cs) ← readTime cs
      match readOffset cs with
      | some (o, cs) => some ((t, some o), cs)
      | none => some ((t, none), cs)
    else none

/-- **A date or time cut off a text.** -/
def read (cs : List Char) : Option (Datetime × List Char) :=
  match readDate cs with
  | some (d, cs) =>
    match readTimeAfterDate cs with
    | some ((t, offset), cs) => some (both d t offset, cs)
    | none => some (date d, cs)
  | none => (readTime cs).map fun (t, cs) => (time t, cs)

end Datetime

end ControlPlane.Toml
