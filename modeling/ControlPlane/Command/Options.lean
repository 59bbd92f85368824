import ControlPlane.Text.Blank

/-!
# Command lines

The arguments of a program after the names of its commands: options with a value each, in any order.
An option is given by its long name or by its letter, and its value follows in the same argument or
in the next one.

* `OptionSpec` — what options there are.
* `readOptions` — the options that arguments give.
-/

namespace ControlPlane.Command

/-! ## Options -/

/-- An option with a value. -/
structure OptionSpec where
  name : String
  letter : Option Char
  /-- Whether it may be given several times. -/
  repeats : Bool
  deriving DecidableEq, Repr

/-- What a command line asks for: a program to run, or only a word about it. -/
inductive Invocation (α : Type) where
  | run (arguments : α)
  | help
  | version
  /-- The arguments make no sense. -/
  | misuse

/-- The options that are given, in order, by their long names. -/
abbrev Given := List (String × String)

/-- Whether an argument looks like an option, and so is no value of one that stands before it. -/
def looksLikeOption (argument : String) : Bool :=
  argument.toList.head? = some '-' && argument ≠ "-"

/-- An argument taken apart: which option it gives, and the value where it stands beside it. -/
def splitArgument (specs : List OptionSpec) (argument : String) :
    Option (OptionSpec × Option String) :=
  match argument.toList with
  | '-' :: '-' :: long =>
    let (name, value) := match splitOnce ['='] long with
      | some (name, value) => (name, some (String.ofList value))
      | none => (long, none)
    (specs.find? fun s => s.name = String.ofList name).map fun s => (s, value)
  | '-' :: letter :: rest =>
    let value := match rest with
      | [] => none
      | '=' :: value => some (String.ofList value)
      | value => some (String.ofList value)
    (specs.find? fun s => s.letter = some letter).map fun s => (s, value)
  | _ => none

/-- **The options that arguments give**: a word about the program is given as soon as it is asked
for, and an unknown option, one without its value, or one given twice makes no sense. -/
def readOptions (specs : List OptionSpec) (given : Given) : List String → Invocation Given
  | [] => .run given
  | argument :: rest =>
    if argument = "--" then if rest.isEmpty then .run given else .misuse
    else if argument = "--help" || argument = "-h" then .help
    else if argument = "--version" || argument = "-V" then .version
    else match splitArgument specs argument with
      | none => .misuse
      | some (spec, beside) =>
        if !spec.repeats && (given.lookup spec.name).isSome then .misuse
        else match beside with
          | some value => readOptions specs (given ++ [(spec.name, value)]) rest
          | none =>
            match rest with
            | [] => .misuse
            | value :: rest =>
              if looksLikeOption value then .misuse
              else readOptions specs (given ++ [(spec.name, value)]) rest

/-! ## Values -/

/-- The arguments of a program, made of the options. -/
def Invocation.bind (i : Invocation α) (f : α → Option β) : Invocation β :=
  match i with
  | .run a => match f a with
    | some b => .run b
    | none => .misuse
  | .help => .help
  | .version => .version
  | .misuse => .misuse

/-- The value of an option that has to be given. -/
def required (g : Given) (name : String) : Option String := g.lookup name

/-- The path that an option gives; a path is not empty. -/
def path? (g : Given) (name : String) (missing : Option String) : Option String :=
  match g.lookup name with
  | some path => if path.isEmpty then none else some path
  | none => missing

/-- The values of an option that may be given several times. -/
def allOf (g : Given) (name : String) : List String :=
  (g.filter fun o => o.1 = name).map (·.2)

end ControlPlane.Command
