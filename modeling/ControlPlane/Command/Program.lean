import ControlPlane.Command.Scaffold
import ControlPlane.Command.Submit

/-!
# The program

What the client's program does with its arguments.

* `Request`, `Request.ofArguments` — the commands.
* `Request.perform` — a command carried out on a tree of files.
-/

namespace ControlPlane.Command

/-- A command. -/
inductive Request where
  | submit (a : Submission)
  | scaffold (a : Scaffold)

/-- **The command that arguments give.** -/
def Request.ofArguments : List String → Invocation Request
  | [] => .misuse
  | "submit" :: rest =>
    (readOptions Submission.options [] rest).bind fun g => (Submission.ofOptions g).map .submit
  | ["config"] => .misuse
  | "config" :: "init" :: rest =>
    (readOptions Scaffold.options [] rest).bind fun g => (Scaffold.ofOptions g).map .scaffold
  | "config" :: argument :: _ => general argument
  | argument :: _ => general argument
where
  /-- What stands where a command should stand. -/
  general (argument : String) : Invocation Request :=
    if argument = "--help" || argument = "-h" || argument = "help" then .help
    else if argument = "--version" || argument = "-V" then .version
    else .misuse

/-- What a program leaves behind. -/
structure Result where
  exitCode : Nat
  output : String
  /-- The message of its failure. -/
  error : Option String
  files : FileTree

/-- The exit code of a failure. -/
def failed : Nat := 1

/-- The exit code of arguments that make no sense. -/
def misused : Nat := 2

/-- **A command carried out.** -/
def Request.perform (files : FileTree) (network : ConnectError) (now : Nat) : Request → Result
  | .submit a =>
    let (output, failure) := a.perform files network now
    ⟨if failure.isSome then failed else 0, output.getD "", failure.map (·.message), files⟩
  | .scaffold a =>
    match a.perform files with
    | .ok (output, files) => ⟨0, output, none, files⟩
    | .error e => ⟨failed, "", some e.message, files⟩

/-- The version of the program. -/
def versionText : String := "gridjob 0.1.0\n"

/-- How the program is used. -/
def helpText : String :=
  "Usage: gridjob <COMMAND>\n\nCommands:\n"
    ++ "  submit  Deploy resources, run a graph to completion, then destroy the job\n"
    ++ "  config  Manage gridjob.toml\n"

/-- **The program** on its arguments. -/
def runProgram (arguments : List String) (files : FileTree) (network : ConnectError) (now : Nat) :
    Result :=
  match Request.ofArguments arguments with
  | .run r => r.perform files network now
  | .help => ⟨0, helpText, none, files⟩
  | .version => ⟨0, versionText, none, files⟩
  | .misuse => ⟨misused, "", none, files⟩

end ControlPlane.Command
