import ControlPlane.Client.Connect
import ControlPlane.Command.Options
import ControlPlane.Json.Pretty

/-!
# Submitting a job

One job from beginning to end: its resources are staged, it is registered, deployed, sent and
started, its outcome is waited for, and in the end it is destroyed, whatever came before.

* `Submission` — what is submitted.
* `Submission.run` — the whole way on a site.
* `Submission.perform` — the same as a program, with its files and its report.
-/

namespace ControlPlane.Command

/-! ## What is submitted -/

/-- A job with the places of everything that belongs to it. -/
structure Submission where
  config : String
  name : String
  graph : String
  codeRoot : String
  code : List String
  archives : List String
  data : List String
  deriving DecidableEq, Repr

namespace Submission

def options : List OptionSpec :=
  [⟨"config", some 'c', false⟩, ⟨"name", some 'n', false⟩, ⟨"graph", some 'g', false⟩,
    ⟨"code-root", none, false⟩, ⟨"code", none, true⟩, ⟨"archive", none, true⟩,
    ⟨"data", none, true⟩]

/-- The submission that options give. -/
def ofOptions (g : Given) : Option Submission := do
  return { config := ← path? g "config" (some "gridjob.toml")
           name := ← required g "name"
           graph := ← path? g "graph" none
           codeRoot := ← path? g "code-root" (some ".")
           code := allOf g "code"
           archives := allOf g "archive"
           data := allOf g "data" }

/-! ## The way of the job -/

/-- Additions to a bundle, one after the other. -/
def addEach (h : Handle) (add : String → Bundle → Except BundleError (Bool × Bundle)) :
    List String → Except JobError Handle
  | [] => .ok h
  | locator :: rest =>
    match h.addTo (add locator) with
    | (.ok _, h) => addEach h add rest
    | (.error e, _) => .error e

/-- The handle with all resources in its bundle. -/
def stage (a : Submission) (files : FileTree) (h : Handle) : Except JobError Handle :=
  match h.addTo fun b => b.addCode ⟨a.codeRoot.toList⟩ files a.code with
  | (.error e, _) => .error e
  | (.ok _, h) => do
    let h ← addEach h (fun locator b => b.addLocated files locator none .archive) a.archives
    addEach h (fun locator b => b.addLocated files locator none .data) a.data

/-- What is told about a job that has come to its end. -/
structure Report where
  job : String
  outcome : Job.Outcome
  accumulators : Accumulators

/-- The report in the order of its keys. -/
def Report.toJson (r : Report) : Json.Value :=
  .object [("accumulators", r.accumulators.toJson), ("job", .string r.job),
    ("outcome", r.outcome.toJson)]

/-- The outcome of an execution, after everything that can go on has gone on. -/
def awaitOutcome (h : Handle) (s : Site) : Except JobError Job.Outcome × Handle × Site :=
  let s := { s with cluster := s.cluster.settle s.now }
  let h := h.observe s.cluster
  match h.watch with
  | some (.ended result) => (result, h, s)
  | _ => (.error (.workerPool h.job Intent.cancelled), h, s)

/-- **From registration to the report.** -/
def runToCompletion (h : Handle) (s : Site) (config : JobConfig) (graph : Graph) :
    Except JobError Report × Handle × Site :=
  match h.init s config with
  | (.error e, h, s) => (.error e, h, s)
  | (.ok _, h, s) =>
    match h.submit s graph with
    | (.error e, h, s) => (.error e, h, s)
    | (.ok _, h, s) =>
      match h.execute s with
      | (.error e, h, s) => (.error e, h, s)
      | (.ok _, h, s) =>
        match awaitOutcome h s with
        | (.error e, h, s) => (.error e, h, s)
        | (.ok outcome, h, s) =>
          match h.accumulators s with
          | (.error e, s) => (.error e, h, s)
          | (.ok a, s) => (.ok ⟨h.job, outcome, a⟩, h, s)

/-- **The whole way**: the handle, its resources, the job to its end, and its destruction, which
is tried in any case and whose failure does not count. -/
def run (a : Submission) (files : FileTree) (config : ClientConfig) (graph : Graph) (s : Site) :
    Except JobError Report × Site :=
  match (Handle.new a.name).bind (a.stage files) with
  | .error e => (.error e, s)
  | .ok h =>
    let (result, h, s) := runToCompletion h s (config.resolve a.name) graph
    let (_, _, s) := h.destroy s
    (result, s)

/-! ## As a program -/

/-- Why a submission failed. -/
inductive Failure where
  | config (e : ConfigError)
  | graphFile (e : FileError)
  | graph (fault : Json.Fault)
  | cluster (e : ClusterError)
  | job (e : JobError)
  /-- The execution came to another end than it should. -/
  | incomplete (name : String)

def Failure.message : Failure → String
  | .config e => e.message
  | .graphFile e => e.message
  | .graph fault => faultText fault
  | .cluster e => e.message
  | .job e => e.message
  | .incomplete name => s!"job {name} did not complete"

/-- The configuration in a file, or the standard one where there is none. -/
def loadConfig (a : Submission) (files : FileTree) : Except ConfigError ClientConfig :=
  if files.pathExists a.config.toList then ClientConfig.ofFile? files a.config else .ok .standard

/-- The graph in a file. -/
def loadGraph (a : Submission) (files : FileTree) : Except Failure Graph := do
  let text ← (files.readText a.graph.toList).mapError Failure.graphFile
  (Json.decode Graph.decoder text.toList).mapError Failure.graph

/-- The cluster to which a configuration leads: a new one in the same process, or one behind an
address at which `network` says what there is. -/
def siteOf (config : ClientConfig) (network : ConnectError) (now : Nat) : Site :=
  let link := match config.cluster.mode with
    | .inProcess => .inProcess
    | .remote => Link.toNowhere config.cluster.address network
  ⟨⟨link, []⟩, .ofStore .empty acknowledge, now⟩

/-- **A submission as a program**: the text of its report, if there is one, and its failure. -/
def perform (a : Submission) (files : FileTree) (network : ConnectError) (now : Nat) :
    Option String × Option Failure :=
  match a.loadConfig files with
  | .error e => (none, some (.config e))
  | .ok config =>
    match a.loadGraph files with
    | .error e => (none, some e)
    | .ok graph =>
      match (a.run files config graph (siteOf config network now)).1 with
      | .error e => (none, some (.job e))
      | .ok report =>
        (some (report.toJson.pretty ++ "\n"),
          if report.outcome.isSuccess then none else some (.incomplete a.name))

end Submission

end ControlPlane.Command
