import PojoGraph.Command.Basic
import PojoGraph.Document.Load
import PojoGraph.Json.Writer
import PojoGraph.Report
import PojoGraph.Run
import PojoGraph.Settings.Decode
import PojoGraph.Yaml.Writer

/-!
# Outcomes of commands

A command looks at files and then either is done or wants a file written. What it looks at is
known beforehand, so that the files can be fetched one after the other.

## Main definitions

* `Complaint`, `Complaint.text` — a failure as it is told.
* `Outcome` — exit code and output.
* `Action` — what is left to do after looking at files.
* `Invocation.act` — the action of an invocation.
* `Invocation.pathsRead` — the files it looks at.
-/

namespace PojoGraph

/-! ## Complaints -/

/-- A failure: what failed, and the causes, each with what caused it behind it. -/
structure Complaint where
  summary : String
  causes : List String := []
  deriving DecidableEq, Repr, Inhabited

namespace Complaint

/-- A text with `lead` in front and its further lines moved by `indent`. -/
def hang (lead indent text : String) : String :=
  lead ++ Text.joinWith ("\n" ++ indent)
    ((text.toList.splitOnP (· == '\n')).map String.ofList)

/-- A number, the last digit in the fifth column, and a colon. -/
def ordinal (n : Nat) : String :=
  let digits := toString n
  String.ofList (List.replicate (5 - digits.length) ' ') ++ digits ++ ": "

/-- The lines of the causes. They are numbered if there are several. -/
def causeLines : List String → List String
  | [] => []
  | [cause] => [hang "    " "    " cause]
  | causes => causes.mapIdx fun i cause => hang (ordinal i) "       " cause

/-- A failure as it is told. -/
def text (complaint : Complaint) : String :=
  "Error: " ++ complaint.summary ++ "\n"
    ++ if complaint.causes.isEmpty then ""
      else "\nCaused by:\n" ++ Text.joinWith "\n" (causeLines complaint.causes) ++ "\n"

end Complaint

/-! ## Outcomes -/

/-- Exit code and output. -/
structure Outcome where
  code : Nat := 0
  out : String := ""
  err : String := ""
  deriving DecidableEq, Repr, Inhabited

/-- The outcome of a failure. -/
def Complaint.outcome (complaint : Complaint) : Outcome where
  code := 1
  err := complaint.text

/-- What is left to do after looking at files. -/
inductive Action where
  | finish (outcome : Outcome)
  /-- A file has to be written; the outcome depends on whether that fails. -/
  | write (path text : String) (outcome : Option FileFault → Outcome)

/-! ## Settings -/

/-- Why settings cannot be had. -/
inductive SettingsError where
  | unreadable (path : String) (fault : FileFault)
  | malformed (path : String)
  deriving DecidableEq, Repr, Inhabited

/-- The texts of an error and of what caused it. -/
def SettingsError.chain : SettingsError → List String
  | unreadable path fault =>
    ["failed to read config " ++ path ++ ": " ++ fault.message, fault.message]
  | malformed path =>
    ["failed to parse config " ++ path ++ ": the text holds no settings",
      "the text holds no settings"]

/-- The settings in a file, or the default ones where there is none. -/
def Settings.load (files : FileView) (path : String) : Except SettingsError Settings :=
  if !files.isPresent path then .ok {}
  else match files.read path with
    | .error fault => .error (.unreadable path fault)
    | .ok text =>
      match read? text with
      | some settings => .ok settings
      | none => .error (.malformed path)

/-- The texts of an error and of what caused it. -/
def RunError.chain : RunError → List String
  | invalidPattern error =>
    let message := "invalid excluded schema pattern '" ++ error.pattern ++ "': no pattern"
    ["settings error: " ++ message, message, "no pattern"]
  | failure f => ["resolve error: " ++ f.message, f.message]

/-! ## Commands -/

namespace Invocation

/-- A run and the documents it was about. -/
structure Finding where
  documents : DocumentSet
  result : PojoSet

/-- The main document of a run: the one that is asked for, or the one that the settings name. -/
def inputPath (input : Option String) (settings : Settings) : String :=
  input.getD settings.input

/-- Loads settings and documents and makes the run. -/
def find (files : FileView) (config : String) (input : Option String) :
    Except Complaint Finding := do
  let settings ← (Settings.load files config).mapError fun error =>
    ⟨"failed to load settings from " ++ config, error.chain⟩
  let path := inputPath input settings
  let documents ← (DocumentSet.load files path).2.mapError fun error =>
    ⟨"failed to load " ++ path, error.chain⟩
  let result ← (mapDocumentSet settings documents).2.mapError fun error =>
    ⟨"failed to resolve schemas of " ++ path, error.chain⟩
  return ⟨documents, result⟩

/-- The lines that `validate` prints. -/
def validationLines (found : Finding) : List String :=
  let info := found.documents.main
  let warnings := found.result.warnings
  ["Valid OpenAPI " ++ info.openapi ++ " spec: " ++ info.info.title,
    "  Version: " ++ info.info.version,
    "  Documents: " ++ toString found.documents.documents.length,
    "  Schemas: " ++ toString found.documents.schemaCount,
    "  Pojos: " ++ toString found.result.pojos.length]
  ++ (if warnings.isEmpty then []
    else ("  Warnings: " ++ toString warnings.length) :: warnings.map ("    - " ++ ·.message))
  ++ ["Validation successful."]

/-- What `inspect` prints. -/
def inspection (format : Format) (found : Finding) : String :=
  let report := found.documents.report found.result
  match format with
  | .yaml => Yaml.write report
  | .json => report.pretty ++ "\n"

/-- The outcome of a command that tells what a run has found. -/
def tell (found : Except Complaint Finding) (outcome : Finding → Outcome) : Action :=
  .finish <| match found with
    | .ok found => outcome found
    | .error complaint => complaint.outcome

/-- The outcome of writing a new configuration file. -/
def initOutcome (path : String) : Option FileFault → Outcome
  | none => { err := "Created " ++ path ++ "\n" }
  | some fault => Complaint.outcome ⟨"failed to write " ++ path, [fault.message]⟩

/-- The action of an invocation. -/
def act (files : FileView) (invocation : Invocation) : Action :=
  match invocation.command with
  | .validate input => tell (find files invocation.config input) fun found =>
      { err := String.join ((validationLines found).map (· ++ "\n")) }
  | .inspect input format => tell (find files invocation.config input) fun found =>
      { out := inspection format found }
  | .init force =>
    if files.isPresent invocation.config && !force then
      .finish (Complaint.outcome
        ⟨invocation.config ++ " already exists. Use --force to overwrite.", []⟩)
    else .write invocation.config Settings.template (initOutcome invocation.config)

/-! ## Files -/

/-- The files that a run looks at, as far as the files known so far tell. -/
def runPaths (files : FileView) (config : String) (input : Option String) : List String :=
  match Settings.load files config with
  | .error _ => [config]
  | .ok settings =>
    let path := inputPath input settings
    match Document.load files path with
    | .error _ => [config, path]
    | .ok main => config :: path :: (DocumentSet.gather files path main).reads.map
        (Path.join (Path.parent path))

/-- The files that an invocation looks at, as far as the files known so far tell. -/
def pathsRead (files : FileView) (invocation : Invocation) : List String :=
  match invocation.command with
  | .validate input | .inspect input _ => runPaths files invocation.config input
  | .init _ => [invocation.config]

end Invocation

end PojoGraph
