import DataQuality.Files.Route
import DataQuality.Testing

/-!
# Configuration

The settings that packages are tested with. A configuration file is a JSON record of them; every
setting has a default. The rules and the codelist are in files that the settings name.
-/
namespace DataQuality

open Files (LoadError Path Route Tree)

/-- The settings. -/
structure Config where
  /-- The folder of the store. -/
  dataDir : String
  rulesFile : String
  /-- The folder of queued jobs. -/
  queueDir : String
  codelistFile : Option String
  /-- Whether earlier results of a package are deleted before it is tested. -/
  removeResults : Bool
  /-- The levels whose rules are compiled. -/
  levels : List Level
  metrics : List MetricBinding
  /-- Whether each queued job is tested in a process of its own. -/
  isolated : Bool
  /-- How long to wait between two looks at an empty queue, in milliseconds. -/
  pollInterval : Nat
  organisationSelector : String
  deriving DecidableEq

namespace Config

/-- The default settings. -/
def standard : Config where
  dataDir := ".dq"
  rulesFile := "rules.txt"
  queueDir := ".dq/queue"
  codelistFile := none
  removeResults := false
  levels := RuleSet.defaultLevels
  metrics := []
  isolated := false
  pollInterval := 1000
  organisationSelector := TestPlan.defaultOrganisationSelector

/-- The field names of the settings. -/
def fields : List String :=
  ["data_dir", "rules_file", "queue_dir", "codelist_file", "remove_results", "compile_levels",
    "metrics", "use_subprocess", "poll_interval_ms", "organisation_selector"]

/-- Reads the settings. -/
def ofJson? (j : Json) : Option Config := do
  let fs ← j.asRecord? fields
  let text (name : String) (default : String) := fs.withDefault fields name default Json.asString?
  let flag (name : String) := fs.withDefault fields name false Json.asBool?
  let dataDir ← text "data_dir" standard.dataDir
  let rulesFile ← text "rules_file" standard.rulesFile
  let queueDir ← text "queue_dir" standard.queueDir
  let codelistFile ← fs.withDefault fields "codelist_file" none (Json.asOption? Json.asString?)
  let removeResults ← flag "remove_results"
  let levels ← fs.withDefault fields "compile_levels" standard.levels (Json.asList? Json.asLevel?)
  let metrics ← fs.withDefault fields "metrics" [] (Json.asList? MetricBinding.ofJson?)
  let isolated ← flag "use_subprocess"
  let pollInterval ← fs.withDefault fields "poll_interval_ms" standard.pollInterval Json.asNat64?
  let organisationSelector ← text "organisation_selector" standard.organisationSelector
  pure ⟨dataDir, rulesFile, queueDir, codelistFile, removeResults, levels, metrics, isolated,
    pollInterval, organisationSelector⟩

def toJson (c : Config) : Json := Json.record [
  ("data_dir", Json.ofString c.dataDir),
  ("rules_file", Json.ofString c.rulesFile),
  ("queue_dir", Json.ofString c.queueDir),
  ("codelist_file", Json.ofOption Json.ofString c.codelistFile),
  ("remove_results", .bool c.removeResults),
  ("compile_levels", .array (c.levels.map Json.ofLevel)),
  ("metrics", .array (c.metrics.map MetricBinding.toJson)),
  ("use_subprocess", .bool c.isolated),
  ("poll_interval_ms", Json.ofInt c.pollInterval),
  ("organisation_selector", Json.ofString c.organisationSelector)]

/-- Reads the text of a configuration file. -/
def read? (s : String) : Option Config := (Json.parse s).bind ofJson?

/-- Loads the configuration file with a written path, or the default settings if none is given. -/
def load (t : Tree) (folder : Path) : Option String → Except LoadError Config
  | none => .ok standard
  | some path => Files.load read? t ⟨folder, path⟩

/-- What packages are tested with under these settings. -/
def plan (c : Config) (rules : RuleSet) (codelist : Option Codelist) :
    Except DuplicateInfoId TestPlan := do
  pure ⟨rules, c.removeResults, c.organisationSelector, ← MetricRegistry.ofList c.metrics, codelist⟩

end Config

namespace RuleDefinition

def ofJsonText? (s : String) : Option (List RuleDefinition) :=
  (Json.parse s).bind (Json.asList? Json.asRule?)

/-- Reads the rules of a file: a JSON array if its name says so, and a plain source otherwise. -/
def readFile? (isJson : Bool) (s : String) : Option (List RuleDefinition) :=
  if isJson then ofJsonText? s else some (ofLines s)

def load (t : Tree) (folder : Path) (path : String) : Except LoadError (List RuleDefinition) :=
  let r : Route := ⟨folder, path⟩
  Files.load (readFile? r.isJson) t r

end RuleDefinition

namespace Codelist

def read? (s : String) : Option Codelist := (Json.parse s).bind ofJson?

def load (t : Tree) (folder : Path) (path : String) : Except LoadError Codelist :=
  Files.load read? t ⟨folder, path⟩

end Codelist

end DataQuality
