import Checkup.Decimal.Fixed
import Checkup.Examination
import Checkup.Json.Writer

/-!
# Diagnoses for programs

A diagnosis as a value, and that value as JSON.
-/

namespace Checkup

def version : String := "0.1.0"

def Finding.toValue (finding : Finding) : Value :=
  .table
    [("file_path", .str finding.file), ("plugin", .str finding.plugin),
      ("rule", .str finding.rule), ("severity", finding.severity.toValue),
      ("message", .str finding.message), ("help", .str finding.help), ("line", .int finding.line),
      ("column", .int finding.column), ("category", .str finding.category)]

def Health.toValue (health : Health) : Value :=
  .table [("score", .int health.score), ("label", .str health.grade.text)]

def Project.toValue (project : Project) : Value :=
  .table
    [("vue_version", .ofOption .str project.vueVersion), ("framework", .str project.framework),
      ("framework_display_name", .str project.frameworkName),
      ("has_typescript", .bool project.hasTypeScript), ("has_pinia", .bool project.hasPinia),
      ("has_vuex", .bool project.hasVuex), ("has_vue_router", .bool project.hasRouter),
      ("source_file_count", .int project.sourceFiles)]

def Run.toValue (run : Run) : Value :=
  .table
    [("name", .str run.name), ("kind", .str run.kind), ("status", .str run.status),
      ("reason", .str run.reason), ("elapsed_ms", .ofOption .int run.elapsed),
      ("diagnostics", .int run.findings)]

namespace Diagnosis

/-- How the diagnosis came about: when, by which version, compared with which revision, under which
settings, in what time and by which analyzers. -/
def metadata (diagnosis : Diagnosis) (generatedAt : String) (base : Option String) :
    Except Decimal.Unroundable Value := do
  let elapsed ← Decimal.roundToInt diagnosis.elapsed
  return .table
    [("generated_at", .str generatedAt), ("version", .str version),
      ("diff_base", .ofOption .ofString base),
      ("config_source", .ofOption .ofString (diagnosis.settings.bind Settings.source)),
      ("elapsed_ms", .int elapsed), ("analyzers", .list (diagnosis.runs.map Run.toValue))]

def payload (diagnosis : Diagnosis) (generatedAt : String) (base : Option String) :
    Except Decimal.Unroundable Value := do
  let metadata ← diagnosis.metadata generatedAt base
  return .table
    [("score", diagnosis.health.toValue), ("project", diagnosis.project.toValue),
      ("diagnostics", .list (diagnosis.findings.map Finding.toValue)), ("meta", metadata)]

inductive Unwritable where
  | timeless (reason : Decimal.Unroundable)
  | longInteger

def Unwritable.message : Unwritable → String
  | .timeless reason => reason.message
  | .longInteger =>
    "Exceeds the limit (" ++ toString Value.digitLimit ++ " digits) for integer string " ++
      "conversion; use sys.set_int_max_str_digits() to increase the limit"

def json (diagnosis : Diagnosis) (generatedAt : String) (base : Option String) :
    Except Unwritable String :=
  match diagnosis.payload generatedAt base with
  | .error reason => .error (.timeless reason)
  | .ok value => if Json.holdsLong value then .error .longInteger else .ok (Json.write value)

end Diagnosis

end Checkup
