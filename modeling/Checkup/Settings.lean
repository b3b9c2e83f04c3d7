import Checkup.Json.Reader
import Checkup.Report
import Checkup.Value

/-!
# Settings

What a project's owner may set, and the shape that a table of settings must have. Of several faults
the first in the order of the fields is reported; keys that are not known have no influence.
-/

namespace Checkup

structure Settings where
  suppression : Suppression := {}
  /-- The rules to use, if not all. -/
  enable : Option (List CodeText) := none
  disable : List CodeText := []
  lint : Option Bool := none
  deadCode : Option Bool := none
  verbose : Option Bool := none
  source : Option String := none

namespace Settings

/-- What some settings suppress. Without settings nothing is suppressed. -/
def suppressionOf (settings : Option Settings) : Suppression :=
  (settings.map suppression).getD {}

inductive ShapeFault where
  | notTable (field : String)
  | notStrings (field : String)
  | notBoolean (field : String)

def ShapeFault.message : ShapeFault → String
  | .notTable field => field ++ " must be a table/object"
  | .notStrings field => field ++ " must be a list of strings"
  | .notBoolean field => field ++ " must be a boolean"

/-- The table that a field holds; an absent one is empty. -/
def tableAt (field : String) : Option Value → Except ShapeFault Table
  | none | some .null => .ok []
  | some (.table entries) => .ok entries
  | some _ => .error (.notTable field)

/-- The texts of some values, if all are texts. -/
def texts? : List Value → Option (List CodeText)
  | [] => some []
  | .str text :: rest => (texts? rest).map (text :: ·)
  | _ :: _ => none

def textsAt? (field : String) : Option Value → Except ShapeFault (Option (List CodeText))
  | none | some .null => .ok none
  | some (.list items) =>
    match texts? items with
    | some texts => .ok (some texts)
    | none => .error (.notStrings field)
  | some _ => .error (.notStrings field)

def flagAt? (field : String) : Option Value → Except ShapeFault (Option Bool)
  | none | some .null => .ok none
  | some (.bool b) => .ok (some b)
  | some _ => .error (.notBoolean field)

/-- The value of the first of two keys that a table has. -/
def either? (table : Table) (first second : String) : Option Value :=
  if table.has first then table.get? first else table.get? second

def ofTable (table : Table) (source : String) : Except ShapeFault Settings := do
  let ignore ← tableAt "ignore" (table.get? "ignore")
  let rules ← tableAt "rules" (table.get? "rules")
  let ignoredRules ← textsAt? "ignore.rules" (ignore.get? "rules")
  let ignoredFiles ← textsAt? "ignore.files" (ignore.get? "files")
  let enable ← textsAt? "rules.enable" (rules.get? "enable")
  let disable ← textsAt? "rules.disable" (rules.get? "disable")
  let lint ← flagAt? "lint" (table.get? "lint")
  let deadCode ← flagAt? "dead_code" (either? table "deadCode" "dead_code")
  let verbose ← flagAt? "verbose" (table.get? "verbose")
  return {
    suppression := { rules := ignoredRules.getD [], files := ignoredFiles.getD [] }
    enable
    disable := disable.getD []
    lint
    deadCode
    verbose
    source := some source }

def toValue (settings : Settings) : Value :=
  .table
    [("ignore", .table
      [("rules", .ofTexts settings.suppression.rules),
        ("files", .ofTexts settings.suppression.files)]),
      ("rules", .table
        [("enable", .ofOption Value.ofTexts settings.enable),
          ("disable", .ofTexts settings.disable)]),
      ("lint", .ofOption .bool settings.lint),
      ("dead_code", .ofOption .bool settings.deadCode),
      ("verbose", .ofOption .bool settings.verbose),
      ("source", .ofOption .ofString settings.source)]

def starter : String :=
  String.intercalate "\n"
    ["lint = true", "dead_code = true", "verbose = false", "", "[ignore]",
      "rules = [\"perf-giant-component\"]",
      "files = [\"src/legacy/**\", \"**/*.generated.vue\"]", "", "[rules]",
      "# enable = [\"reactivity-destructure-props\", \"reactivity-ref-no-value\"]",
      "disable = [\"arch-mixed-api-styles\"]", ""]

end Settings

end Checkup
