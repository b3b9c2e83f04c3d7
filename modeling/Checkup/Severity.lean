import Checkup.Text.Blank
import Checkup.Value.Display

/-!
# Severities

A finding is an error or a warning. An analyzer may report its severity in words or numbers of its
own; `Severity.settled` reads those.
-/

namespace Checkup

inductive Severity where
  | error
  | warning
  /-- What an analyzer reported, if it is neither of the two words. -/
  | reported (value : Value)

namespace Severity

def ofValue (value : Value) : Severity :=
  match value with
  | .str text =>
    if text = CodeText.ofString "error" then .error
    else if text = CodeText.ofString "warning" then .warning
    else .reported value
  | _ => .reported value

def toValue : Severity → Value
  | .error => .str "error"
  | .warning => .str "warning"
  | .reported value => value

def text (severity : Severity) : CodeText := severity.toValue.display

def isError : Severity → Bool
  | .error => true
  | _ => false

def isWarning : Severity → Bool
  | .warning => true
  | _ => false

/-- What other analyzers call an error, in any case and between any blanks. -/
def errorWords : List String := ["error", "fatal", "2"]

/-- The severity as an error or a warning: whatever is not called an error is a warning. -/
def settled (severity : Severity) : Severity :=
  match severity.text.chars? with
  | some chars =>
    let word := String.ofList ((Text.trim chars).map Char.toLower)
    if errorWords.contains word then .error else .warning
  | none => .warning

end Severity

end Checkup
