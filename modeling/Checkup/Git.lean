import Checkup.Breakdown
import Checkup.Journal
import Checkup.Text.Blank

/-!
# Questions to git

Two things are asked: which files belong to the project, and which have changed since a revision.
Every question is noted in the journal. Its answer may be a listing, or that git failed or could
not be started. Output that is not a text ends the work.
-/

namespace Checkup

inductive GitFault where
  | failed (message : String)
  | notText

namespace Git

inductive Answer where
  | output (text : String)
  | failed (words : String)
  | unavailable (reason : String)
  /-- Bytes that are not a text. -/
  | binary

inductive Question where
  /-- The files of the project: tracked, or neither tracked nor ignored. -/
  | inventory
  /-- The files that were added, copied, changed or renamed since a revision. -/
  | changes (base : String)

def Question.arguments : Question → List String
  | .inventory => ["ls-files", "--cached", "--others", "--exclude-standard"]
  | .changes base => ["diff", "--name-only", "--diff-filter=ACMR", base]

end Git

structure Git where
  answer : Git.Question → Git.Answer

namespace Git

def listing (question : Question) : Answer → Except GitFault (List String)
  | .output text =>
    .ok (((Text.lines text.toList).filter fun name => !name.isEmpty).map String.ofList)
  | .failed words =>
    let said := Text.trim words.toList
    if said.isEmpty then
      .error (.failed ("git " ++ String.intercalate " " question.arguments ++ " failed"))
    else .error (.failed (String.ofList said))
  | .unavailable reason => .error (.failed ("git is not available: " ++ reason))
  | .binary => .error .notText

def ask (git : Git) (directory : Path) (question : Question) :
    Journaled (Except GitFault (List String)) :=
  ⟨listing question (git.answer question), [.git directory.text question.arguments]⟩

/-! ### Source files -/

def sourceEndings : List String := [".vue", ".js", ".ts", ".jsx", ".tsx", ".mjs", ".cjs"]

def sourceFiles (names : List String) : List String :=
  names.filter fun name => sourceEndings.any (Text.closes · name.toList)

/-! ### Changes -/

def defaultBase : String := "main"

/-- The revision that is tried when the wanted one cannot be. -/
def fallbackBase : String := "HEAD~1"

structure Changes where
  base : String
  files : List Path := []

/-- The changes since the first of some revisions for which git answers. -/
def changesSince (git : Git) (directory : Path) :
    List String → Journaled (Except Breakdown (Option Changes))
  | [] => pure (.ok none)
  | base :: others => do
    match ← git.ask directory (.changes base) with
    | .error .notText => return .error .undecoded
    | .error (.failed message) =>
      Journaled.debug ("git diff against " ++ base ++ " failed: " ++ message)
      git.changesSince directory others
    | .ok names =>
      return .ok (some
        ⟨base, (sourceFiles names).map fun name => directory.join (.ofString name)⟩)

/-- The source files that changed since a revision, or since the fallback. None are changed when
git answers for neither. -/
def changes (git : Git) (directory : Path) (base : String) :
    Journaled (Except Breakdown Changes) := do
  return (← git.changesSince directory [base, fallbackBase]).map (·.getD ⟨base, []⟩)

end Git

end Checkup
