import Checkup.Git
import Checkup.Json.Reader
import Checkup.Value.Display

/-!
# Projects

What is known of a project: the dependencies that its manifest names, the framework that they or
the configuration files in its directory reveal, and how many source files it has.
-/

namespace Checkup

/-! ### Manifests -/

namespace Manifest

def fileName : String := "package.json"

/-- The table in a manifest. A file that cannot be read or holds something else counts as empty,
unless it is nested too deeply. -/
def read (workspace : Workspace) (path : Path) : Except Value.Overflow Table :=
  match workspace.text path with
  | .error _ => .ok []
  | .ok text =>
    match Json.read text with
    | .ok (.table entries) => .ok entries
    | .error (.tooDeep overflow) => .error overflow
    | _ => .ok []

/-- The sections that name dependencies. A name in an earlier one hides the same in a later one. -/
def sections : List String := ["devDependencies", "dependencies", "peerDependencies"]

def entriesOf (manifest : Table) (name : String) : List (CodeText × CodeText) :=
  match manifest.get? name with
  | some (.table entries) => entries.map fun (dependency, version) => (dependency, version.display)
  | _ => []

def dependencies (manifest : Table) : List (CodeText × CodeText) :=
  sections.flatMap (entriesOf manifest)

end Manifest

/-! ### Frameworks -/

inductive Framework where
  | nuxt3
  | nuxt2
  | vite
  | vueCli
  | unknown

namespace Framework

def all : List Framework := [.nuxt3, .nuxt2, .vite, .vueCli, .unknown]

def id : Framework → String
  | .nuxt3 => "nuxt3"
  | .nuxt2 => "nuxt2"
  | .vite => "vite"
  | .vueCli => "vue-cli"
  | .unknown => "unknown"

def displayName : Framework → String
  | .nuxt3 => "Nuxt 3"
  | .nuxt2 => "Nuxt 2"
  | .vite => "Vite"
  | .vueCli => "Vue CLI"
  | .unknown => "Vue"

def displayNameOf (id : String) : String :=
  ((all.find? (·.id == id)).getD .unknown).displayName

/-- Whether some dependency or some file in the directory gives a framework away. -/
def revealed (workspace : Workspace) (root : Path) (dependencies : List (CodeText × CodeText))
    (dependency : String) (files : List String) : Except PathFault Bool :=
  if (dependencies.lookup (CodeText.ofString dependency)).isSome then .ok true
  else
    (workspace.firstOf (files.map fun file => root.join (.ofString file))).map Option.isSome

def isSecondMajor (version : CodeText) : Bool :=
  let second := (CodeText.ofString "2.").points
  match version.points with
  | .char '~' :: rest | .char '^' :: rest => second.isPrefixOf rest
  | points => second.isPrefixOf points

/-- The framework of a project: Nuxt before Vite before the Vue command line tools. -/
def detect (workspace : Workspace) (root : Path) (dependencies : List (CodeText × CodeText)) :
    Except PathFault Framework := do
  let revealed := revealed workspace root dependencies
  if ← revealed "nuxt"
      ["nuxt.config.ts", "nuxt.config.js", "nuxt.config.mjs", "nuxt.config.cjs"] then
    let version := (dependencies.lookup (CodeText.ofString "nuxt")).getD (CodeText.ofString "")
    return if isSecondMajor version then .nuxt2 else .nuxt3
  if ← revealed "vite"
      ["vite.config.ts", "vite.config.js", "vite.config.mjs", "vite.config.cjs"] then
    return .vite
  if ← revealed "@vue/cli-service" ["vue.config.js", "vue.config.ts", "vue.config.cjs"] then
    return .vueCli
  return .unknown

end Framework

/-! ### Projects -/

structure Project where
  vueVersion : Option CodeText := none
  framework : String := Framework.unknown.id
  frameworkName : String := Framework.unknown.displayName
  hasTypeScript : Bool := false
  hasPinia : Bool := false
  hasVuex : Bool := false
  hasRouter : Bool := false
  sourceFiles : Int := 0

namespace Project

def countSources (git : Git) (root : Path) : Journaled (Except Breakdown Nat) := do
  match ← git.ask root .inventory with
  | .ok names => return .ok (Git.sourceFiles names).length
  | .error .notText => return .error .undecoded
  | .error (.failed message) =>
    Journaled.debug ("Cannot count source files in " ++ root.text ++ ": " ++ message)
    return .ok 0

/-- What the directory of a project reveals, its source files not counted. -/
def describe (workspace : Workspace) (root : Path) : Except Breakdown Project := do
  let manifest ← Breakdown.ofOverflow
    (Manifest.read workspace (root.join (.ofString Manifest.fileName)))
  let dependencies := Manifest.dependencies manifest
  let framework ← Breakdown.ofPath (Framework.detect workspace root dependencies)
  let hasTypeScript ← Breakdown.ofPath (workspace.has (root.join (.ofString "tsconfig.json")))
  let names (dependency : String) :=
    (dependencies.lookup (CodeText.ofString dependency)).isSome
  return {
    vueVersion := dependencies.lookup (CodeText.ofString "vue")
    framework := framework.id
    frameworkName := framework.displayName
    hasTypeScript
    hasPinia := names "pinia"
    hasVuex := names "vuex"
    hasRouter := names "vue-router" }

def discover (workspace : Workspace) (git : Git) (root : Path) :
    Journaled (Except Breakdown Project) :=
  match describe workspace root with
  | .error breakdown => pure (.error breakdown)
  | .ok project => do
    return (← countSources git root).map fun count : Nat => { project with sourceFiles := count }

end Project

end Checkup
