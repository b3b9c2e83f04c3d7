import Checkup.Project
import Checkup.Settings
import Checkup.Toml.Reader

/-!
# Where settings come from

Settings are read from a given file, or from the first that exists of a fixed list of files in the
project's directory, or from a section of the manifest. Only the source that is chosen is looked
at. A file is TOML if its suffix says so, and JSON otherwise. A breakdown is a fault here, but one
that is not passed over.
-/

namespace Checkup.Settings

inductive Fault where
  | missing (path : Path)
  | malformedJson (path : Path)
  | malformedToml (path : Path)
  | unreadable (path : Path) (fault : PathFault)
  | notTable (path : Path)
  | notText
  | longInteger (digits : Nat)
  | shape (fault : ShapeFault)
  | broken (breakdown : Breakdown)

/-- What stands for a decoder's account of a malformed text. -/
def decoderDetail : String := "<detail>"

def Fault.message : Fault → String
  | .missing path => "Config file does not exist: " ++ path.text
  | .malformedJson path => "Invalid JSON in " ++ path.text ++ ": " ++ decoderDetail
  | .malformedToml path => "Invalid TOML in " ++ path.text ++ ": " ++ decoderDetail
  | .unreadable path fault => "Cannot read config file " ++ path.text ++ ": " ++ fault.message
  | .notTable path => "Config file " ++ path.text ++ " must contain an object"
  | .notText => PathFault.notText.message
  | .longInteger digits =>
    "Exceeds the limit (" ++ toString Value.digitLimit ++
      " digits) for integer string conversion: value has " ++ toString digits ++
      " digits; use sys.set_int_max_str_digits() to increase the limit"
  | .shape fault => fault.message
  | .broken breakdown => breakdown.message

def Fault.ofPath (path : Path) : PathFault → Fault
  | .notText => .notText
  | fault => .unreadable path fault

def jsonTable (workspace : Workspace) (path : Path) : Except Fault Table :=
  match workspace.text path with
  | .error fault => .error (.ofPath path fault)
  | .ok text =>
    match Json.read text with
    | .ok (.table entries) => .ok entries
    | .ok _ => .error (.notTable path)
    | .error .malformed => .error (.malformedJson path)
    | .error (.longInteger digits) => .error (.longInteger digits)
    | .error (.tooDeep overflow) => .error (.broken (.overflow overflow))

def tomlTable (workspace : Workspace) (path : Path) : Except Fault Table :=
  match workspace.rawText path with
  | .error fault => .error (.ofPath path fault)
  | .ok text =>
    match Toml.read text.toList with
    | .ok entries => .ok entries
    | .error .malformed => .error (.malformedToml path)
    | .error (.longInteger digits) => .error (.longInteger digits)
    | .error (.tooDeep overflow) => .error (.broken (.overflow overflow))

def checked (table : Table) (source : String) : Except Fault Settings :=
  match ofTable table source with
  | .ok settings => .ok settings
  | .error fault => .error (.shape fault)

def ofFile (workspace : Workspace) (path : Path) : Except Fault Settings := do
  let table ←
    if path.suffix = ".toml" then tomlTable workspace path else jsonTable workspace path
  checked table path.text

/-- The files that may hold settings, the first that exists before the others. -/
def fileNames : List String :=
  [".vue-doctorrc", ".vue-doctorrc.json", "vue-doctor.config.json", ".vue-doctor.toml",
    "vue-doctor.toml"]

def manifestSection : String := "vueDoctor"

def ofManifest (workspace : Workspace) (root : Path) : Except Fault (Option Settings) :=
  let path := root.join (.ofString Manifest.fileName)
  match Manifest.read workspace path with
  | .error overflow => .error (.broken (.overflow overflow))
  | .ok manifest =>
    match manifest.get? (CodeText.ofString manifestSection) with
    | some (.table entries) =>
      (checked entries (path.text ++ "#" ++ manifestSection)).map some
    | _ => .ok none

def ofGivenFile (workspace : Workspace) (root path : Path) : Except Fault Settings :=
  let file := root.join path
  match workspace.has file with
  | .error fault => .error (.broken (.path fault))
  | .ok true => ofFile workspace file
  | .ok false => .error (.missing file)

def ofDirectory (workspace : Workspace) (root : Path) : Except Fault (Option Settings) :=
  match workspace.firstOf (fileNames.map fun name => root.join (.ofString name)) with
  | .error fault => .error (.broken (.path fault))
  | .ok (some file) => (ofFile workspace file).map some
  | .ok none => ofManifest workspace root

def load (workspace : Workspace) (root : Path) (file : Option Path) :
    Except Fault (Option Settings) :=
  match file with
  | some path => (ofGivenFile workspace root path).map some
  | none => ofDirectory workspace root

end Checkup.Settings
