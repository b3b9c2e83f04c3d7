import Checkup.Path
import Checkup.Text.Newlines
import Checkup.Text.Quoted

/-!
# Workspaces

The files and directories that the program sees: what stands at each location, if anything. Paths
are followed part by part, so that a double dot leads back only out of a directory that exists, and
a name that is too long is noticed only in a directory that exists.
-/

namespace Checkup

abbrev Location := List String

inductive Content where
  | text (s : String)
  /-- Bytes that are not a text. -/
  | binary

def Content.ofBytes (bytes : ByteArray) : Content :=
  match String.fromUTF8? bytes with
  | some s => .text s
  | none => .binary

inductive Entry where
  | file (content : Content)
  | directory

structure Workspace where
  entry? : Location → Option Entry

inductive PathFault where
  | notFound (path : Path)
  | notDirectory (path : Path)
  | isDirectory (path : Path)
  | occupied (path : Path)
  | nameTooLong (path : Path)
  | nullCharacter
  | notText

namespace PathFault

/-- The number under which the operating system knows the fault, and its words. -/
def message : PathFault → String
  | .notFound path => "[Errno 2] No such file or directory: " ++ Text.quoted path.text
  | .notDirectory path => "[Errno 20] Not a directory: " ++ Text.quoted path.text
  | .isDirectory path => "[Errno 21] Is a directory: " ++ Text.quoted path.text
  | .occupied path => "[Errno 17] File exists: " ++ Text.quoted path.text
  | .nameTooLong path => "[Errno 36] File name too long: " ++ Text.quoted path.text
  | .nullCharacter => "embedded null byte"
  | .notText => "<utf-8 decode error>"

end PathFault

namespace Workspace

def empty : Workspace := ⟨fun _ => none⟩

/-- What stands at a location. The root is a directory. -/
def get? (workspace : Workspace) (location : Location) : Option Entry :=
  if location.isEmpty then some .directory else workspace.entry? location

/-- The most bytes that a name may have. -/
def nameLimit : Nat := 255

/-- The bytes that a path as a whole must stay below. -/
def pathLimit : Nat := 4096

def isTooLong (name : String) : Bool := nameLimit < name.utf8ByteSize

/-! ### Reading -/

/-- Where the parts lead to from a location, and what stands there. -/
def follow (workspace : Workspace) (path : Path) :
    (here : Location) → (parts : List String) → Except PathFault (Location × Entry)
  | here, [] =>
    match workspace.get? here with
    | none => .error (.notFound path)
    | some entry => .ok (here, entry)
  | here, part :: parts =>
    match workspace.get? here with
    | none => .error (.notFound path)
    | some (.file _) => .error (.notDirectory path)
    | some .directory =>
      if part = ".." then workspace.follow path here.dropLast parts
      else if isTooLong part then .error (.nameTooLong path)
      else workspace.follow path (here ++ [part]) parts

def find (workspace : Workspace) (path : Path) : Except PathFault (Location × Entry) :=
  if path.parts.any fun part => part.toList.contains '\x00' then .error .nullCharacter
  else if pathLimit ≤ path.text.utf8ByteSize then .error (.nameTooLong path)
  else workspace.follow path [] path.parts

/-- Whether an absolute path leads to anything. Of a name that is too long this cannot be said. -/
def has (workspace : Workspace) (path : Path) : Except PathFault Bool :=
  match workspace.find path with
  | .ok _ => .ok true
  | .error (.nameTooLong path) => .error (.nameTooLong path)
  | .error _ => .ok false

def firstOf (workspace : Workspace) : List Path → Except PathFault (Option Path)
  | [] => .ok none
  | path :: rest => do
    if ← workspace.has path then return some path else workspace.firstOf rest

def content (workspace : Workspace) (path : Path) : Except PathFault Content := do
  match ← workspace.find path with
  | (_, .file content) => .ok content
  | (_, .directory) => .error (.isDirectory path)

def rawText (workspace : Workspace) (path : Path) : Except PathFault String := do
  match ← workspace.content path with
  | .text s => .ok s
  | .binary => .error .notText

/-- The text of the file at a path, with all line ends as newlines. -/
def text (workspace : Workspace) (path : Path) : Except PathFault (List Char) :=
  (workspace.rawText path).map fun s => Text.unifyNewlines s.toList

/-! ### Writing -/

def put (workspace : Workspace) (location : Location) (entry : Entry) : Workspace :=
  ⟨fun other => if other = location then some entry else workspace.entry? other⟩

/-- The workspace with directories at a location and above, wherever nothing stood. -/
def makeDirectories (workspace : Workspace) (location : Location) : Workspace :=
  ⟨fun other =>
    match workspace.entry? other with
    | some entry => some entry
    | none => if other.isPrefixOf location then some .directory else none⟩

def remove (workspace : Workspace) (location : Location) : Workspace :=
  ⟨fun other => if location.isPrefixOf other then none else workspace.entry? other⟩

def belowFile (workspace : Workspace) (location : Location) : Bool :=
  (List.range location.length).any fun n =>
    match workspace.get? (location.take n) with
    | some (.file _) => true
    | _ => false

/-- The part of a location up to the first missing directory that cannot be made because its name is
too long. -/
def unmakable? (workspace : Workspace) (location : Location) : Option Location :=
  ((List.range location.length).map fun n => location.take (n + 1)).find? fun above =>
    (workspace.get? above).isNone && isTooLong (above.getLast?.getD "")

/-- The workspace with directories at a location and above, wherever nothing stood, or as far as
they can be made. -/
def createDirectories (workspace : Workspace) (location : Location) :
    Workspace × Except PathFault Unit :=
  match workspace.get? location with
  | some (.file _) => (workspace, .error (.occupied ⟨1, location⟩))
  | some .directory => (workspace, .ok ())
  | none =>
    if workspace.belowFile location then (workspace, .error (.notDirectory ⟨1, location⟩))
    else match workspace.unmakable? location with
      | some above => (workspace.makeDirectories above.dropLast, .error (.nameTooLong ⟨1, above⟩))
      | none => (workspace.makeDirectories location, .ok ())

def writeFile (workspace : Workspace) (location : Location) (text : String) :
    Workspace × Except PathFault Unit :=
  match workspace.get? location with
  | some .directory => (workspace, .error (.isDirectory ⟨1, location⟩))
  | _ =>
    if isTooLong (location.getLast?.getD "") then (workspace, .error (.nameTooLong ⟨1, location⟩))
    else (workspace.put location (.file (.text text)), .ok ())

/-- The workspace with a text in the file at a location, whose missing directories are made. What
was made stays, even if the file cannot be written then. -/
def createFile (workspace : Workspace) (location : Location) (text : String) :
    Workspace × Except PathFault Unit :=
  match workspace.createDirectories location.dropLast with
  | (workspace, .error fault) => (workspace, .error fault)
  | (workspace, .ok ()) => workspace.writeFile location text

end Workspace

end Checkup
