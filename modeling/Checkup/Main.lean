import Checkup.Command
import Std.Data.HashMap
import Std.Time.Format

/-!
# The program

Reads from disk what a command looks at, carries the command out and prints what it leaves. Git is
not run from here: its listing of the project's files, or of the changed ones where only those are
wanted, is read from standard input.
-/

namespace Checkup.Disk

abbrev Tree := Std.HashMap Location Entry

/-- The directories that hold no source of a project. -/
def passedOver : List String := [".git", "node_modules"]

def readEntry (tree : Tree) (location : Location) : IO Tree := do
  let place := System.mkFilePath [(⟨1, location⟩ : Path).text]
  try
    match (← place.metadata).type with
    | .dir => return tree.insert location .directory
    | .file => return tree.insert location (.file (.ofBytes (← IO.FS.readBinFile place)))
    | _ => return tree
  catch _ => return tree

/-- Adds what stands at a location and below it. Links to directories are not followed. -/
partial def readTree (tree : Tree) (location : Location) : IO Tree := do
  let tree ← readEntry tree location
  match tree[location]? with
  | some .directory =>
    let mut tree := tree
    for entry in ← (System.mkFilePath [(⟨1, location⟩ : Path).text]).readDir do
      let isLink := (← entry.path.symlinkMetadata).type matches .symlink
      unless passedOver.contains entry.fileName || (isLink && (← entry.path.isDir)) do
        tree ← readTree tree (location ++ [entry.fileName])
    return tree
  | _ => return tree

def readWay (tree : Tree) (path : Path) : IO Tree :=
  (List.range (path.parts.length + 1)).foldlM
    (fun tree n => readEntry tree (Path.settle (path.parts.take n))) tree

def readProject (root : Path) (file : Option Path) : IO Tree := do
  let tree ← readTree (← readWay {} root) root.parts
  match file with
  | some path => readWay tree (root.join path)
  | none => return tree

def readFor (directory : Path) : Command → IO Workspace
  | .scanProject scan => do
    let tree ← readProject (directory.resolve scan.directory) scan.settingsFile
    return ⟨fun location => tree[location]?⟩
  | .showSettings root _ file => do
    let tree ← readProject (directory.resolve root) file
    return ⟨fun location => tree[location]?⟩
  | .writeStarter target _ => do
    let tree ← readWay {} (directory.resolve target)
    return ⟨fun location => tree[location]?⟩
  | _ => return .empty

partial def readLines (input : IO.FS.Stream) : IO String := do
  let line ← input.getLine
  if line.isEmpty then return ""
  return line ++ (← readLines input)

/-- The answers of git for a command, by the listing on standard input. -/
def gitFor : Command → IO Git
  | .scanProject scan => do
    let input ← IO.getStdin
    let unknown := Git.Answer.unavailable "no listing on standard input"
    if ← input.isTty then return ⟨fun _ => unknown⟩
    let listing ← readLines input
    return ⟨fun question => match question with
      | .inventory => if scan.changesOnly then unknown else .output listing
      | .changes _ => if scan.changesOnly then .output listing else unknown⟩
  | _ => return ⟨fun _ => .unavailable "not asked"⟩

def now : IO String := do
  let moment ← Std.Time.Timestamp.now
  return (Std.Time.DateTime.ofTimestamp moment Std.Time.TimeZone.ZoneRules.UTC).format
    "uuuu-MM-dd'T'HH:mm:ss'Z'"

def environmentFor (command : Command) : IO Command.Environment := do
  let started ← IO.monoMsNow
  let directory := Path.ofString (← IO.currentDir).toString
  let workspace ← readFor directory command
  return {
    workspace
    git := ← gitFor command
    directory
    now := ← now
    completed := fun _ =>
      ⟨.ok { status := 1, errors := ["completion is not set up here"] }, workspace⟩
    elapsed := Float.ofNat ((← IO.monoMsNow) - started) }

def writeStarter (directory target : Path) : IO Unit := do
  let location := (directory.resolve target).parts
  IO.FS.createDirAll (⟨1, location.dropLast⟩ : Path).text
  IO.FS.writeFile (⟨1, location⟩ : Path).text Settings.starter

def perform (command : Command) : IO UInt32 := do
  let environment ← environmentFor command
  let journaled := command.run environment
  for event in journaled.events do
    if let .message .warning text := event then IO.eprintln ("warning: " ++ text.shown)
  match journaled.value.reply with
  | .error fault =>
    IO.eprintln ("error: " ++ fault.message)
    return fault.status.toUInt32
  | .ok reply =>
    if let .writeStarter target _ := command then writeStarter environment.directory target
    IO.print reply.output.shown
    for line in reply.errors do IO.eprintln line
    return reply.status.toUInt32

end Checkup.Disk

/-- Carries out the command on the command line. A misuse ends with status 2. -/
def main (arguments : List String) : IO UInt32 := do
  match Checkup.Command.parse arguments with
  | .ok command => Checkup.Disk.perform command
  | .error fault =>
    IO.eprintln ("error: " ++ fault.message)
    return fault.status.toUInt32
