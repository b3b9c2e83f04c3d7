import Checkup.Proofs.Workspace.Lookups
import Checkup.Settings.Source
import Mathlib.Data.List.Nodup

/-!
# The source of settings

Settings come from one source, and nothing else in the workspace has an influence on them: neither
what stands at a path that comes later in the order nor whether it could be read. What stands at a
given path decides alone, unless that cannot be told (`load_congr`).
-/

namespace Checkup

section

variable {left right : Workspace} {path root : Path} {paths : List Path}

/-! ### What is read -/

theorem Manifest.read_congr (same : left.standing? path = right.standing? path) :
    read left path = read right path := by
  cases standing : left.standing? path with
  | some entry =>
    have content := Workspace.content_congr standing (same.symm.trans standing)
    simp only [read, Workspace.text, Workspace.rawText, content]
  | none =>
    obtain ⟨_, inLeft⟩ := Workspace.exists_text_error standing
    obtain ⟨_, inRight⟩ := Workspace.exists_text_error (same.symm.trans standing)
    rw [read, read, inLeft, inRight]

theorem Settings.ofFile_congr (same : left.content path = right.content path) :
    ofFile left path = ofFile right path := by
  simp only [ofFile, jsonTable, tomlTable, Workspace.text, Workspace.rawText, same]

/-! ### The first path that leads to anything -/

namespace Workspace

theorem firstStanding?_append (workspace : Workspace) (paths more : List Path) :
    workspace.firstStanding? (paths ++ more) =
      (workspace.firstStanding? paths).or (workspace.firstStanding? more) := by
  rw [firstStanding?, List.findSome?_append]
  rfl

theorem firstStanding?_singleton (workspace : Workspace) (path : Path) :
    workspace.firstStanding? [path] = (workspace.standing? path).map (path, ·) := by
  rw [firstStanding?, List.findSome?_singleton]

theorem standing_of_first {workspace : Workspace} {found : Path × Entry}
    (first : workspace.firstStanding? paths = some found) :
    found.1 ∈ paths ∧ workspace.standing? found.1 = some found.2 := by
  obtain ⟨path, member, here⟩ := List.exists_of_findSome?_eq_some first
  obtain ⟨entry, standing, rfl⟩ := Option.map_eq_some_iff.mp here
  exact ⟨member, standing⟩

theorem firstStanding?_append_congr {more : List Path} (distinct : (paths ++ more).Nodup)
    (same : left.firstStanding? (paths ++ more) = right.firstStanding? (paths ++ more)) :
    left.firstStanding? paths = right.firstStanding? paths ∧
      (left.firstStanding? paths = none → left.firstStanding? more = right.firstStanding? more) := by
  have apart : ∀ (one other : Workspace) (winner : Path × Entry),
      one.firstStanding? paths = some winner → other.firstStanding? more ≠ some winner := by
    intro one other winner first later
    exact (List.nodup_append.mp distinct).2.2 _ (standing_of_first first).1 _
      (standing_of_first later).1 rfl
  rw [firstStanding?_append, firstStanding?_append] at same
  cases inLeft : left.firstStanding? paths with
  | some winner =>
    cases inRight : right.firstStanding? paths with
    | some other => simpa [inLeft, inRight] using same
    | none =>
      rw [inLeft, inRight] at same
      exact absurd same.symm (apart left right winner inLeft)
  | none =>
    cases inRight : right.firstStanding? paths with
    | none => simpa [inLeft, inRight] using same
    | some other =>
      rw [inLeft, inRight] at same
      exact absurd same (apart right left other inRight)

theorem standing?_congr (same : left.firstStanding? [path] = right.firstStanding? [path]) :
    left.standing? path = right.standing? path := by
  rw [firstStanding?_singleton, firstStanding?_singleton] at same
  cases inLeft : left.standing? path <;> cases inRight : right.standing? path <;> simp_all

/-- Workspaces that agree on the first path at which anything stands agree on the first that
exists, or on why it cannot be found. -/
theorem firstOf_congr (distinct : paths.Nodup)
    (usable : ∀ path ∈ paths, left.standing? path = right.standing? path →
      left.has path = right.has path)
    (same : left.firstStanding? paths = right.firstStanding? paths) :
    left.firstOf paths = right.firstOf paths := by
  induction paths with
  | nil => rfl
  | cons path paths ih =>
    rw [← List.singleton_append] at distinct same
    obtain ⟨one, later⟩ := firstStanding?_append_congr distinct same
    have here := standing?_congr one
    have first := usable path List.mem_cons_self here
    cases standing : left.standing? path with
    | some entry =>
      have found := has_of_standing standing
      rw [firstOf, firstOf, ← first, found]
      rfl
    | none =>
      have rest := ih (List.nodup_cons.mp distinct).2
        (fun other member => usable other (List.mem_cons_of_mem path member))
        (later (by rw [firstStanding?_singleton, standing, Option.map_none]))
      rw [firstOf, firstOf, first, rest]

/-- The first path that exists is the first at which anything stands. -/
theorem firstStanding_of_firstOf {workspace : Workspace} {found : Option Path}
    (first : workspace.firstOf paths = .ok found) :
    (workspace.firstStanding? paths).map Prod.fst = found := by
  induction paths with
  | nil => exact Except.ok.inj first
  | cons path paths ih =>
    rw [← List.singleton_append, firstStanding?_append, firstStanding?_singleton]
    rw [firstOf] at first
    cases standing : workspace.standing? path with
    | some entry =>
      rw [has_of_standing standing] at first
      exact Except.ok.inj first
    | none =>
      rcases standing?_eq_none_iff.mp standing with absent | long
      · rw [absent] at first
        exact ih first
      · rw [long] at first
        cases first

end Workspace

namespace Settings

/-! ### Settings -/

/-- The paths at which settings are looked for, the first that exists before the others. -/
def candidates (root : Path) : List Path :=
  (fileNames ++ [Manifest.fileName]).map fun name => root.join (.ofString name)

theorem isFileName_of_candidate : ∀ name ∈ fileNames ++ [Manifest.fileName], Path.IsFileName name := by
  decide

theorem nodup_candidates (root : Path) : (candidates root).Nodup := by
  have last : (candidates root).map (fun path => path.parts.getLast?) =
      (fileNames ++ [Manifest.fileName]).map some := by
    rw [candidates, List.map_map]
    apply List.map_congr_left
    intro name member
    have parts : (root.join (.ofString name)).parts = root.parts ++ [name] := by
      rw [(isFileName_of_candidate name member).1]
      rfl
    simp [parts]
  apply List.Nodup.of_map fun path : Path => path.parts.getLast?
  rw [last]
  decide

theorem exists_enters_of_first {workspace : Workspace} {winner : Path × Entry}
    (first : workspace.firstStanding? (candidates root) = some winner) :
    ∃ there, workspace.Enters root there := by
  obtain ⟨member, standing⟩ := Workspace.standing_of_first first
  obtain ⟨name, listed, here⟩ := List.mem_map.mp member
  rw [← here] at standing
  exact Workspace.exists_enters (isFileName_of_candidate name listed) standing

theorem candidates_eq (root : Path) : candidates root =
    (fileNames.map fun name => root.join (.ofString name)) ++
      [root.join (.ofString Manifest.fileName)] := by
  rw [candidates, List.map_append]
  rfl

theorem ofManifest_congr (same : left.standing? (root.join (.ofString Manifest.fileName)) =
    right.standing? (root.join (.ofString Manifest.fileName))) :
    ofManifest left root = ofManifest right root := by
  rw [ofManifest, ofManifest, Manifest.read_congr same]

theorem ofDirectory_congr {here there : Location} (inLeft : left.Enters root here)
    (inRight : right.Enters root there)
    (same : left.firstStanding? (candidates root) = right.firstStanding? (candidates root)) :
    ofDirectory left root = ofDirectory right root := by
  have distinct := nodup_candidates root
  rw [candidates_eq] at same distinct
  obtain ⟨files, manifest⟩ := Workspace.firstStanding?_append_congr distinct same
  have first : left.firstOf _ = right.firstOf _ := Workspace.firstOf_congr (List.nodup_append.mp distinct).1
    (by
      intro path member agree
      obtain ⟨name, listed, rfl⟩ := List.mem_map.mp member
      have named := isFileName_of_candidate name (List.mem_append_left _ listed)
      rw [inLeft.has_join named, inRight.has_join named, agree]) files
  rw [ofDirectory, ofDirectory, ← first]
  cases chosen : left.firstOf (fileNames.map fun name => root.join (.ofString name)) with
  | error fault => rfl
  | ok found =>
    have fromLeft := Workspace.firstStanding_of_firstOf chosen
    cases found with
    | none =>
      rw [Option.map_eq_none_iff] at fromLeft
      exact ofManifest_congr (Workspace.standing?_congr (manifest fromLeft))
    | some file =>
      obtain ⟨winner, won, rfl⟩ := Option.map_eq_some_iff.mp fromLeft
      have content := Workspace.content_congr (Workspace.standing_of_first won).2
        (Workspace.standing_of_first (files ▸ won)).2
      exact congrArg (Except.map some) (ofFile_congr content)

theorem ofGivenFile_congr_iff {file : Path}
    (same : left.standing? (root.join file) = right.standing? (root.join file)) :
    ofGivenFile left root file = ofGivenFile right root file ↔
      left.has (root.join file) = right.has (root.join file) := by
  refine ⟨?_, ?_⟩
  · intro outcomes
    cases standing : left.standing? (root.join file) with
    | some entry =>
      rw [Workspace.has_of_standing standing, Workspace.has_of_standing (same ▸ standing)]
    | none =>
      rw [ofGivenFile, ofGivenFile] at outcomes
      rcases Workspace.standing?_eq_none_iff.mp standing with inLeft | inLeft <;>
        rcases Workspace.standing?_eq_none_iff.mp (same ▸ standing) with inRight | inRight <;>
        simp_all
  · intro found
    rw [ofGivenFile, ofGivenFile, ← found]
    cases standing : left.standing? (root.join file) with
    | some entry =>
      have content := Workspace.content_congr standing (same ▸ standing)
      rw [Workspace.has_of_standing standing]
      exact ofFile_congr content
    | none =>
      rcases Workspace.standing?_eq_none_iff.mp standing with absent | long
      · rw [absent]
      · rw [long]

theorem load_some_congr_iff {file : Path}
    (same : left.standing? (root.join file) = right.standing? (root.join file)) :
    load left root (some file) = load right root (some file) ↔
      left.has (root.join file) = right.has (root.join file) := by
  rw [← ofGivenFile_congr_iff same]
  show (ofGivenFile left root file).map some = (ofGivenFile right root file).map some ↔ _
  cases ofGivenFile left root file <;> cases ofGivenFile right root file <;> simp [Except.map]

/-- What is loaded from a directory depends on the first candidate that exists alone. What is loaded
from a given file depends on what stands there alone, as long as it can be told whether anything
does. For paths within the limits it can. -/
theorem load_congr (left right : Workspace) (root : Path) :
    (∀ winner, left.firstStanding? (candidates root) = some winner →
      right.firstStanding? (candidates root) = some winner →
        load left root none = load right root none) ∧
      (∀ here there, left.Enters root here → left.firstStanding? (candidates root) = none →
        right.Enters root there → right.firstStanding? (candidates root) = none →
          load left root none = load right root none) ∧
      ∀ file, left.standing? (root.join file) = right.standing? (root.join file) →
        (load left root (some file) = load right root (some file) ↔
          left.has (root.join file) = right.has (root.join file)) ∧
        ((root.join file).LeavesRoom 0 →
          load left root (some file) = load right root (some file)) := by
  refine ⟨?_, ?_, ?_⟩
  · intro winner first same
    obtain ⟨_, inLeft⟩ := exists_enters_of_first first
    obtain ⟨_, inRight⟩ := exists_enters_of_first same
    exact ofDirectory_congr inLeft inRight (first.trans same.symm)
  · intro here there inLeft nothing inRight same
    exact ofDirectory_congr inLeft inRight (nothing.trans same.symm)
  · intro file same
    have decided := load_some_congr_iff same
    refine ⟨decided, fun room => decided.mpr ?_⟩
    rw [left.has_eq_of_room room, right.has_eq_of_room room, same]

/-- A project's directory with these files and directories in it. -/
def projectOf (entries : List (String × Entry)) : Workspace :=
  ⟨fun location => match location with
    | ["proj"] => some .directory
    | ["proj", name] => entries.lookup name
    | _ => none⟩

/-- A list where a table is wanted decides alone, whatever comes later in the order. Nothing is
loaded from a directory without settings, whatever stands beside it, and a file is found on a detour
through it. -/
theorem load_of_list_first :
    let root : Path := ⟨1, ["proj"]⟩
    let list : Entry := .file (.text "[]")
    let left := projectOf [(".vue-doctorrc", list), ("src", .directory),
      ("vue-doctor.toml", .file (.text "lint = ")), ("package.json", .file .binary)]
    let right := projectOf [(".vue-doctorrc", list), ("src", .directory)]
    let inner := root.join (.ofString "src")
    let file : Path := .ofString "src/../.vue-doctorrc"
    left.firstStanding? (candidates root) = some (⟨1, ["proj", ".vue-doctorrc"]⟩, list) ∧
      right.firstStanding? (candidates root) = some (⟨1, ["proj", ".vue-doctorrc"]⟩, list) ∧
      load left root none = load right root none ∧
      left.Enters inner ["proj", "src"] ∧ left.firstStanding? (candidates inner) = none ∧
      right.Enters inner ["proj", "src"] ∧ right.firstStanding? (candidates inner) = none ∧
      load left inner none = load right inner none ∧
      left.standing? (root.join file) = some list ∧ right.standing? (root.join file) = some list ∧
      (root.join file).LeavesRoom 0 ∧
      load left root (some file) = load right root (some file) := by
  intro root list left right inner file
  have first : left.firstStanding? (candidates root) =
    some (⟨1, ["proj", ".vue-doctorrc"]⟩, list) := by rfl
  have same : right.firstStanding? (candidates root) =
    some (⟨1, ["proj", ".vue-doctorrc"]⟩, list) := by rfl
  have inLeft : left.Enters inner ["proj", "src"] := Workspace.enters_of_find (by rfl)
  have inRight : right.Enters inner ["proj", "src"] := Workspace.enters_of_find (by rfl)
  have found : left.standing? (root.join file) = some list := by rfl
  have again : right.standing? (root.join file) = some list := by rfl
  have room : (root.join file).LeavesRoom 0 := ⟨by decide, by decide⟩
  refine ⟨first, same, (load_congr left right root).1 _ first same, inLeft, by rfl, inRight, by rfl,
    (load_congr left right inner).2.1 _ _ inLeft (by rfl) inRight (by rfl), found, again, room, ?_⟩
  exact ((load_congr left right root).2.2 file (found.trans again.symm)).2 room

/-- Nothing stands at the path in either project, but in one of them its name is too long for the
directory that it would be in. -/
theorem load_of_long_name :
    let root : Path := ⟨1, ["proj"]⟩
    let file : Path := ⟨0, ["conf", String.ofList (List.replicate 256 'n')]⟩
    let left := projectOf []
    let right := projectOf [("conf", .directory)]
    left.standing? (root.join file) = none ∧ right.standing? (root.join file) = none ∧
      load left root (some file) = .error (.missing (root.join file)) ∧
      load right root (some file) = .error (.broken (.path (.nameTooLong (root.join file)))) := by
  intro root file left right
  have clean : '\x00' ∉ (String.ofList (List.replicate 256 'n')).toList := by
    rw [String.toList_ofList]
    intro member
    exact absurd (List.eq_of_mem_replicate member) (by decide)
  have absent : left.has (root.join file) = .ok false := by
    have noNull : ∀ name : String, '\x00' ∉ name.toList →
        ¬ ["proj", "conf", name].any (fun part => part.toList.contains '\x00') = true := by
      intro name absent
      simp [absent]
    have clear : ¬ (root.join file).parts.any (fun part => part.toList.contains '\x00') = true :=
      noNull _ clean
    have fits : ¬ Workspace.pathLimit ≤ (root.join file).text.utf8ByteSize := by decide +kernel
    rw [Workspace.has, Workspace.find, if_neg clear, if_neg fits]
    rfl
  have unknown : right.has (root.join file) = .error (.nameTooLong (root.join file)) := by
    have inConf : right.find (root.join (.ofString "conf")) =
      .ok (["proj", "conf"], .directory) := by rfl
    have joined : ∀ name, root.join ⟨0, ["conf", name]⟩ =
      (root.join (.ofString "conf")).join ⟨0, [name]⟩ := fun _ => rfl
    rw [joined]
    exact Workspace.has_of_long inConf clean (by decide +kernel)
  refine ⟨Workspace.standing?_eq_none_iff.mpr (Or.inl absent),
    Workspace.standing?_eq_none_iff.mpr (Or.inr unknown), ?_, ?_⟩
  · rw [load, ofGivenFile, absent]
    rfl
  · rw [load, ofGivenFile, unknown]
    rfl

end Settings

end

end Checkup
