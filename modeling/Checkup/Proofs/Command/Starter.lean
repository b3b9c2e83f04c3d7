import Checkup.Proofs.Command.Lines
import Checkup.Proofs.Workspace.Creation

/-!
# Settings to start from

The command that writes settings to start from touches nothing but its target and the missing
directories above it (`runStart_of_free`), and nothing at all if something is in the way
(`runStart_of_refused`). Once it has run, it refuses to run again (`runStart_again`).
-/

namespace Checkup

theorem Path.clean_resolve {directory target : String}
    (clean : '\x00' ∉ directory.toList ∧ '\x00' ∉ target.toList) :
    ∀ part ∈ (resolve (.ofString directory) (.ofString target)).parts, '\x00' ∉ part.toList := by
  have spelled : ∀ {text : String} {part : String}, part ∈ partsOf text.toList →
      '\x00' ∈ part.toList → '\x00' ∈ text.toList := by
    intro text part member null
    obtain ⟨piece, cut, rfl⟩ := List.mem_map.mp (List.mem_filter.mp member).1
    rw [String.toList_ofList] at null
    exact (Text.mem_of_mem_pieces cut null).1
  intro part member null
  obtain ⟨joined, _⟩ := mem_settle member
  unfold join at joined
  split at joined
  · exact clean.2 (spelled joined null)
  · rcases List.mem_append.mp joined with above | below
    · exact clean.1 (spelled above null)
    · exact clean.2 (spelled below null)

namespace Command

/-- The command line that asks for settings to start from. -/
def startLine (out : String) (overwrite : Bool) : List String :=
  "config-init" :: "--out" :: out :: if overwrite then ["--force"] else []

/-- A command has not been carried out. -/
def Result.Fails (result : Result) : Prop := ∃ fault, result.reply = .error fault

/-- A file must not or cannot be written: it exists, a directory is in its place or a file is above
it. -/
def Refused (workspace : Workspace) (location : Location) (overwrite : Bool) : Prop :=
  (workspace.get? location ≠ none ∧ overwrite = false) ∨
    workspace.get? location = some .directory ∨ workspace.IsBelowFile location

/-! ### Reading the command -/

theorem parse_startLine (out : String) (overwrite : Bool) : parse (startLine out overwrite) =
    if '\x00' ∈ out.toList then .error .nullCharacter
    else .ok (.writeStarter (.ofString out) overwrite) := by
  let grammar : Grammar :=
    { flags := ["--force", "--help"], valued := ["--out"], paths := ["--out"] }
  let parts : Arguments :=
    { flags := if overwrite then ["--force"] else [], values := [("--out", out)] }
  have read : grammar.read ("--out" :: out :: if overwrite then ["--force"] else []) =
      .ok parts := by
    rw [Grammar.read_valued (by decide) (by decide)]
    cases overwrite with
    | false => rfl
    | true =>
      rw [if_pos rfl, Grammar.read_flag (by decide) (by decide) (by decide)]
      rfl
  have help : parts.has "--help" = false := by cases overwrite <;> rfl
  have force : parts.has "--force" = overwrite := by cases overwrite <;> rfl
  have target : parts.value? "--out" = some out := rfl
  have texts : pathTexts grammar 0 parts = [out] := rfl
  have known : readParts grammar 0 ("--out" :: out :: if overwrite then ["--force"] else []) =
      if '\x00' ∈ out.toList then .error .nullCharacter else .ok parts := by
    simp [readParts, read, help, texts, parts]
  rw [startLine, parse_of_name (by decide), parseNamed, parseStart]
  show (readParts grammar 0 _ >>= _) = _
  rw [known]
  split
  · rfl
  · simp only [bind, Except.bind, help, force, target]
    rfl

/-! ### Carrying it out -/

/-- How a command that writes settings may end: before it has tried to, or as the creation of the
file ends. -/
inductive StartEnds (workspace : Workspace) (path : Path) (overwrite : Bool) : Result → Prop
  | refused {fault} : (∀ found, workspace.has path = .ok found → found = true ∧ overwrite = false) →
      StartEnds workspace path overwrite ⟨.error fault, workspace⟩
  | failed {found after fault reported} : workspace.has path = .ok found →
      (found = true → overwrite = true) →
      workspace.createFile path.parts Settings.starter = (after, .error fault) →
      StartEnds workspace path overwrite ⟨.error reported, after⟩
  | written {found after reply} : workspace.has path = .ok found →
      (found = true → overwrite = true) →
      workspace.createFile path.parts Settings.starter = (after, .ok ()) → reply.status = 0 →
      StartEnds workspace path overwrite ⟨.ok reply, after⟩

section

variable {environment : Environment} {target : Path} {overwrite : Bool}

theorem startEnds_runStart (environment : Environment) (target : Path) (overwrite : Bool) :
    StartEnds environment.workspace (environment.directory.resolve target) overwrite
      (runStart environment target overwrite) := by
  unfold runStart
  dsimp only
  split
  · next unknown =>
    apply StartEnds.refused
    intro found known
    rw [unknown] at known
    cases known
  · next found known =>
    split
    · next refuses =>
      apply StartEnds.refused
      intro other also
      rw [known] at also
      cases also
      simpa using refuses
    · next proceeds =>
      have forced : found = true → overwrite = true := by simpa using proceeds
      split
      · next failed => exact .failed known forced failed
      · next created => exact .written known forced created rfl

variable {workspace : Workspace} {path : Path} {ended : Result}

/-- Nothing at all changes if something is in the way. -/
theorem StartEnds.fails_of_refused (ends : StartEnds workspace path overwrite ended)
    (tree : workspace.IsTree) (settled : Path.Settled path.parts)
    (clean : ∀ part ∈ path.parts, '\x00' ∉ part.toList)
    (refused : Refused workspace path.parts overwrite) :
    ended.Fails ∧ ended.workspace = workspace := by
  have blocked : ∀ {found}, workspace.has path = .ok found → (found = true → overwrite = true) →
      ∃ fault, workspace.createFile path.parts Settings.starter = (workspace, .error fault) := by
    intro found known forced
    rcases refused with ⟨stands, kept⟩ | directory | below
    · rw [forced ((tree.stands_iff_of_has settled clean known).mpr stands)] at kept
      cases kept
    · exact Workspace.createFile_of_directory tree directory
    · exact Workspace.createFile_of_belowFile tree below
  cases ends with
  | refused _ => exact ⟨⟨_, rfl⟩, rfl⟩
  | failed known forced failed =>
    obtain ⟨_, unchanged⟩ := blocked known forced
    rw [unchanged] at failed
    cases failed
    exact ⟨⟨_, rfl⟩, rfl⟩
  | written known forced created =>
    obtain ⟨_, unchanged⟩ := blocked known forced
    rw [unchanged] at created
    cases created

/-- If nothing is in the way and the path is within the limits, the file is written and nothing
else changes. -/
theorem StartEnds.creates_of_free (ends : StartEnds workspace path overwrite ended)
    (tree : workspace.IsTree) (settled : Path.Settled path.parts)
    (clean : ∀ part ∈ path.parts, '\x00' ∉ part.toList)
    (free : ¬ Refused workspace path.parts overwrite) (room : path.LeavesRoom 0) :
    (∃ reply, ended.reply = .ok reply ∧ reply.status = 0) ∧
      workspace.Creates ended.workspace path.parts Settings.starter := by
  simp only [Refused, not_or, not_and] at free
  obtain ⟨kept, noDirectory, notBelow⟩ := free
  obtain ⟨after, succeeds, creates⟩ : ∃ after,
      workspace.createFile path.parts Settings.starter = (after, .ok ()) ∧
        workspace.Creates after path.parts Settings.starter :=
    Workspace.createFile_of_free tree notBelow noDirectory room.names
  cases ends with
  | refused refuses =>
    obtain ⟨found, known⟩ := workspace.has_of_room room
    obtain ⟨present, withoutForce⟩ := refuses found known
    exact absurd withoutForce (kept ((tree.stands_iff_of_has settled clean known).mp present))
  | failed _ _ failed =>
    rw [succeeds] at failed
    cases failed
  | written _ _ created success =>
    rw [succeeds] at created
    cases created
    exact ⟨⟨_, rfl, success⟩, creates⟩

/-- Beyond the limits the command fails, and at most makes directories above its target. -/
theorem StartEnds.fails_of_no_room (ends : StartEnds workspace path overwrite ended)
    (tree : workspace.IsTree) (clean : ∀ part ∈ path.parts, '\x00' ∉ part.toList)
    (noRoom : ¬ path.LeavesRoom 0) :
    ended.Fails ∧ workspace.AddsAbove ended.workspace path.parts := by
  cases ends with
  | refused _ => exact ⟨⟨_, rfl⟩, fun _ => Or.inl rfl⟩
  | failed _ _ failed => exact ⟨⟨_, rfl⟩, Workspace.addsAbove_createFile failed⟩
  | written known _ created _ =>
    have room : path.LeavesRoom 0 :=
      ⟨Workspace.short_of_createFile tree created, Workspace.whole_of_has clean known⟩
    exact absurd room noRoom

/-- Once the command has run, it refuses to run again and changes nothing. -/
theorem StartEnds.again (ends : StartEnds workspace path overwrite ended)
    (tree : workspace.IsTree) (settled : Path.Settled path.parts)
    (clean : ∀ part ∈ path.parts, '\x00' ∉ part.toList) {again : Result}
    (repeated : StartEnds ended.workspace path false again) :
    again.Fails ∧ again.workspace = ended.workspace := by
  -- The second run may only try to write if the first has failed to, and fails in the same way.
  have blocked : ∀ {found}, ended.workspace.has path = .ok found → (found = true → false = true) →
      ∃ fault, ended.workspace.createFile path.parts Settings.starter =
        (ended.workspace, .error fault) := by
    intro found known absent
    cases ends with
    | refused refuses => exact absurd (absent (refuses found known).1) (by decide)
    | failed _ _ failed => exact ⟨_, Workspace.createFile_again failed⟩
    | written _ _ created _ =>
      obtain ⟨creates, still⟩ := Workspace.creates_of_createFile tree created
      have present := (still.stands_iff_of_has settled clean known).mpr (by simp [creates.written])
      exact absurd (absent present) (by decide)
  cases repeated with
  | refused _ => exact ⟨⟨_, rfl⟩, rfl⟩
  | failed known absent failed =>
    obtain ⟨_, unchanged⟩ := blocked known absent
    rw [unchanged] at failed
    cases failed
    exact ⟨⟨_, rfl⟩, rfl⟩
  | written known absent created =>
    obtain ⟨_, unchanged⟩ := blocked known absent
    rw [unchanged] at created
    cases created

end

theorem value_execute_startLine (environment : Environment) (out : String) (overwrite : Bool) :
    (execute environment (startLine out overwrite)).value =
      if '\x00' ∈ out.toList then ⟨.error .nullCharacter, environment.workspace⟩
      else runStart environment (.ofString out) overwrite := by
  rw [execute, parse_startLine]
  by_cases null : '\x00' ∈ out.toList
  · simp only [if_pos null]
    rfl
  · simp only [if_neg null]
    rfl

/-- A command that writes settings fails and changes nothing if something is in the way. Otherwise
the file is written, and only its missing directories are made with it. If the path is beyond the
limits the command fails too, but directories may have been made. However it has ended, to run it
again fails and changes nothing. -/
theorem start_outcome (environment : Environment) (directory out : String) (overwrite : Bool)
    (seen : environment.directory = .ofString directory) (clean : '\x00' ∉ directory.toList)
    (tree : environment.workspace.IsTree) :
    let before := environment.workspace
    let path := environment.directory.resolve (.ofString out)
    let ended := (execute environment (startLine out overwrite)).value
    let refused := '\x00' ∈ out.toList ∨ Refused before path.parts overwrite
    (refused → ended.Fails ∧ ended.workspace = before) ∧
    (¬ refused → path.LeavesRoom 0 → (∃ reply, ended.reply = .ok reply ∧ reply.status = 0) ∧
      before.Creates ended.workspace path.parts Settings.starter) ∧
    (¬ path.LeavesRoom 0 → ended.Fails ∧ before.AddsAbove ended.workspace path.parts) ∧
    ∀ later : Environment, later.directory = environment.directory →
      later.workspace = ended.workspace →
        let again := (execute later (startLine out false)).value
        again.Fails ∧ again.workspace = ended.workspace := by
  intro before path ended refused
  by_cases null : '\x00' ∈ out.toList
  · have fails : ended = ⟨.error .nullCharacter, before⟩ := by
      simp only [ended, value_execute_startLine, if_pos null, before]
    have unchanged : ended.Fails ∧ ended.workspace = before := by
      rw [fails]
      exact ⟨⟨_, rfl⟩, rfl⟩
    refine ⟨fun _ => unchanged, fun free => absurd (Or.inl null) free, fun _ => ?_, ?_⟩
    · rw [fails]
      exact ⟨⟨_, rfl⟩, fun _ => Or.inl rfl⟩
    · intro later _ same again
      have failsAgain : again = ⟨.error .nullCharacter, ended.workspace⟩ := by
        simp only [again, value_execute_startLine, if_pos null, same]
      rw [failsAgain]
      exact ⟨⟨_, rfl⟩, rfl⟩
  · have settled : Path.Settled path.parts := by
      simp only [path, seen]
      exact Path.settled_resolve directory out
    have noNull : ∀ part ∈ path.parts, '\x00' ∉ part.toList := by
      simp only [path, seen]
      exact Path.clean_resolve ⟨clean, null⟩
    have ends : StartEnds before path overwrite ended := by
      simp only [ended, value_execute_startLine, if_neg null]
      exact startEnds_runStart environment (.ofString out) overwrite
    refine ⟨?_, ?_, ?_, ?_⟩
    · intro blocked
      exact ends.fails_of_refused tree settled noNull (blocked.resolve_left null)
    · intro free room
      exact ends.creates_of_free tree settled noNull (fun blocked => free (Or.inr blocked)) room
    · intro noRoom
      exact ends.fails_of_no_room tree noNull noRoom
    · intro later from' same again
      have repeated : StartEnds ended.workspace path false again := by
        simp only [again, value_execute_startLine, if_neg null, ← same, path, ← from']
        exact startEnds_runStart later (.ofString out) false
      exact ends.again tree settled noNull repeated

/-- A project with one file. -/
def plainProject : Workspace :=
  ⟨fun location =>
    if location = ["proj"] then some .directory
    else if location = ["proj", "notes"] then some (.file .binary)
    else none⟩

theorem isTree_plainProject : plainProject.IsTree := by
  have known : ∀ {location}, plainProject.get? location ≠ none →
      location ∈ [[], ["proj"], ["proj", "notes"]] := by
    intro location stands
    simp only [Workspace.get?, plainProject] at stands
    split at stands
    · next root => simp [List.isEmpty_iff.mp root]
    · split at stands
      · next top => simp [top]
      · split at stands
        · next file => simp [file]
        · exact absurd rfl stands
  constructor
  · intro location above stands isAbove
    obtain ⟨n, short, rfl⟩ := Workspace.isAbove_iff_take.mp isAbove
    have inside := known stands
    simp only [List.mem_cons, List.not_mem_nil, or_false] at inside
    rcases inside with rfl | rfl | rfl
    · cases short
    · obtain rfl : n = 0 := by simpa using short
      rfl
    · obtain rfl | rfl : n = 0 ∨ n = 1 := by
        simp only [List.length_cons, List.length_nil] at short
        omega
      · rfl
      · rfl
  · intro location stands part member
    have inside := known stands
    simp only [List.mem_cons, List.not_mem_nil, or_false] at inside
    rcases inside with rfl | rfl | rfl <;> revert part <;> decide

theorem not_refused_plainProject {first second : String} (new : first ≠ "notes") :
    ¬ Refused plainProject ["proj", first, second] false := by
  have absent : plainProject.get? ["proj", first, second] = none := by
    simp [Workspace.get?, plainProject]
  rintro (⟨stands, _⟩ | stands | ⟨above, content, isAbove, stands⟩)
  · exact stands absent
  · rw [absent] at stands
    cases stands
  · obtain ⟨n, short, rfl⟩ := Workspace.isAbove_iff_take.mp isAbove
    obtain rfl | rfl | rfl : n = 0 ∨ n = 1 ∨ n = 2 := by
      simp only [List.length_cons, List.length_nil] at short
      omega
    · cases stands
    · cases stands
    · simp [Workspace.get?, plainProject, new] at stands

/-- The program in that project. -/
def plainEnvironment : Environment :=
  { workspace := plainProject
    git := ⟨fun _ => .output ""⟩
    directory := .ofString "/proj"
    completed := fun _ => ⟨.ok {}, plainProject⟩
    now := "" }

/-- A file is written where its directory is missing, and not a second time. -/
theorem start_outcome_in_new_directory :
    let ended := (execute plainEnvironment (startLine "conf/settings.toml" false)).value
    let later := { plainEnvironment with workspace := ended.workspace }
    plainProject.IsTree ∧ plainProject.get? ["proj", "conf"] = none ∧
      ended.workspace.get? ["proj", "conf"] = some .directory ∧
      ended.workspace.get? ["proj", "conf", "settings.toml"] =
        some (.file (.text Settings.starter)) ∧
      ended.workspace.get? ["proj", "notes"] = some (.file .binary) ∧
      (execute later (startLine "conf/settings.toml" false)).value.Fails := by
  intro ended later
  obtain ⟨_, writes, _, repeated⟩ := start_outcome plainEnvironment "/proj" "conf/settings.toml"
    false rfl (by decide) isTree_plainProject
  have path : plainEnvironment.directory.resolve (.ofString "conf/settings.toml") =
    ⟨1, ["proj", "conf", "settings.toml"]⟩ := by decide
  rw [path] at writes
  have free : ¬ ('\x00' ∈ "conf/settings.toml".toList ∨
      Refused plainProject ["proj", "conf", "settings.toml"] false) :=
    not_or.mpr ⟨by decide, not_refused_plainProject (by decide)⟩
  obtain ⟨_, creates⟩ := writes free ⟨by decide, by decide⟩
  have directory := creates.above ["proj", "conf"] ⟨by decide, by decide⟩
  have notes := creates.others ["proj", "notes"] (by decide) (Or.inl nofun)
  exact ⟨isTree_plainProject, rfl, directory, creates.written, notes, (repeated later rfl rfl).1⟩

/-- A name of 256 bytes. -/
def longName : String := String.ofList (List.replicate 256 'n')

theorem toList_longName : longName.toList = List.replicate 256 'n' := String.toList_ofList

theorem isTooLong_longName : Workspace.isTooLong longName = true := by decide +kernel

theorem clean_longName : '\x00' ∉ longName.toList := by
  rw [toList_longName]
  intro member
  exact absurd (List.eq_of_mem_replicate member) (by decide)

theorem resolve_longName : plainEnvironment.directory.resolve (.ofString ("sub/" ++ longName)) =
    ⟨1, ["proj", "sub", longName]⟩ := by
  have parts : Path.partsOf ("sub/".toList ++ List.replicate 256 'n') = ["sub", longName] := by
    decide +kernel
  have slashes : Path.leadingSlashes '/' ("sub/".toList ++ List.replicate 256 'n') = 0 := by
    decide +kernel
  have target : Path.ofString ("sub/" ++ longName) = ⟨0, ["sub", longName]⟩ := by
    rw [Path.ofString, String.toList_append, toList_longName, parts, slashes]
  have settled : Path.settle ["proj", "sub", longName] = ["proj", "sub", longName] := by
    decide +kernel
  rw [target]
  exact congrArg (Path.mk 1) settled

theorem has_plainProject {name : String} (clean : '\x00' ∉ name.toList)
    (few : name.utf8ByteSize ≤ 256) : plainProject.has ⟨1, ["proj", "sub", name]⟩ = .ok false := by
  have size := Path.utf8ByteSize_text_concat 1 ["proj", "sub"] name
  have above : (⟨1, ["proj", "sub"]⟩ : Path).text.utf8ByteSize = 9 := by decide
  have whole : ¬ Workspace.pathLimit ≤ (⟨1, ["proj", "sub", name]⟩ : Path).text.utf8ByteSize := by
    rw [above, List.cons_append, List.cons_append, List.nil_append] at size
    rw [Workspace.pathLimit]
    omega
  rw [Workspace.has, Workspace.find_of_clean plainProject (by simp [clean]), if_neg whole]
  rfl

theorem StartEnds.leaves_directory {ended : Result}
    (ends : StartEnds plainProject ⟨1, ["proj", "sub", longName]⟩ false ended) :
    ended.Fails ∧ ended.workspace.get? ["proj", "sub", longName] = none ∧
      ended.workspace.get? ["proj", "sub"] = some .directory := by
  have absent := has_plainProject clean_longName (by decide +kernel)
  have made : plainProject.createDirectories ["proj", "sub"] =
    (plainProject.makeDirectories ["proj", "sub"], .ok ()) := rfl
  cases ends with
  | refused refuses => exact absurd (refuses false absent).1 (by decide)
  | failed _ _ failed =>
    refine ⟨⟨_, rfl⟩, ?_, ?_⟩
    · rcases Workspace.addsAbove_createFile failed ["proj", "sub", longName] with same | ⟨above, _⟩
      · rw [same]
        simp [Workspace.get?, plainProject]
      · exact absurd rfl above.2
    rcases Workspace.createFile_error_cases failed with unmade | ⟨directories, _⟩
    · rw [show List.dropLast _ = ["proj", "sub"] from rfl, made] at unmade
      cases unmade
    · exact Workspace.get?_of_createDirectories directories
  | written _ _ created _ =>
    have short := Workspace.short_of_createFile isTree_plainProject created longName (by simp)
    rw [isTooLong_longName] at short
    cases short

/-- In a directory that is missing no file of that name can be written, but the directory is made. -/
theorem start_of_long_name :
    let path := plainEnvironment.directory.resolve (.ofString ("sub/" ++ longName))
    let ended := (execute plainEnvironment (startLine ("sub/" ++ longName) false)).value
    plainProject.IsTree ∧ ¬ Refused plainProject path.parts false ∧ ended.Fails ∧
      ended.workspace.get? path.parts = none ∧ plainProject.get? ["proj", "sub"] = none ∧
      ended.workspace.get? ["proj", "sub"] = some .directory := by
  intro path ended
  have noNull : '\x00' ∉ ("sub/" ++ longName).toList := by
    rw [String.toList_append, List.mem_append, not_or]
    exact ⟨by decide, clean_longName⟩
  have ends : StartEnds plainProject path false ended := by
    simp only [ended, value_execute_startLine, if_neg noNull]
    exact startEnds_runStart plainEnvironment _ false
  rw [show path = _ from resolve_longName] at ends ⊢
  obtain ⟨fails, unwritten, directory⟩ := ends.leaves_directory
  exact ⟨isTree_plainProject, not_refused_plainProject (by decide), fails, unwritten, rfl, directory⟩

end Command

end Checkup
