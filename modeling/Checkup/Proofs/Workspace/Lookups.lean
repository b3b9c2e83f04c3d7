import Checkup.Proofs.Steps
import Checkup.Proofs.Workspace.Limits

/-!
# What a path leads to

Whatever the program does with a path, it sees no more than what the path leads to (`standing?`), and
if it leads to nothing, whether that can be told (`standing?_eq_none_iff`). Paths that go on from a
directory lead to what stands in it under the rest of the path (`Enters.find_join`).
-/

namespace Checkup

/-- A text that can be the name of a file. -/
def Path.IsFileName (name : String) : Prop :=
  ofString name = ⟨0, [name]⟩ ∧ name ≠ ".." ∧ Workspace.isTooLong name = false ∧
    '\x00' ∉ name.toList

instance : DecidablePred Path.IsFileName := fun _ =>
  inferInstanceAs (Decidable (_ ∧ _))

namespace Workspace

/-- What an absolute path leads to, if anything. -/
def standing? (workspace : Workspace) (path : Path) : Option Entry :=
  match workspace.find path with
  | .ok (_, entry) => some entry
  | .error _ => none

/-- The first of some paths that leads to anything, and what it leads to. -/
def firstStanding? (workspace : Workspace) (paths : List Path) : Option (Path × Entry) :=
  paths.findSome? fun path => (workspace.standing? path).map (path, ·)

section

variable {workspace left right : Workspace} {path root : Path} {here there : Location}
  {entry : Entry}

theorem exists_find_of_standing (standing : workspace.standing? path = some entry) :
    ∃ there, workspace.find path = .ok (there, entry) := by
  unfold standing? at standing
  split at standing
  · next there other found =>
    obtain rfl := Option.some.inj standing
    exact ⟨there, found⟩
  · cases standing

theorem has_of_standing (standing : workspace.standing? path = some entry) :
    workspace.has path = .ok true := by
  obtain ⟨there, found⟩ := exists_find_of_standing standing
  rw [has, found]

theorem content_congr (standing : left.standing? path = some entry)
    (same : right.standing? path = some entry) : left.content path = right.content path := by
  obtain ⟨_, inLeft⟩ := exists_find_of_standing standing
  obtain ⟨_, inRight⟩ := exists_find_of_standing same
  rw [content, content, inLeft, inRight]
  cases entry <;> rfl

theorem exists_text_error (nothing : workspace.standing? path = none) :
    ∃ fault, workspace.text path = .error fault := by
  unfold standing? at nothing
  split at nothing
  · cases nothing
  · next fault failed =>
    refine ⟨fault, ?_⟩
    rw [text, rawText, content, failed]
    rfl

theorem eq_of_find_nameTooLong {other : Path}
    (failed : workspace.find path = .error (.nameTooLong other)) : other = path := by
  unfold find at failed
  split at failed
  · cases failed
  · split at failed
    · cases failed
      rfl
    · rcases follow_fault failed with missing | file | ⟨long, -⟩
      · cases missing
      · cases file
      · exact PathFault.nameTooLong.inj long

/-- Of a path that leads to nothing this can be told, unless it or a name in it is too long. -/
theorem standing?_eq_none_iff : workspace.standing? path = none ↔
    workspace.has path = .ok false ∨ workspace.has path = .error (.nameTooLong path) := by
  constructor
  · intro nothing
    unfold standing? at nothing
    split at nothing
    · cases nothing
    · next fault failed =>
      rw [has, failed]
      cases fault with
      | nameTooLong other =>
        obtain rfl := eq_of_find_nameTooLong failed
        exact Or.inr rfl
      | _ => exact Or.inl rfl
  · intro outcome
    cases standing : workspace.standing? path with
    | none => rfl
    | some entry =>
      rw [has_of_standing standing] at outcome
      rcases outcome with absent | long
      · cases absent
      · cases long

/-- Within the limits it can be told of every path whether it leads to anything. -/
theorem has_eq_of_room (workspace : Workspace) (room : path.LeavesRoom 0) :
    workspace.has path = .ok (workspace.standing? path).isSome := by
  cases standing : workspace.standing? path with
  | some entry => exact has_of_standing standing
  | none =>
    rcases standing?_eq_none_iff.mp standing with absent | long
    · exact absent
    · obtain ⟨found, usable⟩ := workspace.has_of_room room
      rw [long] at usable
      cases usable

/-! ### Following parts -/

/-- Where one part leads from a location. -/
def next (workspace : Workspace) (path : Path) (here : Location) (part : String) :
    Except PathFault Location :=
  match workspace.get? here with
  | none => .error (.notFound path)
  | some (.file _) => .error (.notDirectory path)
  | some .directory =>
    if part = ".." then .ok here.dropLast
    else if isTooLong part then .error (.nameTooLong path)
    else .ok (here ++ [part])

theorem follow_cons (workspace : Workspace) (path : Path) (here : Location) (part : String)
    (parts : List String) : workspace.follow path here (part :: parts) =
      workspace.next path here part >>= fun there => workspace.follow path there parts := by
  rw [follow, next]
  cases workspace.get? here with
  | none => rfl
  | some entry =>
    cases entry with
    | file content => rfl
    | directory =>
      dsimp only
      split
      · rfl
      · split <;> rfl

theorem next_of_ok {known : Path} {part : String}
    (found : workspace.next known here part = .ok there) :
    workspace.get? here = some .directory ∧ ∀ other : Workspace,
      other.get? here = some .directory → ∀ path, other.next path here part = .ok there := by
  unfold next at found
  split at found
  · cases found
  · cases found
  · next stands =>
    refine ⟨stands, ?_⟩
    intro other stands path
    rw [next, stands]
    dsimp only
    split at found
    · next up => rw [if_pos up, found]
    · next down =>
      rw [if_neg down]
      split at found
      · cases found
      · next fits => rw [if_neg fits, found]

/-- A way that is open stays open as long as all directories on it stay, and its name is only used
for faults. -/
theorem follow_of_ok {known : Path} {parts : List String}
    (found : workspace.follow known here parts = .ok (there, .directory)) {other : Workspace}
    (stays : ∀ location, workspace.get? location = some .directory →
      other.get? location = some .directory) (path : Path) :
    other.follow path here parts = .ok (there, .directory) := by
  induction parts generalizing here with
  | nil =>
    unfold follow at found ⊢
    split at found
    · cases found
    · next entry stands =>
      cases found
      rw [stays _ stands]
  | cons part parts ih =>
    rw [follow_cons] at found ⊢
    obtain ⟨middle, step, onward⟩ := exists_of_bind found
    obtain ⟨stands, again⟩ := next_of_ok step
    rw [again other (stays here stands) path]
    exact ih onward

theorem get?_of_follow {parts : List String}
    (found : workspace.follow path here parts = .ok (there, entry)) :
    workspace.get? there = some entry := by
  induction parts generalizing here with
  | nil =>
    unfold follow at found
    split at found
    · cases found
    · next stands =>
      cases found
      exact stands
  | cons part parts ih =>
    rw [follow_cons] at found
    obtain ⟨middle, _, onward⟩ := exists_of_bind found
    exact ih onward

theorem follow_append (workspace : Workspace) (path : Path) (here : Location)
    (parts more : List String) : workspace.follow path here (parts ++ more) =
      workspace.follow path here parts >>= fun reached => workspace.follow path reached.1 more := by
  induction parts generalizing here with
  | nil =>
    rw [List.nil_append, follow]
    cases stands : workspace.get? here with
    | some entry => rfl
    | none => cases more <;> simp [follow, stands, bind, Except.bind]
  | cons part parts ih =>
    rw [List.cons_append, follow_cons, follow_cons]
    cases workspace.next path here part with
    | error fault => rfl
    | ok there => exact ih there

/-! ### Files of a directory -/

/-- The parts of the path lead to a directory. -/
structure Enters (workspace : Workspace) (root : Path) (there : Location) : Prop where
  clean : ∀ part ∈ root.parts, '\x00' ∉ part.toList
  reached : ∀ path, workspace.follow path [] root.parts = .ok (there, .directory)

theorem enters_of_find (found : workspace.find root = .ok (there, .directory)) :
    workspace.Enters root there := by
  unfold find at found
  split at found
  · cases found
  · next clean =>
    split at found
    · cases found
    · exact ⟨by simpa using clean, follow_of_ok found fun _ stands => stands⟩

theorem Enters.find_join (enters : workspace.Enters root there) {name : String}
    (named : Path.IsFileName name) :
    workspace.find (root.join (.ofString name)) =
      if pathLimit ≤ (root.join (.ofString name)).text.utf8ByteSize then
        .error (.nameTooLong (root.join (.ofString name)))
      else match workspace.get? (there ++ [name]) with
        | none => .error (.notFound (root.join (.ofString name)))
        | some entry => .ok (there ++ [name], entry) := by
  obtain ⟨single, below, fits, clean⟩ := named
  have parts : (root.join (.ofString name)).parts = root.parts ++ [name] := by
    rw [single]
    rfl
  generalize root.join (.ofString name) = path at parts
  have noNull : (path.parts.any fun part => part.toList.contains '\x00') = false := by
    simpa [parts, clean] using enters.clean
  have step : workspace.next path there name = .ok (there ++ [name]) := by
    rw [next, get?_of_follow (enters.reached path)]
    simp [below, fits]
  rw [find, noNull, parts, follow_append, enters.reached path]
  show (if _ then _ else workspace.follow path there [name]) = _
  rw [follow_cons, step]
  rfl

theorem exists_enters {name : String} (named : Path.IsFileName name)
    (standing : workspace.standing? (root.join (.ofString name)) = some entry) :
    ∃ there, workspace.Enters root there := by
  obtain ⟨_, found⟩ := exists_find_of_standing standing
  have parts : (root.join (.ofString name)).parts = root.parts ++ [name] := by
    rw [named.1]
    rfl
  unfold find at found
  rw [parts, follow_append] at found
  split at found
  · cases found
  · next clean =>
    split at found
    · cases found
    · obtain ⟨⟨there, stands⟩, reached, onward⟩ := exists_of_bind found
      rw [follow_cons] at onward
      obtain ⟨last, step, _⟩ := exists_of_bind onward
      have directory := (next_of_ok step).1
      rw [get?_of_follow reached] at directory
      obtain rfl := Option.some.inj directory
      refine ⟨there, ?_, follow_of_ok reached fun _ stands => stands⟩
      intro part member null
      exact clean (List.any_eq_true.mpr
        ⟨part, List.mem_append_left _ member, by simpa using null⟩)

/-- Only the length of the path as a whole may keep a name in a directory from being looked up. -/
theorem Enters.has_join (enters : workspace.Enters root there) {name : String}
    (named : Path.IsFileName name) :
    workspace.has (root.join (.ofString name)) =
      if pathLimit ≤ (root.join (.ofString name)).text.utf8ByteSize then
        .error (.nameTooLong (root.join (.ofString name)))
      else .ok (workspace.standing? (root.join (.ofString name))).isSome := by
  rw [has, standing?, enters.find_join named]
  by_cases long : pathLimit ≤ (root.join (.ofString name)).text.utf8ByteSize
  · simp [long]
  · cases workspace.get? (there ++ [name]) <;> simp [long]

/-! ### Written files -/

/-- What is written into a directory stands there under its name. -/
theorem standing_of_writeFile (enters : workspace.Enters root there) {name text : String}
    (named : Path.IsFileName name)
    (fits : (root.join (.ofString name)).text.utf8ByteSize < pathLimit) {after : Workspace}
    (written : workspace.writeFile (there ++ [name]) text = (after, .ok ())) :
    after.standing? (root.join (.ofString name)) = some (.file (.text text)) := by
  unfold writeFile at written
  split at written
  · cases written
  · next free =>
    split at written
    · cases written
    · cases written
      have stays : ∀ location, workspace.get? location = some .directory →
          (workspace.put (there ++ [name]) (.file (.text text))).get? location =
            some .directory := by
        intro location stands
        have other : location ≠ there ++ [name] := by
          rintro rfl
          exact free stands
        simpa [get?, put, other] using stands
      have entered : (workspace.put (there ++ [name]) (.file (.text text))).Enters root there :=
        ⟨enters.clean, fun path => follow_of_ok (enters.reached path) stays path⟩
      rw [standing?, entered.find_join named, if_neg (Nat.not_le.mpr fits)]
      simp [get?, put]

end

end Workspace

end Checkup
