import Checkup.Json.Reader
import Checkup.Toml.Reader
import Checkup.Workspace

/-!
# Paths within the limits

What stands at a path can be told unless a name in it, or the path as a whole, is too long
(`has_of_room`). A directory whose path leaves room for a name has no such path among its files
(`has_join`). What stands in a file can be read unless it is nested too deeply (`IsShallow`).
-/

namespace Checkup

namespace Path

/-- No name in the path is too long, and the path stays within the limit with so many more bytes. -/
structure LeavesRoom (path : Path) (room : Nat) : Prop where
  names : ∀ part ∈ path.parts, Workspace.isTooLong part = false
  whole : path.text.utf8ByteSize + room < Workspace.pathLimit

/-- A text that is a single part, and has at most so many bytes. -/
def IsShortName (bytes : Nat) (name : String) : Prop :=
  ofString name = ⟨0, [name]⟩ ∧ name.utf8ByteSize ≤ bytes

instance (bytes : Nat) : DecidablePred (IsShortName bytes) := fun _ =>
  inferInstanceAs (Decidable (_ ∧ _))

theorem intercalate_concat {parts : List String} (nonempty : parts ≠ []) (name : String) :
    String.intercalate "/" (parts ++ [name]) = String.intercalate "/" parts ++ "/" ++ name := by
  induction parts with
  | nil => exact absurd rfl nonempty
  | cons first rest ih =>
    cases rest with
    | nil => simp [String.intercalate_cons_cons]
    | cons second rest =>
      have later := ih (List.cons_ne_nil _ _)
      simp only [List.cons_append] at later ⊢
      rw [String.intercalate_cons_cons, String.intercalate_cons_cons, later]
      simp only [String.append_assoc]

theorem utf8ByteSize_text_concat (slashes : Nat) (parts : List String) (name : String) :
    (⟨slashes, parts ++ [name]⟩ : Path).text.utf8ByteSize ≤
      (⟨slashes, parts⟩ : Path).text.utf8ByteSize + 1 + name.utf8ByteSize := by
  have longer : (⟨slashes, parts ++ [name]⟩ : Path).text =
      String.ofList (List.replicate slashes '/') ++ String.intercalate "/" (parts ++ [name]) := by
    rw [text, if_neg (by simp)]
  rw [longer]
  by_cases nonempty : parts = []
  · subst nonempty
    rw [text]
    split
    · next relative =>
      have none : slashes = 0 := by simpa using relative
      subst none
      simp
    · simp only [List.nil_append, String.intercalate_singleton, String.utf8ByteSize_append]
      omega
  · rw [text, if_neg (by simp [nonempty]), intercalate_concat nonempty]
    simp only [String.utf8ByteSize_append, show "/".utf8ByteSize = 1 from rfl]
    omega

theorem leavesRoom_join {root : Path} {bytes : Nat} (room : root.LeavesRoom (bytes + 1))
    (short : bytes ≤ Workspace.nameLimit) {name : String} (named : IsShortName bytes name) :
    (root.join (.ofString name)).LeavesRoom 0 := by
  obtain ⟨single, few⟩ := named
  have joined : root.join (.ofString name) = ⟨root.slashes, root.parts ++ [name]⟩ := by
    rw [single]
    rfl
  rw [joined]
  constructor
  · intro part member
    rcases List.mem_append.mp member with above | last
    · exact room.names part above
    · obtain rfl := List.mem_singleton.mp last
      simp only [Workspace.isTooLong, decide_eq_false_iff_not]
      omega
  · have size := utf8ByteSize_text_concat root.slashes root.parts name
    have whole : (⟨root.slashes, root.parts⟩ : Path).text.utf8ByteSize + (bytes + 1) <
        Workspace.pathLimit := room.whole
    omega

end Path

namespace Workspace

/-- Why parts cannot be followed: something on the way is missing or no directory, or a name is too
long. -/
theorem follow_fault {workspace : Workspace} {path : Path} {here : Location} {parts : List String}
    {fault : PathFault} (failed : workspace.follow path here parts = .error fault) :
    fault = .notFound path ∨ fault = .notDirectory path ∨
      (fault = .nameTooLong path ∧ ∃ part ∈ parts, isTooLong part = true) := by
  induction parts generalizing here with
  | nil =>
    unfold follow at failed
    split at failed
    · exact Or.inl (Except.error.inj failed).symm
    · cases failed
  | cons part parts ih =>
    have later : ∀ next, workspace.follow path next parts = .error fault →
        fault = .notFound path ∨ fault = .notDirectory path ∨
          (fault = .nameTooLong path ∧ ∃ name ∈ part :: parts, isTooLong name = true) := by
      intro next onward
      rcases ih onward with missing | file | ⟨long, name, member, tooLong⟩
      · exact Or.inl missing
      · exact Or.inr (Or.inl file)
      · exact Or.inr (Or.inr ⟨long, name, List.mem_cons_of_mem _ member, tooLong⟩)
    unfold follow at failed
    split at failed
    · exact Or.inl (Except.error.inj failed).symm
    · exact Or.inr (Or.inl (Except.error.inj failed).symm)
    · split at failed
      · exact later _ failed
      · split at failed
        · next tooLong =>
          exact Or.inr (Or.inr ⟨(Except.error.inj failed).symm, part, List.mem_cons_self, tooLong⟩)
        · exact later _ failed

theorem find_ne_nameTooLong (workspace : Workspace) {path : Path} (room : path.LeavesRoom 0)
    (other : Path) : workspace.find path ≠ .error (.nameTooLong other) := by
  have within : ¬ pathLimit ≤ path.text.utf8ByteSize := Nat.not_le.mpr room.whole
  unfold find
  split
  · exact nofun
  · intro failed
    rcases follow_fault failed with missing | file | ⟨_, part, member, tooLong⟩
    · cases missing
    · cases file
    · rw [room.names part member] at tooLong
      cases tooLong

theorem has_of_room (workspace : Workspace) {path : Path} (room : path.LeavesRoom 0) :
    ∃ found, workspace.has path = .ok found := by
  unfold has
  split
  · exact ⟨true, rfl⟩
  · next other long => exact absurd long (find_ne_nameTooLong workspace room other)
  · exact ⟨false, rfl⟩

theorem follow_concat_long {workspace : Workspace} {here there : Location} {parts : List String}
    {known : Path} (reached : workspace.follow known here parts = .ok (there, .directory))
    {name : String} (tooLong : isTooLong name = true) (path : Path) :
    workspace.follow path here (parts ++ [name]) = .error (.nameTooLong path) := by
  have notAbove : name ≠ ".." := by
    rintro rfl
    exact absurd tooLong (by decide)
  induction parts generalizing here with
  | nil =>
    unfold follow at reached
    split at reached
    · cases reached
    · next entry found =>
      obtain ⟨rfl, rfl⟩ := Prod.mk.inj (Except.ok.inj reached)
      rw [List.nil_append, follow, found]
      simp only [notAbove, tooLong, ↓reduceIte]
  | cons part parts ih =>
    unfold follow at reached
    split at reached
    · cases reached
    · cases reached
    · next found =>
      rw [List.cons_append, follow, found]
      dsimp only
      split at reached
      · next up =>
        rw [if_pos up]
        exact ih reached
      · next down =>
        rw [if_neg down]
        split at reached
        · cases reached
        · next fits =>
          rw [if_neg fits]
          exact ih reached

/-- A name that is too long cannot be looked up in a directory that exists. -/
theorem has_of_long {workspace : Workspace} {root : Path} {there : Location}
    (reached : workspace.find root = .ok (there, .directory)) {name : String}
    (clean : '\x00' ∉ name.toList) (tooLong : isTooLong name = true) :
    workspace.has (root.join ⟨0, [name]⟩) = .error (.nameTooLong (root.join ⟨0, [name]⟩)) := by
  have joined : root.join ⟨0, [name]⟩ = ⟨root.slashes, root.parts ++ [name]⟩ := rfl
  unfold find at reached
  split at reached
  · cases reached
  · next none =>
    split at reached
    · cases reached
    · have long : workspace.find (root.join ⟨0, [name]⟩) =
          .error (.nameTooLong (root.join ⟨0, [name]⟩)) := by
        rw [find, joined, if_neg (by simpa [clean] using none)]
        split
        · rfl
        · exact follow_concat_long reached tooLong _
      rw [has, long]

section

variable (workspace : Workspace) {root : Path} {bytes : Nat}

theorem has_join (room : root.LeavesRoom (bytes + 1)) (short : bytes ≤ nameLimit) {name : String}
    (named : Path.IsShortName bytes name) :
    ∃ found, workspace.has (root.join (.ofString name)) = .ok found :=
  has_of_room workspace (Path.leavesRoom_join room short named)

theorem firstOf_join (room : root.LeavesRoom (bytes + 1)) (short : bytes ≤ nameLimit)
    {names : List String} (named : ∀ name ∈ names, Path.IsShortName bytes name) :
    ∃ found, workspace.firstOf (names.map fun name => root.join (.ofString name)) = .ok found := by
  induction names with
  | nil => exact ⟨none, rfl⟩
  | cons name names ih =>
    obtain ⟨first, here⟩ := has_join workspace room short (named name List.mem_cons_self)
    obtain ⟨later, rest⟩ := ih fun other member => named other (List.mem_cons_of_mem _ member)
    rw [List.map_cons, firstOf, here]
    cases first with
    | true => exact ⟨_, rfl⟩
    | false => exact ⟨later, rest⟩

end

theorem mem_of_firstOf {workspace : Workspace} {paths : List Path} {path : Path}
    (first : workspace.firstOf paths = .ok (some path)) : path ∈ paths := by
  induction paths with
  | nil => cases first
  | cons other rest ih =>
    unfold firstOf at first
    cases found : workspace.has other with
    | error fault =>
      rw [found] at first
      cases first
    | ok present =>
      rw [found] at first
      cases present with
      | true =>
        obtain rfl : other = path := Option.some.inj (Except.ok.inj first)
        exact List.mem_cons_self
      | false => exact List.mem_cons_of_mem _ (ih first)

/-! ### Depth -/

/-- What stands in the file at a path, if it can be read, is not nested more deeply than the
decoders go. -/
structure IsShallow (workspace : Workspace) (path : Path) : Prop where
  json : ∀ text, workspace.text path = .ok text → ∀ deep, Json.read text ≠ .error (.tooDeep deep)
  toml : ∀ text, workspace.rawText path = .ok text →
    ∀ deep, Toml.read text.toList ≠ .error (.tooDeep deep)

theorem isShallow_of_text {workspace : Workspace} {path : Path} {written : String}
    (holds : workspace.rawText path = .ok written)
    (json : ∀ deep, Json.read (Text.unifyNewlines written.toList) ≠ .error (.tooDeep deep))
    (toml : ∀ deep, Toml.read written.toList ≠ .error (.tooDeep deep)) :
    workspace.IsShallow path := by
  constructor
  · intro text readable
    rw [Workspace.text, holds] at readable
    obtain rfl := Except.ok.inj readable
    exact json
  · intro text readable
    rw [holds] at readable
    obtain rfl := Except.ok.inj readable
    exact toml

end Workspace

end Checkup
