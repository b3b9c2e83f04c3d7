import Checkup.Proofs.Path.Names

/-!
# Where a path leads

`LeadsTo` follows a path from the root by its text alone: an empty component and a single dot stay
where they are, and a double dot goes back over the name before it. `settle` computes that place
(`leadsTo_iff`). A way from one settled directory to another place climbs to the last directory that
both share and goes down from there (`exists_wayFrom`), so it leads to that place and is the only
one of its kind (`isCanonical_relativeText`).
-/

namespace Checkup.Path

/-- What stands between the slashes of a path. -/
def components (text : String) : List String := (Text.pieces '/' text.toList).map String.ofList

/-- The place, by the names that lead to it from the root, at which components arrive. -/
inductive LeadsTo : (components place : List String) → Prop
  | arrived {place} : Settled place → LeadsTo place place
  | here {before after place} {part : String} : part = "" ∨ part = "." →
      LeadsTo (before ++ after) place → LeadsTo (before ++ part :: after) place
  | back {before after place name} : IsName name →
      LeadsTo (before ++ after) place → LeadsTo (before ++ name :: ".." :: after) place
  | top {after place} : LeadsTo after place → LeadsTo (".." :: after) place

/-- `file` is how a place is written from the directory `root`: relative, with double dots only in
front and nothing that stays where it is. The place is where `target` leads. -/
structure IsCanonical (root : List String) (target file : String) : Prop where
  relative : file.toList.head? ≠ some '/'
  shape : file = "." ∨ ∃ ups names, components file = List.replicate ups ".." ++ names ∧ Settled names
  leads : ∃ place, LeadsTo (components target) place ∧ LeadsTo (root ++ components file) place

/-! ### Settling components -/

theorem undivided_of_mem_components {text part : String} (h : part ∈ components text) :
    '/' ∉ part.toList := by
  obtain ⟨piece, cut, rfl⟩ := List.mem_map.mp h
  rw [String.toList_ofList]
  exact Text.not_mem_of_mem_pieces cut

/-- The components that lead somewhere. -/
def moves (parts : List String) : List String :=
  parts.filter fun part => part != "" && part != "."

theorem moves_append (before after : List String) :
    moves (before ++ after) = moves before ++ moves after := List.filter_append ..

theorem moves_cons_here {part : String} (stays : part = "" ∨ part = ".") (rest : List String) :
    moves (part :: rest) = moves rest :=
  List.filter_cons_of_neg (by rcases stays with rfl | rfl <;> decide)

theorem moves_cons {part : String} (leaves : ¬ (part = "" ∨ part = ".")) (rest : List String) :
    moves (part :: rest) = part :: moves rest :=
  List.filter_cons_of_pos (by simpa using leaves)

theorem LeadsTo.settle_eq {parts place : List String} (h : LeadsTo parts place) :
    settle (moves parts) = place := by
  induction h with
  | arrived settled => rw [moves, filter_named settled, settle_of_settled settled]
  | here stays _ ih => rw [moves_append, moves_cons_here stays, ← moves_append, ih]
  | back name _ ih =>
    rw [← ih, moves_append, moves_cons name.moves, moves_cons (by decide), moves_append, settle,
      settle, List.foldl_append, List.foldl_append]
    simp [climb, name.notAbove]
  | top _ ih =>
    rw [← ih, moves_cons (by decide)]
    rfl

/-- The names passed so far stand in front of the components that are left. -/
theorem leadsTo_climb {above rest : List String} (settled : Settled above)
    (undivided : ∀ part ∈ rest, '/' ∉ part.toList) :
    LeadsTo (above.reverse ++ rest) ((moves rest).foldl climb above).reverse := by
  induction rest generalizing above with
  | nil =>
    rw [List.append_nil]
    exact .arrived fun part member => settled part (List.mem_reverse.mp member)
  | cons part rest ih =>
    obtain ⟨whole, others⟩ := List.forall_mem_cons.mp undivided
    by_cases stays : part = "" ∨ part = "."
    · rw [moves_cons_here stays]
      exact .here stays (ih settled others)
    · rw [moves_cons stays, List.foldl_cons, climb]
      split
      · next up =>
        subst up
        cases above with
        | nil => exact .top (ih settled others)
        | cons name above =>
          obtain ⟨isName, settled⟩ := List.forall_mem_cons.mp settled
          rw [List.reverse_cons, List.append_assoc]
          exact .back isName (ih settled others)
      · next down =>
        rw [not_or] at stays
        have settled : Settled (part :: above) :=
          List.forall_mem_cons.mpr ⟨⟨stays.1, stays.2, down, whole⟩, settled⟩
        have later := ih settled others
        rwa [List.reverse_cons, List.append_assoc] at later

theorem leadsTo_iff {parts place : List String} (undivided : ∀ part ∈ parts, '/' ∉ part.toList) :
    LeadsTo parts place ↔ settle (moves parts) = place := by
  constructor
  · exact LeadsTo.settle_eq
  · rintro rfl
    have nowhere : Settled [] := by simp [Settled]
    exact leadsTo_climb nowhere undivided

theorem leadsTo_components_iff {text : String} {place : List String} :
    LeadsTo (components text) place ↔ settle (partsOf text.toList) = place :=
  leadsTo_iff fun _ => undivided_of_mem_components

/-! ### Ways -/

theorem exists_wayFrom (root target : List String) : ∃ shared below names,
    root = shared ++ below ∧ target = shared ++ names ∧
      wayFrom root target = List.replicate below.length ".." ++ names := by
  fun_induction wayFrom root target with
  | case1 target => exact ⟨[], [], target, rfl, rfl, rfl⟩
  | case2 root _ => exact ⟨[], root, [], rfl, rfl, by simp [List.map_const']⟩
  | case3 root name target ih =>
    obtain ⟨shared, below, names, rfl, rfl, same⟩ := ih
    exact ⟨name :: shared, below, names, rfl, rfl, same⟩
  | case4 r root t target _ =>
    exact ⟨[], r :: root, t :: target, rfl, rfl, by simp [List.map_const', List.replicate_succ]⟩

theorem foldl_climb_replicate (n : Nat) (above : List String) :
    (List.replicate n "..").foldl climb above = above.drop n := by
  induction n generalizing above with
  | zero => rfl
  | succ n ih =>
    rw [List.replicate_succ, List.foldl_cons, ih, climb, if_pos rfl, List.drop_tail]

theorem settle_append_wayFrom {root target : List String} (hr : Settled root) (ht : Settled target) :
    settle (root ++ wayFrom root target) = target := by
  obtain ⟨shared, below, names, rfl, rfl, way⟩ := exists_wayFrom root target
  have hn : Settled names := fun part member => ht part (List.mem_append_right _ member)
  rw [way, settle, ← List.append_assoc, List.foldl_append, List.foldl_append,
    foldl_climb_of_settled hr, foldl_climb_replicate, foldl_climb_of_settled hn]
  simp

theorem components_text {parts : List String} (nonempty : parts ≠ [])
    (undivided : ∀ part ∈ parts, '/' ∉ part.toList) :
    components (⟨0, parts⟩ : Path).text = parts := by
  have clean : ∀ part ∈ parts.map String.toList, '/' ∉ part := List.forall_mem_map.mpr undivided
  have cut := Text.pieces_intercalate (by simpa using nonempty) clean
  rw [components, toList_text_of_spelled (Or.inr nonempty)]
  exact (congrArg (List.map String.ofList) cut).trans (map_ofList_toList parts)

/-! ### Canonical paths -/

theorem settled_settle_partsOf (text : List Char) : Settled (settle (partsOf text)) := by
  intro part member
  obtain ⟨listed, stays⟩ := mem_settle member
  obtain ⟨notEmpty, notHere, undivided⟩ := mem_partsOf listed
  exact ⟨notEmpty, notHere, stays, undivided⟩

theorem LeadsTo.unique {parts place other : List String} (h : LeadsTo parts place)
    (h' : LeadsTo parts other) : place = other := h.settle_eq.symm.trans h'.settle_eq

section

variable {root target : List String}

theorem moves_of_mem_wayFrom (ht : Settled target) {part : String}
    (member : part ∈ wayFrom root target) :
    ¬ (part = "" ∨ part = ".") ∧ '/' ∉ part.toList := by
  rcases mem_wayFrom member with rfl | below
  · decide
  · exact ⟨(ht part below).moves, (ht part below).undivided⟩

theorem leadsTo_append_wayFrom (hr : Settled root) (ht : Settled target) :
    LeadsTo (root ++ wayFrom root target) target := by
  have parts : ∀ part ∈ root ++ wayFrom root target,
      ¬ (part = "" ∨ part = ".") ∧ '/' ∉ part.toList := by
    intro part member
    rcases List.mem_append.mp member with above | way
    · exact ⟨(hr part above).moves, (hr part above).undivided⟩
    · exact moves_of_mem_wayFrom ht way
  have all : moves (root ++ wayFrom root target) = root ++ wayFrom root target :=
    List.filter_eq_self.mpr fun part member => by simpa using (parts part member).1
  rw [leadsTo_iff fun part member => (parts part member).2, all, settle_append_wayFrom hr ht]

theorem leadsTo_components_wayFrom (hr : Settled root) (ht : Settled target) :
    LeadsTo (root ++ components (⟨0, wayFrom root target⟩ : Path).text) target := by
  have leads := leadsTo_append_wayFrom hr ht
  cases way : wayFrom root target with
  | nil =>
    -- Without a step to go, the path is a dot.
    rw [way] at leads
    exact .here (Or.inr rfl) leads
  | cons first rest =>
    rwa [← way, components_text (by simp [way]) fun part member =>
      (moves_of_mem_wayFrom ht member).2]

end

variable {root : Path}

theorem isCanonical_relativeText (settled : Settled root.parts) (file : String) :
    IsCanonical root.parts file (relativeText root (.ofString file)) := by
  have ht := settled_settle_partsOf file.toList
  have base := settle_of_settled settled
  refine ⟨head?_relativeText_ne_slash root file, ?_, settle (partsOf file.toList),
    leadsTo_components_iff.mpr rfl, ?_⟩
  · rw [relativeText, base]
    obtain ⟨shared, below, names, hr, place, way⟩ :=
      exists_wayFrom root.parts (settle (partsOf file.toList))
    cases steps : wayFrom root.parts (settle (partsOf file.toList)) with
    | nil => exact Or.inl (by rw [ofString, steps]; rfl)
    | cons first rest =>
      refine Or.inr ⟨below.length, names, ?_, fun part member => ht part (by simp [place, member])⟩
      rw [ofString, ← way, components_text (by simp [steps]) fun part member =>
        (moves_of_mem_wayFrom ht member).2]
  · rw [relativeText, base]
    exact leadsTo_components_wayFrom settled ht

theorem relativeText_eq_iff (settled : Settled root.parts) {a b : String} :
    relativeText root (.ofString a) = relativeText root (.ofString b) ↔
      ∃ place, LeadsTo (components a) place ∧ LeadsTo (components b) place := by
  constructor
  · intro same
    obtain ⟨place, ha, back⟩ := (isCanonical_relativeText settled a).leads
    obtain ⟨other, hb, back'⟩ := (isCanonical_relativeText settled b).leads
    rw [← same] at back'
    obtain rfl := back.unique back'
    exact ⟨place, ha, hb⟩
  · rintro ⟨place, ha, hb⟩
    have sa := leadsTo_components_iff.mp ha
    have sb := leadsTo_components_iff.mp hb
    simp only [relativeText, ofString, sa, sb]

end Checkup.Path
