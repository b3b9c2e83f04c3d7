import Checkup.Json.Reader
import Checkup.Proofs.Json.Numbers
import Checkup.Proofs.Json.Strings
import Checkup.Proofs.Value.Same
import Mathlib.Tactic.Choose

/-!
# Reading what was written

A reader that goes over a written value comes to the state right after that value, whatever is open
and whatever follows (`Spells`). Tables are written in the order of their keys, so that what is read
is the same but for that order (`Value.Same`). `Portable.exists_read` puts this together for the
values that JSON can carry.
-/

namespace Checkup

namespace Json

/-! ### Resuming -/

/-- The state of a reader after a text. -/
def resume (state : State) (text : List Char) : Except Value.Fault State :=
  (tokens text).foldlM State.step state

theorem resume_of_tokens {text rest : List Char} {token : Token}
    (read : tokens text = token :: tokens rest) (state : State) :
    resume state text = state.step token >>= fun next => resume next rest := by
  unfold resume
  rw [read, List.foldlM_cons]

theorem resume_blank (state : State) (rest : List Char) :
    resume state (' ' :: rest) = resume state rest := by
  unfold resume
  rw [tokens]
  rfl

theorem resume_mark {c : Char} {token : Token} (solid : isSpace c = false)
    (mark : ∀ rest, lexeme c rest = (token, rest)) (state : State) (rest : List Char) :
    resume state (c :: rest) = state.step token >>= fun next => resume next rest :=
  resume_of_tokens (tokens_of_lexeme solid (mark rest)) state

/-! ### Spelling -/

/-- A text that takes a reader over a value of some depth. -/
structure Spells (text : List Char) (value : Value) (depth : Nat) : Prop where
  opens : ∀ rest, Ends rest → ∃ token more, tokens (text ++ rest) = token :: more ∧
    token ≠ .closeList
  reads : ∀ frames rest, Ends rest → frames.length + depth ≤ Value.depthLimit →
    resume (.needValue frames) (text ++ rest) = resume (.afterValue value frames) rest

theorem spells_of_tokens {text : List Char} {value : Value} {token : Token} (depth : Nat)
    (lexed : ∀ rest, Ends rest → tokens (text ++ rest) = token :: tokens rest)
    (begins : ∀ frames, beginValue frames token = .ok (.afterValue value frames)) :
    Spells text value depth where
  opens rest ends := by
    refine ⟨token, tokens rest, lexed rest ends, ?_⟩
    rintro rfl
    cases begins []
  reads frames rest ends _ := by
    rw [resume_of_tokens (lexed rest ends)]
    show (beginValue frames token >>= _) = _
    rw [begins]
    rfl

/-- The first item of a list is read like the others. -/
theorem Spells.resume_needItem {text : List Char} {value : Value} {depth : Nat}
    (spells : Spells text value depth) {rest : List Char} (ends : Ends rest)
    (frames : List Frame) :
    resume (.needItem frames) (text ++ rest) =
      resume (.needValue (.list [] :: frames)) (text ++ rest) := by
  obtain ⟨token, more, lexed, opens⟩ := spells.opens rest ends
  have step : State.step (.needItem frames) token =
      State.step (.needValue (.list [] :: frames)) token := by
    cases token with
    | closeList => exact absurd rfl opens
    | _ => rfl
  unfold resume
  rw [lexed, List.foldlM_cons, List.foldlM_cons, step]

/-! ### Lists -/

theorem ends_comma (rest : List Char) : Ends (',' :: rest) := by
  rintro c ⟨⟩
  exact Or.inl rfl

theorem ends_closeList (rest : List Char) : Ends (']' :: rest) := by
  rintro c ⟨⟩
  exact Or.inr (Or.inl rfl)

theorem ends_closeTable (rest : List Char) : Ends ('\x7d' :: rest) := by
  rintro c ⟨⟩
  exact Or.inr (Or.inr rfl)

/-- From its first item on, a list is read item by item. -/
theorem resume_items {depth : Nat} {frames : List Frame}
    (room : frames.length + 1 + depth ≤ Value.depthLimit) (rest : List Char)
    {piece : List Char × Value} {pieces : List (List Char × Value)}
    (spelled : ∀ item ∈ piece :: pieces, Spells item.1 item.2 depth) (items : List Value) :
    resume (.needValue (.list items :: frames))
        (separated ((piece :: pieces).map Prod.fst) ++ ']' :: rest) =
      resume (.afterValue (.list (items.reverse ++ (piece :: pieces).map Prod.snd)) frames)
        rest := by
  induction pieces generalizing piece items with
  | nil =>
    have first := (spelled piece List.mem_cons_self).reads (.list items :: frames)
      (']' :: rest) (ends_closeList rest) room
    show resume _ (piece.1 ++ ']' :: rest) = _
    rw [first, resume_mark rfl fun _ => rfl]
    show resume (.afterValue (.list (piece.2 :: items).reverse) frames) rest = _
    rw [List.reverse_cons]
    rfl
  | cons next pieces ih =>
    have first := (spelled piece List.mem_cons_self).reads (.list items :: frames)
      (',' :: ' ' :: (separated ((next :: pieces).map Prod.fst) ++ ']' :: rest))
      (ends_comma _) room
    have later := ih (fun item member => spelled item (List.mem_cons_of_mem piece member))
      (piece.2 :: items)
    calc resume (.needValue (.list items :: frames))
          ((piece.1 ++ ',' :: ' ' :: separated ((next :: pieces).map Prod.fst)) ++ ']' :: rest)
      _ = resume (.afterValue piece.2 (.list items :: frames))
          (',' :: ' ' :: (separated ((next :: pieces).map Prod.fst) ++ ']' :: rest)) := by
        rw [← first, List.append_assoc]
        rfl
      _ = resume (.needValue (.list (piece.2 :: items) :: frames))
          (separated ((next :: pieces).map Prod.fst) ++ ']' :: rest) := by
        rw [resume_mark rfl fun _ => rfl]
        exact resume_blank _ _
      _ = _ := by
        rw [later, List.reverse_cons, List.append_assoc]
        rfl

theorem exists_separated_cons (text : List Char) (texts : List (List Char)) :
    ∃ more, separated (text :: texts) = text ++ more ∧ ∀ rest, Ends rest → Ends (more ++ rest) := by
  cases texts with
  | nil => exact ⟨[], (List.append_nil text).symm, fun _ ends => ends⟩
  | cons next texts => exact ⟨_, rfl, fun _ _ => ends_comma _⟩

theorem spells_list {depth : Nat} {pieces : List (List Char × Value)}
    (spelled : ∀ item ∈ pieces, Spells item.1 item.2 depth) :
    Spells ('[' :: separated (pieces.map Prod.fst) ++ [ ']' ]) (.list (pieces.map Prod.snd))
      (depth + 1) where
  opens rest _ := ⟨.openList, _, tokens_of_lexeme rfl rfl, by simp⟩
  reads frames rest ends room := by
    have text : '[' :: separated (pieces.map Prod.fst) ++ [ ']' ] ++ rest =
        '[' :: (separated (pieces.map Prod.fst) ++ ']' :: rest) := by simp
    have opened : beginValue frames .openList = .ok (.needItem frames) := if_pos (by omega)
    rw [text, resume_mark rfl fun _ => rfl]
    show (beginValue frames .openList >>= _) = _
    rw [opened]
    show resume (.needItem frames) _ = _
    cases pieces with
    | nil => rw [List.map_nil, separated, List.nil_append, resume_mark rfl fun _ => rfl]; rfl
    | cons piece pieces =>
      obtain ⟨more, split, ended⟩ := exists_separated_cons piece.1 (pieces.map Prod.fst)
      have first := (spelled piece List.mem_cons_self).resume_needItem
        (ended _ (ends_closeList rest)) frames
      rw [← List.append_assoc, ← split] at first
      exact first.trans (resume_items (by omega) rest spelled [])

/-! ### Tables -/

theorem put_of_new {entries : Table} {key : CodeText} (new : key ∉ entries.map Prod.fst)
    (value : Value) : Table.put entries key value = entries ++ [(key, value)] := by
  induction entries with
  | nil => rfl
  | cons entry rest ih =>
    obtain ⟨other, known⟩ := entry
    rw [List.map_cons, List.mem_cons, not_or] at new
    rw [Table.put, if_neg (Ne.symm new.1), ih new.2]
    rfl

theorem new_of_distinct {entries : Table} {key : CodeText} {keys : List CodeText}
    (distinct : (entries.map Prod.fst ++ key :: keys).Nodup) : key ∉ entries.map Prod.fst := by
  intro known
  exact (List.nodup_append.mp distinct).2.2 key known key List.mem_cons_self rfl

theorem tokens_writeString {text : CodeText} (apart : HalvesApart text.points)
    (rest : List Char) : tokens (writeString text ++ rest) = .text text :: tokens rest := by
  have shape : writeString text ++ rest =
      '"' :: (text.points.flatMap escapePoint ++ '"' :: rest) := by simp [writeString]
  rw [shape]
  exact tokens_of_lexeme rfl (lexeme_writeString apart rest)

/-- A key with the text and the value of its entry. -/
structure Field where
  key : CodeText
  text : List Char
  value : Value

namespace Field

/-- The entry as it is written. -/
def written (field : Field) : List Char := writeString field.key ++ ':' :: ' ' :: field.text

/-- The entry as it is read. -/
def entry (field : Field) : CodeText × Value := (field.key, field.value)

/-- The key can be read back, and the text spells the value. -/
def Spelled (depth : Nat) (field : Field) : Prop :=
  HalvesApart field.key.points ∧ Spells field.text field.value depth

theorem Spelled.resume_written {depth : Nat} {field : Field} (spelled : field.Spelled depth)
    {frames : List Frame} (room : frames.length + 1 + depth ≤ Value.depthLimit) {rest : List Char}
    (ends : Ends rest) (entries : Table) :
    resume (.needKey entries frames) (field.written ++ rest) =
      resume (.afterValue field.value (.table entries field.key :: frames)) rest := by
  have value := spelled.2.reads (.table entries field.key :: frames) rest ends room
  rw [written, List.append_assoc, resume_of_tokens (tokens_writeString spelled.1 _)]
  show resume (.needColon field.key entries frames) (':' :: ' ' :: (field.text ++ rest)) = _
  rw [resume_mark rfl fun _ => rfl, ← value]
  exact resume_blank _ _

end Field

/-- From its first key on, a table is read entry by entry. -/
theorem resume_fields {depth : Nat} {frames : List Frame}
    (room : frames.length + 1 + depth ≤ Value.depthLimit) (rest : List Char) {field : Field}
    {fields : List Field} (spelled : ∀ entry ∈ field :: fields, entry.Spelled depth)
    {entries : Table} (distinct : (entries.map Prod.fst ++ (field :: fields).map Field.key).Nodup) :
    resume (.needKey entries frames)
        (separated ((field :: fields).map Field.written) ++ '\x7d' :: rest) =
      resume (.afterValue (.table (entries ++ (field :: fields).map Field.entry)) frames) rest := by
  induction fields generalizing field entries with
  | nil =>
    have first := (spelled field List.mem_cons_self).resume_written room (ends_closeTable rest)
      entries
    show resume _ (field.written ++ '\x7d' :: rest) = _
    rw [first, resume_mark rfl fun _ => rfl]
    show resume (.afterValue (.table (entries.put field.key field.value)) frames) rest = _
    rw [put_of_new (new_of_distinct distinct)]
    rfl
  | cons next fields ih =>
    have first := (spelled field List.mem_cons_self).resume_written room
      (ends_comma (' ' :: (separated ((next :: fields).map Field.written) ++ '\x7d' :: rest)))
      entries
    have put := put_of_new (new_of_distinct distinct) field.value
    have apart : ((entries ++ [field.entry]).map Prod.fst ++ (next :: fields).map Field.key).Nodup := by
      rwa [List.map_append, List.append_assoc]
    have later := ih (fun entry member => spelled entry (List.mem_cons_of_mem field member)) apart
    calc resume (.needKey entries frames)
          ((field.written ++ ',' :: ' ' :: separated ((next :: fields).map Field.written)) ++
            '\x7d' :: rest)
      _ = resume (.afterValue field.value (.table entries field.key :: frames))
          (',' :: ' ' :: (separated ((next :: fields).map Field.written) ++ '\x7d' :: rest)) := by
        rw [← first, List.append_assoc]
        rfl
      _ = resume (.needKey (entries ++ [field.entry]) frames)
          (separated ((next :: fields).map Field.written) ++ '\x7d' :: rest) := by
        rw [resume_mark rfl fun _ => rfl, Field.entry, ← put]
        exact resume_blank _ _
      _ = _ := by
        rw [later, List.append_assoc]
        rfl

/-- A table is read before anything that may follow. -/
theorem resume_table {depth : Nat} {fields : List Field}
    (spelled : ∀ field ∈ fields, field.Spelled depth) (distinct : (fields.map Field.key).Nodup)
    {frames : List Frame} (room : frames.length + (depth + 1) ≤ Value.depthLimit)
    (rest : List Char) :
    resume (.needValue frames)
        ('\x7b' :: separated (fields.map Field.written) ++ [ '\x7d' ] ++ rest) =
      resume (.afterValue (.table (fields.map Field.entry)) frames) rest := by
  have text : '\x7b' :: separated (fields.map Field.written) ++ [ '\x7d' ] ++ rest =
      '\x7b' :: (separated (fields.map Field.written) ++ '\x7d' :: rest) := by simp
  have opened : beginValue frames .openTable = .ok (.needFirstKey frames) := if_pos (by omega)
  rw [text, resume_mark rfl fun _ => rfl]
  show (beginValue frames .openTable >>= _) = _
  rw [opened]
  show resume (.needFirstKey frames) _ = _
  cases fields with
  | nil => rw [List.map_nil, separated, List.nil_append, resume_mark rfl fun _ => rfl]; rfl
  | cons field fields =>
    obtain ⟨more, split, _⟩ := exists_separated_cons field.written (fields.map Field.written)
    have first : resume (.needFirstKey frames) (field.written ++ (more ++ '\x7d' :: rest)) =
        resume (.needKey [] frames) (field.written ++ (more ++ '\x7d' :: rest)) := by
      rw [Field.written, List.append_assoc,
        resume_of_tokens (tokens_writeString (spelled field List.mem_cons_self).1 _),
        resume_of_tokens (tokens_writeString (spelled field List.mem_cons_self).1 _)]
      rfl
    rw [← List.append_assoc, ← split] at first
    exact first.trans (resume_fields (by omega) rest spelled distinct)

theorem spells_table {depth : Nat} {fields : List Field}
    (spelled : ∀ field ∈ fields, field.Spelled depth)
    (distinct : (fields.map Field.key).Nodup) :
    Spells ('\x7b' :: separated (fields.map Field.written) ++ [ '\x7d' ])
      (.table (fields.map Field.entry)) (depth + 1) where
  opens rest _ := ⟨.openTable, _, tokens_of_lexeme rfl rfl, by simp⟩
  reads _ rest _ room := resume_table spelled distinct room rest

/-! ### Values -/

/-- A value that JSON carries, nested up to a depth. Doubles and moments are left out, and what
would be read as something else. -/
inductive Portable : Nat → Value → Prop where
  | null (depth : Nat) : Portable depth .null
  | bool (depth : Nat) (b : Bool) : Portable depth (.bool b)
  | int (depth : Nat) {n : Int} (short : isLong n = false) : Portable depth (.int n)
  | str (depth : Nat) {text : CodeText} (apart : HalvesApart text.points) :
      Portable depth (.str text)
  | list {depth : Nat} {items : List Value} (each : ∀ item ∈ items, Portable depth item) :
      Portable (depth + 1) (.list items)
  | table {depth : Nat} {entries : Table} (distinct : (entries.map Prod.fst).Nodup)
      (keys : ∀ entry ∈ entries, HalvesApart entry.1.points)
      (each : ∀ entry ∈ entries, Portable depth entry.2) : Portable (depth + 1) (.table entries)

theorem writeItems_eq_map (items : List Value) : writeItems items = items.map writeValue := by
  induction items with
  | nil => rfl
  | cons item rest ih => rw [writeItems, ih, List.map_cons]

theorem writeFields_eq_map (entries : Table) :
    writeFields entries = entries.map fun entry => (entry.1, writeValue entry.2) := by
  induction entries with
  | nil => rfl
  | cons entry rest ih => rw [writeFields, ih, List.map_cons]

/-- The entries of a table in the order in which they are written. -/
def inOrder (entries : Table) : Table := entries.mergeSort fun a b => a.1.notAfter b.1

theorem inOrder_perm (entries : Table) : (inOrder entries).Perm entries :=
  List.mergeSort_perm entries _

theorem writeValue_table (entries : Table) :
    writeValue (.table entries) = '\x7b' :: separated ((inOrder entries).map fun entry =>
      writeString entry.1 ++ ':' :: ' ' :: writeValue entry.2) ++ [ '\x7d' ] := by
  have sorted : (inOrder entries).map (fun entry => (entry.1, writeValue entry.2)) =
      (entries.map fun entry => (entry.1, writeValue entry.2)).mergeSort
        fun a b => a.1.notAfter b.1 :=
    List.map_mergeSort fun _ _ _ _ => rfl
  rw [writeValue, writeEntries, writeFields_eq_map, ← sorted, List.map_map]
  rfl

/-- The fields of a table as it is written, whose values can be read back. -/
theorem exists_fields {depth : Nat} {entries : Table} (distinct : (entries.map Prod.fst).Nodup)
    (keys : ∀ entry ∈ entries, HalvesApart entry.1.points)
    (each : ∀ entry ∈ entries, ∃ found, Spells (writeValue entry.2) found depth ∧
      found.Same entry.2) :
    ∃ fields : List Field, (∀ field ∈ fields, field.Spelled depth) ∧
      (fields.map Field.key).Nodup ∧
      writeValue (.table entries) =
        '\x7b' :: separated (fields.map Field.written) ++ [ '\x7d' ] ∧
      Value.Same (.table (fields.map Field.entry)) (.table entries) := by
  choose! found spells same using each
  have within : ∀ entry ∈ inOrder entries, entry ∈ entries := fun entry =>
    (inOrder_perm entries).mem_iff.mp
  refine ⟨(inOrder entries).map fun entry => ⟨entry.1, writeValue entry.2, found entry⟩,
    ?_, ?_, ?_, .table ?_ ?_ (inOrder_perm entries)⟩
  · intro field member
    obtain ⟨entry, inside, rfl⟩ := List.mem_map.mp member
    exact ⟨keys entry (within entry inside), spells entry (within entry inside)⟩
  · rw [List.map_map]
    exact ((inOrder_perm entries).map Prod.fst).nodup_iff.mpr distinct
  · rw [writeValue_table, List.map_map]
    rfl
  · rw [List.map_map, List.map_map]
    rfl
  · rw [List.map_map, List.map_map, List.forall₂_map_left_iff, List.forall₂_map_right_iff,
      List.forall₂_same]
    exact fun entry inside => same entry (within entry inside)

theorem Portable.exists_spells {depth : Nat} {value : Value} (portable : Portable depth value) :
    ∃ found, Spells (writeValue value) found depth ∧ found.Same value := by
  induction portable with
  | null depth =>
    exact ⟨.null, spells_of_tokens depth (fun _ _ => tokens_of_lexeme rfl rfl) fun _ => rfl,
      .refl _⟩
  | bool depth b =>
    refine ⟨.bool b, ?_, .refl _⟩
    cases b with
    | false => exact spells_of_tokens depth (fun _ _ => tokens_of_lexeme rfl rfl) fun _ => rfl
    | true => exact spells_of_tokens depth (fun _ _ => tokens_of_lexeme rfl rfl) fun _ => rfl
  | @int depth n short =>
    have lexed : ∀ rest, Ends rest →
        tokens (writeValue (.int n) ++ rest) = .plain (.int n) :: tokens rest := by
      intro rest ends
      rw [writeValue, tokens_toString n ends, integer_toDigits short]
    exact ⟨.int n, spells_of_tokens depth lexed fun _ => rfl, .refl _⟩
  | @str depth text apart =>
    exact ⟨.str text, spells_of_tokens depth (fun rest _ => tokens_writeString apart rest)
      fun _ => rfl, .refl _⟩
  | @list depth items each ih =>
    choose! found spells same using ih
    refine ⟨.list (items.map found), ?_, .list ?_⟩
    · have spelled : ∀ piece ∈ items.map (fun item => (writeValue item, found item)),
          Spells piece.1 piece.2 depth := by
        intro piece member
        obtain ⟨item, inside, rfl⟩ := List.mem_map.mp member
        exact spells item inside
      have text := spells_list spelled
      rw [List.map_map, List.map_map] at text
      rw [writeValue, writeItems_eq_map]
      exact text
    · rw [List.forall₂_map_left_iff, List.forall₂_same]
      exact same
  | table distinct keys each ih =>
    obtain ⟨fields, spelled, unique, text, same⟩ := exists_fields distinct keys ih
    rw [text]
    exact ⟨_, spells_table spelled unique, same⟩

/-- What was written is read back, up to the order of entries. -/
theorem Portable.exists_read {depth : Nat} {value : Value} (portable : Portable depth value)
    (shallow : depth ≤ Value.depthLimit) :
    ∃ found, read (writeValue value) = .ok found ∧ found.Same value := by
  obtain ⟨found, spells, same⟩ := portable.exists_spells
  have nothing : Ends [] := by
    rintro c ⟨⟩
  have reads := spells.reads [] [] nothing (by simpa using shallow)
  rw [List.append_nil] at reads
  refine ⟨found, ?_, same⟩
  show resume (.needValue []) (writeValue value) >>= State.result = _
  rw [reads, resume, tokens]
  rfl

/-- A table that was written is read back also if only white space follows. -/
theorem Portable.exists_read_table {depth : Nat} {entries : Table}
    (portable : Portable depth (.table entries)) (shallow : depth ≤ Value.depthLimit)
    {rest : List Char} (blank : tokens rest = []) :
    ∃ found, read (writeValue (.table entries) ++ rest) = .ok (.table found) ∧
      Value.Same (.table found) (.table entries) := by
  cases portable with
  | table distinct keys each =>
    obtain ⟨fields, spelled, unique, text, same⟩ :=
      exists_fields distinct keys fun entry member => (each entry member).exists_spells
    refine ⟨_, ?_, same⟩
    show resume (.needValue []) _ >>= State.result = _
    rw [text, resume_table spelled unique (by simpa using shallow), resume, blank]
    rfl

theorem anyHoldsLong_eq_any (items : List Value) : anyHoldsLong items = items.any holdsLong := by
  induction items with
  | nil => rfl
  | cons item rest ih => rw [anyHoldsLong, ih, List.any_cons]

theorem fieldHoldsLong_eq_any (entries : Table) :
    fieldHoldsLong entries = entries.any fun entry => holdsLong entry.2 := by
  induction entries with
  | nil => rfl
  | cons entry rest ih => rw [fieldHoldsLong, ih, List.any_cons]

theorem Portable.holdsLong_eq_false {depth : Nat} {value : Value}
    (portable : Portable depth value) : holdsLong value = false := by
  induction portable with
  | null => rfl
  | bool => rfl
  | str => rfl
  | int depth short => exact short
  | list each ih =>
    rw [holdsLong, anyHoldsLong_eq_any, List.any_eq_false]
    exact fun item member => Bool.eq_false_iff.mp (ih item member)
  | table distinct keys each ih =>
    rw [holdsLong, fieldHoldsLong_eq_any, List.any_eq_false]
    exact fun entry member => Bool.eq_false_iff.mp (ih entry member)

end Json

end Checkup
