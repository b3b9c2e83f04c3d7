import Checkup.Proofs.Value.Legible
import Checkup.Toml.Reader

/-!
# What TOML is read as

The texts of a TOML document consist of characters, so that its values are legible. A document under
construction stays so with every change (`Keeps.within`) and every line (`legible_of_linesOf`).
-/

namespace Checkup.Toml

/-! ### Scalars -/

section

variable {text rest : List Char} {value : Value}

theorem legible_of_word? (found : word? text = some (value, rest)) : value.Legible := by
  obtain ⟨⟨word, known⟩, member, cut⟩ := List.exists_of_findSome?_eq_some found
  obtain ⟨after, _, same⟩ := Option.map_eq_some_iff.mp cut
  have plain : ∀ entry ∈ words, entry.2.Legible := by
    simp [words, Value.Legible.bool, Value.Legible.float]
  cases same
  exact plain _ member

theorem legible_of_moment? (found : moment? text = some (.ok (value, rest))) : value.Legible := by
  unfold moment? at found
  split at found
  · next isReal after _ =>
    cases isReal with
    | false => cases found
    | true =>
      cases found
      exact .moment _
  · obtain ⟨after, _, same⟩ := Option.map_eq_some_iff.mp found
    cases same
    exact .moment _

theorem legible_of_basedNumber? (found : basedNumber? text = some (value, rest)) :
    value.Legible := by
  unfold basedNumber? at found
  split at found
  · obtain ⟨base, _, found⟩ := Option.bind_eq_some_iff.mp found
    obtain ⟨⟨digits, after⟩, _, found⟩ := Option.bind_eq_some_iff.mp found
    cases found
    exact .int _
  · cases found

theorem legible_of_decimal? (found : decimal? text = some (.ok (value, rest))) :
    value.Legible := by
  unfold decimal? at found
  obtain ⟨⟨digits, after⟩, _, found⟩ := Option.bind_eq_some_iff.mp found
  dsimp only at found
  split at found
  · split at found
    · cases found
    · cases found
      exact .int _
  · cases found
    exact .float _

theorem legible_of_scalar (reads : scalar text = .ok (value, rest)) : value.Legible := by
  unfold scalar at reads
  split at reads
  · obtain ⟨found, _, same⟩ := exists_of_map reads
    cases same
    exact Value.legible_ofString _
  · obtain ⟨found, _, same⟩ := exists_of_map reads
    cases same
    exact Value.legible_ofString _
  · split at reads
    · next word =>
      cases reads
      exact legible_of_word? word
    · split at reads
      · next moment => exact legible_of_moment? (moment.trans (congrArg some reads))
      · split at reads
        · next number =>
          cases reads
          exact legible_of_basedNumber? number
        · cases number : decimal? text with
          | none =>
            rw [number] at reads
            cases reads
          | some outcome =>
            rw [number] at reads
            exact legible_of_decimal? (number.trans (congrArg some reads))

end

/-! ### Documents -/

/-- Legible tables stay legible under the change. -/
def Keeps (change : Table → Except Value.Fault Table) : Prop :=
  ∀ table changed, table.Legible → change table = .ok changed → changed.Legible

theorem Keeps.within {change : Table → Except Value.Fault Table} (keeps : Keeps change)
    (key : Key) : Keeps (within change key) := by
  induction key with
  | nil => exact keeps
  | cons part key ih =>
    intro table changed legible done
    unfold Toml.within at done
    split at done
    · obtain ⟨inner, inside, result⟩ := exists_of_bind done
      cases result
      exact legible.put _ (.table (ih _ _ Table.legible_nil inside))
    · next entries get =>
      obtain ⟨inner, inside, result⟩ := exists_of_bind done
      cases result
      have known := Table.legible_table_iff.mp (legible.of_get? get)
      exact legible.put _ (.table (ih _ _ known inside))
    · next items get =>
      split at done
      · next entries last =>
        obtain ⟨inner, inside, result⟩ := exists_of_bind done
        cases result
        have known := Value.legible_list_iff.mp (legible.of_get? get)
        have table := Table.legible_table_iff.mp (known _ (List.mem_of_getLast? last))
        refine legible.put _ (.list ?_)
        rw [List.forall_mem_append, List.forall_mem_singleton]
        exact ⟨fun item member => known item ((List.dropLast_sublist items).subset member),
          .table (ih _ _ table inside)⟩
      · cases done
    · cases done

namespace Document

variable {document next : Document} {key : Key} {value : Value}

theorem keeps_ok : Keeps .ok := by
  intro table changed legible done
  cases done
  exact legible

theorem keeps_addItem (part : String) : Keeps (addItem part) := by
  intro table changed legible done
  unfold addItem at done
  split at done
  · cases done
    exact legible.put _ (.list (by simpa using Value.Legible.table Table.legible_nil))
  · next items get =>
    cases done
    have known := Value.legible_list_iff.mp (legible.of_get? get)
    refine legible.put _ (.list ?_)
    rw [List.forall_mem_append, List.forall_mem_singleton]
    exact ⟨known, .table Table.legible_nil⟩
  · cases done

theorem keeps_addEntry (part : String) (fine : value.Legible) : Keeps (addEntry part value) := by
  intro table changed legible done
  unfold addEntry at done
  split at done
  · cases done
  · cases done
    exact legible.put _ fine

theorem legible_openTable (legible : document.table.Legible)
    (opens : document.openTable key = .ok next) : next.table.Legible := by
  unfold openTable at opens
  dsimp only at opens
  split at opens
  · cases opens
  · obtain ⟨table, changed, result⟩ := exists_of_bind opens
    cases result
    exact keeps_ok.within key _ _ legible changed

theorem legible_openItem (legible : document.table.Legible)
    (opens : document.openItem key = .ok next) : next.table.Legible := by
  unfold openItem at opens
  dsimp only at opens
  split at opens
  · cases opens
  · obtain ⟨table, changed, result⟩ := exists_of_bind opens
    cases result
    exact (keeps_addItem _).within _ _ _ legible changed

theorem legible_assign (legible : document.table.Legible) (fine : value.Legible)
    (assigns : document.assign key value = .ok next) : next.table.Legible := by
  unfold assign at assigns
  dsimp only at assigns
  split at assigns
  · cases assigns
  · obtain ⟨table, changed, result⟩ := exists_of_bind assigns
    cases result
    exact (keeps_addEntry _ fine).within _ _ _ legible changed

end Document

/-! ### Values -/

mutual

theorem legible_of_valueOf {bound room : Nat} {text rest : List Char} {value : Value}
    (reads : valueOf bound room text = .ok (value, rest)) : value.Legible := by
  match bound with
  | 0 =>
    unfold valueOf at reads
    cases reads
  | bound + 1 =>
    unfold valueOf at reads
    split at reads
    · split at reads
      · cases reads
      · obtain ⟨items, _, reads⟩ := exists_of_bind reads
        split at reads
        · cases reads
          exact .list (List.forall_mem_nil _)
        · exact legible_of_itemsOf (List.forall_mem_nil _) reads
    · split at reads
      · cases reads
      · split at reads
        · cases reads
          exact .table Table.legible_nil
        · exact legible_of_entriesOf Table.legible_nil reads
    · exact legible_of_scalar reads

theorem legible_of_itemsOf {bound room : Nat} {done : List Value} {text rest : List Char}
    {value : Value} (legible : ∀ item ∈ done, item.Legible)
    (reads : itemsOf bound room done text = .ok (value, rest)) : value.Legible := by
  match bound with
  | 0 =>
    unfold itemsOf at reads
    cases reads
  | bound + 1 =>
    unfold itemsOf at reads
    obtain ⟨⟨item, afterItem⟩, first, reads⟩ := exists_of_bind reads
    have more : ∀ other ∈ item :: done, other.Legible :=
      List.forall_mem_cons.mpr ⟨legible_of_valueOf first, legible⟩
    have whole : Value.Legible (.list (item :: done).reverse) :=
      .list fun other member => more other (List.mem_reverse.mp member)
    obtain ⟨filled, _, reads⟩ := exists_of_bind reads
    split at reads
    · cases reads
      exact whole
    · obtain ⟨next, _, reads⟩ := exists_of_bind reads
      split at reads
      · cases reads
        exact whole
      · exact legible_of_itemsOf more reads
    · cases reads

theorem legible_of_entriesOf {bound room : Nat} {done : Document} {text rest : List Char}
    {value : Value} (legible : done.table.Legible)
    (reads : entriesOf bound room done text = .ok (value, rest)) : value.Legible := by
  match bound with
  | 0 =>
    unfold entriesOf at reads
    cases reads
  | bound + 1 =>
    unfold entriesOf at reads
    obtain ⟨⟨name, afterName⟩, _, reads⟩ := exists_of_bind reads
    dsimp only at reads
    split at reads
    · obtain ⟨⟨entry, afterEntry⟩, given, reads⟩ := exists_of_bind reads
      obtain ⟨next, assigned, reads⟩ := exists_of_bind reads
      have more := Document.legible_assign legible (legible_of_valueOf given) assigned
      split at reads
      · cases reads
        exact .table more
      · exact legible_of_entriesOf more reads
      · cases reads
    · cases reads

end

/-! ### Lines -/

theorem legible_of_statement {document next : Document} {text rest : List Char}
    (legible : document.table.Legible) (reads : statement document text = .ok (next, rest)) :
    next.table.Legible := by
  unfold statement at reads
  split at reads
  · obtain ⟨⟨name, afterName⟩, _, reads⟩ := exists_of_bind reads
    obtain ⟨opened, opens, reads⟩ := exists_of_bind reads
    split at reads
    · cases reads
      exact Document.legible_openItem legible opens
    · cases reads
  · split at reads
    · obtain ⟨⟨name, afterName⟩, _, reads⟩ := exists_of_bind reads
      obtain ⟨opened, opens, reads⟩ := exists_of_bind reads
      split at reads
      · cases reads
        exact Document.legible_openTable legible opens
      · cases reads
    · obtain ⟨⟨name, afterName⟩, _, reads⟩ := exists_of_bind reads
      dsimp only at reads
      split at reads
      · obtain ⟨⟨entry, afterEntry⟩, given, reads⟩ := exists_of_bind reads
        obtain ⟨assigned, assigns, reads⟩ := exists_of_bind reads
        cases reads
        exact Document.legible_assign legible (legible_of_valueOf given) assigns
      · cases reads

/-- The document after the end of a line and at most so many lines more. -/
def lineEnd (bound : Nat) (document : Document) (rest : List Char) : Except Value.Fault Document := do
  match ← skipComment (skipSpaces rest) with
  | [] => return document
  | '\n' :: rest => linesOf bound document rest
  | _ => .error .malformed

theorem legible_of_linesOf {bound : Nat} {document final : Document} {text : List Char}
    (legible : document.table.Legible) (reads : linesOf bound document text = .ok final) :
    final.table.Legible := by
  induction bound generalizing document text with
  | zero => cases reads
  | succ bound ih =>
    have onward : ∀ {next : Document} {rest : List Char}, next.table.Legible →
        lineEnd bound next rest = .ok final → final.table.Legible := by
      intro next rest legible reads
      obtain ⟨after, _, reads⟩ := exists_of_bind reads
      split at reads
      · cases reads
        exact legible
      · exact ih legible reads
      · cases reads
    unfold linesOf at reads
    split at reads
    · cases reads
      exact legible
    · exact ih legible reads
    · dsimp only at reads
      split at reads
      · exact onward legible reads
      · obtain ⟨⟨next, rest⟩, stated, reads⟩ := exists_of_bind reads
        exact onward (legible_of_statement legible stated) reads

/-- Whatever is read is legible. -/
theorem legible_of_read {text : List Char} {table : Table} (reads : read text = .ok table) :
    table.Legible := by
  obtain ⟨document, lines, rfl⟩ := exists_of_map reads
  exact legible_of_linesOf Table.legible_nil lines

end Checkup.Toml
