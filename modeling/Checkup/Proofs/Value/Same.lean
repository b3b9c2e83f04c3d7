import Checkup.Value
import Mathlib.Data.List.Forall2
import Mathlib.Data.List.Nodup

/-!
# Values up to the order of entries

A table is known by what it has under each key, not by the order of its entries.
`Same.exists_get?` says that tables that are the same but for that order have the same keys and,
under each of them, the same values.
-/

namespace Checkup

namespace Table

variable {table : Table} {key : CodeText} {value : Value}

theorem mem_of_get? (get : table.get? key = some value) : (key, value) ∈ table := by
  obtain ⟨before, after, rfl, _⟩ := List.lookup_eq_some_iff.mp get
  exact List.mem_append_right before List.mem_cons_self

theorem get?_of_mem (distinct : (table.map Prod.fst).Nodup) (member : (key, value) ∈ table) :
    table.get? key = some value := by
  obtain ⟨before, after, rfl⟩ := List.append_of_mem member
  apply List.lookup_eq_some_iff.mpr
  refine ⟨before, after, rfl, ?_⟩
  intro entry earlier
  rw [bne_iff_ne]
  rintro rfl
  rw [List.map_append] at distinct
  exact List.disjoint_of_nodup_append distinct (List.mem_map_of_mem earlier) List.mem_cons_self

end Table

namespace Value

/-- The values that differ in the order of entries at most. -/
inductive Same : Value → Value → Prop where
  | refl (value : Value) : Same value value
  | list {items others : List Value} :
      List.Forall₂ Same items others → Same (.list items) (.list others)
  | table {entries ordered others : Table} :
      entries.map Prod.fst = ordered.map Prod.fst →
      List.Forall₂ Same (entries.map Prod.snd) (ordered.map Prod.snd) → ordered.Perm others →
      Same (.table entries) (.table others)

theorem exists_mem_of_forall₂ {entries ordered : Table}
    (keys : entries.map Prod.fst = ordered.map Prod.fst)
    (values : List.Forall₂ Same (entries.map Prod.snd) (ordered.map Prod.snd)) {key : CodeText}
    {value : Value} (member : (key, value) ∈ ordered) :
    ∃ found, (key, found) ∈ entries ∧ found.Same value := by
  induction ordered generalizing entries with
  | nil => cases member
  | cons entry ordered ih =>
    cases entries with
    | nil => cases keys
    | cons first entries =>
      obtain ⟨name, content⟩ := first
      obtain ⟨sameKey, sameKeys⟩ := List.cons.inj keys
      obtain ⟨sameValue, sameValues⟩ := List.forall₂_cons.mp values
      rcases List.mem_cons.mp member with rfl | later
      · obtain rfl : name = key := sameKey
        exact ⟨content, List.mem_cons_self, sameValue⟩
      · obtain ⟨found, inside, same⟩ := ih sameKeys sameValues later
        exact ⟨found, List.mem_cons_of_mem _ inside, same⟩

theorem Same.exists_get? {entries others : Table} (same : Same (.table entries) (.table others))
    (distinct : (others.map Prod.fst).Nodup) {key : CodeText} {value : Value}
    (get : others.get? key = some value) :
    ∃ found, entries.get? key = some found ∧ found.Same value := by
  cases same with
  | refl => exact ⟨value, get, .refl value⟩
  | table keys values perm =>
    have unique : (entries.map Prod.fst).Nodup := by
      rw [keys]
      exact (perm.map Prod.fst).nodup_iff.mpr distinct
    obtain ⟨found, member, same⟩ :=
      exists_mem_of_forall₂ keys values (perm.mem_iff.mpr (Table.mem_of_get? get))
    exact ⟨found, Table.get?_of_mem unique member, same⟩

theorem Same.get?_eq_none {entries others : Table} (same : Same (.table entries) (.table others))
    {key : CodeText} (absent : others.get? key = none) : entries.get? key = none := by
  cases same with
  | refl => exact absent
  | table keys values perm =>
    have unknown : key ∉ others.map Prod.fst := by
      intro known
      obtain ⟨entry, member, rfl⟩ := List.mem_map.mp known
      have apart := List.lookup_eq_none_iff.mp absent entry member
      simp at apart
    rw [← (perm.map Prod.fst).mem_iff, ← keys] at unknown
    cases get : entries.get? key with
    | none => rfl
    | some value => exact absurd (List.mem_map_of_mem (Table.mem_of_get? get)) unknown

theorem Same.exists_items {value : Value} {others : List Value} (same : Same value (.list others)) :
    ∃ items, value = .list items ∧ List.Forall₂ Same items others := by
  cases same with
  | refl => exact ⟨others, rfl, List.forall₂_same.mpr fun item _ => .refl item⟩
  | list items => exact ⟨_, rfl, items⟩

theorem Same.exists_entries {value : Value} {others : Table} (same : Same value (.table others)) :
    ∃ entries, value = .table entries := by
  cases same with
  | refl => exact ⟨others, rfl⟩
  | table keys values perm => exact ⟨_, rfl⟩

end Value

end Checkup
