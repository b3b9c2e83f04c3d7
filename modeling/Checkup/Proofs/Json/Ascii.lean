import Checkup.Proofs.Json.RoundTrip

/-!
# ASCII

What is written consists of the printable ASCII characters alone, on one line
(`Portable.isVisible_of_mem`), whatever its texts hold.
-/

namespace Checkup.Json

/-- Whether a character is a printable ASCII one. -/
def isVisible (c : Char) : Bool := 0x20 ≤ c.toNat && c.toNat ≤ 0x7E

theorem isVisible_iff {c : Char} : isVisible c = true ↔ ' ' ≤ c ∧ c ≤ '~' := by
  rw [isVisible, Bool.and_eq_true, decide_eq_true_eq, decide_eq_true_eq]
  rfl

theorem isVisible_of_mem_hexDigits {width n : Nat} {c : Char}
    (digit : c ∈ Text.hexDigits width n) : isVisible c = true := by
  have digits : ∀ value < 16, isVisible (Nat.digitChar value) = true := by decide
  induction width generalizing n with
  | zero => cases digit
  | succ width ih =>
    rw [Text.hexDigits, List.mem_append, List.mem_singleton] at digit
    rcases digit with earlier | rfl
    · exact ih earlier
    · exact digits _ (Nat.mod_lt n (by decide))

theorem isVisible_of_mem_unitEscape {unit : Nat} {c : Char} (member : c ∈ unitEscape unit) :
    isVisible c = true := by
  rcases List.mem_cons.mp member with rfl | member
  · rfl
  · rcases List.mem_cons.mp member with rfl | member
    · rfl
    · exact isVisible_of_mem_hexDigits member

theorem isVisible_of_mem_escape {letter c : Char} (member : c ∈ escape letter) :
    isVisible c = true := by
  have short : ∀ mark ∈ [ '"', '\\', 'n', 'r', 't', 'b', 'f' ], c ∈ [ '\\', mark ] →
      isVisible c = true := by
    intro mark known member
    simp only [List.mem_cons, List.not_mem_nil, or_false] at known member
    rcases member with rfl | rfl
    · rfl
    · rcases known with rfl | rfl | rfl | rfl | rfl | rfl | rfl <;> rfl
  unfold escape at member
  split at member
  case h_8 =>
    dsimp only at member
    split at member
    · next visible =>
      rw [List.mem_singleton.mp member]
      exact visible
    · split at member
      · exact isVisible_of_mem_unitEscape member
      · rcases List.mem_append.mp member with member | member <;>
          exact isVisible_of_mem_unitEscape member
  all_goals exact short _ (by simp) member

theorem isVisible_of_mem_writeString {text : CodeText} {c : Char}
    (member : c ∈ writeString text) : isVisible c = true := by
  have shape : c = '"' ∨ c ∈ text.points.flatMap escapePoint := by
    simpa [writeString, or_comm, or_assoc] using member
  rcases shape with rfl | inside
  · rfl
  · obtain ⟨point, _, escaped⟩ := List.mem_flatMap.mp inside
    cases point with
    | char letter => exact isVisible_of_mem_escape escaped
    | half place => exact isVisible_of_mem_unitEscape escaped

theorem isVisible_of_mem_toString {n : Int} {c : Char} (member : c ∈ (toString n).toList) :
    isVisible c = true := by
  have digit : c ∈ Nat.toDigits 10 n.natAbs → isVisible c = true := by
    intro inside
    have isDigit := isDigit_of_mem_toDigits inside
    rw [Char.isDigit_iff_toNat] at isDigit
    have low : '0'.toNat = 0x30 := rfl
    have high : '9'.toNat = 0x39 := rfl
    simp only [isVisible, Bool.and_eq_true, decide_eq_true_eq]
    omega
  rw [toList_toString] at member
  split at member
  · rcases List.mem_cons.mp member with rfl | inside
    · rfl
    · exact digit inside
  · exact digit member

theorem mem_separated {texts : List (List Char)} {c : Char} (member : c ∈ separated texts) :
    c = ',' ∨ c = ' ' ∨ ∃ text ∈ texts, c ∈ text := by
  induction texts with
  | nil => cases member
  | cons text texts ih =>
    cases texts with
    | nil => exact Or.inr (Or.inr ⟨text, List.mem_cons_self, member⟩)
    | cons next texts =>
      rw [separated, List.mem_append, List.mem_cons, List.mem_cons] at member
      · rcases member with inside | comma | blank | later
        · exact Or.inr (Or.inr ⟨text, List.mem_cons_self, inside⟩)
        · exact Or.inl comma
        · exact Or.inr (Or.inl blank)
        · rcases ih later with comma | blank | ⟨other, known, inside⟩
          · exact Or.inl comma
          · exact Or.inr (Or.inl blank)
          · exact Or.inr (Or.inr ⟨other, List.mem_cons_of_mem text known, inside⟩)
      · simp

theorem isVisible_of_mem_enclosed {texts : List (List Char)} {opening closing c : Char}
    (opens : isVisible opening = true) (closes : isVisible closing = true)
    (each : ∀ text ∈ texts, ∀ letter ∈ text, isVisible letter = true)
    (member : c ∈ opening :: separated texts ++ [closing]) : isVisible c = true := by
  rw [List.mem_append, List.mem_cons, List.mem_singleton] at member
  rcases member with (rfl | inside) | rfl
  · exact opens
  · rcases mem_separated inside with rfl | rfl | ⟨text, known, inside⟩
    · rfl
    · rfl
    · exact each text known c inside
  · exact closes

theorem Portable.isVisible_of_mem {depth : Nat} {value : Value} (portable : Portable depth value) :
    ∀ c ∈ writeValue value, isVisible c = true := by
  induction portable with
  | null depth => exact List.all_eq_true.mp rfl
  | bool depth b =>
    cases b with
    | false => exact List.all_eq_true.mp rfl
    | true => exact List.all_eq_true.mp rfl
  | int depth short =>
    intro c member
    rw [writeValue] at member
    exact isVisible_of_mem_toString member
  | str depth apart =>
    intro c member
    rw [writeValue] at member
    exact isVisible_of_mem_writeString member
  | list each ih =>
    intro c member
    rw [writeValue, writeItems_eq_map] at member
    refine isVisible_of_mem_enclosed rfl rfl ?_ member
    intro text known
    obtain ⟨item, inside, rfl⟩ := List.mem_map.mp known
    exact ih item inside
  | table distinct keys each ih =>
    intro c member
    rw [writeValue_table] at member
    refine isVisible_of_mem_enclosed rfl rfl ?_ member
    intro text known letter inside
    obtain ⟨entry, listed, rfl⟩ := List.mem_map.mp known
    rw [List.mem_append, List.mem_cons, List.mem_cons] at inside
    rcases inside with key | rfl | rfl | content
    · exact isVisible_of_mem_writeString key
    · rfl
    · rfl
    · exact ih entry ((inOrder_perm _).mem_iff.mp listed) letter content

end Checkup.Json
