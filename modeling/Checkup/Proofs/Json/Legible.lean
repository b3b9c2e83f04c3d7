import Checkup.Json.Reader
import Checkup.Proofs.Value.Legible

/-!
# What JSON is read as

Two halves of a pair that are next to each other are read as one character, so that they are apart
in whatever is read (`halvesApart_joinUnits`). Each token keeps what a reader has in hand legible
(`State.Legible.step`), and so does a whole text (`legible_of_read`).
-/

namespace Checkup.Json

/-! ### Texts -/

theorem ofNat_eq_char_or (n : Nat) :
    (∃ c, CodePoint.ofNat n = .char c) ∨ (CodePoint.ofNat n).toNat = n := by
  unfold CodePoint.ofNat
  split
  · next half => exact Or.inr (Nat.add_sub_cancel' half.1)
  · exact Or.inl ⟨_, rfl⟩

theorem not_isLowHalf_toNat (c : Char) : ¬ isLowHalf c.toNat := by
  have valid := toNat_valid c
  simp only [isLowHalf, Bool.and_eq_true, decide_eq_true_eq]
  omega

theorem half_of_ofNat {isHalf : Nat → Bool} (noChar : ∀ c : Char, ¬ isHalf c.toNat) {n : Nat}
    (half : isHalf (CodePoint.ofNat n).toNat) : isHalf n := by
  rcases ofNat_eq_char_or n with ⟨c, char⟩ | same
  · rw [char] at half
    exact absurd half (noChar c)
  · rwa [same] at half

/-- Two halves of a pair make a character beyond the first plane. -/
theorem exists_char_of_pair (high low : Nat) :
    ∃ c, CodePoint.ofNat (0x10000 + (high - 0xD800) * 0x400 + (low - 0xDC00)) = .char c := by
  unfold CodePoint.ofNat
  rw [dif_neg (by rw [CodePoint.firstHalf]; omega)]
  exact ⟨_, rfl⟩

/-- The first code point that is read is a second half only if the first unit is one. -/
theorem isLowHalf_of_head_joinUnits {units : List Nat} {point : CodePoint}
    (first : point ∈ (joinUnits units).head?) (low : isLowHalf point.toNat) :
    ∃ unit ∈ units.head?, isLowHalf unit := by
  unfold joinUnits at first
  split at first
  · cases first
  · next unit =>
    obtain rfl := Option.some.inj first
    exact ⟨unit, rfl, half_of_ofNat not_isLowHalf_toNat low⟩
  · next unit next rest =>
    split at first
    · obtain rfl := Option.some.inj first
      obtain ⟨c, char⟩ := exists_char_of_pair unit next
      rw [char] at low
      exact absurd low (not_isLowHalf_toNat c)
    · obtain rfl := Option.some.inj first
      exact ⟨unit, rfl, half_of_ofNat not_isLowHalf_toNat low⟩

theorem halvesApart_joinUnits (units : List Nat) : HalvesApart (joinUnits units) := by
  fun_induction joinUnits units with
  | case1 => exact .nil
  | case2 unit => exact .singleton _
  | case3 high low rest pair ih =>
    apply List.isChain_cons.mpr
    refine ⟨?_, ih⟩
    rintro point _ ⟨half, _⟩
    obtain ⟨c, char⟩ := exists_char_of_pair high low
    rw [char] at half
    exact not_isHighHalf_toNat c half
  | case4 high low rest unpaired ih =>
    apply List.isChain_cons.mpr
    refine ⟨?_, ih⟩
    rintro point first ⟨half, second⟩
    obtain ⟨unit, head, lowHalf⟩ := isLowHalf_of_head_joinUnits first second
    obtain rfl : low = unit := Option.some.inj head
    exact unpaired (by rw [half_of_ofNat not_isHighHalf_toNat half, lowHalf]; rfl)

/-! ### Tokens -/

/-- What the token carries is legible. -/
def Token.Legible : Token → Prop
  | .plain value => value.Legible
  | .text s => HalvesApart s.points
  | _ => True

theorem legible_integer (negative : Bool) (digits : List Char) :
    (integer negative digits).Legible := by
  unfold integer
  split
  · trivial
  · exact .int _

theorem legible_of_unsigned? {negative : Bool} {text rest : List Char} {token : Token}
    (read : unsigned? negative text = some (token, rest)) : token.Legible := by
  unfold unsigned? at read
  dsimp only at read
  split at read
  · cases read
  · split at read
    · cases read
      exact legible_integer negative _
    · cases read
      exact .float _

theorem legible_of_word? {text rest : List Char} {token : Token}
    (read : word? text = some (token, rest)) : token.Legible := by
  obtain ⟨⟨word, value⟩, member, found⟩ := List.exists_of_findSome?_eq_some read
  obtain ⟨after, _, same⟩ := Option.map_eq_some_iff.mp found
  have plain : ∀ entry ∈ words, entry.2.Legible := by
    simp [words, Value.Legible.null, Value.Legible.bool, Value.Legible.float]
  cases same
  exact plain _ member

theorem legible_lexeme (c : Char) (rest : List Char) : (lexeme c rest).1.Legible := by
  unfold lexeme
  split
  case h_7 =>
    split
    · exact halvesApart_joinUnits _
    · trivial
  case h_8 =>
    cases read : (word? (c :: rest)).or (number? (c :: rest)) with
    | none => trivial
    | some lexed =>
      obtain ⟨token, after⟩ := lexed
      rcases Option.or_eq_some_iff.mp read with word | ⟨_, number⟩
      · exact legible_of_word? word
      · unfold number? at number
        split at number <;> exact legible_of_unsigned? number
  all_goals trivial

theorem legible_of_mem_tokens {text : List Char} : ∀ token ∈ tokens text, token.Legible := by
  fun_induction tokens text with
  | case1 => exact List.forall_mem_nil _
  | case2 c rest space ih => exact ih
  | case3 c rest solid shorter ih =>
    exact List.forall_mem_cons.mpr ⟨legible_lexeme c rest, ih⟩

/-! ### Values -/

/-- What has been read into a list or a table is legible. -/
def Frame.Legible : Frame → Prop
  | .list items => ∀ item ∈ items, item.Legible
  | .table entries _ => Table.Legible entries

/-- Whatever the reader has in hand is legible. -/
def State.Legible : State → Prop
  | .needValue frames | .needItem frames | .needFirstKey frames => ∀ frame ∈ frames, frame.Legible
  | .needKey entries frames | .needColon _ entries frames =>
    Table.Legible entries ∧ ∀ frame ∈ frames, frame.Legible
  | .afterValue value frames => value.Legible ∧ ∀ frame ∈ frames, frame.Legible

theorem legible_afterValue_cons_iff {value : Value} {frame : Frame} {frames : List Frame} :
    (State.afterValue value (frame :: frames)).Legible ↔
      value.Legible ∧ frame.Legible ∧ ∀ outer ∈ frames, outer.Legible :=
  and_congr_right fun _ => List.forall_mem_cons

theorem legible_beginValue {frames : List Frame} {token : Token} {next : State}
    (legible : ∀ frame ∈ frames, frame.Legible) (fine : token.Legible)
    (begins : beginValue frames token = .ok next) : next.Legible := by
  unfold beginValue at begins
  split at begins
  · cases begins
    exact ⟨fine, legible⟩
  · cases begins
    exact ⟨.str fine, legible⟩
  · split at begins
    · cases begins
      exact legible
    · cases begins
  · split at begins
    · cases begins
      exact legible
    · cases begins
  · cases begins
  · cases begins

theorem State.Legible.step {state next : State} {token : Token} (legible : state.Legible)
    (fine : token.Legible) (stepped : state.step token = .ok next) : next.Legible := by
  unfold State.step at stepped
  split at stepped
  · exact legible_beginValue legible fine stepped
  · cases stepped
    exact ⟨.list (List.forall_mem_nil _), legible⟩
  · next frames token other =>
    refine legible_beginValue ?_ fine stepped
    exact List.forall_mem_cons.mpr ⟨List.forall_mem_nil _, legible⟩
  · cases stepped
    exact ⟨.table Table.legible_nil, legible⟩
  · cases stepped
    exact ⟨Table.legible_nil, legible⟩
  · cases stepped
    exact legible
  · cases stepped
    exact List.forall_mem_cons.mpr legible
  · cases stepped
    obtain ⟨latest, earlier, outer⟩ := legible_afterValue_cons_iff.mp legible
    exact List.forall_mem_cons.mpr ⟨List.forall_mem_cons.mpr ⟨latest, earlier⟩, outer⟩
  · cases stepped
    obtain ⟨latest, earlier, outer⟩ := legible_afterValue_cons_iff.mp legible
    refine ⟨.list ?_, outer⟩
    intro item member
    exact List.forall_mem_cons.mpr ⟨latest, earlier⟩ item (List.mem_reverse.mp member)
  · next key frames =>
    cases stepped
    obtain ⟨latest, earlier, outer⟩ := legible_afterValue_cons_iff.mp legible
    exact ⟨Table.Legible.put earlier key latest, outer⟩
  · next key frames =>
    cases stepped
    obtain ⟨latest, earlier, outer⟩ := legible_afterValue_cons_iff.mp legible
    exact ⟨.table (Table.Legible.put earlier key latest), outer⟩
  · cases stepped

theorem State.Legible.run {state final : State} {tokens : List Token} (legible : state.Legible)
    (fine : ∀ token ∈ tokens, token.Legible) (ran : tokens.foldlM State.step state = .ok final) :
    final.Legible := by
  induction tokens generalizing state with
  | nil =>
    cases ran
    exact legible
  | cons token tokens ih =>
    rw [List.foldlM_cons] at ran
    obtain ⟨here, later⟩ := List.forall_mem_cons.mp fine
    obtain ⟨next, stepped, onward⟩ := exists_of_bind ran
    exact ih (legible.step here stepped) later onward

/-- Whatever is read is legible. -/
theorem legible_of_read {text : List Char} {value : Value} (reads : read text = .ok value) :
    value.Legible := by
  obtain ⟨final, ran, result⟩ := exists_of_bind reads
  have start : (State.needValue []).Legible := List.forall_mem_nil _
  have legible := start.run legible_of_mem_tokens ran
  unfold State.result at result
  split at result
  · cases result
    exact legible.1
  · cases result

end Checkup.Json
