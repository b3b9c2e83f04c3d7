import Checkup.Command

/-!
# Command lines

How a command line is read that begins with the name of a command and gives long options and their
values apart.
-/

namespace Checkup.Command

/-- The text of a long option to which no value is attached. -/
def IsLongOption (option : String) : Prop :=
  Text.opens "--" option.toList = true ∧ option ≠ "--" ∧ attached option = (option, none)

instance : DecidablePred IsLongOption := fun _ => inferInstanceAs (Decidable (_ ∧ _ ∧ _))

section

variable {grammar : Grammar} {option value : String} {rest : List String}

theorem IsLongOption.opens_dash (long : IsLongOption option) :
    Text.opens "-" option.toList = true ∧ option ≠ "-" := by
  obtain ⟨opens, _, _⟩ := long
  constructor
  · exact List.isPrefixOf_iff_prefix.mpr
      ((show ['-'] <+: ['-', '-'] by decide).trans (List.isPrefixOf_iff_prefix.mp opens))
  · rintro rfl
    cases opens

theorem Grammar.read_valued (long : IsLongOption option) (known : option ∈ grammar.valued) :
    grammar.read (option :: value :: rest) = (grammar.read rest).map fun parts =>
      { parts with values := (option, value) :: parts.values } := by
  obtain ⟨dash, notDash⟩ := long.opens_dash
  obtain ⟨_, notEnd, plain⟩ := long
  rw [Grammar.read, plain]
  simp [notEnd, dash, notDash, known]

theorem Grammar.read_flag (long : IsLongOption option) (known : option ∈ grammar.flags)
    (unvalued : option ∉ grammar.valued) :
    grammar.read (option :: rest) = (grammar.read rest).map fun parts =>
      { parts with flags := option :: parts.flags } := by
  obtain ⟨dash, notDash⟩ := long.opens_dash
  obtain ⟨opens, notEnd, plain⟩ := long
  rw [Grammar.read, plain]
  simp [notEnd, dash, notDash, opens, known, unvalued]

/-- A command line that begins with the name of a command is read by that command. -/
theorem parse_of_name {name : String} (word : Text.opens "-" name.toList = false) :
    parse (name :: rest) = parseNamed (name :: rest) := by
  have notEnd : name ≠ "--" := by
    rintro rfl
    cases word
  have read : rootGrammar.read (name :: rest) = .ok { others := name :: rest } := by
    rw [Grammar.read]
    simp [notEnd, word, rootGrammar]
  rw [parse, read]
  rfl

end

end Checkup.Command
