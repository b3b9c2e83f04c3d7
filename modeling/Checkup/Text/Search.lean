/-!
# Searching and cutting text

A text is the list of its characters. `pieces` cuts it at a separator, `after?` takes a word off its
start, and `cut?` cuts it at the first occurrence of a word.
-/

namespace Checkup.Text

/-- What stands between the occurrences of `separator`. A text without one is a single piece. -/
def pieces {α : Type} [DecidableEq α] (separator : α) : List α → List (List α)
  | [] => [[]]
  | c :: rest =>
    if c = separator then [] :: pieces separator rest
    else match pieces separator rest with
      | [] => [[c]]
      | piece :: more => (c :: piece) :: more

/-- The lines of a text. A final newline opens one more, empty line. -/
def lines (text : List Char) : List (List Char) := pieces '\n' text

def after? : (word text : List Char) → Option (List Char)
  | [], text => some text
  | _ :: _, [] => none
  | w :: word, c :: text => if w = c then after? word text else none

theorem after?_eq_some_iff {word text rest : List Char} :
    after? word text = some rest ↔ text = word ++ rest := by
  induction word generalizing text with
  | nil => simp [after?]
  | cons w word ih =>
    cases text with
    | nil => simp [after?]
    | cons c text =>
      rw [after?]
      split
      · next same => simp [same, ih]
      · next other => simp [Ne.symm other]

/-- The text before and after the first occurrence of `word`. -/
def cut? (word : List Char) : List Char → Option (List Char × List Char)
  | [] => if word.isEmpty then some ([], []) else none
  | c :: rest =>
    match after? word (c :: rest) with
    | some after => some ([], after)
    | none => (cut? word rest).map fun (before, after) => (c :: before, after)

def occursIn (word : String) (text : List Char) : Bool := (cut? word.toList text).isSome

def opens (word : String) (text : List Char) : Bool := word.toList.isPrefixOf text

def closes (word : String) (text : List Char) : Bool := word.toList.isSuffixOf text

def sortedDistinct (texts : List String) : List String :=
  texts.eraseDups.mergeSort fun a b => decide (a ≤ b)

end Checkup.Text
