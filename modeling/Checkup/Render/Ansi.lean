import Checkup.CodeText

/-!
# Styled text

Text with terminal codes for colour and weight, and the removal of such codes from a text that does
not go to a terminal.
-/

namespace Checkup.Ansi

inductive Color where
  | red
  | green
  | yellow

def Color.code : Color → String
  | .red => "31"
  | .green => "32"
  | .yellow => "33"

structure Style where
  color : Option Color := none
  bold : Bool := false
  dim : Bool := false
  underline : Bool := false

/-- The codes of a style: the colour, then weight, then line. -/
def Style.codes (style : Style) : List String :=
  (style.color.map Color.code).toList ++ (if style.bold then ["1"] else []) ++
    (if style.dim then ["2"] else []) ++ (if style.underline then ["4"] else [])

def sequence (code : String) : String := "\x1b[" ++ code ++ "m"

/-- A text in a style, and back to none. -/
def Style.paint (style : Style) (text : CodeText) : CodeText :=
  CodeText.ofString (String.join (style.codes.map sequence)) ++ text ++ sequence "0"

def bold (text : CodeText) : CodeText := Style.paint { bold := true } text

def dim (text : CodeText) : CodeText := Style.paint { dim := true } text

def colored (color : Color) (text : CodeText) : CodeText := Style.paint { color := some color } text

def isParameter : CodePoint → Bool
  | .char c => c.isDigit || c == ';' || c == '?'
  | .half _ => false

def isFinal : CodePoint → Bool
  | .char c => c.isAlpha
  | .half _ => false

/-- The text after a sequence, if the text begins inside one. -/
def afterSequence? (text : List CodePoint) : Option (List CodePoint) :=
  match text.dropWhile isParameter with
  | point :: rest => if isFinal point then some rest else none
  | [] => none

theorem afterSequence?_length {text rest : List CodePoint}
    (found : afterSequence? text = some rest) :
    rest.length < text.length := by
  unfold afterSequence? at found
  have shorter := (List.dropWhile_sublist isParameter (l := text)).length_le
  split at found
  · rename_i point after dropped
    rw [dropped, List.length_cons] at shorter
    split at found
    · simp only [Option.some.injEq] at found
      rw [← found]
      omega
    · simp at found
  · simp at found

def stripPoints : List CodePoint → List CodePoint
  | .char '\x1b' :: .char '[' :: rest =>
    match found : afterSequence? rest with
    | some after =>
      have := afterSequence?_length found
      stripPoints after
    | none => .char '\x1b' :: .char '[' :: stripPoints rest
  | point :: rest => point :: stripPoints rest
  | [] => []
termination_by text => text.length
decreasing_by all_goals simp only [List.length_cons]; omega

def strip (text : CodeText) : CodeText := ⟨stripPoints text.points⟩

end Checkup.Ansi
