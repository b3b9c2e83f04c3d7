import Checkup.Text.Digits
import Checkup.Text.Search
import Checkup.Value

/-!
# TOML text

White space, comments, strings and keys of a TOML document. A reader takes a part of the text and
gives the rest.
-/

namespace Checkup.Toml

/-- Takes a part of a text and gives the rest. -/
abbrev Reader (α : Type) := List Char → Except Value.Fault (α × List Char)

def isSpace (c : Char) : Bool := c == ' ' || c == '\t'

def isFiller (c : Char) : Bool := isSpace c || c == '\n'

def isForbidden (c : Char) : Bool := (c.toNat < 0x20 || c.toNat == 0x7F) && c != '\t'

def isForbiddenInBlock (c : Char) : Bool := isForbidden c && c != '\n'

def skipSpaces (text : List Char) : List Char := text.dropWhile isSpace

def skipComment : List Char → Except Value.Fault (List Char)
  | '#' :: rest =>
    if (rest.takeWhile (· != '\n')).any isForbidden then .error .malformed
    else .ok (rest.dropWhile (· != '\n'))
  | text => .ok text

def skipFiller (inComment : Bool) : List Char → Except Value.Fault (List Char)
  | [] => .ok []
  | c :: rest =>
    if inComment then
      if c = '\n' then skipFiller false rest
      else if isForbidden c then .error .malformed
      else skipFiller true rest
    else if isFiller c then skipFiller false rest
    else if c = '#' then skipFiller true rest
    else .ok (c :: rest)

/-! ### Strings -/

def hexChar (width : Nat) : Reader (List Char) := fun text =>
  let digits := text.take width
  let code := Text.ofDigitsIn 16 digits
  if digits.length = width && digits.all Text.isHexDigit && code.isValidChar then
    .ok ([Char.ofNat code], text.drop width)
  else .error .malformed

def shortEscape? : Char → Option Char
  | 'b' => some '\x08'
  | 't' => some '\t'
  | 'n' => some '\n'
  | 'f' => some '\x0c'
  | 'r' => some '\r'
  | '"' => some '"'
  | '\\' => some '\\'
  | _ => none

/-- What stands for an escape, whose backslash has been read. A backslash at the end of a line takes
the white space after it away. -/
def escape (inBlock : Bool) : Reader (List Char)
  | [] => .error .malformed
  | c :: rest =>
    if inBlock && isFiller c then
      match (c :: rest).dropWhile isSpace with
      | [] => .ok ([], [])
      | next :: after =>
        if next = '\n' then .ok ([], after.dropWhile isFiller) else .error .malformed
    else if c = 'u' then hexChar 4 rest
    else if c = 'U' then hexChar 8 rest
    else match shortEscape? c with
      | some plain => .ok ([plain], rest)
      | none => .error .malformed

theorem length_dropWhile_le (p : Char → Bool) (text : List Char) :
    (text.dropWhile p).length ≤ text.length :=
  (List.dropWhile_sublist p).length_le

theorem hexChar_length {width : Nat} {text after : List Char} {chars : List Char}
    (read : hexChar width text = .ok (chars, after)) : after.length ≤ text.length := by
  unfold hexChar at read
  simp only at read
  split at read
  · simp only [Except.ok.injEq, Prod.mk.injEq] at read
    rw [← read.2, List.length_drop]
    omega
  · simp at read

theorem escape_length {inBlock : Bool} {text after : List Char} {chars : List Char}
    (read : escape inBlock text = .ok (chars, after)) : after.length ≤ text.length := by
  cases text with
  | nil => simp [escape] at read
  | cons c rest =>
    simp only [escape] at read
    split at read
    · split at read
      · simp only [Except.ok.injEq, Prod.mk.injEq] at read
        simp [← read.2]
      · rename_i next rest' dropped
        split at read
        · simp only [Except.ok.injEq, Prod.mk.injEq] at read
          have shorter := length_dropWhile_le isSpace (c :: rest)
          have tail := length_dropWhile_le isFiller rest'
          rw [dropped, List.length_cons] at shorter
          rw [← read.2]
          omega
        · simp at read
    · simp only [List.length_cons]
      split at read
      · exact Nat.le_succ_of_le (hexChar_length read)
      · split at read
        · exact Nat.le_succ_of_le (hexChar_length read)
        · split at read
          · simp only [Except.ok.injEq, Prod.mk.injEq] at read
            simp [← read.2]
          · simp at read

/-- The rest of a string with escapes, up to its closing quote or, in a block, three of them. -/
def basicRest (inBlock : Bool) : Reader (List Char)
  | [] => .error .malformed
  | c :: rest =>
    if c = '"' then
      if !inBlock then .ok ([], rest)
      else match Text.opens "\"\"" rest with
        | true => .ok ([], rest.drop 2)
        | false => (basicRest inBlock rest).map fun (s, after) => (c :: s, after)
    else if c = '\\' then
      match read : escape inBlock rest with
      | .error fault => .error fault
      | .ok (chars, after) =>
        have := escape_length read
        (basicRest inBlock after).map fun (s, final) => (chars ++ s, final)
    else if (if inBlock then isForbiddenInBlock c else isForbidden c) then .error .malformed
    else (basicRest inBlock rest).map fun (s, after) => (c :: s, after)
termination_by text => text.length
decreasing_by all_goals simp only [List.length_cons]; omega

def literalRest (closing : String) (forbidden : Char → Bool) : Reader (List Char) := fun text =>
  match Text.cut? closing.toList text with
  | some (inside, after) =>
    if inside.any forbidden then .error .malformed else .ok (inside, after)
  | none => .error .malformed

/-- The text of a block begins after a newline that follows its quotes. -/
def blockStart : List Char → List Char
  | '\n' :: rest => rest
  | text => text

/-- At most two quotes that follow a block's closing ones belong to its text. -/
def withQuotes (quote : Char) (inside text : List Char) : List Char × List Char :=
  let extra := (text.take 2).takeWhile (· == quote)
  (inside ++ extra, text.drop extra.length)

def lineString : Reader (List Char)
  | '"' :: rest => basicRest false rest
  | '\x27' :: rest => literalRest "\x27" isForbidden rest
  | _ => .error .malformed

def string (text : List Char) : Except Value.Fault (List Char × List Char) :=
  if Text.opens "\"\"\"" text then
    (basicRest true (blockStart (text.drop 3))).map fun (s, after) => withQuotes '"' s after
  else if Text.opens "\x27\x27\x27" text then
    (literalRest "\x27\x27\x27" isForbiddenInBlock (blockStart (text.drop 3))).map
      fun (s, after) => withQuotes '\x27' s after
  else lineString text

/-! ### Keys -/

abbrev Key := List String

def isBare (c : Char) : Bool := c.isAlphanum || c == '-' || c == '_'

def keyPart : Reader String
  | [] => .error .malformed
  | c :: rest =>
    if isBare c then
      .ok (String.ofList ((c :: rest).takeWhile isBare), (c :: rest).dropWhile isBare)
    else (lineString (c :: rest)).map fun (part, after) => (String.ofList part, after)

/-- A key of at most so many parts, with the white space after it. -/
def keyOf : Nat → Reader Key
  | 0, _ => .error .malformed
  | parts + 1, text => do
    let (part, after) ← keyPart text
    match skipSpaces after with
    | '.' :: rest => do
      let (more, final) ← keyOf parts (skipSpaces rest)
      return (part :: more, final)
    | rest => return ([part], rest)

/-- A key with the white space after it. A text has no more parts than characters. -/
def key : Reader Key := fun text => keyOf (text.length + 1) text

end Checkup.Toml
