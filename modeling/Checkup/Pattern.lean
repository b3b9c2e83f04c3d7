import Checkup.Text.Blank
import Checkup.Text.Word

/-!
# Patterns

Code shapes that a rule looks for on a line. Repetition is over single characters only, so a match
is found by trying every end of every run: whether a pattern matches does not depend on which run
is tried first.
-/

namespace Checkup

/-- A place in a text: the character before it and what follows it. -/
structure Place where
  before : Option Char
  rest : List Char

namespace Place

def start (text : List Char) : Place := ⟨none, text⟩

/-- Whether exactly one neighbour is a word character. -/
def atEdge (place : Place) : Bool :=
  place.before.any Text.isWord != place.rest.head?.any Text.isWord

end Place

inductive Pattern where
  | empty
  | one (accepts : Char → Bool)
  | many (accepts : Char → Bool)
  | seq (first second : Pattern)
  | alt (left right : Pattern)
  /-- No character, where a word begins or ends. -/
  | edge
  /-- No character, where the shape does not follow. -/
  | notAhead (shape : Pattern)

namespace Pattern

instance : Append Pattern := ⟨seq⟩
instance : OrOp Pattern := ⟨alt⟩

/-- Whether `next` holds after some run of accepted characters from a place on. -/
def runThen (accepts : Char → Bool) (next : Place → Bool) (before : Option Char) :
    List Char → Bool
  | [] => next ⟨before, []⟩
  | c :: rest =>
    next ⟨before, c :: rest⟩ || (accepts c && runThen accepts next (some c) rest)

/-- Whether the pattern matches from a place on so that `next` holds where the match ends. -/
def matchesThen : Pattern → (Place → Bool) → Place → Bool
  | empty, next, place => next place
  | one accepts, next, place =>
    match place.rest with
    | [] => false
    | c :: rest => accepts c && next ⟨some c, rest⟩
  | many accepts, next, place => runThen accepts next place.before place.rest
  | seq first second, next, place => first.matchesThen (second.matchesThen next) place
  | alt left right, next, place => left.matchesThen next place || right.matchesThen next place
  | edge, next, place => place.atEdge && next place
  | notAhead shape, next, place => !shape.matchesThen (fun _ => true) place && next place

def matchesAt (pattern : Pattern) (place : Place) : Bool :=
  pattern.matchesThen (fun _ => true) place

/-- Whether the pattern matches from the place after `before` on, or from a later one. -/
def occursAfter (pattern : Pattern) (before : Option Char) : List Char → Bool
  | [] => pattern.matchesAt ⟨before, []⟩
  | c :: rest => pattern.matchesAt ⟨before, c :: rest⟩ || pattern.occursAfter (some c) rest

def occursIn (pattern : Pattern) (text : List Char) : Bool := pattern.occursAfter none text

def opens (pattern : Pattern) (text : List Char) : Bool := pattern.matchesAt (.start text)

def covers (pattern : Pattern) (text : List Char) : Bool :=
  pattern.matchesThen (fun place => place.rest.isEmpty) (.start text)

/-! ### Common shapes -/

def exactly (text : List Char) : Pattern :=
  text.foldr (fun c shape => one (· == c) ++ shape) empty

def lit (text : String) : Pattern := exactly text.toList

def oneOf (chars : String) : Pattern := one (chars.toList.contains ·)

/-- Any run of characters up to a `stop`. -/
def upTo (stop : Char) : Pattern := many (· != stop)

def someUpTo (stop : Char) : Pattern := one (· != stop) ++ upTo stop

def blanks : Pattern := many Text.isBlank

def someBlanks : Pattern := one Text.isBlank ++ blanks

def word : Pattern := one Text.isWord ++ many Text.isWord

def onLine : Pattern := upTo '\n'

def anything : Pattern := many fun _ => true

def optional (pattern : Pattern) : Pattern := pattern ||| empty

end Pattern

end Checkup
