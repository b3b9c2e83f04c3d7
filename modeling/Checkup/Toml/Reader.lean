import Checkup.Toml.Document
import Checkup.Toml.Scalar

/-!
# Reading TOML

Values and statements of a document. Nested values and sequences of statements are read with a
bound on their number, for which the length of the text is enough: each takes a character. Apart
from that, values may not be nested too deeply; a table takes more room for this than a list.
-/

namespace Checkup.Toml

def listRoom : Nat := 2

def tableRoom : Nat := 3

mutual

/-- A value of at most so many parts, with room for more inside. -/
def valueOf : (bound room : Nat) → Reader Value
  | 0, _, _ => .error .malformed
  | bound + 1, room, text =>
    match text with
    | '[' :: rest =>
      if room < listRoom then .error (.tooDeep .toml)
      else do
        match ← skipFiller false rest with
        | ']' :: after => return (.list [], after)
        | items => itemsOf bound (room - listRoom) [] items
    | '\x7b' :: rest =>
      if room < tableRoom then .error (.tooDeep .toml)
      else match skipSpaces rest with
        | '\x7d' :: after => return (.table [], after)
        | entries => entriesOf bound (room - tableRoom) {} entries
    | _ => scalar text

/-- The rest of a list, after the items in `done`, of which the latest comes first. -/
def itemsOf : (bound room : Nat) → List Value → Reader Value
  | 0, _, _, _ => .error .malformed
  | bound + 1, room, done, text => do
    let (item, rest) ← valueOf bound room text
    match ← skipFiller false rest with
    | ']' :: after => return (.list (item :: done).reverse, after)
    | ',' :: more =>
      match ← skipFiller false more with
      | ']' :: after => return (.list (item :: done).reverse, after)
      | items => itemsOf bound room (item :: done) items
    | _ => .error .malformed

def entriesOf : (bound room : Nat) → Document → Reader Value
  | 0, _, _, _ => .error .malformed
  | bound + 1, room, done, text => do
    let (name, afterName) ← key text
    match afterName with
    | '=' :: rest =>
      let (value, afterValue) ← valueOf bound room (skipSpaces rest)
      let done ← done.assign name value
      match skipSpaces afterValue with
      | '\x7d' :: after => return (.table done.table, after)
      | ',' :: more => entriesOf bound room done (skipSpaces more)
      | _ => .error .malformed
    | _ => .error .malformed

end

def value : Reader Value := fun text => valueOf (2 * text.length + 2) Value.depthLimit text

def statement (document : Document) : Reader Document := fun text =>
  if Text.opens "[[" text then do
    let (name, rest) ← key (skipSpaces (text.drop 2))
    let document ← document.openItem name
    if Text.opens "]]" rest then return (document, rest.drop 2) else .error .malformed
  else if Text.opens "[" text then do
    let (name, rest) ← key (skipSpaces (text.drop 1))
    let document ← document.openTable name
    if Text.opens "]" rest then return (document, rest.drop 1) else .error .malformed
  else do
    let (name, rest) ← key text
    if Text.opens "=" rest then
      let (value, rest) ← value (skipSpaces (rest.drop 1))
      return (← document.assign name value, rest)
    else .error .malformed

def linesOf : Nat → Document → List Char → Except Value.Fault Document
  | 0, _, _ => .error .malformed
  | bound + 1, document, text =>
    match skipSpaces text with
    | [] => return document
    | '\n' :: rest => linesOf bound document rest
    | line => do
      let (document, rest) ←
        if Text.opens "#" line then pure (document, line) else statement document line
      match ← skipComment (skipSpaces rest) with
      | [] => return document
      | '\n' :: rest => linesOf bound document rest
      | _ => .error .malformed

/-- The text with each carriage return before a newline taken away. -/
def joinNewlines : List Char → List Char
  | '\r' :: '\n' :: rest => '\n' :: joinNewlines rest
  | c :: rest => c :: joinNewlines rest
  | [] => []

def read (text : List Char) : Except Value.Fault Table :=
  (linesOf (text.length + 1) {} (joinNewlines text)).map Document.table

end Checkup.Toml
