/-!
# Newlines

Texts end their lines in different ways. Reading a text file makes them all newlines.
-/

namespace Checkup.Text

/-- The text with every line end, a carriage return with or without a newline, as a newline. -/
def unifyNewlines : List Char → List Char
  | '\r' :: '\n' :: rest => '\n' :: unifyNewlines rest
  | c :: rest => (if c = '\r' then '\n' else c) :: unifyNewlines rest
  | [] => []

end Checkup.Text
