import Checkup.CodeText
import Checkup.Pattern

/-!
# Globs

A glob describes whole paths. One star stands for anything within a directory level, two stars for
anything on one line, and every other code point for itself.
-/

namespace Checkup.Glob

inductive Token where
  | literal (point : CodePoint)
  /-- Any run without a slash. -/
  | star
  /-- Any run without a newline. -/
  | stars

/-- The pieces of a glob, from left to right. Two stars in a row belong together. -/
def tokens : List CodePoint → List Token
  | .char '*' :: .char '*' :: rest => .stars :: tokens rest
  | .char '*' :: rest => .star :: tokens rest
  | point :: rest => .literal point :: tokens rest
  | [] => []

def Token.pattern : Token → Pattern
  | .literal point => .one fun c => CodePoint.char c == point
  | .star => .upTo '/'
  | .stars => .onLine

def pattern (tokens : List Token) : Pattern :=
  tokens.foldr (fun token shape => token.pattern ++ shape) .empty

def describes (glob : CodeText) (path : String) : Bool :=
  (pattern (tokens glob.points)).covers path.toList

end Checkup.Glob
