/-!
# Similar words

How much of two words agrees: their longest common piece, and then, on either side of it, the same
again. A word is close to another if three fifths of their characters agree.
-/

namespace Checkup.Text

def agreement : List Char → List Char → Nat
  | a :: as, b :: bs => if a = b then agreement as bs + 1 else 0
  | _, _ => 0

/-- A common piece: where it starts in each text, and its length. -/
structure CommonPiece where
  left : Nat
  right : Nat
  size : Nat

def commonPieces (a b : List Char) : List CommonPiece :=
  (List.range a.length).flatMap fun i =>
    (List.range b.length).map fun j => ⟨i, j, agreement (a.drop i) (b.drop j)⟩

/-- The longest common piece; of several, the one that starts first in the first text, and then in
the second. -/
def longestPiece (a b : List Char) : CommonPiece :=
  (commonPieces a b).foldl (fun best piece => if best.size < piece.size then piece else best)
    ⟨0, 0, 0⟩

/-- How many characters agree, found in at most so many rounds. -/
def agreeingWithin : Nat → List Char → List Char → Nat
  | 0, _, _ => 0
  | rounds + 1, a, b =>
    let piece := longestPiece a b
    if piece.size = 0 then 0
    else
      agreeingWithin rounds (a.take piece.left) (b.take piece.right) + piece.size +
        agreeingWithin rounds (a.drop (piece.left + piece.size)) (b.drop (piece.right + piece.size))

/-- How many characters of two texts agree. Every round takes at least one away. -/
def agreeing (a b : List Char) : Nat := agreeingWithin (a.length + 1) a b

/-- Which part of the characters of both texts agrees, as a pair of numbers. -/
def likeness (a b : List Char) : Nat × Nat := (2 * agreeing a b, a.length + b.length)

/-- Whether one text is so much longer that three fifths of the characters cannot agree. -/
def isFarLonger (a b : List Char) : Bool :=
  10 * min a.length b.length < 3 * (a.length + b.length)

/-- Whether three fifths of the characters agree. -/
def isClose (a b : List Char) : Bool :=
  if isFarLonger a b then false
  else
    let (agreeing, total) := likeness a b
    3 * total ≤ 5 * agreeing

/-- At most three of the words that are close to a text, the closest first. -/
def closeWords (text : String) (words : List String) : List String :=
  let close := (words.filter fun word => isClose word.toList text.toList).map fun word =>
    (likeness word.toList text.toList, word)
  let atLeast : (Nat × Nat) × String → (Nat × Nat) × String → Bool :=
    fun ((n, d), a) ((m, e), b) => m * d < n * e || (m * d = n * e && decide (b ≤ a))
  ((close.mergeSort atLeast).take 3).map Prod.snd

end Checkup.Text
