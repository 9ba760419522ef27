/-!
# Similar words

How alike two words are: the characters they share in the same order, counted from their longest
common block and then, in the same way, on either side of it.
-/

namespace PatternSql.Text

/-- A common block of two words: where it begins in each, and its length. -/
structure Block where
  /-- The characters of the first word before the block. -/
  first : Nat
  /-- The characters of the second word before the block. -/
  second : Nat
  /-- The characters of the block. -/
  size : Nat
  deriving DecidableEq, Repr

/-- The number of characters that two words begin with in common. -/
def Block.leading : List Char → List Char → Nat
  | a :: as, b :: bs => if a = b then leading as bs + 1 else 0
  | _, _ => 0

/-- All common blocks that cannot go on, by their places in the first word and then the second. -/
def Block.candidates (as bs : List Char) : List Block :=
  (List.range as.length).flatMap fun i =>
    (List.range bs.length).map fun j => ⟨i, j, leading (as.drop i) (bs.drop j)⟩

/-- The longest common block, the first of them if there are several. -/
def Block.longest (as bs : List Char) : Block :=
  (candidates as bs).foldl (fun best b => if best.size < b.size then b else best) ⟨0, 0, 0⟩

/-- The number of shared characters. Each round takes out a block, so there are no more rounds than
    characters in the first word. -/
def shared : Nat → List Char → List Char → Nat
  | 0, _, _ => 0
  | rounds + 1, as, bs =>
    let b := Block.longest as bs
    if b.size = 0 then 0
    else
      shared rounds (as.take b.first) (bs.take b.second) + b.size +
        shared rounds (as.drop (b.first + b.size)) (bs.drop (b.second + b.size))

/-- Whether at least three fifths of the characters of two words are shared. -/
def isSimilar (a b : String) : Bool :=
  let as := a.toList
  let bs := b.toList
  3 * (as.length + bs.length) ≤ 10 * shared as.length as bs

end PatternSql.Text
