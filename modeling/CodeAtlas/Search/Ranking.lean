import CodeAtlas.Chunk

/-!
# Ranking

A file scores as high as its best chunk, the first of several that are equally good. Files that
score nothing are left out; the others come by their scores, and those with equal scores in the
order in which they first appear.
-/

namespace CodeAtlas.Search

structure Scored (α : Type) where
  chunk : Chunk
  score : α
deriving Repr

def Scored.file {α : Type} (scored : Scored α) : String := scored.chunk.file

namespace Ranking

variable {α : Type} [LT α] [DecidableLT α]

/-- Puts in a chunk: in place of its file's best so far if it is better, at the end if it is the
first. -/
def consider (best : List (Scored α)) (scored : Scored α) : List (Scored α) :=
  match best with
  | [] => [scored]
  | leader :: rest =>
      if leader.file = scored.file then
        (if leader.score < scored.score then scored else leader) :: rest
      else leader :: consider rest scored

/-- The best chunk of each file, in the order of first appearance. -/
def bestOfFiles (scored : List (Scored α)) : List (Scored α) := scored.foldl consider []

/-- The best chunks with a score above zero, the best of all first, up to a number of files. -/
def top (zero : α) (limit : Nat) (scored : List (Scored α)) : List (Scored α) :=
  let positive := (bestOfFiles scored).filter fun best => decide (zero < best.score)
  (positive.mergeSort fun left right => !decide (left.score < right.score)).take limit

end Ranking

end CodeAtlas.Search
