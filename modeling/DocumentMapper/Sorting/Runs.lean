import DocumentMapper.Sorting.Short

/-!
# Sorting by runs

A long list is cut into runs that are sorted already, or short enough to be sorted at once, and
neighbouring runs are merged.  Which are merged first follows from where they meet.
-/

namespace DocumentMapper
namespace Sorting

variable {item : Type} (less : item -> item -> Bool)

def shortLength : Nat :=
  32

/-!
## Runs
-/

inductive Course where
  | rising
  | falling
  | mixed

structure Piece (item : Type) where
  items : List item
  course : Course

def rising : item -> List item -> Nat
  | _, [] => 0
  | a, b :: rest => if less b a then 0 else rising b rest + 1

def falling : item -> List item -> Nat
  | _, [] => 0
  | a, b :: rest => if less b a then falling b rest + 1 else 0

/-- The piece that a list starts with: a run of at least the wanted length, or else as many
items as are taken where there is none. -/
def firstPiece (wanted otherwise : Nat) (a : item) (rest : List item) : Piece item :=
  let up := rising less a rest
  let down := falling less a rest
  if wanted <= down + 1 then { items := a :: rest.take down, course := .falling }
  else if wanted <= up + 1 then { items := a :: rest.take up, course := .rising }
  else { items := a :: rest.take (otherwise - 1), course := .mixed }

def cut (wanted otherwise : Nat) : List item -> List (Piece item)
  | [] => []
  | a :: rest =>
      let piece := firstPiece less wanted otherwise a rest
      piece :: cut wanted otherwise (rest.drop (piece.items.length - 1))
termination_by items => items.length
decreasing_by simp only [List.length_cons, List.length_drop]; omega

/-- Items that are sorted, or are left to be sorted with others. -/
structure Run (item : Type) where
  items : List item
  sorted : Bool

/-- A run out of a piece.  A mixed piece is sorted at once or left as it is. -/
def Piece.run? (eager : Bool) (piece : Piece item) : Option (Run item) :=
  match piece.course with
  | .rising => some { items := piece.items, sorted := true }
  | .falling => some { items := piece.items.reverse, sorted := true }
  | .mixed =>
      if eager then
        (sortShort? less piece.items).map fun items => { items := items, sorted := true }
      else
        some { items := piece.items, sorted := false }

/-!
## Merging
-/

/-- Merges two sorted lists, from the end of the shorter one. -/
def mergeRuns (as bs : List item) : List item :=
  if as.length <= bs.length then as.merge bs fun a b => !less b a
  else (bs.reverse.merge as.reverse fun b a => !less b a).reverse

def Run.settle? (sort? : List item -> Option (List item)) (run : Run item) :
    Option (List item) :=
  if run.sorted then some run.items else sort? run.items

/-- Joins two neighbouring runs.  They are merged, unless neither is sorted and both together
can still be sorted in the room there is. -/
def Run.join? (sort? : List item -> Option (List item)) (room : Nat) (left right : Run item) :
    Option (Run item) :=
  if left.sorted || right.sorted || room < left.items.length + right.items.length then do
    let as <- left.settle? sort?
    let bs <- right.settle? sort?
    some { items := mergeRuns less as bs, sorted := true }
  else
    some { items := left.items ++ right.items, sorted := false }

def leadingZeros (n : Nat) : Nat :=
  if n = 0 then 64 else 63 - n.log2

def depth (length start middle stop : Nat) : Nat :=
  let scale := (Nat.pow 2 62 + length - 1) / length
  leadingZeros ((scale * (start + middle)) ^^^ (scale * (middle + stop)))

/-- Joins the last run with those before it that are to be merged no higher in the tree. -/
def collapse? (sort? : List item -> Option (List item)) (room level : Nat) :
    List (Run item × Nat) -> Run item -> Option (List (Run item × Nat) × Run item)
  | [], last => some ([], last)
  | (left, below) :: rest, last =>
      if level <= below then do
        let joined <- left.join? less sort? room last
        collapse? sort? room level rest joined
      else
        some ((left, below) :: rest, last)

/-- Joins all runs.  The stack holds earlier runs, each with the depth at which it meets the
next one; the last run ends at the given place. -/
def joinAll? (sort? : List item -> Option (List item)) (length room : Nat) :
    List (Run item × Nat) -> Run item -> Nat -> List (Run item) -> Option (Run item)
  | stack, last, _, [] => do
      let (_, joined) <- collapse? less sort? room 0 stack last
      some joined
  | stack, last, place, next :: rest => do
      let stop := place + next.items.length
      let level := depth length (place - last.items.length) place stop
      let (stack, joined) <- collapse? less sort? room level stack last
      joinAll? sort? length room ((joined, level) :: stack) next stop rest

def roughRoot (n : Nat) : Nat :=
  let shift := (1 + n.log2) / 2
  (Nat.pow 2 shift + n / Nat.pow 2 shift) / 2

def wantedLength (length : Nat) : Nat :=
  if length <= 4096 then min (length - length / 2) 64 else roughRoot length

/-- Sorts by runs.  An eager sort sorts each mixed piece at once; one that is not leaves longer
ones to another sort. -/
def sortByRuns? (eager : Bool) (sort? : List item -> Option (List item)) (room : Nat)
    (items : List item) : Option (List item) := do
  let wanted := wantedLength items.length
  let pieces := cut less wanted (if eager then shortLength else wanted) items
  match (<- pieces.mapM (Piece.run? less eager)) with
  | [] => some []
  | first :: rest =>
      let joined <- joinAll? less sort? items.length room [] first first.items.length rest
      joined.settle? sort?

end Sorting
end DocumentMapper
