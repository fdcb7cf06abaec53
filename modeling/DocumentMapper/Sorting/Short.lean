/-!
# Sorting short lists

A comparison says which of two items is less.  Items that it does not tell apart stay in their
order, so long as it is a consistent one.  Nothing else is asked of it, and a sort may find it
to contradict itself; then it gives up and answers nothing.
-/

namespace DocumentMapper
namespace Sorting

variable {item : Type} (less : item -> item -> Bool)

/-!
## Insertion
-/

def insertBack (a : item) : List item -> List item
  | [] => [a]
  | b :: rest => if less a b then b :: insertBack a rest else a :: b :: rest

def insertAll (sorted items : List item) : List item :=
  (items.foldl (fun back a => insertBack less a back) sorted.reverse).reverse

/-!
## Four items
-/

def inOrder (a b : item) : item × item :=
  if less b a then (b, a) else (a, b)

/-- Sorts two pairs and then finds the least and the greatest item, which leaves two. -/
def sortFour (a b c d : item) : List item :=
  let (a, b) := inOrder less a b
  let (c, d) := inOrder less c d
  let (least, greatest, left, right) :=
    match less c a, less d b with
    | false, false => (a, d, b, c)
    | false, true => (a, b, c, d)
    | true, false => (c, d, a, b)
    | true, true => (c, b, a, d)
  let (left, right) := inOrder less left right
  [least, left, right, greatest]

/-!
## Merging from both ends
-/

structure Steps (item : Type) where
  taken : List item
  left : List item
  right : List item

def Steps.take (a : item) (steps : Steps item) : Steps item :=
  { steps with taken := a :: steps.taken }

/-- The first steps of a merge, which takes from the right only what is less. -/
def mergeSteps : Nat -> List item -> List item -> Steps item
  | count + 1, a :: as, b :: bs =>
      if less b a then (mergeSteps count (a :: as) bs).take b
      else (mergeSteps count as (b :: bs)).take a
  | _, as, bs => { taken := [], left := as, right := bs }

/-- Merges two sorted lists from both ends at once, the second of them at most one longer.
Each end takes as many items as the first list has, and the two have to meet. -/
def mergeEnds? (as bs : List item) : Option (List item) :=
  let front := mergeSteps less as.length as bs
  let back := mergeSteps (fun a b => less b a) as.length bs.reverse as.reverse
  let taken := (as.length - front.left.length) + (as.length - back.right.length)
  if taken = as.length then
    some (front.taken ++ front.right.take (bs.length - as.length) ++ back.taken.reverse)
  else if taken + 1 = as.length && bs.length = as.length + 1 then
    some (front.taken ++ front.left.take 1 ++ back.taken.reverse)
  else
    none

/-!
## Short lists
-/

def sortHalf (long : Bool) (items : List item) : List item :=
  match long, items with
  | true, a :: b :: c :: d :: rest => insertAll less (sortFour less a b c d) rest
  | _, _ => insertAll less [] items

def sortShort? (items : List item) : Option (List item) :=
  let half := items.length / 2
  let long := 8 <= items.length
  mergeEnds? less (sortHalf less long (items.take half))
    (sortHalf less long (items.drop half))

end Sorting
end DocumentMapper
