import DocumentMapper.Sorting.Runs

/-!
# Sorting

Twenty items or fewer are inserted one by one.  More are sorted by runs, and what is not in a
run is parted again and again at a pivot.

A comparison that contradicts itself may show when a short list is merged from both ends.  Then
there is no answer.
-/

namespace DocumentMapper
namespace Sorting

variable {item : Type} (less : item -> item -> Bool)

/-!
## Pivots
-/

def median (lessAt : Nat -> Nat -> Bool) (a b c : Nat) : Nat :=
  let isFirst := lessAt a b
  if isFirst = lessAt a c then
    if lessAt b c = isFirst then b else c
  else
    a

def medianOfMedians (lessAt : Nat -> Nat -> Bool) (count a b c : Nat) : Nat :=
  if 8 <= count then
    let part := count / 8
    let among (place : Nat) :=
      medianOfMedians lessAt part place (place + part * 4) (place + part * 7)
    median lessAt (among a) (among b) (among c)
  else
    median lessAt a b c
termination_by count
decreasing_by omega

def pivotPlace (items : List item) : Nat :=
  let rows := items.toArray
  let lessAt (i j : Nat) : Bool :=
    match rows[i]?, rows[j]? with
    | some a, some b => less a b
    | _, _ => false
  let part := items.length / 8
  medianOfMedians lessAt part 0 (part * 4) (part * 7)

/-!
## Parting
-/

/-- Sorts what no run holds.  Everything in the list is known not to be less than the floor, so
what is level with a pivot that is no greater is sorted already.  After too many partings the
list is sorted by runs after all. -/
def sortByParting? (room : Nat) :
    Nat -> Option item -> List item -> Option (List item)
  | 0, _, items =>
      if items.length <= shortLength then sortShort? less items
      else sortByRuns? less true some room items
  | limit + 1, floor, items =>
      if items.length <= shortLength then
        sortShort? less items
      else
        match items[pivotPlace less items]? with
        | none => none
        | some pivot =>
            let lower := items.filter fun a => less a pivot
            if floor.any (fun a => !less a pivot) || lower.isEmpty then do
              let upper <-
                sortByParting? room limit none (items.filter fun a => less pivot a)
              some ((items.filter fun a => !less pivot a) ++ upper)
            else do
              let upper <-
                sortByParting? room limit (some pivot)
                  (items.filter fun a => !less a pivot)
              let lower <- sortByParting? room limit floor lower
              some (lower ++ upper)

/-!
## Any list
-/

/-- The room in which a list is sorted: all of its length, or half of it if it is very long. -/
def roomFor (length : Nat) : Nat :=
  max (length - length / 2) (min length 58823)

def sortLong? (items : List item) : Option (List item) :=
  let room := roomFor items.length
  let part? (items : List item) :=
    sortByParting? less room (2 * items.length.log2) none items
  sortByRuns? less (items.length <= 2 * shortLength) part? room items

def sortAny? (items : List item) : Option (List item) :=
  if items.length <= 20 then some (insertAll less [] items) else sortLong? less items

/-- Sorts a list by a comparison.  It is the places of the items that are moved, so that items
which the comparison does not tell apart are still different ones. -/
def sort? (compare : item -> item -> Ordering) (items : List item) : Option (List item) :=
  let places := List.finRange items.length
  (sortAny? (fun i j => compare items[i] items[j] == .lt) places).map fun sorted =>
    sorted.map fun i => items[i]

end Sorting
end DocumentMapper
