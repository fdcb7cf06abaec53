import Mathlib.Data.String.Basic
import Mathlib.Order.RelClasses
import DocumentMapper.Proofs.Keyed
import DocumentMapper.Value.Basic

/-!
# Values up to the order of keys

Two values are alike when they differ at most in the order of keys, in any of the
documents inside them.  Putting every document in the order of its keys gives one
form to all values that are alike.
-/

namespace DocumentMapper
namespace Value

mutual

/-- The value with its documents in the order of their keys, the first of equal
keys counting. -/
def inKeyOrder : Value -> Value
  | array items => array (itemsInKeyOrder items)
  | document entries => document (entriesInKeyOrder entries)
  | other => other

def itemsInKeyOrder : List Value -> List Value
  | [] => []
  | item :: rest => inKeyOrder item :: itemsInKeyOrder rest

def entriesInKeyOrder : List (String × Value) -> Document
  | [] => []
  | (key, item) :: rest =>
      Ordered.insert (entriesInKeyOrder rest) key (inKeyOrder item)

end

def Alike (a b : Value) : Prop :=
  a.inKeyOrder = b.inKeyOrder

theorem itemsInKeyOrder_eq_map (items : List Value) :
    itemsInKeyOrder items = items.map inKeyOrder := by
  induction items with
  | nil =>
      rfl
  | cons item rest ih =>
      rw [itemsInKeyOrder, ih, List.map_cons]

theorem get?_entriesInKeyOrder (entries : Document) (key : String) :
    Keyed.get? (entriesInKeyOrder entries) key =
      (Keyed.get? entries key).map inKeyOrder := by
  induction entries with
  | nil =>
      rfl
  | cons entry rest ih =>
      rcases entry with ⟨k, item⟩
      rw [entriesInKeyOrder, Ordered.get?_insert, Keyed.get?_cons, ih]
      split <;> rfl

theorem sorted_entriesInKeyOrder (entries : Document) :
    Ordered.Sorted (entriesInKeyOrder entries) := by
  induction entries with
  | nil =>
      exact List.Pairwise.nil
  | cons entry rest ih =>
      rcases entry with ⟨k, item⟩
      exact Ordered.sorted_insert k (inKeyOrder item) ih

theorem alike_document {as bs : Document}
    (h : forall key,
      (Keyed.get? as key).map inKeyOrder = (Keyed.get? bs key).map inKeyOrder) :
    Alike (document as) (document bs) := by
  have hentries : entriesInKeyOrder as = entriesInKeyOrder bs := by
    apply Ordered.eq_of_get?_eq (sorted_entriesInKeyOrder as)
      (sorted_entriesInKeyOrder bs)
    intro key
    rw [get?_entriesInKeyOrder, get?_entriesInKeyOrder]
    exact h key
  unfold Alike
  rw [inKeyOrder, inKeyOrder, hentries]

theorem alike_array_map {f : Value -> Value} {items : List Value}
    (h : forall item, item ∈ items -> Alike (f item) item) :
    Alike (array (items.map f)) (array items) := by
  unfold Alike
  rw [inKeyOrder, inKeyOrder, itemsInKeyOrder_eq_map, itemsInKeyOrder_eq_map,
    List.map_map]
  congr 1
  exact List.map_congr_left h

/-!
## Distinct keys

A document is a map, so the values that are given to a program hold each key
once.
-/

mutual

def DistinctKeys : Value -> Prop
  | array items => DistinctKeysInItems items
  | document entries =>
      (Keyed.keys entries).Nodup ∧ DistinctKeysInEntries entries
  | _ => True

def DistinctKeysInItems : List Value -> Prop
  | [] => True
  | item :: rest => DistinctKeys item ∧ DistinctKeysInItems rest

def DistinctKeysInEntries : List (String × Value) -> Prop
  | [] => True
  | (_, item) :: rest => DistinctKeys item ∧ DistinctKeysInEntries rest

end

theorem DistinctKeys.of_mem {items : List Value}
    (h : DistinctKeys (array items)) {item : Value} (hitem : item ∈ items) :
    DistinctKeys item := by
  have hall : DistinctKeysInItems items := h
  induction items with
  | nil =>
      cases hitem
  | cons first rest ih =>
      cases List.mem_cons.mp hitem with
      | inl heq =>
          rw [heq]
          exact hall.1
      | inr hrest =>
          exact ih hall.2 hrest hall.2

theorem DistinctKeys.of_get? {entries : Document}
    (h : DistinctKeys (document entries)) {key : String} {item : Value}
    (hitem : Keyed.get? entries key = some item) : DistinctKeys item := by
  have hmem := Keyed.mem_of_get? hitem
  have hall : DistinctKeysInEntries entries := h.2
  clear h hitem
  induction entries with
  | nil =>
      cases hmem
  | cons first rest ih =>
      cases List.mem_cons.mp hmem with
      | inl heq =>
          rw [<- heq] at hall
          exact hall.1
      | inr hrest =>
          exact ih hrest hall.2

/-!
## Parts

A value is built from the values in an array or under the keys of a document, so what
holds of a value whenever it holds of those inside it holds of every value.
-/

/-- The value is an item of an array, or stands under a key of a document. -/
inductive Inside (part : Value) : Value -> Prop where
  | item {items : List Value} (hitem : part ∈ items) : Inside part (array items)
  | entry {entries : List (String × Value)} {key : String}
      (hentry : (key, part) ∈ entries) : Inside part (document entries)

theorem inside_array_iff {part : Value} {items : List Value} :
    part.Inside (array items) <-> part ∈ items :=
  ⟨fun | .item hitem => hitem, .item⟩

theorem inside_document_iff {part : Value} {entries : List (String × Value)} :
    part.Inside (document entries) <-> exists key, (key, part) ∈ entries :=
  ⟨fun | .entry hentry => ⟨_, hentry⟩, fun ⟨_, hentry⟩ => .entry hentry⟩

theorem Inside.sizeOf_lt {part value : Value} (h : part.Inside value) :
    sizeOf part < sizeOf value := by
  cases h with
  | item hitem =>
      have hlt := List.sizeOf_lt_of_mem hitem
      rw [array.sizeOf_spec]
      omega
  | entry hentry =>
      have hlt := List.sizeOf_lt_of_mem hentry
      rw [Prod.mk.sizeOf_spec] at hlt
      rw [document.sizeOf_spec]
      omega

theorem byParts {P : Value -> Prop}
    (h : forall value, (forall part, part.Inside value -> P part) -> P value)
    (value : Value) : P value :=
  (measure sizeOf).wf.induction value fun value ih =>
    h value fun part hpart => ih part hpart.sizeOf_lt

theorem DistinctKeys.of_inside {value part : Value} (h : DistinctKeys value)
    (hpart : part.Inside value) : DistinctKeys part := by
  cases hpart with
  | item hitem => exact h.of_mem hitem
  | entry hentry => exact h.of_get? (Keyed.get?_of_mem h.1 hentry)

end Value
end DocumentMapper
