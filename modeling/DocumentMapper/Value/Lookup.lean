import DocumentMapper.Ordered
import DocumentMapper.Value.Basic

/-!
# Values in lookups

Whether two values are the same to a lookup, and which of them an index lists
first.

The lookup key of a value is what a lookup sees of it: numbers by their rank as
doubles whatever their width, arrays item by item, documents as maps without an
order, and all values of the types that are only passed through alike.  A value
that holds a NaN anywhere has no lookup key and is the same as nothing.
-/

namespace DocumentMapper

inductive LookupKey where
  | null
  | bool (b : Bool)
  | number (rank : Int)
  | date (millis : Int)
  | string (s : String)
  | array (items : List LookupKey)
  | document (entries : List (String × LookupKey))

/-!
## Equality of lookup keys
-/

namespace LookupKey

mutual

def eq : LookupKey -> LookupKey -> Bool
  | null, null => true
  | bool a, bool b => a == b
  | number a, number b => a == b
  | date a, date b => a == b
  | string a, string b => a == b
  | array a, array b => eqItems a b
  | document a, document b => eqEntries a b
  | _, _ => false

def eqItems : List LookupKey -> List LookupKey -> Bool
  | [], [] => true
  | a :: as, b :: bs => eq a b && eqItems as bs
  | _, _ => false

def eqEntries :
    List (String × LookupKey) -> List (String × LookupKey) -> Bool
  | [], [] => true
  | (k, a) :: as, (j, b) :: bs => k == j && eq a b && eqEntries as bs
  | _, _ => false

end

mutual

theorem eq_iff : forall (a b : LookupKey), a.eq b = true <-> a = b
  | null, b => by cases b <;> simp [eq]
  | bool _, b => by cases b <;> simp [eq]
  | number _, b => by cases b <;> simp [eq]
  | date _, b => by cases b <;> simp [eq]
  | string _, b => by cases b <;> simp [eq]
  | array as, b => by
      cases b with
      | array bs => simp [eq, eqItems_iff as bs]
      | _ => simp [eq]
  | document as, b => by
      cases b with
      | document bs => simp [eq, eqEntries_iff as bs]
      | _ => simp [eq]

theorem eqItems_iff :
    forall (as bs : List LookupKey), eqItems as bs = true <-> as = bs
  | [], bs => by cases bs <;> simp [eqItems]
  | a :: as, bs => by
      cases bs with
      | nil => simp [eqItems]
      | cons b bs => simp [eqItems, eq_iff a b, eqItems_iff as bs]

theorem eqEntries_iff :
    forall (as bs : List (String × LookupKey)), eqEntries as bs = true <-> as = bs
  | [], bs => by cases bs <;> simp [eqEntries]
  | (k, a) :: as, bs => by
      cases bs with
      | nil => simp [eqEntries]
      | cons entry bs =>
          obtain ⟨j, b⟩ := entry
          simp [eqEntries, eq_iff a b, eqEntries_iff as bs, and_assoc]

end

instance : DecidableEq LookupKey :=
  fun a b => decidable_of_iff (a.eq b = true) (eq_iff a b)

end LookupKey

/-!
## The lookup key of a value
-/

namespace Value

mutual

def lookupKey? : Value -> Option LookupKey
  | bool b => some (.bool b)
  | int _ n => some (.number (Binary64.rankOfInt n))
  | double x => x.rank?.map LookupKey.number
  | date millis => some (.date millis)
  | string s => some (.string s)
  | array items => (itemKeys? items).map LookupKey.array
  | document entries => (entryKeys? entries).map LookupKey.document
  | _ => some .null

def itemKeys? : List Value -> Option (List LookupKey)
  | [] => some []
  | item :: rest => do
      let key <- lookupKey? item
      let keys <- itemKeys? rest
      some (key :: keys)

/-- The entries in the order of their keys, the first of equal keys counting. -/
def entryKeys? : List (String × Value) -> Option (List (String × LookupKey))
  | [] => some []
  | (name, item) :: rest => do
      let key <- lookupKey? item
      let keys <- entryKeys? rest
      some (Ordered.insert keys name key)

end

def same (a b : Value) : Bool :=
  match a.lookupKey?, b.lookupKey? with
  | some key, some other => key = other
  | _, _ => false

def allSame (as bs : List Value) : Bool :=
  (as.zip bs).all fun pair => pair.1.same pair.2

/-!
## Order
-/

/-- Booleans, numbers, dates and strings are ordered among their own kind.  Any
two other values, and a NaN and any number, are level. -/
def order (a b : Value) : Ordering :=
  match a.lookupKey?, b.lookupKey? with
  | some (.bool x), some (.bool y) => compare x y
  | some (.number x), some (.number y) => compare x y
  | some (.date x), some (.date y) => compare x y
  | some (.string x), some (.string y) => compare x y
  | _, _ => .eq

end Value
end DocumentMapper
