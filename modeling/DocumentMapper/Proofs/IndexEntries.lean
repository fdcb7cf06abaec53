import Mathlib.Data.List.Basic
import DocumentMapper.Proofs.CompiledReads
import DocumentMapper.Proofs.Lookup
import DocumentMapper.Proofs.RowOrder

/-!
# Entries of an index

An index lists the documents of its source that carry the wanted terms, each of them
once and no others.

Where the comparison of rows is transitive the entries are sorted by it, and documents
that it leaves level stay in the order of their numbers.  Where it is not, no order is
promised, and a lookup that finds more than twenty documents may give up.
-/

namespace DocumentMapper

namespace IndexDefinition

variable {index : IndexDefinition}

/-!
## Columns of one kind
-/

def column (value : IndexValue) (document : Document) : Value :=
  (document.at? value.field).getD .null

/-- In a column the documents have only strings, only booleans or only dates. -/
def OfOneKind (documents : List Document) (value : IndexValue) : Prop :=
  (forall document, document ∈ documents -> exists s, column value document = .string s) ∨
  (forall document, document ∈ documents -> exists b, column value document = .bool b) ∨
  forall document, document ∈ documents -> exists millis, column value document = .date millis

abbrev compareColumn (documents : List Document) (value : IndexValue)
    (a b : { document // document ∈ documents }) : Ordering :=
  orderColumn value (column value a.1) (column value b.1)

theorem transCmp_compareColumn {key : Type} [Ord key] [Std.TransOrd key]
    {documents : List Document} {value : IndexValue} (of : key -> Value)
    (horder : forall x y, (of x).order (of y) = compare x y)
    (hcolumn : forall document, document ∈ documents ->
      exists x, column value document = of x) :
    Std.TransCmp (compareColumn documents value) := by
  choose found hfound using hcolumn
  let keyOf (document : { document // document ∈ documents }) : key :=
    found document.1 document.2
  have hforward : Std.TransCmp (compareOn keyOf) := inferInstance
  have hcompare : forall a b : { document // document ∈ documents },
      (column value a.1).order (column value b.1) = compareOn keyOf a b := by
    intro a b
    rw [hfound a.1 a.2, hfound b.1 b.2, horder]
    rfl
  cases hreverse : value.reverse with
  | false =>
      have heq : compareColumn documents value = compareOn keyOf := by
        funext a b
        rw [compareColumn, orderColumn, hreverse, <- hcompare]
        rfl
      rw [heq]
      exact hforward
  | true =>
      have heq : compareColumn documents value = fun a b => compareOn keyOf b a := by
        funext a b
        rw [compareColumn, orderColumn, hreverse, <- hcompare]
        exact Value.order_swap _ _
      rw [heq]
      exact Std.TransCmp.opposite

theorem OfOneKind.transCmp {documents : List Document} {value : IndexValue}
    (h : OfOneKind documents value) : Std.TransCmp (compareColumn documents value) := by
  rcases h with hstrings | hbooleans | hdates
  · exact transCmp_compareColumn Value.string (fun _ _ => rfl) hstrings
  · exact transCmp_compareColumn Value.bool (fun _ _ => rfl) hbooleans
  · exact transCmp_compareColumn Value.date (fun _ _ => rfl) hdates

theorem transCmp_orderRows {documents : List Document} {values : List IndexValue}
    (h : forall value, value ∈ values -> Std.TransCmp (compareColumn documents value)) :
    Std.TransCmp fun a b : { document // document ∈ documents } =>
      orderRows values (values.map fun value => column value a.1)
        (values.map fun value => column value b.1) := by
  induction values with
  | nil =>
      exact { eq_swap := rfl, isLE_trans := fun _ _ => rfl }
  | cons value rest ih =>
      rw [List.forall_mem_cons] at h
      have hfirst := h.1
      have hrest := ih h.2
      exact (inferInstance : Std.TransCmp
        (compareLex (compareColumn documents value) fun a b =>
          orderRows rest (rest.map fun value => column value a.1)
            (rest.map fun value => column value b.1)))

theorem preordersOn_of_transCmp {documents : List Document}
    (h : forall value, value ∈ index.values -> Std.TransCmp (compareColumn documents value)) :
    index.PreordersOn documents := by
  have htrans := transCmp_orderRows h
  intro a ha b hb c hc hab hbc
  have hac := htrans.isLE_trans (a := ⟨a, ha⟩) (b := ⟨b, hb⟩) (c := ⟨c, hc⟩) hab hbc
  exact hac

theorem preordersOn_of_ofOneKind {documents : List Document}
    (h : forall value, value ∈ index.values -> OfOneKind documents value) :
    index.PreordersOn documents :=
  preordersOn_of_transCmp fun value hvalue => (h value hvalue).transCmp

/-!
## Documents that carry the wanted terms
-/

/-- The document has something for every term of the index, and it is what is wanted
there. -/
def Carries (index : IndexDefinition) (terms : List Value) (document : Document) : Prop :=
  List.Forall₂
    (fun term wanted => exists held,
      document.at? term.field = some held ∧ held.same wanted = true)
    index.terms terms

theorem finds_iff_carries {terms : List Value} {document : Document} :
    index.finds terms document = true <-> index.Carries terms document := by
  simp only [finds_iff, termsOf?_eq_some_iff, Carries, Value.Agree]
  exact exists_forall₂_iff

instance (index : IndexDefinition) (terms : List Value) :
    DecidablePred (index.Carries terms) :=
  fun _ => decidable_of_iff _ finds_iff_carries

/-- A numbered document stands before another: its row does, or the rows are level and
its number is the smaller. -/
def Ahead (index : IndexDefinition) (a b : Nat × Document) : Prop :=
  index.compareRows a.2 b.2 = .lt ∨ index.compareRows a.2 b.2 = .eq ∧ a.1 < b.1

/-!
## Entries
-/

theorem entryOf_eq (index : IndexDefinition) (document : Document) :
    index.entryOf document =
      if index.values = [] then (document.at? ["ref"]).getD .null
      else .array (index.values.map fun value => column value document) := by
  simp only [entryOf, List.isEmpty_iff]
  rfl

theorem entryOf_of_stamped {document : Document} {own : Reference}
    (h : index.values = []) (hstamped : Document.Stamped own document) :
    index.entryOf document = own.toValue := by
  rw [entryOf_eq, if_pos h, hstamped.at?_ref, Option.getD_some]

end IndexDefinition

/-!
## What a lookup lists

Documents of a source stand in the order of their numbers in every store that queries
lead to; of any other store only this much is asked.
-/

namespace Store

/-- The documents of the source of an index that carry the wanted terms, in the order
of their numbers. -/
def carriers (store : Store) (index : IndexDefinition) (terms : List Value) :
    List (Nat × Document) :=
  (store.documentsOf index.source).filter fun entry => index.Carries terms entry.2

/-- The carriers as the sort leaves them, if it does not give up. -/
def listed? (store : Store) (index : IndexDefinition) (terms : List Value) :
    Option (List (Nat × Document)) :=
  Sorting.sort? (fun a b => index.compareRows a.2 b.2) (store.carriers index terms)

def listed (store : Store) (index : IndexDefinition) (terms : List Value) :
    List (Nat × Document) :=
  (store.carriers index terms).mergeSort fun a b => index.precedes a.2 b.2

variable {store : Store} {index : IndexDefinition} {terms : List Value}

theorem foundDocuments_eq_carriers (store : Store) (index : IndexDefinition)
    (terms : List Value) :
    store.foundDocuments index terms = (store.carriers index terms).map Prod.snd := by
  have hfinds : (fun entry : Nat × Document => decide (index.Carries terms entry.2)) =
      index.finds terms ∘ Prod.snd := by
    funext entry
    exact Bool.eq_iff_iff.mpr (by simp [IndexDefinition.finds_iff_carries])
  rw [carriers, hfinds, foundDocuments, List.filter_map]

theorem matchingDocuments?_eq_listed? (store : Store) (index : IndexDefinition)
    (terms : List Value) :
    store.matchingDocuments? index terms =
      (store.listed? index terms).map (List.map Prod.snd) := by
  rw [matchingDocuments?, foundDocuments_eq_carriers, Sorting.sort?_map]
  rfl

theorem matching?_eq_listed? {name : String} {stored : StoredIndex}
    (h : Keyed.get? store.indexes name = some stored) :
    store.matching? name terms =
      (store.listed? stored.definition terms).map
        (List.map fun entry => stored.definition.entryOf entry.2) := by
  rw [matching?_of_index h, matchingDocuments?_eq_listed?, Option.map_map]
  simp [Function.comp_def]

theorem perm_listed? {found : List (Nat × Document)}
    (h : store.listed? index terms = some found) : found.Perm (store.carriers index terms) :=
  Sorting.perm_sort? h

theorem exists_listed?_of_length_le (h : (store.carriers index terms).length <= 20) :
    exists found, store.listed? index terms = some found :=
  Sorting.exists_sort?_of_length_le _ h

theorem carriers_of_absent (h : Keyed.get? store.collections index.source = none) :
    store.carriers index terms = [] := by
  simp [carriers, documentsOf, h]

theorem perm_listed (store : Store) (index : IndexDefinition) (terms : List Value) :
    (store.listed index terms).Perm (store.carriers index terms) :=
  List.mergeSort_perm _ _

section

variable (htrans : index.PreordersOn ((store.carriers index terms).map Prod.snd))

include htrans

theorem transitiveOn_carriers :
    TransitiveOn (fun a b : Nat × Document => index.precedes a.2 b.2)
      (store.carriers index terms) :=
  fun a ha b hb c hc =>
    htrans a.2 (List.mem_map_of_mem ha) b.2 (List.mem_map_of_mem hb)
      c.2 (List.mem_map_of_mem hc)

theorem listed?_eq : store.listed? index terms = some (store.listed index terms) :=
  Sorting.sort?_eq_mergeSort (fun a b => index.compareRows_swap a.2 b.2)
    (transitiveOn_carriers htrans)

theorem pairwise_listed (hsorted : Ordered.Sorted (store.documentsOf index.source)) :
    (store.listed index terms).Pairwise index.Ahead :=
  Sorting.pairwise_sort? (fun a b => index.compareRows_swap a.2 b.2)
    (transitiveOn_carriers htrans) (hsorted.sublist List.filter_sublist) (listed?_eq htrans)

end

/-!
# Main statement
-/

theorem matching_is_exact_and_ordered (store : Store) {name : String}
    {stored : StoredIndex} (hindex : Keyed.get? store.indexes name = some stored)
    (terms : List Value) :
    (forall entries, store.matching? name terms = some entries ->
      exists found : List (Nat × Document),
        entries = (found.map fun entry =>
            if stored.definition.values = [] then (entry.2.at? ["ref"]).getD .null
            else .array (stored.definition.values.map fun value =>
              IndexDefinition.column value entry.2)) ∧
          found.Perm (store.carriers stored.definition terms) ∧
          (store.Consistent -> stored.definition.values = [] ->
            forall entry, entry ∈ found -> exists own,
              Document.Stamped own entry.2 ∧
                stored.definition.entryOf entry.2 = own.toValue) ∧
          (Ordered.Sorted (store.documentsOf stored.definition.source) ->
            stored.definition.PreordersOn (found.map Prod.snd) ->
              found.Pairwise stored.definition.Ahead)) ∧
      (Keyed.get? store.collections stored.definition.source = none ->
        store.matching? name terms = some []) ∧
      ((store.carriers stored.definition terms).length <= 20 ∨
          stored.definition.PreordersOn
            ((store.carriers stored.definition terms).map Prod.snd) ->
        exists entries, store.matching? name terms = some entries) ∧
      forall documents : List Document,
        (forall value, value ∈ stored.definition.values ->
          IndexDefinition.OfOneKind documents value) ->
        stored.definition.PreordersOn documents := by
  rw [matching?_eq_listed? hindex]
  refine ⟨fun entries hentries => ?_, fun habsent => ?_, fun hanswers => ?_,
    fun _ => IndexDefinition.preordersOn_of_ofOneKind⟩
  · rcases Option.map_eq_some_iff.mp hentries with ⟨found, hfound, rfl⟩
    have hperm := perm_listed? hfound
    refine ⟨found, ?_, hperm, fun hstore hvalues entry hentry => ?_, fun hsorted htrans => ?_⟩
    · simp only [IndexDefinition.entryOf_eq]
    · have hmem := (List.mem_filter.mp (hperm.mem_iff.mp hentry)).1
      rcases hstore.fits _ entry hmem with ⟨own, hstamped, _⟩
      exact ⟨own, hstamped, IndexDefinition.entryOf_of_stamped hvalues hstamped⟩
    · have hcarriers : stored.definition.PreordersOn
          ((store.carriers stored.definition terms).map Prod.snd) := by
        intro a ha b hb c hc
        have hmem := fun document => ((hperm.map Prod.snd).mem_iff (a := document)).mpr
        exact htrans a (hmem a ha) b (hmem b hb) c (hmem c hc)
      rw [listed?_eq hcarriers, Option.some_inj] at hfound
      rw [<- hfound]
      exact pairwise_listed hcarriers hsorted
  · have hlisted : store.listed? stored.definition terms = some [] := by
      rw [listed?, carriers_of_absent habsent]
      rfl
    rw [hlisted]
    rfl
  · have hlisted : exists found, store.listed? stored.definition terms = some found := by
      rcases hanswers with hfew | hordered
      · exact exists_listed?_of_length_le hfew
      · exact ⟨_, listed?_eq hordered⟩
    rcases hlisted with ⟨found, hfound⟩
    exact ⟨_, by rw [hfound]; rfl⟩

/-!
The statement at one store: of the books on one shelf those of a later title come first,
and two of one title stay in the order of their numbers.
-/

def booksByShelf : StoredIndex :=
  { timestamp := 2
    definition :=
      { name := "books_by_shelf"
        source := "Book"
        terms := [{ field := dataPath "shelf" }]
        values := [{ field := dataPath "title", reverse := true }]
        unique := none } }

def shelved (number : Nat) (shelf title : String) : Nat × Document :=
  (number,
    [("ref", (Store.numbered "Book" number).toValue),
      ("data", .document [("shelf", .string shelf), ("title", .string title)])])

def shelves : Store :=
  { collections :=
      [("Book",
        { timestamp := 1
          documents :=
            [shelved 3 "east" "Ox", shelved 4 "west" "Ox", shelved 5 "east" "Yak",
              shelved 6 "east" "Ox"] })]
    indexes := [("books_by_shelf", booksByShelf)]
    lastNumber := 6
    lastTimestamp := 6 }

theorem carriers_shelves :
    shelves.carriers booksByShelf.definition [.string "east"] =
      [shelved 3 "east" "Ox", shelved 5 "east" "Yak", shelved 6 "east" "Ox"] := by
  with_unfolding_all rfl

theorem matching?_shelves :
    shelves.matching? "books_by_shelf" [.string "east"] =
      some [.array [.string "Yak"], .array [.string "Ox"], .array [.string "Ox"]] := by
  with_unfolding_all rfl

theorem matching_is_exact_and_ordered_shelves :
    Keyed.get? shelves.indexes "books_by_shelf" = some booksByShelf ∧
      exists found : List (Nat × Document),
        shelves.matching? "books_by_shelf" [.string "east"] =
            some [.array [.string "Yak"], .array [.string "Ox"], .array [.string "Ox"]] ∧
          found.map (fun entry =>
              Value.array (booksByShelf.definition.values.map fun value =>
                IndexDefinition.column value entry.2)) =
            [.array [.string "Yak"], .array [.string "Ox"], .array [.string "Ox"]] ∧
          found.Perm
            [shelved 3 "east" "Ox", shelved 5 "east" "Yak", shelved 6 "east" "Ox"] ∧
          found.Pairwise booksByShelf.definition.Ahead := by
  have hindex : Keyed.get? shelves.indexes "books_by_shelf" = some booksByShelf := rfl
  rcases matching_is_exact_and_ordered shelves hindex [.string "east"] with
    ⟨hanswer, _, _, hkind⟩
  rcases hanswer _ matching?_shelves with ⟨found, hentries, hperm, _, hordered⟩
  rw [carriers_shelves] at hperm
  have hstrings : forall value, value ∈ booksByShelf.definition.values ->
      IndexDefinition.OfOneKind (found.map Prod.snd) value := by
    intro value hvalue
    cases List.mem_singleton.mp hvalue
    refine Or.inl fun document hdocument => ?_
    have hmem := (hperm.map Prod.snd).mem_iff.mp hdocument
    simp only [List.map_cons, List.map_nil, List.mem_cons, List.not_mem_nil, or_false]
      at hmem
    rcases hmem with rfl | rfl | rfl <;> exact ⟨_, rfl⟩
  have hsorted : Ordered.Sorted (shelves.documentsOf "Book") := by
    unfold Ordered.Sorted
    decide
  exact ⟨hindex, found, matching?_shelves, hentries.symm, hperm,
    hordered hsorted (hkind _ hstrings)⟩

/-!
The exception: the counts of twenty-one notes fall, and one note among them has none.  All
of them are found, and the sort gives up.
-/

def notesByCount : IndexDefinition :=
  { name := "notes_by_count"
    source := "Note"
    terms := []
    values := [{ field := dataPath "count", reverse := false }]
    unique := none }

def countedNotes (counts : List (Option Value)) : Store :=
  Store.empty.afterAll (fun _ => 0)
    (.createCollection { name := "Note" } :: .createIndex notesByCount ::
      counts.map fun count =>
        .create (.collection "Note")
          (Model.dataParams (count.toList.map fun count => ("count", count))))

/-- Counts that fall from twenty, with a gap in the middle. -/
def gapCounts : List (Option Value) :=
  ([20, 19, 18, 17, 16, 15, 14, 13, 12, 11].map fun n => some (.int .short n)) ++
    none :: [10, 9, 8, 7, 6, 5, 4, 3, 2, 1].map fun n => some (.int .short n)

set_option maxRecDepth 4000 in
theorem lookup_gives_up_at_gap :
    (countedNotes gapCounts).Reachable ∧
      Keyed.get? (countedNotes gapCounts).indexes "notes_by_count" =
        some { timestamp := 2, definition := notesByCount } ∧
      ((countedNotes gapCounts).carriers notesByCount []).length = 21 ∧
      (countedNotes gapCounts).matching? "notes_by_count" [] = none := by
  refine ⟨LeadsTo.start.afterAll _ _, ?_, ?_, ?_⟩
  · with_unfolding_all rfl
  · rw [<- List.length_map (f := Prod.snd), <- foundDocuments_eq_carriers]
    decide +kernel
  · rw [<- Option.isNone_iff_eq_none]
    decide +kernel

end Store
end DocumentMapper
