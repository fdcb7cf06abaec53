import Mathlib.Order.Nat
import Mathlib.Order.RelClasses
import DocumentMapper.Proofs.Changes

/-!
# Consistency

What holds of every store that queries lead to: the documents of a collection
stand in the order of their numbers, every document carries its own reference and
the timestamp of its last write, and no index is newer than the last timestamp.

A document under one of the two reserved names is an exception: it can only have
come there by an update of a definition, and it carries the reference of that.
-/

namespace DocumentMapper

/-- The names under which definitions are found. -/
def Reference.reserved : List String :=
  [Reference.collections, Reference.indexes]

theorem Reference.not_mem_reserved_iff {name : String} :
    name ∉ Reference.reserved <->
      name ≠ Reference.collections ∧ name ≠ Reference.indexes := by
  simp [Reference.reserved]

structure Document.Stamped (reference : Reference) (document : Document) :
    Prop where
  ref : Keyed.get? document "ref" = some reference.toValue
  ts : exists timestamp, Keyed.get? document "ts" = some (.int .long timestamp)

/-- The document carries a reference, and under a name that is not reserved it is
the reference of its place. -/
def Store.Fits (collection : String) (number : Nat) (document : Document) :
    Prop :=
  exists reference, Document.Stamped reference document ∧
    (collection ∉ Reference.reserved ->
      reference = Store.numbered collection number)

structure Store.Consistent (store : Store) : Prop where
  sorted : forall collection, Ordered.Sorted (store.documentsOf collection)
  fits : forall collection entry, entry ∈ store.documentsOf collection ->
    Store.Fits collection entry.1 entry.2
  indexes : forall entry, entry ∈ store.indexes ->
    entry.2.timestamp ≤ store.lastTimestamp

/-!
## Documents after a change
-/

namespace Store

theorem documentsOf_eq {store : Store} {collection : String}
    {stored : StoredCollection}
    (h : Keyed.get? store.collections collection = some stored) :
    store.documentsOf collection = stored.documents := by
  simp [documentsOf, h]

theorem documentsOf_putDocument {store : Store} {collection : String}
    (h : Keyed.contains store.collections collection = true) (number : Nat)
    (document : Document) (other : String) :
    (store.putDocument collection number document).documentsOf other =
      if collection = other then
        Ordered.insert (store.documentsOf collection) number document
      else
        store.documentsOf other := by
  obtain ⟨stored, hstored⟩ := Keyed.contains_iff.mp h
  rw [documentsOf_eq hstored]
  unfold putDocument documentsOf
  rw [hstored]
  simp only [Keyed.get?_insert]
  split <;> rfl

theorem putDocument_of_absent {store : Store} {collection : String}
    (h : Keyed.get? store.collections collection = none) (number : Nat)
    (document : Document) :
    store.putDocument collection number document = store := by
  simp [putDocument, h]

@[simp] theorem putDocument_indexes (store : Store) (collection : String)
    (number : Nat) (document : Document) :
    (store.putDocument collection number document).indexes = store.indexes := by
  unfold putDocument
  split <;> rfl

@[simp] theorem putDocument_lastTimestamp (store : Store) (collection : String)
    (number : Nat) (document : Document) :
    (store.putDocument collection number document).lastTimestamp =
      store.lastTimestamp := by
  unfold putDocument
  split <;> rfl

theorem mem_documentsOf_putDocument {store : Store} {collection other : String}
    {number : Nat} {document : Document} {entry : Nat × Document}
    (h : entry ∈ (store.putDocument collection number document).documentsOf other) :
    (collection = other ∧ entry = (number, document)) ∨
      entry ∈ store.documentsOf other := by
  by_cases hpresent : Keyed.contains store.collections collection = true
  · rw [documentsOf_putDocument hpresent] at h
    by_cases hname : collection = other
    · rw [if_pos hname] at h
      rw [<- hname]
      cases Ordered.mem_of_mem_insert h with
      | inl heq => exact Or.inl ⟨rfl, heq⟩
      | inr hold => exact Or.inr hold
    · rw [if_neg hname] at h
      exact Or.inr h
  · rw [putDocument_of_absent (Keyed.not_contains_iff.mp hpresent)] at h
    exact Or.inr h

theorem mem_keys_putDocument_iff {store : Store} {collection other : String}
    {number wanted : Nat} {document : Document} :
    wanted ∈
        Keyed.keys ((store.putDocument collection number document).documentsOf other) <->
      (Keyed.contains store.collections collection = true ∧ collection = other ∧
          number = wanted) ∨
        wanted ∈ Keyed.keys (store.documentsOf other) := by
  by_cases hpresent : Keyed.contains store.collections collection = true
  · rw [documentsOf_putDocument hpresent, and_iff_right hpresent]
    by_cases hname : collection = other
    · rw [if_pos hname, Ordered.mem_keys_insert, hname, and_iff_right rfl]
    · rw [if_neg hname, or_iff_right fun hboth => hname hboth.1]
  · rw [putDocument_of_absent (Keyed.not_contains_iff.mp hpresent),
      or_iff_right fun hall => hpresent hall.1]

theorem sorted_documentsOf_putDocument {store : Store}
    (h : forall other, Ordered.Sorted (store.documentsOf other))
    (collection : String) (number : Nat) (document : Document) (other : String) :
    Ordered.Sorted
      ((store.putDocument collection number document).documentsOf other) := by
  by_cases hpresent : Keyed.contains store.collections collection = true
  · rw [documentsOf_putDocument hpresent]
    split
    · exact Ordered.sorted_insert number document (h collection)
    · exact h other
  · rw [putDocument_of_absent (Keyed.not_contains_iff.mp hpresent)]
    exact h other

theorem documentsOf_createCollection {store : Store} {name : String}
    (hfresh : Keyed.get? store.collections name = none) (timestamp : Int)
    (other : String) :
    { store with
        collections := Keyed.insert store.collections name
          { timestamp := timestamp, documents := [] }
        lastTimestamp := timestamp }.documentsOf other =
      store.documentsOf other := by
  unfold documentsOf
  simp only [Keyed.get?_insert]
  by_cases hname : name = other
  · rw [<- hname, hfresh, if_pos rfl]
    rfl
  · rw [if_neg hname]

theorem documentsOf_dropDocument (store : Store) (collection : String)
    (number : Nat) (other : String) :
    (store.dropDocument collection number).documentsOf other =
      if collection = other then Keyed.erase (store.documentsOf other) number
      else store.documentsOf other := by
  unfold dropDocument
  cases hstored : Keyed.get? store.collections collection with
  | none =>
      by_cases hname : collection = other
      · rw [if_pos hname, <- hname, documentsOf, hstored]
        rfl
      · rw [if_neg hname]
  | some stored =>
      unfold documentsOf
      simp only [Keyed.get?_insert]
      split
      · next hname =>
          rw [<- hname, hstored]
          rfl
      · rfl

theorem sublist_documentsOf_remove (store : Store) (reference : Reference)
    (other : String) :
    ((store.remove reference).documentsOf other).Sublist
      (store.documentsOf other) := by
  unfold remove
  split
  · unfold documentsOf
    simp only [Keyed.get?_erase]
    split
    · exact List.nil_sublist _
    · exact List.Sublist.refl _
  · split
    · exact List.Sublist.refl _
    · cases documentNumber? reference.id with
      | none => exact List.Sublist.refl _
      | some number =>
          dsimp only
          rw [documentsOf_dropDocument]
          split
          · exact List.filter_sublist
          · exact List.Sublist.refl _

@[simp] theorem remove_lastTimestamp (store : Store) (reference : Reference) :
    (store.remove reference).lastTimestamp = store.lastTimestamp := by
  unfold remove dropDocument
  repeat' split
  all_goals rfl

theorem get?_indexes_of_remove {store : Store} {reference : Reference}
    {name : String} {kept : StoredIndex}
    (h : Keyed.get? (store.remove reference).indexes name = some kept) :
    Keyed.get? store.indexes name = some kept := by
  unfold remove dropDocument at h
  split at h
  · exact h
  · split at h
    · rw [Keyed.get?_erase] at h
      split at h
      · cases h
      · exact h
    · repeat' split at h
      all_goals exact h

theorem mem_indexes_of_mem_remove {store : Store} {reference : Reference}
    {entry : String × StoredIndex}
    (h : entry ∈ (store.remove reference).indexes) : entry ∈ store.indexes := by
  unfold remove dropDocument at h
  split at h
  · exact h
  · split at h
    · exact Keyed.mem_of_mem_erase h
    · repeat' split at h
      all_goals exact h

/-!
## References and timestamps
-/

theorem stamped_storedDocument (reference : Reference) (timestamp : Int)
    (data : Document) :
    Document.Stamped reference (storedDocument reference timestamp data) :=
  ⟨rfl, timestamp, rfl⟩

theorem stamped_collectionDocument (name : String) (timestamp : Int) :
    Document.Stamped (Reference.ofCollection name)
      (collectionDocument name timestamp) :=
  ⟨rfl, timestamp, rfl⟩

theorem stamped_indexDocument (index : StoredIndex) :
    Document.Stamped (Reference.ofIndex index.definition.name)
      (indexDocument index) :=
  ⟨rfl, index.timestamp, rfl⟩

theorem stamped_patched {reference : Reference} {document : Document}
    (h : Document.Stamped reference document) (timestamp : Int)
    (patch : Document) :
    Document.Stamped reference (patched document timestamp patch) := by
  constructor
  · simp [patched, Keyed.get?_insert, h.ref]
  · exact ⟨timestamp, by simp [patched, Keyed.get?_insert]⟩

theorem get?_documentsOf_of_find? {store : Store} {reference : Reference}
    {document : Document} (hfree : reference.collection ∉ Reference.reserved)
    (h : store.find? reference = some document) :
    exists number, documentNumber? reference.id = some number ∧
      Keyed.get? (store.documentsOf reference.collection) number =
        some document := by
  have hnames := Reference.not_mem_reserved_iff.mp hfree
  unfold find? at h
  rw [if_neg hnames.1, if_neg hnames.2] at h
  cases hnumber : documentNumber? reference.id with
  | none =>
      rw [hnumber] at h
      cases h
  | some number =>
      rw [hnumber] at h
      exact ⟨number, rfl, h⟩

theorem mem_documentsOf_of_find? {store : Store} {reference : Reference}
    {document : Document} (hfree : reference.collection ∉ Reference.reserved)
    (h : store.find? reference = some document) :
    exists number, documentNumber? reference.id = some number ∧
      (number, document) ∈ store.documentsOf reference.collection := by
  rcases get?_documentsOf_of_find? hfree h with ⟨number, hnumber, hget⟩
  exact ⟨number, hnumber, Keyed.mem_of_get? hget⟩

theorem mem_documentsOf_of_number {store : Store} {reference : Reference}
    {document : Document} {number : Nat}
    (hfree : reference.collection ∉ Reference.reserved)
    (h : store.find? reference = some document)
    (hnumber : documentNumber? reference.id = some number) :
    (number, document) ∈ store.documentsOf reference.collection := by
  rcases mem_documentsOf_of_find? hfree h with ⟨stored, hstored, hmem⟩
  rw [hnumber] at hstored
  cases hstored
  exact hmem

theorem Consistent.document_unique {store : Store} (hstore : store.Consistent)
    {collection : String} {number : Nat} {a b : Document}
    (ha : (number, a) ∈ store.documentsOf collection)
    (hb : (number, b) ∈ store.documentsOf collection) : a = b :=
  Keyed.eq_of_mem (Ordered.nodup_keys_of_sorted (hstore.sorted collection)) ha hb

theorem Consistent.stamped_of_find? {store : Store} (hstore : store.Consistent)
    {reference : Reference} {document : Document}
    (h : store.find? reference = some document) :
    exists own, Document.Stamped own document := by
  by_cases hcollections : reference.collection = Reference.collections
  · simp only [find?, if_pos hcollections, Option.map_eq_some_iff] at h
    obtain ⟨stored, _, hdocument⟩ := h
    exact ⟨_, hdocument ▸ stamped_collectionDocument reference.id stored.timestamp⟩
  · by_cases hindexes : reference.collection = Reference.indexes
    · simp only [find?, if_neg hcollections, if_pos hindexes,
        Option.map_eq_some_iff] at h
      obtain ⟨stored, _, hdocument⟩ := h
      exact ⟨_, hdocument ▸ stamped_indexDocument stored⟩
    · have hfree : reference.collection ∉ Reference.reserved :=
        Reference.not_mem_reserved_iff.mpr ⟨hcollections, hindexes⟩
      obtain ⟨number, _, hmem⟩ := mem_documentsOf_of_find? hfree h
      obtain ⟨own, hstamped, _⟩ := hstore.fits _ _ hmem
      exact ⟨own, hstamped⟩

theorem Consistent.references?_eq {store : Store} (hstore : store.Consistent)
    {collection : String} (hfree : collection ∉ Reference.reserved) :
    store.references? collection =
      (Keyed.get? store.collections collection).map fun _ =>
        (Keyed.keys (store.documentsOf collection)).map fun number =>
          (numbered collection number).toValue := by
  rw [references?]
  cases hstored : Keyed.get? store.collections collection with
  | none =>
      rfl
  | some stored =>
      rw [documentsOf_eq hstored, Option.map_some, Option.map_some, Keyed.keys,
        List.map_map, <- List.filterMap_eq_map]
      congr 1
      refine List.filterMap_congr fun entry hentry => ?_
      rw [<- documentsOf_eq hstored] at hentry
      rcases hstore.fits collection entry hentry with ⟨own, hstamped, hown⟩
      rw [hstamped.ref, hown hfree]
      rfl

theorem Consistent.fits_patched {store : Store} (hstore : store.Consistent)
    {reference : Reference} {number : Nat} {found : Document}
    (hfound : store.find? reference = some found)
    (hnumber : documentNumber? reference.id = some number) (timestamp : Int)
    (patch : Document) :
    Fits reference.collection number (patched found timestamp patch) := by
  by_cases hreserved : reference.collection ∈ Reference.reserved
  · obtain ⟨own, hstamped⟩ := hstore.stamped_of_find? hfound
    exact ⟨own, stamped_patched hstamped timestamp patch,
      fun hfree => absurd hreserved hfree⟩
  · obtain ⟨own, hstamped, hown⟩ := hstore.fits _ _
      (mem_documentsOf_of_number hreserved hfound hnumber)
    exact ⟨own, stamped_patched hstamped timestamp patch, hown⟩

/-!
## Every store that queries lead to
-/

variable {clock : Clock}

theorem consistent_empty : Store.empty.Consistent where
  sorted _ := List.Pairwise.nil
  fits _ _ h := by cases h
  indexes _ h := by cases h

theorem consistent_putDocument {store : Store} (hstore : store.Consistent)
    {collection : String} {number : Nat} {document : Document}
    (hfits : Fits collection number document) :
    (store.putDocument collection number document).Consistent where
  sorted := sorted_documentsOf_putDocument hstore.sorted collection number document
  fits other entry hentry := by
    cases mem_documentsOf_putDocument hentry with
    | inl hput =>
        obtain ⟨hname, heq⟩ := hput
        rw [<- hname, heq]
        exact hfits
    | inr hold =>
        exact hstore.fits other entry hold
  indexes entry hentry := by
    rw [putDocument_indexes] at hentry
    rw [putDocument_lastTimestamp]
    exact hstore.indexes entry hentry

theorem consistent_stepped {store : Store} (hstore : store.Consistent)
    (number : Nat) : (store.stepped clock number).Consistent where
  sorted := hstore.sorted
  fits := hstore.fits
  indexes entry hentry :=
    Int.le_of_lt (Int.lt_of_le_of_lt (hstore.indexes entry hentry)
      (store.lastTimestamp_lt_nextTimestamp clock))

theorem consistent_remove {store : Store} (hstore : store.Consistent)
    (reference : Reference) : (store.remove reference).Consistent where
  sorted other :=
    List.Pairwise.sublist (sublist_documentsOf_remove store reference other)
      (hstore.sorted other)
  fits other entry hentry :=
    hstore.fits other entry
      ((sublist_documentsOf_remove store reference other).subset hentry)
  indexes entry hentry := by
    rw [remove_lastTimestamp]
    exact hstore.indexes entry (mem_indexes_of_mem_remove hentry)

theorem Change.consistent {store left : Store} (h : Change clock store left)
    (hstore : store.Consistent) : left.Consistent := by
  cases h with
  | unchanged =>
      exact hstore
  | advanced hnumber =>
      exact consistent_stepped hstore _
  | createCollection hfresh =>
      constructor
      · intro other
        rw [documentsOf_createCollection hfresh]
        exact hstore.sorted other
      · intro other entry hentry
        rw [documentsOf_createCollection hfresh] at hentry
        exact hstore.fits other entry hentry
      · exact (consistent_stepped hstore store.lastNumber).indexes
  | createIndex hfresh hsource =>
      refine ⟨hstore.sorted, hstore.fits, ?_⟩
      intro entry hentry
      cases Keyed.mem_of_mem_insert hentry with
      | inl hnew =>
          subst hnew
          exact Int.le_refl _
      | inr hold =>
          exact (consistent_stepped hstore store.lastNumber).indexes entry hold
  | createDocument hpresent hdocument hunique =>
      refine consistent_putDocument (consistent_stepped hstore _) ?_
      rw [hdocument]
      exact ⟨_, stamped_storedDocument _ _ _, fun _ => rfl⟩
  | updateDocument hfound hnumber hdocument hunique =>
      refine consistent_putDocument (consistent_stepped hstore _) ?_
      rw [hdocument]
      exact hstore.fits_patched hfound hnumber _ _
  | remove hfound =>
      exact consistent_remove hstore _

theorem Evolves.consistent {start store : Store} (hrun : Evolves start store)
    (hstart : start.Consistent) : store.Consistent :=
  hrun.keeps Change.consistent hstart

theorem Reachable.consistent {store : Store} (h : Reachable store) :
    store.Consistent :=
  (LeadsTo.evolves h).consistent consistent_empty

end Store
end DocumentMapper
