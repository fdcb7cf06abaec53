import DocumentMapper.Proofs.Numbers
import DocumentMapper.Proofs.Patches

/-!
# The representation of stores

What holds of every store that queries lead to, whatever expressions they evaluate,
whatever the clock reads and whether they answer or fail.

A document says where it stands, when it was last written and what it holds; its number
stands in no other collection, and nothing else in the store has its timestamp.  The two
reserved names are left out: only an update of a definition writes a document there, and
that is a copy of the definition and not a document of its own.
-/

namespace DocumentMapper
namespace Store

/-!
## Timestamps
-/

inductive Item where
  | collection (name : String)
  | index (name : String)
  | document (collection : String) (number : Nat)

inductive Stamps (store : Store) : Item -> Int -> Prop where
  | collection {name : String} {stored : StoredCollection}
      (hentry : (name, stored) ∈ store.collections) :
      Stamps store (.collection name) stored.timestamp
  | index {name : String} {stored : StoredIndex}
      (hentry : (name, stored) ∈ store.indexes) :
      Stamps store (.index name) stored.timestamp
  | document {collection : String} {number : Nat} {document : Document}
      {timestamp : Int} (hfree : collection ∉ Reference.reserved)
      (hentry : (number, document) ∈ store.documentsOf collection)
      (hts : Keyed.get? document "ts" = some (.int .long timestamp)) :
      Stamps store (.document collection number) timestamp

variable {clock : Clock} {store left : Store} {item : Item} {timestamp : Int}

theorem mem_collections_of_documents {collection : String} {stored : StoredCollection}
    (hstored : Keyed.get? store.collections collection = some stored)
    (documents : List (Nat × Document)) {name : String} {found : StoredCollection}
    (h : (name, found) ∈ Keyed.insert store.collections collection
      { stored with documents := documents }) :
    store.Stamps (.collection name) found.timestamp := by
  cases Keyed.mem_of_mem_insert h with
  | inl hwritten =>
      cases hwritten
      show store.Stamps (.collection collection) stored.timestamp
      exact .collection (Keyed.mem_of_get? hstored)
  | inr hold =>
      exact .collection hold

theorem Stamps.of_putDocument {collection : String} {number : Nat}
    {document : Document}
    (h : (store.putDocument collection number document).Stamps item timestamp) :
    store.Stamps item timestamp ∨
      item = .document collection number ∧
        Keyed.get? document "ts" = some (.int .long timestamp) := by
  cases h with
  | collection hentry =>
      apply Or.inl
      unfold putDocument at hentry
      split at hentry
      · next stored hstored => exact mem_collections_of_documents hstored _ hentry
      · exact .collection hentry
  | index hentry =>
      rw [putDocument_indexes] at hentry
      exact Or.inl (.index hentry)
  | document hfree hentry hts =>
      rcases mem_documentsOf_putDocument hentry with ⟨rfl, heq⟩ | hold
      · cases heq
        exact Or.inr ⟨rfl, hts⟩
      · exact Or.inl (.document hfree hold hts)

theorem Stamps.of_remove {reference : Reference}
    (h : (store.remove reference).Stamps item timestamp) :
    store.Stamps item timestamp := by
  cases h with
  | collection hentry =>
      unfold remove at hentry
      split at hentry
      · exact .collection (Keyed.mem_of_mem_erase hentry)
      · split at hentry
        · exact .collection hentry
        · split at hentry
          · unfold dropDocument at hentry
            split at hentry
            · next stored hstored => exact mem_collections_of_documents hstored _ hentry
            · exact .collection hentry
          · exact .collection hentry
  | index hentry =>
      exact .index (mem_indexes_of_mem_remove hentry)
  | document hfree hentry hts =>
      exact .document hfree
        ((sublist_documentsOf_remove store reference _).subset hentry) hts

theorem Stamps.of_stepped {number : Nat}
    (h : (store.stepped clock number).Stamps item timestamp) :
    store.Stamps item timestamp := by
  cases h with
  | collection hentry => exact .collection hentry
  | index hentry => exact .index hentry
  | document hfree hentry hts => exact .document hfree hentry hts

def NewlyStamped (store left : Store) (added item : Item) (timestamp : Int) : Prop :=
  item = added ∧ timestamp = left.lastTimestamp ∧
    store.lastTimestamp < left.lastTimestamp

theorem Stamps.of_written {count number : Nat} {collection : String}
    {document : Document}
    (hts : Keyed.get? document "ts" = some (.int .long (store.nextTimestamp clock)))
    (h : ((store.stepped clock count).putDocument collection number document).Stamps
      item timestamp) :
    store.Stamps item timestamp ∨
      NewlyStamped store
        ((store.stepped clock count).putDocument collection number document)
        (.document collection number) item timestamp := by
  rcases h.of_putDocument with hold | ⟨hitem, hnew⟩
  · exact Or.inl hold.of_stepped
  · rw [hts] at hnew
    cases hnew
    rw [NewlyStamped, putDocument_lastTimestamp]
    exact Or.inr ⟨hitem, rfl, store.lastTimestamp_lt_nextTimestamp clock⟩

/-- A change stamps one item at most. -/
theorem Change.stamps (hchange : Change clock store left) :
    store.lastTimestamp ≤ left.lastTimestamp ∧
      exists added, forall item timestamp, left.Stamps item timestamp ->
        store.Stamps item timestamp ∨ NewlyStamped store left added item timestamp := by
  have hlater := store.lastTimestamp_lt_nextTimestamp clock
  cases hchange with
  | unchanged =>
      exact ⟨Int.le_refl _, .collection "", fun item timestamp h => Or.inl h⟩
  | advanced hnumber =>
      exact ⟨Int.le_of_lt hlater, .collection "",
        fun item timestamp h => Or.inl h.of_stepped⟩
  | @createCollection name hfresh =>
      refine ⟨Int.le_of_lt hlater, .collection name, fun item timestamp h => ?_⟩
      cases h with
      | collection hentry =>
          cases Keyed.mem_of_mem_insert hentry with
          | inl hnew =>
              cases hnew
              exact Or.inr ⟨rfl, rfl, hlater⟩
          | inr hold =>
              exact Or.inl (.collection hold)
      | index hentry =>
          exact Or.inl (.index hentry)
      | document hfree hentry hts =>
          rw [documentsOf_createCollection hfresh] at hentry
          exact Or.inl (.document hfree hentry hts)
  | @createIndex definition hfresh hsource =>
      refine ⟨Int.le_of_lt hlater, .index definition.name, fun item timestamp h => ?_⟩
      cases h with
      | collection hentry =>
          exact Or.inl (.collection hentry)
      | index hentry =>
          cases Keyed.mem_of_mem_insert hentry with
          | inl hnew =>
              cases hnew
              exact Or.inr ⟨rfl, rfl, hlater⟩
          | inr hold =>
              exact Or.inl (.index hold)
      | document hfree hentry hts =>
          exact Or.inl (.document hfree hentry hts)
  | createDocument hpresent hdocument hunique =>
      rw [putDocument_lastTimestamp]
      refine ⟨Int.le_of_lt hlater, _, fun item timestamp h => h.of_written ?_⟩
      rw [hdocument]
      rfl
  | updateDocument hfound hnumber hdocument hunique =>
      rw [putDocument_lastTimestamp]
      refine ⟨Int.le_of_lt hlater, _, fun item timestamp h => h.of_written ?_⟩
      simp [hdocument, patched, Keyed.get?_insert]
  | remove hfound =>
      rw [remove_lastTimestamp]
      exact ⟨Int.le_refl _, .collection "",
        fun item timestamp h => Or.inl h.of_remove⟩

/-- Timestamps that were given in turn: no two items share one, and all of them lie between
nought and the last. -/
structure InTurn {item : Type} (marks : item -> Int -> Prop) (last : Int) : Prop where
  start : 0 ≤ last
  range : forall a timestamp, marks a timestamp -> 0 < timestamp ∧ timestamp ≤ last
  distinct : forall a b timestamp, marks a timestamp -> marks b timestamp -> a = b

/-- One more item at most is marked, with a timestamp that is later than the last. -/
theorem InTurn.next {item : Type} {marks marks' : item -> Int -> Prop} {last last' : Int}
    (h : InTurn marks last) (hlast : last ≤ last') {added : item}
    (hmarks : forall a timestamp, marks' a timestamp -> marks a timestamp ∨
      a = added ∧ timestamp = last' ∧ last < last') : InTurn marks' last' := by
  refine ⟨Int.le_trans h.start hlast, ?_, ?_⟩
  · intro a timestamp ha
    rcases hmarks a timestamp ha with hold | ⟨_, heq, hlater⟩
    · have hrange := h.range a timestamp hold
      exact ⟨hrange.1, Int.le_trans hrange.2 hlast⟩
    · rw [heq]
      exact ⟨Int.lt_of_le_of_lt h.start hlater, Int.le_refl _⟩
  · intro a b timestamp ha hb
    -- A timestamp of before is not later than the last, the new one is.
    rcases hmarks a timestamp ha with haold | ⟨haitem, hanew, halater⟩
    · rcases hmarks b timestamp hb with hbold | ⟨hbitem, hbnew, hblater⟩
      · exact h.distinct a b timestamp haold hbold
      · have hle := (h.range a timestamp haold).2
        omega
    · rcases hmarks b timestamp hb with hbold | ⟨hbitem, hbnew, hblater⟩
      · have hle := (h.range b timestamp hbold).2
        omega
      · rw [haitem, hbitem]

theorem Change.inTurn (hchange : Change clock store left)
    (h : InTurn store.Stamps store.lastTimestamp) :
    InTurn left.Stamps left.lastTimestamp := by
  rcases hchange.stamps with ⟨hlast, added, hstamps⟩
  exact h.next hlast hstamps

/-!
## Names and numbers
-/

structure Named (store : Store) : Prop where
  collections : (Keyed.keys store.collections).Nodup
  indexes : (Keyed.keys store.indexes).Nodup

theorem named_putDocument (h : store.Named) (collection : String) (number : Nat)
    (document : Document) : (store.putDocument collection number document).Named := by
  unfold putDocument
  split
  · exact ⟨Keyed.nodup_keys_insert _ _ h.collections, h.indexes⟩
  · exact h

theorem named_remove (h : store.Named) (reference : Reference) :
    (store.remove reference).Named := by
  unfold remove
  split
  · exact ⟨Keyed.nodup_keys_erase _ h.collections, h.indexes⟩
  · split
    · exact ⟨h.collections, Keyed.nodup_keys_erase _ h.indexes⟩
    · split
      · unfold dropDocument
        split
        · exact ⟨Keyed.nodup_keys_insert _ _ h.collections, h.indexes⟩
        · exact h
      · exact h

theorem Change.named (hchange : Change clock store left) (h : store.Named) :
    left.Named := by
  have hstepped : forall number, (store.stepped clock number).Named :=
    fun _ => ⟨h.collections, h.indexes⟩
  cases hchange with
  | unchanged => exact h
  | advanced hnumber => exact hstepped _
  | createCollection hfresh =>
      exact ⟨Keyed.nodup_keys_insert _ _ h.collections, h.indexes⟩
  | createIndex hfresh hsource =>
      exact ⟨h.collections, Keyed.nodup_keys_insert _ _ h.indexes⟩
  | createDocument hpresent hdocument hunique =>
      exact named_putDocument (hstepped _) _ _ _
  | updateDocument hfound hnumber hdocument hunique =>
      exact named_putDocument (hstepped _) _ _ _
  | remove hfound =>
      exact named_remove h _

/-- No number is used in two collections whose names are not reserved. -/
def Apart (store : Store) : Prop :=
  forall a b, a ∉ Reference.reserved -> b ∉ Reference.reserved ->
    forall number, number ∈ Keyed.keys (store.documentsOf a) ->
      number ∈ Keyed.keys (store.documentsOf b) -> a = b

theorem apart_putDocument (h : store.Apart) {collection : String} {number : Nat}
    (hnumber : collection ∉ Reference.reserved ->
      forall other, other ∉ Reference.reserved ->
        number ∈ Keyed.keys (store.documentsOf other) -> other = collection)
    (document : Document) :
    (store.putDocument collection number document).Apart := by
  intro a b hafree hbfree wanted ha hb
  rcases mem_keys_putDocument_iff.mp ha with ⟨_, rfl, rfl⟩ | haold
  · rcases mem_keys_putDocument_iff.mp hb with ⟨_, hname, _⟩ | hbold
    · exact hname
    · exact (hnumber hafree b hbfree hbold).symm
  · rcases mem_keys_putDocument_iff.mp hb with ⟨_, rfl, rfl⟩ | hbold
    · exact hnumber hbfree a hafree haold
    · exact h a b hafree hbfree wanted haold hbold

theorem Change.apart (hchange : Change clock store left)
    (hgiven : forall collection, collection ∉ Reference.reserved ->
      store.NumbersGiven collection)
    (h : store.Apart) : left.Apart := by
  have hstepped : forall number, (store.stepped clock number).Apart := fun _ => h
  cases hchange with
  | unchanged => exact h
  | advanced hnumber => exact h
  | createCollection hfresh =>
      intro a b hafree hbfree wanted ha hb
      rw [documentsOf_createCollection hfresh] at ha hb
      exact h a b hafree hbfree wanted ha hb
  | createIndex hfresh hsource => exact h
  | createDocument hpresent hdocument hunique =>
      refine apart_putDocument (hstepped _) ?_ _
      intro _ other hother hmem
      exact absurd hmem (hgiven other hother).fresh
  | updateDocument hfound hnumber hdocument hunique =>
      refine apart_putDocument (hstepped _) ?_ _
      intro hfree other hother hmem
      have hown := mem_documentsOf_of_number hfree hfound hnumber
      exact h other _ hother hfree _ hmem (Keyed.mem_keys_of_mem hown)
  | remove hfound =>
      intro a b hafree hbfree wanted ha hb
      have hain := ((sublist_documentsOf_remove store _ a).map Prod.fst).subset ha
      have hbin := ((sublist_documentsOf_remove store _ b).map Prod.fst).subset hb
      exact h a b hafree hbfree wanted hain hbin

/-!
## Documents
-/

structure DocumentRepresented (store : Store) (collection : String) (number : Nat)
    (document : Document) : Prop where
  positive : 1 ≤ number
  given : number ≤ store.lastNumber
  ref : Keyed.get? document "ref" = some (numbered collection number).toValue
  ts : exists timestamp, Keyed.get? document "ts" = some (.int .long timestamp) ∧
    0 < timestamp ∧ timestamp ≤ store.lastTimestamp
  data : exists data, Keyed.get? document "data" = some (.document data) ∧
    Document.NullFree data

theorem DocumentRepresented.mono {collection : String} {number : Nat}
    {document : Document} (h : store.DocumentRepresented collection number document)
    (hnumber : store.lastNumber ≤ left.lastNumber)
    (htimestamp : store.lastTimestamp ≤ left.lastTimestamp) :
    left.DocumentRepresented collection number document where
  positive := h.positive
  given := Nat.le_trans h.given hnumber
  ref := h.ref
  ts := by
    rcases h.ts with ⟨timestamp, hts, hpositive, hlast⟩
    exact ⟨timestamp, hts, hpositive, Int.le_trans hlast htimestamp⟩
  data := h.data

theorem Written.represented {collection : String} {entry : Nat × Document}
    (hwritten : Written clock store left collection entry)
    (hnumber : store.lastNumber ≤ left.lastNumber)
    (htimestamp : store.lastTimestamp ≤ left.lastTimestamp)
    (hstart : 0 ≤ store.lastTimestamp)
    (h : forall entry, entry ∈ store.documentsOf collection ->
      store.DocumentRepresented collection entry.1 entry.2) :
    left.DocumentRepresented collection entry.1 entry.2 := by
  have hpositive : 0 < store.nextTimestamp clock :=
    Int.lt_of_le_of_lt hstart (store.lastTimestamp_lt_nextTimestamp clock)
  cases hwritten with
  | kept hentry =>
      exact (h entry hentry).mono hnumber htimestamp
  | created hcount hlast =>
      exact ⟨Nat.le_add_left 1 _, Nat.le_of_eq hcount.symm, rfl,
        ⟨_, rfl, hpositive, Int.le_of_eq hlast.symm⟩, _, rfl,
        Document.nullFree_withoutNulls _⟩
  | @patched number found patch hfound hlast =>
      have hold := h _ hfound
      rcases hold.data with ⟨data, hdata, hclean⟩
      refine ⟨hold.positive, Nat.le_trans hold.given hnumber, ?_,
        ⟨store.nextTimestamp clock, ?_, hpositive, Int.le_of_eq hlast.symm⟩,
        Document.merge (dataOf found) patch, ?_, ?_⟩
      · simp [Store.patched, Keyed.get?_insert, hold.ref]
      · simp [Store.patched, Keyed.get?_insert]
      · simp [Store.patched, Keyed.get?_insert]
      · apply Document.nullFree_merge
        simpa [dataOf, hdata, Value.document?] using hclean

/-!
# Main statement
-/

/-- What the stores that queries lead to have in common. -/
structure Represented (store : Store) : Prop where
  named : store.Named
  /-- A collection has one document under a number, in the order of the numbers. -/
  sorted : forall collection, Ordered.Sorted (store.documentsOf collection)
  documents : forall collection, collection ∉ Reference.reserved ->
    forall entry, entry ∈ store.documentsOf collection ->
      store.DocumentRepresented collection entry.1 entry.2
  apart : store.Apart
  timed : InTurn store.Stamps store.lastTimestamp

theorem Change.represented (hchange : Change clock store left)
    (hstore : store.Consistent) (h : store.Represented) : left.Represented where
  named := hchange.named h.named
  sorted := (hchange.consistent hstore).sorted
  documents collection hfree _ hentry :=
    (hchange.written hfree hentry).represented hchange.lastNumber_le hchange.stamps.1
      h.timed.start (h.documents collection hfree)
  apart :=
    hchange.apart
      (fun collection hfree entry hentry =>
        (h.documents collection hfree entry hentry).given)
      h.apart
  timed := hchange.inTurn h.timed

theorem not_stamps_empty : ¬ Store.empty.Stamps item timestamp := by
  intro h
  cases h with
  | collection hentry => cases hentry
  | index hentry => cases hentry
  | document _ hentry _ => cases hentry

theorem represented_empty : Store.empty.Represented where
  named := ⟨List.nodup_nil, List.nodup_nil⟩
  sorted := consistent_empty.sorted
  documents _ _ _ hentry := by cases hentry
  apart _ _ _ _ _ hnumber := by cases hnumber
  timed :=
    ⟨Int.le_refl 0, fun _ _ h => absurd h not_stamps_empty,
      fun _ _ _ h => absurd h not_stamps_empty⟩

/-- Every store that queries lead to is as its representation has to be. -/
theorem represented_of_reachable (h : store.Reachable) : store.Represented :=
  ((LeadsTo.evolves h).keeps
    (P := fun store => store.Consistent ∧ store.Represented)
    (fun hchange hstore =>
      ⟨hchange.consistent hstore.1, hchange.represented hstore.1 hstore.2⟩)
    ⟨consistent_empty, represented_empty⟩).2

/-!
The statement at one store: a note is created while the clock runs backwards, and
updated under an id with zeros in front; the query that fails leaves nothing.
-/

def notedStore : Store :=
  ((((Store.empty.after
    (query (fun _ => 10) (.createCollection { name := "Note" }))).after
    (query (fun _ => 3)
      (.create (.collection "Note")
        (Model.dataParams
          [("text", .string "a"), ("draft", .null),
            ("more", .document [("x", .null), ("y", .bool true)])])))).after
    (query (fun _ => 5)
      (.update (Expr.documentRef "Note" "+001")
        (Model.dataParams
          [("more",
            .document [("y", .null), ("z", .document [("w", .null)])])])))).after
    (query (fun _ => 20)
      (.batch
        [.delete (Expr.documentRef "Note" "1"),
          .delete (Expr.documentRef "Note" "1")])))

theorem represented_notedStore :
    notedStore.documentsOf "Note" =
        [(1,
          [("ref", (numbered "Note" 1).toValue), ("ts", .int .long 12),
            ("data",
              .document
                [("text", .string "a"),
                  ("more", .document [("z", .document [])])])])] ∧
      notedStore.Represented := by
  have hreach : notedStore.Reachable :=
    (((LeadsTo.start.query _ _).query _ _).query _ _).query _ _
  exact ⟨by rfl, represented_of_reachable hreach⟩

end Store
end DocumentMapper
