import DocumentMapper.Model.Storage
import DocumentMapper.Proofs.IndexEntries
import DocumentMapper.Proofs.Representation
import DocumentMapper.Proofs.Rounding

/-!
# Newest first

Where no sort is given, an index has the timestamp for its first value, the greatest coming
first.  No two documents of a collection ever share a timestamp, not even under the reserved
names, so the first column tells all documents apart and no other column is looked at.

Timestamps are compared as doubles, which is as good as comparing them while they stay
below two to the power of fifty-three.
-/

namespace DocumentMapper

/-!
## Indexes without a sort
-/

def IndexValue.newestFirst : IndexValue :=
  { field := ["ts"], reverse := true }

def IndexDefinition.NewestFirst (index : IndexDefinition) : Prop :=
  exists further, index.values = IndexValue.newestFirst :: further

/-- Neither an index over the field itself nor one over a relationship is given a sort, or
it is given the default one. -/
def Field.SortedByDefault : Field -> Prop
  | .scalar _ _ options => options.indexed.getD defaultSort = defaultSort
  | .reference _ _ relation options =>
      options.indexed.getD defaultSort = defaultSort ∧
        relation.sort.getD defaultSort = defaultSort
  | .manyToMany _ relation _ _ => relation.sort.getD defaultSort = defaultSort
  | .reverse _ _ => True

theorem sortValues_default {sort : Option (List String)}
    (h : sort.getD defaultSort = defaultSort) : sortValues sort = [IndexValue.newestFirst] := by
  rw [sortValues, h]
  rfl

theorem newestFirst_ownIndex {options : FieldOptions}
    (h : options.indexed.getD defaultSort = defaultSort) {model field : String}
    {index : IndexDefinition} (hindex : index ∈ (options.ownIndex? model field).toList) :
    index.NewestFirst := by
  rw [Option.mem_toList, FieldOptions.ownIndex?] at hindex
  split at hindex
  · cases hindex
    exact ⟨_, by rw [sortValues_default h]; rfl⟩
  · cases hindex

theorem newestFirst_reverseIndex {relation : Relation}
    (h : relation.sort.getD defaultSort = defaultSort) {model field : String}
    {index : IndexDefinition} (hindex : index ∈ (relation.reverseIndex? model field).toList) :
    index.NewestFirst := by
  rw [Option.mem_toList, Relation.reverseIndex?, Option.map_eq_some_iff] at hindex
  rcases hindex with ⟨name, _, rfl⟩
  exact ⟨_, by rw [sortValues_default h]; rfl⟩

theorem newestFirst_joinIndex {relation : Relation}
    (h : relation.sort.getD defaultSort = defaultSort) (name source start goal : String) :
    (relation.joinIndex name source start goal).NewestFirst :=
  ⟨_, by rw [Relation.joinIndex, sortValues_default h]; rfl⟩

theorem newestFirst_indexes {field : Field} (h : field.SortedByDefault) {model name : String}
    {index : IndexDefinition} (hindex : index ∈ field.indexes model name) :
    index.NewestFirst := by
  cases field with
  | scalar written shown options =>
      exact newestFirst_ownIndex h hindex
  | reference related isOptional relation options =>
      rcases List.mem_append.mp hindex with hown | hreverse
      · exact newestFirst_ownIndex h.1 hown
      · exact newestFirst_reverseIndex h.2 hreverse
  | manyToMany related relation join singular =>
      rcases List.mem_cons.mp hindex with rfl | hreverse
      · exact newestFirst_joinIndex h _ _ _ _
      · rw [Option.mem_toList, Option.map_eq_some_iff] at hreverse
        rcases hreverse with ⟨reverse, _, rfl⟩
        exact newestFirst_joinIndex h _ _ _ _
  | reverse related index =>
      cases hindex

/-!
## Timestamps of documents
-/

def Document.DatedAt (document : Document) (timestamp : Int) : Prop :=
  Keyed.get? document "ts" = some (.int .long timestamp)

def Document.Newer (a b : Document) : Prop :=
  exists timestamp earlier, a.DatedAt timestamp ∧ b.DatedAt earlier ∧ earlier < timestamp

namespace Store

variable {clock : Clock} {store left : Store} {collection : String} {number : Nat}
  {timestamp : Int}

def Dates (store : Store) (collection : String) (number : Nat) (timestamp : Int) : Prop :=
  exists document, (number, document) ∈ store.documentsOf collection ∧
    document.DatedAt timestamp

theorem Dates.of_written {count written : Nat} {place : String} {document : Document}
    (hts : document.DatedAt (store.nextTimestamp clock))
    (h : ((store.stepped clock count).putDocument place written document).Dates collection
      number timestamp) :
    store.Dates collection number timestamp ∨
      number = written ∧ timestamp = store.nextTimestamp clock ∧
        store.lastTimestamp < store.nextTimestamp clock := by
  rcases h with ⟨found, hentry, hfound⟩
  rcases mem_documentsOf_putDocument hentry with ⟨_, heq⟩ | hold
  · cases heq
    rw [Document.DatedAt, hts] at hfound
    cases hfound
    exact .inr ⟨rfl, rfl, store.lastTimestamp_lt_nextTimestamp clock⟩
  · exact .inl ⟨found, hold, hfound⟩

/-- A change gives a timestamp to one document of a collection at most, under whatever name
the collection goes. -/
theorem Change.dates (hchange : Change clock store left) (collection : String) :
    exists added, forall number timestamp, left.Dates collection number timestamp ->
      store.Dates collection number timestamp ∨
        number = added ∧ timestamp = left.lastTimestamp ∧
          store.lastTimestamp < left.lastTimestamp := by
  cases hchange with
  | unchanged =>
      exact ⟨0, fun number timestamp h => .inl h⟩
  | advanced hnumber =>
      exact ⟨0, fun number timestamp h => .inl h⟩
  | createCollection hfresh =>
      refine ⟨0, fun number timestamp h => .inl ?_⟩
      rcases h with ⟨document, hentry, hts⟩
      rw [documentsOf_createCollection hfresh] at hentry
      exact ⟨document, hentry, hts⟩
  | createIndex hfresh hsource =>
      exact ⟨0, fun number timestamp h => .inl h⟩
  | createDocument hpresent hdocument hunique =>
      rw [putDocument_lastTimestamp]
      refine ⟨_, fun number timestamp h => h.of_written ?_⟩
      rw [hdocument]
      rfl
  | updateDocument hfound hnumber hdocument hunique =>
      rw [putDocument_lastTimestamp]
      refine ⟨_, fun number timestamp h => h.of_written ?_⟩
      simp [hdocument, patched, Document.DatedAt, Keyed.get?_insert]
  | @remove reference found hfound =>
      refine ⟨0, fun number timestamp h => .inl ?_⟩
      rcases h with ⟨document, hentry, hts⟩
      exact ⟨document, (sublist_documentsOf_remove store reference _).subset hentry, hts⟩

/-- In every collection the documents got their timestamps in turn. -/
def Dated (store : Store) : Prop :=
  forall collection, InTurn (store.Dates collection) store.lastTimestamp

theorem Change.dated (hchange : Change clock store left) (h : store.Dated) : left.Dated := by
  intro collection
  rcases hchange.dates collection with ⟨added, hdates⟩
  exact (h collection).next hchange.stamps.1 hdates

theorem dated_empty : Store.empty.Dated := by
  intro collection
  refine ⟨Int.le_refl _, ?_, ?_⟩
  · rintro number timestamp ⟨document, hentry, _⟩
    cases hentry
  · rintro a b timestamp ⟨document, hentry, _⟩
    cases hentry

theorem Reachable.dated (h : store.Reachable) : store.Dated :=
  (LeadsTo.evolves h).keeps Change.dated dated_empty

end Store

/-!
## Comparing timestamps
-/

theorem Value.order_timestamps {s t : Int} (hs : 0 ≤ s) (hlt : s < t) (ht : t < 2 ^ 53) :
    (Value.int .long s).order (.int .long t) = .lt :=
  Int.compare_eq_lt.mpr (Binary64.rankOfInt_lt_rankOfInt hs hlt ht)

namespace IndexDefinition

variable {index : IndexDefinition} {a b : Document}

theorem column_newestFirst {document : Document} {own : Reference} {timestamp : Int}
    (hstamped : Document.Stamped own document) (hts : document.DatedAt timestamp) :
    column .newestFirst document = .int .long timestamp := by
  rw [column, IndexValue.newestFirst, hstamped.at?_ts, Document.timestamp, hts]
  rfl

theorem compareRows_of_lt (h : index.NewestFirst) {s t : Int}
    (ha : column .newestFirst a = .int .long s) (hb : column .newestFirst b = .int .long t)
    (ht : 0 ≤ t) (hlt : t < s) (hs : s < 2 ^ 53) : index.compareRows a b = .lt := by
  rcases h with ⟨further, hvalues⟩
  have hfirst : orderColumn .newestFirst (column .newestFirst a) (column .newestFirst b) =
      .lt := by
    rw [ha, hb, orderColumn, IndexValue.newestFirst, if_pos rfl,
      Value.order_swap, Value.order_timestamps ht hlt hs]
  have hrows : index.compareRows a b =
      (orderColumn .newestFirst (column .newestFirst a) (column .newestFirst b)).then
        (orderRows further (further.map fun value => column value a)
          (further.map fun value => column value b)) := by
    rw [compareRows, valuesOf, valuesOf, hvalues]
    rfl
  rw [hrows, hfirst]
  rfl

end IndexDefinition

namespace Document.Newer

variable {a b c : Document}

theorem trans (hab : Newer a b) (hbc : Newer b c) : Newer a c := by
  rcases hab with ⟨s, t, ha, hb, hlt⟩
  rcases hbc with ⟨t', u, hb', hc, hlt'⟩
  rw [DatedAt, hb] at hb'
  cases hb'
  exact ⟨s, u, ha, hc, hlt'.trans hlt⟩

theorem irrefl (a : Document) : ¬ Newer a a := by
  rintro ⟨s, t, ha, ha', hlt⟩
  rw [DatedAt, ha] at ha'
  cases ha'
  exact absurd hlt (Int.lt_irrefl s)

end Document.Newer

/-!
## Documents in the order of their timestamps
-/

namespace Store

variable {store : Store} {index : IndexDefinition} {terms : List Value}
  {a b : Nat × Document}

theorem carriers_congr (store : Store) {other : IndexDefinition}
    (hsource : other.source = index.source) (hterms : other.terms = index.terms)
    (terms : List Value) : store.carriers other terms = store.carriers index terms := by
  unfold carriers
  rw [hsource]
  refine List.filter_congr fun entry _ => ?_
  rw [decide_eq_decide, IndexDefinition.Carries, hterms]
  rfl

section

variable (hstore : store.Consistent) (hdated : store.Dated)
  (hbound : store.lastTimestamp < 2 ^ 53) (hnewest : index.NewestFirst)

include hstore hdated hbound hnewest

theorem newer_or_eq_or_newer (ha : a ∈ store.documentsOf index.source)
    (hb : b ∈ store.documentsOf index.source) :
    (Document.Newer a.2 b.2 ∧ index.compareRows a.2 b.2 = .lt) ∨ a = b ∨
      (Document.Newer b.2 a.2 ∧ index.compareRows b.2 a.2 = .lt) := by
  rcases hstore.fits _ a ha with ⟨own, hastamped, _⟩
  rcases hstore.fits _ b hb with ⟨other, hbstamped, _⟩
  rcases hastamped.ts with ⟨s, hs⟩
  rcases hbstamped.ts with ⟨t, ht⟩
  have harange := (hdated index.source).range a.1 s ⟨a.2, ha, hs⟩
  have hbrange := (hdated index.source).range b.1 t ⟨b.2, hb, ht⟩
  have hacolumn := IndexDefinition.column_newestFirst hastamped hs
  have hbcolumn := IndexDefinition.column_newestFirst hbstamped ht
  rcases Int.lt_trichotomy t s with hlt | heq | hlt
  · exact .inl ⟨⟨s, t, hs, ht, hlt⟩, IndexDefinition.compareRows_of_lt hnewest hacolumn
      hbcolumn hbrange.1.le hlt (harange.2.trans_lt hbound)⟩
  · -- The timestamp is given once, so the documents have one number.
    rw [heq] at ht
    have hnumber := (hdated index.source).distinct a.1 b.1 s ⟨a.2, ha, hs⟩ ⟨b.2, hb, ht⟩
    have hdocument : a.2 = b.2 := hstore.document_unique ha (hnumber ▸ hb)
    exact .inr (.inl (Prod.ext hnumber hdocument))
  · exact .inr (.inr ⟨⟨t, s, ht, hs, hlt⟩, IndexDefinition.compareRows_of_lt hnewest
      hbcolumn hacolumn harange.1.le hlt (hbrange.2.trans_lt hbound)⟩)

theorem precedes_iff (ha : a ∈ store.documentsOf index.source)
    (hb : b ∈ store.documentsOf index.source) :
    index.precedes a.2 b.2 = true <-> a.2 = b.2 ∨ Document.Newer a.2 b.2 := by
  rw [IndexDefinition.precedes_eq]
  rcases newer_or_eq_or_newer hstore hdated hbound hnewest ha hb with
    ⟨hnewer, hbefore⟩ | rfl | ⟨hnewer, hbefore⟩
  · simp [hbefore, hnewer]
  · simp [IndexDefinition.compareRows_self]
  · rw [<- IndexDefinition.compareRows_swap, hbefore]
    constructor
    · intro h
      cases h
    · rintro (heq | hback)
      · rw [heq] at hnewer
        exact absurd hnewer (Document.Newer.irrefl _)
      · exact absurd (hnewer.trans hback) (Document.Newer.irrefl _)

theorem preordersOn_of_newestFirst :
    index.PreordersOn ((store.carriers index terms).map Prod.snd) := by
  have hmem : forall entry, entry ∈ store.carriers index terms ->
      entry ∈ store.documentsOf index.source := fun _ h => (List.mem_filter.mp h).1
  have hiff := fun {a b} => precedes_iff hstore hdated hbound hnewest (a := a) (b := b)
  intro first hfirst second hsecond third hthird hab hbc
  rcases List.mem_map.mp hfirst with ⟨a, ha, rfl⟩
  rcases List.mem_map.mp hsecond with ⟨b, hb, rfl⟩
  rcases List.mem_map.mp hthird with ⟨c, hc, rfl⟩
  rw [hiff (hmem a ha) (hmem b hb)] at hab
  rw [hiff (hmem b hb) (hmem c hc)] at hbc
  rw [hiff (hmem a ha) (hmem c hc)]
  rcases hab with hab | hab
  · rw [hab]
    exact hbc
  · rcases hbc with hbc | hbc
    · exact .inr (hbc ▸ hab)
    · exact .inr (hab.trans hbc)

theorem pairwise_newer_listed :
    (store.listed index terms).Pairwise fun a b => Document.Newer a.2 b.2 := by
  have hmem : forall entry, entry ∈ store.listed index terms ->
      entry ∈ store.documentsOf index.source := fun entry hentry =>
    (List.mem_filter.mp ((store.perm_listed index terms).mem_iff.mp hentry)).1
  refine (pairwise_listed (preordersOn_of_newestFirst hstore hdated hbound hnewest)
    (hstore.sorted _)).imp_of_mem ?_
  intro a b ha hb hahead
  rcases newer_or_eq_or_newer hstore hdated hbound hnewest (hmem a ha) (hmem b hb) with
    ⟨hnewer, _⟩ | rfl | ⟨_, hbefore⟩
  · exact hnewer
  · rcases hahead with hlt | ⟨_, hlt⟩
    · rw [IndexDefinition.compareRows_self] at hlt
      cases hlt
    · exact absurd hlt (Nat.lt_irrefl _)
  · rw [IndexDefinition.Ahead, <- IndexDefinition.compareRows_swap, hbefore] at hahead
    rcases hahead with hlt | ⟨heq, _⟩
    · cases hlt
    · cases heq

/-- Indexes that differ in their further values alone list the same documents in the same
order. -/
theorem listed_eq_listed {other : IndexDefinition} (hother : other.NewestFirst)
    (hsource : other.source = index.source) (hterms : other.terms = index.terms) :
    store.listed other terms = store.listed index terms := by
  have hcarriers := carriers_congr store hsource hterms terms
  have hperm : (store.listed other terms).Perm (store.listed index terms) := by
    refine (store.perm_listed other terms).trans ?_
    rw [hcarriers]
    exact (store.perm_listed index terms).symm
  refine hperm.eq_of_pairwise ?_ (pairwise_newer_listed hstore hdated hbound hother)
    (pairwise_newer_listed hstore hdated hbound hnewest)
  intro a b _ _ hab hba
  exact absurd (hab.trans hba) (Document.Newer.irrefl _)

end

/-!
# Main statement
-/

/-- An index that is given no sort has the newest first, and at any point of any query such
an index lists what it finds from the newest to the oldest, whatever further values it
has. -/
theorem default_order_is_newest_first :
    (forall (field : Field) (model name : String) (index : IndexDefinition),
      field.SortedByDefault -> index ∈ field.indexes model name -> index.NewestFirst) ∧
    forall store between : Store, store.Reachable -> store.Evolves between ->
      between.lastTimestamp < 2 ^ 53 ->
      forall name stored, Keyed.get? between.indexes name = some stored ->
        stored.definition.NewestFirst ->
        forall terms, exists found : List (Nat × Document),
          between.matching? name terms =
              some (found.map fun entry => stored.definition.entryOf entry.2) ∧
            found.Perm (between.carriers stored.definition terms) ∧
            (found.Pairwise fun a b => Document.Newer a.2 b.2) ∧
            forall other : IndexDefinition, other.source = stored.definition.source ->
              other.terms = stored.definition.terms -> other.NewestFirst ->
              between.matchingDocuments? other terms = some (found.map Prod.snd) := by
  refine ⟨fun field model name index hsorted => newestFirst_indexes hsorted, ?_⟩
  intro store between hreach hbetween hbound name stored hindex hnewest terms
  have hstore := hbetween.consistent hreach.consistent
  have hdated := hbetween.keeps Change.dated hreach.dated
  refine ⟨between.listed stored.definition terms, ?_, between.perm_listed _ terms,
    pairwise_newer_listed hstore hdated hbound hnewest, ?_⟩
  · rw [matching?_eq_listed? hindex,
      listed?_eq (preordersOn_of_newestFirst hstore hdated hbound hnewest), Option.map_some]
  · intro other hsource hterms hother
    rw [matchingDocuments?_eq_listed?,
      listed?_eq (preordersOn_of_newestFirst hstore hdated hbound hother), Option.map_some,
      listed_eq_listed hstore hdated hbound hnewest hother hsource hterms]

/-!
The statement at one store: two boxes have one label and the first is updated after the
second was created, while the clock runs backwards.
-/

def boxLabel : Field :=
  .scalar .string .string
    { singular := none, unique := false, indexed := some defaultSort }

def boxesByLabel : IndexDefinition :=
  { name := "Box_by_label"
    source := "Box"
    terms := [{ field := dataPath "label" }]
    values := [IndexValue.newestFirst, IndexValue.ownReference]
    unique := some false }

def labelledBoxes : Store :=
  Store.empty.afterAll (fun last => 100 - last)
    [.createCollection { name := "Box" }, .createIndex boxesByLabel,
      .create (.collection "Box") (Model.dataParams [("label", .string "a")]),
      .create (.collection "Box") (Model.dataParams [("label", .string "a")]),
      .update (Expr.documentRef "Box" "1") (Model.dataParams [("size", .int .short 2)])]

def firstBox : Nat × Document :=
  (1, storedDocument (numbered "Box" 1) 104
    [("label", .string "a"), ("size", .int .short 2)])

def secondBox : Nat × Document :=
  (2, storedDocument (numbered "Box" 2) 103 [("label", .string "a")])

theorem default_order_is_newest_first_boxes :
    boxLabel.SortedByDefault ∧ boxesByLabel ∈ boxLabel.indexes "Box" "label" ∧
      labelledBoxes.Reachable ∧ labelledBoxes.lastTimestamp < 2 ^ 53 ∧
      Keyed.get? labelledBoxes.indexes "Box_by_label" =
        some { timestamp := 101, definition := boxesByLabel } ∧
      labelledBoxes.matching? "Box_by_label" [.string "a"] =
        some
          [.array [.int .long 104, (numbered "Box" 1).toValue],
            .array [.int .long 103, (numbered "Box" 2).toValue]] := by
  have hsorted : boxLabel.SortedByDefault := rfl
  have hmem : boxesByLabel ∈ boxLabel.indexes "Box" "label" := List.mem_singleton.mpr rfl
  have hreach : labelledBoxes.Reachable := LeadsTo.start.afterAll _ _
  have hbound : labelledBoxes.lastTimestamp < 2 ^ 53 := by decide
  have hindex : Keyed.get? labelledBoxes.indexes "Box_by_label" =
      some { timestamp := 101, definition := boxesByLabel } := rfl
  have hnewest := default_order_is_newest_first.1 boxLabel "Box" "label" boxesByLabel
    hsorted hmem
  rcases default_order_is_newest_first.2 labelledBoxes labelledBoxes hreach .start hbound
    "Box_by_label" _ hindex hnewest [.string "a"] with ⟨found, hmatching, hperm, hnewer, _⟩
  have hcarriers : labelledBoxes.carriers boxesByLabel [.string "a"] =
      [firstBox, secondBox] := by
    with_unfolding_all rfl
  rw [hcarriers] at hperm
  have hpair : [firstBox, secondBox].Pairwise fun a b => Document.Newer a.2 b.2 :=
    List.pairwise_pair.mpr ⟨104, 103, rfl, rfl, by decide⟩
  have hfound : found = [firstBox, secondBox] :=
    hperm.eq_of_pairwise
      (fun a b _ _ hab hba => absurd (hab.trans hba) (Document.Newer.irrefl _)) hnewer hpair
  rw [hfound] at hmatching
  exact ⟨hsorted, hmem, hreach, hbound, hindex, hmatching⟩

end Store
end DocumentMapper
