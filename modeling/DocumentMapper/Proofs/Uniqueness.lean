import DocumentMapper.Proofs.Consistency
import DocumentMapper.Proofs.Lookup
import DocumentMapper.Proofs.RowOrder

/-!
# Unique indexes

No write gives two documents the terms of one unique index.  The check is made of
the candidate alone, against the other documents as they stand, so the invariant
is about pairs: a pair that a write does not touch was apart before, and a pair
with the candidate has been compared by the check.

An index is known by its name and the timestamp of its creation.  Timestamps only
grow, so an index that is dropped never comes back.
-/

namespace DocumentMapper
namespace Store

open Value

/-- No two documents of the source both carry all terms of the index, the same
ones. -/
def DistinctTerms (store : Store) (index : IndexDefinition) : Prop :=
  forall a b, a ∈ store.documentsOf index.source ->
    b ∈ store.documentsOf index.source -> a.1 ≠ b.1 ->
    forall found other, index.termsOf? a.2 = some found ->
      index.termsOf? b.2 = some other -> ¬ Agree found other

theorem distinctTerms_iff {store : Store} {index : IndexDefinition} :
    store.DistinctTerms index <->
      forall a b, a ∈ store.documentsOf index.source ->
        b ∈ store.documentsOf index.source -> a.1 ≠ b.1 ->
        clash index a.2 b.2 = false := by
  constructor
  · intro h a b ha hb hne
    apply Bool.eq_false_iff.mpr
    intro hclash
    rcases IndexDefinition.clash_iff.mp hclash with
      ⟨found, other, hfound, hother, hagree⟩
    exact h a b ha hb hne found other hfound hother hagree
  · intro h a b ha hb hne found other hfound hother hagree
    have hclash : clash index a.2 b.2 = true :=
      IndexDefinition.clash_iff.mpr ⟨found, other, hfound, hother, hagree⟩
    rw [h a b ha hb hne] at hclash
    cases hclash

theorem length_filter_le_one {item : Type} {p : item -> Bool}
    {items : List item}
    (h : items.Pairwise fun a b => ¬ (p a = true ∧ p b = true)) :
    (items.filter p).length ≤ 1 := by
  induction items with
  | nil =>
      exact Nat.zero_le 1
  | cons a rest ih =>
      rcases List.pairwise_cons.mp h with ⟨hhead, hrest⟩
      by_cases ha : p a = true
      · have hnone : rest.filter p = [] := by
          apply List.filter_eq_nil_iff.mpr
          intro b hb hpb
          exact hhead b hb ⟨ha, hpb⟩
        simp [ha, hnone]
      · rw [List.filter_cons_of_neg ha]
        exact ih hrest

theorem distinctTerms_of_subset {store left : Store} {index : IndexDefinition}
    (hsubset : forall entry, entry ∈ left.documentsOf index.source ->
      entry ∈ store.documentsOf index.source)
    (h : store.DistinctTerms index) : left.DistinctTerms index := by
  intro a b ha hb
  exact h a b (hsubset a ha) (hsubset b hb)

/-!
## The check of a candidate
-/

theorem clash_eq_false_of_not_collides {store : Store} {collection name : String}
    {number : Nat} {candidate : Document} {stored : StoredIndex}
    (h : store.collides collection number candidate = false)
    (hindex : (name, stored) ∈ store.indexes)
    (hunique : stored.definition.isUnique = true)
    (hsource : stored.definition.source = collection) {other : Nat × Document}
    (hother : other ∈ store.documentsOf collection) (hne : other.1 ≠ number) :
    clash stored.definition other.2 candidate = false := by
  simp only [collides, List.any_eq_false] at h
  have hcheck := h (name, stored) hindex
  simp only [hunique, hsource, decide_true, Bool.and_self, Bool.true_and,
    List.any_eq_true, not_exists, not_and] at hcheck
  have hpair := hcheck other hother
  simpa [hne] using hpair

theorem distinctTerms_putDocument {store : Store}
    {collection name : String} {number : Nat} {document : Document}
    {stored : StoredIndex} (hindex : (name, stored) ∈ store.indexes)
    (hunique : stored.definition.isUnique = true)
    (hcheck : store.collides collection number document = false)
    (h : store.DistinctTerms stored.definition) :
    (store.putDocument collection number document).DistinctTerms
      stored.definition := by
  apply distinctTerms_iff.mpr
  intro a b ha hb hne
  have hcandidate : forall other,
      other ∈ store.documentsOf stored.definition.source ->
      collection = stored.definition.source -> other.1 ≠ number ->
      clash stored.definition other.2 document = false := by
    intro other hother hsource hother_ne
    rw [<- hsource] at hother
    exact clash_eq_false_of_not_collides hcheck hindex hunique hsource.symm
      hother hother_ne
  rcases mem_documentsOf_putDocument ha with ⟨hsource, ha⟩ | ha
  · rcases mem_documentsOf_putDocument hb with ⟨_, hb⟩ | hb
    · rw [ha, hb] at hne
      exact absurd rfl hne
    · rw [ha] at hne ⊢
      apply Bool.eq_false_iff.mpr
      intro hclash
      have hflipped := hcandidate b hb hsource (Ne.symm hne)
      rw [IndexDefinition.clash_symm hclash] at hflipped
      cases hflipped
  · rcases mem_documentsOf_putDocument hb with ⟨hsource, hb⟩ | hb
    · rw [hb] at hne ⊢
      exact hcandidate a ha hsource hne
    · exact distinctTerms_iff.mp h a b ha hb hne

/-!
## Every write

What is kept says of an index that was there: if it is still there then its terms
are distinct.
-/

structure Guards (name : String) (stored : StoredIndex) (store : Store) :
    Prop where
  older : stored.timestamp ≤ store.lastTimestamp
  distinct : forall kept, Keyed.get? store.indexes name = some kept ->
    kept.timestamp = stored.timestamp ->
    kept = stored ∧ store.DistinctTerms stored.definition

variable {clock : Clock} {name : String} {stored : StoredIndex}

theorem guards_stepped {store : Store} (h : Guards name stored store)
    (number : Nat) : Guards name stored (store.stepped clock number) where
  older :=
    Int.le_of_lt (Int.lt_of_le_of_lt h.older
      (store.lastTimestamp_lt_nextTimestamp clock))
  distinct := h.distinct

theorem guards_putDocument {store : Store} (h : Guards name stored store)
    (hunique : stored.definition.isUnique = true) {collection : String}
    {number : Nat} {document : Document}
    (hcheck : store.collides collection number document = false) :
    Guards name stored (store.putDocument collection number document) where
  older := by
    rw [putDocument_lastTimestamp]
    exact h.older
  distinct kept hkept hsame := by
    rw [putDocument_indexes] at hkept
    rcases h.distinct kept hkept hsame with ⟨heq, hdistinct⟩
    refine ⟨heq, ?_⟩
    rw [heq] at hkept
    exact distinctTerms_putDocument (Keyed.mem_of_get? hkept) hunique hcheck
      hdistinct

theorem Change.guards {store left : Store} (hchange : Change clock store left)
    (hunique : stored.definition.isUnique = true)
    (h : Guards name stored store) : Guards name stored left := by
  cases hchange with
  | unchanged =>
      exact h
  | advanced hnumber =>
      exact guards_stepped h _
  | createCollection hfresh =>
      refine ⟨(guards_stepped h store.lastNumber).older, ?_⟩
      intro kept hkept hsame
      rcases h.distinct kept hkept hsame with ⟨heq, hdistinct⟩
      refine ⟨heq, distinctTerms_of_subset ?_ hdistinct⟩
      intro entry hentry
      rwa [documentsOf_createCollection hfresh] at hentry
  | createIndex hfresh hsource =>
      refine ⟨(guards_stepped h store.lastNumber).older, ?_⟩
      intro kept hkept hsame
      rw [Keyed.get?_insert] at hkept
      split at hkept
      · -- The new index is newer than the one that is watched.
        cases hkept
        have hnewer := store.lastTimestamp_lt_nextTimestamp clock
        have holder := h.older
        simp only at hsame
        omega
      · exact h.distinct kept hkept hsame
  | createDocument hpresent hdocument hcheck =>
      exact guards_putDocument (guards_stepped h _) hunique hcheck
  | updateDocument hfound hnumber hdocument hcheck =>
      exact guards_putDocument (guards_stepped h _) hunique hcheck
  | remove hfound =>
      constructor
      · rw [remove_lastTimestamp]
        exact h.older
      · intro kept hkept hsame
        rcases h.distinct kept (get?_indexes_of_remove hkept) hsame with
          ⟨heq, hdistinct⟩
        refine ⟨heq, distinctTerms_of_subset ?_ hdistinct⟩
        intro entry hentry
        exact (sublist_documentsOf_remove store _ _).subset hentry

theorem Evolves.guards {start store : Store} (hrun : Evolves start store)
    (hunique : stored.definition.isUnique = true)
    (h : Guards name stored start) : Guards name stored store :=
  hrun.keeps (fun hchange hstore => hchange.guards hunique hstore) h

theorem Consistent.guards {store : Store} (hstore : store.Consistent)
    (hindex : Keyed.get? store.indexes name = some stored)
    (hdistinct : store.DistinctTerms stored.definition) :
    Guards name stored store where
  older := hstore.indexes (name, stored) (Keyed.mem_of_get? hindex)
  distinct kept hkept _ := by
    rw [hindex] at hkept
    cases hkept
    exact ⟨rfl, hdistinct⟩

theorem guards_createIndex {between created : Store}
    {definition : IndexDefinition} {document : Document}
    (hcreate : createIndex clock definition between = .ok document created)
    (hdistinct : between.DistinctTerms definition) :
    Guards definition.name
      { timestamp := created.lastTimestamp, definition := definition }
      created := by
  rcases createIndex_ok hcreate with ⟨_, hcreated⟩
  rw [hcreated]
  constructor
  · exact Int.le_refl _
  · intro kept hkept _
    rw [Keyed.get?_insert, if_pos rfl] at hkept
    cases hkept
    exact ⟨rfl, hdistinct⟩

/-!
## Lookups in a unique index
-/

theorem length_foundDocuments_le_one {store : Store}
    (hstore : store.Consistent) {index : IndexDefinition}
    (hdistinct : store.DistinctTerms index) (terms : List Value) :
    (store.foundDocuments index terms).length ≤ 1 := by
  have hapart : (store.documentsOf index.source).Pairwise fun a b =>
      ¬ (index.finds terms a.2 = true ∧ index.finds terms b.2 = true) := by
    refine (hstore.sorted index.source).imp_of_mem ?_
    intro a b ha hb hlt hfinds
    have hclash := IndexDefinition.clash_of_finds hfinds.1 hfinds.2
    rw [distinctTerms_iff.mp hdistinct a b ha hb (Nat.ne_of_lt hlt)] at hclash
    cases hclash
  unfold foundDocuments
  rw [List.filter_map, List.length_map]
  exact length_filter_le_one hapart

/-!
## Main statement

The first part is about one query, whatever it is and however it ends.  The second
is about an index from its creation on, at any point of any query, and about every
store that is passed through from there while the index exists.
-/

theorem unique_index_stays_distinct {store : Store} (hreach : store.Reachable) :
    (forall name stored, Keyed.get? store.indexes name = some stored ->
      stored.definition.isUnique = true ->
      store.DistinctTerms stored.definition ->
      forall clock expr kept,
        Keyed.get? (store.after (query clock expr)).indexes name = some kept ->
        kept.timestamp = stored.timestamp ->
        kept = stored ∧
          (store.after (query clock expr)).DistinctTerms stored.definition) ∧
    (forall between, store.Evolves between ->
      forall clock definition document created,
        createIndex clock definition between = .ok document created ->
        definition.isUnique = true ->
        between.DistinctTerms definition ->
        forall later, created.Evolves later ->
          forall kept, Keyed.get? later.indexes definition.name = some kept ->
            kept.timestamp = created.lastTimestamp ->
            forall terms, exists entries,
              later.matching? definition.name terms = some entries ∧
                entries.length ≤ 1) := by
  constructor
  · intro name stored hindex hunique hdistinct clock expr kept hkept hsame
    have hguards := hreach.consistent.guards hindex hdistinct
    have hrun : store.Evolves (store.after (query clock expr)) :=
      (LeadsTo.start.query clock expr).evolves
    exact (hrun.guards hunique hguards).distinct kept hkept hsame
  · intro between hbetween clock definition document created hcreate hunique
      hdistinct later hlater kept hkept hsame terms
    have hbefore := hbetween.consistent hreach.consistent
    have hchange : Change clock between
        (between.after (createIndex clock definition)) :=
      change_createIndex between definition
    rw [after_of_ok hcreate] at hchange
    have hcreated := hchange.consistent hbefore
    have hguards : Guards definition.name
        { timestamp := created.lastTimestamp, definition := definition }
        created :=
      guards_createIndex hcreate hdistinct
    rcases (hlater.guards hunique hguards).distinct kept hkept hsame with
      ⟨heq, hlaterDistinct⟩
    have hone := length_foundDocuments_le_one (hlater.consistent hcreated)
      hlaterDistinct terms
    rcases exists_matchingDocuments?_of_length_le (hone.trans (by decide)) with
      ⟨found, hfound⟩
    rw [heq] at hkept
    refine ⟨found.map definition.entryOf, ?_, ?_⟩
    · rw [matching?_of_index hkept, hfound, Option.map_some]
    · rw [List.length_map, (perm_matchingDocuments? hfound).length_eq]
      exact hone

/-!
The statement at one store: two users may not share an email, there is one, and a
batch adds another and then changes the first.
-/

def emailIndex : IndexDefinition :=
  { name := "User_by_email"
    source := "User"
    terms := [{ field := ["data", "email"] }]
    values := [IndexValue.ownReference]
    unique := some true }

def userWith (email : String) : Expr :=
  .create (.collection "User")
    (.object [("data", .object [("email", .string email)])])

def noUser : Store :=
  empty.after (query (fun _ => 0) (.createCollection { name := "User" }))

def oneUser : Store :=
  (noUser.after (query (fun _ => 0) (.createIndex emailIndex))).after
    (query (fun _ => 0) (userWith "a@x.com"))

def addAndRename : Expr :=
  .batch
    [userWith "b@x.com",
      .update (Expr.documentRef "User" "1")
        (.object [("data", .object [("email", .string "c@x.com")])])]

theorem unique_index_stays_distinct_addAndRename :
    oneUser.Reachable ∧
      Keyed.get? oneUser.indexes "User_by_email" =
        some { timestamp := 2, definition := emailIndex } ∧
      (oneUser.after (query (fun _ => 0) addAndRename)).DistinctTerms
        emailIndex ∧
      forall terms, exists entries,
        (oneUser.after (query (fun _ => 0) addAndRename)).matching?
            "User_by_email" terms =
          some entries ∧
        entries.length ≤ 1 := by
  have hreach : oneUser.Reachable :=
    ((LeadsTo.start.query _ _).query _ _).query _ _
  have hone : oneUser.DistinctTerms emailIndex := by
    intro a b ha hb hne
    have hdocuments : (oneUser.documentsOf "User").map Prod.fst = [1] := by
      rfl
    have hnumber : forall entry, entry ∈ oneUser.documentsOf "User" ->
        entry.1 = 1 := by
      intro entry hentry
      have hmem := List.mem_map_of_mem (f := Prod.fst) hentry
      rw [hdocuments] at hmem
      exact List.mem_singleton.mp hmem
    exact absurd ((hnumber a ha).trans (hnumber b hb).symm) hne
  have hindex : Keyed.get? oneUser.indexes "User_by_email" =
      some { timestamp := 2, definition := emailIndex } := by
    rfl
  have hfirst := (unique_index_stays_distinct hreach).1 "User_by_email" _ hindex
    rfl hone
  have hcreate : createIndex (fun _ => 0) emailIndex noUser =
      .ok (indexDocument { timestamp := 2, definition := emailIndex })
        (noUser.after (query (fun _ => 0) (.createIndex emailIndex))) := by
    rfl
  have hnone : noUser.DistinctTerms emailIndex := by
    intro a b ha
    cases ha
  have hlater : (noUser.after
      (query (fun _ => 0) (.createIndex emailIndex))).Evolves
        (oneUser.after (query (fun _ => 0) addAndRename)) :=
    ((LeadsTo.start.query (fun _ => 0) (userWith "a@x.com")).query (fun _ => 0)
      addAndRename).evolves
  have hreachNone : noUser.Reachable := LeadsTo.start.query _ _
  have hsecond := (unique_index_stays_distinct hreachNone).2 noUser .start
    (fun _ => 0) emailIndex _ _ hcreate rfl hnone _ hlater _ (by rfl) rfl
  exact ⟨hreach, hindex,
    (hfirst (fun _ => 0) addAndRename _ (by rfl) rfl).2, hsecond⟩

end Store
end DocumentMapper
