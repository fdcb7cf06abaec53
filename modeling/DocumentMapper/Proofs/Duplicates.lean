import DocumentMapper.Model.Request
import DocumentMapper.Proofs.Changes
import DocumentMapper.Proofs.Lookup
import DocumentMapper.Proofs.Reader
import DocumentMapper.Proofs.Rounding

/-!
# Duplicates

A unique index refuses a document where another carries terms that are the same to a
lookup.  Such terms are equal part by part, but for two kinds of parts that a lookup does
not tell apart: numbers that are rounded to one double, where an integer is one that no
double denotes, and the values of types that are only passed through, which look like null.
-/

namespace DocumentMapper
namespace Value

/-!
## Equality part by part
-/

def number? : Value -> Option Number
  | int _ n => some (.rational n)
  | double x => x.number?
  | _ => none

/-- Neither a number nor built from other values. -/
def isAtom : Value -> Bool
  | int _ _ => false
  | double _ => false
  | array _ => false
  | document _ => false
  | _ => true

/-- Two values are equal item by item and key by key: where they hold numbers these denote
the same, and where they hold anything else it is identical.  Parts that `blurs` relates
may stand for each other besides. -/
inductive Matches (blurs : Value -> Value -> Prop) : Value -> Value -> Prop where
  | number {a b : Value} {denoted : Number} (ha : a.number? = some denoted)
      (hb : b.number? = some denoted) : Matches blurs a b
  | identical {a : Value} (hatom : a.isAtom = true) : Matches blurs a a
  | array {as bs : List Value} (hitems : List.Forall₂ (Matches blurs) as bs) :
      Matches blurs (array as) (array bs)
  | document {as bs : Document}
      (hentries : forall key,
        Option.Rel (Matches blurs) (Keyed.get? as key) (Keyed.get? bs key)) :
      Matches blurs (document as) (document bs)
  | blurred {a b : Value} (hblurred : blurs a b) : Matches blurs a b

abbrev Equal : Value -> Value -> Prop :=
  Matches fun _ _ => False

theorem Equal.eq_of_isAtom {a b : Value} (h : Equal a b) (hatom : a.isAtom = true) :
    a = b := by
  cases h with
  | number ha hb => cases a <;> cases hatom <;> cases ha
  | identical _ => rfl
  | array _ => cases hatom
  | document _ => cases hatom
  | blurred hblurred => exact hblurred.elim

theorem Equal.int_eq {width width' : Width} {m n : Int}
    (h : Equal (int width m) (int width' n)) : m = n := by
  cases h with
  | number ha hb =>
      rw [number?] at ha hb
      have hdenoted := Number.rational.inj (Option.some.inj (ha.trans hb.symm))
      exact_mod_cast hdenoted
  | identical _ => rfl
  | blurred hblurred => exact hblurred.elim

/-!
## What a lookup blurs
-/

/-- An integer that no double denotes. -/
def Unheld (value : Value) : Prop :=
  exists width n, value = int width n ∧
    forall x : Binary64, x.number? ≠ some (.rational n)

/-- Null, or a value of a type that is only passed through. -/
def looksNull : Value -> Bool
  | null => true
  | objectId _ => true
  | binary _ => true
  | timestamp _ _ => true
  | code _ => true
  | symbol _ => true
  | undefined => true
  | minKey => true
  | maxKey => true
  | _ => false

inductive Blurs : Value -> Value -> Prop where
  /-- Two numbers that round to doubles of one rank, where one is an integer that no double
  denotes. -/
  | rounded {a b : Value} {x y : Binary64} (ha : a.double? = some x)
      (hb : b.double? = some y) (hrank : x.rank? = y.rank?)
      (hunheld : a.Unheld ∨ b.Unheld) : Blurs a b
  | null {a b : Value} (ha : a.looksNull = true) (hb : b.looksNull = true) : Blurs a b

theorem lookupKey?_of_double? {value : Value} {x : Binary64} (h : value.double? = some x) :
    value.lookupKey? = x.rank?.map LookupKey.number := by
  cases value with
  | int width n =>
      cases h
      rw [Binary64.rank?_ofInt]
      rfl
  | double y =>
      cases h
      rfl
  | _ => cases h

theorem lookupKey?_of_looksNull {value : Value} (h : value.looksNull = true) :
    value.lookupKey? = some .null := by
  cases value <;> simp_all [looksNull, lookupKey?]

theorem exists_rank?_of_unheld {value : Value} {x : Binary64} (h : value.Unheld)
    (hx : value.double? = some x) : exists rank, x.rank? = some rank := by
  rcases h with ⟨width, n, rfl, _⟩
  cases hx
  exact ⟨_, Binary64.rank?_ofInt n⟩

theorem same_of_blurs {a b : Value} (h : Blurs a b) : a.same b = true := by
  cases h with
  | rounded ha hb hrank hunheld =>
      have hrank? := hunheld.elim (fun h => exists_rank?_of_unheld h ha)
        (fun h => hrank ▸ exists_rank?_of_unheld h hb)
      rcases hrank? with ⟨rank, hx⟩
      refine same_iff.mpr ⟨.number rank, ?_, ?_⟩
      · rw [lookupKey?_of_double? ha, hx]
        rfl
      · rw [lookupKey?_of_double? hb, <- hrank, hx]
        rfl
  | null ha hb =>
      exact same_iff.mpr ⟨.null, lookupKey?_of_looksNull ha, lookupKey?_of_looksNull hb⟩

theorem number?_eq_or_unheld {value : Value} {x : Binary64} {rank : Int}
    (hx : value.double? = some x) (hrank : x.rank? = some rank) :
    value.number? = x.number? ∨ value.Unheld := by
  cases value with
  | int width n =>
      cases hx
      rw [Binary64.rank?_ofInt] at hrank
      by_cases hheld : exists y : Binary64, y.number? = some (.rational n)
      · rcases hheld with ⟨y, hy⟩
        have hyrank : y.rank? = some rank := (Binary64.rank?_of_number? hy).trans hrank
        left
        rw [number?, <- hy]
        exact Binary64.number?_eq_of_rank? hyrank
          ((Binary64.rank?_ofInt n).trans hrank)
      · exact .inr ⟨width, n, rfl, not_exists.mp hheld⟩
  | double y =>
      cases hx
      exact .inl rfl
  | _ => cases hx

theorem matches_of_rank? {a b : Value} {x y : Binary64} {rank : Int}
    (ha : a.double? = some x) (hx : x.rank? = some rank) (hb : b.double? = some y)
    (hy : y.rank? = some rank) : Matches Blurs a b := by
  have hrank : x.rank? = y.rank? := hx.trans hy.symm
  rcases number?_eq_or_unheld ha hx with hanumber | hunheld
  · rcases number?_eq_or_unheld hb hy with hbnumber | hunheld
    · rcases Binary64.exists_number?_of_rank? hx with ⟨denoted, hdenoted⟩
      have hsame := Binary64.number?_eq_of_rank? hx hy
      exact .number (hanumber.trans hdenoted)
        (hbnumber.trans (hsame.symm.trans hdenoted))
    · exact .blurred (.rounded ha hb hrank (.inr hunheld))
  · exact .blurred (.rounded ha hb hrank (.inl hunheld))

/-!
## What a lookup sees
-/

def Seen : LookupKey -> Value -> Prop
  | .null, value => value.looksNull = true
  | .bool b, value => value = bool b
  | .number rank, value => exists x, value.double? = some x ∧ x.rank? = some rank
  | .date millis, value => value = date millis
  | .string s, value => value = string s
  | .array keys, value => exists items, value = array items ∧
      List.Forall₂ (fun item key => item.lookupKey? = some key) items keys
  | .document keys, value => exists entries, value = document entries ∧
      forall name, (Keyed.get? entries name).map lookupKey? =
        (Keyed.get? keys name).map some

theorem seen_of_lookupKey? {value : Value} {key : LookupKey}
    (h : value.lookupKey? = some key) : Seen key value := by
  cases value with
  | int width n =>
      cases h
      exact ⟨_, rfl, Binary64.rank?_ofInt n⟩
  | double x =>
      rcases Option.map_eq_some_iff.mp h with ⟨rank, hrank, rfl⟩
      exact ⟨x, rfl, hrank⟩
  | array items =>
      rcases Option.map_eq_some_iff.mp h with ⟨keys, hkeys, rfl⟩
      rw [itemKeys?_eq_mapM] at hkeys
      exact ⟨items, rfl, mapM_eq_some_iff.mp hkeys⟩
  | document entries =>
      rcases Option.map_eq_some_iff.mp h with ⟨keys, hkeys, rfl⟩
      exact ⟨entries, rfl, map_lookupKey?_get? hkeys⟩
  | _ =>
      cases h
      rfl

theorem matches_of_same (a : Value) : forall b, a.same b = true -> Matches Blurs a b := by
  induction a using byParts with
  | h a ih =>
      intro b hsame
      rcases same_iff.mp hsame with ⟨key, ha, hb⟩
      have hseen := seen_of_lookupKey? ha
      have hseen' := seen_of_lookupKey? hb
      cases key with
      | null => exact .blurred (.null hseen hseen')
      | bool x =>
          rw [show a = bool x from hseen, show b = bool x from hseen']
          exact .identical rfl
      | date millis =>
          rw [show a = date millis from hseen, show b = date millis from hseen']
          exact .identical rfl
      | string s =>
          rw [show a = string s from hseen, show b = string s from hseen']
          exact .identical rfl
      | number rank =>
          rcases hseen with ⟨x, hx, hxrank⟩
          rcases hseen' with ⟨y, hy, hyrank⟩
          exact matches_of_rank? hx hxrank hy hyrank
      | array keys =>
          rcases hseen with ⟨as, rfl, has⟩
          rcases hseen' with ⟨bs, rfl, hbs⟩
          have hitems : Agree as bs :=
            (exists_forall₂_iff.mp ⟨keys, has, hbs.flip⟩).imp fun _ _ => same_iff.mpr
          have hmembers := (List.forall₂_and_left as bs).mpr
            ⟨fun item hitem => hitem, hitems⟩
          exact .array (hmembers.imp fun item other h => ih item (.item h.1) other h.2)
      | document keys =>
          rcases hseen with ⟨as, rfl, has⟩
          rcases hseen' with ⟨bs, rfl, hbs⟩
          refine .document fun name => ?_
          have hitem := has name
          have hother := hbs name
          cases hkey : Keyed.get? keys name with
          | none =>
              rw [hkey, Option.map_none, Option.map_eq_none_iff] at hitem hother
              rw [hitem, hother]
              exact .none
          | some key =>
              rw [hkey, Option.map_some, Option.map_eq_some_iff] at hitem hother
              rcases hitem with ⟨item, hitem, hseen⟩
              rcases hother with ⟨other, hother, hseen'⟩
              rw [hitem, hother]
              exact .some (ih item (.entry (Keyed.mem_of_get? hitem)) other
                (same_iff.mpr ⟨key, hseen, hseen'⟩))

end Value

/-!
## What a unique index refuses
-/

namespace Store

/-- Under each term of some unique index over the collection another document of the
collection carries a value that is related to what the candidate carries there. -/
def Duplicated (related : Value -> Value -> Prop) (store : Store) (collection : String)
    (number : Nat) (candidate : Document) : Prop :=
  exists name stored other, (name, stored) ∈ store.indexes ∧
    stored.definition.isUnique = true ∧ stored.definition.source = collection ∧
    other ∈ store.documentsOf collection ∧ other.1 ≠ number ∧
    forall term, term ∈ stored.definition.terms ->
      exists held wanted, other.2.at? term.field = some held ∧
        candidate.at? term.field = some wanted ∧ related held wanted

variable {clock : Clock} {store left : Store} {collection : String}

theorem carried_of_clash {index : IndexDefinition} {other candidate : Document}
    (h : clash index other candidate = true) {term : IndexTerm} (hterm : term ∈ index.terms) :
    exists held wanted, other.at? term.field = some held ∧
      candidate.at? term.field = some wanted ∧ held.same wanted = true := by
  rcases IndexDefinition.clash_iff.mp h with ⟨found, sought, hfound, hsought, hagree⟩
  have hterms := exists_forall₂_iff.mp
    ⟨found, IndexDefinition.termsOf?_eq_some_iff.mp hfound, hagree⟩
  have hboth := exists_forall₂_iff.mp
    ⟨sought, hterms, (IndexDefinition.termsOf?_eq_some_iff.mp hsought).flip⟩
  rcases List.forall₂_same.mp hboth term hterm with
    ⟨wanted, ⟨held, hheld, hsame⟩, hwanted⟩
  exact ⟨held, wanted, hheld, hwanted, hsame⟩

theorem duplicated_of_collides {number : Nat} {candidate : Document}
    (h : store.collides collection number candidate = true) :
    store.Duplicated (Value.Matches Value.Blurs) collection number candidate := by
  simp only [collides, List.any_eq_true, Bool.and_eq_true, decide_eq_true_eq] at h
  rcases h with ⟨⟨name, stored⟩, hindex, ⟨hunique, hsource⟩, other, hother, hnumber,
    hclash⟩
  refine ⟨name, stored, other, hindex, hunique, hsource, hother, hnumber, ?_⟩
  intro term hterm
  rcases carried_of_clash hclash hterm with ⟨held, wanted, hheld, hwanted, hsame⟩
  exact ⟨held, wanted, hheld, hwanted, Value.matches_of_same held wanted hsame⟩

theorem createDocument_not_unique {data : Document}
    (h : createDocument clock collection data store = .error .instanceNotUnique left) :
    (store.stepped clock (store.lastNumber + 1)).collides collection (store.lastNumber + 1)
      (storedDocument (numbered collection (store.lastNumber + 1))
        (store.nextTimestamp clock) (Document.withoutNulls data)) = true := by
  unfold createDocument at h
  split at h
  · simp only at h
    split at h
    · next hcollides => exact hcollides
    · cases h
  · cases h

theorem updateDocument_not_unique {reference : Reference} {patch : Document}
    (h : updateDocument clock reference patch store = .error .instanceNotUnique left) :
    exists found number,
      store.find? reference = some found ∧
        documentNumber? reference.id = some number ∧
        (store.stepped clock store.lastNumber).collides reference.collection number
          (patched found (store.nextTimestamp clock) patch) = true := by
  unfold updateDocument at h
  split at h
  · next found number hfound hnumber =>
      simp only at h
      split at h
      · next hcollides => exact ⟨found, number, hfound, hnumber, hcollides⟩
      · cases h
  · cases h

/-!
# Main statement
-/

/-- A creation or an update that a unique index refuses would have given two documents of the
collection terms that are equal, but for parts that a lookup blurs, and those it does take
for the same. -/
theorem refused_documents_match_another (store : Store) (clock : Clock) :
    (forall collection data left,
      createDocument clock collection data store = .error .instanceNotUnique left ->
      store.Duplicated (Value.Matches Value.Blurs) collection (store.lastNumber + 1)
        (storedDocument (numbered collection (store.lastNumber + 1))
          (store.nextTimestamp clock) (Document.withoutNulls data))) ∧
    (forall reference patch left,
      updateDocument clock reference patch store = .error .instanceNotUnique left ->
      exists found number, store.find? reference = some found ∧
        documentNumber? reference.id = some number ∧
        store.Duplicated (Value.Matches Value.Blurs) reference.collection number
          (patched found (store.nextTimestamp clock) patch)) ∧
    (forall a b, Value.Blurs a b -> a.same b = true) := by
  refine ⟨?_, ?_, fun a b => Value.same_of_blurs⟩
  · intro collection data left h
    exact duplicated_of_collides (createDocument_not_unique h)
  · intro reference patch left h
    rcases updateDocument_not_unique h with ⟨found, number, hfound, hnumber, hcollides⟩
    exact ⟨found, number, hfound, hnumber, duplicated_of_collides hcollides⟩

/-!
The statement at one store: the tag of an item is unique, and an item is refused where its
tag is another object id, or the next integer above one that is tagged.
-/

def tagIndex : IndexDefinition :=
  { name := "Item_by_tag"
    source := "Item"
    terms := [{ field := ["data", "tag"] }]
    values := [IndexValue.ownReference]
    unique := some true }

def taggedItems (tag : Value) : Store :=
  Store.empty.afterAll (fun _ => 0)
    [.createCollection { name := "Item" }, .createIndex tagIndex,
      .create (.collection "Item") (Model.dataParams [("tag", tag)]),
      .create (.collection "Item") (Model.dataParams [])]

def firstOid : Value :=
  .objectId [0, 0, 0, 0, 0, 0, 0, 0, 0, 0, 0, 1]

def secondOid : Value :=
  .objectId [0, 0, 0, 0, 0, 0, 0, 0, 0, 0, 0, 2]

theorem refused_documents_match_another_objectIds :
    (exists left,
      createDocument (fun _ => 0) "Item" [("tag", secondOid)] (taggedItems firstOid) =
        .error .instanceNotUnique left) ∧
    (taggedItems firstOid).Duplicated (Value.Matches Value.Blurs) "Item" 3
      (storedDocument (numbered "Item" 3) 5 [("tag", secondOid)]) ∧
    exists left found,
      updateDocument (fun _ => 0) (numbered "Item" 2) [("tag", secondOid)]
          (taggedItems firstOid) =
        .error .instanceNotUnique left ∧
      (taggedItems firstOid).Duplicated (Value.Matches Value.Blurs) "Item" 2
        (patched found 5 [("tag", secondOid)]) := by
  have hcreate : createDocument (fun _ => 0) "Item" [("tag", secondOid)]
      (taggedItems firstOid) = .error .instanceNotUnique _ := rfl
  have hupdate : updateDocument (fun _ => 0) (numbered "Item" 2) [("tag", secondOid)]
      (taggedItems firstOid) = .error .instanceNotUnique _ := rfl
  have hrefused := refused_documents_match_another (taggedItems firstOid) fun _ => 0
  rcases hrefused.2.1 _ _ _ hupdate with ⟨found, number, hfound, hnumber, hduplicated⟩
  cases hnumber
  exact ⟨⟨_, hcreate⟩, hrefused.1 _ _ _ hcreate, _, found, hupdate, hduplicated⟩

/-!
Neither item is a duplicate where nothing is blurred.
-/

theorem related_of_duplicated {related : Value -> Value -> Prop} {tag wanted : Value}
    (hindexes : store.indexes =
      [("Item_by_tag", { timestamp := 2, definition := tagIndex })])
    (hdocuments : store.documentsOf "Item" =
      [(1, storedDocument (numbered "Item" 1) 3 [("tag", tag)]),
        (2, storedDocument (numbered "Item" 2) 4 [])])
    (h : store.Duplicated related "Item" 3
      (storedDocument (numbered "Item" 3) 5 [("tag", wanted)])) : related tag wanted := by
  rcases h with ⟨name, stored, other, hindex, _, _, hother, _, hterms⟩
  rw [hindexes] at hindex
  cases List.mem_singleton.mp hindex
  rcases hterms _ (List.mem_singleton_self _) with ⟨held, sought, hheld, hsought, hrelated⟩
  rw [Value.eq_of_present? hsought] at hrelated
  rw [hdocuments, List.mem_cons, List.mem_singleton] at hother
  rcases hother with rfl | rfl
  · rw [Value.eq_of_present? hheld] at hrelated
    exact hrelated
  · cases hheld

theorem distinct_tags_refused :
    ((taggedItems firstOid).Reachable ∧
      (exists left,
        createDocument (fun _ => 0) "Item" [("tag", secondOid)] (taggedItems firstOid) =
          .error .instanceNotUnique left) ∧
      ¬ (taggedItems firstOid).Duplicated Value.Equal "Item" 3
        (storedDocument (numbered "Item" 3) 5 [("tag", secondOid)])) ∧
    (taggedItems (.int .long (2 ^ 53))).Reachable ∧
      (exists left,
        createDocument (fun _ => 0) "Item" [("tag", .int .long (2 ^ 53 + 1))]
            (taggedItems (.int .long (2 ^ 53))) =
          .error .instanceNotUnique left) ∧
      ¬ (taggedItems (.int .long (2 ^ 53))).Duplicated Value.Equal "Item" 3
        (storedDocument (numbered "Item" 3) 5 [("tag", .int .long (2 ^ 53 + 1))]) := by
  refine ⟨⟨LeadsTo.start.afterAll _ _, ⟨_, rfl⟩, fun h => ?_⟩,
    LeadsTo.start.afterAll _ _, ⟨_, rfl⟩, fun h => ?_⟩
  · have hequal : Value.Equal firstOid secondOid := related_of_duplicated rfl rfl h
    exact absurd (Value.objectId.inj (hequal.eq_of_isAtom rfl)) (by decide)
  · have hequal : Value.Equal (.int .long (2 ^ 53)) (.int .long (2 ^ 53 + 1)) :=
      related_of_duplicated rfl rfl h
    exact absurd hequal.int_eq (by decide)

end Store
end DocumentMapper
