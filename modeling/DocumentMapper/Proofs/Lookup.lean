import Mathlib.Data.List.Forall2
import DocumentMapper.Proofs.KeyOrder
import DocumentMapper.Store.Lookup

/-!
# Lookups

Being the same to a lookup is symmetric and transitive, as two values are the same
when they have one lookup key.  So two documents that an index finds under the
same terms carry the same terms, and what a lookup takes for a reference is one.
-/

namespace DocumentMapper
namespace Value

theorem same_iff {a b : Value} :
    a.same b = true <->
      exists key, a.lookupKey? = some key ∧ b.lookupKey? = some key := by
  unfold same
  cases ha : a.lookupKey? with
  | none =>
      simp
  | some key =>
      cases hb : b.lookupKey? with
      | none => simp
      | some other => simp [eq_comm]

theorem same_symm {a b : Value} (h : a.same b = true) : b.same a = true := by
  rcases same_iff.mp h with ⟨key, ha, hb⟩
  exact same_iff.mpr ⟨key, hb, ha⟩

theorem same_trans {a b c : Value} (hab : a.same b = true)
    (hbc : b.same c = true) : a.same c = true := by
  rcases same_iff.mp hab with ⟨key, ha, hb⟩
  rcases same_iff.mp hbc with ⟨other, hb', hc⟩
  rw [hb] at hb'
  cases hb'
  exact same_iff.mpr ⟨key, ha, hc⟩

abbrev Agree (as bs : List Value) : Prop :=
  List.Forall₂ (fun a b => a.same b = true) as bs

theorem agree_iff_allSame {as bs : List Value} :
    Agree as bs <-> as.length = bs.length ∧ allSame as bs = true := by
  unfold Agree
  rw [List.forall₂_iff_zip]
  simp [allSame]

theorem agree_symm {as bs : List Value} (h : Agree as bs) : Agree bs as := by
  induction h with
  | nil => exact List.Forall₂.nil
  | cons hhead _ ih => exact List.Forall₂.cons (same_symm hhead) ih

theorem agree_trans {as bs cs : List Value} (hab : Agree as bs)
    (hbc : Agree bs cs) : Agree as cs := by
  induction hab generalizing cs with
  | nil =>
      cases hbc
      exact List.Forall₂.nil
  | cons hhead _ ih =>
      cases hbc with
      | cons hhead' htail' =>
          exact List.Forall₂.cons (same_trans hhead hhead') (ih htail')

end Value

/-!
## References in a lookup
-/

theorem Reference.lookupKey?_toValue (reference : Reference) :
    reference.toValue.lookupKey? =
      some (.document
        [(Reference.key, .document
          [("collection", .string reference.collection),
            ("id", .string reference.id)])]) := by
  rfl

namespace Value

/-- The lookup key of a document holds the lookup keys of what the document holds, each of
which has one. -/
theorem map_lookupKey?_get? {entries : Document}
    {keys : List (String × LookupKey)} (h : entryKeys? entries = some keys)
    (name : String) :
    (Keyed.get? entries name).map lookupKey? = (Keyed.get? keys name).map some := by
  induction entries generalizing keys with
  | nil =>
      cases h
      rfl
  | cons entry rest ih =>
      rcases entry with ⟨key, item⟩
      rw [entryKeys?] at h
      simp only [Option.bind_eq_bind, Option.bind_eq_some_iff] at h
      rcases h with ⟨own, hown, others, hothers, hkeys⟩
      cases hkeys
      rw [Ordered.get?_insert, Keyed.get?_cons]
      split
      · rw [Option.map_some, Option.map_some, hown]
      · exact ih hothers

theorem get?_entryKeys? {entries : Document}
    {keys : List (String × LookupKey)} (h : entryKeys? entries = some keys)
    (name : String) :
    Keyed.get? keys name = (Keyed.get? entries name).bind lookupKey? := by
  have hmap := congrArg (fun held => held.bind id) (map_lookupKey?_get? h name)
  simpa [Option.bind_map, Function.comp_def] using hmap.symm

theorem itemKeys?_eq_mapM (items : List Value) :
    itemKeys? items = items.mapM lookupKey? := by
  induction items with
  | nil =>
      rfl
  | cons item rest ih =>
      rw [itemKeys?, ih, List.mapM_cons]
      rfl

theorem document_of_lookupKey? {value : Value}
    {keys : List (String × LookupKey)}
    (h : value.lookupKey? = some (.document keys)) :
    exists entries, value = .document entries ∧
      forall name, Keyed.get? keys name =
        (Keyed.get? entries name).bind lookupKey? := by
  cases value with
  | document entries =>
      rw [lookupKey?, Option.map_eq_some_iff] at h
      rcases h with ⟨found, hfound, heq⟩
      cases heq
      exact ⟨entries, rfl, get?_entryKeys? hfound⟩
  | double x =>
      rw [lookupKey?, Option.map_eq_some_iff] at h
      rcases h with ⟨rank, _, heq⟩
      cases heq
  | array items =>
      rw [lookupKey?, Option.map_eq_some_iff] at h
      rcases h with ⟨found, _, heq⟩
      cases heq
  | _ =>
      cases h

theorem string_of_lookupKey? {value : Value} {s : String}
    (h : value.lookupKey? = some (.string s)) : value = .string s := by
  cases value with
  | string t =>
      cases h
      rfl
  | double x =>
      rw [lookupKey?, Option.map_eq_some_iff] at h
      rcases h with ⟨rank, _, heq⟩
      cases heq
  | array items =>
      rw [lookupKey?, Option.map_eq_some_iff] at h
      rcases h with ⟨found, _, heq⟩
      cases heq
  | document entries =>
      rw [lookupKey?, Option.map_eq_some_iff] at h
      rcases h with ⟨found, _, heq⟩
      cases heq
  | _ =>
      cases h

theorem ofValue?_of_same {value : Value} {target : Reference}
    (h : value.same target.toValue = true) :
    Reference.ofValue? value = some target := by
  rcases same_iff.mp h with ⟨key, hvalue, htarget⟩
  rw [Reference.lookupKey?_toValue, Option.some.injEq] at htarget
  rw [<- htarget] at hvalue
  rcases document_of_lookupKey? hvalue with ⟨entries, hentries, hget⟩
  have hheld := (hget Reference.key).symm
  rw [Keyed.get?_cons, if_pos rfl, Option.bind_eq_some_iff] at hheld
  rcases hheld with ⟨held, hheld, hkeys⟩
  rcases document_of_lookupKey? hkeys with ⟨inside, hinside, hparts⟩
  have hcollection := (hparts "collection").symm
  rw [Keyed.get?_cons, if_pos rfl, Option.bind_eq_some_iff] at hcollection
  have hid := (hparts "id").symm
  rw [Keyed.get?_cons, if_neg (by decide), Keyed.get?_cons, if_pos rfl,
    Option.bind_eq_some_iff] at hid
  rcases hcollection with ⟨collection, hcollection, hname⟩
  rcases hid with ⟨id, hid, hnumber⟩
  rw [string_of_lookupKey? hname] at hcollection
  rw [string_of_lookupKey? hnumber] at hid
  rw [hentries]
  simp [Reference.ofValue?, document?, hheld, hinside, hcollection, hid, string?]

end Value

theorem Reference.same_toValue_iff {a b : Reference} :
    a.toValue.same b.toValue = true <-> a = b := by
  constructor
  · intro hsame
    have hparts := Value.ofValue?_of_same hsame
    rw [ofValue?_toValue] at hparts
    exact Option.some.inj hparts
  · intro heq
    rw [heq]
    exact Value.same_iff.mpr ⟨_, lookupKey?_toValue b, lookupKey?_toValue b⟩

/-!
## Lists item by item
-/

theorem mapM_eq_some_iff {item other : Type} {f : item -> Option other}
    {items : List item} {others : List other} :
    items.mapM f = some others <->
      List.Forall₂ (fun a b => f a = some b) items others := by
  induction items generalizing others with
  | nil =>
      simp [eq_comm]
  | cons a rest ih =>
      simp only [List.mapM_cons, Option.bind_eq_bind, Option.bind_eq_some_iff, ih,
        List.forall₂_cons_left_iff]
      constructor
      · rintro ⟨b, hb, bs, hbs, hend⟩
        cases hend
        exact ⟨b, bs, hb, hbs, rfl⟩
      · rintro ⟨b, bs, hb, hbs, rfl⟩
        exact ⟨b, hb, bs, hbs, rfl⟩

theorem exists_forall₂_iff {item between other : Type} {R : item -> between -> Prop}
    {S : between -> other -> Prop} {as : List item} {cs : List other} :
    (exists bs, List.Forall₂ R as bs ∧ List.Forall₂ S bs cs) <->
      List.Forall₂ (fun a c => exists b, R a b ∧ S b c) as cs := by
  constructor
  · rintro ⟨bs, hfirst, hsecond⟩
    induction hfirst generalizing cs with
    | nil =>
        cases hsecond
        exact .nil
    | cons hhead _ ih =>
        cases hsecond with
        | cons hhead' htail' => exact .cons ⟨_, hhead, hhead'⟩ (ih htail')
  · intro h
    induction h with
    | nil =>
        exact ⟨[], .nil, .nil⟩
    | cons hhead _ ih =>
        rcases hhead with ⟨b, hab, hbc⟩
        rcases ih with ⟨bs, hfirst, hsecond⟩
        exact ⟨b :: bs, .cons hab hfirst, .cons hbc hsecond⟩

/-!
## Documents in an index
-/

namespace IndexDefinition

open Value

theorem termsOf?_eq_some_iff {index : IndexDefinition} {document : Document}
    {found : List Value} :
    index.termsOf? document = some found <->
      List.Forall₂
        (fun term held => (Value.document document).at? (keySteps term.field) = some held)
        index.terms found :=
  mapM_eq_some_iff

theorem length_termsOf? {index : IndexDefinition} {document : Document}
    {found : List Value} (h : index.termsOf? document = some found) :
    found.length = index.terms.length :=
  (termsOf?_eq_some_iff.mp h).length_eq.symm

theorem finds_iff {index : IndexDefinition} {terms : List Value}
    {document : Document} :
    index.finds terms document = true <->
      exists found, index.termsOf? document = some found ∧ Agree found terms := by
  unfold finds
  cases index.termsOf? document with
  | none =>
      simp
  | some found =>
      simp [agree_iff_allSame]

theorem clash_iff {index : IndexDefinition} {a b : Document} :
    Store.clash index a b = true <->
      exists found other, index.termsOf? a = some found ∧
        index.termsOf? b = some other ∧ Agree found other := by
  unfold Store.clash
  cases ha : index.termsOf? a with
  | none =>
      simp
  | some found =>
      cases hb : index.termsOf? b with
      | none =>
          simp
      | some other =>
          have hlength : found.length = other.length := by
            rw [length_termsOf? ha, length_termsOf? hb]
          simp [agree_iff_allSame, hlength]

theorem clash_symm {index : IndexDefinition} {a b : Document}
    (h : Store.clash index a b = true) : Store.clash index b a = true := by
  rcases clash_iff.mp h with ⟨found, other, ha, hb, hagree⟩
  exact clash_iff.mpr ⟨other, found, hb, ha, agree_symm hagree⟩

theorem clash_of_finds {index : IndexDefinition} {terms : List Value}
    {a b : Document} (ha : index.finds terms a = true)
    (hb : index.finds terms b = true) : Store.clash index a b = true := by
  rcases finds_iff.mp ha with ⟨found, hfound, hagree⟩
  rcases finds_iff.mp hb with ⟨other, hother, hagree'⟩
  exact clash_iff.mpr
    ⟨found, other, hfound, hother, agree_trans hagree (agree_symm hagree')⟩

end IndexDefinition
end DocumentMapper
