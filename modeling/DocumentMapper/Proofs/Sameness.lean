import Mathlib.Data.List.Perm.Subperm
import DocumentMapper.Proofs.Duplicates
import DocumentMapper.Value.Equal

/-!
# Values that are the same to a lookup

A lookup compares values part by part: numbers as doubles, lists item by item, and documents
key by key in whatever order the keys stand.  Putting the parts that count into one lookup
key gives the same answer, so being the same is symmetric and transitive at any depth.  A
value is the same as itself unless it is a NaN or holds one somewhere inside.
-/

namespace DocumentMapper

/-!
## Documents of the same keys
-/

theorem eq_none_iff_of_rel {item other : Type} {R : item -> other -> Prop}
    {a : Option item} {b : Option other} (h : Option.Rel R a b) : a = none <-> b = none := by
  cases h <;> simp

theorem exists_of_rel_some {item other : Type} {R : item -> other -> Prop} {a : item}
    {found : Option other} (h : Option.Rel R (some a) found) :
    exists b, found = some b ∧ R a b := by
  cases h with
  | some h => exact ⟨_, rfl, h⟩

/-- Two maps relate under each key where they are of one size and the second has a related
item under each key of the first. -/
theorem Keyed.rel_get?_iff {key item other : Type} [DecidableEq key]
    {R : item -> other -> Prop} {as : List (key × item)} {bs : List (key × other)}
    (has : (keys as).Nodup) (hbs : (keys bs).Nodup) :
    (forall k, Option.Rel R (get? as k) (get? bs k)) <->
      as.length = bs.length ∧
        forall entry, entry ∈ as -> exists b, get? bs entry.1 = some b ∧ R entry.2 b := by
  constructor
  · intro hrel
    have hmem : forall k, k ∈ keys as <-> k ∈ keys bs := by
      intro k
      rw [<- not_iff_not, <- get?_eq_none_iff, <- get?_eq_none_iff]
      exact eq_none_iff_of_rel (hrel k)
    have hperm := (List.perm_ext_iff_of_nodup has hbs).mpr hmem
    refine ⟨by simpa [keys] using hperm.length_eq, fun entry hentry => ?_⟩
    have hown := hrel entry.1
    rw [get?_of_mem has hentry] at hown
    exact exists_of_rel_some hown
  · rintro ⟨hlength, hentries⟩ k
    have hsubset : keys as ⊆ keys bs := by
      intro j hj
      rcases List.mem_map.mp hj with ⟨entry, hentry, rfl⟩
      rcases hentries entry hentry with ⟨b, hb, _⟩
      exact mem_keys_of_mem (mem_of_get? hb)
    -- No key is left over in the second, as both have equally many.
    have hperm : (keys as).Perm (keys bs) :=
      (List.subperm_of_subset has hsubset).perm_of_length_le (by simp [keys, hlength])
    cases hown : get? as k with
    | none =>
        have hother : get? bs k = none := by
          rw [get?_eq_none_iff, <- hperm.mem_iff, <- get?_eq_none_iff, hown]
        rw [hother]
        exact .none
    | some a =>
        rcases hentries _ (mem_of_get? hown) with ⟨b, hb, hrel⟩
        rw [hb]
        exact .some hrel

namespace Value

/-!
## Values without a lookup key
-/

inductive HoldsNaN : Value -> Prop where
  | nan {x : Binary64} (hnan : x.isNaN = true) : HoldsNaN (double x)
  | inside {part value : Value} (hpart : part.Inside value) (h : HoldsNaN part) :
      HoldsNaN value

theorem holdsNaN_iff {value : Value} :
    value.HoldsNaN <->
      (exists x, value = double x ∧ x.isNaN = true) ∨
        exists part : Value, part.Inside value ∧ part.HoldsNaN := by
  constructor
  · rintro (hnan | ⟨hpart, h⟩)
    · exact Or.inl ⟨_, rfl, hnan⟩
    · exact Or.inr ⟨_, hpart, h⟩
  · rintro (⟨x, rfl, hnan⟩ | ⟨part, hpart, h⟩)
    · exact .nan hnan
    · exact .inside hpart h

theorem itemKeys?_eq_none_iff {items : List Value} :
    itemKeys? items = none <-> exists item, item ∈ items ∧ item.lookupKey? = none := by
  induction items with
  | nil =>
      simp [itemKeys?]
  | cons item rest ih =>
      simp only [List.mem_cons, or_and_right, exists_or, exists_eq_left, <- ih, itemKeys?]
      cases item.lookupKey? <;> cases itemKeys? rest <;> simp

theorem entryKeys?_eq_none_iff {entries : Document} :
    entryKeys? entries = none <->
      exists entry, entry ∈ entries ∧ entry.2.lookupKey? = none := by
  induction entries with
  | nil =>
      simp [entryKeys?]
  | cons entry rest ih =>
      rcases entry with ⟨key, item⟩
      simp only [List.mem_cons, or_and_right, exists_or, exists_eq_left, <- ih, entryKeys?]
      cases item.lookupKey? <;> cases entryKeys? rest <;> simp

theorem lookupKey?_eq_none_iff {value : Value} :
    value.lookupKey? = none <->
      (exists x, value = double x ∧ x.isNaN = true) ∨
        exists part : Value, part.Inside value ∧ part.lookupKey? = none := by
  cases value with
  | double x =>
      have hnone : forall part : Value, ¬ part.Inside (double x) := by
        intro part hpart
        cases hpart
      simp [lookupKey?, Binary64.rank?, hnone]
  | array items =>
      simp [lookupKey?, itemKeys?_eq_none_iff, inside_array_iff]
  | document entries =>
      simp only [lookupKey?, Option.map_eq_none_iff, entryKeys?_eq_none_iff,
        inside_document_iff, Prod.exists]
      constructor
      · rintro ⟨key, part, hentry, hnone⟩
        exact Or.inr ⟨part, ⟨key, hentry⟩, hnone⟩
      · rintro (⟨x, hdouble, _⟩ | ⟨part, ⟨key, hentry⟩, hnone⟩)
        · cases hdouble
        · exact ⟨key, part, hentry, hnone⟩
  | _ =>
      refine iff_of_false (by simp [lookupKey?]) ?_
      rintro (⟨x, hdouble, _⟩ | ⟨part, hpart, _⟩)
      · cases hdouble
      · cases hpart

theorem lookupKey?_eq_none_iff_holdsNaN (value : Value) :
    value.lookupKey? = none <-> value.HoldsNaN := by
  induction value using byParts with
  | h value ih =>
      rw [lookupKey?_eq_none_iff, holdsNaN_iff]
      exact or_congr_right (exists_congr fun part => and_congr_right (ih part))

theorem same_self_iff (value : Value) : value.same value = true <-> ¬ value.HoldsNaN := by
  rw [same_iff, <- lookupKey?_eq_none_iff_holdsNaN, <- ne_eq, Option.ne_none_iff_exists']
  simp

/-!
## Lists and documents
-/

theorem same_array_iff {as bs : List Value} :
    (array as).same (array bs) = true <-> Agree as bs := by
  have hkeys : (array as).same (array bs) = true <->
      exists keys, List.Forall₂ (fun item key => item.lookupKey? = some key) as keys ∧
        List.Forall₂ (fun key item => item.lookupKey? = some key) keys bs := by
    simp only [same_iff, lookupKey?, itemKeys?_eq_mapM, Option.map_eq_some_iff,
      mapM_eq_some_iff]
    constructor
    · rintro ⟨_, ⟨keys, has, rfl⟩, ⟨others, hbs, hothers⟩⟩
      cases hothers
      exact ⟨keys, has, hbs.flip⟩
    · rintro ⟨keys, has, hbs⟩
      exact ⟨_, ⟨keys, has, rfl⟩, ⟨keys, hbs.flip, rfl⟩⟩
  rw [hkeys, exists_forall₂_iff]
  simp only [Agree, same_iff]

theorem sorted_entryKeys? {entries : Document} {keys : List (String × LookupKey)}
    (h : entryKeys? entries = some keys) : Ordered.Sorted keys := by
  induction entries generalizing keys with
  | nil =>
      cases h
      exact List.Pairwise.nil
  | cons entry rest ih =>
      rw [entryKeys?] at h
      simp only [Option.bind_eq_bind, Option.bind_eq_some_iff, Option.some.injEq] at h
      rcases h with ⟨own, _, others, hothers, rfl⟩
      exact Ordered.sorted_insert _ _ (ih hothers)

theorem entryKeys?_eq_some_iff {entries : Document} (hkeys : (Keyed.keys entries).Nodup)
    {keys : List (String × LookupKey)} :
    entryKeys? entries = some keys <->
      Ordered.Sorted keys ∧ forall name,
        (Keyed.get? entries name).map lookupKey? = (Keyed.get? keys name).map some := by
  constructor
  · intro h
    exact ⟨sorted_entryKeys? h, map_lookupKey?_get? h⟩
  · rintro ⟨hsorted, hget⟩
    cases hfound : entryKeys? entries with
    | none =>
        rcases entryKeys?_eq_none_iff.mp hfound with ⟨entry, hentry, hnone⟩
        have hown := hget entry.1
        rw [Keyed.get?_of_mem hkeys hentry, Option.map_some, hnone] at hown
        cases hkey : Keyed.get? keys entry.1 <;> simp [hkey] at hown
    | some found =>
        congr 1
        apply Ordered.eq_of_get?_eq (sorted_entryKeys? hfound) hsorted
        intro name
        have hown := (map_lookupKey?_get? hfound name).symm.trans (hget name)
        exact Option.map_injective (Option.some_injective _) hown

theorem entryKeys?_congr {as bs : Document} (has : (Keyed.keys as).Nodup)
    (hbs : (Keyed.keys bs).Nodup)
    (h : forall name,
      (Keyed.get? as name).map lookupKey? = (Keyed.get? bs name).map lookupKey?) :
    entryKeys? as = entryKeys? bs := by
  ext keys
  simp only [entryKeys?_eq_some_iff has, entryKeys?_eq_some_iff hbs, h]

theorem rel_same_iff {a b : Option Value} :
    Option.Rel (fun a b => a.same b = true) a b <->
      exists key : Option LookupKey,
        a.map lookupKey? = key.map some ∧ b.map lookupKey? = key.map some := by
  constructor
  · rintro (hsame | _)
    · rcases same_iff.mp hsame with ⟨key, ha, hb⟩
      exact ⟨some key, by simp [ha], by simp [hb]⟩
    · exact ⟨none, rfl, rfl⟩
  · rintro ⟨_ | key, ha, hb⟩
    · rw [Option.map_none, Option.map_eq_none_iff] at ha hb
      rw [ha, hb]
      exact .none
    · rw [Option.map_some, Option.map_eq_some_iff] at ha hb
      rcases ha with ⟨a, rfl, ha⟩
      rcases hb with ⟨b, rfl, hb⟩
      exact .some (same_iff.mpr ⟨key, ha, hb⟩)

/-- Documents are the same when they hold the same under each key. -/
theorem same_document_iff {as bs : Document} (has : (Keyed.keys as).Nodup)
    (hbs : (Keyed.keys bs).Nodup) :
    (document as).same (document bs) = true <->
      forall name, Option.Rel (fun a b => a.same b = true)
        (Keyed.get? as name) (Keyed.get? bs name) := by
  simp only [rel_same_iff]
  constructor
  · intro hsame name
    rcases same_iff.mp hsame with ⟨_, ha, hb⟩
    rcases Option.map_eq_some_iff.mp ha with ⟨keys, hkeys, rfl⟩
    rcases Option.map_eq_some_iff.mp hb with ⟨others, hothers, heq⟩
    cases heq
    exact ⟨_, map_lookupKey?_get? hkeys name, map_lookupKey?_get? hothers name⟩
  · intro hnames
    have hkeys : entryKeys? as = entryKeys? bs := by
      refine entryKeys?_congr has hbs fun name => ?_
      rcases hnames name with ⟨key, hown, hother⟩
      exact hown.trans hother.symm
    cases hfound : entryKeys? as with
    | none =>
        rcases entryKeys?_eq_none_iff.mp hfound with ⟨entry, hentry, hnone⟩
        rcases hnames entry.1 with ⟨key, hown, _⟩
        rw [Keyed.get?_of_mem has hentry, Option.map_some, hnone] at hown
        cases key <;> cases hown
    | some keys =>
        refine same_iff.mpr ⟨.document keys, ?_, ?_⟩
        · rw [lookupKey?, hfound, Option.map_some]
        · rw [lookupKey?, <- hkeys, hfound, Option.map_some]

/-!
## The order of keys
-/

theorem itemKeys?_map {f : Value -> Value} {items : List Value}
    (h : forall item, item ∈ items -> (f item).lookupKey? = item.lookupKey?) :
    itemKeys? (items.map f) = itemKeys? items := by
  induction items with
  | nil =>
      rfl
  | cons item rest ih =>
      rw [List.forall_mem_cons] at h
      rw [List.map_cons, itemKeys?, itemKeys?, h.1, ih h.2]

theorem lookupKey?_inKeyOrder (value : Value) : value.DistinctKeys ->
    value.inKeyOrder.lookupKey? = value.lookupKey? := by
  induction value using byParts with
  | h value ih =>
      intro hvalue
      cases value with
      | array items =>
          rw [inKeyOrder, lookupKey?, lookupKey?, itemsInKeyOrder_eq_map,
            itemKeys?_map fun item hitem =>
              ih item (.item hitem) (hvalue.of_inside (.item hitem))]
      | document entries =>
          have hkeys : entryKeys? (entriesInKeyOrder entries) = entryKeys? entries := by
            refine entryKeys?_congr
              (Ordered.nodup_keys_of_sorted (sorted_entriesInKeyOrder entries)) hvalue.1
              fun name => ?_
            rw [get?_entriesInKeyOrder]
            cases hitem : Keyed.get? entries name with
            | none => rfl
            | some item =>
                have hpart : item.Inside (document entries) :=
                  .entry (Keyed.mem_of_get? hitem)
                simp [ih item hpart (hvalue.of_inside hpart)]
          rw [inKeyOrder, lookupKey?, lookupKey?, hkeys]
      | _ => rfl

theorem lookupKey?_eq_of_alike {a b : Value} (ha : a.DistinctKeys) (hb : b.DistinctKeys)
    (h : Alike a b) : a.lookupKey? = b.lookupKey? := by
  rw [<- lookupKey?_inKeyOrder a ha, <- lookupKey?_inKeyOrder b hb, h]

/-!
## Comparing part by part
-/

mutual

/-- Whether two values are the same, decided on the values themselves.  Of two documents with
equally many keys the second has to hold the same under each key of the first. -/
def sameByParts : Value -> Value -> Bool
  | bool a, bool b => a == b
  | date a, date b => a == b
  | string a, string b => a == b
  | array as, array bs => sameItems as bs
  | document as, document bs => as.length == bs.length && sameEntries as bs
  | a, b =>
      match a.double?, b.double? with
      | some x, some y => equalDoubles x y
      | _, _ => a.looksNull && b.looksNull

def sameItems : List Value -> List Value -> Bool
  | [], [] => true
  | a :: as, b :: bs => sameByParts a b && sameItems as bs
  | _, _ => false

def sameEntries : List (String × Value) -> Document -> Bool
  | [], _ => true
  | (key, a) :: rest, bs =>
      match Keyed.get? bs key with
      | some b => sameByParts a b && sameEntries rest bs
      | none => false

end

theorem sameItems_iff {as bs : List Value} :
    sameItems as bs = true <-> List.Forall₂ (fun a b => a.sameByParts b = true) as bs := by
  induction as generalizing bs with
  | nil => cases bs <;> simp [sameItems]
  | cons a as ih => cases bs <;> simp [sameItems, ih]

theorem sameEntries_iff {as bs : Document} :
    sameEntries as bs = true <->
      forall entry, entry ∈ as -> exists b,
        Keyed.get? bs entry.1 = some b ∧ entry.2.sameByParts b = true := by
  induction as with
  | nil =>
      simp [sameEntries]
  | cons entry rest ih =>
      rcases entry with ⟨key, a⟩
      rw [List.forall_mem_cons, <- ih, sameEntries]
      cases Keyed.get? bs key <;> simp

theorem same_of_double? {a b : Value} {x y : Binary64} (ha : a.double? = some x)
    (hb : b.double? = some y) : a.same b = equalDoubles x y := by
  rw [same, lookupKey?_of_double? ha, lookupKey?_of_double? hb, equalDoubles]
  cases x.rank? with
  | none => rfl
  | some rank => cases y.rank? <;> simp [beq_eq_decide]

theorem sameByParts_of_double? {a b : Value} {x y : Binary64} (ha : a.double? = some x)
    (hb : b.double? = some y) : a.sameByParts b = equalDoubles x y := by
  cases a <;> cases ha <;> cases b <;> cases hb <;> rfl

theorem sameByParts_iff_same_of_double? {a : Value} {x : Binary64} (ha : a.double? = some x)
    (b : Value) : a.sameByParts b = true <-> a.same b = true := by
  cases hother : b.double? with
  | some y => rw [same_of_double? ha hother, sameByParts_of_double? ha hother]
  | none =>
      cases a <;> cases ha <;> cases b <;> cases hother <;>
        simp [sameByParts, same_iff, lookupKey?, looksNull, double?]

theorem sameItems_iff_agree {as bs : List Value} (h : forall a, a ∈ as -> forall b, b ∈ bs ->
      (a.sameByParts b = true <-> a.same b = true)) :
    sameItems as bs = true <-> Agree as bs := by
  rw [sameItems_iff, Agree, List.forall₂_iff_get, List.forall₂_iff_get]
  exact and_congr_right fun _ => forall₃_congr fun place hplace hplace' =>
    h _ (List.get_mem _ _) _ (List.get_mem _ _)

theorem sameByParts_iff_same (a : Value) : forall b : Value,
    a.DistinctKeys -> b.DistinctKeys -> (a.sameByParts b = true <-> a.same b = true) := by
  induction a using byParts with
  | h a ih =>
      intro b ha hb
      -- Values of unlike types are never the same, so each type meets all others once.
      cases a with
      | array as =>
          cases b with
          | array bs =>
              rw [sameByParts, same_array_iff]
              exact sameItems_iff_agree fun item hitem other hother =>
                ih item (.item hitem) other (ha.of_mem hitem) (hb.of_mem hother)
          | _ => simp [sameByParts, same_iff, lookupKey?, looksNull, double?]
      | document as =>
          cases b with
          | document bs =>
              rw [sameByParts, Bool.and_eq_true, beq_iff_eq, sameEntries_iff,
                same_document_iff ha.1 hb.1, Keyed.rel_get?_iff ha.1 hb.1]
              exact and_congr_right fun _ => forall₂_congr fun entry hentry =>
                exists_congr fun other => and_congr_right fun hother =>
                  ih entry.2 (.entry hentry) other (ha.of_inside (.entry hentry))
                    (hb.of_get? hother)
          | _ => simp [sameByParts, same_iff, lookupKey?, looksNull, double?]
      | int width n => exact sameByParts_iff_same_of_double? rfl b
      | double x => exact sameByParts_iff_same_of_double? rfl b
      | bool x =>
          cases b with
          | bool y => simp [sameByParts, same, lookupKey?]
          | _ => simp [sameByParts, same_iff, lookupKey?, looksNull, double?]
      | date x =>
          cases b with
          | date y => simp [sameByParts, same, lookupKey?]
          | _ => simp [sameByParts, same_iff, lookupKey?, looksNull, double?]
      | string x =>
          cases b with
          | string y => simp [sameByParts, same, lookupKey?]
          | _ => simp [sameByParts, same_iff, lookupKey?, looksNull, double?]
      | _ =>
          cases b <;> simp [sameByParts, same_iff, lookupKey?, looksNull, double?]

/-!
# Main statement
-/

theorem same_is_an_equivalence_apart_from_nan :
    (forall a b : Value, a.same b = b.same a) ∧
    (forall a b c : Value, a.same b = true -> b.same c = true -> a.same c = true) ∧
    (forall a : Value, a.same a = true <-> ¬ a.HoldsNaN) ∧
    (forall a b : Value, a.DistinctKeys -> b.DistinctKeys -> Alike a b ->
      (a.same b = true <-> ¬ a.HoldsNaN)) ∧
    forall a b : Value, a.DistinctKeys -> b.DistinctKeys -> a.same b = a.sameByParts b := by
  refine ⟨?_, fun a b c => same_trans, same_self_iff, ?_, ?_⟩
  · intro a b
    exact Bool.eq_iff_iff.mpr ⟨same_symm, same_symm⟩
  · intro a b ha hb halike
    rw [<- same_self_iff, same, same, lookupKey?_eq_of_alike ha hb halike]
  · intro a b ha hb
    exact Bool.eq_iff_iff.mpr (sameByParts_iff_same a b ha hb).symm

/-!
The statement at two values: the keys of a crate stand in another order and its numbers have
other types, and one that holds a NaN is not the same as itself.
-/

def crate : Value :=
  .document
    [("size", .int .short 2), ("tags", .array [.string "red", .int .long 1])]

def crateAgain : Value :=
  .document
    [("tags", .array [.string "red", .double { bits := 0x3ff0000000000000 }]),
      ("size", .int .long 2)]

def crateOfNaN : Value :=
  .document [("size", .array [.double { bits := 0x7ff8000000000000 }])]

theorem same_is_an_equivalence_apart_from_nan_crate :
    crate.DistinctKeys ∧ crateAgain.DistinctKeys ∧
      crate.same crateAgain = true ∧ crateAgain.same crate = true ∧
      crate.same crate = true ∧ ¬ crate.HoldsNaN ∧
      crateOfNaN.HoldsNaN ∧ crateOfNaN.same crateOfNaN = false := by
  rcases same_is_an_equivalence_apart_from_nan with ⟨hsymm, htrans, hself, _, hparts⟩
  have hcrate : crate.DistinctKeys := by
    simp [crate, DistinctKeys, DistinctKeysInItems, DistinctKeysInEntries, Keyed.keys]
  have hagain : crateAgain.DistinctKeys := by
    simp [crateAgain, DistinctKeys, DistinctKeysInItems, DistinctKeysInEntries, Keyed.keys]
  have hsame : crate.same crateAgain = true := by
    rw [hparts _ _ hcrate hagain]
    with_unfolding_all rfl
  have hback : crateAgain.same crate = true := by
    rw [<- hsymm, hsame]
  have hown := htrans _ _ _ hsame hback
  have hnan : crateOfNaN.HoldsNaN := by
    refine .inside (.entry List.mem_cons_self) (.inside (.item List.mem_cons_self) (.nan ?_))
    decide
  exact ⟨hcrate, hagain, hsame, hback, hown, (hself _).mp hown, hnan,
    Bool.eq_false_iff.mpr fun h => (hself _).mp h hnan⟩

end Value
end DocumentMapper
