import Mathlib.Data.List.FinRange
import DocumentMapper.Proofs.RunSorts
import DocumentMapper.Sorting.Basic

/-!
# Stable sorting

A sort gives back the items of its list or gives up.  Twenty items or fewer are always sorted,
and so is every list on which the comparison is consistent; there any two sorts agree.
-/

namespace DocumentMapper

/-- Of three items of the list, what leads from one to the next leads from the first to the
last. -/
abbrev TransitiveOn {item : Type} (le : item -> item -> Bool) (items : List item) : Prop :=
  forall a, a ∈ items -> forall b, b ∈ items -> forall c, c ∈ items ->
    le a b = true -> le b c = true -> le a c = true

namespace Sorting

variable {item : Type} {less : item -> item -> Bool} {early : item -> item -> Prop}
  {items : List item}

namespace Consistent

variable (h : Consistent less early)

include h

theorem less_self (a : item) : less a a = false := by
  cases hless : less a a with
  | false => rfl
  | true => rw [h.asymm hless] at hless; cases hless

theorem notLess_trans (a b c : item) (hab : notLess less a b = true)
    (hbc : notLess less b c = true) : notLess less a c = true := by
  simp only [notLess, Bool.not_eq_true'] at hab hbc ⊢
  by_contra hca
  rw [Bool.not_eq_false] at hca
  rw [h.beyond hca hab] at hbc
  cases hbc

theorem notLess_total (a b : item) : (notLess less a b || notLess less b a) = true := by
  cases hless : less a b with
  | false => simp [notLess, hless]
  | true => simp [notLess, h.asymm hless]

theorem notLess_of_level {a b c : item} (hb : less b a = false) (hc : less a c = false) :
    notLess less c b = true := by
  simp only [notLess, Bool.not_eq_true']
  by_contra hless
  rw [Bool.not_eq_false] at hless
  rw [h.beyond hless hc] at hb
  cases hb

theorem filter_mergeSort_level (a : item) (items : List item) :
    (items.mergeSort (notLess less)).filter (fun b => !less a b && !less b a) =
      items.filter fun b => !less a b && !less b a := by
  have hsorted : (items.filter fun b => !less a b && !less b a).Pairwise
      fun b c => notLess less b c = true := by
    apply List.pairwise_of_forall_mem_list
    intro b hb c hc
    rw [List.mem_filter, Bool.and_eq_true, Bool.not_eq_true', Bool.not_eq_true'] at hb hc
    exact h.notLess_of_level hc.2.2 hb.2.1
  have hkept := (List.sublist_mergeSort h.notLess_trans h.notLess_total hsorted
    List.filter_sublist).filter fun b => !less a b && !less b a
  rw [List.filter_filter] at hkept
  simp only [Bool.and_self] at hkept
  have hlength := ((List.mergeSort_perm items (notLess less)).filter
    fun b => !less a b && !less b a).length_eq
  exact (hkept.eq_of_length hlength.symm).symm

theorem pairwise_mergeSort (hitems : items.Pairwise early) :
    (items.mergeSort (notLess less)).Pairwise (Before less early) := by
  have hordered := List.pairwise_mergeSort h.notLess_trans h.notLess_total items
  rw [List.pairwise_iff_forall_sublist] at hordered ⊢
  intro a b hpair
  have hba : less b a = false := by
    simpa [notLess] using hordered hpair
  cases hab : less a b with
  | true => exact Or.inl hab
  | false =>
      have hkept := hpair.filter fun c => !less a c && !less c a
      have hlevel : [a, b].filter (fun c => !less a c && !less c a) = [a, b] := by
        simp [h.less_self a, hab, hba]
      rw [h.filter_mergeSort_level, hlevel] at hkept
      exact before_of_not_less hba
        (List.pairwise_iff_forall_sublist.mp hitems (hkept.trans List.filter_sublist))

end Consistent

/-!
## Pivots
-/

theorem median_mem (lessAt : Nat -> Nat -> Bool) (a b c : Nat) :
    median lessAt a b c ∈ [a, b, c] := by
  unfold median
  dsimp only
  split
  · split <;> simp
  · simp

theorem medianOfMedians_lt (lessAt : Nat -> Nat -> Bool) {count length a b c : Nat}
    (hcount : 0 < count) (ha : a + count <= length) (hb : b + count <= length)
    (hc : c + count <= length) : medianOfMedians lessAt count a b c < length := by
  fun_induction medianOfMedians lessAt count a b c with
  | case1 count a b c hmany part among ih =>
      have hamong : forall place, place + count <= length -> among place < length := by
        intro place hplace
        have hpart : part * 8 <= count := Nat.div_mul_le_self count 8
        exact ih place (by omega) (by omega) (by omega) (by omega)
      have hmem := median_mem lessAt (among a) (among b) (among c)
      simp only [List.mem_cons, List.not_mem_nil, or_false] at hmem
      rcases hmem with heq | heq | heq <;> rw [heq]
      · exact hamong a ha
      · exact hamong b hb
      · exact hamong c hc
  | case2 count a b c hfew =>
      have hmem := median_mem lessAt a b c
      simp only [List.mem_cons, List.not_mem_nil, or_false] at hmem
      rcases hmem with heq | heq | heq <;> omega

theorem pivotPlace_lt (less : item -> item -> Bool) (h : shortLength < items.length) :
    pivotPlace less items < items.length := by
  unfold shortLength at h
  have hpart : items.length / 8 * 8 <= items.length := Nat.div_mul_le_self _ 8
  exact medianOfMedians_lt _ (by omega) (by omega) (by omega) (by omega)

/-!
## Parting
-/

theorem permutes_sortByParting? (room limit : Nat) (floor : Option item) :
    Permutes (sortByParting? less room limit floor) := by
  intro items sorted h
  induction limit generalizing floor items sorted with
  | zero =>
      rw [sortByParting?] at h
      split at h
      · exact perm_sortShort? h
      · exact permutes_sortByRuns? permutes_some true room items sorted h
  | succ limit ih =>
      rw [sortByParting?] at h
      split at h
      · exact perm_sortShort? h
      · split at h
        · cases h
        · next pivot hpivot =>
            dsimp only at h
            split at h
            · simp only [Option.bind_eq_bind, Option.bind_eq_some_iff] at h
              rcases h with ⟨upper, hupper, hend⟩
              cases hend
              refine ((ih _ _ _ hupper).append_left _).trans ?_
              simpa using List.filter_append_perm (fun a => !less pivot a) items
            · simp only [Option.bind_eq_bind, Option.bind_eq_some_iff] at h
              rcases h with ⟨upper, hupper, lower, hlower, hend⟩
              cases hend
              refine ((ih _ _ _ hlower).append (ih _ _ _ hupper)).trans ?_
              exact List.filter_append_perm (fun a => less a pivot) items

theorem pairwise_level_filter (h : Consistent less early) {pivot : item}
    (hitems : items.Pairwise early) (hnone : forall a, a ∈ items -> less a pivot = false) :
    (items.filter fun a => !less pivot a).Pairwise (Before less early) := by
  refine (hitems.sublist List.filter_sublist).imp_of_mem ?_
  intro a b ha hb hearly
  rw [List.mem_filter] at ha hb
  have hlevel := h.notLess_of_level (hnone b hb.1) (by simpa using ha.2)
  exact before_of_not_less (by simpa [notLess] using hlevel) hearly

/-- What a sort needs to know of items that are no less than a floor. -/
theorem exists_sortByParting? (h : Consistent less early) (room limit : Nat)
    (floor : Option item) (hitems : items.Pairwise early)
    (hfloor : forall a, floor = some a -> forall b, b ∈ items -> less b a = false) :
    exists sorted, sortByParting? less room limit floor items = some sorted ∧
      sorted.Pairwise (Before less early) := by
  induction limit generalizing floor items with
  | zero =>
      rw [sortByParting?]
      split
      · exact exists_sortShort? h hitems
      · exact sorts_sortByRuns? h permutes_some true (fun hlazy => nomatch hlazy) room
          items hitems
  | succ limit ih =>
      rw [sortByParting?]
      split
      · exact exists_sortShort? h hitems
      · next hlong =>
          have hplace := pivotPlace_lt less (Nat.lt_of_not_le hlong)
          rw [List.getElem?_eq_getElem hplace]
          generalize items[pivotPlace less items] = pivot
          dsimp only
          split
          · next hleast =>
              -- Nothing is less than the pivot, so what is not greater is level with it.
              have hnone : forall a, a ∈ items -> less a pivot = false := by
                intro a ha
                by_contra hless
                rw [Bool.not_eq_false] at hless
                simp only [Bool.or_eq_true, List.isEmpty_iff, List.filter_eq_nil_iff,
                  Option.any_eq_true] at hleast
                rcases hleast with ⟨bottom, hbottom, hpivot⟩ | hempty
                · have hbelow := h.beyond hless (by simpa using hpivot)
                  rw [hfloor bottom hbottom a ha] at hbelow
                  cases hbelow
                · exact hempty a ha hless
              rcases ih none (hitems.sublist List.filter_sublist) nofun with
                ⟨upper, hupper, hordered⟩
              refine ⟨_, by rw [hupper]; rfl, List.pairwise_append.mpr
                ⟨pairwise_level_filter h hitems hnone, hordered, ?_⟩⟩
              intro a ha b hb
              rw [List.mem_filter] at ha
              have hmem := (permutes_sortByParting? _ _ _ _ _ hupper).subset hb
              rw [List.mem_filter] at hmem
              apply Or.inl
              by_contra hless
              have hbelow := h.beyond hmem.2 (Bool.eq_false_iff.mpr hless)
              simp [hbelow] at ha
          · rcases ih (some pivot) (hitems.sublist
              (List.filter_sublist (p := fun a => !less a pivot))) (by simp) with
              ⟨upper, hupper, hordered⟩
            rcases ih floor (hitems.sublist
              (List.filter_sublist (p := fun a => less a pivot)))
              (fun a ha b hb => hfloor a ha b (List.mem_filter.mp hb).1) with
              ⟨lower, hlower, hordered'⟩
            refine ⟨lower ++ upper, by rw [hupper, hlower]; rfl,
              List.pairwise_append.mpr ⟨hordered', hordered, ?_⟩⟩
            intro a ha b hb
            have hmem := (permutes_sortByParting? _ _ _ _ _ hlower).subset ha
            have hmem' := (permutes_sortByParting? _ _ _ _ _ hupper).subset hb
            rw [List.mem_filter] at hmem hmem'
            exact Or.inl (h.beyond hmem.2 (by simpa using hmem'.2))

/-!
## Any list
-/

theorem permutes_sortLong? (less : item -> item -> Bool) : Permutes (sortLong? less) :=
  fun items => permutes_sortByRuns?
    (fun part => permutes_sortByParting? _ (2 * part.length.log2) none part) _ _ items

theorem sorts_sortLong? (h : Consistent less early) : Sorts less early (sortLong? less) := by
  intro items hitems
  refine sorts_sortByRuns? h
    (fun part => permutes_sortByParting? _ (2 * part.length.log2) none part) _ ?_ _
      items hitems
  exact fun _ part hpart =>
    exists_sortByParting? h _ (2 * part.length.log2) none hpart (by simp)

theorem permutes_sortAny? (less : item -> item -> Bool) : Permutes (sortAny? less) := by
  intro items sorted h
  unfold sortAny? at h
  split at h
  · cases h
    exact perm_insertAll [] items
  · exact permutes_sortLong? less items sorted h

theorem sorts_sortAny? (h : Consistent less early) : Sorts less early (sortAny? less) := by
  intro items hitems
  unfold sortAny?
  split
  · exact ⟨_, rfl, pairwise_insertAll h .nil hitems fun _ hnone =>
      absurd hnone List.not_mem_nil⟩
  · exact sorts_sortLong? h items hitems

variable {compare : item -> item -> Ordering}

theorem perm_sort? {sorted : List item} (h : sort? compare items = some sorted) :
    sorted.Perm items := by
  rcases Option.map_eq_some_iff.mp h with ⟨places, hplaces, rfl⟩
  have hperm := (permutes_sortAny? _ _ _ hplaces).map fun i => items[i]
  simpa [List.map_getElem_finRange] using hperm

theorem exists_sort?_of_length_le (compare : item -> item -> Ordering)
    (h : items.length <= 20) : exists sorted, sort? compare items = some sorted := by
  rw [sort?, sortAny?, if_pos (by simpa using h)]
  exact ⟨_, rfl⟩

/-- A comparison that goes both ways, and leads from one item to the next, is consistent. -/
theorem consistent_places {length : Nat} (f : Fin length -> item)
    (hmem : forall i, f i ∈ items)
    (hswap : forall a b, (compare a b).swap = compare b a)
    (htrans : TransitiveOn (fun a b => (compare a b).isLE) items) :
    Consistent (fun i j => compare (f i) (f j) == .lt) (· < ·) where
  asymm {i j} hij := by
    rw [beq_iff_eq] at hij
    rw [<- hswap, hij]
    rfl
  beyond {i j k} hij hkj := by
    by_contra hik
    have hki : (compare (f k) (f i)).isLE = true := by
      rw [<- hswap]
      cases hik' : compare (f i) (f k) <;> simp_all
    have hjk : (compare (f j) (f k)).isLE = true := by
      rw [<- hswap]
      cases hkj' : compare (f k) (f j) <;> simp_all
    have hji : (compare (f j) (f i)).isLE = true :=
      htrans _ (hmem j) _ (hmem k) _ (hmem i) hjk hki
    rw [beq_iff_eq] at hij
    rw [<- hswap, hij] at hji
    cases hji
  early_trans := Fin.lt_trans
  early_asymm := Fin.lt_asymm

theorem pairwise_sort? (hswap : forall a b, (compare a b).swap = compare b a)
    (htrans : TransitiveOn (fun a b => (compare a b).isLE) items)
    {early : item -> item -> Prop} (hitems : items.Pairwise early) {sorted : List item}
    (h : sort? compare items = some sorted) :
    sorted.Pairwise fun a b => compare a b = .lt ∨ compare a b = .eq ∧ early a b := by
  rcases Option.map_eq_some_iff.mp h with ⟨places, hplaces, rfl⟩
  have hconsistent := consistent_places (fun i => items[i])
    (fun place => List.getElem_mem place.isLt) hswap htrans
  rcases sorts_sortAny? hconsistent _ (List.pairwise_lt_finRange items.length) with
    ⟨ordered, hordered, hbefore⟩
  rw [hplaces, Option.some_inj] at hordered
  subst hordered
  refine List.pairwise_map.mpr (hbefore.imp ?_)
  rintro i j (hless | ⟨hless, hplace⟩)
  · exact Or.inl (beq_iff_eq.mp hless)
  · rw [beq_eq_false_iff_ne] at hless
    cases hcompare : compare items[i] items[j] with
    | lt =>
        exact Or.inl rfl
    | eq =>
        exact Or.inr ⟨rfl, List.pairwise_iff_getElem.mp hitems i j i.isLt j.isLt hplace⟩
    | gt =>
        rw [<- hswap, hcompare] at hless
        exact absurd rfl hless

theorem sort?_eq_mergeSort (hswap : forall a b, (compare a b).swap = compare b a)
    (htrans : TransitiveOn (fun a b => (compare a b).isLE) items) :
    sort? compare items = some (items.mergeSort fun a b => (compare a b).isLE) := by
  have hconsistent := consistent_places (fun i => items[i])
    (fun place => List.getElem_mem place.isLt) hswap htrans
  have hplaces := List.pairwise_lt_finRange items.length
  rcases sorts_sortAny? hconsistent _ hplaces with ⟨sorted, hsorted, hordered⟩
  have hperm := permutes_sortAny? _ _ _ hsorted
  have hmerged := hconsistent.eq_of_perm (hperm.trans (List.mergeSort_perm _ _).symm) hordered
    (hconsistent.pairwise_mergeSort hplaces)
  rw [sort?, hsorted, hmerged, Option.map_some]
  congr 1
  rw [List.map_mergeSort (s := fun a b => (compare a b).isLE)]
  · exact congrArg (List.mergeSort · _) (List.map_getElem_finRange items)
  · intro i _ j _
    rw [notLess, <- hswap items[j] items[i]]
    cases compare items[j] items[i] <;> rfl

theorem sortAny?_cast {m n : Nat} (h : m = n) (less : Fin n -> Fin n -> Bool) :
    (sortAny? (fun i j => less (i.cast h) (j.cast h)) (List.finRange m)).map
        (List.map (Fin.cast h)) =
      sortAny? less (List.finRange n) := by
  subst h
  simp

theorem sort?_map {other : Type} (f : other -> item) (others : List other) :
    sort? compare (others.map f) =
      (sort? (fun a b => compare (f a) (f b)) others).map (List.map f) := by
  have hlength : others.length = (others.map f).length := by
    simp
  have hcast := sortAny?_cast hlength fun i j =>
    compare (others.map f)[i] (others.map f)[j] == .lt
  rw [sort?, <- hcast, sort?, Option.map_map, Option.map_map]
  simp [Function.comp_def]

end Sorting
end DocumentMapper
