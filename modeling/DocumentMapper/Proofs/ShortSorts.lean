import Mathlib.Data.List.Perm.Basic
import DocumentMapper.Sorting.Short

/-!
# Sorted short lists

Whatever the comparison says, a sort that answers gives back the items of the list.  Where the
comparison is consistent it does answer, and items stand in its order; those that it does not
tell apart stand as they did before.
-/

namespace DocumentMapper
namespace Sorting

variable {item : Type}

/-- The comparison is a strict weak order, and `early` says which items stood before which. -/
structure Consistent (less : item -> item -> Bool) (early : item -> item -> Prop) : Prop where
  asymm : forall {a b}, less a b = true -> less b a = false
  beyond : forall {a b c}, less a b = true -> less c b = false -> less a c = true
  early_trans : forall {a b c}, early a b -> early b c -> early a c
  early_asymm : forall {a b}, early a b -> ¬ early b a

/-- One item stands before another: it is less, or it stood before it and neither is less. -/
def Before (less : item -> item -> Bool) (early : item -> item -> Prop) (a b : item) : Prop :=
  less a b = true ∨ less b a = false ∧ early a b

def Earlier (early : item -> item -> Prop) (as bs : List item) : Prop :=
  forall a, a ∈ as -> forall b, b ∈ bs -> early a b

variable {less : item -> item -> Bool} {early : item -> item -> Prop} {a b c d : item}
  {as bs items : List item}

theorem Earlier.mono {as' bs' : List item} (h : Earlier early as bs) (has : as' ⊆ as)
    (hbs : bs' ⊆ bs) : Earlier early as' bs' :=
  fun a ha b hb => h a (has ha) b (hbs hb)

theorem before_of_not_less (h : less b a = false) (hearly : early a b) :
    Before less early a b :=
  Or.inr ⟨h, hearly⟩

namespace Consistent

variable (h : Consistent less early)

include h

theorem before_trans (hab : Before less early a b) (hbc : Before less early b c) :
    Before less early a c := by
  rcases hab with hab | ⟨hab, hfirst⟩
  · rcases hbc with hbc | ⟨hbc, _⟩
    · exact Or.inl (h.beyond hab (h.asymm hbc))
    · exact Or.inl (h.beyond hab hbc)
  · rcases hbc with hbc | ⟨hbc, hsecond⟩
    · apply Or.inl
      by_contra hac
      rw [Bool.not_eq_true] at hac
      rw [h.beyond hbc hac] at hab
      cases hab
    · refine Or.inr ⟨?_, h.early_trans hfirst hsecond⟩
      by_contra hca
      rw [Bool.not_eq_false] at hca
      rw [h.beyond hca hab] at hbc
      cases hbc

theorem not_less_of_before (hab : Before less early a b) : less b a = false :=
  hab.elim h.asymm And.left

theorem before_asymm (hab : Before less early a b) : ¬ Before less early b a := by
  rintro (hba | ⟨hba, hlater⟩)
  · rw [h.not_less_of_before hab] at hba
    cases hba
  · rcases hab with hab | ⟨_, hearly⟩
    · rw [hab] at hba
      cases hba
    · exact h.early_asymm hearly hlater

theorem eq_of_perm (hperm : as.Perm bs) (has : as.Pairwise (Before less early))
    (hbs : bs.Pairwise (Before less early)) : as = bs :=
  hperm.eq_of_pairwise (fun _ _ _ _ hab hba => absurd hba (h.before_asymm hab)) has hbs

end Consistent

/-!
## Insertion
-/

theorem perm_insertBack (a : item) (back : List item) :
    (insertBack less a back).Perm (a :: back) := by
  induction back with
  | nil =>
      exact .refl _
  | cons b rest ih =>
      rw [insertBack]
      split
      · exact (ih.cons b).trans (.swap a b rest)
      · exact .refl _

theorem perm_insertAll (sorted items : List item) :
    (insertAll less sorted items).Perm (sorted ++ items) := by
  have hfold : forall back : List item,
      (items.foldl (fun back a => insertBack less a back) back).Perm (items ++ back) := by
    induction items with
    | nil =>
        exact fun back => .refl _
    | cons a rest ih =>
        intro back
        exact (ih _).trans (((perm_insertBack a back).append_left rest).trans
          List.perm_middle)
  exact (List.reverse_perm _).trans ((hfold _).trans
    (List.perm_append_comm.trans ((List.reverse_perm sorted).append_right items)))

theorem pairwise_insertBack (h : Consistent less early) {back : List item}
    (hback : back.Pairwise fun b a => Before less early a b)
    (hearly : forall b, b ∈ back -> early b a) :
    (insertBack less a back).Pairwise fun b a => Before less early a b := by
  induction back with
  | nil =>
      exact List.pairwise_singleton _ a
  | cons b rest ih =>
      rw [List.forall_mem_cons] at hearly
      have hrest := List.pairwise_cons.mp hback
      rw [insertBack]
      split
      · next hless =>
          refine List.pairwise_cons.mpr ⟨fun c hc => ?_, ih hrest.2 hearly.2⟩
          rcases List.mem_cons.mp ((perm_insertBack a rest).mem_iff.mp hc) with rfl | hc
          · exact Or.inl hless
          · exact hrest.1 c hc
      · next hless =>
          have hlast : Before less early b a :=
            before_of_not_less (Bool.eq_false_iff.mpr hless) hearly.1
          refine List.pairwise_cons.mpr ⟨fun c hc => ?_, hback⟩
          rcases List.mem_cons.mp hc with rfl | hc
          · exact hlast
          · exact h.before_trans (hrest.1 c hc) hlast

theorem pairwise_insertAll (h : Consistent less early) {sorted : List item}
    (hsorted : sorted.Pairwise (Before less early)) (hitems : items.Pairwise early)
    (hearly : Earlier early sorted items) :
    (insertAll less sorted items).Pairwise (Before less early) := by
  have hfold : forall back : List item, (back.Pairwise fun b a => Before less early a b) ->
      Earlier early back items ->
      (items.foldl (fun back a => insertBack less a back) back).Pairwise
        fun b a => Before less early a b := by
    clear hearly
    induction items with
    | nil =>
        exact fun back hback _ => hback
    | cons a rest ih =>
        intro back hback hearly
        have hrest := List.pairwise_cons.mp hitems
        refine ih hrest.2 _ (pairwise_insertBack h hback fun b hb =>
          hearly b hb a List.mem_cons_self) ?_
        intro b hb c hc
        rcases List.mem_cons.mp ((perm_insertBack a back).mem_iff.mp hb) with rfl | hb
        · exact hrest.1 c hc
        · exact hearly b hb c (List.mem_cons_of_mem _ hc)
  rw [insertAll, List.pairwise_reverse]
  exact hfold _ (List.pairwise_reverse.mpr hsorted)
    (hearly.mono (List.reverse_subset.mpr (List.Subset.refl _)) (List.Subset.refl _))

/-!
## Four items
-/

theorem perm_inOrder (less : item -> item -> Bool) (a b : item) :
    [(inOrder less a b).1, (inOrder less a b).2].Perm [a, b] := by
  rw [inOrder]
  split
  · exact .swap a b []
  · exact .refl _

theorem before_inOrder (h : less b a = false -> Before less early a b) :
    Before less early (inOrder less a b).1 (inOrder less a b).2 := by
  rw [inOrder]
  split
  · next hless => exact Or.inl hless
  · next hless => exact h (Bool.eq_false_iff.mpr hless)

theorem perm_sortFour (a b c d : item) : (sortFour less a b c d).Perm [a, b, c, d] := by
  have hpairs := (perm_inOrder less a b).append (perm_inOrder less c d)
  simp only [List.cons_append, List.nil_append] at hpairs
  refine List.Perm.trans ?_ hpairs
  unfold sortFour
  generalize inOrder less a b = first
  generalize inOrder less c d = second
  rcases first with ⟨a, b⟩
  rcases second with ⟨c, d⟩
  -- The two items in the middle are compared last.
  have hmiddle : forall least greatest left right : item,
      [least, (inOrder less left right).1, (inOrder less left right).2, greatest].Perm
        [least, left, right, greatest] := by
    intro least greatest left right
    exact ((perm_inOrder less left right).append_right [greatest]).cons least
  have hback : [c, d, b].Perm [b, c, d] :=
    (List.Perm.swap b d []).cons c |>.trans (.swap b c [d])
  have hfront : [c, a, b].Perm [a, b, c] :=
    (List.Perm.swap a c [b]).trans ((List.Perm.swap b c []).cons a)
  cases hleast : less c a <;> cases hgreatest : less d b <;>
    simp only [hleast, hgreatest] <;> refine (hmiddle _ _ _ _).trans ?_
  · exact .refl _
  · exact hback.cons a
  · exact hfront.append_right [d]
  · exact (List.Perm.swap a c [d, b]).trans (hback.cons a)

theorem pairwise_inOrder_between (h : Consistent less early) {least greatest left right : item}
    (hleft : Before less early least left) (hright : Before less early least right)
    (hleft' : Before less early left greatest) (hright' : Before less early right greatest)
    (hmiddle : less right left = false -> Before less early left right) :
    [least, (inOrder less left right).1, (inOrder less left right).2, greatest].Pairwise
      (Before less early) := by
  have hends : forall x, x ∈ [(inOrder less left right).1, (inOrder less left right).2] ->
      Before less early least x ∧ Before less early x greatest := by
    intro x hx
    rw [(perm_inOrder less left right).mem_iff] at hx
    simp only [List.mem_cons, List.not_mem_nil, or_false] at hx
    rcases hx with rfl | rfl
    · exact ⟨hleft, hleft'⟩
    · exact ⟨hright, hright'⟩
  simp only [List.forall_mem_cons, List.not_mem_nil, false_implies, implies_true,
    and_true] at hends
  simp only [List.pairwise_cons, List.forall_mem_cons, List.not_mem_nil, false_implies,
    implies_true, List.Pairwise.nil, and_true]
  exact ⟨⟨hends.1.1, hends.2.1, h.before_trans hleft hleft'⟩,
    ⟨before_inOrder hmiddle, hends.1.2⟩, hends.2.2⟩

theorem pairwise_sortFour (h : Consistent less early)
    (hearly : [a, b, c, d].Pairwise early) :
    (sortFour less a b c d).Pairwise (Before less early) := by
  simp only [List.pairwise_cons, List.forall_mem_cons, List.not_mem_nil, false_implies,
    implies_true, List.Pairwise.nil, and_true] at hearly
  rcases hearly with ⟨⟨hab, hac, had⟩, ⟨hbc, hbd⟩, hcd⟩
  have hfirst : Before less early (inOrder less a b).1 (inOrder less a b).2 :=
    before_inOrder fun hless => before_of_not_less hless hab
  have hsecond : Before less early (inOrder less c d).1 (inOrder less c d).2 :=
    before_inOrder fun hless => before_of_not_less hless hcd
  have hacross : Earlier early [(inOrder less a b).1, (inOrder less a b).2]
      [(inOrder less c d).1, (inOrder less c d).2] := by
    intro x hx y hy
    rw [(perm_inOrder less a b).mem_iff] at hx
    rw [(perm_inOrder less c d).mem_iff] at hy
    simp only [List.mem_cons, List.not_mem_nil, or_false] at hx hy
    rcases hx with rfl | rfl <;> rcases hy with rfl | rfl <;> assumption
  unfold sortFour
  generalize inOrder less a b = first at hfirst hacross ⊢
  generalize inOrder less c d = second at hsecond hacross ⊢
  rcases first with ⟨a, b⟩
  rcases second with ⟨c, d⟩
  simp only [Earlier, List.forall_mem_cons, List.not_mem_nil, false_implies, implies_true,
    and_true] at hfirst hsecond hacross
  rcases hacross with ⟨⟨hac, had⟩, hbc, hbd⟩
  cases hleast : less c a <;> cases hgreatest : less d b <;> simp only [hleast, hgreatest]
  · have hac := before_of_not_less hleast hac
    have hbd := before_of_not_less hgreatest hbd
    exact pairwise_inOrder_between h hfirst hac hbd hsecond
      fun hless => before_of_not_less hless hbc
  · have hac := before_of_not_less hleast hac
    have hdb : Before less early d b := Or.inl hgreatest
    exact pairwise_inOrder_between h hac (h.before_trans hac hsecond)
      (h.before_trans hsecond hdb) hdb fun _ => hsecond
  · have hca : Before less early c a := Or.inl hleast
    have hbd := before_of_not_less hgreatest hbd
    exact pairwise_inOrder_between h hca (h.before_trans hca hfirst)
      (h.before_trans hfirst hbd) hbd fun _ => hfirst
  · have hca : Before less early c a := Or.inl hleast
    have hdb : Before less early d b := Or.inl hgreatest
    exact pairwise_inOrder_between h hca hsecond hfirst hdb
      fun hless => before_of_not_less hless had

/-!
## Halves
-/

theorem perm_sortHalf (less : item -> item -> Bool) (long : Bool) (items : List item) :
    (sortHalf less long items).Perm items := by
  unfold sortHalf
  split
  · next a b c d rest =>
      exact (perm_insertAll _ _).trans ((perm_sortFour a b c d).append_right rest)
  · exact perm_insertAll [] _

theorem pairwise_sortHalf (h : Consistent less early) (long : Bool)
    (hitems : items.Pairwise early) :
    (sortHalf less long items).Pairwise (Before less early) := by
  unfold sortHalf
  split
  · next a b c d rest =>
      have hparts : ([a, b, c, d] ++ rest).Pairwise early := hitems
      rcases List.pairwise_append.mp hparts with ⟨hfour, hrest, hacross⟩
      refine pairwise_insertAll h (pairwise_sortFour h hfour) hrest ?_
      intro x hx
      exact hacross x ((perm_sortFour a b c d).mem_iff.mp hx)
  · exact pairwise_insertAll h .nil hitems fun _ hnone => absurd hnone List.not_mem_nil

/-!
## Steps of a merge
-/

theorem mergeSteps_eq (less : item -> item -> Bool) (count : Nat) (as bs : List item) :
    exists i j, i <= as.length ∧ j <= bs.length ∧
      (mergeSteps less count as bs).left = as.drop i ∧
      (mergeSteps less count as bs).right = bs.drop j ∧
      (mergeSteps less count as bs).taken.Perm (as.take i ++ bs.take j) ∧
      (count <= as.length -> count <= bs.length -> i + j = count) := by
  fun_induction mergeSteps less count as bs with
  | case1 count a as b bs hless ih =>
      rcases ih with ⟨i, j, hi, hj, hleft, hright, htaken, hcount⟩
      refine ⟨i, j + 1, hi, by simpa using hj, hleft, hright, ?_, ?_⟩
      · exact (htaken.cons b).trans List.perm_middle.symm
      · intro has hbs
        rw [List.length_cons] at hbs
        have := hcount (by omega) (by omega)
        omega
  | case2 count a as b bs hless ih =>
      rcases ih with ⟨i, j, hi, hj, hleft, hright, htaken, hcount⟩
      refine ⟨i + 1, j, by simpa using hi, hj, hleft, hright, htaken.cons a, ?_⟩
      intro has hbs
      rw [List.length_cons] at has
      have := hcount (by omega) (by omega)
      omega
  | case3 count as bs hother =>
      refine ⟨0, 0, Nat.zero_le _, Nat.zero_le _, rfl, rfl, .refl _, ?_⟩
      intro has hbs
      cases count with
      | zero => rfl
      | succ count =>
          cases as with
          | nil => cases has
          | cons a as =>
              cases bs with
              | nil => cases hbs
              | cons b bs => exact absurd rfl (hother count a as b bs rfl rfl)

abbrev notLess (less : item -> item -> Bool) (a b : item) : Bool :=
  !less b a

theorem taken_append_merge (less : item -> item -> Bool) (count : Nat) (as bs : List item) :
    (mergeSteps less count as bs).taken ++
        (mergeSteps less count as bs).left.merge (mergeSteps less count as bs).right
          (notLess less) =
      as.merge bs (notLess less) := by
  fun_induction mergeSteps less count as bs with
  | case1 count a as b bs hless ih =>
      rw [List.cons_merge_cons, if_neg (by simp [hless])]
      exact congrArg (List.cons b) ih
  | case2 count a as b bs hless ih =>
      rw [List.cons_merge_cons, if_pos (by simp [hless])]
      exact congrArg (List.cons a) ih
  | case3 count as bs hother =>
      rfl

/-- A merge keeps an order that its comparison decides across the two lists. -/
theorem pairwise_merge_of {R : item -> item -> Prop} {le : item -> item -> Bool}
    (htrans : forall {a b c}, R a b -> R b c -> R a c) (has : as.Pairwise R)
    (hbs : bs.Pairwise R)
    (hacross : forall a, a ∈ as -> forall b, b ∈ bs ->
      (le a b = true -> R a b) ∧ (le a b = false -> R b a)) :
    (as.merge bs le).Pairwise R := by
  induction as generalizing bs with
  | nil =>
      simpa using hbs
  | cons a as ihas =>
      induction bs with
      | nil =>
          simpa using has
      | cons b bs ihbs =>
          have hown := List.pairwise_cons.mp has
          have hother := List.pairwise_cons.mp hbs
          have hfirst := hacross a List.mem_cons_self b List.mem_cons_self
          rw [List.cons_merge_cons]
          split
          · next hle =>
              refine List.pairwise_cons.mpr ⟨fun c hc => ?_, ihas hown.2 hbs fun x hx =>
                hacross x (List.mem_cons_of_mem _ hx)⟩
              rcases List.mem_append.mp ((List.merge_perm_append _).mem_iff.mp hc) with hc | hc
              · exact hown.1 c hc
              · rcases List.mem_cons.mp hc with rfl | hc
                · exact hfirst.1 hle
                · exact htrans (hfirst.1 hle) (hother.1 c hc)
          · next hle =>
              have hba := hfirst.2 (Bool.eq_false_iff.mpr hle)
              refine List.pairwise_cons.mpr ⟨fun c hc => ?_, ihbs hother.2 fun x hx y hy =>
                hacross x hx y (List.mem_cons_of_mem _ hy)⟩
              rcases List.mem_append.mp ((List.merge_perm_append _).mem_iff.mp hc) with hc | hc
              · rcases List.mem_cons.mp hc with rfl | hc
                · exact hba
                · exact htrans hba (hown.1 c hc)
              · exact hother.1 c hc

theorem pairwise_merge_front (h : Consistent less early)
    (has : as.Pairwise (Before less early)) (hbs : bs.Pairwise (Before less early))
    (hearly : Earlier early as bs) :
    (as.merge bs (notLess less)).Pairwise (Before less early) := by
  refine pairwise_merge_of h.before_trans has hbs fun a ha b hb =>
    ⟨fun hle => ?_, fun hle => ?_⟩
  · exact before_of_not_less (by simpa using hle) (hearly a ha b hb)
  · exact Or.inl (by simpa using hle)

theorem pairwise_merge_back (h : Consistent less early)
    (has : as.Pairwise (Before less early)) (hbs : bs.Pairwise (Before less early))
    (hearly : Earlier early as bs) :
    (bs.reverse.merge as.reverse fun b a => !less b a).reverse.Pairwise
      (Before less early) := by
  rw [List.pairwise_reverse]
  refine pairwise_merge_of (fun hba hcb => h.before_trans hcb hba)
    (List.pairwise_reverse.mpr hbs) (List.pairwise_reverse.mpr has)
    fun b hb a ha => ⟨fun hle => ?_, fun hle => ?_⟩
  · exact before_of_not_less (by simpa using hle)
      (hearly a (List.mem_reverse.mp ha) b (List.mem_reverse.mp hb))
  · exact Or.inl (by simpa using hle)

/-- Merging from the front and from the back is the same. -/
theorem merge_back_eq (h : Consistent less early)
    (has : as.Pairwise (Before less early)) (hbs : bs.Pairwise (Before less early))
    (hearly : Earlier early as bs) :
    (bs.reverse.merge as.reverse fun b a => !less b a).reverse =
      as.merge bs (notLess less) := by
  refine h.eq_of_perm ?_ (pairwise_merge_back h has hbs hearly)
    (pairwise_merge_front h has hbs hearly)
  refine (List.reverse_perm _).trans ((List.merge_perm_append _).trans ?_)
  exact (List.perm_append_comm.trans
    ((List.reverse_perm as).append (List.reverse_perm bs))).trans
      (List.merge_perm_append _).symm

/-!
## Merging from both ends
-/

/-- What each end takes, and when the two meet. -/
theorem mergeEnds?_eq (less : item -> item -> Bool) (hlow : as.length <= bs.length) :
    exists (front back : List item) (i j i' j' : Nat),
      i + j = as.length ∧ i' + j' = as.length ∧
      front = (mergeSteps less as.length as bs).taken ∧
      back = (mergeSteps (fun a b => less b a) as.length bs.reverse as.reverse).taken ∧
      front.Perm (as.take i ++ bs.take j) ∧
      back.reverse.Perm (as.drop (as.length - i') ++ bs.drop (bs.length - j')) ∧
      mergeEnds? less as bs =
        if i + i' = as.length then
          some (front ++ (bs.drop j).take (bs.length - as.length) ++ back.reverse)
        else if i + i' + 1 = as.length && bs.length = as.length + 1 then
          some (front ++ (as.drop i).take 1 ++ back.reverse)
        else none := by
  rcases mergeSteps_eq less as.length as bs with
    ⟨i, j, hi, hj, hleft, hright, htaken, hcount⟩
  rcases mergeSteps_eq (fun a b => less b a) as.length bs.reverse as.reverse with
    ⟨j', i', hj', hi', hleft', hright', htaken', hcount'⟩
  rw [List.length_reverse] at hj' hi' hcount'
  have hfront := hcount (Nat.le_refl _) hlow
  have hback := hcount' (by simpa using hlow) (by simp)
  refine ⟨_, _, i, j, i', j', hfront, by omega, rfl, rfl, htaken, ?_, ?_⟩
  · refine (List.reverse_perm _).trans (htaken'.trans ?_)
    rw [List.take_reverse, List.take_reverse]
    exact List.perm_append_comm.trans
      ((List.reverse_perm _).append (List.reverse_perm _))
  · simp only [mergeEnds?, hleft, hright, hright', List.length_drop, List.length_reverse]
    have htotal : as.length - (as.length - i) + (as.length - (as.length - i')) = i + i' := by
      omega
    rw [htotal]

theorem perm_mergeEnds? (hlow : as.length <= bs.length) (hhigh : bs.length <= as.length + 1)
    {sorted : List item} (h : mergeEnds? less as bs = some sorted) :
    sorted.Perm (as ++ bs) := by
  rcases mergeEnds?_eq less hlow with
    ⟨front, back, i, j, i', j', hfront, hback, _, _, htaken, htaken', heq⟩
  have hparts : forall middle,
      (as.take i ++ bs.take j ++ middle ++
        (as.drop (as.length - i') ++ bs.drop (bs.length - j'))).Perm (as ++ bs) ->
      (front ++ middle ++ back.reverse).Perm (as ++ bs) :=
    fun middle hmiddle => ((htaken.append_right middle).append htaken').trans hmiddle
  have hswap : forall as bs cs ds : List item,
      (as ++ bs ++ (cs ++ ds)).Perm (as ++ cs ++ (bs ++ ds)) := by
    intro as bs cs ds
    rw [List.append_assoc, List.append_assoc, <- List.append_assoc bs,
      <- List.append_assoc cs]
    exact (List.perm_append_comm.append_right ds).append_left as
  rw [heq] at h
  split at h
  · next hmeet =>
      cases h
      apply hparts
      rw [List.append_assoc (as.take i), <- List.take_add]
      have hleft : as.length - i' = i := by omega
      have hright : bs.length - j' = j + (bs.length - as.length) := by omega
      rw [hleft, hright]
      refine (hswap _ _ _ _).trans ?_
      rw [List.take_append_drop, List.take_append_drop]
  · split at h
    · next hmeet =>
        simp only [Bool.and_eq_true, decide_eq_true_eq] at hmeet
        cases h
        apply hparts
        have hleft : as.length - i' = i + 1 := by omega
        have hright : bs.length - j' = j := by omega
        rw [hleft, hright, List.append_assoc (as.take i)]
        refine ((List.perm_append_comm.append_left (as.take i)).append_right _).trans ?_
        rw [<- List.append_assoc (as.take i), <- List.take_add]
        refine (hswap _ _ _ _).trans ?_
        rw [List.take_append_drop, List.take_append_drop]
    · cases h

theorem countP_mem_append [DecidableEq item] (h : Consistent less early)
    (hearly : Earlier early as bs) {as' bs' : List item} (has : as' ⊆ as) (hbs : bs' ⊆ bs) :
    (as' ++ bs').countP (· ∈ as) = as'.length := by
  have hnone : bs'.countP (· ∈ as) = 0 := by
    rw [List.countP_eq_zero]
    intro b hb hmem
    have hown := hearly b (of_decide_eq_true hmem) b (hbs hb)
    exact h.early_asymm hown hown
  have hall : as'.countP (· ∈ as) = as'.length := by
    rw [List.countP_eq_length]
    exact fun a ha => decide_eq_true (has ha)
  rw [List.countP_append, hall, hnone, Nat.add_zero]

theorem exists_between {front back whole : List item} (hfirst : front <+: whole)
    (hlast : back <:+ whole) (hlength : front.length + back.length <= whole.length) :
    exists middle, whole = front ++ middle ++ back := by
  rcases hlast with ⟨start, rfl⟩
  rw [List.length_append] at hlength
  have hlonger : front <+: start :=
    List.prefix_of_prefix_length_le hfirst (List.prefix_append _ _) (by omega)
  rcases hlonger with ⟨middle, rfl⟩
  exact ⟨middle, rfl⟩

theorem eq_of_perm_of_length_le_one (hperm : as.Perm bs) (hlength : as.length <= 1) :
    as = bs := by
  cases as with
  | nil => exact (List.nil_perm.mp hperm).symm
  | cons a rest =>
      have hnil : rest = [] := List.length_eq_zero_iff.mp (by simpa using hlength)
      subst hnil
      exact List.singleton_perm.mp hperm

theorem mergeEnds?_eq_merge (h : Consistent less early)
    (has : as.Pairwise (Before less early)) (hbs : bs.Pairwise (Before less early))
    (hearly : Earlier early as bs) (hlow : as.length <= bs.length)
    (hhigh : bs.length <= as.length + 1) :
    mergeEnds? less as bs = some (as.merge bs (notLess less)) := by
  classical
  rcases mergeEnds?_eq less hlow with
    ⟨front, back, i, j, i', j', hfront, hback, hfrom, hfrom', htaken, htaken', heq⟩
  let merged := as.merge bs (notLess less)
  have hmerged : merged.Perm (as ++ bs) := List.merge_perm_append _
  have hlength : merged.length = as.length + bs.length := by
    rw [hmerged.length_eq, List.length_append]
  have hcount : front.length = as.length := by
    rw [htaken.length_eq, List.length_append, List.length_take, List.length_take]
    omega
  have hcount' : back.reverse.length = as.length := by
    rw [htaken'.length_eq, List.length_append, List.length_drop, List.length_drop]
    omega
  -- Each end has what stands at that end of the merged list.
  have hfirst : front <+: merged :=
    ⟨_, hfrom ▸ taken_append_merge less as.length as bs⟩
  have hlast : back.reverse <:+ merged := by
    have hsteps := taken_append_merge (fun a b => less b a) as.length bs.reverse as.reverse
    rw [<- hfrom'] at hsteps
    have hreverse := merge_back_eq h has hbs hearly
    rw [<- hsteps, List.reverse_append] at hreverse
    exact ⟨_, hreverse⟩
  rcases exists_between hfirst hlast (by omega) with ⟨middle, hmiddle⟩
  have hone : middle.length = bs.length - as.length := by
    have hlengths := congrArg List.length hmiddle
    rw [List.length_append, List.length_append] at hlengths
    omega
  -- All of the first list is found in the three parts.
  have hmeet : i + middle.countP (· ∈ as) + i' = as.length := by
    have hall := countP_mem_append h hearly (List.Subset.refl as) (List.Subset.refl bs)
    have hown := countP_mem_append h hearly (List.take_subset i as) (List.take_subset j bs)
    have hother := countP_mem_append h hearly (List.drop_subset (as.length - i') as)
      (List.drop_subset (bs.length - j') bs)
    rw [<- hmerged.countP_eq, hmiddle, List.countP_append, List.countP_append,
      htaken.countP_eq, htaken'.countP_eq, hown, hother, List.length_take,
      List.length_drop] at hall
    omega
  have hfew : middle.countP (· ∈ as) <= middle.length := List.countP_le_length
  have hsame : forall found sorted : List item, found.length <= 1 ->
      mergeEnds? less as bs = some sorted -> sorted = front ++ found ++ back.reverse ->
      mergeEnds? less as bs = some merged := by
    rintro found sorted hfound hsorted rfl
    have hperm := (perm_mergeEnds? hlow hhigh hsorted).trans hmerged.symm
    rw [hmiddle, List.perm_append_right_iff, List.perm_append_left_iff] at hperm
    rw [hsorted, hmiddle, eq_of_perm_of_length_le_one hperm hfound]
  rw [heq] at hsame ⊢
  by_cases hzero : i + i' = as.length
  · rw [if_pos hzero] at hsame ⊢
    exact hsame _ _ (by rw [List.length_take]; omega) rfl rfl
  · have hmore : (i + i' + 1 = as.length && bs.length = as.length + 1) = true := by
      rw [Bool.and_eq_true, decide_eq_true_eq, decide_eq_true_eq]
      omega
    rw [if_neg hzero, if_pos hmore] at hsame ⊢
    exact hsame _ _ (by rw [List.length_take]; omega) rfl rfl

/-!
## Short lists
-/

theorem length_halves (less : item -> item -> Bool) (long : Bool) (items : List item) :
    (sortHalf less long (items.take (items.length / 2))).length <=
        (sortHalf less long (items.drop (items.length / 2))).length ∧
      (sortHalf less long (items.drop (items.length / 2))).length <=
        (sortHalf less long (items.take (items.length / 2))).length + 1 := by
  rw [(perm_sortHalf less long _).length_eq, (perm_sortHalf less long _).length_eq,
    List.length_take, List.length_drop]
  omega

theorem perm_sortShort? {sorted : List item} (h : sortShort? less items = some sorted) :
    sorted.Perm items := by
  have hlengths := length_halves less (8 <= items.length) items
  refine (perm_mergeEnds? hlengths.1 hlengths.2 h).trans ?_
  refine ((perm_sortHalf _ _ _).append (perm_sortHalf _ _ _)).trans ?_
  rw [List.take_append_drop]

theorem exists_sortShort? (h : Consistent less early) (hitems : items.Pairwise early) :
    exists sorted, sortShort? less items = some sorted ∧
      sorted.Pairwise (Before less early) := by
  have hparts : (items.take (items.length / 2) ++ items.drop (items.length / 2)).Pairwise
      early := by
    rwa [List.take_append_drop]
  rcases List.pairwise_append.mp hparts with ⟨hfirst, hsecond, hacross⟩
  have hparted : Earlier early (items.take (items.length / 2))
      (items.drop (items.length / 2)) := hacross
  have hlengths := length_halves less (8 <= items.length) items
  have hsorted := pairwise_sortHalf h (8 <= items.length) hfirst
  have hsorted' := pairwise_sortHalf h (8 <= items.length) hsecond
  have hearly := hparted.mono (perm_sortHalf less (8 <= items.length) _).subset
    (perm_sortHalf less (8 <= items.length) _).subset
  exact ⟨_, mergeEnds?_eq_merge h hsorted hsorted' hearly hlengths.1 hlengths.2,
    pairwise_merge_front h hsorted hsorted' hearly⟩

end Sorting
end DocumentMapper
