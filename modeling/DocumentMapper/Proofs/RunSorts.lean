import DocumentMapper.Proofs.ShortSorts
import DocumentMapper.Sorting.Runs

/-!
# Sorted runs

Cutting a list into runs loses nothing, and each run is in order or is left to another sort.
Joining neighbours keeps this up, whichever are joined first.
-/

namespace DocumentMapper
namespace Sorting

variable {item : Type} {less : item -> item -> Bool} {early : item -> item -> Prop}

def Permutes (sort? : List item -> Option (List item)) : Prop :=
  forall items sorted, sort? items = some sorted -> sorted.Perm items

def Sorts (less : item -> item -> Bool) (early : item -> item -> Prop)
    (sort? : List item -> Option (List item)) : Prop :=
  forall items, items.Pairwise early -> exists sorted, sort? items = some sorted ∧
    sorted.Pairwise (Before less early)

theorem permutes_some : Permutes (some : List item -> Option (List item)) := by
  rintro items _ ⟨⟩
  exact .refl _

/-!
## Pieces
-/

theorem exists_firstPiece (less : item -> item -> Bool) (wanted otherwise : Nat) (a : item)
    (rest : List item) :
    exists count, (firstPiece less wanted otherwise a rest).items = a :: rest.take count := by
  unfold firstPiece
  dsimp only
  split
  · exact ⟨_, rfl⟩
  · split <;> exact ⟨_, rfl⟩

theorem flatMap_cut (less : item -> item -> Bool) (wanted otherwise : Nat)
    (items : List item) :
    (cut less wanted otherwise items).flatMap Piece.items = items := by
  fun_induction cut less wanted otherwise items with
  | case1 =>
      rfl
  | case2 a rest piece ih =>
      rcases exists_firstPiece less wanted otherwise a rest with ⟨count, hitems⟩
      have hpiece : piece.items = a :: rest.take count := hitems
      rw [List.flatMap_cons, ih, hpiece, List.cons_append, List.length_cons,
        Nat.add_sub_cancel, List.length_take]
      congr 1
      rcases Nat.le_total count rest.length with hfew | hmany
      · rw [Nat.min_eq_left hfew, List.take_append_drop]
      · rw [Nat.min_eq_right hmany, List.take_of_length_le hmany, List.drop_length,
          List.append_nil]

def Piece.Sound (less : item -> item -> Bool) (early : item -> item -> Prop)
    (piece : Piece item) : Prop :=
  match piece.course with
  | .rising => piece.items.Pairwise (Before less early)
  | .falling => piece.items.reverse.Pairwise (Before less early)
  | .mixed => piece.items.Pairwise early

theorem pairwise_rising (h : Consistent less early) {a : item} {rest : List item}
    (hitems : (a :: rest).Pairwise early) :
    (a :: rest.take (rising less a rest)).Pairwise (Before less early) := by
  induction rest generalizing a with
  | nil =>
      exact List.pairwise_singleton _ a
  | cons b rest ih =>
      have hparts := List.pairwise_cons.mp hitems
      rw [rising]
      split
      · exact List.pairwise_singleton _ a
      · next hless =>
          have hrest := ih hparts.2
          have hstep : Before less early a b :=
            before_of_not_less (Bool.eq_false_iff.mpr hless)
              (hparts.1 b List.mem_cons_self)
          refine List.pairwise_cons.mpr ⟨fun c hc => ?_, hrest⟩
          rcases List.mem_cons.mp hc with rfl | hc
          · exact hstep
          · exact h.before_trans hstep ((List.pairwise_cons.mp hrest).1 c hc)

theorem pairwise_falling (h : Consistent less early) (a : item) (rest : List item) :
    (a :: rest.take (falling less a rest)).reverse.Pairwise (Before less early) := by
  rw [List.pairwise_reverse]
  induction rest generalizing a with
  | nil =>
      exact List.pairwise_singleton _ a
  | cons b rest ih =>
      rw [falling]
      split
      · next hless =>
          have hstep : Before less early b a := Or.inl hless
          refine List.pairwise_cons.mpr ⟨fun c hc => ?_, ih b⟩
          rcases List.mem_cons.mp hc with rfl | hc
          · exact hstep
          · exact h.before_trans ((List.pairwise_cons.mp (ih b)).1 c hc) hstep
      · exact List.pairwise_singleton _ a

theorem sound_firstPiece (h : Consistent less early) (wanted otherwise : Nat) {a : item}
    {rest : List item} (hitems : (a :: rest).Pairwise early) :
    (firstPiece less wanted otherwise a rest).Sound less early := by
  unfold firstPiece
  dsimp only
  split
  · exact pairwise_falling h a rest
  · split
    · exact pairwise_rising h hitems
    · exact hitems.sublist ((List.take_sublist _ rest).cons_cons a)

theorem sound_cut (h : Consistent less early) (wanted otherwise : Nat) {items : List item}
    (hitems : items.Pairwise early) :
    forall piece, piece ∈ cut less wanted otherwise items -> piece.Sound less early := by
  fun_induction cut less wanted otherwise items with
  | case1 =>
      exact fun _ hnone => absurd hnone List.not_mem_nil
  | case2 a rest piece ih =>
      rw [List.forall_mem_cons]
      refine ⟨sound_firstPiece h wanted otherwise hitems, ih ?_⟩
      exact (List.pairwise_cons.mp hitems).2.sublist (List.drop_sublist _ _)

theorem pairwise_cut (wanted otherwise : Nat) {items : List item}
    (hitems : items.Pairwise early) :
    (cut less wanted otherwise items).Pairwise fun first later =>
      Earlier early first.items later.items := by
  rw [<- flatMap_cut less wanted otherwise items, List.pairwise_flatMap] at hitems
  exact hitems.2

/-!
## Runs
-/

/-- A run is in order, or holds items as they stood, which can still be sorted. -/
structure Run.Sound (less : item -> item -> Bool) (early : item -> item -> Prop)
    (sort? : List item -> Option (List item)) (run : Run item) : Prop where
  sorted : run.sorted = true -> run.items.Pairwise (Before less early)
  unsorted : run.sorted = false -> run.items.Pairwise early ∧ Sorts less early sort?

variable {sort? : List item -> Option (List item)}

theorem Run.Sound.of_sorted {items : List item} (h : items.Pairwise (Before less early)) :
    Run.Sound less early sort? { items := items, sorted := true } where
  sorted _ := h
  unsorted hunsorted := by cases hunsorted

theorem Run.Sound.of_unsorted {items : List item} (h : items.Pairwise early)
    (hsort : Sorts less early sort?) :
    Run.Sound less early sort? { items := items, sorted := false } where
  sorted hsorted := by cases hsorted
  unsorted _ := ⟨h, hsort⟩

theorem perm_run? {eager : Bool} {piece : Piece item} {run : Run item}
    (h : piece.run? less eager = some run) : run.items.Perm piece.items := by
  unfold Piece.run? at h
  split at h
  · cases h
    exact .refl _
  · cases h
    exact List.reverse_perm _
  · split at h
    · rcases Option.map_eq_some_iff.mp h with ⟨items, hitems, rfl⟩
      exact perm_sortShort? hitems
    · cases h
      exact .refl _

theorem Piece.Sound.run? {piece : Piece item} (hpiece : piece.Sound less early)
    (h : Consistent less early) {eager : Bool}
    (hsort : eager = false -> Sorts less early sort?) :
    exists run, piece.run? less eager = some run ∧ run.Sound less early sort? := by
  unfold Piece.Sound at hpiece
  unfold Piece.run?
  cases hcourse : piece.course with
  | rising =>
      rw [hcourse] at hpiece
      exact ⟨_, rfl, .of_sorted hpiece⟩
  | falling =>
      rw [hcourse] at hpiece
      exact ⟨_, rfl, .of_sorted hpiece⟩
  | mixed =>
      rw [hcourse] at hpiece
      cases eager with
      | true =>
          rcases exists_sortShort? h hpiece with ⟨sorted, hsorted, hordered⟩
          exact ⟨{ items := sorted, sorted := true }, by simp [hsorted], .of_sorted hordered⟩
      | false =>
          exact ⟨_, rfl, .of_unsorted hpiece (hsort rfl)⟩

theorem perm_runs {eager : Bool} {pieces : List (Piece item)} {runs : List (Run item)}
    (h : pieces.mapM (Piece.run? less eager) = some runs) :
    (runs.flatMap Run.items).Perm (pieces.flatMap Piece.items) := by
  induction pieces generalizing runs with
  | nil =>
      cases h
      exact .refl _
  | cons piece rest ih =>
      simp only [List.mapM_cons, Option.bind_eq_bind, Option.bind_eq_some_iff] at h
      rcases h with ⟨run, hrun, others, hothers, hend⟩
      cases hend
      exact (perm_run? hrun).append (ih hothers)

theorem exists_runs (h : Consistent less early) {eager : Bool}
    (hsort : eager = false -> Sorts less early sort?) {pieces : List (Piece item)}
    (hpieces : forall piece, piece ∈ pieces -> piece.Sound less early)
    (hearly : pieces.Pairwise fun first later => Earlier early first.items later.items) :
    exists runs, pieces.mapM (Piece.run? less eager) = some runs ∧
      (forall run, run ∈ runs -> run.Sound less early sort?) ∧
      runs.Pairwise fun first later => Earlier early first.items later.items := by
  induction pieces with
  | nil =>
      exact ⟨[], rfl, fun _ hnone => absurd hnone List.not_mem_nil, .nil⟩
  | cons piece rest ih =>
      rw [List.forall_mem_cons] at hpieces
      have hparts := List.pairwise_cons.mp hearly
      rcases hpieces.1.run? h hsort with ⟨run, hrun, hsound⟩
      rcases ih hpieces.2 hparts.2 with ⟨runs, hruns, hall, hordered⟩
      refine ⟨run :: runs, ?_, List.forall_mem_cons.mpr ⟨hsound, hall⟩,
        List.pairwise_cons.mpr ⟨fun later hlater a ha b hb => ?_, hordered⟩⟩
      · simp [List.mapM_cons, hrun, hruns]
      · have hmem := (perm_runs hruns).subset (List.mem_flatMap.mpr ⟨later, hlater, hb⟩)
        rcases List.mem_flatMap.mp hmem with ⟨other, hother, hb⟩
        exact hparts.1 other hother a ((perm_run? hrun).subset ha) b hb

/-!
## Joining
-/

theorem perm_mergeRuns (as bs : List item) : (mergeRuns less as bs).Perm (as ++ bs) := by
  unfold mergeRuns
  split
  · exact List.merge_perm_append _
  · refine (List.reverse_perm _).trans ((List.merge_perm_append _).trans ?_)
    exact List.perm_append_comm.trans
      ((List.reverse_perm as).append (List.reverse_perm bs))

theorem pairwise_mergeRuns (h : Consistent less early) {as bs : List item}
    (has : as.Pairwise (Before less early)) (hbs : bs.Pairwise (Before less early))
    (hearly : Earlier early as bs) :
    (mergeRuns less as bs).Pairwise (Before less early) := by
  unfold mergeRuns
  split
  · exact pairwise_merge_front h has hbs hearly
  · exact pairwise_merge_back h has hbs hearly

theorem perm_settle? (hsort : Permutes sort?) {run : Run item} {sorted : List item}
    (h : run.settle? sort? = some sorted) : sorted.Perm run.items := by
  unfold Run.settle? at h
  split at h
  · cases h
    exact .refl _
  · exact hsort _ _ h

theorem Run.Sound.settle? {run : Run item} (hrun : run.Sound less early sort?) :
    exists sorted, run.settle? sort? = some sorted ∧
      sorted.Pairwise (Before less early) := by
  unfold Run.settle?
  cases hsorted : run.sorted with
  | true => exact ⟨_, rfl, hrun.sorted hsorted⟩
  | false =>
      rcases hrun.unsorted hsorted with ⟨hitems, hsort⟩
      exact hsort _ hitems

theorem perm_join? (hsort : Permutes sort?) {room : Nat} {left right joined : Run item}
    (h : left.join? less sort? room right = some joined) :
    joined.items.Perm (left.items ++ right.items) := by
  unfold Run.join? at h
  split at h
  · simp only [Option.bind_eq_bind, Option.bind_eq_some_iff] at h
    rcases h with ⟨as, has, bs, hbs, hend⟩
    cases hend
    exact (perm_mergeRuns as bs).trans
      ((perm_settle? hsort has).append (perm_settle? hsort hbs))
  · cases h
    exact .refl _

theorem Run.Sound.join? (h : Consistent less early) (hperm : Permutes sort?) (room : Nat)
    {left right : Run item} (hleft : left.Sound less early sort?)
    (hright : right.Sound less early sort?)
    (hearly : Earlier early left.items right.items) :
    exists joined, left.join? less sort? room right = some joined ∧
      joined.Sound less early sort? := by
  unfold Run.join?
  split
  · rcases hleft.settle? with ⟨as, has, hordered⟩
    rcases hright.settle? with ⟨bs, hbs, hordered'⟩
    refine ⟨{ items := mergeRuns less as bs, sorted := true }, by simp [has, hbs],
      .of_sorted ?_⟩
    exact pairwise_mergeRuns h hordered hordered'
      (hearly.mono (perm_settle? hperm has).subset (perm_settle? hperm hbs).subset)
  · next hneither =>
      simp only [Bool.or_eq_true, decide_eq_true_eq, not_or, Bool.not_eq_true] at hneither
      rcases hleft.unsorted hneither.1.1 with ⟨hitems, hsort⟩
      rcases hright.unsorted hneither.1.2 with ⟨hitems', _⟩
      exact ⟨_, rfl,
        .of_unsorted (List.pairwise_append.mpr ⟨hitems, hitems', hearly⟩) hsort⟩

def content : List (Run item) -> List item
  | [] => []
  | run :: before => content before ++ run.items

theorem mem_content {runs : List (Run item)} {a : item} :
    a ∈ content runs <-> exists run, run ∈ runs ∧ a ∈ run.items := by
  induction runs with
  | nil => simp [content]
  | cons run before ih => simp [content, ih, or_comm]

/-- Runs that stand with the last one first, each of them sound. -/
structure Line (less : item -> item -> Bool) (early : item -> item -> Prop)
    (sort? : List item -> Option (List item)) (runs : List (Run item)) : Prop where
  sound : forall run, run ∈ runs -> run.Sound less early sort?
  ordered : runs.Pairwise fun later first => Earlier early first.items later.items

theorem perm_collapse? (hsort : Permutes sort?) {room level : Nat}
    {stack stack' : List (Run item × Nat)} {last joined : Run item}
    (h : collapse? less sort? room level stack last = some (stack', joined)) :
    (content (joined :: stack'.map Prod.fst)).Perm
      (content (last :: stack.map Prod.fst)) := by
  induction stack generalizing last with
  | nil =>
      cases h
      exact .refl _
  | cons entry rest ih =>
      rcases entry with ⟨left, below⟩
      rw [collapse?] at h
      split at h
      · simp only [Option.bind_eq_bind, Option.bind_eq_some_iff] at h
        rcases h with ⟨both, hboth, hrest⟩
        refine (ih hrest).trans ?_
        simp only [List.map_cons, content, List.append_assoc]
        exact (perm_join? hsort hboth).append_left _
      · cases h
        exact .refl _

/-- At the root of the tree nothing is left on the stack. -/
theorem collapse?_root {room : Nat} {stack stack' : List (Run item × Nat)}
    {last joined : Run item}
    (h : collapse? less sort? room 0 stack last = some (stack', joined)) : stack' = [] := by
  induction stack generalizing last with
  | nil =>
      cases h
      rfl
  | cons entry rest ih =>
      rcases entry with ⟨left, below⟩
      rw [collapse?, if_pos (Nat.zero_le _)] at h
      simp only [Option.bind_eq_bind, Option.bind_eq_some_iff] at h
      rcases h with ⟨both, _, hrest⟩
      exact ih hrest

theorem Line.collapse? (h : Consistent less early) (hperm : Permutes sort?)
    (room level : Nat) {stack : List (Run item × Nat)} {last : Run item}
    (hline : Line less early sort? (last :: stack.map Prod.fst)) :
    exists stack' joined,
      collapse? less sort? room level stack last = some (stack', joined) ∧
        Line less early sort? (joined :: stack'.map Prod.fst) := by
  induction stack generalizing last with
  | nil =>
      exact ⟨[], last, rfl, hline⟩
  | cons entry rest ih =>
      rcases entry with ⟨left, below⟩
      rw [Sorting.collapse?]
      split
      · have hsound := hline.sound
        simp only [List.map_cons, List.forall_mem_cons] at hsound
        rcases List.pairwise_cons.mp hline.ordered with ⟨hlast, hrest⟩
        rcases List.pairwise_cons.mp hrest with ⟨hleft, hbefore⟩
        rcases Run.Sound.join? h hperm room hsound.2.1 hsound.1
          (hlast left List.mem_cons_self) with ⟨both, hboth, hjoined⟩
        rw [hboth]
        refine ih ⟨List.forall_mem_cons.mpr ⟨hjoined, hsound.2.2⟩,
          List.pairwise_cons.mpr ⟨fun first hfirst a ha b hb => ?_, hbefore⟩⟩
        rcases List.mem_append.mp ((perm_join? hperm hboth).subset hb) with hb | hb
        · exact hleft first hfirst a ha b hb
        · exact hlast first (List.mem_cons_of_mem _ hfirst) a ha b hb
      · exact ⟨_, _, rfl, hline⟩

theorem perm_joinAll? (hsort : Permutes sort?) {length room : Nat}
    {stack : List (Run item × Nat)} {last joined : Run item} {place : Nat}
    {rest : List (Run item)}
    (h : joinAll? less sort? length room stack last place rest = some joined) :
    joined.items.Perm
      (content (last :: stack.map Prod.fst) ++ rest.flatMap Run.items) := by
  induction rest generalizing stack last place with
  | nil =>
      simp only [joinAll?, Option.bind_eq_bind, Option.bind_eq_some_iff] at h
      rcases h with ⟨⟨stack', all⟩, hall, hend⟩
      cases hend
      have hcontent := perm_collapse? hsort hall
      have hempty := collapse?_root hall
      subst hempty
      simpa [content] using hcontent
  | cons next rest ih =>
      simp only [joinAll?, Option.bind_eq_bind, Option.bind_eq_some_iff] at h
      rcases h with ⟨⟨stack', both⟩, hboth, hrest⟩
      refine (ih hrest).trans ?_
      rw [List.map_cons, content, List.append_assoc, List.flatMap_cons]
      exact (perm_collapse? hsort hboth).append_right _

theorem Line.joinAll? (h : Consistent less early) (hperm : Permutes sort?)
    (length room : Nat) {stack : List (Run item × Nat)} {last : Run item} (place : Nat)
    {rest : List (Run item)} (hline : Line less early sort? (last :: stack.map Prod.fst))
    (hsound : forall run, run ∈ rest -> run.Sound less early sort?)
    (hordered : rest.Pairwise fun first later => Earlier early first.items later.items)
    (hearly : forall run, run ∈ rest ->
      Earlier early (content (last :: stack.map Prod.fst)) run.items) :
    exists joined,
      joinAll? less sort? length room stack last place rest = some joined ∧
        joined.Sound less early sort? := by
  induction rest generalizing stack last place with
  | nil =>
      rcases hline.collapse? h hperm room 0 with ⟨stack', joined, hjoined, hleft⟩
      exact ⟨joined, by simp [Sorting.joinAll?, hjoined],
        hleft.sound joined List.mem_cons_self⟩
  | cons next rest ih =>
      rw [List.forall_mem_cons] at hsound hearly
      have hparts := List.pairwise_cons.mp hordered
      rcases hline.collapse? h hperm room
        (depth length (place - last.items.length) place (place + next.items.length)) with
        ⟨stack', joined, hjoined, hleft⟩
      have hsame := perm_collapse? hperm hjoined
      simp only [Sorting.joinAll?, hjoined, Option.bind_eq_bind, Option.bind_some]
      refine ih _ ⟨?_, ?_⟩ hsound.2 hparts.2 ?_
      · exact List.forall_mem_cons.mpr ⟨hsound.1, hleft.sound⟩
      · refine List.pairwise_cons.mpr ⟨fun first hfirst a ha => ?_, hleft.ordered⟩
        exact hearly.1 a (hsame.subset (mem_content.mpr ⟨first, hfirst, ha⟩))
      · intro run hrun a ha b hb
        rcases List.mem_append.mp ha with ha | ha
        · exact hearly.2 run hrun a (hsame.subset ha) b hb
        · exact hparts.1 run hrun a ha b hb

/-!
## Sorting by runs
-/

theorem permutes_sortByRuns? (hsort : Permutes sort?) (eager : Bool) (room : Nat) :
    Permutes (sortByRuns? less eager sort? room) := by
  intro items sorted h
  unfold sortByRuns? at h
  simp only [Option.bind_eq_bind, Option.bind_eq_some_iff] at h
  rcases h with ⟨runs, hruns, hjoin⟩
  have hall := perm_runs hruns
  rw [flatMap_cut] at hall
  cases runs with
  | nil =>
      cases hjoin
      exact hall
  | cons first rest =>
      simp only [Option.bind_eq_some_iff] at hjoin
      rcases hjoin with ⟨joined, hjoined, hsettled⟩
      exact (perm_settle? hsort hsettled).trans ((perm_joinAll? hsort hjoined).trans hall)

theorem sorts_sortByRuns? (h : Consistent less early) (hperm : Permutes sort?) (eager : Bool)
    (hsort : eager = false -> Sorts less early sort?) (room : Nat) :
    Sorts less early (sortByRuns? less eager sort? room) := by
  intro items hitems
  unfold sortByRuns?
  dsimp only
  generalize (if eager = true then shortLength else wantedLength items.length) = otherwise
  rcases exists_runs h hsort (sound_cut h (wantedLength items.length) otherwise hitems)
    (pairwise_cut _ _ hitems) with ⟨runs, hruns, hsound, hordered⟩
  rw [hruns]
  cases runs with
  | nil =>
      exact ⟨[], rfl, .nil⟩
  | cons first rest =>
      rw [List.forall_mem_cons] at hsound
      have hparts := List.pairwise_cons.mp hordered
      have hline : Line less early sort?
          (first :: ([] : List (Run item × Nat)).map Prod.fst) :=
        ⟨by simpa using hsound.1, List.pairwise_singleton _ first⟩
      rcases hline.joinAll? h hperm items.length room first.items.length
        hsound.2 hparts.2 (by simpa [content] using hparts.1) with ⟨joined, hjoined, hrun⟩
      rcases hrun.settle? with ⟨sorted, hsettled, hbefore⟩
      exact ⟨sorted, by simp [hjoined, hsettled], hbefore⟩

end Sorting
end DocumentMapper
