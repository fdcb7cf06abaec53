import Mathlib.Data.List.Nodup
import Mathlib.Order.Defs.Unbundled
import DocumentMapper.Ordered

/-!
# Entries of keyed lists and ordered maps

A key that is read is the key of an entry, and where keys occur once the entry is
determined.  An ordered map is moreover determined by what it maps.
-/

namespace DocumentMapper
namespace Keyed

variable {key item : Type} [DecidableEq key]

theorem mem_of_get? {entries : List (key × item)} {k : key} {a : item}
    (h : get? entries k = some a) : (k, a) ∈ entries := by
  induction entries with
  | nil =>
      cases h
  | cons entry rest ih =>
      obtain ⟨j, b⟩ := entry
      rw [get?_cons] at h
      by_cases hj : j = k
      · rw [if_pos hj] at h
        cases h
        rw [hj]
        exact List.mem_cons_self
      · rw [if_neg hj] at h
        exact List.mem_cons_of_mem _ (ih h)

theorem get?_eq_none_iff {entries : List (key × item)} {k : key} :
    get? entries k = none <-> k ∉ keys entries := by
  induction entries with
  | nil =>
      simp [keys]
  | cons entry rest ih =>
      obtain ⟨j, b⟩ := entry
      rw [get?_cons]
      by_cases hj : j = k
      · simp [hj, keys]
      · rw [if_neg hj, ih]
        simp [keys, Ne.symm hj]

theorem contains_iff {entries : List (key × item)} {k : key} :
    contains entries k = true <-> exists a, get? entries k = some a :=
  Option.isSome_iff_exists

theorem not_contains_iff {entries : List (key × item)} {k : key} :
    ¬ contains entries k = true <-> get? entries k = none := by
  simp [contains]

theorem mem_keys_iff {entries : List (key × item)} {k : key} :
    k ∈ keys entries <-> (get? entries k).isSome = true := by
  rw [<- not_iff_not, <- get?_eq_none_iff, Bool.not_eq_true, Option.isSome_eq_false_iff,
    Option.isNone_iff_eq_none]

theorem mem_keys_erase {entries : List (key × item)} {removed k : key} :
    k ∈ keys (erase entries removed) <-> removed ≠ k ∧ k ∈ keys entries := by
  rw [mem_keys_iff, mem_keys_iff, get?_erase]
  split <;> simp_all

theorem contains_of_insert {entries : List (key × item)} {written wanted : key}
    {a : item} (hpresent : contains entries written = true)
    (h : contains (insert entries written a) wanted = true) :
    contains entries wanted = true := by
  rw [contains, get?_insert] at h
  split at h
  · next heq =>
      rw [<- heq]
      exact hpresent
  · exact h

theorem contains_of_erase {entries : List (key × item)} {removed wanted : key}
    (h : contains (erase entries removed) wanted = true) :
    contains entries wanted = true := by
  rw [contains, get?_erase] at h
  split at h
  · cases h
  · exact h

omit [DecidableEq key] in
theorem mem_keys_of_mem {entries : List (key × item)} {k : key} {a : item}
    (h : (k, a) ∈ entries) : k ∈ keys entries :=
  List.mem_map.mpr ⟨(k, a), h, rfl⟩

theorem get?_of_mem {entries : List (key × item)} {k : key} {a : item}
    (hnodup : (keys entries).Nodup) (h : (k, a) ∈ entries) :
    get? entries k = some a := by
  induction entries with
  | nil =>
      cases h
  | cons entry rest ih =>
      obtain ⟨j, b⟩ := entry
      have hcons : j ∉ keys rest ∧ (keys rest).Nodup := List.nodup_cons.mp hnodup
      rw [get?_cons]
      cases List.mem_cons.mp h with
      | inl heq =>
          cases heq
          rw [if_pos rfl]
      | inr hrest =>
          have hj : j ≠ k := by
            intro heq
            exact hcons.1 (heq ▸ mem_keys_of_mem hrest)
          rw [if_neg hj]
          exact ih hcons.2 hrest

theorem eq_of_mem {entries : List (key × item)} {k : key} {a b : item}
    (hnodup : (keys entries).Nodup) (ha : (k, a) ∈ entries)
    (hb : (k, b) ∈ entries) : a = b := by
  have hsame := get?_of_mem hnodup ha
  rw [get?_of_mem hnodup hb] at hsame
  exact (Option.some.inj hsame).symm

theorem mem_of_mem_erase {entries : List (key × item)} {removed : key}
    {entry : key × item} (h : entry ∈ erase entries removed) : entry ∈ entries :=
  (List.mem_filter.mp h).1

theorem mem_of_mem_insert {entries : List (key × item)} {written : key}
    {a : item} {entry : key × item} (h : entry ∈ insert entries written a) :
    entry = (written, a) ∨ entry ∈ entries := by
  induction entries with
  | nil =>
      exact Or.inl (List.mem_singleton.mp h)
  | cons head rest ih =>
      obtain ⟨j, b⟩ := head
      unfold insert at h
      split at h
      · next hj =>
          rw [hj] at h
          cases List.mem_cons.mp h with
          | inl heq => exact Or.inl heq
          | inr hrest => exact Or.inr (List.mem_cons_of_mem _ hrest)
      · cases List.mem_cons.mp h with
        | inl heq => exact Or.inr (heq ▸ List.mem_cons_self)
        | inr hrest =>
            cases ih hrest with
            | inl heq => exact Or.inl heq
            | inr hin => exact Or.inr (List.mem_cons_of_mem _ hin)

theorem insert_of_get? {entries : List (key × item)} {written : key} {a : item}
    (h : get? entries written = some a) : insert entries written a = entries := by
  induction entries with
  | nil =>
      cases h
  | cons entry rest ih =>
      obtain ⟨j, b⟩ := entry
      rw [get?_cons] at h
      by_cases hj : j = written
      · rw [if_pos hj] at h
        cases h
        rw [insert, if_pos hj]
      · rw [if_neg hj] at h
        rw [insert, if_neg hj, ih h]

theorem erase_of_absent {entries : List (key × item)} {removed : key}
    (h : get? entries removed = none) : erase entries removed = entries := by
  have habsent := get?_eq_none_iff.mp h
  refine List.filter_eq_self.mpr fun entry hentry => decide_eq_true ?_
  rintro rfl
  exact habsent (List.mem_map_of_mem hentry)

theorem insert_of_fresh {entries : List (key × item)} {written : key} {a : item}
    (h : written ∉ keys entries) :
    insert entries written a = entries ++ [(written, a)] := by
  induction entries with
  | nil =>
      rfl
  | cons entry rest ih =>
      obtain ⟨j, b⟩ := entry
      have hboth : written ≠ j ∧ written ∉ keys rest := by
        simpa [keys] using h
      rw [insert, if_neg hboth.1.symm, ih hboth.2, List.cons_append]

theorem insert_append_of_fresh {front : List (key × item)} {written : key}
    (h : written ∉ keys front) (back : List (key × item)) (a : item) :
    insert (front ++ back) written a = front ++ insert back written a := by
  induction front with
  | nil =>
      rfl
  | cons entry rest ih =>
      obtain ⟨j, b⟩ := entry
      have hboth : written ≠ j ∧ written ∉ keys rest := by
        simpa [keys] using h
      rw [List.cons_append, insert, if_neg hboth.1.symm, ih hboth.2,
        List.cons_append]

theorem map_insert {other : Type} (f : item -> other) (entries : List (key × item))
    (written : key) (a : item) :
    (insert entries written a).map (fun entry => (entry.1, f entry.2)) =
      insert (entries.map fun entry => (entry.1, f entry.2)) written (f a) := by
  induction entries with
  | nil =>
      rfl
  | cons entry rest ih =>
      obtain ⟨j, b⟩ := entry
      rw [insert, List.map_cons, insert]
      split
      · rfl
      · rw [List.map_cons, ih]

theorem keys_insert_of_mem {entries : List (key × item)} {written : key}
    (h : written ∈ keys entries) (a : item) :
    keys (insert entries written a) = keys entries := by
  induction entries with
  | nil =>
      cases h
  | cons entry rest ih =>
      obtain ⟨j, b⟩ := entry
      by_cases hj : j = written
      · rw [insert, if_pos hj]
        rfl
      · have hrest : written ∈ keys rest := by
          simpa [keys, Ne.symm hj] using h
        rw [insert, if_neg hj]
        exact congrArg (j :: ·) (ih hrest)

omit [DecidableEq key] in
theorem keys_append (front back : List (key × item)) :
    keys (front ++ back) = keys front ++ keys back :=
  List.map_append

theorem get?_append (front back : List (key × item)) (wanted : key) :
    get? (front ++ back) wanted = (get? front wanted).or (get? back wanted) := by
  induction front with
  | nil =>
      simp
  | cons entry rest ih =>
      rcases entry with ⟨j, b⟩
      rw [List.cons_append, get?_cons, get?_cons, ih]
      split <;> rfl

theorem contains_of_mem_keys {entries : List (key × item)} {k : key}
    (h : k ∈ keys entries) : contains entries k = true := by
  by_contra hnone
  exact get?_eq_none_iff.mp (not_contains_iff.mp hnone) h

omit [DecidableEq key] in
/-- Leaving out the entries behind by their keys gives back those in front. -/
theorem filter_append_eq_front (keeps : key -> Bool)
    {front back : List (key × item)}
    (hfront : forall k, k ∈ keys front -> keeps k = true)
    (hback : forall k, k ∈ keys back -> keeps k = false) :
    (front ++ back).filter (fun entry => keeps entry.1) = front := by
  have hkept : front.filter (fun entry => keeps entry.1) = front :=
    List.filter_eq_self.mpr fun entry hentry =>
      hfront entry.1 (List.mem_map_of_mem hentry)
  have hdropped : back.filter (fun entry => keeps entry.1) = [] := by
    rw [List.filter_eq_nil_iff]
    intro entry hentry
    simp [hback entry.1 (List.mem_map_of_mem hentry)]
  rw [List.filter_append, hkept, hdropped, List.append_nil]

theorem get?_filter (keeps : key -> Bool) (entries : List (key × item))
    (wanted : key) :
    get? (entries.filter fun entry => keeps entry.1) wanted =
      if keeps wanted then get? entries wanted else none := by
  induction entries with
  | nil =>
      simp
  | cons entry rest ih =>
      obtain ⟨j, b⟩ := entry
      rw [List.filter_cons]
      by_cases hj : keeps j = true
      · by_cases hw : j = wanted
        · subst hw
          simp [get?_cons, hj]
        · simp [get?_cons, hj, hw, ih]
      · by_cases hw : j = wanted
        · subst hw
          simp [hj, ih]
        · simp [get?_cons, hj, hw, ih]

theorem filter_insert (keeps : key -> Bool) (entries : List (key × item))
    (written : key) (a : item) :
    (insert entries written a).filter (fun entry => keeps entry.1) =
      if keeps written then
        insert (entries.filter fun entry => keeps entry.1) written a
      else
        entries.filter fun entry => keeps entry.1 := by
  induction entries with
  | nil =>
      cases hw : keeps written <;> simp [insert, hw]
  | cons entry rest ih =>
      obtain ⟨j, b⟩ := entry
      by_cases hj : j = written
      · subst hj
        cases hw : keeps j <;> simp [insert, hw]
      · rw [insert, if_neg hj, List.filter_cons, List.filter_cons, ih]
        cases hw : keeps written <;> cases keeps j <;> simp [insert, hj]

theorem filter_ofList (keeps : key -> Bool) (entries : List (key × item)) :
    (ofList entries).filter (fun entry => keeps entry.1) =
      ofList (entries.filter fun entry => keeps entry.1) := by
  have hfold : forall (rest written : List (key × item)),
      (rest.foldl (fun written entry => insert written entry.1 entry.2)
          written).filter (fun entry => keeps entry.1) =
        (rest.filter fun entry => keeps entry.1).foldl
          (fun written entry => insert written entry.1 entry.2)
          (written.filter fun entry => keeps entry.1) := by
    intro rest
    induction rest with
    | nil =>
        intro written
        rfl
    | cons entry rest ih =>
        intro written
        rw [List.foldl_cons, ih, filter_insert, List.filter_cons]
        cases keeps entry.1 <;> simp
  exact hfold entries []

theorem nodup_keys_ofList (entries : List (key × item)) :
    (keys (ofList entries)).Nodup := by
  have hfold : forall (rest written : List (key × item)),
      (keys written).Nodup ->
        (keys (rest.foldl (fun written entry => insert written entry.1 entry.2)
          written)).Nodup := by
    intro rest
    induction rest with
    | nil =>
        intro written hnodup
        exact hnodup
    | cons entry rest ih =>
        intro written hnodup
        exact ih _ (nodup_keys_insert entry.1 entry.2 hnodup)
  exact hfold entries [] List.nodup_nil

theorem ofList_of_nodup {entries : List (key × item)}
    (h : (keys entries).Nodup) : ofList entries = entries := by
  have hfold : forall (rest written : List (key × item)),
      (keys (written ++ rest)).Nodup ->
        rest.foldl (fun written entry => insert written entry.1 entry.2) written =
          written ++ rest := by
    intro rest
    induction rest with
    | nil =>
        intro written _
        simp
    | cons entry rest ih =>
        intro written hnodup
        have hkeys : (keys written ++ entry.1 :: keys rest).Nodup := by
          simpa [keys] using hnodup
        have hfresh : entry.1 ∉ keys written := by
          intro hmem
          exact List.disjoint_of_nodup_append hkeys hmem List.mem_cons_self
        have hagain : (keys ((written ++ [entry]) ++ rest)).Nodup := by
          simpa [keys] using hnodup
        rw [List.foldl_cons, insert_of_fresh hfresh, ih _ hagain]
        simp
  exact hfold entries [] h

end Keyed

/-!
## Ordered maps
-/

namespace Ordered

variable {key item : Type} [LT key] [DecidableLT key] [DecidableEq key]

def Sorted (entries : List (key × item)) : Prop :=
  entries.Pairwise fun a b => a.1 < b.1

theorem mem_of_mem_insert {entries : List (key × item)} {written : key}
    {a : item} {entry : key × item} (h : entry ∈ insert entries written a) :
    entry = (written, a) ∨ entry ∈ entries := by
  induction entries with
  | nil =>
      exact Or.inl (List.mem_singleton.mp h)
  | cons head rest ih =>
      obtain ⟨j, b⟩ := head
      unfold insert at h
      split at h
      · exact List.mem_cons.mp h
      · split at h
        · next hj =>
            rw [hj] at h
            cases List.mem_cons.mp h with
            | inl heq => exact Or.inl heq
            | inr hrest => exact Or.inr (List.mem_cons_of_mem _ hrest)
        · cases List.mem_cons.mp h with
          | inl heq => exact Or.inr (heq ▸ List.mem_cons_self)
          | inr hrest =>
              cases ih hrest with
              | inl heq => exact Or.inl heq
              | inr hin => exact Or.inr (List.mem_cons_of_mem _ hin)

theorem mem_keys_insert {entries : List (key × item)} {written k : key} {a : item} :
    k ∈ Keyed.keys (insert entries written a) <-> written = k ∨ k ∈ Keyed.keys entries := by
  rw [Keyed.mem_keys_iff, Keyed.mem_keys_iff, get?_insert]
  split <;> simp_all

theorem perm_insert_of_fresh {entries : List (key × item)} {written : key}
    {a : item} (h : written ∉ Keyed.keys entries) :
    (insert entries written a).Perm ((written, a) :: entries) := by
  induction entries with
  | nil =>
      exact List.Perm.refl _
  | cons head rest ih =>
      obtain ⟨j, b⟩ := head
      have hboth : written ≠ j ∧ written ∉ Keyed.keys rest := by
        simpa [Keyed.keys] using h
      unfold insert
      split
      · exact List.Perm.refl _
      · rw [if_neg hboth.1.symm]
        exact ((ih hboth.2).cons (j, b)).trans (List.Perm.swap _ _ _)

theorem map_insert {other : Type} (f : item -> other) (entries : List (key × item))
    (written : key) (a : item) :
    (insert entries written a).map (fun entry => (entry.1, f entry.2)) =
      insert (entries.map fun entry => (entry.1, f entry.2)) written (f a) := by
  induction entries with
  | nil =>
      rfl
  | cons head rest ih =>
      rw [insert, List.map_cons, insert]
      split
      · rfl
      · split
        · rfl
        · rw [List.map_cons, ih]

theorem map_ofList {other : Type} (f : item -> other) (entries : List (key × item)) :
    (ofList entries).map (fun entry => (entry.1, f entry.2)) =
      ofList (entries.map fun entry => (entry.1, f entry.2)) := by
  have hfold : forall (rest written : List (key × item)),
      (rest.foldl (fun written entry => insert written entry.1 entry.2) written).map
          (fun entry => (entry.1, f entry.2)) =
        (rest.map fun entry => (entry.1, f entry.2)).foldl
          (fun written entry => insert written entry.1 entry.2)
          (written.map fun entry => (entry.1, f entry.2)) := by
    intro rest
    induction rest with
    | nil =>
        intro written
        rfl
    | cons entry rest ih =>
        intro written
        rw [List.foldl_cons, ih, map_insert, List.map_cons, List.foldl_cons]
  exact hfold entries []

variable [IsStrictTotalOrder key (· < ·)]

theorem sorted_insert {entries : List (key × item)} (written : key) (a : item)
    (h : Sorted entries) : Sorted (insert entries written a) := by
  induction entries with
  | nil =>
      exact List.pairwise_singleton _ _
  | cons head rest ih =>
      obtain ⟨j, b⟩ := head
      have hcons := List.pairwise_cons.mp h
      unfold insert
      split
      · next hlt =>
          refine List.pairwise_cons.mpr ⟨?_, h⟩
          intro entry hentry
          cases List.mem_cons.mp hentry with
          | inl heq =>
              rw [heq]
              exact hlt
          | inr hrest =>
              exact IsTrans.trans written j entry.1 hlt (hcons.1 entry hrest)
      · next hlt =>
          split
          · exact List.pairwise_cons.mpr hcons
          · next hne =>
              refine List.pairwise_cons.mpr ⟨?_, ih hcons.2⟩
              intro entry hentry
              cases mem_of_mem_insert hentry with
              | inl heq =>
                  rw [heq]
                  exact (trichotomous_of (· < ·) j written).resolve_right
                    fun hor => hor.elim hne hlt
              | inr hrest =>
                  exact hcons.1 entry hrest

theorem insert_of_present {entries : List (key × item)} {written : key}
    (hsorted : Sorted entries) (h : written ∈ Keyed.keys entries) (a : item) :
    insert entries written a =
      entries.map fun entry => if entry.1 = written then (written, a) else entry := by
  induction entries with
  | nil =>
      cases h
  | cons head rest ih =>
      obtain ⟨j, b⟩ := head
      rcases List.pairwise_cons.mp hsorted with ⟨hbelow, hrest⟩
      by_cases hj : j = written
      · subst hj
        have hothers : rest = rest.map fun entry => if entry.1 = j then (j, a) else entry := by
          refine (List.map_congr_left fun entry hentry => ?_).trans (List.map_id rest) |>.symm
          rw [if_neg (ne_of_irrefl' (hbelow entry hentry))]
          rfl
        rw [insert, if_neg (irrefl_of (· < ·) j), if_pos rfl, List.map_cons, if_pos rfl,
          <- hothers]
      · have hmem : written ∈ Keyed.keys rest := by
          simpa [Keyed.keys, Ne.symm hj] using h
        have hlt : j < written := by
          rcases List.mem_map.mp hmem with ⟨entry, hentry, rfl⟩
          exact hbelow entry hentry
        rw [insert, if_neg (asymm hlt), if_neg hj, List.map_cons, if_neg hj, ih hrest hmem]

omit [DecidableLT key] [DecidableEq key] in
theorem nodup_keys_of_sorted {entries : List (key × item)} (h : Sorted entries) :
    (Keyed.keys entries).Nodup := by
  refine List.pairwise_map.mpr (h.imp ?_)
  intro a b hlt heq
  rw [heq] at hlt
  exact irrefl_of (· < ·) b.1 hlt

omit [DecidableLT key] in
theorem eq_of_get?_eq {as bs : List (key × item)} (has : Sorted as)
    (hbs : Sorted bs) (h : forall k, Keyed.get? as k = Keyed.get? bs k) :
    as = bs := by
  have hmem : forall entry, entry ∈ as <-> entry ∈ bs := by
    intro entry
    obtain ⟨k, a⟩ := entry
    constructor
    · intro hin
      have hget := Keyed.get?_of_mem (nodup_keys_of_sorted has) hin
      rw [h k] at hget
      exact Keyed.mem_of_get? hget
    · intro hin
      have hget := Keyed.get?_of_mem (nodup_keys_of_sorted hbs) hin
      rw [<- h k] at hget
      exact Keyed.mem_of_get? hget
  have hperm : as.Perm bs :=
    (List.perm_ext_iff_of_nodup
      (List.Nodup.of_map Prod.fst (nodup_keys_of_sorted has))
      (List.Nodup.of_map Prod.fst (nodup_keys_of_sorted hbs))).mpr hmem
  refine hperm.eq_of_pairwise ?_ has hbs
  intro a b _ _ hab hba
  exact absurd (IsTrans.trans _ _ _ hab hba) (irrefl_of (· < ·) a.1)

theorem sorted_ofList (entries : List (key × item)) : Sorted (ofList entries) := by
  have hfold : forall (rest written : List (key × item)), Sorted written ->
      Sorted (rest.foldl (fun written entry => insert written entry.1 entry.2)
        written) := by
    intro rest
    induction rest with
    | nil =>
        intro written hwritten
        exact hwritten
    | cons entry rest ih =>
        intro written hwritten
        exact ih _ (sorted_insert entry.1 entry.2 hwritten)
  exact hfold entries [] List.Pairwise.nil

theorem insert_of_above {entries : List (key × item)} {written : key}
    (h : forall entry, entry ∈ entries -> entry.1 < written) (a : item) :
    insert entries written a = entries ++ [(written, a)] := by
  induction entries with
  | nil =>
      rfl
  | cons head rest ih =>
      rcases List.forall_mem_cons.mp h with ⟨hhead, hrest⟩
      rw [insert, if_neg (asymm hhead), if_neg (ne_of_irrefl hhead), ih hrest,
        List.cons_append]

theorem ofList_of_sorted {entries : List (key × item)} (h : Sorted entries) :
    ofList entries = entries := by
  have hfold : forall (rest written : List (key × item)), Sorted (written ++ rest) ->
      rest.foldl (fun written entry => insert written entry.1 entry.2) written =
        written ++ rest := by
    intro rest
    induction rest with
    | nil =>
        intro written _
        simp
    | cons entry rest ih =>
        intro written hsorted
        have hbelow : forall other, other ∈ written -> other.1 < entry.1 :=
          fun other hother =>
            (List.pairwise_append.mp hsorted).2.2 other hother entry
              List.mem_cons_self
        rw [List.foldl_cons, insert_of_above hbelow,
          ih (written ++ [entry]) (by simpa using hsorted)]
        simp
  exact hfold entries [] h

end Ordered
end DocumentMapper
