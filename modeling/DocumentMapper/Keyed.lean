/-!
# Keyed lists

A finite map written as a list of entries in the order in which their keys
first arrived.  Writing a key that is present keeps its place and removing one
keeps the order of the others, so the list also records the order that a reader
of the map is shown.

The view of a keyed list is `get?`: the lemmas below say what each operation
does to it.
-/

namespace DocumentMapper
namespace Keyed

variable {key item : Type} [DecidableEq key]

def get? : List (key × item) -> key -> Option item
  | [], _ =>
      none
  | (k, a) :: rest, wanted =>
      if k = wanted then some a else get? rest wanted

def contains (entries : List (key × item)) (wanted : key) : Bool :=
  (get? entries wanted).isSome

def insert : List (key × item) -> key -> item -> List (key × item)
  | [], written, a =>
      [(written, a)]
  | (k, b) :: rest, written, a =>
      if k = written then (k, a) :: rest else (k, b) :: insert rest written a

def erase (entries : List (key × item)) (removed : key) : List (key × item) :=
  entries.filter (fun entry => entry.1 ≠ removed)

/-- The map that a sequence of writes leaves, the last write of a key winning. -/
def ofList (entries : List (key × item)) : List (key × item) :=
  entries.foldl (fun written entry => insert written entry.1 entry.2) []

/-!
## Reading back
-/

@[simp] theorem get?_nil (wanted : key) :
    get? ([] : List (key × item)) wanted = none :=
  rfl

theorem get?_cons (k : key) (a : item) (rest : List (key × item))
    (wanted : key) :
    get? ((k, a) :: rest) wanted =
      if k = wanted then some a else get? rest wanted :=
  rfl

theorem get?_insert (entries : List (key × item)) (written wanted : key)
    (a : item) :
    get? (insert entries written a) wanted =
      if written = wanted then some a else get? entries wanted := by
  induction entries with
  | nil =>
      simp [insert, get?]
  | cons entry rest ih =>
      obtain ⟨k, b⟩ := entry
      by_cases hk : k = written
      · subst hk
        by_cases hw : k = wanted <;> simp [insert, get?, hw]
      · by_cases hw : k = wanted
        · subst hw
          simp [insert, get?, hk, Ne.symm hk]
        · simp [insert, get?, hk, hw, ih]

theorem get?_erase (entries : List (key × item)) (removed wanted : key) :
    get? (erase entries removed) wanted =
      if removed = wanted then none else get? entries wanted := by
  induction entries with
  | nil =>
      simp [erase]
  | cons entry rest ih =>
      obtain ⟨k, b⟩ := entry
      simp only [erase, ne_eq, decide_not] at ih ⊢
      by_cases hk : k = removed
      · subst hk
        by_cases hw : k = wanted
        · simpa [hw] using ih
        · simpa [get?, hw] using ih
      · by_cases hw : k = wanted
        · subst hw
          simp [get?, hk, Ne.symm hk]
        · simpa [get?, hk, hw] using ih

/-!
## Keys

No operation makes a key occur twice.
-/

def keys (entries : List (key × item)) : List key :=
  entries.map Prod.fst

theorem mem_keys_insert {entries : List (key × item)} {written k : key}
    {a : item} :
    k ∈ keys (insert entries written a) <-> k = written ∨ k ∈ keys entries := by
  induction entries with
  | nil =>
      simp [insert, keys]
  | cons entry rest ih =>
      obtain ⟨j, b⟩ := entry
      simp only [keys] at ih
      by_cases hj : j = written
      · subst hj
        simp [insert, keys]
      · simp only [insert, keys, hj, if_false, List.map_cons, List.mem_cons, ih]
        exact or_left_comm

theorem nodup_keys_insert {entries : List (key × item)} (written : key)
    (a : item) (h : (keys entries).Nodup) :
    (keys (insert entries written a)).Nodup := by
  induction entries with
  | nil =>
      simp [insert, keys]
  | cons entry rest ih =>
      obtain ⟨j, b⟩ := entry
      have hcons : j ∉ keys rest ∧ (keys rest).Nodup := List.nodup_cons.mp h
      by_cases hj : j = written
      · subst hj
        simpa [insert, keys] using h
      · have hfresh : j ∉ keys (insert rest written a) := by
          intro hmem
          cases mem_keys_insert.mp hmem with
          | inl heq => exact hj heq
          | inr hin => exact hcons.1 hin
        simp only [insert, hj, if_false]
        exact List.nodup_cons.mpr ⟨hfresh, ih hcons.2⟩

theorem nodup_keys_erase {entries : List (key × item)} (removed : key)
    (h : (keys entries).Nodup) :
    (keys (erase entries removed)).Nodup :=
  List.Nodup.sublist (List.Sublist.map Prod.fst List.filter_sublist) h

end Keyed
end DocumentMapper
