import DocumentMapper.Keyed

/-!
# Ordered maps

A finite map written as a list of entries in increasing order of their keys.
Such a list is determined by what it maps, so two ordered maps are equal when
they map the same keys to the same items.  They are read as keyed lists.
-/

namespace DocumentMapper
namespace Ordered

variable {key item : Type} [LT key] [DecidableLT key] [DecidableEq key]

def insert : List (key × item) -> key -> item -> List (key × item)
  | [], written, a =>
      [(written, a)]
  | (k, b) :: rest, written, a =>
      if written < k then
        (written, a) :: (k, b) :: rest
      else if k = written then
        (k, a) :: rest
      else
        (k, b) :: insert rest written a

def ofList (entries : List (key × item)) : List (key × item) :=
  entries.foldl (fun written entry => insert written entry.1 entry.2) []

theorem get?_insert (entries : List (key × item)) (written wanted : key)
    (a : item) :
    Keyed.get? (insert entries written a) wanted =
      if written = wanted then some a else Keyed.get? entries wanted := by
  induction entries with
  | nil =>
      simp [insert, Keyed.get?]
  | cons entry rest ih =>
      obtain ⟨k, b⟩ := entry
      unfold insert
      split
      · rfl
      · split
        · next hk =>
            subst hk
            by_cases hw : k = wanted <;> simp [Keyed.get?, hw]
        · next hk =>
            by_cases hw : k = wanted
            · subst hw
              simp [Keyed.get?, Ne.symm hk]
            · simp [Keyed.get?, hw, ih]

end Ordered
end DocumentMapper
