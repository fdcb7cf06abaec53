import DocumentMapper.Proofs.Keyed
import DocumentMapper.Proofs.Preservation

/-!
# Changes

What a single write can do to a store.  A write that fails leaves the store as it
was or with its counters advanced; a write that succeeds makes one of the six
changes below, under the conditions that it has checked.
-/

namespace DocumentMapper
namespace Store

def stepped (clock : Clock) (store : Store) (number : Nat) : Store :=
  { store with lastNumber := number, lastTimestamp := store.nextTimestamp clock }

inductive Change (clock : Clock) (store : Store) : Store -> Prop where
  | unchanged : Change clock store store
  | advanced {number : Nat} (hnumber : store.lastNumber ≤ number) :
      Change clock store (store.stepped clock number)
  | createCollection {name : String}
      (hfresh : Keyed.get? store.collections name = none) :
      Change clock store
        { store with
          collections := Keyed.insert store.collections name
            { timestamp := store.nextTimestamp clock, documents := [] }
          lastTimestamp := store.nextTimestamp clock }
  | createIndex {definition : IndexDefinition}
      (hfresh : Keyed.get? store.indexes definition.name = none)
      (hsource : Keyed.contains store.collections definition.source = true) :
      Change clock store
        { store with
          indexes := Keyed.insert store.indexes definition.name
            { timestamp := store.nextTimestamp clock, definition := definition }
          lastTimestamp := store.nextTimestamp clock }
  | createDocument {collection : String} {data document : Document}
      (hpresent : Keyed.contains store.collections collection = true)
      (hdocument : document =
        storedDocument (numbered collection (store.lastNumber + 1))
          (store.nextTimestamp clock) (Document.withoutNulls data))
      (hunique : (store.stepped clock (store.lastNumber + 1)).collides collection
        (store.lastNumber + 1) document = false) :
      Change clock store
        ((store.stepped clock (store.lastNumber + 1)).putDocument collection
          (store.lastNumber + 1) document)
  | updateDocument {reference : Reference} {number : Nat}
      {found document : Document} {patch : Document}
      (hfound : store.find? reference = some found)
      (hnumber : documentNumber? reference.id = some number)
      (hdocument : document = patched found (store.nextTimestamp clock) patch)
      (hunique : (store.stepped clock store.lastNumber).collides
        reference.collection number document = false) :
      Change clock store
        ((store.stepped clock store.lastNumber).putDocument reference.collection
          number document)
  | remove {reference : Reference} {found : Document}
      (hfound : store.find? reference = some found) :
      Change clock store (store.remove reference)

/-!
## The five writes
-/

variable {clock : Clock}

theorem change_createCollection (store : Store)
    (definition : CollectionDefinition) :
    Change clock store (store.after (createCollection clock definition)) := by
  unfold after createCollection
  by_cases h : Keyed.contains store.collections definition.name = true
  · simp only [if_pos h]
    exact .unchanged
  · simp only [if_neg h]
    exact .createCollection (Keyed.not_contains_iff.mp h)

theorem change_createIndex (store : Store) (definition : IndexDefinition) :
    Change clock store (store.after (createIndex clock definition)) := by
  unfold after createIndex
  by_cases h : Keyed.contains store.indexes definition.name = true
  · simp only [if_pos h]
    exact .unchanged
  · simp only [if_neg h]
    by_cases hsource : Keyed.contains store.collections definition.source = true
    · simp only [if_pos hsource]
      exact .createIndex (Keyed.not_contains_iff.mp h) hsource
    · simp only [if_neg hsource]
      exact .unchanged

theorem change_createDocument (store : Store) (collection : String)
    (data : Document) :
    Change clock store (store.after (createDocument clock collection data)) := by
  unfold after createDocument
  by_cases h : Keyed.contains store.collections collection = true
  · simp only [if_pos h]
    split
    · next hok =>
        split at hok
        · cases hok
        · next hunique =>
            cases hok
            exact .createDocument h rfl (Bool.eq_false_iff.mpr hunique)
    · next herror =>
        split at herror
        · cases herror
          exact .advanced (Nat.le_succ _)
        · cases herror
  · simp only [if_neg h]
    exact .unchanged

theorem change_updateDocument (store : Store) (reference : Reference)
    (patch : Document) :
    Change clock store (store.after (updateDocument clock reference patch)) := by
  unfold after updateDocument
  cases hfound : store.find? reference with
  | none =>
      exact .unchanged
  | some found =>
      cases hnumber : documentNumber? reference.id with
      | none =>
          exact .unchanged
      | some number =>
          simp only
          split
          · next hok =>
              split at hok
              · cases hok
              · next hunique =>
                  cases hok
                  exact .updateDocument hfound hnumber rfl
                    (Bool.eq_false_iff.mpr hunique)
          · next herror =>
              split at herror
              · cases herror
                exact .advanced (Nat.le_refl _)
              · cases herror

theorem change_delete (store : Store) (reference : Reference) :
    Change clock store (store.after (delete reference)) := by
  unfold after delete
  cases hfound : store.find? reference with
  | none => exact .unchanged
  | some found => exact .remove hfound

theorem change_of_ok {item : Type} {action : Action item} {a : item}
    {store left : Store}
    (hchange : forall store, Change clock store (store.after action))
    (h : action store = .ok a left) : Change clock store left := by
  rw [<- after_of_ok h]
  exact hchange store

theorem KeptByWrites.of_change {P : Store -> Prop}
    (h : forall {store left : Store}, Change clock store left -> P store -> P left) :
    KeptByWrites clock P where
  createCollection definition store hstore :=
    h (change_createCollection store definition) hstore
  createIndex definition store hstore :=
    h (change_createIndex store definition) hstore
  createDocument collection data store hstore :=
    h (change_createDocument store collection data) hstore
  updateDocument reference patch store hstore :=
    h (change_updateDocument store reference patch) hstore
  delete reference store hstore :=
    h (change_delete store reference) hstore

/-!
## Writes that succeed

What a write has checked, what it answers and what it leaves.
-/

variable {store left : Store}

theorem createCollection_ok {definition : CollectionDefinition}
    {document : Document}
    (h : createCollection clock definition store = .ok document left) :
    Keyed.get? store.collections definition.name = none ∧
      left =
        { store with
          collections := Keyed.insert store.collections definition.name
            { timestamp := store.nextTimestamp clock, documents := [] }
          lastTimestamp := store.nextTimestamp clock } := by
  unfold createCollection at h
  split at h
  · cases h
  · next hfresh =>
      cases h
      exact ⟨Keyed.not_contains_iff.mp hfresh, rfl⟩

theorem createIndex_ok {definition : IndexDefinition} {document : Document}
    (h : createIndex clock definition store = .ok document left) :
    Keyed.get? store.indexes definition.name = none ∧
      left =
        { store with
          indexes := Keyed.insert store.indexes definition.name
            { timestamp := store.nextTimestamp clock, definition := definition }
          lastTimestamp := store.nextTimestamp clock } := by
  unfold createIndex at h
  split at h
  · cases h
  · next hfresh =>
      split at h
      · cases h
        exact ⟨Keyed.not_contains_iff.mp hfresh, rfl⟩
      · cases h

theorem createDocument_ok {collection : String} {data document : Document}
    (h : createDocument clock collection data store = .ok document left) :
    Keyed.contains store.collections collection = true ∧
      document =
        storedDocument (numbered collection (store.lastNumber + 1))
          (store.nextTimestamp clock) (Document.withoutNulls data) ∧
      left =
        (store.stepped clock (store.lastNumber + 1)).putDocument collection
          (store.lastNumber + 1) document := by
  unfold createDocument at h
  split at h
  · next hpresent =>
      simp only at h
      split at h
      · cases h
      · cases h
        exact ⟨hpresent, rfl, rfl⟩
  · cases h

theorem updateDocument_ok {reference : Reference} {patch document : Document}
    (h : updateDocument clock reference patch store = .ok document left) :
    exists found number,
      store.find? reference = some found ∧
        documentNumber? reference.id = some number ∧
        document = patched found (store.nextTimestamp clock) patch ∧
        left =
          (store.stepped clock store.lastNumber).putDocument
            reference.collection number document := by
  unfold updateDocument at h
  split at h
  · next found number hfound hnumber =>
      simp only at h
      split at h
      · cases h
      · cases h
        exact ⟨found, number, hfound, hnumber, rfl, rfl⟩
  · cases h

theorem delete_ok {reference : Reference} {document : Document}
    (h : delete reference store = .ok document left) :
    store.find? reference = some document ∧ left = store.remove reference := by
  unfold delete at h
  split at h
  · next found hfound =>
      cases h
      exact ⟨hfound, rfl⟩
  · cases h

theorem change_of_createDocument {collection : String} {data document : Document}
    (h : createDocument clock collection data store = .ok document left) :
    store.Change clock left :=
  change_of_ok (fun store => change_createDocument store collection data) h

theorem change_of_updateDocument {reference : Reference}
    {patch document : Document}
    (h : updateDocument clock reference patch store = .ok document left) :
    store.Change clock left :=
  change_of_ok (fun store => change_updateDocument store reference patch) h

/-!
## Sequences of writes

The stores that writes lead to, one after the other, within a query or across
queries: these are the stores that an evaluation passes through.
-/

inductive Evolves (start : Store) : Store -> Prop where
  | start : Evolves start start
  | write {clock : Clock} {store left : Store} :
      Evolves start store -> Change clock store left -> Evolves start left

theorem Evolves.keeps {P : Store -> Prop} {start store : Store}
    (h : forall {clock : Clock} {store left : Store},
      Change clock store left -> P store -> P left)
    (hrun : Evolves start store) (hstart : P start) : P store := by
  induction hrun with
  | start =>
      exact hstart
  | write _ hchange ih =>
      exact h hchange ih

theorem kept_evolves (clock : Clock) (start : Store) :
    KeptByWrites clock (Evolves start) :=
  KeptByWrites.of_change fun hchange hstore => hstore.write hchange

theorem LeadsTo.evolves {start store : Store} (hrun : LeadsTo start store) :
    Evolves start store :=
  hrun.keeps (fun clock => kept_evolves clock start) .start

end Store
end DocumentMapper
