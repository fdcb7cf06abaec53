import DocumentMapper.Proofs.Merging
import DocumentMapper.Proofs.Redaction
import DocumentMapper.Proofs.Representation

/-!
# Updates

An update replaces one document in its place and leaves all else in the store as it was
but for the last timestamp.  In the document it changes the timestamp and the data, and in
the data what the patch names: a null removes what stands at the end of its path, any other
value that is not a document is written there, and what no such value reaches is kept.

Paths here are paths of keys, and lead through documents only.
-/

namespace DocumentMapper

/-!
## Paths of keys
-/

def Value.heldAt? : Value -> List String -> Option Value
  | value, [] => some value
  | document entries, key :: rest =>
      (Keyed.get? entries key).bind fun inner => inner.heldAt? rest
  | _, _ :: _ => none

theorem Value.heldAt?_of_leaf {value : Value} (h : value.document? = none) (key : String)
    (rest : List String) : value.heldAt? (key :: rest) = none := by
  cases value with
  | document entries => cases h
  | _ => rfl

namespace Document

def heldAt? (entries : Document) (path : List String) : Option Value :=
  (Value.document entries).heldAt? path

theorem heldAt?_cons (entries : Document) (key : String) (rest : List String) :
    entries.heldAt? (key :: rest) =
      (Keyed.get? entries key).bind fun inner => inner.heldAt? rest := by
  rw [heldAt?, Value.heldAt?]

theorem heldAt?_existing (entries : Document) (key : String) {rest : List String}
    (hrest : rest ≠ []) :
    (existing (Keyed.get? entries key)).heldAt? rest = entries.heldAt? (key :: rest) := by
  rcases List.exists_cons_of_ne_nil hrest with ⟨next, others, rfl⟩
  rw [heldAt?_cons entries]
  cases Keyed.get? entries key with
  | none =>
      rfl
  | some value =>
      cases hvalue : value.document? with
      | some inner =>
          rw [Value.document?_eq_some.mp hvalue]
          rfl
      | none =>
          rw [Option.bind_some, Value.heldAt?_of_leaf hvalue, existing, Option.bind_some,
            hvalue]
          rfl

/-!
## What a patch says at a path
-/

/-- At the end of the path stands what the patch asks for, and what stood there before if
it asks for nothing there. -/
structure PatchedAt (patch before after : Document) (path : List String) : Prop where
  removed : patch.heldAt? path = some .null -> after.heldAt? path = none
  written : forall value, patch.heldAt? path = some value -> value ≠ .null ->
    value.document? = none -> after.heldAt? path = some value
  kept : patch.heldAt? path = none ->
    (forall front, front <+: path -> forall value, patch.heldAt? front = some value ->
      exists nested, value = .document nested) ->
    after.heldAt? path = before.heldAt? path

theorem mergeValue_of_leaf {value : Value} (hnull : value ≠ .null)
    (hleaf : value.document? = none) (old : Option Value) :
    mergeValue old value = some value := by
  cases value with
  | null => exact absurd rfl hnull
  | document entries => cases hleaf
  | _ => rfl

variable {patch target nested : Document} {key : String} {rest : List String}

theorem heldAt?_merge (hkeys : (Keyed.keys patch).Nodup) (target : Document) (key : String)
    (rest : List String) :
    (merge target patch).heldAt? (key :: rest) =
      (mergedAt (Keyed.get? target key) (Keyed.get? patch key)).bind fun inner =>
        inner.heldAt? rest := by
  rw [heldAt?_cons, get?_merge hkeys]

theorem PatchedAt.of_unsaid (hkeys : (Keyed.keys patch).Nodup)
    (hsaid : Keyed.get? patch key = none) :
    PatchedAt patch target (merge target patch) (key :: rest) := by
  have hnone : patch.heldAt? (key :: rest) = none := by
    rw [heldAt?_cons, hsaid]
    rfl
  constructor
  · intro hnull
    rw [hnone] at hnull
    cases hnull
  · intro value hvalue
    rw [hnone] at hvalue
    cases hvalue
  · intro _ _
    rw [heldAt?_merge hkeys, hsaid, heldAt?_cons]
    rfl

/-- Where the patch has a leaf under the first key, nothing can be kept below it. -/
theorem PatchedAt.of_leaf (hkeys : (Keyed.keys patch).Nodup) {value : Value}
    (hsaid : Keyed.get? patch key = some value) (hleaf : value.document? = none) :
    PatchedAt patch target (merge target patch) (key :: rest) := by
  have hpatch : patch.heldAt? (key :: rest) = value.heldAt? rest := by
    rw [heldAt?_cons, hsaid]
    rfl
  have hafter : value ≠ .null ->
      (merge target patch).heldAt? (key :: rest) = value.heldAt? rest := by
    intro hnull
    rw [heldAt?_merge hkeys, hsaid]
    show (mergeValue _ value).bind _ = _
    rw [mergeValue_of_leaf hnull hleaf]
    rfl
  have hfirst : [key] <+: key :: rest := ⟨rest, rfl⟩
  have hheld : patch.heldAt? [key] = some value := by
    rw [heldAt?_cons, hsaid]
    rfl
  constructor
  · intro hnull
    rw [hpatch] at hnull
    by_cases hvalue : value = .null
    · rw [heldAt?_merge hkeys, hsaid, hvalue]
      rfl
    · rw [hafter hvalue]
      cases rest with
      | nil => exact absurd (Option.some.inj hnull) hvalue
      | cons next others => exact Value.heldAt?_of_leaf hleaf next others
  · intro other hother hnull _
    rw [hpatch] at hother
    cases rest with
    | nil =>
        cases hother
        exact hafter hnull
    | cons next others =>
        rw [Value.heldAt?_of_leaf hleaf] at hother
        cases hother
  · intro _ hfronts
    rcases hfronts [key] hfirst value hheld with ⟨nested, rfl⟩
    cases hleaf

theorem PatchedAt.of_nested (hkeys : (Keyed.keys patch).Nodup)
    (hnested : (Keyed.keys nested).Nodup)
    (hsaid : Keyed.get? patch key = some (.document nested)) (hrest : rest ≠ [])
    (h : PatchedAt nested (existing (Keyed.get? target key))
      (merge (existing (Keyed.get? target key)) nested) rest) :
    PatchedAt patch target (merge target patch) (key :: rest) := by
  have hpatch : forall path, patch.heldAt? (key :: path) = nested.heldAt? path := by
    intro path
    rw [heldAt?_cons, hsaid]
    rfl
  have hafter : (merge target patch).heldAt? (key :: rest) =
      (merge (existing (Keyed.get? target key)) nested).heldAt? rest := by
    rw [heldAt?_merge hkeys, hsaid]
    show (mergeValue _ (.document nested)).bind _ = _
    rw [mergeValue_document hnested]
    rfl
  constructor
  · intro hnull
    rw [hpatch] at hnull
    rw [hafter, h.removed hnull]
  · intro value hvalue hnull hleaf
    rw [hpatch] at hvalue
    rw [hafter, h.written value hvalue hnull hleaf]
  · intro hnone hfronts
    rw [hpatch] at hnone
    rw [hafter, <- heldAt?_existing target key hrest]
    refine h.kept hnone fun front hfront value hvalue => ?_
    rw [<- hpatch] at hvalue
    exact hfronts (key :: front) (List.cons_prefix_cons.mpr ⟨rfl, hfront⟩) value hvalue

theorem PatchedAt.of_document {before after : Document} {path : List String}
    (hsaid : patch.heldAt? path = some (.document nested)) :
    PatchedAt patch before after path := by
  constructor
  · intro hnull
    rw [hsaid] at hnull
    cases hnull
  · intro value hvalue _ hleaf
    rw [hsaid] at hvalue
    cases hvalue
    cases hleaf
  · intro hnone _
    rw [hsaid] at hnone
    cases hnone

theorem patchedAt_merge (hpatch : (Value.document patch).DistinctKeys) (target : Document)
    {path : List String} (hpath : path ≠ []) :
    PatchedAt patch target (merge target patch) path := by
  induction path generalizing patch target with
  | nil =>
      exact absurd rfl hpath
  | cons key rest ih =>
      cases hsaid : Keyed.get? patch key with
      | none =>
          exact .of_unsaid hpatch.1 hsaid
      | some value =>
          cases hvalue : value.document? with
          | none =>
              exact .of_leaf hpatch.1 hsaid hvalue
          | some nested =>
              rw [Value.document?_eq_some.mp hvalue] at hsaid
              have hnested := hpatch.of_get? hsaid
              by_cases hrest : rest = []
              · subst hrest
                have hheld : patch.heldAt? [key] = some (.document nested) := by
                  rw [heldAt?_cons, hsaid]
                  rfl
                exact .of_document hheld
              · exact .of_nested hpatch.1 hnested.1 hsaid hrest (ih hnested _ hrest)

end Document

/-!
## What an update leaves alone
-/

namespace Store

/-- One document is replaced in its place, and nothing else but the last timestamp
changes. -/
structure Replaces (store left : Store) (collection : String) (number : Nat)
    (document : Document) : Prop where
  lastNumber : left.lastNumber = store.lastNumber
  indexes : left.indexes = store.indexes
  collections :
    left.collections.map (fun entry => (entry.1, entry.2.timestamp)) =
      store.collections.map fun entry => (entry.1, entry.2.timestamp)
  documents : forall other, left.documentsOf other =
    (store.documentsOf other).map fun entry =>
      if other = collection ∧ entry.1 = number then (number, document) else entry

variable {clock : Clock} {store left between : Store} {collection : String}

theorem collections_putDocument (store : Store) (collection : String) (number : Nat)
    (document : Document) :
    (store.putDocument collection number document).collections.map
        (fun entry => (entry.1, entry.2.timestamp)) =
      store.collections.map fun entry => (entry.1, entry.2.timestamp) := by
  unfold putDocument
  cases hstored : Keyed.get? store.collections collection with
  | none =>
      rfl
  | some stored =>
      have hkept : Keyed.get?
          (store.collections.map fun entry => (entry.1, entry.2.timestamp)) collection =
            some stored.timestamp := by
        rw [Keyed.get?_mapItems fun _ => StoredCollection.timestamp, hstored]
        rfl
      show (Keyed.insert store.collections collection _).map _ = _
      rw [Keyed.map_insert StoredCollection.timestamp]
      exact Keyed.insert_of_get? hkept

theorem replaces_putDocument (hstore : store.Consistent) {number count : Nat}
    (hcount : count = store.lastNumber) {found : Document}
    (hfound : (number, found) ∈ store.documentsOf collection) (document : Document) :
    Replaces store ((store.stepped clock count).putDocument collection number document)
      collection number document where
  lastNumber := by
    rw [putDocument_lastNumber]
    exact hcount
  indexes := putDocument_indexes _ _ _ _
  collections := collections_putDocument _ _ _ _
  documents other := by
    have hpresent : Keyed.contains (store.stepped clock count).collections collection =
        true := contains_of_mem_documentsOf hfound
    rw [documentsOf_putDocument hpresent]
    by_cases hother : collection = other
    · subst hother
      simp only [if_true, true_and]
      exact Ordered.insert_of_present (hstore.sorted collection)
        (Keyed.mem_keys_of_mem hfound) document
    · have hkept : forall entry : Nat × Document,
          (if other = collection ∧ entry.1 = number then (number, document) else entry) =
            entry := fun entry => if_neg fun hboth => hother hboth.1.symm
      rw [if_neg hother]
      simp only [hkept, List.map_id']
      rfl

/-!
## Timestamps along a run
-/

theorem Evolves.lastTimestamp_le {earlier : Store} (hrun : earlier.Evolves store) :
    earlier.lastTimestamp ≤ store.lastTimestamp :=
  hrun.keeps (fun hchange hle => Int.le_trans hle hchange.stamps.1) (Int.le_refl _)

theorem Evolves.represented (hrun : store.Evolves between) (hstore : store.Consistent)
    (h : store.Represented) : between.Represented :=
  (hrun.keeps (P := fun store => store.Consistent ∧ store.Represented)
    (fun hchange hboth => ⟨hchange.consistent hboth.1, hchange.represented hboth.1 hboth.2⟩)
    ⟨hstore, h⟩).2

theorem stamp_lt_nextTimestamp {earlier : Store} (hearlier : Store.empty.Evolves earlier)
    (hrun : earlier.Evolves store) (clock : Clock) :
    earlier.lastTimestamp < store.nextTimestamp clock ∧
      forall item stamp, earlier.Stamps item stamp ->
        stamp < store.nextTimestamp clock := by
  have hlast : earlier.lastTimestamp < store.nextTimestamp clock :=
    Int.lt_of_le_of_lt hrun.lastTimestamp_le (store.lastTimestamp_lt_nextTimestamp clock)
  refine ⟨hlast, fun item stamp hstamp => ?_⟩
  have hrange := (hearlier.represented consistent_empty represented_empty).timed.range
    item stamp hstamp
  exact Int.lt_of_le_of_lt hrange.2 hlast

/-!
# Main statement
-/

/-- An update that succeeds, at any point of any query, changes exactly what the patch
names. -/
theorem update_changes_what_the_patch_names (hreach : store.Reachable)
    (hbetween : store.Evolves between) {reference : Reference}
    (hfree : reference.collection ∉ Reference.reserved) {patch document : Document}
    (hpatch : (Value.document patch).DistinctKeys)
    (h : updateDocument clock reference patch between = .ok document left) :
    exists number found before after timestamp,
      documentNumber? reference.id = some number ∧
        (number, found) ∈ between.documentsOf reference.collection ∧
        Replaces between left reference.collection number document ∧
        Keyed.get? document "ref" =
          some (numbered reference.collection number).toValue ∧
        (forall key, key ≠ "ts" -> key ≠ "data" ->
          Keyed.get? document key = Keyed.get? found key) ∧
        Keyed.get? document "ts" = some (.int .long timestamp) ∧
        (forall earlier, Store.empty.Evolves earlier -> earlier.Evolves between ->
          earlier.lastTimestamp < timestamp ∧
            forall item stamp, earlier.Stamps item stamp -> stamp < timestamp) ∧
        Keyed.get? found "data" = some (.document before) ∧
        Keyed.get? document "data" = some (.document after) ∧
        forall path, path ≠ [] -> Document.PatchedAt patch before after path := by
  have hconsistent := hbetween.consistent hreach.consistent
  have hrepresented := hbetween.represented hreach.consistent
    (represented_of_reachable hreach)
  rcases updateDocument_ok h with ⟨found, number, hfound, hnumber, rfl, rfl⟩
  have hentry := mem_documentsOf_of_number hfree hfound hnumber
  have hdocument := hrepresented.documents _ hfree _ hentry
  rcases hdocument.data with ⟨before, hbefore, _⟩
  have hkept : forall key, key ≠ "ts" -> key ≠ "data" ->
      Keyed.get? (patched found (between.nextTimestamp clock) patch) key =
        Keyed.get? found key := by
    intro key hts hdata
    rw [patched, Keyed.get?_insert, if_neg hdata.symm, Keyed.get?_insert, if_neg hts.symm]
  refine ⟨number, found, before, Document.merge before patch, between.nextTimestamp clock,
    hnumber, hentry, replaces_putDocument hconsistent rfl hentry _, ?_, hkept, ?_, ?_,
    hbefore, ?_, ?_⟩
  · rw [hkept "ref" (by decide) (by decide)]
    exact hdocument.ref
  · simp [patched, Keyed.get?_insert]
  · exact fun earlier hearlier hrun => stamp_lt_nextTimestamp hearlier hrun clock
  · rw [get?_patched_data, dataOf_of_get? hbefore]
  · exact fun path hpath => Document.patchedAt_merge hpatch before hpath

/-!
The statement at one update: the patch removes the draft mark, puts a title beside the size
in the heading and removes a subtitle that is not there.
-/

theorem noteRevision_changes_what_it_names :
    exists document left,
      updateDocument (fun _ => 0) (numbered "Note" 1) noteRevision draftNote =
          .ok document left ∧
        Replaces draftNote left "Note" 1 document ∧
        exists after : Document, Keyed.get? document "data" = some (.document after) ∧
          Document.heldAt? after ["draft"] = none ∧
          Document.heldAt? after ["heading", "subtitle"] = none ∧
          Document.heldAt? after ["heading", "title"] = some (.string "On rain") ∧
          Document.heldAt? after ["heading", "size"] = some (.int .short 2) := by
  have hreach : draftNote.Reachable := LeadsTo.start.afterAll _ _
  have hupdate : updateDocument (fun _ => 0) (numbered "Note" 1) noteRevision draftNote =
      .ok _ _ := rfl
  rcases update_changes_what_the_patch_names hreach .start (by decide)
    distinctKeys_noteRevision hupdate with
    ⟨number, found, before, after, timestamp, hnumber, hentry, hreplaces, _, _, _, _,
      hbefore, hafter, hpaths⟩
  cases hnumber
  have hfound : found = storedDocument (numbered "Note" 1) 2
      [("draft", .bool true), ("heading", .document [("size", .int .short 2)])] :=
    (Prod.mk.inj (List.mem_singleton.mp hentry)).2
  rw [hfound] at hbefore
  cases hbefore
  refine ⟨_, _, hupdate, hreplaces, after, hafter, ?_, ?_, ?_, ?_⟩
  · exact (hpaths ["draft"] (by simp)).removed rfl
  · exact (hpaths ["heading", "subtitle"] (by simp)).removed rfl
  · exact (hpaths ["heading", "title"] (by simp)).written _ rfl (by simp) rfl
  · refine ((hpaths ["heading", "size"] (by simp)).kept rfl ?_).trans rfl
    intro front hfront value hvalue
    simp only [List.prefix_cons_iff, List.prefix_nil] at hfront
    rcases hfront with rfl | ⟨_, rfl, rfl | ⟨_, rfl, rfl⟩⟩
    · exact ⟨_, (Option.some.inj hvalue).symm⟩
    · exact ⟨_, (Option.some.inj hvalue).symm⟩
    · cases hvalue

end Store
end DocumentMapper
