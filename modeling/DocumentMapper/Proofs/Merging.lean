import DocumentMapper.Proofs.KeyOrder
import DocumentMapper.Proofs.Patches
import DocumentMapper.Proofs.WrittenDocuments

/-!
# Merging again, and merging into nothing

A patch says nothing new the second time: what it leaves under a key it would leave there
once more, and a key that keeps its value keeps its place.  Merged into the empty document
a patch leaves its own entries without the nulls, which is what a creation stores.
-/

namespace DocumentMapper
namespace Document

/-!
## Merging again
-/

theorem assign_get? (target : Document) (key : String) :
    assign target key (Keyed.get? target key) = target := by
  cases hold : Keyed.get? target key with
  | none => exact Keyed.erase_of_absent hold
  | some value => exact Keyed.insert_of_get? hold

theorem merge_of_settled {target patch : Document}
    (h : forall entry, entry ∈ patch ->
      mergeValue (Keyed.get? target entry.1) entry.2 = Keyed.get? target entry.1) :
    merge target patch = target := by
  induction patch with
  | nil =>
      rfl
  | cons entry rest ih =>
      rcases entry with ⟨key, value⟩
      rcases List.forall_mem_cons.mp h with ⟨hfirst, hrest⟩
      rw [merge, hfirst, assign_get?]
      exact ih hrest

theorem merge_merge_of_values {patch : Document} (hkeys : (Keyed.keys patch).Nodup)
    (hvalues : forall entry, entry ∈ patch -> forall old,
      mergeValue (mergeValue old entry.2) entry.2 = mergeValue old entry.2)
    (target : Document) : merge (merge target patch) patch = merge target patch := by
  refine merge_of_settled fun entry hentry => ?_
  rw [get?_merge hkeys, Keyed.get?_of_mem hkeys hentry]
  exact hvalues entry hentry _

theorem mergeValue_mergeValue (value : Value) : value.DistinctKeys ->
    forall old, mergeValue (mergeValue old value) value = mergeValue old value := by
  -- The old value changes with each merge, so the induction on the patch is for all of them.
  induction value using Value.byParts with
  | h value ih =>
      intro hvalue old
      cases value with
      | document nested =>
          have hagain := merge_merge_of_values hvalue.1 fun entry hentry =>
            ih entry.2 (.entry hentry) (hvalue.of_inside (.entry hentry))
          rw [mergeValue_document hvalue.1, mergeValue_document hvalue.1]
          exact congrArg (fun entries => some (Value.document entries)) (hagain _)
      | _ => rfl

theorem merge_merge {patch : Document} (hpatch : (Value.document patch).DistinctKeys)
    (target : Document) : merge (merge target patch) patch = merge target patch :=
  merge_merge_of_values hpatch.1
    (fun entry hentry => mergeValue_mergeValue entry.2 (hpatch.of_inside (.entry hentry)))
    target

end Document

/-!
## Documents that are written

An update of what a creation has answered finds the document as it was stored.  Under the
two reserved names it may find a definition, which holds no data either.
-/

namespace Store

variable {clock now later : Clock} {store left between after : Store} {collection : String}

@[simp] theorem get?_patched_data (document : Document) (timestamp : Int)
    (patch : Document) :
    Keyed.get? (patched document timestamp patch) "data" =
      some (.document (Document.merge (dataOf document) patch)) := by
  rw [patched, Keyed.get?_insert, if_pos rfl]

theorem dataOf_of_get? {document data : Document}
    (h : Keyed.get? document "data" = some (.document data)) : dataOf document = data := by
  rw [dataOf, h]
  rfl

theorem dataOf_definition {reference : Reference} {document : Document}
    (hreserved : reference.collection ∈ Reference.reserved)
    (h : store.find? reference = some document) : dataOf document = [] := by
  rw [dataOf, (definition_of_find? hreserved h).2]
  rfl

theorem get?_documentsOf_putDocument
    (h : Keyed.contains store.collections collection = true) (number : Nat)
    (document : Document) :
    Keyed.get? ((store.putDocument collection number document).documentsOf collection)
      number = some document := by
  rw [documentsOf_putDocument h, if_pos rfl, Ordered.get?_insert, if_pos rfl]

theorem get?_documentsOf_created {data document : Document}
    (h : createDocument clock collection data store = .ok document left) :
    Keyed.get? (left.documentsOf collection) (store.lastNumber + 1) = some document := by
  rcases createDocument_ok h with ⟨hpresent, _, hleft⟩
  have hstepped : Keyed.contains
      (store.stepped clock (store.lastNumber + 1)).collections collection = true :=
    hpresent
  rw [hleft]
  exact get?_documentsOf_putDocument hstepped _ _

theorem get?_documentsOf_updated {reference : Reference} {number : Nat}
    {patch document : Document}
    (hpresent : Keyed.contains store.collections reference.collection = true)
    (hnumber : documentNumber? reference.id = some number)
    (h : updateDocument clock reference patch store = .ok document left) :
    Keyed.get? (left.documentsOf reference.collection) number = some document := by
  rcases updateDocument_ok h with ⟨_, read, _, hread, _, hleft⟩
  rw [hnumber] at hread
  cases hread
  have hstepped : Keyed.contains (store.stepped clock store.lastNumber).collections
      reference.collection = true := hpresent
  rw [hleft]
  exact get?_documentsOf_putDocument hstepped _ _

/-- An update that finds a stored document finds it under the number of its id. -/
theorem dataOf_found {reference : Reference} {number : Nat} {stored found : Document}
    (hfree : reference.collection ∉ Reference.reserved)
    (hnumber : documentNumber? reference.id = some number)
    (hstored : Keyed.get? (store.documentsOf reference.collection) number = some stored)
    (hfound : store.find? reference = some found) : dataOf found = dataOf stored := by
  rw [find?_of_number hfree hnumber, hstored] at hfound
  rw [Option.some.inj hfound]

theorem get?_data_of_repeated {reference : Reference} {patch first second : Document}
    (hpatch : (Value.document patch).DistinctKeys)
    (hfirst : updateDocument clock reference patch store = .ok first left)
    (hsecond : updateDocument now reference patch left = .ok second after) :
    Keyed.get? second "data" = Keyed.get? first "data" := by
  rcases updateDocument_ok hfirst with ⟨found, number, hfound, hnumber, rfl, _⟩
  rcases updateDocument_ok hsecond with ⟨again, _, hagain, _, rfl, _⟩
  rw [get?_patched_data, get?_patched_data]
  by_cases hreserved : reference.collection ∈ Reference.reserved
  · rw [dataOf_definition hreserved hfound, dataOf_definition hreserved hagain]
  · have hpresent := contains_of_mem_documentsOf
      (mem_documentsOf_of_number hreserved hfound hnumber)
    have hstored := get?_documentsOf_updated hpresent hnumber hfirst
    rw [dataOf_found hreserved hnumber hstored hagain,
      dataOf_of_get? (get?_patched_data found _ patch), Document.merge_merge hpatch]

theorem dataOf_found_created {reference : Reference} {bare found : Document}
    (hcreate : createDocument clock collection [] store = .ok bare between)
    (href : Keyed.get? bare "ref" = some reference.toValue) {number : Nat}
    (hnumber : documentNumber? reference.id = some number)
    (hfound : between.find? reference = some found) :
    number = store.lastNumber + 1 ∧ reference.collection = collection ∧
      dataOf found = [] := by
  have hstored := get?_documentsOf_created hcreate
  rcases createDocument_ok hcreate with ⟨_, rfl, _⟩
  have hreference : reference = numbered collection (store.lastNumber + 1) :=
    (Reference.toValue_injective (Option.some.inj href)).symm
  subst hreference
  have hread : number = store.lastNumber + 1 := number_eq_of_documentNumber? hnumber
  refine ⟨hread, rfl, ?_⟩
  by_cases hreserved : collection ∈ Reference.reserved
  · exact dataOf_definition hreserved hfound
  · rw [hread] at hnumber
    rw [dataOf_found hreserved hnumber hstored hfound]
    rfl

/-!
# Main statement
-/

/-- A patch that is merged twice has the effect of one merge, in a document and in a store,
and a creation stores what updating an empty document stores. -/
theorem patches_repeat_and_start_from_nothing {patch : Document}
    (hpatch : (Value.document patch).DistinctKeys) :
    (forall data, Document.merge (Document.merge data patch) patch =
      Document.merge data patch) ∧
    Document.merge [] patch = Document.withoutNulls patch ∧
    (forall clock now reference store left after first second,
      updateDocument clock reference patch store = .ok first left ->
      updateDocument now reference patch left = .ok second after ->
      Keyed.get? second "data" = Keyed.get? first "data") ∧
    (forall clock now later collection store left between after created bare updated
      reference,
      createDocument clock collection patch store = .ok created left ->
      createDocument now collection [] store = .ok bare between ->
      Keyed.get? bare "ref" = some reference.toValue ->
      updateDocument later reference patch between = .ok updated after ->
      Keyed.get? (left.documentsOf collection) (store.lastNumber + 1) = some created ∧
        Keyed.get? (after.documentsOf collection) (store.lastNumber + 1) = some updated ∧
        Keyed.get? created "data" = some (.document (Document.withoutNulls patch)) ∧
        Keyed.get? updated "data" = Keyed.get? created "data") := by
  refine ⟨Document.merge_merge hpatch, Document.merge_nil hpatch.1, ?_, ?_⟩
  · intro clock now reference store left after first second hfirst hsecond
    exact get?_data_of_repeated hpatch hfirst hsecond
  · intro clock now later collection store left between after created bare updated
      reference hcreate hbare href hupdate
    have hdata : Keyed.get? created "data" =
        some (.document (Document.withoutNulls patch)) := by
      rcases createDocument_ok hcreate with ⟨_, rfl, _⟩
      rfl
    rcases updateDocument_ok hupdate with ⟨found, number, hfound, hnumber, hpatched, _⟩
    rcases dataOf_found_created hbare href hnumber hfound with ⟨rfl, rfl, hnone⟩
    have hpresent := contains_of_mem_documentsOf
      (Keyed.mem_of_get? (get?_documentsOf_created hbare))
    refine ⟨get?_documentsOf_created hcreate,
      get?_documentsOf_updated hpresent hnumber hupdate, hdata, ?_⟩
    rw [hpatched, get?_patched_data, hnone, Document.merge_nil hpatch.1, hdata]

/-!
The statement at one patch: a note is no draft any more and gets a title and a date, and
the nulls of the patch find nothing the second time; a note that is created with the same
entries holds none of the nulls.
-/

def noteRevision : Document :=
  [("draft", .null),
    ("heading", .document [("title", .string "On rain"), ("subtitle", .null)]),
    ("revised", .date 7)]

def draftNote : Store :=
  Store.empty.afterAll (fun _ => 0)
    [.createCollection { name := "Note" },
      .create (.collection "Note")
        (Model.dataParams
          [("draft", .bool true), ("heading", .document [("size", .int .short 2)])])]

theorem distinctKeys_noteRevision : (Value.document noteRevision).DistinctKeys := by
  simp [noteRevision, Value.DistinctKeys, Value.DistinctKeysInEntries, Keyed.keys]

def revisedHeading : Value :=
  .document [("size", .int .short 2), ("title", .string "On rain")]

theorem noteRevision_repeats_and_starts_from_nothing :
    (exists left after first second,
      updateDocument (fun _ => 0) (numbered "Note" 1) noteRevision draftNote =
          .ok first left ∧
        updateDocument (fun _ => 9) (numbered "Note" 1) noteRevision left =
          .ok second after ∧
        Keyed.get? first "data" =
          some (.document [("heading", revisedHeading), ("revised", .date 7)]) ∧
        Keyed.get? second "data" = Keyed.get? first "data") ∧
    exists created bare updated left between after,
      createDocument (fun _ => 0) "Note" noteRevision draftNote = .ok created left ∧
        createDocument (fun _ => 0) "Note" [] draftNote = .ok bare between ∧
        updateDocument (fun _ => 0) (numbered "Note" 2) noteRevision between =
          .ok updated after ∧
        Keyed.get? updated "data" =
          some (.document
            [("heading", .document [("title", .string "On rain")]), ("revised", .date 7)]) ∧
        Keyed.get? updated "data" = Keyed.get? created "data" := by
  rcases patches_repeat_and_start_from_nothing distinctKeys_noteRevision with
    ⟨_, _, hrepeated, hcreated⟩
  constructor
  · refine ⟨_, _, _, _, rfl, rfl, rfl, ?_⟩
    exact hrepeated (fun _ => 0) (fun _ => 9) (numbered "Note" 1) draftNote _ _ _ _ rfl rfl
  · refine ⟨_, _, _, _, _, _, rfl, rfl, rfl, rfl, ?_⟩
    exact (hcreated (fun _ => 0) (fun _ => 0) (fun _ => 0) "Note" draftNote _ _ _ _ _ _
      (numbered "Note" 2) rfl rfl rfl rfl).2.2.2

end Store
end DocumentMapper
