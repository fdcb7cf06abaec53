import DocumentMapper.Proofs.Deployed
import DocumentMapper.Proofs.Numbers

/-!
# Reading written documents

A write of a document answers the document, and a query that gets its reference
answers the same: the number in the id is the one under which the document was put.

Definitions are the exception.  They are found under their names and not among the
documents, so a document that is written under one of the two reserved names is not
the one that its reference leads to.
-/

namespace DocumentMapper

inductive Expr.WritesDocument : Expr -> Prop where
  | create (home params : Expr) : WritesDocument (.create home params)
  | update (reference params : Expr) : WritesDocument (.update reference params)

/-!
## Ids
-/

theorem documentNumber?_lt {id : String} {number : Nat}
    (h : documentNumber? id = some number) : number < numberBound := by
  simp only [documentNumber?, Option.ite_none_left_eq_some,
    Option.ite_none_right_eq_some, Option.some.injEq] at h
  rcases h with ⟨_, hbound, rfl⟩
  exact hbound

theorem documentNumber?_toString_of_lt {number : Nat} (h : number < numberBound) :
    documentNumber? (toString number) = some number := by
  rw [documentNumber?_toString, if_pos h]

namespace Store

variable {clock : Clock} {store left : Store} {collection : String}

/-!
## What a reference leads to
-/

theorem query_get (store : Store) (reference : Reference) :
    query clock (.get (.ofReference reference)) store =
      match store.find? reference with
      | some document => .ok (.document document) store
      | none => .error .instanceNotFound store := by
  have hreference : Expr.asReference reference.toValue store = .ok reference store := by
    rw [Expr.asReference, Reference.ofValue?_toValue]
    rfl
  have hstore : (getThe Store : Action Store) store = .ok store store := by
    rfl
  simp only [query, Expr.ofReference, Expr.evaluate, bind, EStateM.bind, pure,
    EStateM.pure, hreference, hstore]
  cases store.find? reference <;> rfl

theorem find?_of_number {reference : Reference} {number : Nat}
    (hfree : reference.collection ∉ Reference.reserved)
    (hnumber : documentNumber? reference.id = some number) :
    store.find? reference =
      Keyed.get? (store.documentsOf reference.collection) number := by
  have hnames := Reference.not_mem_reserved_iff.mp hfree
  rw [find?, if_neg hnames.1, if_neg hnames.2, hnumber]
  rfl

theorem definition_of_find? {reference : Reference} {document : Document}
    (hreserved : reference.collection ∈ Reference.reserved)
    (h : store.find? reference = some document) :
    (exists own, own.collection ∈ Reference.reserved ∧ Document.Stamped own document) ∧
      Keyed.get? document "data" = none := by
  unfold find? at h
  split at h
  · rw [Option.map_eq_some_iff] at h
    rcases h with ⟨stored, _, rfl⟩
    exact ⟨⟨Reference.ofCollection reference.id, List.mem_cons_self,
      stamped_collectionDocument _ _⟩, rfl⟩
  · next hcollections =>
      have hindexes : reference.collection = Reference.indexes :=
        List.mem_singleton.mp ((List.mem_cons.mp hreserved).resolve_left hcollections)
      rw [if_pos hindexes, Option.map_eq_some_iff] at h
      rcases h with ⟨index, _, rfl⟩
      exact ⟨⟨Reference.ofIndex index.definition.name,
        List.mem_cons_of_mem _ List.mem_cons_self, stamped_indexDocument _⟩, rfl⟩

theorem contains_of_mem_documentsOf {entry : Nat × Document}
    (h : entry ∈ store.documentsOf collection) :
    Keyed.contains store.collections collection = true := by
  unfold documentsOf at h
  cases hstored : Keyed.get? store.collections collection with
  | none =>
      rw [hstored] at h
      cases h
  | some stored =>
      exact Keyed.contains_iff.mpr ⟨stored, hstored⟩

theorem find?_putDocument {number : Nat} {document : Document}
    (hfree : collection ∉ Reference.reserved)
    (hpresent : Keyed.contains store.collections collection = true)
    (hnumber : number < numberBound) :
    (store.putDocument collection number document).find? (numbered collection number) =
      some document := by
  have hread : documentNumber? (numbered collection number).id = some number :=
    documentNumber?_toString_of_lt hnumber
  rw [find?_of_number hfree hread]
  show Keyed.get? ((store.putDocument collection number document).documentsOf
    collection) number = some document
  rw [documentsOf_putDocument hpresent, if_pos rfl, Ordered.get?_insert, if_pos rfl]

/-!
## What a write answers
-/

/-- The document carries its own reference, and data, and unless it was written under
a reserved name its reference leads to it. -/
structure Answered (left : Store) (own : Reference) (document : Document) : Prop where
  ref : Keyed.get? document "ref" = some own.toValue
  data : exists data, Keyed.get? document "data" = some data
  found : own.collection ∉ Reference.reserved -> left.find? own = some document

theorem answered_createDocument {data document : Document}
    (h : createDocument clock collection data store = .ok document left)
    (hnumber : left.lastNumber < numberBound) :
    left.Answered (numbered collection (store.lastNumber + 1)) document := by
  rcases createDocument_ok h with ⟨hpresent, hdocument, hleft⟩
  have hcount : left.lastNumber = store.lastNumber + 1 := by
    rw [hleft, putDocument_lastNumber]
    rfl
  rw [hcount] at hnumber
  constructor
  · rw [hdocument]
    rfl
  · rw [hdocument]
    exact ⟨_, rfl⟩
  · intro hfree
    have hstepped : Keyed.contains
        (store.stepped clock (store.lastNumber + 1)).collections collection = true :=
      hpresent
    rw [hleft]
    exact find?_putDocument hfree hstepped hnumber

theorem answered_updateDocument (hstore : store.Consistent) {reference : Reference}
    {patch document : Document}
    (h : updateDocument clock reference patch store = .ok document left) :
    exists own, left.Answered own document := by
  rcases updateDocument_ok h with ⟨found, number, hfound, hnumber, hdocument, hleft⟩
  have hdata : exists data, Keyed.get? document "data" = some data := by
    rw [hdocument]
    exact ⟨_, by rw [patched, Keyed.get?_insert, if_pos rfl]⟩
  by_cases hreserved : reference.collection ∈ Reference.reserved
  · rcases (definition_of_find? hreserved hfound).1 with ⟨own, hown, hstamped⟩
    refine ⟨own, ?_, hdata, fun hfree => absurd hown hfree⟩
    rw [hdocument]
    exact (stamped_patched hstamped _ patch).ref
  · have hentry := mem_documentsOf_of_number hreserved hfound hnumber
    have hpresent : Keyed.contains (store.stepped clock store.lastNumber).collections
        reference.collection = true := contains_of_mem_documentsOf hentry
    rcases hstore.fits_patched hfound hnumber (store.nextTimestamp clock) patch with
      ⟨own, hstamped, hown⟩
    refine ⟨numbered reference.collection number, ?_, hdata, fun hfree => ?_⟩
    · rw [hdocument, <- hown hreserved]
      exact hstamped.ref
    · rw [hleft]
      exact find?_putDocument hfree hpresent (documentNumber?_lt hnumber)

/-!
## Writes inside queries

What stands around the write may write too, so the write itself is made to a store
that other writes have led to.
-/

theorem Evolves.of_ok {item : Type} {start : Store} {action : Action item} {a : item}
    (hstore : Evolves start store) (hkeeps : Action.Keeps (Evolves start) action)
    (h : action store = .ok a left) : Evolves start left := by
  rw [<- after_of_ok h]
  exact hkeeps store hstore

theorem document_of_ok {write : Action Document} {value : Value}
    (h : (do
      let document <- write
      pure (Value.document document)) store = .ok value left) :
    exists document, value = .document document ∧ write store = .ok document left := by
  rcases Action.ok_of_bind h with ⟨document, between, hwrite, hend⟩
  cases hend
  exact ⟨document, rfl, hwrite⟩

/-- What is evaluated before the write leads to the store that is written to. -/
theorem write_of_evaluate {write : Expr} (hwrite : write.WritesDocument)
    {scope : Scope} {value : Value}
    (h : write.evaluate clock scope store = .ok value left) :
    exists between document, store.Evolves between ∧ value = .document document ∧
      ((exists collection data,
          createDocument clock collection data between = .ok document left) ∨
        exists reference patch,
          updateDocument clock reference patch between = .ok document left) := by
  have hexpr := fun (expr : Expr) =>
    expr.evaluate_keeps (kept_evolves clock store) scope
  cases hwrite with
  | create home params =>
      rw [Expr.evaluate] at h
      rcases Action.ok_of_bind h with ⟨place, first, hplace, h⟩
      have hfirst := Evolves.start.of_ok (hexpr home) hplace
      rcases Action.ok_of_bind h with ⟨collection, second, hcollection, h⟩
      have hsecond := hfirst.of_ok (Expr.steady_asCollection place).keeps hcollection
      rcases Action.ok_of_bind h with ⟨given, third, hgiven, h⟩
      have hthird := hsecond.of_ok (hexpr params) hgiven
      rcases Action.ok_of_bind h with ⟨data, between, hdata, h⟩
      have hbetween := hthird.of_ok (Expr.steady_asData given).keeps hdata
      rcases document_of_ok h with ⟨document, hvalue, hcreate⟩
      exact ⟨between, document, hbetween, hvalue, Or.inl ⟨collection, data, hcreate⟩⟩
  | update reference params =>
      rw [Expr.evaluate] at h
      rcases Action.ok_of_bind h with ⟨place, first, hplace, h⟩
      have hfirst := Evolves.start.of_ok (hexpr reference) hplace
      rcases Action.ok_of_bind h with ⟨target, second, htarget, h⟩
      have hsecond := hfirst.of_ok (Expr.steady_asReference place).keeps htarget
      rcases Action.ok_of_bind h with ⟨given, third, hgiven, h⟩
      have hthird := hsecond.of_ok (hexpr params) hgiven
      rcases Action.ok_of_bind h with ⟨patch, between, hpatch, h⟩
      have hbetween := hthird.of_ok (Expr.steady_asData given).keeps hpatch
      rcases document_of_ok h with ⟨document, hvalue, hupdate⟩
      exact ⟨between, document, hbetween, hvalue, Or.inr ⟨target, patch, hupdate⟩⟩

/-!
# Main statement
-/

/-- A query that gets the reference of what a write has answered answers the same
document, exactly where the reference is none of a definition. -/
theorem written_documents_read_back (hreach : store.Reachable) {write : Expr}
    (hwrite : write.WritesDocument) {value : Value}
    (h : query clock write store = .ok value left)
    (hnumber : left.lastNumber < numberBound) :
    exists document own, value = .document document ∧
      Keyed.get? document "ref" = some own.toValue ∧
      forall now,
        query now (.get (.ofReference own)) left = .ok (.document document) left <->
          own.collection ∉ Reference.reserved := by
  rcases write_of_evaluate hwrite (Deployment.ok_of_query h) with
    ⟨between, document, hbetween, hvalue, hwritten⟩
  have hanswered : exists own, left.Answered own document := by
    rcases hwritten with ⟨collection, data, hcreate⟩ | ⟨reference, patch, hupdate⟩
    · exact ⟨_, answered_createDocument hcreate hnumber⟩
    · exact answered_updateDocument (hbetween.consistent hreach.consistent) hupdate
  rcases hanswered with ⟨own, hown⟩
  refine ⟨document, own, hvalue, hown.ref, fun now => ?_⟩
  rw [query_get]
  constructor
  · -- A definition has no data, and what was answered has.
    intro hget hreserved
    cases hfound : left.find? own with
    | none =>
        rw [hfound] at hget
        cases hget
    | some found =>
        rw [hfound] at hget
        cases hget
        rcases hown.data with ⟨data, hdata⟩
        rw [(definition_of_find? hreserved hfound).2] at hdata
        cases hdata
  · intro hfree
    rw [hown.found hfree]

/-!
The statement at one update: a note is changed under an id with a sign and a zero in
front, and the reference that it answers has neither.
-/

def oneNote : Store :=
  Store.empty.afterAll (fun _ => 0)
    [.createCollection { name := "Note" },
      .create (.collection "Note") (Model.dataParams [("text", .string "a")])]

def changeNote : Expr :=
  .update (Expr.documentRef "Note" "+01") (Model.dataParams [("text", .string "b")])

def changedNote : Document :=
  storedDocument (numbered "Note" 1) 3 [("text", .string "b")]

theorem changed_note_reads_back :
    exists left,
      query (fun _ => 0) changeNote oneNote = .ok (.document changedNote) left ∧
        query (fun _ => 7) (.get (.ofReference (numbered "Note" 1))) left =
          .ok (.document changedNote) left := by
  have hreach : oneNote.Reachable := LeadsTo.start.afterAll _ _
  have hquery : query (fun _ => 0) changeNote oneNote =
      .ok (.document changedNote)
        (oneNote.after (query (fun _ => 0) changeNote)) := by
    rfl
  rcases written_documents_read_back hreach (.update _ _) hquery (by decide) with
    ⟨document, own, hvalue, href, hget⟩
  cases hvalue
  have hown : numbered "Note" 1 = own :=
    Reference.toValue_injective (Option.some.inj href)
  rw [<- hown] at hget
  exact ⟨_, hquery, (hget _).mpr (by decide)⟩

/-!
A definition is not changed by an update that is answered: a collection that is named
by a numeral is found and given data, and nothing is stored.
-/

def numeralCollection : Store :=
  Store.empty.after (query (fun _ => 0) (.createCollection { name := "5" }))

def changeDefinition : Expr :=
  .update (.collection "5") (Model.dataParams [("color", .string "red")])

theorem changed_definition_is_not_read_back :
    numeralCollection.Reachable ∧
      exists answered left,
        query (fun _ => 0) changeDefinition numeralCollection =
            .ok (.document answered) left ∧
          Keyed.get? answered "ref" = some (Reference.ofCollection "5").toValue ∧
          Keyed.get? answered "data" = some (.document [("color", .string "red")]) ∧
          query (fun _ => 0) (.get (.ofReference (Reference.ofCollection "5"))) left =
            .ok (.document (collectionDocument "5" 1)) left ∧
          answered ≠ collectionDocument "5" 1 := by
  have hreach : numeralCollection.Reachable := LeadsTo.start.query _ _
  refine ⟨hreach, _, _, rfl, rfl, rfl, rfl, ?_⟩
  intro hsame
  have hdata := congrArg (fun document => (Keyed.get? document "data").isSome) hsame
  cases hdata

end Store
end DocumentMapper
