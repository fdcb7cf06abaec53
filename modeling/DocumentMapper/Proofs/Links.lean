import DocumentMapper.Proofs.Extensions
import DocumentMapper.Proofs.Instances
import DocumentMapper.Proofs.Lookup
import DocumentMapper.Proofs.Numbers
import DocumentMapper.Proofs.UniformRows

/-!
# Links

A link is a row in a collection of its own, and two indexes over the rows show it
from its two ends.  Every row has the two ends under the keys that the indexes look
at, so both count the same rows, and a row is only ever added by a link.
-/

namespace DocumentMapper

/-!
## Entries and rows

Both are said to lead to a reference when it is read where they are looked at, so
that they can be counted.
-/

def Value.endsIn (target : Reference) (entry : Value) : Bool :=
  entry.last?.bind Reference.ofValue? = some target

def Document.leads (key : String) (target : Reference) (document : Document) :
    Bool :=
  (document.at? (dataPath key)).bind Reference.ofValue? = some target

theorem Document.leads_iff {key : String} {target held : Reference}
    {document : Document}
    (h : document.at? (dataPath key) = some held.toValue) :
    document.leads key target = true <-> held = target := by
  simp [leads, h, Reference.ofValue?_toValue]

namespace IndexDefinition

variable {index : IndexDefinition} {start goal : String}

theorem termsOf?_single (h : index.terms = [{ field := dataPath start }])
    (document : Document) :
    index.termsOf? document =
      (document.at? (dataPath start)).map fun value => [value] := by
  unfold termsOf?
  rw [h, List.mapM_cons, List.mapM_nil]
  show (do
    let value <- document.at? (dataPath start)
    let values <- pure []
    pure (value :: values)) = _
  cases document.at? (dataPath start) <;> rfl

theorem finds_iff_leads (h : index.terms = [{ field := dataPath start }])
    {document : Document} {held origin : Reference}
    (hheld : document.at? (dataPath start) = some held.toValue) :
    index.finds [origin.toValue] document = true <->
      document.leads start origin = true := by
  rw [finds_iff, termsOf?_single h, hheld, Document.leads_iff hheld]
  simp [Value.Agree, Reference.same_toValue_iff]

theorem endsIn_iff_leads {front : List IndexValue}
    (h : index.values = front ++ [{ field := dataPath goal, reverse := false }])
    (document : Document) (target : Reference) :
    (index.entryOf document).endsIn target = document.leads goal target := by
  unfold Value.endsIn Document.leads
  rw [last?_entryOf h]

end IndexDefinition

/-- An index from one key to another lists the documents that hold the two
references there, whatever its entries are sorted by. -/
theorem Store.countP_matchingDocuments? {store : Store} {index : IndexDefinition}
    {start goal : String} {front : List IndexValue}
    (hterms : index.terms = [{ field := dataPath start }])
    (hvalues : index.values =
      front ++ [{ field := dataPath goal, reverse := false }])
    (hrows : forall entry, entry ∈ store.documentsOf index.source ->
      exists held : Reference,
        entry.2.at? (dataPath start) = some held.toValue)
    {origin : Reference} {found : List Document}
    (hfound : store.matchingDocuments? index [origin.toValue] = some found)
    (target : Reference) :
    (found.map index.entryOf).countP (Value.endsIn target) =
      (store.documentsOf index.source).countP fun entry =>
        entry.2.leads start origin && entry.2.leads goal target := by
  rw [List.countP_map, (perm_matchingDocuments? hfound).countP_eq, foundDocuments,
    List.countP_filter, List.countP_map]
  apply List.countP_congr
  intro entry hentry
  rcases hrows entry hentry with ⟨held, hheld⟩
  simp only [Function.comp_apply, Bool.and_eq_true,
    IndexDefinition.endsIn_iff_leads hvalues,
    IndexDefinition.finds_iff_leads hterms hheld]
  exact and_comm

/-!
## Rows of a relationship
-/

/-- The document links an instance of a model to one of another, through a field. -/
def Document.Links (model field related : String) (document : Document) : Prop :=
  exists own timestamp id other,
    document = Store.storedDocument own timestamp
      (linkData model field { collection := model, id := id }
        { collection := related, id := other })

theorem Document.Links.data {model field related : String} {document : Document}
    (h : document.Links model field related) : exists id other,
      Keyed.get? document "data" =
        some (.document
          (linkData model field { collection := model, id := id }
            { collection := related, id := other })) := by
  rcases h with ⟨own, timestamp, id, other, rfl⟩
  exact ⟨id, other, rfl⟩

theorem Document.Links.ofOneForm {model field related : String} {a b : Document}
    (ha : a.Links model field related) (hb : b.Links model field related) :
    Value.OfOneForm (.document a) (.document b) := by
  rcases ha with ⟨own, timestamp, id, other, rfl⟩
  rcases hb with ⟨own', timestamp', id', other', rfl⟩
  refine .document fun key => ?_
  simp only [Store.storedDocument, Keyed.get?_cons, Keyed.get?_nil]
  split
  · exact .some (Value.ofOneForm_toValue _ _)
  · split
    · exact .some (.int _ _ _ _)
    · split
      · refine .some (.document fun key => ?_)
        simp only [linkData_eq, Keyed.get?_insert, Keyed.get?_cons, Keyed.get?_nil]
        split
        · exact .some (Value.ofOneForm_toValue _ _)
        · split
          · exact .some (Value.ofOneForm_toValue _ _)
          · exact .none
      · exact .none

def Document.joins (model field : String) (owner other : Reference)
    (document : Document) : Bool :=
  document.leads (ownerKey model) owner &&
    document.leads (relatedKey field) other

namespace Document

variable {model field : String} {owner other : Reference} {document : Document}

theorem at?_ownerKey
    (h : Keyed.get? document "data" =
      some (.document (linkData model field owner other)))
    (hapart : field ≠ model) :
    document.at? (dataPath (ownerKey model)) = some owner.toValue := by
  rw [at?_dataPath h get?_linkData_key, get?_linkData_owner hapart]
  rfl

theorem at?_relatedKey
    (h : Keyed.get? document "data" =
      some (.document (linkData model field owner other))) :
    document.at? (dataPath (relatedKey field)) = some other.toValue := by
  rw [at?_dataPath h get?_linkData_key, get?_linkData_related]
  rfl

theorem joins_iff
    (h : Keyed.get? document "data" =
      some (.document (linkData model field owner other)))
    (hapart : field ≠ model) {start goal : Reference} :
    document.joins model field start goal = true <->
      owner = start ∧ other = goal := by
  unfold joins
  rw [Bool.and_eq_true, leads_iff (at?_ownerKey h hapart),
    leads_iff (at?_relatedKey h)]

end Document

namespace Store

variable {store left : Store} {clock : Clock} {rows model field related : String}

/-- What is stored in a collection of links are links, and the next one has a new
number. -/
structure Rows (rows model field related : String) (store : Store) : Prop where
  numbers : store.NumbersGiven rows
  links : forall entry, entry ∈ store.documentsOf rows ->
    entry.2.Links model field related

/-- A lookup among links answers, whatever its entries are sorted by. -/
theorem Rows.exists_matchingDocuments? (hrows : store.Rows rows model field related)
    (relation : Relation) (name start goal : String) (terms : List Value) :
    exists found,
      store.matchingDocuments? (relation.joinIndex name rows start goal) terms =
        some found := by
  have hlinks : forall document,
      document ∈ store.foundDocuments (relation.joinIndex name rows start goal) terms ->
        document.Links model field related := by
    intro document hdocument
    rcases List.mem_map.mp (List.mem_filter.mp hdocument).1 with ⟨entry, hentry, rfl⟩
    exact hrows.links entry hentry
  exact ⟨_, matchingDocuments?_eq (IndexDefinition.preordersOn_of_ofOneForm
    fun a ha b hb => (hlinks a ha).ofOneForm (hlinks b hb))⟩

/-- How many rows link two instances. -/
def linkCount (rows model field : String) (owner other : Reference)
    (store : Store) : Nat :=
  (store.documentsOf rows).countP fun entry =>
    entry.2.joins model field owner other

theorem documentsOf_putDocument_of_ne {collection other : String}
    (h : collection ≠ other) (number : Nat) (document : Document) :
    (store.putDocument collection number document).documentsOf other =
      store.documentsOf other := by
  unfold putDocument
  split
  · unfold documentsOf
    rw [Keyed.get?_insert, if_neg h]
  · rfl

theorem documentsOf_remove_of_ne {reference : Reference} {other : String}
    (hfree : reference.collection ∉ Reference.reserved)
    (h : reference.collection ≠ other) :
    (store.remove reference).documentsOf other = store.documentsOf other := by
  have hnames := Reference.not_mem_reserved_iff.mp hfree
  unfold remove
  rw [if_neg hnames.1, if_neg hnames.2]
  split
  · rw [documentsOf_dropDocument, if_neg h]
  · rfl

theorem documentsOf_stepped (number : Nat) (other : String) :
    (store.stepped clock number).documentsOf other = store.documentsOf other :=
  rfl

theorem documentsOf_createDocument_of_ne {collection other : String}
    (h : collection ≠ other) {data document : Document}
    (hcreate : createDocument clock collection data store = .ok document left) :
    left.documentsOf other = store.documentsOf other := by
  rw [(createDocument_ok hcreate).2.2, documentsOf_putDocument_of_ne h]
  rfl

theorem Operated.documentsOf_eq {own : Model} {operation : Operation}
    (hrun : store.Operated clock own operation left)
    (hlink : forall id name other, operation ≠ .link id name other)
    (hfree : own.name ∉ Reference.reserved) (hname : own.name ≠ rows) :
    left.documentsOf rows = store.documentsOf rows := by
  cases hrun with
  | unchanged =>
      rfl
  | created _ hcreate =>
      exact documentsOf_createDocument_of_ne hname hcreate
  | updated _ hupdate =>
      rcases updateDocument_ok hupdate with ⟨_, _, _, _, _, hleft⟩
      rw [hleft]
      exact documentsOf_putDocument_of_ne hname _ _
  | deleted hdelete =>
      rw [(delete_ok hdelete).2]
      exact documentsOf_remove_of_ne hfree hname
  | linked _ _ =>
      exact absurd rfl (hlink _ _ _)

/-- The rows are still links, and there is one more between the ends that are said
to be linked. -/
structure RowsGrown (rows model field related : String)
    (added : String -> String -> Bool) (store left : Store) : Prop where
  kept : left.Rows rows model field related
  count : forall a b,
    left.linkCount rows model field { collection := model, id := a }
        { collection := related, id := b } =
      store.linkCount rows model field { collection := model, id := a }
          { collection := related, id := b } +
        if added a b then 1 else 0

variable {added : String -> String -> Bool}

theorem rowsGrown_of_eq (hrows : store.Rows rows model field related)
    (hnumbers : left.NumbersGiven rows)
    (heq : left.documentsOf rows = store.documentsOf rows)
    (hnone : forall a b, added a b = false) :
    store.RowsGrown rows model field related added left where
  kept :=
    { numbers := hnumbers
      links := fun entry hentry => hrows.links entry (heq ▸ hentry) }
  count a b := by
    rw [hnone a b, linkCount, linkCount, heq]
    rfl

theorem rowsGrown_createDocument {document : Document} {id other : String}
    (hrows : store.Rows rows model field related) (hapart : field ≠ model)
    (hcreate : createDocument clock rows
      (linkData model field { collection := model, id := id }
        { collection := related, id := other }) store = .ok document left)
    (hadded : forall a b, added a b = (id = a && other = b)) :
    store.RowsGrown rows model field related added left := by
  rcases createDocument_ok hcreate with ⟨hpresent, hdocument, hleft⟩
  rw [withoutNulls_linkData hapart] at hdocument
  have hdata : Keyed.get? document "data" =
      some (.document
        (linkData model field { collection := model, id := id }
          { collection := related, id := other })) := by
    rw [hdocument]
    rfl
  constructor
  · rw [hleft]
    constructor
    · exact numbersGiven_created hrows.numbers _ _
    · intro entry hentry
      rcases mem_documentsOf_putDocument hentry with ⟨_, heq⟩ | hold
      · rw [heq]
        exact ⟨_, _, id, other, hdocument⟩
      · exact hrows.links entry hold
  · intro a b
    have hstepped : Keyed.contains
        (store.stepped clock (store.lastNumber + 1)).collections rows = true :=
      hpresent
    have hperm := Ordered.perm_insert_of_fresh (a := document) hrows.numbers.fresh
    unfold linkCount
    rw [hleft, documentsOf_putDocument hstepped, if_pos rfl, documentsOf_stepped,
      hperm.countP_eq, List.countP_cons, hadded a b]
    simp [Document.joins_iff hdata hapart]

end Store

/-!
## Calls
-/

def Operation.isLink (id field other : String) : Operation -> Bool
  | link first through second =>
      first = id && through = field && second = other
  | _ => false

def Call.isLink (model field id other : String) (call : Call) : Bool :=
  call.model.name = model && call.operation.isLink id field other

def Call.answers (call : Call) (store : Store) : Bool :=
  match call.run store with
  | .ok _ _ => true
  | .error _ _ => false

/-- How many of the calls that are asked for answer, when the calls are made one
after the other. -/
def Store.answered (store : Store) (asked : Call -> Bool) : List Call -> Nat
  | [] => 0
  | call :: rest =>
      (if asked call && call.answers store then 1 else 0) +
        (store.after call.run).answered asked rest

namespace Manager

variable {clock : Clock} {model : Model} {store : Store}

theorem link_of_manyToMany {id field other : String} {related : Model}
    {relation : Relation} {join : JoinNames} {singular : Option String}
    (hfield : model.field? field =
      some (.manyToMany related relation join singular)) :
    (memory clock model).link id field other store =
      match Store.createDocument clock (join.collectionName model.name field)
        (linkData model.name field { collection := model.name, id := id }
          { collection := related.name, id := other }) store with
      | .ok _ left => .ok () left
      | .error error _ => .error error store := by
  have hrequest : model.linkRequest id field other =
      .ok (join.link model.name field (model.refFromId id)
        (related.refFromId other)) := by
    simp [Model.linkRequest, Model.requireField, hfield, bind, Except.bind, pure,
      Except.pure]
  rw [link, memory_model, hrequest]
  show (Store.query clock (join.link model.name field (model.refFromId id)
    (related.refFromId other)) >>= fun _ => pure ()) store = _
  simp only [bind, EStateM.bind]
  rw [Model.refFromId, Model.refFromId,
    Store.query_write (Expr.evaluate_link _ _ _ _ _ _)]
  cases Store.createDocument clock (join.collectionName model.name field)
    (linkData model.name field { collection := model.name, id := id }
      { collection := related.name, id := other }) store <;> rfl

theorem link_of_no_manyToMany {id field other : String}
    (hfield : forall related relation join singular,
      model.field? field ≠ some (.manyToMany related relation join singular)) :
    exists error,
      (memory clock model).link id field other store = .error error store := by
  cases hrequest : model.linkRequest id field other with
  | error misuse =>
      refine ⟨.misuse misuse, ?_⟩
      rw [link, memory_model, hrequest]
      rfl
  | ok request =>
      rcases Model.linkRequest_ok hrequest with
        ⟨related, relation, join, singular, hfound, _⟩
      exact absurd hfound (hfield _ _ _ _)

end Manager

namespace Call

variable {call : Call} {store left : Store}

theorem run_link {id field other : String}
    (h : call.operation = .link id field other) :
    call.run = (Manager.memory call.clock call.model).link id field other := by
  unfold run
  rw [h]

theorem after_of_ok (h : call.run store = .ok () left) :
    store.after call.run = left ∧ call.answers store = true := by
  simp [Store.after, answers, h]

theorem after_of_error {error : Error}
    (h : call.run store = .error error store) :
    store.after call.run = store ∧ call.answers store = false := by
  simp [Store.after, answers, h]

variable {rows model field related : String}

theorem rowsGrown_of_error {error : Error}
    (hrows : store.Rows rows model field related)
    (h : call.run store = .error error store) :
    store.RowsGrown rows model field related
      (fun a b => call.isLink model field a b && call.answers store)
      (store.after call.run) := by
  rcases after_of_error h with ⟨hafter, hanswers⟩
  rw [hafter]
  exact Store.rowsGrown_of_eq hrows hrows.numbers rfl (by simp [hanswers])

theorem rowsGrown_of_link {id through goal own other : String}
    {document : Document} (hrows : store.Rows rows model field related)
    (hapart : field ≠ model) (hnumbers : left.NumbersGiven rows)
    (hlink : call.operation = .link id through goal)
    (h : call.run store = .ok () left)
    (hcreate : Store.createDocument call.clock own
      (linkData call.model.name through { collection := call.model.name, id := id }
        { collection := other, id := goal }) store = .ok document left)
    (hsame : own = rows ∨ (call.model.name = model ∧ through = field) ->
      call.model.name = model ∧ through = field ∧ other = related ∧ own = rows) :
    store.RowsGrown rows model field related
      (fun a b => call.isLink model field a b && call.answers store)
      (store.after call.run) := by
  rcases after_of_ok h with ⟨hafter, hanswers⟩
  rw [hafter]
  by_cases hshared : own = rows
  · rcases hsame (Or.inl hshared) with ⟨hmodel, hthrough, hother, _⟩
    rw [hshared, hmodel, hthrough, hother] at hcreate
    apply Store.rowsGrown_createDocument hrows hapart hcreate
    intro a b
    simp [hanswers, isLink, hlink, Operation.isLink, hmodel, hthrough]
  · apply Store.rowsGrown_of_eq hrows hnumbers
      (Store.documentsOf_createDocument_of_ne hshared hcreate)
    intro a b
    by_contra hcounted
    simp only [isLink, hlink, Operation.isLink, Bool.and_eq_true,
      Bool.not_eq_false, decide_eq_true_eq] at hcounted
    exact hshared
      (hsame (Or.inr ⟨hcounted.1.1, hcounted.1.2.1.2⟩)).2.2.2

end Call

/-!
## One relationship of a deployment
-/

section

variable {deployment : Deployment} {provided store : Store} {base own : Model}
  {name field : String} {related other : Model} {relation side : Relation}
  {join names : JoinNames} {singular label : Option String}

/-- A field that shares the rows of a relationship, or its names, is the same
relationship. -/
theorem Deployment.Rooted.same_relationship (hrooted : deployment.Rooted)
    (hnamed : forall model, model ∈ deployment.models -> model.WellNamed)
    (hprovided : deployment.stored.Provided provided)
    (hbase : base ∈ deployment.stored.models)
    (hfield : (name, .manyToMany related relation join singular) ∈ base.fields)
    (hown : own ∈ deployment.models)
    (hother : (field, .manyToMany other side names label) ∈ own.fields)
    (h : names.collectionName own.name field = join.collectionName base.name name ∨
      (own.name = base.name ∧ field = name)) :
    own.name = base.name ∧ field = name ∧
      Field.manyToMany other side names label =
        .manyToMany related relation join singular := by
  rcases hrooted own hown with ⟨root, hroot, hextends⟩
  have hstored := hextends.mem_fields hother (by simp)
  rw [hextends.name] at h ⊢
  cases h with
  | inl hrows =>
      have hsame := hprovided.relationship_unique hroot hbase hstored hfield
        (List.mem_singleton_self _) (List.mem_singleton_self _) hrows
      cases hsame.1
      cases hsame.2
      exact ⟨rfl, rfl, rfl⟩
  | inr hnames =>
      have hsame := hprovided.model_unique hroot hbase List.mem_cons_self
        List.mem_cons_self hnames.1
      rw [hsame, hnames.2] at hstored
      have hdistinct := (hnamed base (Deployment.mem_stored_iff.mp hbase).1).distinct
      exact ⟨hnames.1, hnames.2, Keyed.eq_of_mem hdistinct hstored hfield⟩

/-- A call adds a row for the link of the relationship that it answers, and no
other. -/
theorem Call.rowsGrown (hrooted : deployment.Rooted)
    (hnamed : forall model, model ∈ deployment.models -> model.WellNamed)
    (hfree : forall model, model ∈ deployment.models ->
      model.name ∉ Reference.reserved)
    (hprovided : deployment.stored.Provided provided)
    (hbase : base ∈ deployment.stored.models)
    (hfield : (name, .manyToMany related relation join singular) ∈ base.fields)
    (hapart : name ≠ base.name)
    (hrows : store.Rows (join.collectionName base.name name) base.name name
      related.name)
    {call : Call} (hcall : call.model ∈ deployment.models) :
    store.RowsGrown (join.collectionName base.name name) base.name name
      related.name
      (fun a b => call.isLink base.name name a b && call.answers store)
      (store.after call.run) := by
  have hoperated : store.Operated call.clock call.model call.operation
      (store.after call.run) := call.operated
  have hnumbers := hoperated.numbersGiven (hfree call.model hcall) hrows.numbers
  have hname : call.model.name ≠ join.collectionName base.name name := by
    rcases hrooted call.model hcall with ⟨root, hroot, hextends⟩
    rw [hextends.name]
    exact (hprovided.join_ne_name hbase hroot
      (Model.mem_perField hfield (List.mem_singleton_self _))).symm
  cases hop : call.operation with
  | link id through goal =>
      by_cases hexists : exists other side names label,
          call.model.field? through = some (.manyToMany other side names label)
      · rcases hexists with ⟨other, side, names, label, hown⟩
        have hsame := hrooted.same_relationship hnamed hprovided hbase hfield hcall
          (Keyed.mem_of_get? hown)
        have hrun : call.run store = _ :=
          (congrFun (call.run_link hop) store).trans
            (Manager.link_of_manyToMany hown)
        cases hcreate : Store.createDocument call.clock
            (names.collectionName call.model.name through)
            (linkData call.model.name through
              { collection := call.model.name, id := id }
              { collection := other.name, id := goal }) store with
        | error error after =>
            rw [hcreate] at hrun
            exact Call.rowsGrown_of_error hrows hrun
        | ok document after =>
            rw [hcreate] at hrun
            rw [(Call.after_of_ok hrun).1] at hnumbers
            refine Call.rowsGrown_of_link hrows hapart hnumbers hop hrun hcreate ?_
            intro hshared
            rcases hsame hshared with ⟨hmodel, hthrough, hequal⟩
            cases hequal
            exact ⟨hmodel, hthrough, rfl, by rw [hmodel, hthrough]⟩
      · have hrefused : exists error, call.run store = .error error store := by
          rw [call.run_link hop]
          exact Manager.link_of_no_manyToMany fun other side names label hown =>
            hexists ⟨other, side, names, label, hown⟩
        rcases hrefused with ⟨error, hrun⟩
        exact Call.rowsGrown_of_error hrows hrun
  | _ =>
      apply Store.rowsGrown_of_eq hrows hnumbers
      · exact hoperated.documentsOf_eq (by simp [hop]) (hfree call.model hcall) hname
      · intro a b
        simp [Call.isLink, hop, Operation.isLink]

/-- Along a run the rows are as many as the links that were answered. -/
theorem Store.linkCount_afterCalls (hrooted : deployment.Rooted)
    (hnamed : forall model, model ∈ deployment.models -> model.WellNamed)
    (hfree : forall model, model ∈ deployment.models ->
      model.name ∉ Reference.reserved)
    (hprovided : deployment.stored.Provided provided)
    (hbase : base ∈ deployment.stored.models)
    (hfield : (name, .manyToMany related relation join singular) ∈ base.fields)
    (hapart : name ≠ base.name) {calls : List Call}
    (hcalls : forall call, call ∈ calls -> call.model ∈ deployment.models)
    (hrows : store.Rows (join.collectionName base.name name) base.name name
      related.name)
    (a b : String) :
    let left := store.afterCalls calls
    let rows := join.collectionName base.name name
    left.Rows rows base.name name related.name ∧
      left.linkCount rows base.name name { collection := base.name, id := a }
          { collection := related.name, id := b } =
        store.linkCount rows base.name name { collection := base.name, id := a }
            { collection := related.name, id := b } +
          store.answered (Call.isLink base.name name a b) calls := by
  intro left rows
  induction calls generalizing store with
  | nil =>
      exact ⟨hrows, rfl⟩
  | cons call rest ih =>
      have hgrown := call.rowsGrown hrooted hnamed hfree hprovided hbase hfield
        hapart hrows (hcalls call List.mem_cons_self)
      rcases ih (fun other hother => hcalls other (List.mem_cons_of_mem _ hother))
        hgrown.kept with ⟨hkept, hcount⟩
      refine ⟨hkept, hcount.trans ?_⟩
      rw [hgrown.count a b, Store.answered, Nat.add_assoc]

end

/-!
# Main statement
-/

theorem Deployment.links_seen_from_both_sides {deployment : Deployment}
    (hrooted : deployment.Rooted)
    (hnamed : forall model, model ∈ deployment.models -> model.WellNamed)
    (hfree : forall model, model ∈ deployment.models ->
      model.name ∉ Reference.reserved)
    {clock : Clock} {deployed : Store}
    (hdeploy : (Client.memory clock).deploy deployment Store.empty =
      .ok () deployed)
    {calls : List Call}
    (hcalls : forall call, call ∈ calls -> call.model ∈ deployment.models)
    {model : Model} (hmodel : model ∈ deployment.models) {name : String}
    {related : Model} {relation : Relation} {join : JoinNames}
    {singular : Option String}
    (hfield : (name, .manyToMany related relation join singular) ∈ model.fields)
    (hapart : name ≠ model.name) {reverse : String}
    (hreverse : relation.reverseIndexName? name = some reverse) (a b : String) :
    let owner : Reference := { collection := model.name, id := a }
    let other : Reference := { collection := related.name, id := b }
    let store := deployed.afterCalls calls
    exists forward backward,
      store.matching? (join.forwardIndexName model.name name) [owner.toValue] =
        some forward ∧
      store.matching? reverse [other.toValue] = some backward ∧
      forward.countP (Value.endsIn other) =
        deployed.answered (Call.isLink model.name name a b) calls ∧
      backward.countP (Value.endsIn owner) =
        deployed.answered (Call.isLink model.name name a b) calls := by
  rcases hrooted model hmodel with ⟨base, hbase, hextends⟩
  have hown := hextends.mem_fields hfield (by simp)
  rw [hextends.name] at hapart ⊢
  intro owner other store
  have hroots := deploy_stored hdeploy
  have hprovided := provided_of_deploy derived_of_mem_stored hroots
  have hempty := documentsOf_deployed derived_of_mem_stored hroots
    (join.collectionName base.name name)
  have hnone : deployed.Rows (join.collectionName base.name name) base.name name
      related.name := by
    constructor <;> (intro entry hentry; rw [hempty] at hentry; cases hentry)
  have hrun := Store.linkCount_afterCalls hrooted hnamed hfree hprovided hbase hown
    hapart hcalls hnone a b
  have hcount : store.linkCount (join.collectionName base.name name) base.name name
      owner other =
        deployed.answered (Call.isLink base.name name a b) calls := by
    rw [hrun.2, Store.linkCount, hempty]
    simp
  have hthere : relation.joinIndex (join.forwardIndexName base.name name)
      (join.collectionName base.name name) (ownerKey base.name)
      (relatedKey name) ∈ base.indexes :=
    Model.mem_perField hown List.mem_cons_self
  have hback : relation.joinIndex reverse (join.collectionName base.name name)
      (relatedKey name) (ownerKey base.name) ∈ base.indexes :=
    Model.mem_perField hown (by simp [Field.indexes, hreverse])
  rcases hrun.1.exists_matchingDocuments? relation (join.forwardIndexName base.name name)
    (ownerKey base.name) (relatedKey name) [owner.toValue] with ⟨first, hfirst⟩
  rcases hrun.1.exists_matchingDocuments? relation reverse (relatedKey name)
    (ownerKey base.name) [other.toValue] with ⟨second, hsecond⟩
  have hforward := matching?_afterCalls hdeploy hfree hcalls hbase hthere
    [owner.toValue]
  have hbackward := matching?_afterCalls hdeploy hfree hcalls hbase hback
    [other.toValue]
  refine ⟨_, _, hforward.trans (congrArg _ hfirst), hbackward.trans (congrArg _ hsecond),
    ?_, ?_⟩
  · rw [Store.countP_matchingDocuments? rfl rfl ?_ hfirst, <- hcount]
    · rfl
    · intro entry hentry
      rcases (hrun.1.links entry hentry).data with ⟨id, goal, hdata⟩
      exact ⟨_, Document.at?_ownerKey hdata hapart⟩
  · rw [Store.countP_matchingDocuments? rfl rfl ?_ hsecond, <- hcount]
    · exact List.countP_congr fun entry _ => by
        rw [Document.joins, Bool.and_comm]
    · intro entry hentry
      rcases (hrun.1.links entry hentry).data with ⟨id, goal, hdata⟩
      exact ⟨_, Document.at?_relatedKey hdata⟩

/-!
The statement at one run: a song is put on a list twice, a link through the reverse
side is refused, and the list is deleted.  Both links are still seen from both sides.
-/

def songModel : Model :=
  { name := "Song"
    fields := [("title", .scalar .string .string FieldOptions.plain)]
    derived := false }

def playlistModel : Model :=
  { name := "Playlist"
    fields :=
      [("songs",
        .manyToMany songModel
          { Relation.oneWay with
              reverse := some "lists", sort := some ["-ts", "title"] }
          { JoinNames.derived with collection := some "entries" } none)]
    derived := false }

def songWithLists : Model :=
  { songModel with
    fields := songModel.fields ++ [("lists", .reverse playlistModel "lists_by_songs")]
    derived := true }

def musicDeployment : Deployment :=
  { models := [songModel, playlistModel, songWithLists] }

def musicCalls : List Call :=
  [{ clock := fun _ => 0
     model := songWithLists
     operation := .create [("title", .string "Elm")] },
    { clock := fun _ => 0, model := playlistModel, operation := .create [] },
    { clock := fun _ => 0
      model := playlistModel
      operation := .link "2" "songs" "1" },
    { clock := fun _ => 0
      model := playlistModel
      operation := .link "2" "songs" "1" },
    { clock := fun _ => 0
      model := songWithLists
      operation := .link "1" "lists" "2" },
    { clock := fun _ => 0, model := playlistModel, operation := .delete "2" }]

theorem Deployment.links_seen_from_both_sides_music :
    exists deployed forward backward,
      (Client.memory fun _ => 0).deploy musicDeployment Store.empty =
        .ok () deployed ∧
      deployed.answered (Call.isLink "Playlist" "songs" "2" "1") musicCalls = 2 ∧
      (deployed.afterCalls musicCalls).matching? "songs_by_Playlist"
          [(Store.numbered "Playlist" 2).toValue] = some forward ∧
      (deployed.afterCalls musicCalls).matching? "lists_by_songs"
          [(Store.numbered "Song" 1).toValue] = some backward ∧
      forward.countP (Value.endsIn (Store.numbered "Song" 1)) = 2 ∧
      backward.countP (Value.endsIn (Store.numbered "Playlist" 2)) = 2 := by
  have hdeploy : (Client.memory fun _ => 0).deploy musicDeployment Store.empty =
      .ok () (Store.empty.after
        ((Client.memory fun _ => 0).deploy musicDeployment)) := by
    rfl
  have hsong : songModel ∈ musicDeployment.stored.models := by
    simp [Deployment.stored, musicDeployment, songModel]
  have hlist : playlistModel ∈ musicDeployment.stored.models := by
    simp [Deployment.stored, musicDeployment, playlistModel]
  have hextended : Model.reverse songModel playlistModel [("lists", "songs")] =
      .ok songWithLists := by
    rfl
  have hrooted : musicDeployment.Rooted := by
    apply Deployment.rooted_of_extended
    simp only [musicDeployment, List.forall_mem_cons]
    refine ⟨.own hsong, .own hlist, .reverse (.own hsong) (.own hlist) hextended, ?_⟩
    intro model hmodel
    cases hmodel
  have hnamed : forall model, model ∈ musicDeployment.models ->
      model.WellNamed := by
    simp only [musicDeployment, List.forall_mem_cons]
    refine ⟨?_, ?_, ?_, ?_⟩
    · constructor <;> decide
    · constructor <;> decide
    · constructor <;> decide
    · intro model hmodel
      cases hmodel
  have hcalls : forall call, call ∈ musicCalls ->
      call.model ∈ musicDeployment.models := by
    simp [musicCalls, musicDeployment]
  have hanswered : (Store.empty.after
      ((Client.memory fun _ => 0).deploy musicDeployment)).answered
        (Call.isLink "Playlist" "songs" "2" "1") musicCalls = 2 := by
    with_unfolding_all rfl
  rcases Deployment.links_seen_from_both_sides hrooted hnamed (by decide) hdeploy
      hcalls (Deployment.mem_stored_iff.mp hlist).1 List.mem_cons_self (by decide) rfl "2" "1" with
    ⟨forward, backward, hforward, hbackward, hfirst, hsecond⟩
  exact ⟨_, forward, backward, hdeploy, hanswered, hforward, hbackward,
    hfirst.trans hanswered, hsecond.trans hanswered⟩

end DocumentMapper
