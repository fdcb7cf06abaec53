import DocumentMapper.Proofs.Links
import DocumentMapper.Proofs.TypedFields

/-!
# Forward and reverse views

A reference is seen from two sides: the instance that holds it shows the instance
that it leads to, and the reverse index lists the holder under the reference of that
instance.

The first view reads the number inside the reference and the second compares
references as values, and one document has many references: its id may be written
with a sign or with zeros in front, and the value may carry other keys.  So whatever
the index lists is shown, and what is shown is listed where the reference is written
as the store writes it.
-/

namespace DocumentMapper

/-!
## The reverse index
-/

namespace Store

variable {store : Store} {index : IndexDefinition} {collection field : String}

def Listed (entries : List Value) (target : Reference) : Prop :=
  exists entry, entry ∈ entries ∧ entry.endsIn target = true

/-- An index of instances over one field lists an instance under a reference exactly
where the field holds a value that is the same. -/
theorem listed_iff (hstore : store.Consistent)
    (hfree : index.source ∉ Reference.reserved)
    (hterms : index.terms = [{ field := dataPath field }])
    {front : List IndexValue}
    (hvalues : index.values = front ++ [IndexValue.ownReference])
    {entry : Nat × Document} (hentry : entry ∈ store.documentsOf index.source)
    {target : Reference} {found : List Document}
    (hmatching : store.matchingDocuments? index [target.toValue] = some found) :
    Listed (found.map index.entryOf) (numbered index.source entry.1) <->
      exists held, entry.2.at? (dataPath field) = some held ∧
        held.same target.toValue = true := by
  have hown : forall other, other ∈ store.documentsOf index.source ->
      (index.entryOf other.2).last? =
        some (numbered index.source other.1).toValue := by
    intro other hother
    rcases hstore.fits _ _ hother with ⟨own, hstamped, hnumbered⟩
    rw [IndexDefinition.last?_entryOf hvalues]
    rw [<- hnumbered hfree]
    exact hstamped.at?_ref
  have hfinds : forall document : Document,
      index.finds [target.toValue] document = true <->
        exists held, document.at? (dataPath field) = some held ∧
          held.same target.toValue = true := by
    intro document
    rw [IndexDefinition.finds_iff, IndexDefinition.termsOf?_single hterms]
    cases document.at? (dataPath field) with
    | none => simp
    | some held => simp [Value.Agree]
  have hmem := fun document =>
    (perm_matchingDocuments? hmatching).mem_iff (a := document)
  constructor
  · rintro ⟨listed, hlisted, hends⟩
    rcases List.mem_map.mp hlisted with ⟨document, hdocument, heq⟩
    rw [hmem, foundDocuments, List.mem_filter, List.mem_map] at hdocument
    rcases hdocument with ⟨⟨other, hother, hsame⟩, hfound⟩
    rw [<- heq, <- hsame, Value.endsIn, hown other hother, Option.bind_some,
      Reference.ofValue?_toValue] at hends
    have hnumber : other.1 = entry.1 := by
      apply toString_injective
      simpa [numbered] using hends
    have hone : (entry.1, other.2) ∈ store.documentsOf index.source :=
      hnumber ▸ hother
    rw [hstore.document_unique hentry hone, hsame]
    exact (hfinds document).mp hfound
  · intro hheld
    refine ⟨index.entryOf entry.2, List.mem_map_of_mem ?_, ?_⟩
    · rw [hmem, foundDocuments, List.mem_filter]
      exact ⟨List.mem_map_of_mem hentry, (hfinds entry.2).mpr hheld⟩
    · rw [Value.endsIn, hown entry hentry, Option.bind_some,
        Reference.ofValue?_toValue]
      simp

end Store

/-!
## The instance that is shown
-/

/-- What is shown under a key is the instance with an id. -/
def Document.Shows (name id : String) (shown : Document) : Prop :=
  exists inner, Keyed.get? shown name = some (.document inner) ∧
    Keyed.get? inner "id" = some (.string id)

theorem Document.HoldsAt.shaped {document : Document} {name : String}
    {schema : Schema} (h : document.HoldsAt name schema) (hid : name ≠ "id")
    (hcollection : name = "collection" ->
      document.HoldsAt Reference.key .never)
    {held : Value} (hheld : document.at? (dataPath name) = some held) :
    schema.Shaped held := by
  rcases h with ⟨data, hdata, _, hvalue⟩
  have hinside : Value.entry? data name = Keyed.get? data name := by
    by_cases hname : name = "collection"
    · rcases hcollection hname with ⟨same, hsame, _, hnone⟩
      rw [hdata] at hsame
      cases hsame
      have hkey : Keyed.get? data Reference.key = none := by
        cases hfound : Keyed.get? data Reference.key with
        | none => rfl
        | some value => exact absurd (hnone value hfound).2 (hnone value hfound).1
      simp [Value.entry?, hkey]
    · exact Value.entry?_eq_get? hid hname
  rw [at?_dataPath_of_entry hdata hinside, Option.bind_eq_some_iff] at hheld
  rcases hheld with ⟨value, hfound, hpresent⟩
  rw [Value.eq_of_present? hpresent]
  exact (hvalue value hfound).2

theorem Field.shapeAt_reference (related : Model) (isOptional : Bool)
    (relation : Relation) (options : FieldOptions) (value : Value) :
    (Field.reference related isOptional relation options).readSchema.shapeAt
        (some value) =
      some ((Schema.object related.readFields).shape value) := by
  rw [Field.readSchema, related.readSchema_eq]
  cases isOptional <;> rfl

theorem Store.identity_of_find? {store : Store} (hstore : store.Consistent)
    {reference : Reference} (hfree : reference.collection ∉ Reference.reserved)
    {document : Document} (h : store.find? reference = some document) :
    exists number, documentNumber? reference.id = some number ∧
      document.identity = .string (toString number) := by
  rcases mem_documentsOf_of_find? hfree h with ⟨number, hnumber, hmem⟩
  rcases hstore.fits _ _ hmem with ⟨own, hstamped, hown⟩
  refine ⟨number, hnumber, ?_⟩
  rw [Document.identity, hstamped.ref, hown hfree, Option.bind_some,
    Reference.ofValue?_toValue]
  rfl

/-- An instance shows the instance whose number the reference that it holds has. -/
theorem Model.shows_iff {store : Store} (hstore : store.Consistent)
    {model related : Model} (hnamed : model.WellNamed)
    (hrelated : related.WellNamed) (hfree : related.name ∉ Reference.reserved)
    {name : String} {isOptional : Bool} {relation : Relation}
    {options : FieldOptions}
    (hfield : (name, .reference related isOptional relation options) ∈
      model.fields)
    {start : Value} {document entries shown : Document}
    (hentries : model.ShownAs store start document entries)
    (hparse : model.parseInstance (.document entries) = .ok shown)
    (hshaped : forall held, document.at? (dataPath name) = some held ->
      Schema.ReferenceInto related.name held)
    (number : Nat) :
    shown.Shows name (toString number) <->
      exists held reference, document.at? (dataPath name) = some held ∧
        Reference.ofValue? held = some reference ∧
        documentNumber? reference.id = some number := by
  rcases hentries.field name _ hfield with ⟨value, hvalue, hread⟩
  have hget := hnamed.get?_of_parseInstance hparse name
  rw [hnamed.get?_readFields hfield, hvalue, Option.bind_some,
    Field.shapeAt_reference] at hget
  unfold Document.Shows
  rw [hget]
  rw [Field.read] at hread
  cases hheld : document.at? (dataPath name) with
  | none =>
      rw [hheld] at hread
      cases hread
      simp [Schema.shape]
  | some held =>
      rw [hheld] at hread
      rcases hrelated.read_ok hread with
        ⟨reference, found, inner, hreference, hfound, heq, hinner⟩
      rcases (hshaped held hheld).ofValue? with ⟨id, hid⟩
      have hcollection : reference.collection = related.name := by
        rw [hreference] at hid
        rw [Option.some.inj hid]
      rcases Store.identity_of_find? hstore (hcollection ▸ hfree) hfound with
        ⟨own, hown, hidentity⟩
      have hshown : Keyed.get?
          (Schema.shapeFields related.readFields inner []) "id" =
            some (.string (toString own)) := by
        rw [Schema.get?_shapeFields_nil hrelated.nodup_readFields,
          hrelated.get?_readFields_id, hinner.id, hidentity]
        rfl
      rw [heq, Schema.shape]
      constructor
      · rintro ⟨shownInner, hsame, hnumber⟩
        cases hsame
        rw [hshown, Option.some.injEq, Value.string.injEq] at hnumber
        rw [toString_injective hnumber] at hown
        exact ⟨held, reference, rfl, hreference, hown⟩
      · rintro ⟨other, target, hother, htarget, hnumber⟩
        cases hother
        rw [hreference] at htarget
        cases htarget
        rw [hown] at hnumber
        cases hnumber
        exact ⟨_, rfl, hshown⟩

theorem Model.ShownAs.leads {store : Store} {model related : Model}
    {start : Value} {document entries : Document}
    (h : model.ShownAs store start document entries)
    (hrelated : related.WellNamed) {name : String} {isOptional : Bool}
    {relation : Relation} {options : FieldOptions}
    (hfield : (name, .reference related isOptional relation options) ∈
      model.fields)
    {held : Value} (hheld : document.at? (dataPath name) = some held) :
    exists reference found, Reference.ofValue? held = some reference ∧
      store.find? reference = some found := by
  rcases h.field name _ hfield with ⟨value, _, hread⟩
  rw [Field.read, hheld] at hread
  rcases hrelated.read_ok hread with
    ⟨reference, found, _, hreference, hfound, _⟩
  exact ⟨reference, found, hreference, hfound⟩

theorem Manager.shownAs_of_get {store left : Store} (hstore : store.Consistent)
    {model : Model} (hnamed : model.WellNamed)
    (hfree : model.name ∉ Reference.reserved) {entry : Nat × Document}
    (hentry : entry ∈ store.documentsOf model.name) {now : Clock}
    {shown : Document}
    (h : (Manager.memory now model).get (toString entry.1) store =
      .ok shown left) :
    exists start entries, model.ShownAs store start entry.2 entries ∧
      model.parseInstance (.document entries) = .ok shown := by
  rcases (readOne_ok_iff (Model.reads_getRequest hstore model _)).mp h with
    ⟨_, raw, hread, hparse⟩
  rcases hnamed.read_ok hread with
    ⟨reference, document, entries, hreference, hfound, hraw, hentries⟩
  rw [Reference.ofValue?_toValue, Option.some.injEq] at hreference
  rw [<- hreference] at hfound
  rcases Store.mem_documentsOf_of_find? hfree hfound with ⟨number, hnumber, hmem⟩
  rw [number_eq_of_documentNumber? hnumber] at hmem
  rw [hstore.document_unique hmem hentry] at hentries
  rw [hraw] at hparse
  exact ⟨_, entries, hentries, hparse⟩

/-!
## One reference of a deployment
-/

theorem Relation.exists_reverseIndex {relation : Relation} {field name : String}
    (h : relation.reverseIndexName? field = some name) (model : String) :
    exists definition,
      relation.reverseIndex? model field = some definition ∧
        definition.name = name ∧ definition.source = model ∧
        definition.terms = [{ field := dataPath field }] ∧
        definition.values = sortValues relation.sort ++ [IndexValue.ownReference] := by
  rw [reverseIndex?, h, Option.map_some]
  exact ⟨_, rfl, rfl, rfl, rfl, rfl⟩

/-- The reverse index sorts by what a model chose, and that puts the many rows that it
finds in no consistent order. -/
def Relation.GivesUp (relation : Relation) (model field : String) (store : Store)
    (target : Reference) : Prop :=
  relation.sort.getD defaultSort ≠ defaultSort ∧
    exists definition, relation.reverseIndex? model field = some definition ∧
      store.OutOfOrder definition [target.toValue]

section

variable {deployment : Deployment} {clock : Clock} {deployed : Store}
  {calls : List Call} {base model related : Model} {name reverse : String}
  {isOptional : Bool} {relation : Relation} {options : FieldOptions}
  {entry : Nat × Document}

/-- What a reference field holds leads into the collection of its related model. -/
theorem Deployment.referenceInto_afterCalls (hrooted : deployment.Rooted)
    (hnamed : forall model, model ∈ deployment.models -> model.WellNamed)
    (hfree : forall model, model ∈ deployment.models ->
      model.name ∉ Reference.reserved)
    (hdeploy : (Client.memory clock).deploy deployment Store.empty =
      .ok () deployed)
    (hcalls : forall call, call ∈ calls ->
      call.model ∈ deployment.models ∧ call.operation.DistinctKeys)
    (hbase : base ∈ deployment.stored.models)
    (hfield : (name, .reference related isOptional relation options) ∈ base.fields)
    (hapart : name = "collection" -> Reference.key ∉ Keyed.keys base.fields)
    (hentry : entry ∈ (deployed.afterCalls calls).documentsOf base.name)
    {held : Value} (hheld : entry.2.at? (dataPath name) = some held) :
    Schema.ReferenceInto related.name held := by
  have hprovided := provided_of_deploy derived_of_mem_stored (deploy_stored hdeploy)
  have hown := hnamed base (mem_stored_iff.mp hbase).1
  have hholds : forall {key schema}, base.AdmitsAt key schema ->
      entry.2.HoldsAt key schema := fun hadmits =>
    Store.holdsAt_afterCalls hrooted hnamed hfree hdeploy hcalls hbase
      (Store.admittedAt_of_field hrooted hprovided hbase hadmits) hentry
  have hadmits : base.AdmitsAt name (.reference related.name) := by
    intro field hin
    cases Keyed.eq_of_mem hown.distinct hfield hin
    cases isOptional with
    | true => exact ⟨trivial, fun value hvalue => hvalue⟩
    | false => exact ⟨trivial, fun value hvalue => Or.inr hvalue⟩
  have hkey : name = "collection" -> base.AdmitsAt Reference.key .never :=
    fun hname field hin =>
      absurd (Keyed.mem_keys_of_mem hin) (hapart hname)
  exact (hholds hadmits).shaped (hown.ne_id hfield).symm
    (fun hname => hholds (hkey hname)) hheld

theorem Deployment.listed_afterCalls
    (hfree : forall model, model ∈ deployment.models ->
      model.name ∉ Reference.reserved)
    (hdeploy : (Client.memory clock).deploy deployment Store.empty =
      .ok () deployed)
    (hcalls : forall call, call ∈ calls -> call.model ∈ deployment.models)
    (hbase : base ∈ deployment.stored.models)
    (hfield : (name, .reference related isOptional relation options) ∈ base.fields)
    (hreverse : relation.reverseIndexName? name = some reverse)
    (hentry : entry ∈ (deployed.afterCalls calls).documentsOf base.name)
    (target : Reference) :
    (deployed.afterCalls calls).matching? reverse [target.toValue] = none ∧
        relation.GivesUp base.name name (deployed.afterCalls calls) target ∨
      exists listed,
        (deployed.afterCalls calls).matching? reverse [target.toValue] =
          some listed ∧
        (Store.Listed listed (Store.numbered base.name entry.1) <->
          exists held, entry.2.at? (dataPath name) = some held ∧
            held.same target.toValue = true) := by
  rcases relation.exists_reverseIndex hreverse base.name with
    ⟨definition, hindex, hname, hsource, hterms, hvalues⟩
  have hdefinition : definition ∈ base.indexes :=
    Model.mem_perField hfield (by
      rw [Field.indexes, hindex]
      exact List.mem_append_right _ (List.mem_singleton_self definition))
  have hstore := Store.consistent_afterCalls
    (reachable_of_deploy hdeploy).consistent calls
  have hafter := matching?_afterCalls hdeploy hfree hcalls hbase hdefinition
    [target.toValue]
  rw [hname] at hafter
  cases hmatching :
      (deployed.afterCalls calls).matchingDocuments? definition [target.toValue] with
  | none =>
      rw [hmatching] at hafter
      have hout := Store.outOfOrder_of_matchingDocuments? hmatching
      refine Or.inl ⟨hafter, fun hdefault => ?_, definition, hindex, hout⟩
      rw [sortValues_default hdefault] at hvalues
      refine hout.2 (IndexDefinition.preordersOn_of_default hvalues ?_)
      intro document hdocument
      rcases List.mem_map.mp (List.mem_filter.mp hdocument).1 with ⟨own, hown, rfl⟩
      rcases hstore.fits _ _ hown with ⟨reference, hstamped, _⟩
      exact ⟨reference, hstamped⟩
  | some found =>
      rw [hmatching] at hafter
      rw [<- hsource] at hentry ⊢
      exact Or.inr ⟨_, hafter,
        Store.listed_iff hstore (hsource ▸ hfree base (mem_stored_iff.mp hbase).1)
          hterms hvalues hentry hmatching⟩

theorem Deployment.shows_afterCalls (hrooted : deployment.Rooted)
    (hnamed : forall model, model ∈ deployment.models -> model.WellNamed)
    (hfree : forall model, model ∈ deployment.models ->
      model.name ∉ Reference.reserved)
    (hdeploy : (Client.memory clock).deploy deployment Store.empty =
      .ok () deployed)
    (hcalls : forall call, call ∈ calls ->
      call.model ∈ deployment.models ∧ call.operation.DistinctKeys)
    (hmodel : model ∈ deployment.models)
    (hfield : (name, .reference related isOptional relation options) ∈ model.fields)
    (hrelated : related.WellNamed) (hreserved : related.name ∉ Reference.reserved)
    (hapart : name = "collection" ->
      forall base, base ∈ deployment.stored.models -> base.name = model.name ->
        Reference.key ∉ Keyed.keys base.fields)
    (hentry : entry ∈ (deployed.afterCalls calls).documentsOf model.name)
    (number : Nat) (now : Clock) (shown : Document) (left : Store)
    (hget : (Manager.memory now model).get (Store.numbered model.name entry.1).id
      (deployed.afterCalls calls) = .ok shown left) :
    shown.Shows name (Store.numbered related.name number).id <->
      exists held reference, entry.2.at? (dataPath name) = some held ∧
        Reference.ofValue? held = some reference ∧
        documentNumber? reference.id = some number := by
  rcases hrooted model hmodel with ⟨base, hbase, hextends⟩
  have hown := hextends.mem_fields hfield (by simp)
  have hmem := hentry
  rw [hextends.name] at hmem
  have hstore := Store.consistent_afterCalls
    (reachable_of_deploy hdeploy).consistent calls
  rcases Manager.shownAs_of_get hstore (hnamed model hmodel) (hfree model hmodel)
    hentry hget with ⟨start, entries, hentries, hparse⟩
  exact Model.shows_iff hstore (hnamed model hmodel) hrelated hreserved hfield hentries
    hparse
    (fun held hheld => referenceInto_afterCalls hrooted hnamed hfree hdeploy hcalls
      hbase hown (fun hname => hapart hname base hbase hextends.name.symm) hmem hheld)
    number

end

/-!
# Main statement

What the index lists, what the instance shows, and how far the two agree.
-/

theorem Deployment.views_of_reference {deployment : Deployment}
    (hrooted : deployment.Rooted)
    (hnamed : forall model, model ∈ deployment.models -> model.WellNamed)
    (hfree : forall model, model ∈ deployment.models ->
      model.name ∉ Reference.reserved)
    {clock : Clock} {deployed : Store}
    (hdeploy : (Client.memory clock).deploy deployment Store.empty =
      .ok () deployed)
    {calls : List Call}
    (hcalls : forall call, call ∈ calls ->
      call.model ∈ deployment.models ∧ call.operation.DistinctKeys)
    {model : Model} (hmodel : model ∈ deployment.models) {name : String}
    {related : Model} {isOptional : Bool} {relation : Relation}
    {options : FieldOptions}
    (hfield : (name, .reference related isOptional relation options) ∈
      model.fields)
    (hrelated : related.WellNamed) (hreserved : related.name ∉ Reference.reserved)
    (hapart : name = "collection" ->
      forall base, base ∈ deployment.stored.models -> base.name = model.name ->
        Reference.key ∉ Keyed.keys base.fields)
    {reverse : String} (hreverse : relation.reverseIndexName? name = some reverse)
    {entry : Nat × Document}
    (hentry : entry ∈ (deployed.afterCalls calls).documentsOf model.name)
    (number : Nat) :
    let store := deployed.afterCalls calls
    let source := Store.numbered model.name entry.1
    let target := Store.numbered related.name number
    (forall now shown left,
      (Manager.memory now model).get source.id store = .ok shown left ->
      (shown.Shows name target.id <->
        exists held reference, entry.2.at? (dataPath name) = some held ∧
          Reference.ofValue? held = some reference ∧
          documentNumber? reference.id = some number)) ∧
    (store.matching? reverse [target.toValue] = none ∧
        relation.GivesUp model.name name store target ∨
      exists listed, store.matching? reverse [target.toValue] = some listed ∧
        (Store.Listed listed source <->
          exists held, entry.2.at? (dataPath name) = some held ∧
            held.same target.toValue = true) ∧
        forall now shown left,
          (Manager.memory now model).get source.id store = .ok shown left ->
          (Store.Listed listed source -> shown.Shows name target.id) ∧
          ((forall held, entry.2.at? (dataPath name) = some held ->
              exists own, held.same (Store.numbered related.name own).toValue =
                true) ->
            (shown.Shows name target.id <-> Store.Listed listed source))) := by
  rcases hrooted model hmodel with ⟨base, hbase, hextends⟩
  have hown := hextends.mem_fields hfield (by simp)
  have hmem := hentry
  rw [hextends.name] at hmem
  intro store source target
  have hlists := listed_afterCalls hfree hdeploy
    (fun call hcall => (hcalls call hcall).1) hbase hown hreverse hmem target
  rw [<- hextends.name] at hlists
  have hstore := Store.consistent_afterCalls
    (reachable_of_deploy hdeploy).consistent calls
  have hshows := shows_afterCalls hrooted hnamed hfree hdeploy hcalls hmodel hfield
    hrelated hreserved hapart hentry number
  refine ⟨hshows, hlists.imp_right ?_⟩
  rintro ⟨listed, hmatching, hlisted⟩
  refine ⟨listed, hmatching, hlisted, ?_⟩
  intro now shown left hget
  have hiff := hshows now shown left hget
  have hlist : Store.Listed listed source -> shown.Shows name target.id := by
    intro hin
    rcases hlisted.mp hin with ⟨held, hheld, hsame⟩
    rcases Manager.shownAs_of_get hstore (hnamed model hmodel) (hfree model hmodel)
      hentry hget with ⟨start, entries, hentries, _⟩
    have htarget := Value.ofValue?_of_same hsame
    rcases hentries.leads hrelated hfield hheld with
      ⟨reference, found, hreference, hfound⟩
    rw [htarget, Option.some.injEq] at hreference
    rw [<- hreference] at hfound
    rcases Store.get?_documentsOf_of_find? hreserved hfound with ⟨own, hnumber, _⟩
    refine hiff.mpr ⟨held, target, hheld, htarget, ?_⟩
    rw [number_eq_of_documentNumber? hnumber] at hnumber
    exact hnumber
  refine ⟨hlist, fun hcanonical => ⟨fun hvisible => ?_, hlist⟩⟩
  rcases hiff.mp hvisible with ⟨held, reference, hheld, hreference, hnumber⟩
  rcases hcanonical held hheld with ⟨own, hsame⟩
  rw [Value.ofValue?_of_same hsame, Option.some.injEq] at hreference
  rw [<- hreference] at hnumber
  rw [<- number_eq_of_documentNumber? hnumber] at hsame
  exact hlisted.mpr ⟨held, hheld, hsame⟩

/-!
The statement at one run: a job is created for a user who has it, under the id as
the store writes it, so the user is shown and the job is listed.
-/

def userModel : Model :=
  { name := "User"
    fields := [("name", .scalar .string .string FieldOptions.plain)]
    derived := false }

def jobModel : Model :=
  { name := "Job"
    fields :=
      [("owner",
        .reference userModel false
          { Relation.oneWay with reverse := some "jobs" } FieldOptions.plain)]
    derived := false }

def jobDeployment : Deployment :=
  { models := [userModel, jobModel] }

def jobCalls (owner : String) : List Call :=
  [{ clock := fun _ => 0
     model := userModel
     operation := .create [("name", .string "Ann")] },
    { clock := fun _ => 0
      model := jobModel
      operation := .create [("owner", .string owner)] }]

def jobStore (owner : String) : Store :=
  (Store.empty.after
    ((Client.memory fun _ => 0).deploy jobDeployment)).afterCalls (jobCalls owner)

def createdJob (owner : String) : Document :=
  [("ref", (Store.numbered "Job" 2).toValue), ("ts", .int .long 5),
    ("data",
      .document
        [("owner", Reference.toValue { collection := "User", id := owner })])]

def shownJob : Document :=
  [("owner",
      .document
        [("name", .string "Ann"), ("id", .string "1"), ("ts", .int .long 4)]),
    ("id", .string "2"), ("ts", .int .long 5)]

theorem Deployment.views_of_reference_job :
    exists listed,
      (jobStore "1").matching? "jobs_by_owner"
          [(Store.numbered "User" 1).toValue] = some listed ∧
      (Manager.memory (fun _ => 0) jobModel).get "2" (jobStore "1") =
        .ok shownJob (jobStore "1") ∧
      shownJob.Shows "owner" "1" ∧
      Store.Listed listed (Store.numbered "Job" 2) := by
  have hdeploy : (Client.memory fun _ => 0).deploy jobDeployment Store.empty =
      .ok () (Store.empty.after
        ((Client.memory fun _ => 0).deploy jobDeployment)) := by
    rfl
  have huser : userModel ∈ jobDeployment.stored.models := by
    simp [Deployment.stored, jobDeployment, userModel]
  have hjob : jobModel ∈ jobDeployment.stored.models := by
    simp [Deployment.stored, jobDeployment, jobModel]
  have hrooted : jobDeployment.Rooted := by
    apply Deployment.rooted_of_extended
    simp only [jobDeployment, List.forall_mem_cons]
    refine ⟨.own huser, .own hjob, ?_⟩
    intro model hmodel
    cases hmodel
  have hnamed : forall model, model ∈ jobDeployment.models -> model.WellNamed := by
    simp only [jobDeployment, List.forall_mem_cons]
    refine ⟨?_, ?_, ?_⟩
    · constructor <;> decide
    · constructor <;> decide
    · intro model hmodel
      cases hmodel
  have hcalls : forall call, call ∈ jobCalls "1" ->
      call.model ∈ jobDeployment.models ∧ call.operation.DistinctKeys := by
    simp [jobCalls, jobDeployment, Operation.DistinctKeys, Value.DistinctKeys,
      Value.DistinctKeysInEntries, Keyed.keys]
  have hentry : (2, createdJob "1") ∈
      (jobStore "1").documentsOf jobModel.name :=
    List.mem_singleton_self _
  have hget : (Manager.memory (fun _ => 0) jobModel).get "2" (jobStore "1") =
      .ok shownJob (jobStore "1") := by
    with_unfolding_all rfl
  rcases Deployment.views_of_reference hrooted hnamed (by decide) hdeploy hcalls
      (Deployment.mem_stored_iff.mp hjob).1 List.mem_cons_self
      (hnamed userModel (Deployment.mem_stored_iff.mp huser).1) (by decide)
      (fun hname => absurd hname (by decide)) rfl hentry 1 with
    ⟨hforward, ⟨_, hgivesUp⟩ | ⟨listed, hmatching, _, hviews⟩⟩
  · exact absurd rfl hgivesUp.1
  have hshown : shownJob.Shows "owner" "1" :=
    (hforward _ _ _ hget).mpr ⟨_, Store.numbered "User" 1, rfl, rfl, by decide⟩
  have hcanonical : forall held, (createdJob "1").at? (dataPath "owner") = some held ->
      exists own, held.same (Store.numbered "User" own).toValue = true := by
    intro held hheld
    have hsame : (createdJob "1").at? (dataPath "owner") =
        some (Store.numbered "User" 1).toValue := by
      rfl
    rw [hsame] at hheld
    cases hheld
    exact ⟨1, by rfl⟩
  exact ⟨listed, hmatching, hget, hshown,
    ((hviews _ _ _ hget).2 hcanonical).mp hshown⟩

/-!
The exception: the id of the user is written with zeros in front.  The user is shown,
and the job is not listed under the reference of the user.
-/

theorem Deployment.owner_shown_and_not_listed :
    Keyed.keys ((jobStore "001").documentsOf "User") = [1] ∧
      (jobStore "001").documentsOf "Job" = [(2, createdJob "001")] ∧
      (Manager.memory (fun _ => 0) jobModel).get "2" (jobStore "001") =
        .ok shownJob (jobStore "001") ∧
      shownJob.Shows "owner" "1" ∧
      (jobStore "001").matching? "jobs_by_owner"
          [(Store.numbered "User" 1).toValue] = some [] := by
  refine ⟨rfl, rfl, ?_, ⟨_, rfl, rfl⟩, ?_⟩
  · with_unfolding_all rfl
  · with_unfolding_all rfl

end DocumentMapper
