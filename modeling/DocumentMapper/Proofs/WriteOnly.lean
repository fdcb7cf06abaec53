import DocumentMapper.Proofs.Instances
import DocumentMapper.Proofs.Redaction
import DocumentMapper.Proofs.TwoRuns

/-!
# Write-only values

What is stored under a write-only key does not show.  The value is loaded with its
document and is part of what a query answers, at every depth, and only the parse by
the read schema drops it.  So two stores that are the same but for that key answer
every read alike.

The induction is over the model, and what it carries is that the read schema of the
model cannot tell the two answers apart.
-/

namespace DocumentMapper

/-!
## Models
-/

/-- A model is reached from itself and from every model that has a field leading to
it. -/
inductive Model.Reaches : Model -> Model -> Prop where
  | here {model : Model} : Reaches model model
  | through {model related other : Model} {field : String × Field}
      (hfield : field ∈ model.fields) (hrelated : field.2.related? = some related)
      (h : Reaches related other) : Reaches model other

/-- Wherever the model leads, names are kept apart as they are in every model that is
declared, and a field of the secret name is write-only. -/
structure Model.Hides (secret : String) (model : Model) : Prop where
  named : forall other, model.Reaches other -> other.WellNamed
  hidden : forall other, model.Reaches other ->
    forall field, (secret, field) ∈ other.fields ->
      exists written options, field = .scalar written .hidden options

theorem Model.Hides.related {secret : String} {model related : Model}
    (h : model.Hides secret) {field : String × Field} (hfield : field ∈ model.fields)
    (hrelated : field.2.related? = some related) : related.Hides secret where
  named other hother := h.named other (.through hfield hrelated hother)
  hidden other hother := h.hidden other (.through hfield hrelated hother)

/-- The stores are the same but for the key, which no index looks at. -/
structure Store.Twins (secret : String) (a b : Store) : Prop where
  first : a.Consistent
  second : b.Consistent
  other : secret ≠ Reference.key
  same : a.SameBut secret b
  clear : a.IndexesClearOf secret

def Model.ShownAlike (first second : Clock) (a b : Store) (model : Model) : Prop :=
  forall (reference : Expr) (scope scope' : Scope) (start : Value),
    reference.evaluate first scope = pure start ->
    reference.evaluate second scope' = pure start ->
    Action.AnswerAlike model.readSchema.Indistinct
      ((model.dereference reference).evaluate first scope)
      ((model.dereference reference).evaluate second scope') a b

structure Document.InScopes (secret : String) (start : Value)
    (document document' : Document) (scope scope' : Scope) : Prop where
  same : document.redacted secret = document'.redacted secret
  reference : Keyed.get? scope Expr.refVar = some start
  reference' : Keyed.get? scope' Expr.refVar = some start
  loaded : Keyed.get? scope Expr.documentVar = some (.document document)
  loaded' : Keyed.get? scope' Expr.documentVar = some (.document document')

section

open DocumentMapper.Action

variable {secret : String} {first second : Clock} {a b : Store} {start : Value}
  {document document' : Document} {scope scope' : Scope}

theorem Document.at?_eq_of_redacted (hsecret : secret ≠ Reference.key)
    (h : document.redacted secret = document'.redacted secret) {path : List String}
    (hpath : ClearOf secret path) : document.at? path = document'.at? path := by
  rw [<- at?_redacted hsecret hpath document, h, at?_redacted hsecret hpath]

theorem Store.Twins.answerAlike_listIndex (h : Store.Twins secret a b)
    (hscopes : Document.InScopes secret start document document' scope scope')
    (hanywhere : (document.at? Expr.anywhere).isSome = true) {related : Model}
    (hrelated : related.ShownAlike first second a b) (index : String) :
    AnswerAlike related.readSchema.list.Indistinct
      ((Expr.guarded Expr.anywhere (Expr.listIndex index [.var Expr.refVar]
        (related.dereference (.var Expr.refVar)))).evaluate first scope)
      ((Expr.guarded Expr.anywhere (Expr.listIndex index [.var Expr.refVar]
        (related.dereference (.var Expr.refVar)))).evaluate second scope') a b := by
  have hclear : ClearOf secret Expr.anywhere := clearOf_singleton (by decide)
  rw [Expr.evaluate_guarded hscopes.loaded, Expr.evaluate_guarded hscopes.loaded',
    <- Document.at?_eq_of_redacted h.other hscopes.same hclear, if_pos hanywhere,
    if_pos hanywhere]
  exact Expr.answerAlike_listIndex (Expr.evaluate_startTerm hscopes.reference)
    (Expr.evaluate_startTerm hscopes.reference')
    (h.same.matching? h.other h.clear index [start]) (h.same.matchingError index)
    fun entry last => hrelated (.var Expr.refVar) _ _ last rfl rfl

theorem Field.answerAlike_query (h : Store.Twins secret a b)
    (hscopes : Document.InScopes secret start document document' scope scope')
    (hanywhere : (document.at? Expr.anywhere).isSome = true) (owner : String)
    {name : String} {field : Field}
    (hhidden : name = secret ->
      exists written options, field = .scalar written .hidden options)
    (hrelated : forall related, field.related? = some related ->
      related.ShownAlike first second a b) :
    AnswerAlike
      (fun x y => field.readSchema = .hidden ∨ field.readSchema.Indistinct x y)
      ((Expr.guarded ((field.path? name).getD Expr.anywhere)
        (field.query owner name)).evaluate first scope)
      ((Expr.guarded ((field.path? name).getD Expr.anywhere)
        (field.query owner name)).evaluate second scope') a b := by
  have hat (hname : name ≠ secret) :
      document.at? (dataPath name) = document'.at? (dataPath name) :=
    Document.at?_eq_of_redacted h.other hscopes.same (clearOf_dataPath hname)
  cases field with
  | scalar written read options =>
      rw [Field.evaluate_scalar hscopes.loaded, Field.evaluate_scalar hscopes.loaded']
      by_cases hname : name = secret
      · rcases hhidden hname with ⟨_, _, hscalar⟩
        cases hscalar
        exact answerAlike_pure (Or.inl rfl)
      · rw [hat hname]
        exact answerAlike_pure (Or.inr (.refl _ _))
  | reference related isOptional relation options =>
      have hname : name ≠ secret := by
        intro heq
        rcases hhidden heq with ⟨_, _, hscalar⟩
        cases hscalar
      rw [Expr.evaluate_guarded hscopes.loaded,
        Expr.evaluate_guarded hscopes.loaded', path?, Option.getD_some,
        <- hat hname]
      cases hheld : document.at? (dataPath name) with
      | none =>
          exact answerAlike_pure (Or.inr (.refl _ .null))
      | some held =>
          have hfollowed := hrelated related rfl (Expr.stored (dataPath name)) scope
            scope' held (Expr.evaluate_stored hscopes.loaded hheld)
            (Expr.evaluate_stored hscopes.loaded' (hat hname ▸ hheld))
          refine AnswerAlike.imp (R := related.readSchema.Indistinct) ?_
            fun x y hindistinct => Or.inr (hindistinct.orAbsentIf isOptional)
          cases isOptional with
          | false =>
              exact hfollowed
          | true =>
              simpa [query, Expr.evaluate_guarded hscopes.loaded,
                Expr.evaluate_guarded hscopes.loaded', <- hat hname, hheld]
                using hfollowed
  | manyToMany related relation join singular =>
      exact (h.answerAlike_listIndex hscopes hanywhere (hrelated related rfl) _).imp
        fun _ _ => Or.inr
  | reverse related index =>
      exact (h.answerAlike_listIndex hscopes hanywhere (hrelated related rfl) _).imp
        fun _ _ => Or.inr

/-- A reference leads to documents that carry the same identity and timestamp, and are
the same but for the key. -/
theorem Store.Twins.find? (h : Store.Twins secret a b) (target : Reference) :
    Option.Rel
      (fun document document' =>
        (exists own, Document.Stamped own document) ∧
          (exists own, Document.Stamped own document') ∧
          document.redacted secret = document'.redacted secret)
      (a.find? target) (b.find? target) := by
  have hsame := h.same.find? target
  cases hfirst : a.find? target with
  | none =>
      rw [hfirst, Option.map_none, eq_comm, Option.map_eq_none_iff] at hsame
      rw [hsame]
      exact .none
  | some document =>
      rw [hfirst, Option.map_some, eq_comm, Option.map_eq_some_iff] at hsame
      rcases hsame with ⟨document', hsecond, hredacted⟩
      rw [hsecond]
      exact .some ⟨h.first.stamped_of_find? hfirst, h.second.stamped_of_find? hsecond,
        hredacted.symm⟩

def Model.ShownAlikeAt (model : Model) (key : String) (x y : Value) : Prop :=
  forall schema, Keyed.get? model.readFields key = some schema ->
    schema = .hidden ∨ schema.Indistinct x y

theorem Model.indistinct_of_shownAlikeAt {model : Model} (hnamed : model.WellNamed)
    {xs ys : Document}
    (h : forall key, Option.Rel (model.ShownAlikeAt key) (Keyed.get? xs key)
      (Keyed.get? ys key)) :
    model.readSchema.Indistinct (.document xs) (.document ys) := by
  rw [readSchema_eq]
  refine Schema.Indistinct.object fun field hfield => ?_
  have hschema := Keyed.get?_of_mem hnamed.nodup_readFields hfield
  exact .of_rel (h field.1) fun x y hshown => hshown field.2 hschema

theorem Model.shownAlike (h : Store.Twins secret a b) {model : Model}
    (hhides : model.Hides secret) : model.ShownAlike first second a b := by
  induction model with
  | step model ih =>
      intro reference scope scope' start hstart hstart'
      have hnamed := hhides.named model .here
      rw [evaluate_dereference hstart, evaluate_dereference hstart']
      refine answerAlike_bind (answerAlike_demand_same _ _)
        fun target other htarget => ?_
      rw [<- htarget]
      refine answerAlike_getThe ?_
      refine answerAlike_bind (answerAlike_demand (h.find? target) _)
        fun document document' hfound => ?_
      rcases hfound with ⟨⟨own, hstamped⟩, ⟨own', hstamped'⟩, hsame⟩
      have hidentity : document'.identity = document.identity := by
        rw [<- Document.identity_redacted secret document', <- hsame,
          Document.identity_redacted]
      have htimestamp : document'.timestamp = document.timestamp := by
        rw [<- Document.timestamp_redacted secret document', <- hsame,
          Document.timestamp_redacted]
      rw [Expr.evaluateEntries_identity hstamped rfl,
        Expr.evaluateEntries_identity hstamped' rfl, hidentity, htimestamp]
      refine answerAlike_bind
        (Expr.answerAlike_evaluateEntries (R := model.ShownAlikeAt) ?_ fun key => ?_)
        fun xs ys hentries =>
          answerAlike_pure (indistinct_of_shownAlikeAt hnamed hentries)
      · intro entry hentry
        rw [Field.projections_eq_map] at hentry
        rcases List.mem_map.mp hentry with ⟨⟨name, field⟩, hfield, rfl⟩
        have hscopes : Document.InScopes secret start document document'
            ((Expr.documentVar, .document document) :: (Expr.refVar, start) :: scope)
            ((Expr.documentVar, .document document') :: (Expr.refVar, start) ::
              scope') :=
          ⟨hsame, rfl, rfl, rfl, rfl⟩
        have hquery := Field.answerAlike_query h hscopes
          (Option.isSome_iff_exists.mpr ⟨_, hstamped.at?_ts⟩) model.name
          (fun heq => hhides.hidden model .here field (heq ▸ hfield))
          fun related hrelated => ih (name, field) hfield related hrelated
            (hhides.related hfield hrelated)
        refine hquery.imp fun x y hshown schema hschema => ?_
        rw [hnamed.get?_readFields hfield] at hschema
        cases hschema
        exact hshown
      · cases Keyed.get?
          [("id", document.identity), ("ts", document.timestamp)] key with
        | none => exact .none
        | some value => exact .some fun schema _ => Or.inr (.refl schema value)

theorem Model.answerAlike_paginate (h : Store.Twins secret a b) {model : Model}
    (hhides : model.Hides secret) (index : Option String) (terms : List Value) :
    AnswerAlike model.readSchema.list.Indistinct
      ((model.paginate index (terms.map Expr.literal)).evaluate first [])
      ((model.paginate index (terms.map Expr.literal)).evaluate second []) a b := by
  have hshown : model.ShownAlike first second a b := model.shownAlike h hhides
  cases index with
  | none =>
      refine Expr.answerAlike_listing ?_ fun entry => ?_
      · rw [Expr.evaluateSet_documents, Expr.evaluateSet_documents]
        refine answerAlike_getThe ?_
        rw [h.same.references?]
        exact answerAlike_demand_same _ _
      · rw [Expr.evaluate_bindRef, Expr.evaluate_bindRef]
        exact hshown (.var Expr.refVar) _ _ entry rfl rfl
  | some name =>
      exact Expr.answerAlike_listIndex (Expr.evaluate_literals terms)
        (Expr.evaluate_literals terms) (h.same.matching? h.other h.clear name terms)
        (h.same.matchingError name) fun entry last => hshown (.var Expr.refVar) _ _ last rfl rfl

end

/-!
## Answers of a manager
-/

namespace Manager

open DocumentMapper.Action

variable {first second : Clock} {model : Model} {a b : Store} {request : Expr}

theorem answerAlike_query {R : Value -> Value -> Prop}
    (h : AnswerAlike R (request.evaluate first []) (request.evaluate second []) a b) :
    AnswerAlike R (Store.query first request) (Store.query second request) a b := by
  rcases h with ⟨x, y, hx, hy, hrelated⟩ | ⟨error, hx, hy⟩
  · exact Or.inl ⟨x, y, by rw [Store.query, hx], by rw [Store.query, hy], hrelated⟩
  · exact Or.inr ⟨error, by rw [Store.query, hx], by rw [Store.query, hy]⟩

theorem answerAlike_settle {item : Type} (outcome : Except Error item) :
    AnswerAlike Eq (settle outcome : Session Store item) (settle outcome) a b := by
  cases outcome with
  | ok x => exact answerAlike_pure rfl
  | error error => exact answerAlike_throw error

theorem answerAlike_readOne
    (h : AnswerAlike model.readSchema.Indistinct (request.evaluate first [])
      (request.evaluate second []) a b) :
    AnswerAlike Eq ((memory first model).readOne request)
      ((memory second model).readOne request) a b := by
  refine answerAlike_bind (answerAlike_query h) fun x y hindistinct => ?_
  have hparse : model.parseInstance x = model.parseInstance y := by
    rw [Model.parseInstance, Model.parseInstance, hindistinct.parse]
  rw [memory_model, memory_model, hparse]
  exact answerAlike_settle _

theorem answerAlike_readAll
    (h : AnswerAlike model.readSchema.list.Indistinct (request.evaluate first [])
      (request.evaluate second []) a b) :
    AnswerAlike Eq ((memory first model).readAll request)
      ((memory second model).readAll request) a b := by
  refine answerAlike_bind (answerAlike_query h) fun x y hindistinct => ?_
  have hparse : model.parseInstances x = model.parseInstances y := by
    rw [Model.parseInstances, Model.parseInstances, hindistinct.parse]
  rw [memory_model, memory_model, hparse]
  exact answerAlike_settle _

/-!
# Main statement
-/

theorem write_only_values_do_not_leak {secret : String}
    (hsecret : secret ≠ Reference.key) {model : Model} (hhides : model.Hides secret)
    {a b : Store} (ha : a.Reachable) (hb : b.Reachable) (hsame : a.SameBut secret b)
    (hclear : a.IndexesClearOf secret) (first second : Clock) :
    (forall id, AnswerAlike Eq ((memory first model).get id)
      ((memory second model).get id) a b) ∧
    forall (index : Option String) (terms : List Value),
      AnswerAlike Eq ((memory first model).paginate index terms)
        ((memory second model).paginate index terms) a b := by
  have htwins : Store.Twins secret a b :=
    ⟨ha.consistent, hb.consistent, hsecret, hsame, hclear⟩
  constructor
  · intro id
    exact answerAlike_readOne
      (Model.shownAlike htwins hhides (model.refFromId id) [] [] _ rfl rfl)
  · intro index terms
    exact answerAlike_readAll (Model.answerAlike_paginate htwins hhides index terms)

/-!
The statement at two stores, where one account has different passwords.  A note is read
with its author, whose password is not shown.
-/

def accountModel : Model :=
  { name := "Account"
    fields :=
      [("name", .scalar .string .string { FieldOptions.plain with unique := true }),
        ("password", .scalar .string .hidden FieldOptions.plain)]
    derived := false }

def signedNoteModel : Model :=
  { name := "Note"
    fields := [("author", .reference accountModel false Relation.oneWay
      FieldOptions.plain)]
    derived := false }

def oneAccount (password : String) : Store :=
  Store.empty.afterAll (fun _ => 0)
    [({ models := [accountModel, signedNoteModel] } : Deployment).construct,
    ({ models := [accountModel, signedNoteModel] } : Deployment).index,
    .create (.collection "Account")
      (Model.dataParams [("name", .string "Ann"), ("password", .string password)]),
    .create (.collection "Note")
      (Model.dataParams [("author", (Store.numbered "Account" 1).toValue)])]

theorem signedNoteModel_hides : signedNoteModel.Hides "password" := by
  have hreaches : forall other, signedNoteModel.Reaches other ->
      other = signedNoteModel ∨ other = accountModel := by
    rintro other (_ | ⟨hfield, hrelated, hother⟩)
    · exact Or.inl rfl
    · cases List.mem_singleton.mp hfield
      cases hrelated
      rcases hother with _ | ⟨hfield, hrelated, _⟩
      · exact Or.inr rfl
      · simp only [accountModel, List.mem_cons, List.not_mem_nil, or_false] at hfield
        rcases hfield with rfl | rfl <;> cases hrelated
  constructor
  · intro other hother
    rcases hreaches other hother with rfl | rfl <;> constructor <;> decide
  · intro other hother field hfield
    rcases hreaches other hother with rfl | rfl
    · simp [signedNoteModel] at hfield
    · simp [accountModel] at hfield
      exact ⟨_, _, hfield⟩

theorem password_does_not_leak :
    (oneAccount "old").Reachable ∧ (oneAccount "new").Reachable ∧
      (oneAccount "old").SameBut "password" (oneAccount "new") ∧
      (oneAccount "old").IndexesClearOf "password" ∧
      (forall password, ((oneAccount password).find? (Store.numbered "Account" 1)).bind
        (fun document => document.at? ["data", "password"]) = some (.string password)) ∧
      (memory (fun _ => 0) signedNoteModel).get "2" (oneAccount "old") =
        .ok
          [("author", .document
              [("name", .string "Ann"), ("id", .string "1"), ("ts", .int .long 4)]),
            ("id", .string "2"), ("ts", .int .long 5)]
          (oneAccount "old") ∧
      AnswerAlike Eq ((memory (fun _ => 0) signedNoteModel).get "2")
        ((memory (fun _ => 0) signedNoteModel).get "2") (oneAccount "old")
        (oneAccount "new") := by
  have hold : (oneAccount "old").Reachable := Store.LeadsTo.start.afterAll _ _
  have hnew : (oneAccount "new").Reachable := Store.LeadsTo.start.afterAll _ _
  have hcollections (password : String) : (oneAccount password).collections =
      [("Account",
        { timestamp := 1
          documents :=
            [(1, Store.storedDocument (Store.numbered "Account" 1) 4
              [("name", .string "Ann"), ("password", .string password)])] }),
        ("Note",
        { timestamp := 2
          documents :=
            [(2, Store.storedDocument (Store.numbered "Note" 2) 5
              [("author", (Store.numbered "Account" 1).toValue)])] })] := by
    with_unfolding_all rfl
  have hindexes (password : String) : (oneAccount password).indexes =
      [("Account_by_name",
        { timestamp := 3
          definition :=
            { name := "Account_by_name"
              source := "Account"
              terms := [{ field := ["data", "name"] }]
              values := [{ field := ["ts"], reverse := true },
                { field := ["ref"], reverse := false }]
              unique := some true } })] := by
    with_unfolding_all rfl
  have hsame : (oneAccount "old").SameBut "password" (oneAccount "new") := by
    constructor
    · intro name
      rw [<- Keyed.get?_mapItems fun _ => StoredCollection.redacted "password",
        <- Keyed.get?_mapItems fun _ => StoredCollection.redacted "password",
        hcollections, hcollections]
      rfl
    · intro name
      rw [hindexes, hindexes]
  have hclear : (oneAccount "old").IndexesClearOf "password" := by
    intro name stored hstored
    have hmem := Keyed.mem_of_get? hstored
    rw [hindexes] at hmem
    cases List.mem_singleton.mp hmem
    constructor
    · intro term hterm
      cases List.mem_singleton.mp hterm
      exact clearOf_dataPath (by decide)
    · exact List.forall_mem_cons.mpr ⟨clearOf_singleton (by decide),
        List.forall_mem_singleton.mpr (clearOf_singleton (by decide))⟩
  exact ⟨hold, hnew, hsame, hclear, fun _ => by with_unfolding_all rfl,
    by with_unfolding_all rfl,
    (write_only_values_do_not_leak (by decide) signedNoteModel_hides hold hnew hsame
      hclear (fun _ => 0) (fun _ => 0)).1 "2"⟩

end Manager
end DocumentMapper
