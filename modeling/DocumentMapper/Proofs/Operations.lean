import DocumentMapper.Manager
import DocumentMapper.Proofs.CompiledParts
import DocumentMapper.Proofs.CompiledReads

/-!
# Operations

The writes that a manager offers, each as what it does to a store.  Whatever an
operation is asked for it makes at most one write, and its other queries only
read; where anything fails before the write the store stays as it was.
-/

namespace DocumentMapper

/-!
## Requests

A request that a model does not refuse.
-/

namespace Model

variable {model : Model}

theorem getByRequest_ok {name : String} {term : Value} {request : Expr}
    (h : model.getByRequest name term = .ok request) :
    exists field, model.field? name = some field ∧
      field.options.hasIndex = true ∧
      request = model.ownIndexRequest name term := by
  cases hfield : model.field? name with
  | none =>
      simp [getByRequest, requireField, hfield, bind, Except.bind] at h
  | some field =>
      cases hunique : field.options.unique with
      | false =>
          simp [getByRequest, requireField, hfield, hunique, bind,
            Except.bind, throw, throwThe, MonadExceptOf.throw] at h
      | true =>
          simp [getByRequest, requireField, hfield, hunique, bind,
            Except.bind, pure, Except.pure] at h
          exact ⟨field, rfl, by simp [FieldOptions.hasIndex, hunique], h.symm⟩

theorem paginateByRequest_ok {name : String} {term : Value} {request : Expr}
    (h : model.paginateByRequest name term = .ok request) :
    exists field, model.field? name = some field ∧
      field.options.hasIndex = true ∧
      request = model.ownIndexRequest name term := by
  cases hfield : model.field? name with
  | none =>
      simp [paginateByRequest, requireField, hfield, bind,
        Except.bind] at h
  | some field =>
      cases hunique : field.options.unique with
      | true =>
          simp [paginateByRequest, requireField, hfield, hunique, bind,
            Except.bind, throw, throwThe, MonadExceptOf.throw] at h
      | false =>
          cases hindex : field.options.hasIndex with
          | false =>
              simp [paginateByRequest, requireField, hfield, hunique,
                hindex, bind, Except.bind, throw, throwThe,
                MonadExceptOf.throw] at h
          | true =>
              simp [paginateByRequest, requireField, hfield, hunique,
                hindex, bind, Except.bind, pure, Except.pure] at h
              exact ⟨field, rfl, hindex, h.symm⟩

theorem createRequest_ok {data : Document} {request : Expr}
    (h : model.createRequest data = .ok request) :
    exists parsed, model.writeSchema.parseDocument data = .ok parsed ∧
      request = .create (.collection model.name) (Model.dataParams parsed) := by
  cases hparsed : model.writeSchema.parseDocument data with
  | error issues =>
      simp [createRequest, hparsed, bind, Except.bind] at h
  | ok parsed =>
      simp [createRequest, hparsed, bind, Except.bind, pure,
        Except.pure] at h
      exact ⟨parsed, rfl, h.symm⟩

theorem updateRequest_ok {id : String} {data : Document} {request : Expr}
    (h : model.updateRequest id data = .ok request) :
    exists parsed, model.writeSchema.relaxed.parseDocument data = .ok parsed ∧
      request = .update (model.refFromId id) (Model.dataParams parsed) := by
  cases hparsed : model.writeSchema.relaxed.parseDocument data with
  | error issues =>
      simp [updateRequest, hparsed, bind, Except.bind] at h
  | ok parsed =>
      simp [updateRequest, hparsed, bind, Except.bind, pure,
        Except.pure] at h
      exact ⟨parsed, rfl, h.symm⟩

theorem linkRequest_ok {id field related : String} {request : Expr}
    (h : model.linkRequest id field related = .ok request) :
    exists other relation join singular,
      model.field? field = some (.manyToMany other relation join singular) ∧
      request =
        join.link model.name field (model.refFromId id)
          (other.refFromId related) := by
  cases hfield : model.field? field with
  | none =>
      simp [linkRequest, requireField, hfield, bind, Except.bind] at h
  | some found =>
      cases found with
      | manyToMany other relation join singular =>
          simp [linkRequest, requireField, hfield, bind, Except.bind,
            pure, Except.pure] at h
          exact ⟨other, relation, join, singular, rfl, h.symm⟩
      | _ =>
          simp [linkRequest, requireField, hfield, bind, Except.bind,
            throw, throwThe, MonadExceptOf.throw] at h

end Model

/-!
## Queries
-/

namespace Expr

variable {clock : Clock} {scope : Scope}

theorem evaluate_create (name : String) (data : Document) :
    (create (collection name) (Model.dataParams data)).evaluate clock scope =
      (do
        let document <- Store.createDocument clock name data
        pure (.document document)) :=
  rfl

theorem evaluate_update (collection id : String) (patch : Document) :
    (update (documentRef collection id) (Model.dataParams patch)).evaluate clock
        scope =
      (do
        let document <-
          Store.updateDocument clock { collection := collection, id := id } patch
        pure (.document document)) :=
  rfl

theorem evaluate_delete (collection id : String) :
    (delete (documentRef collection id)).evaluate clock scope =
      (do
        let document <- Store.delete { collection := collection, id := id }
        pure (.document document)) :=
  rfl

end Expr

def linkData (model field : String) (owner related : Reference) : Document :=
  Keyed.ofList
    [(ownerKey model, owner.toValue), (relatedKey field, related.toValue)]

theorem Expr.evaluate_link {clock : Clock} {scope : Scope} (join : JoinNames)
    (model field id other related : String) :
    (join.link model field (documentRef model id)
        (documentRef other related)).evaluate clock scope =
      (do
        let document <-
          Store.createDocument clock (join.collectionName model field)
            (linkData model field { collection := model, id := id }
              { collection := other, id := related })
        pure (.document document)) :=
  rfl

namespace Store

variable {clock : Clock} {store : Store}

/-- A query that makes one write commits it where it succeeds. -/
theorem query_write {expr : Expr} {write : Action Document}
    (h : expr.evaluate clock [] =
      (do
        let document <- write
        pure (.document document))) :
    query clock expr store =
      match write store with
      | .ok document left => .ok (.document document) left
      | .error error _ => .error error store := by
  unfold query
  rw [h]
  cases hrun : write store with
  | ok document left =>
      simp only [bind, EStateM.bind, hrun]
      rfl
  | error error left =>
      simp only [bind, EStateM.bind, hrun]

theorem query_reads {expr : Expr} {outcome : Reading Value}
    (h : Action.Reads (expr.evaluate clock []) store outcome) :
    Action.Reads (query clock expr) store outcome := by
  cases outcome with
  | ok value =>
      have hrun : expr.evaluate clock [] store = .ok value store := h
      show query clock expr store = .ok value store
      rw [query, hrun]
  | error fault =>
      rcases h with ⟨error, hshows, hrun⟩
      exact ⟨error, hshows, by rw [query, hrun]⟩

theorem after_query {expr : Expr} (h : expr.ReadsOnly) :
    store.after (query clock expr) = store := by
  have hleft : store.after (expr.evaluate clock []) = store := h.steady [] store
  unfold after query
  cases hrun : expr.evaluate clock [] store with
  | ok value left =>
      rwa [after_of_ok hrun] at hleft
  | error error left =>
      rfl

end Store

/-!
# Operations
-/

inductive Operation where
  | create (data : Document)
  | update (id : String) (data : Document)
  | delete (id : String)
  | link (id field related : String)

/-- An operation on the instances of a model, under a clock of its own. -/
structure Call where
  clock : Clock
  model : Model
  operation : Operation

def Manager.memory (clock : Clock) (model : Model) : Manager Store :=
  { model := model, client := Client.memory clock }

@[simp] theorem Manager.memory_model (clock : Clock) (model : Model) :
    (Manager.memory clock model).model = model :=
  rfl

def Call.run (call : Call) : Session Store Unit :=
  let manager := Manager.memory call.clock call.model
  match call.operation with
  | .create data => do
      let _ <- manager.create data
      pure ()
  | .update id data => do
      let _ <- manager.update id data
      pure ()
  | .delete id => manager.delete id
  | .link id field related => manager.link id field related

/-- What an operation can do to a store. -/
inductive Store.Operated (clock : Clock) (model : Model) (store : Store) :
    Operation -> Store -> Prop where
  | unchanged {operation : Operation} : Operated clock model store operation store
  | created {data parsed document : Document} {left : Store}
      (hparsed : model.writeSchema.parseDocument data = .ok parsed)
      (hrun : Store.createDocument clock model.name parsed store =
        .ok document left) :
      Operated clock model store (.create data) left
  | updated {id : String} {data parsed document : Document} {left : Store}
      (hparsed : model.writeSchema.relaxed.parseDocument data = .ok parsed)
      (hrun : Store.updateDocument clock { collection := model.name, id := id }
        parsed store = .ok document left) :
      Operated clock model store (.update id data) left
  | deleted {id : String} {document : Document} {left : Store}
      (hrun : Store.delete { collection := model.name, id := id } store =
        .ok document left) :
      Operated clock model store (.delete id) left
  | linked {id field related : String} {other : Model} {relation : Relation}
      {join : JoinNames} {singular : Option String} {document : Document}
      {left : Store}
      (hfield : model.field? field =
        some (.manyToMany other relation join singular))
      (hrun : Store.createDocument clock (join.collectionName model.name field)
        (linkData model.name field { collection := model.name, id := id }
          { collection := other.name, id := related }) store =
        .ok document left) :
      Operated clock model store (.link id field related) left

namespace Manager

variable {clock : Clock} {model : Model} {store : Store}

theorem steady_settle {item : Type} (outcome : Except Error item) :
    Action.Steady (settle outcome : Session Store item) := by
  cases outcome with
  | ok a => exact Action.steady_pure a
  | error error => exact Action.steady_throw error

theorem after_bind_of_after {item other : Type} {session : Session Store item}
    {next : item -> Session Store other} (hfirst : store.after session = store)
    (hnext : forall a, store.after (next a) = store) :
    store.after (session >>= next) = store := by
  rw [Action.after_bind]
  cases hrun : session store with
  | ok a left =>
      rw [Store.after_of_ok hrun] at hfirst
      rw [hfirst]
      exact hnext a
  | error error left =>
      rw [Store.after_of_error hrun] at hfirst
      exact hfirst

theorem after_bind_pure {item : Type} (session : Session Store item) :
    store.after (do
      let _ <- session
      pure ()) = store.after session := by
  rw [Action.after_bind]
  cases hrun : session store with
  | ok a left =>
      rw [Store.after_of_ok hrun]
      rfl
  | error error left =>
      rw [Store.after_of_error hrun]

theorem after_readOne {request : Expr}
    (h : store.after (Store.query clock request) = store) :
    store.after ((memory clock model).readOne request) = store :=
  after_bind_of_after h fun _ => steady_settle _ store

theorem readsOnly_ofReference (reference : Reference) :
    (Expr.ofReference reference).ReadsOnly :=
  Expr.all_literal (fun _ => Expr.not_isWrite_of_isPlain) reference.toValue

theorem after_dereference (reference : Reference) :
    store.after ((memory clock model).dereference reference) = store :=
  after_readOne
    (Store.after_query (model.readsOnly_dereference (readsOnly_ofReference reference)))

theorem after_get (id : String) :
    store.after ((memory clock model).get id) = store :=
  after_readOne (Store.after_query (model.readsOnly_getRequest id))

theorem operated_create (data : Document) :
    store.Operated clock model (.create data)
      (store.after ((memory clock model).create data)) := by
  rw [create, memory_model]
  cases hrequest : model.createRequest data with
  | error issues =>
      exact .unchanged
  | ok request =>
      rcases Model.createRequest_ok hrequest with ⟨parsed, hparsed, heq⟩
      rw [heq]
      show store.Operated clock model (.create data)
        (store.after
          (Store.query clock
              (.create (.collection model.name) (Model.dataParams parsed)) >>=
            fun created => do
              let reference <- settle (createdReference created)
              (memory clock model).dereference reference))
      rw [Action.after_bind, Store.query_write (Expr.evaluate_create _ _)]
      cases hrun : Store.createDocument clock model.name parsed store with
      | error error left =>
          exact .unchanged
      | ok document left =>
          have hread : left.after (do
              let reference <-
                (settle (createdReference (.document document)) :
                  Session Store Reference)
              (memory clock model).dereference reference) = left :=
            after_bind_of_after (steady_settle _ left) fun reference =>
              after_dereference reference
          show store.Operated clock model (.create data) (left.after _)
          rw [hread]
          exact .created hparsed hrun

theorem operated_update (id : String) (data : Document) :
    store.Operated clock model (.update id data)
      (store.after ((memory clock model).update id data)) := by
  rw [update, memory_model]
  cases hrequest : model.updateRequest id data with
  | error issues =>
      exact .unchanged
  | ok request =>
      rcases Model.updateRequest_ok hrequest with ⟨parsed, hparsed, heq⟩
      rw [heq]
      show store.Operated clock model (.update id data)
        (store.after
          (Store.query clock
              (.update (model.refFromId id) (Model.dataParams parsed)) >>=
            fun _ => (memory clock model).get id))
      rw [Action.after_bind, Model.refFromId,
        Store.query_write (Expr.evaluate_update _ _ _)]
      cases hrun : Store.updateDocument clock
          { collection := model.name, id := id } parsed store with
      | error error left =>
          exact .unchanged
      | ok document left =>
          show store.Operated clock model (.update id data) (left.after _)
          rw [after_get]
          exact .updated hparsed hrun

theorem operated_delete (id : String) :
    store.Operated clock model (.delete id)
      (store.after ((memory clock model).delete id)) := by
  show store.Operated clock model (.delete id)
    (store.after
      (Store.query clock (.delete (Expr.documentRef model.name id)) >>=
        fun _ => pure ()))
  rw [Action.after_bind, Store.query_write (Expr.evaluate_delete _ _)]
  cases hrun : Store.delete { collection := model.name, id := id } store with
  | error error left =>
      exact .unchanged
  | ok document left =>
      exact .deleted hrun

theorem operated_link (id field related : String) :
    store.Operated clock model (.link id field related)
      (store.after ((memory clock model).link id field related)) := by
  rw [link, memory_model]
  cases hrequest : model.linkRequest id field related with
  | error misuse =>
      exact .unchanged
  | ok request =>
      rcases Model.linkRequest_ok hrequest with
        ⟨other, relation, join, singular, hfield, heq⟩
      rw [heq]
      show store.Operated clock model (.link id field related)
        (store.after
          (Store.query clock
              (join.link model.name field (model.refFromId id)
                (other.refFromId related)) >>=
            fun _ => pure ()))
      rw [Action.after_bind, Model.refFromId, Model.refFromId,
        Store.query_write (Expr.evaluate_link _ _ _ _ _ _)]
      cases hrun : Store.createDocument clock
          (join.collectionName model.name field)
          (linkData model.name field { collection := model.name, id := id }
            { collection := other.name, id := related }) store with
      | error error left =>
          exact .unchanged
      | ok document left =>
          exact .linked hfield hrun

end Manager

/-!
## Runs
-/

/-- The store that calls leave, one after the other, whether they answer or fail. -/
def Store.afterCalls (store : Store) (calls : List Call) : Store :=
  calls.foldl (fun store call => store.after call.run) store

theorem Call.operated {store : Store} (call : Call) :
    store.Operated call.clock call.model call.operation
      (store.after call.run) := by
  rcases call with ⟨clock, model, operation⟩
  cases operation with
  | create data =>
      show store.Operated clock model (.create data) (store.after (do
        let _ <- (Manager.memory clock model).create data
        pure ()))
      rw [Manager.after_bind_pure]
      exact Manager.operated_create data
  | update id data =>
      show store.Operated clock model (.update id data) (store.after (do
        let _ <- (Manager.memory clock model).update id data
        pure ()))
      rw [Manager.after_bind_pure]
      exact Manager.operated_update id data
  | delete id =>
      exact Manager.operated_delete id
  | link id field related =>
      exact Manager.operated_link id field related

theorem Store.Operated.change {clock : Clock} {model : Model} {store left : Store}
    {operation : Operation} (h : store.Operated clock model operation left) :
    store.Change clock left := by
  cases h with
  | unchanged =>
      exact .unchanged
  | created _ hrun =>
      exact Store.change_of_createDocument hrun
  | updated _ hrun =>
      exact Store.change_of_updateDocument hrun
  | deleted hrun =>
      exact Store.change_of_ok (fun store => Store.change_delete store _) hrun
  | linked _ hrun =>
      exact Store.change_of_createDocument hrun

/-- What every operation keeps is kept by every run of calls. -/
theorem Store.afterCalls_keeps {P : Store -> Prop} {calls : List Call}
    (hstep : forall call, call ∈ calls -> forall store left,
      store.Consistent -> P store ->
        store.Operated call.clock call.model call.operation left -> P left)
    {store : Store} (hstore : store.Consistent) (h : P store) :
    (store.afterCalls calls).Consistent ∧ P (store.afterCalls calls) := by
  induction calls generalizing store with
  | nil =>
      exact ⟨hstore, h⟩
  | cons call rest ih =>
      have hoperated : store.Operated call.clock call.model call.operation
          (store.after call.run) := call.operated
      exact ih (fun other hother => hstep other (List.mem_cons_of_mem _ hother))
        (hoperated.change.consistent hstore)
        (hstep call List.mem_cons_self store _ hstore h hoperated)

theorem Store.consistent_afterCalls {store : Store} (hstore : store.Consistent)
    (calls : List Call) : (store.afterCalls calls).Consistent :=
  (afterCalls_keeps (P := fun _ => True) (fun _ _ _ _ _ _ _ => trivial) hstore
    trivial).1

end DocumentMapper
