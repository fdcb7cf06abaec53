import DocumentMapper.Proofs.Operations

/-!
# Sessions of managers

All that a manager offers, the readings included.  A reading leaves the store as it is,
whatever the store holds and however the reading ends, so a session with a manager
changes a store as one of its operations does or not at all.  The main statement is
about expressions: what does not ask for a write makes none.
-/

namespace DocumentMapper
namespace Manager

inductive Offers {state : Type} (manager : Manager state) :
    {item : Type} -> Session state item -> Prop where
  | get (id : String) : Offers manager (manager.get id)
  | dereference (reference : Reference) :
      Offers manager (manager.dereference reference)
  | paginate (index : Option String) (terms : List Value) :
      Offers manager (manager.paginate index terms)
  | getBy (field : String) (term : Value) : Offers manager (manager.getBy field term)
  | paginateBy (field : String) (term : Value) :
      Offers manager (manager.paginateBy field term)
  | getAs {record : Type} [OfInstance record] (id : String) :
      Offers manager (manager.getAs id : Session state record)
  | paginateAs {record : Type} [OfInstance record] (index : Option String)
      (terms : List Value) :
      Offers manager (manager.paginateAs index terms : Session state (List record))
  | create (data : Document) : Offers manager (manager.create data)
  | update (id : String) (data : Document) : Offers manager (manager.update id data)
  | delete (id : String) : Offers manager (manager.delete id)
  | link (id field related : String) : Offers manager (manager.link id field related)

/-!
## Readings
-/

section

variable {clock : Clock} {model : Model} {store : Store}

theorem after_readAll {request : Expr} (h : request.ReadsOnly) :
    store.after ((memory clock model).readAll request) = store :=
  after_bind_of_after (Store.after_query h) fun _ => steady_settle _ store

theorem after_paginate (index : Option String) (terms : List Value) :
    store.after ((memory clock model).paginate index terms) = store := by
  refine after_readAll (model.readsOnly_paginate index ?_)
  intro term hterm
  rcases List.mem_map.mp hterm with ⟨value, _, heq⟩
  rw [<- heq]
  exact Expr.all_literal (fun _ => Expr.not_isWrite_of_isPlain) value

theorem readsOnly_ownIndexRequest (model : Model) (field : String) (term : Value) :
    (model.ownIndexRequest field term).ReadsOnly := by
  refine model.readsOnly_paginate _ (List.forall_mem_singleton.mpr ?_)
  exact Expr.all_literal (fun _ => Expr.not_isWrite_of_isPlain) term

theorem after_request {item : Type} {outcome : Except Misuse Expr}
    {next : Expr -> Session Store item}
    (h : forall request, outcome = .ok request -> store.after (next request) = store) :
    store.after (do
      let request <-
        (settle (outcome.mapError .misuse) : Session Store Expr)
      next request) = store := by
  cases outcome with
  | error misuse => rfl
  | ok request => exact h request rfl

theorem after_getBy (field : String) (term : Value) :
    store.after ((memory clock model).getBy field term) = store := by
  apply after_request
  intro request hrequest
  rcases Model.getByRequest_ok hrequest with ⟨_, _, _, heq⟩
  rw [heq]
  exact after_bind_of_after
    (after_readAll (readsOnly_ownIndexRequest model field term)) fun _ => rfl

theorem after_paginateBy (field : String) (term : Value) :
    store.after ((memory clock model).paginateBy field term) = store := by
  apply after_request
  intro request hrequest
  rcases Model.paginateByRequest_ok hrequest with ⟨_, _, _, heq⟩
  rw [heq]
  exact after_readAll (readsOnly_ownIndexRequest model field term)

theorem Offers.operated {item : Type} {session : Session Store item}
    (h : (memory clock model).Offers session) :
    exists operation,
      store.Operated clock model operation (store.after session) := by
  have hsame : store.after session = store ->
      exists operation,
        store.Operated clock model operation (store.after session) := by
    intro hread
    rw [hread]
    exact ⟨.create [], .unchanged⟩
  cases h with
  | get id => exact hsame (after_get id)
  | dereference reference => exact hsame (after_dereference reference)
  | paginate index terms => exact hsame (after_paginate index terms)
  | getBy field term => exact hsame (after_getBy field term)
  | paginateBy field term => exact hsame (after_paginateBy field term)
  | getAs id =>
      exact hsame (after_bind_of_after (after_get id) fun _ => steady_settle _ store)
  | paginateAs index terms =>
      exact hsame (after_bind_of_after (after_paginate index terms) fun _ =>
        steady_settle _ store)
  | create data => exact ⟨.create data, operated_create data⟩
  | update id data => exact ⟨.update id data, operated_update id data⟩
  | delete id => exact ⟨.delete id, operated_delete id⟩
  | link id field related =>
      exact ⟨.link id field related, operated_link id field related⟩

end

end Manager

/-!
## Runs of sessions
-/

/-- The stores that sessions with managers of the models lead to, each session under a
clock of its own. -/
inductive Deployment.Run (deployment : Deployment) (start : Store) : Store -> Prop where
  | start : Run deployment start start
  | session {store : Store} {clock : Clock} {model : Model} {item : Type}
      {session : Session Store item} (hrun : Run deployment start store)
      (hmodel : model ∈ deployment.models)
      (hoffered : (Manager.memory clock model).Offers session) :
      Run deployment start (store.after session)

/-- What every operation keeps is kept by every run of sessions. -/
theorem Deployment.Run.keeps {P : Store -> Prop} {deployment : Deployment}
    {start store : Store} (hrun : deployment.Run start store)
    (hstep : forall model, model ∈ deployment.models ->
      forall clock operation store left, P store ->
        store.Operated clock model operation left -> P left)
    (hstart : P start) : P store := by
  induction hrun with
  | start =>
      exact hstart
  | session _ hmodel hoffered ih =>
      rcases hoffered.operated with ⟨operation, hoperated⟩
      exact hstep _ hmodel _ operation _ _ ih hoperated

/-!
# Main statement

An expression without any of the five writes leaves the store as it is, however its
evaluation ends, and of this kind is every query that a model is read by.
-/

theorem reads_never_write :
    (forall expr : Expr, expr.ReadsOnly ->
      forall (clock : Clock) (scope : Scope) (store : Store),
        store.after (expr.evaluate clock scope) = store) ∧
    forall model : Model,
      (forall id, (model.getRequest id).ReadsOnly) ∧
      (forall reference : Expr, reference.ReadsOnly ->
        (model.dereference reference).ReadsOnly) ∧
      (forall (index : Option String) (terms : List Expr),
        (forall term, term ∈ terms -> term.ReadsOnly) ->
          (model.paginate index terms).ReadsOnly) ∧
      forall (name : String) (term : Value) (request : Expr),
        model.getByRequest name term = .ok request ∨
            model.paginateByRequest name term = .ok request ->
          request.ReadsOnly := by
  refine ⟨fun expr h clock scope store => h.steady scope store, fun model => ?_⟩
  refine ⟨model.readsOnly_getRequest, fun reference => model.readsOnly_dereference,
    fun index terms => model.readsOnly_paginate index, ?_⟩
  intro name term request hrequest
  rcases hrequest with hunique | hindexed
  · rcases Model.getByRequest_ok hunique with ⟨_, _, _, heq⟩
    rw [heq]
    exact Manager.readsOnly_ownIndexRequest model name term
  · rcases Model.paginateByRequest_ok hindexed with ⟨_, _, _, heq⟩
    rw [heq]
    exact Manager.readsOnly_ownIndexRequest model name term

/-!
The statement at one store: an author is read from a reference that is itself read out
of a book, and a read that goes astray ends in an error.
-/

def authorOfBook : Expr :=
  .select (Expr.path ["data", "author"]) (.get (Expr.documentRef "Book" "2"))

def shelfModel : Model :=
  { name := "Shelf"
    fields :=
      [("code", .scalar .string .string { FieldOptions.plain with unique := true }),
        ("room",
          .scalar .string .string { FieldOptions.plain with indexed := some ["code"] })]
    derived := false }

theorem reads_never_write_oneBook :
    authorOfBook.ReadsOnly ∧
      (authorWithBooks.dereference authorOfBook).ReadsOnly ∧
      oneBook.after
          ((authorWithBooks.dereference authorOfBook).evaluate (fun _ => 9) []) =
        oneBook ∧
      (exists error,
        (Expr.count authorOfBook).evaluate (fun _ => 9) [] oneBook =
          .error error oneBook) ∧
      (exists request, shelfModel.getByRequest "code" (.string "A1") = .ok request ∧
        request.ReadsOnly) ∧
      exists request, shelfModel.paginateByRequest "room" (.string "east") = .ok request ∧
        request.ReadsOnly := by
  have hplain : forall expr : Expr, expr.isPlain = true -> expr.isWrite = false :=
    fun _ => Expr.not_isWrite_of_isPlain
  have hauthor : authorOfBook.ReadsOnly :=
    Expr.all_select hplain (Expr.all_literal hplain _)
      (Expr.all_get hplain (Expr.all_documentRef hplain rfl))
  have hread := (reads_never_write.2 authorWithBooks).2.1 authorOfBook hauthor
  have hshelf := (reads_never_write.2 shelfModel).2.2.2
  exact ⟨hauthor, hread, reads_never_write.1 _ hread (fun _ => 9) [] oneBook,
    ⟨_, by with_unfolding_all rfl⟩,
    ⟨_, rfl, hshelf "code" (.string "A1") _ (Or.inl rfl)⟩,
    _, rfl, hshelf "room" (.string "east") _ (Or.inr rfl)⟩

end DocumentMapper
