import DocumentMapper.Proofs.Keyed
import DocumentMapper.Proofs.Parts
import DocumentMapper.Proofs.ScopeStack

/-!
# Lexical scope

The machine with one stack does what evaluation does, and every run leaves the stack as
it was.  Of the stack an evaluation looks only at the free variables of its expression
and at the parameters that were left without an item: where an array is shorter than the
parameters that it is taken apart for, the parameters behind its end are not bound, and
what the body means by them is whatever the names mean around the lambda.
-/

namespace DocumentMapper

/-!
## Scopes that agree
-/

/-- The scopes have the same innermost binding of each of some names, or both have none. -/
def Scope.AgreeOn (scope other : Scope) (names : List String) : Prop :=
  forall name, name ∈ names -> Keyed.get? scope name = Keyed.get? other name

namespace Scope.AgreeOn

variable {scope other pushed : Scope} {names : List String}

theorem refl (scope : Scope) (names : List String) : scope.AgreeOn scope names :=
  fun _ _ => rfl

theorem subset {fewer : List String} (h : scope.AgreeOn other names)
    (hfewer : fewer ⊆ names) : scope.AgreeOn other fewer :=
  fun name hname => h name (hfewer hname)

theorem append (h : forall name, name ∈ names ->
      name ∈ Keyed.keys pushed ∨ Keyed.get? scope name = Keyed.get? other name) :
    Scope.AgreeOn (pushed ++ scope) (pushed ++ other) names := by
  intro name hname
  rw [Keyed.get?_append, Keyed.get?_append]
  rcases h name hname with hpushed | hsame
  · cases hfound : Keyed.get? pushed name with
    | none => exact absurd hpushed (Keyed.get?_eq_none_iff.mp hfound)
    | some value => rfl
  · rw [hsame]

theorem push (h : scope.AgreeOn other names) (name : String) (value : Value) :
    Scope.AgreeOn ((name, value) :: scope) ((name, value) :: other) (name :: names) := by
  have hpushed : Scope.AgreeOn ([(name, value)] ++ scope) ([(name, value)] ++ other)
      (name :: names) := by
    apply append
    intro wanted hwanted
    rcases List.mem_cons.mp hwanted with rfl | hold
    · exact Or.inl List.mem_cons_self
    · exact Or.inr (h wanted hold)
  exact hpushed

end Scope.AgreeOn

/-!
## Notes

Only the parameters of lambdas that take arrays apart are ever noted.
-/

/-- From one list of notes to a later one, with nothing new but parameters of some
lambdas that may be left without an item. -/
def Machine.Noted (parts : List Expr) (before after : List String) : Prop :=
  before ⊆ after ∧
    forall name, name ∈ after ->
      name ∈ before ∨ exists part, part ∈ parts ∧ name ∈ part.looseParameters

theorem Machine.Noted.refl (parts : List Expr) (names : List String) :
    Noted parts names names :=
  ⟨List.Subset.refl names, fun _ hname => Or.inl hname⟩

theorem Machine.Noted.trans {parts : List Expr} {before between after : List String}
    (hfirst : Noted parts before between) (hsecond : Noted parts between after) :
    Noted parts before after := by
  refine ⟨List.Subset.trans hfirst.1 hsecond.1, fun name hname => ?_⟩
  rcases hsecond.2 name hname with hbetween | hnew
  · exact hfirst.2 name hbetween
  · exact Or.inr hnew

theorem Scope.AgreeOn.before {scope other : Scope} {names before after : List String}
    {parts : List Expr} (h : scope.AgreeOn other (names ++ after))
    (hnoted : Machine.Noted parts before after) :
    scope.AgreeOn other (names ++ before) :=
  h.subset (List.append_subset.mpr
    ⟨List.subset_append_left _ _, List.Subset.trans hnoted.1 (List.subset_append_right _ _)⟩)

/-!
## Runs that leave the stack as it was
-/

def Machine.resume {item : Type} (stack : Scope) (unbound : List String) :
    EStateM.Result Error Store item -> EStateM.Result Error Machine item
  | .ok a left => .ok a { store := left, stack := stack, unbound := unbound }
  | .error error left => .error error { store := left, stack := stack, unbound := unbound }

namespace Run

variable {item other : Type} {names : List String} {parts : List Expr}

/-- The run does what the action does under the stack, which it leaves as it was, and
the action looks only at some names of its scope and at what has been noted. -/
def Follows (names : List String) (parts : List Expr) (run : Run item)
    (action : Scope -> Action item) : Prop :=
  forall machine : Machine, exists unbound result,
    Machine.Noted parts machine.unbound unbound ∧
    run machine = Machine.resume machine.stack unbound result ∧
    forall scope : Scope, machine.stack.AgreeOn scope (names ++ unbound) ->
      action scope machine.store = result

theorem follows_pure (a : item) : Follows names parts (pure a) fun _ => pure a :=
  fun machine => ⟨machine.unbound, .ok a machine.store, .refl _ _, rfl, fun _ _ => rfl⟩

theorem onStore_eq (action : Action item) (machine : Machine) :
    onStore action machine =
      Machine.resume machine.stack machine.unbound (action machine.store) := by
  rw [onStore]
  cases action machine.store <;> rfl

theorem follows_onStore (action : Action item) :
    Follows names parts (onStore action) fun _ => action :=
  fun machine =>
    ⟨machine.unbound, action machine.store, .refl _ _, onStore_eq action machine,
      fun _ _ => rfl⟩

theorem follows_lookUp {name : String} (hname : name ∈ names) :
    Follows names parts (lookUp name) fun scope =>
      Expr.demand (Keyed.get? scope name) (.invalidExpression (.unboundVariable name)) := by
  intro machine
  refine ⟨machine.unbound, _, .refl _ _, onStore_eq _ machine, fun scope hscope => ?_⟩
  have hsame := hscope name (List.mem_append_left _ hname)
  simp only [hsame]

theorem follows_bind {run : Run item} {action : Scope -> Action item}
    {next : item -> Run other} {after : item -> Scope -> Action other}
    (hfirst : Follows names parts run action)
    (hnext : forall a, Follows names parts (next a) (after a)) :
    Follows names parts (run >>= next)
      fun scope => action scope >>= fun a => after a scope := by
  intro machine
  rcases hfirst machine with ⟨unbound, result, hnoted, hrun, hresult⟩
  cases result with
  | error error left =>
      refine ⟨unbound, .error error left, hnoted, ?_, fun scope hscope => ?_⟩
      · simp only [bind, EStateM.bind, hrun, Machine.resume]
      · simp only [bind, EStateM.bind, hresult scope hscope]
  | ok a left =>
      rcases hnext a { store := left, stack := machine.stack, unbound := unbound } with
        ⟨unbound', result, hnoted', hrun', hresult'⟩
      refine ⟨unbound', result, hnoted.trans hnoted', ?_, fun scope hscope => ?_⟩
      · simp only [bind, EStateM.bind, hrun, Machine.resume, hrun']
      · simp only [bind, EStateM.bind, hresult scope (hscope.before hnoted')]
        exact hresult' scope hscope

theorem follows_mapM {run : item -> Run other} {action : item -> Scope -> Action other}
    {items : List item} (h : forall a, Follows names parts (run a) (action a)) :
    Follows names parts (items.mapM run)
      fun scope => items.mapM fun a => action a scope := by
  induction items with
  | nil =>
      exact follows_pure []
  | cons a rest ih =>
      simp only [List.mapM_cons]
      exact follows_bind (h a) fun b => follows_bind ih fun bs => follows_pure (b :: bs)

/-!
## Runs that push bindings

Such a run stands for an action that extends its scope and answers the extended one.
When it fails some of the bindings may have been pushed.
-/

def answering (a : other) : EStateM.Result Error Store item -> EStateM.Result Error Store other
  | .ok _ left => .ok a left
  | .error error left => .error error left

/-- The run pushes the bindings by which the action extends its scope.  Where it does
not fail, some names are among them or have been noted. -/
def Binds (names : List String) (parts : List Expr) (bound : List String)
    (run : Run Unit) (action : Scope -> Action Scope) : Prop :=
  forall machine : Machine, exists unbound pushed result,
    Machine.Noted parts machine.unbound unbound ∧
    run machine = Machine.resume (pushed ++ machine.stack) unbound result ∧
    (forall left, result = .ok () left ->
      forall name, name ∈ bound -> name ∈ Keyed.keys pushed ∨ name ∈ unbound) ∧
    forall scope : Scope, machine.stack.AgreeOn scope (names ++ unbound) ->
      action scope machine.store = answering (pushed ++ scope) result

theorem binds_nil : Binds names parts [] (pure ()) fun scope => pure scope :=
  fun machine =>
    ⟨machine.unbound, [], .ok () machine.store, .refl _ _, rfl,
      fun _ _ _ hname => absurd hname List.not_mem_nil, fun _ _ => rfl⟩

theorem binds_cons {name : String} {bound : List String} {run : Run Value}
    {action : Scope -> Action Value} {rest : Run Unit} {after : Scope -> Action Scope}
    (hvalue : Follows names parts run action)
    (hrest : Binds (name :: names) parts bound rest after) :
    Binds names parts (name :: bound)
      (run >>= fun value => push name value >>= fun _ => rest)
      (fun scope => action scope >>= fun value => after ((name, value) :: scope)) := by
  intro machine
  rcases hvalue machine with ⟨unbound, result, hnoted, hrun, hresult⟩
  cases result with
  | error error left =>
      refine ⟨unbound, [], .error error left, hnoted, ?_, fun _ hok => (by cases hok),
        fun scope hscope => ?_⟩
      · simp only [bind, EStateM.bind, hrun, Machine.resume, List.nil_append]
      · simp only [bind, EStateM.bind, hresult scope hscope, answering]
  | ok value left =>
      rcases hrest (Machine.mk left ((name, value) :: machine.stack) unbound) with
        ⟨unbound', pushed, result, hnoted', hrun', hbound, hafter⟩
      refine ⟨unbound', pushed ++ [(name, value)], result, hnoted.trans hnoted', ?_,
        fun left' hok wanted hwanted => ?_, fun scope hscope => ?_⟩
      · have hpush : push name value (Machine.mk left machine.stack unbound) =
            .ok () (Machine.mk left ((name, value) :: machine.stack) unbound) := by
          rfl
        rw [List.append_assoc, List.singleton_append, <- hrun']
        simp only [bind, EStateM.bind, hrun, Machine.resume, hpush]
      · rw [Keyed.keys_append, List.mem_append]
        rcases List.mem_cons.mp hwanted with rfl | hlater
        · exact Or.inl (Or.inr List.mem_cons_self)
        · exact (hbound left' hok wanted hlater).imp_left Or.inl
      · simp only [bind, EStateM.bind, hresult scope (hscope.before hnoted')]
        rw [List.append_assoc]
        exact hafter ((name, value) :: scope) (hscope.push name value)

theorem pushAll_eq (bindings : List (String × Value)) (machine : Machine) :
    pushAll bindings machine =
      .ok () { machine with stack := bindings.reverse ++ machine.stack } := by
  induction bindings generalizing machine with
  | nil =>
      rfl
  | cons binding rest ih =>
      have hrest := ih { machine with stack := binding :: machine.stack }
      rw [List.reverse_cons, List.append_assoc]
      exact hrest

theorem binds_push (name : String) (value : Value) :
    Binds names parts [name] (push name value)
      (fun scope => pure ((name, value) :: scope)) :=
  fun machine =>
    ⟨machine.unbound, [(name, value)], .ok () machine.store, .refl _ _, rfl,
      fun _ _ _ hname => Or.inl hname, fun _ _ => rfl⟩

theorem binds_fail {bound : List String} (fault : EvaluationFault) :
    Binds names parts bound (onStore (Expr.fail fault)) (fun _ => Expr.fail fault) :=
  fun machine =>
    ⟨machine.unbound, [], .error (.invalidExpression fault) machine.store, .refl _ _, rfl,
      fun _ hok => (by cases hok), fun _ _ => rfl⟩

/-- Of the parameters of an array that is taken apart, those that find an item are bound
and the others are noted. -/
theorem binds_apart {parameters : List String}
    (hloose : forall name, name ∈ parameters ->
      exists part, part ∈ parts ∧ name ∈ part.looseParameters)
    (items : List Value) :
    Binds names parts parameters
      (pushAll (parameters.zip items) >>= fun _ =>
        note (parameters.filter fun name => name ∉ Keyed.keys (parameters.zip items)))
      (fun scope => pure ((parameters.zip items).reverse ++ scope)) := by
  intro machine
  refine ⟨machine.unbound ++
      parameters.filter fun name => name ∉ Keyed.keys (parameters.zip items),
    (parameters.zip items).reverse, .ok () machine.store,
    ⟨List.subset_append_left _ _, fun name hname => ?_⟩, ?_, fun _ _ name hname => ?_,
    fun _ _ => rfl⟩
  · cases List.mem_append.mp hname with
    | inl hold => exact Or.inl hold
    | inr hnew => exact Or.inr (hloose name (List.mem_filter.mp hnew).1)
  · simp only [bind, EStateM.bind, pushAll_eq]
    rfl
  · by_cases hfound : name ∈ Keyed.keys (parameters.zip items)
    · exact Or.inl (by simpa [Keyed.keys] using hfound)
    · exact Or.inr (List.mem_append_right _
        (List.mem_filter.mpr ⟨hname, decide_eq_true hfound⟩))

theorem binds_parameters {parameters : List String} {body : Expr}
    (hpart : .lambda parameters body ∈ parts) (argument : Value) :
    Binds names parts parameters (pushParameters parameters argument)
      (Expr.bindParameters parameters argument) := by
  have hfails : forall value : Value,
      Binds names parts parameters
        (onStore (Expr.fail (.cannotDestructure value parameters.length)))
        (fun _ => Expr.fail (.cannotDestructure value parameters.length)) :=
    fun value => binds_fail _
  match parameters with
  | [name] => exact binds_push name argument
  | [] =>
      cases argument with
      | array items => exact binds_apart (fun _ hname => by cases hname) items
      | _ => exact hfails _
  | first :: second :: rest =>
      cases argument with
      | array items => exact binds_apart (fun _ hname => ⟨_, hpart, hname⟩) items
      | _ => exact hfails _

/-!
## Cutting the stack back
-/

theorem follows_restoring {bound : List String} {run : Run Unit}
    {action : Scope -> Action Scope} {body : Run item} {inside : Scope -> Action item}
    (hbinds : Binds names parts bound run action)
    (hbody : Follows (bound ++ names) parts body inside) :
    Follows names parts (restoring (run >>= fun _ => body))
      (fun scope => action scope >>= inside) := by
  intro machine
  rcases hbinds machine with ⟨unbound, pushed, result, hnoted, hrun, hbound, hresult⟩
  have hcut : forall store notes, Machine.cutTo machine.stack.length
      (Machine.mk store (pushed ++ machine.stack) notes) =
        Machine.mk store machine.stack notes := by
    intro store notes
    simp [Machine.cutTo]
  cases result with
  | error error left =>
      refine ⟨unbound, .error error left, hnoted, ?_, fun scope hscope => ?_⟩
      · simp only [restoring, bind, EStateM.bind, hrun, Machine.resume, hcut]
      · simp only [bind, EStateM.bind, hresult scope hscope, answering]
  | ok _ left =>
      rcases hbody (Machine.mk left (pushed ++ machine.stack) unbound) with
        ⟨unbound', result, hnoted', hrun', hresult'⟩
      refine ⟨unbound', result, hnoted.trans hnoted', ?_, fun scope hscope => ?_⟩
      · simp only [restoring, bind, EStateM.bind, hrun, Machine.resume, hrun']
        cases result <;> simp only [hcut]
      · have hagree : Scope.AgreeOn (pushed ++ machine.stack) (pushed ++ scope)
            (bound ++ names ++ unbound') := by
          apply Scope.AgreeOn.append
          intro wanted hwanted
          rw [List.append_assoc] at hwanted
          -- A name that is bound here hides the outer ones, unless it was noted.
          rcases List.mem_append.mp hwanted with hinner | houter
          · rcases hbound left rfl wanted hinner with hpushed | hleft
            · exact Or.inl hpushed
            · exact Or.inr
                (hscope wanted (List.mem_append_right _ (hnoted'.1 hleft)))
          · exact Or.inr (hscope wanted houter)
        simp only [bind, EStateM.bind, hresult scope (hscope.before hnoted'), answering]
        exact hresult' (pushed ++ scope) hagree

end Run

/-!
# Expressions

The induction is on the expression, and the names that it may look at are all those of
some list, which grows where a binding is passed.
-/

namespace Expr

open Run

theorem subset_append_of_filter {inner bound names : List String} {outside : String -> Bool}
    (h : inner.filter outside ⊆ names)
    (hbound : forall name, outside name = false -> name ∈ bound) :
    inner ⊆ bound ++ names := by
  intro name hname
  cases houtside : outside name with
  | false => exact List.mem_append_left _ (hbound name houtside)
  | true => exact List.mem_append_right _ (h (List.mem_filter.mpr ⟨hname, houtside⟩))

theorem subset_cons_of_freeOfLet {name : String} {expr : Expr}
    {rest : List (String × Expr)} {ofBody names : List String}
    (h : freeOfLet ((name, expr) :: rest) ofBody ⊆ names) :
    freeOfLet rest ofBody ⊆ name :: names := by
  rw [freeOfLet, List.append_subset] at h
  have hinner : freeOfLet rest ofBody ⊆ [name] ++ names :=
    subset_append_of_filter h.2 fun wanted hwanted => by simpa using hwanted
  exact hinner

theorem subset_of_freeOfLet {bindings : List (String × Expr)} {ofBody names : List String}
    (h : freeOfLet bindings ofBody ⊆ names) :
    ofBody ⊆ Keyed.keys bindings ++ names := by
  induction bindings generalizing names with
  | nil =>
      exact h
  | cons binding rest ih =>
      rcases binding with ⟨name, expr⟩
      intro wanted hwanted
      have hlater := ih (subset_cons_of_freeOfLet h) hwanted
      rw [List.mem_append, List.mem_cons] at hlater
      rcases hlater with hrest | rfl | houter
      · exact List.mem_append_left _ (List.mem_cons_of_mem _ hrest)
      · exact List.mem_append_left _ List.mem_cons_self
      · exact List.mem_append_right _ houter

variable {clock : Clock} {names : List String} {parts : List Expr}

mutual

theorem follows_run :
    forall (expr : Expr) (names : List String),
      expr.free ⊆ names -> expr.parts ⊆ parts ->
        Follows names parts (expr.run clock) (expr.evaluate clock)
  | literal value, names, _, _ => follows_pure value
  | array items, names, hfree, hparts => by
      rw [Expr.parts, List.cons_subset] at hparts
      exact follows_bind (follows_runAll items names hfree hparts.2) fun values =>
        follows_pure (Value.array values)
  | object entries, names, hfree, hparts => by
      rw [Expr.parts, List.cons_subset] at hparts
      exact follows_bind (follows_runEntries entries [] names hfree hparts.2) fun written =>
        follows_pure (Value.document written)
  | var name, names, hfree, _ => follows_lookUp (hfree List.mem_cons_self)
  | letIn bindings body, names, hfree, hparts => by
      rw [Expr.parts, List.cons_subset, List.append_subset] at hparts
      exact follows_restoring (binds_runBindings bindings body.free names hfree hparts.2.1)
        (follows_run body _ (subset_of_freeOfLet hfree) hparts.2.2)
  | lambda _ _, names, _, _ => follows_onStore (fail .loneLambda)
  | select path source, names, hfree, hparts => by
      rw [free, List.append_subset] at hfree
      rw [Expr.parts, List.cons_subset, List.append_subset] at hparts
      refine follows_bind (follows_run path names hfree.1 hparts.2.1) fun found => ?_
      refine follows_bind (follows_onStore (asPath found)) fun steps => ?_
      refine follows_bind (follows_run source names hfree.2 hparts.2.2) fun value => ?_
      exact follows_onStore _
  | selectOr path source fallback, names, hfree, hparts => by
      rw [free, List.append_subset, List.append_subset] at hfree
      rw [Expr.parts, List.cons_subset, List.append_subset, List.append_subset] at hparts
      refine follows_bind (follows_run path names hfree.1 hparts.2.1) fun found => ?_
      refine follows_bind (follows_onStore (asPath found)) fun steps => ?_
      refine follows_bind (follows_run source names hfree.2.1 hparts.2.2.1) fun value => ?_
      cases value.at? steps with
      | none => exact follows_run fallback names hfree.2.2 hparts.2.2.2
      | some inner => exact follows_pure inner
  | containsPath path source, names, hfree, hparts => by
      rw [free, List.append_subset] at hfree
      rw [Expr.parts, List.cons_subset, List.append_subset] at hparts
      refine follows_bind (follows_run path names hfree.1 hparts.2.1) fun found => ?_
      refine follows_bind (follows_onStore (asPath found)) fun steps => ?_
      refine follows_bind (follows_run source names hfree.2 hparts.2.2) fun value => ?_
      exact follows_pure _
  | ifThenElse condition consequence alternative, names, hfree, hparts => by
      rw [free, List.append_subset, List.append_subset] at hfree
      rw [Expr.parts, List.cons_subset, List.append_subset, List.append_subset] at hparts
      refine follows_bind (follows_run condition names hfree.1 hparts.2.1) fun value => ?_
      cases value with
      | bool holds =>
          cases holds with
          | true => exact follows_run consequence names hfree.2.1 hparts.2.2.1
          | false => exact follows_run alternative names hfree.2.2 hparts.2.2.2
      | _ => exact follows_onStore (fail _)
  | get reference, names, hfree, hparts => by
      rw [Expr.parts, List.cons_subset] at hparts
      refine follows_bind (follows_run reference names hfree hparts.2) fun value => ?_
      refine follows_bind (follows_onStore (asReference value)) fun target => ?_
      refine follows_bind (follows_onStore (getThe Store)) fun store => ?_
      exact follows_bind (follows_onStore _) fun document =>
        follows_pure (Value.document document)
  | ref home id, names, hfree, hparts => by
      rw [free, List.append_subset] at hfree
      rw [Expr.parts, List.cons_subset, List.append_subset] at hparts
      refine follows_bind (follows_run home names hfree.1 hparts.2.1) fun value => ?_
      refine follows_bind (follows_onStore (asCollection value)) fun name => ?_
      refine follows_bind (follows_run id names hfree.2 hparts.2.2) fun value => ?_
      exact follows_bind (follows_onStore (asId value)) fun named => follows_pure _
  | collection name, names, _, _ => follows_pure _
  | index name, names, _, _ => follows_pure _
  | documents _, names, _, _ => follows_onStore (fail .loneSet)
  | matching _ _, names, _, _ => follows_onStore (fail .loneSet)
  | paginate set size, names, hfree, hparts => by
      rw [Expr.parts, List.cons_subset] at hparts
      exact follows_bind (follows_runSet set names hfree hparts.2) fun entries =>
        follows_pure _
  | map source function, names, hfree, hparts => by
      rw [free, List.append_subset] at hfree
      rw [Expr.parts, List.cons_subset, List.append_subset] at hparts
      refine follows_bind (follows_run source names hfree.1 hparts.2.1) fun value => ?_
      refine follows_bind (follows_onStore (asItems value)) fun source => ?_
      refine follows_bind ?_ fun mapped => follows_pure _
      exact follows_mapM fun item =>
        follows_runApply function item names hfree.2 hparts.2.2
  | count source, names, hfree, hparts => by
      rw [Expr.parts, List.cons_subset] at hparts
      refine follows_bind (follows_run source names hfree hparts.2) fun value => ?_
      exact follows_bind (follows_onStore (asItems value)) fun source => follows_pure _
  | subtract operands, names, hfree, hparts => by
      rw [Expr.parts, List.cons_subset] at hparts
      exact follows_bind (follows_runAll operands names hfree hparts.2) fun values =>
        follows_onStore (difference values)
  | create home params, names, hfree, hparts => by
      rw [free, List.append_subset] at hfree
      rw [Expr.parts, List.cons_subset, List.append_subset] at hparts
      refine follows_bind (follows_run home names hfree.1 hparts.2.1) fun value => ?_
      refine follows_bind (follows_onStore (asCollection value)) fun name => ?_
      refine follows_bind (follows_run params names hfree.2 hparts.2.2) fun value => ?_
      refine follows_bind (follows_onStore (asData value)) fun data => ?_
      exact follows_bind (follows_onStore (Store.createDocument clock name data))
        fun document => follows_pure (Value.document document)
  | update reference params, names, hfree, hparts => by
      rw [free, List.append_subset] at hfree
      rw [Expr.parts, List.cons_subset, List.append_subset] at hparts
      refine follows_bind (follows_run reference names hfree.1 hparts.2.1) fun value => ?_
      refine follows_bind (follows_onStore (asReference value)) fun target => ?_
      refine follows_bind (follows_run params names hfree.2 hparts.2.2) fun value => ?_
      refine follows_bind (follows_onStore (asData value)) fun patch => ?_
      exact follows_bind (follows_onStore (Store.updateDocument clock target patch))
        fun document => follows_pure (Value.document document)
  | delete reference, names, hfree, hparts => by
      rw [Expr.parts, List.cons_subset] at hparts
      refine follows_bind (follows_run reference names hfree hparts.2) fun value => ?_
      refine follows_bind (follows_onStore (asReference value)) fun target => ?_
      exact follows_bind (follows_onStore (Store.delete target)) fun document =>
        follows_pure (Value.document document)
  | createCollection definition, names, _, _ =>
      follows_bind (follows_onStore (Store.createCollection clock definition))
        fun document => follows_pure (Value.document document)
  | createIndex definition, names, _, _ =>
      follows_bind (follows_onStore (Store.createIndex clock definition))
        fun document => follows_pure (Value.document document)
  | batch statements, names, hfree, hparts => by
      rw [Expr.parts, List.cons_subset] at hparts
      exact follows_runBatch statements .null names hfree hparts.2

theorem follows_runApply :
    forall (function : Expr) (argument : Value) (names : List String),
      function.free ⊆ names -> function.parts ⊆ parts ->
        Follows names parts (runApply clock function argument)
          (apply clock function argument)
  | function, argument, names, hfree, hparts => by
      cases function with
      | lambda parameters body =>
          have hbody : body.free ⊆ parameters ++ names :=
            subset_append_of_filter hfree fun name hname => by simpa using hname
          rw [Expr.parts, List.cons_subset] at hparts
          exact follows_restoring (binds_parameters hparts.1 argument)
            (follows_run body _ hbody hparts.2)
      | _ =>
          exact follows_onStore (fail .notALambda)

theorem follows_runSet :
    forall (set : Expr) (names : List String),
      set.free ⊆ names -> set.parts ⊆ parts ->
        Follows names parts (runSet clock set) (evaluateSet clock set)
  | set, names, hfree, hparts => by
      cases set with
      | documents home =>
          rw [Expr.parts, List.cons_subset] at hparts
          refine follows_bind (follows_run home names hfree hparts.2) fun value => ?_
          refine follows_bind (follows_onStore (asCollection value)) fun name => ?_
          exact follows_bind (follows_onStore (getThe Store)) fun store => follows_onStore _
      | matching indexed terms =>
          rw [free, List.append_subset] at hfree
          rw [Expr.parts, List.cons_subset, List.append_subset] at hparts
          refine follows_bind (follows_run indexed names hfree.1 hparts.2.1) fun value => ?_
          refine follows_bind (follows_onStore (asIndex value)) fun name => ?_
          refine follows_bind (follows_run terms names hfree.2 hparts.2.2) fun wanted => ?_
          exact follows_bind (follows_onStore (getThe Store)) fun store => follows_onStore _
      | _ =>
          exact follows_onStore (fail _)

theorem follows_runAll :
    forall (items : List Expr) (names : List String),
      freeOfAll items ⊆ names -> partsOfAll items ⊆ parts ->
        Follows names parts (runAll clock items) (evaluateAll clock items)
  | [], _, _, _ => follows_pure []
  | expr :: rest, names, hfree, hparts => by
      rw [freeOfAll, List.append_subset] at hfree
      rw [partsOfAll, List.append_subset] at hparts
      exact follows_bind (follows_run expr names hfree.1 hparts.1) fun value =>
        follows_bind (follows_runAll rest names hfree.2 hparts.2) fun values =>
          follows_pure (value :: values)

theorem follows_runEntries :
    forall (entries : List (String × Expr)) (written : Document) (names : List String),
      freeOfEntries entries ⊆ names -> partsOfEntries entries ⊆ parts ->
        Follows names parts (runEntries clock entries written)
          (evaluateEntries clock entries written)
  | [], written, _, _, _ => follows_pure written
  | (key, expr) :: rest, written, names, hfree, hparts => by
      rw [freeOfEntries, List.append_subset] at hfree
      rw [partsOfEntries, List.append_subset] at hparts
      exact follows_bind (follows_run expr names hfree.1 hparts.1) fun value =>
        follows_runEntries rest (Keyed.insert written key value) names hfree.2 hparts.2

theorem binds_runBindings :
    forall (bindings : List (String × Expr)) (ofBody names : List String),
      freeOfLet bindings ofBody ⊆ names -> partsOfEntries bindings ⊆ parts ->
        Binds names parts (Keyed.keys bindings) (runBindings clock bindings)
          (evaluateBindings clock bindings)
  | [], _, _, _, _ => binds_nil
  | (name, expr) :: rest, ofBody, names, hfree, hparts => by
      have hrest := subset_cons_of_freeOfLet hfree
      rw [freeOfLet, List.append_subset] at hfree
      rw [partsOfEntries, List.append_subset] at hparts
      exact binds_cons (follows_run expr names hfree.1 hparts.1)
        (binds_runBindings rest ofBody (name :: names) hrest hparts.2)

theorem follows_runBatch :
    forall (statements : List Expr) (last : Value) (names : List String),
      freeOfAll statements ⊆ names -> partsOfAll statements ⊆ parts ->
        Follows names parts (runBatch clock statements last)
          (evaluateBatch clock statements last)
  | [], last, _, _, _ => follows_pure last
  | expr :: rest, _, names, hfree, hparts => by
      rw [freeOfAll, List.append_subset] at hfree
      rw [partsOfAll, List.append_subset] at hparts
      exact follows_bind (follows_run expr names hfree.1 hparts.1) fun value =>
        follows_runBatch rest value names hfree.2 hparts.2

end

/-!
# Main statement
-/

theorem scoping_is_lexical (clock : Clock) (expr : Expr) (scope : Scope) (store : Store) :
    expr.run clock { store := store, stack := scope, unbound := [] } =
        Machine.resume scope (expr.unboundIn clock scope store)
          (expr.evaluate clock scope store) ∧
      (forall name, name ∈ expr.unboundIn clock scope store ->
        exists part, part ∈ expr.parts ∧ name ∈ part.looseParameters) ∧
      (forall other : Scope,
        scope.AgreeOn other (expr.free ++ expr.unboundIn clock scope store) ->
          expr.evaluate clock other store = expr.evaluate clock scope store) ∧
      (expr.free = [] -> expr.unboundIn clock scope store = [] ->
        forall other : Scope,
          expr.evaluate clock other store = expr.evaluate clock scope store) := by
  have hfollows : Follows expr.free expr.parts (expr.run clock) (expr.evaluate clock) :=
    follows_run expr expr.free (List.Subset.refl _) (List.Subset.refl _)
  rcases hfollows (Machine.mk store scope []) with
    ⟨unbound, result, hnoted, hrun, hresult⟩
  have hunbound : expr.unboundIn clock scope store = unbound := by
    rw [unboundIn, hrun]
    cases result <;> rfl
  have hscope := hresult scope (.refl _ _)
  have hsame : forall other : Scope, scope.AgreeOn other (expr.free ++ unbound) ->
      expr.evaluate clock other store = expr.evaluate clock scope store :=
    fun other hother => (hresult other hother).trans hscope.symm
  rw [hunbound]
  refine ⟨?_, fun name hname => ?_, hsame, fun hclosed hbound other => ?_⟩
  · rw [hscope]
    exact hrun
  · exact (hnoted.2 name hname).resolve_left List.not_mem_nil
  · apply hsame
    rw [hclosed, hbound]
    exact fun _ hname => absurd hname List.not_mem_nil

/-!
The statement at two expressions, under scopes that differ wherever they may.  One binds
a name three times over and takes an array apart; the other fails inside a binding.
-/

def short (n : Int) : Expr :=
  literal (.int .short n)

def rebinding : Expr :=
  letIn [("x", short 1), ("x", subtract [var "x", var "z"])]
    (map (array [array [var "x", var "z"]])
      (lambda ["a", "x"] (subtract [var "x", var "a"])))

def astray : Expr :=
  letIn [("x", short 1)] (select (path ["a"]) (var "x"))

def here : Scope :=
  [("x", .int .short 7), ("z", .int .short 3)]

def elsewhere : Scope :=
  [("a", .int .short 9), ("z", .int .short 3)]

theorem scoping_is_lexical_rebinding :
    rebinding.free = ["z", "z"] ∧ astray.free = [] ∧
      rebinding.run (fun _ => 0) { store := Store.empty, stack := here, unbound := [] } =
        Machine.resume here [] (rebinding.evaluate (fun _ => 0) here Store.empty) ∧
      rebinding.evaluate (fun _ => 0) here Store.empty =
        .ok (.array [.int .long 5]) Store.empty ∧
      rebinding.evaluate (fun _ => 0) elsewhere Store.empty =
        rebinding.evaluate (fun _ => 0) here Store.empty ∧
      astray.run (fun _ => 0) { store := Store.empty, stack := here, unbound := [] } =
        Machine.resume here [] (astray.evaluate (fun _ => 0) here Store.empty) ∧
      astray.evaluate (fun _ => 0) here Store.empty =
        .error (.invalidExpression (.nothingAt [.key "a"])) Store.empty ∧
      forall other : Scope,
        astray.evaluate (fun _ => 0) other Store.empty =
          astray.evaluate (fun _ => 0) here Store.empty := by
  have hbound : rebinding.unboundIn (fun _ => 0) here Store.empty = [] := by
    with_unfolding_all rfl
  have hbound' : astray.unboundIn (fun _ => 0) here Store.empty = [] := by
    with_unfolding_all rfl
  rcases scoping_is_lexical (fun _ => 0) rebinding here Store.empty with
    ⟨hrun, _, hsame, _⟩
  rcases scoping_is_lexical (fun _ => 0) astray here Store.empty with
    ⟨hrun', _, _, hclosed⟩
  have hfree : rebinding.free = ["z", "z"] := by decide
  have hagree : here.AgreeOn elsewhere
      (rebinding.free ++ rebinding.unboundIn (fun _ => 0) here Store.empty) := by
    rw [hbound, hfree]
    intro name hname
    simp only [List.append_nil, List.mem_cons, List.not_mem_nil, or_false, or_self] at hname
    rw [hname]
    rfl
  rw [hbound] at hrun
  rw [hbound'] at hrun'
  exact ⟨hfree, by decide, hrun, by with_unfolding_all rfl, hsame elsewhere hagree, hrun',
    by with_unfolding_all rfl, hclosed (by decide) hbound'⟩

/-!
Without the notes the statement fails: an array that is too short leaves a parameter to
whatever its name means around the lambda, so that a closed expression means one thing
alone and another inside a binding.
-/

def tooShort : Expr :=
  map (literal (.array [.array []])) (lambda ["x", "y"] (var "x"))

theorem closed_expression_sees_its_surroundings :
    tooShort.free = [] ∧
      tooShort.evaluate (fun _ => 0) [] Store.empty =
        .error (.invalidExpression (.unboundVariable "x")) Store.empty ∧
      (letIn [("x", short 1)] tooShort).evaluate (fun _ => 0) [] Store.empty =
        .ok (.array [.int .short 1]) Store.empty ∧
      ¬ forall (clock : Clock) (expr : Expr) (store : Store) (scope other : Scope),
        scope.AgreeOn other expr.free ->
          expr.evaluate clock other store = expr.evaluate clock scope store := by
  have halone : tooShort.evaluate (fun _ => 0) [] Store.empty =
      .error (.invalidExpression (.unboundVariable "x")) Store.empty := by
    with_unfolding_all rfl
  have hbound : tooShort.evaluate (fun _ => 0) [("x", .int .short 1)] Store.empty =
      .ok (.array [.int .short 1]) Store.empty := by
    with_unfolding_all rfl
  have hclosed : tooShort.free = [] := by decide
  refine ⟨hclosed, halone, by with_unfolding_all rfl, fun hlexical => ?_⟩
  have hsame := hlexical (fun _ => 0) tooShort Store.empty [("x", .int .short 1)] []
    (by simp [hclosed, Scope.AgreeOn])
  rw [halone, hbound] at hsame
  cases hsame

end Expr
end DocumentMapper
