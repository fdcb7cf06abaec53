import Mathlib.Data.List.Forall2
import Mathlib.Data.Option.Basic
import DocumentMapper.Model.Schema
import DocumentMapper.Proofs.CompiledReads
import DocumentMapper.Proofs.Shapes

/-!
# Two runs

Running two queries side by side, each on a store of its own.  What their answers are
related by need not be equality: often it is that a schema cannot tell them apart, so
that they have the same issues and the same shape.
-/

namespace DocumentMapper

/-!
## Actions
-/

namespace Action

variable {item other item' other' : Type} {a b : Store}

/-- Two actions, each on a store of its own, leave their stores as they are and answer
alike or fail with the same error. -/
def AnswerAlike (R : item -> item' -> Prop) (first : Action item)
    (second : Action item') (a b : Store) : Prop :=
  (exists x y, first a = .ok x a ∧ second b = .ok y b ∧ R x y) ∨
    exists error, first a = .error error a ∧ second b = .error error b

theorem answerAlike_pure {R : item -> item' -> Prop} {x : item} {y : item'}
    (h : R x y) : AnswerAlike R (pure x) (pure y) a b :=
  Or.inl ⟨x, y, rfl, rfl, h⟩

theorem AnswerAlike.imp {R S : item -> item' -> Prop} {first : Action item}
    {second : Action item'} (h : AnswerAlike R first second a b)
    (himp : forall x y, R x y -> S x y) : AnswerAlike S first second a b :=
  Or.imp_left (fun ⟨x, y, hx, hy, hrelated⟩ => ⟨x, y, hx, hy, himp x y hrelated⟩) h

theorem answerAlike_throw {R : item -> item' -> Prop} (error : Error) :
    AnswerAlike R (throw error) (throw error) a b :=
  Or.inr ⟨error, rfl, rfl⟩

theorem answerAlike_bind {R : item -> item' -> Prop} {S : other -> other' -> Prop}
    {first : Action item} {second : Action item'} {next : item -> Action other}
    {next' : item' -> Action other'} (hfirst : AnswerAlike R first second a b)
    (hnext : forall x y, R x y -> AnswerAlike S (next x) (next' y) a b) :
    AnswerAlike S (first >>= next) (second >>= next') a b := by
  rcases hfirst with ⟨x, y, hx, hy, hrelated⟩ | ⟨error, hx, hy⟩
  · simpa only [AnswerAlike, bind, EStateM.bind, hx, hy] using hnext x y hrelated
  · exact Or.inr ⟨error, by simp only [bind, EStateM.bind, hx],
      by simp only [bind, EStateM.bind, hy]⟩

theorem answerAlike_mapM {R : other -> other' -> Prop} {f : item -> Action other}
    {g : item -> Action other'} {items : List item}
    (h : forall x, AnswerAlike R (f x) (g x) a b) :
    AnswerAlike (List.Forall₂ R) (items.mapM f) (items.mapM g) a b := by
  induction items with
  | nil =>
      exact answerAlike_pure .nil
  | cons x rest ih =>
      rw [List.mapM_cons, List.mapM_cons]
      exact answerAlike_bind (h x) fun y z hhead =>
        answerAlike_bind ih fun ys zs htail => answerAlike_pure (.cons hhead htail)

theorem answerAlike_getThe {R : item -> item' -> Prop} {next : Store -> Action item}
    {next' : Store -> Action item'} (h : AnswerAlike R (next a) (next' b) a b) :
    AnswerAlike R (getThe Store >>= next) (getThe Store >>= next') a b :=
  h

theorem answerAlike_demand {R : item -> item' -> Prop} {found : Option item}
    {found' : Option item'} (h : Option.Rel R found found') (error : Error) :
    AnswerAlike R (Expr.demand found error) (Expr.demand found' error) a b := by
  cases h with
  | some hrelated => exact answerAlike_pure hrelated
  | none => exact answerAlike_throw error

theorem answerAlike_demand_same (found : Option item) (error : Error) :
    AnswerAlike Eq (Expr.demand found error) (Expr.demand found error) a b := by
  cases found with
  | none => exact answerAlike_throw error
  | some x => exact answerAlike_pure rfl

end Action

/-!
## Values that a schema cannot tell apart
-/

namespace Schema

structure Indistinct (schema : Schema) (x y : Value) : Prop where
  isNull : x.isNull = y.isNull
  issues : forall path, schema.issuesAt path x = schema.issuesAt path y
  shape : schema.shape x = schema.shape y

namespace Indistinct

variable {schema : Schema} {x y : Value}

theorem refl (schema : Schema) (x : Value) : schema.Indistinct x x :=
  ⟨rfl, fun _ => rfl, rfl⟩

theorem parse (h : schema.Indistinct x y) : schema.parse x = schema.parse y := by
  rw [Schema.parse, Schema.parse, Schema.issues, Schema.issues, h.issues, h.shape]

theorem orAbsent (h : schema.Indistinct x y) : schema.orAbsent.Indistinct x y := by
  have hoptional : (Schema.optional schema).Indistinct x y := by
    refine ⟨h.isNull, fun path => ?_, h.shape⟩
    rw [issuesAt, issuesAt, h.isNull, h.issues]
  cases schema with
  | optional inner => exact h
  | _ => exact hoptional

theorem orAbsentIf (h : schema.Indistinct x y) (isOptional : Bool) :
    (schema.orAbsentIf isOptional).Indistinct x y := by
  cases isOptional with
  | false => exact h
  | true => exact h.orAbsent

theorem array {xs ys : List Value} (h : List.Forall₂ schema.Indistinct xs ys) :
    schema.list.Indistinct (.array xs) (.array ys) := by
  refine ⟨rfl, fun path => ?_, ?_⟩
  · have hitems : (xs.mapIdx fun place item =>
          schema.issuesAt (path ++ [toString place]) item) =
        ys.mapIdx fun place item =>
          schema.issuesAt (path ++ [toString place]) item := by
      apply List.ext_getElem (by simp [h.length_eq])
      intro place hx hy
      rw [List.getElem_mapIdx, List.getElem_mapIdx]
      exact (h.get (by simpa using hx) (by simpa using hy)).issues _
    rw [list, issuesAt, issuesAt, hitems]
  · have hitems : xs.map schema.shape = ys.map schema.shape := by
      induction h with
      | nil => rfl
      | cons hhead _ ih => rw [List.map_cons, List.map_cons, hhead.shape, ih]
    rw [list, Schema.shape, Schema.shape]
    exact congrArg Value.array hitems

/-- What two documents hold under a key is not told apart by the schema of the key: a
hidden key may hold anything, or nothing. -/
def AtKey (schema : Schema) (found other : Option Value) : Prop :=
  schema = .hidden ∨ Option.Rel schema.Indistinct found other

theorem AtKey.of_rel {R : Value -> Value -> Prop} {found other : Option Value}
    (h : Option.Rel R found other)
    (hR : forall x y, R x y -> schema = .hidden ∨ schema.Indistinct x y) :
    AtKey schema found other := by
  cases h with
  | some hrelated => exact (hR _ _ hrelated).imp_right .some
  | none => exact Or.inr .none

theorem AtKey.issuesAtKey {found other : Option Value} (h : AtKey schema found other)
    (path : List String) :
    schema.issuesAtKey path found = schema.issuesAtKey path other := by
  rcases h with rfl | ⟨hindistinct⟩ | _
  · cases found <;> cases other <;> rfl
  · exact hindistinct.issues path
  · rfl

theorem AtKey.shapeAt {found other : Option Value} (h : AtKey schema found other) :
    schema.shapeAt found = schema.shapeAt other := by
  rcases h with rfl | ⟨hindistinct⟩ | _
  · cases found <;> cases other <;> rfl
  · rw [Schema.shapeAt, Schema.shapeAt, hindistinct.shape]
  · rfl

variable {fields : List (String × Schema)} {xs ys : Document}

theorem issuesOfFields (h : forall field, field ∈ fields ->
      AtKey field.2 (Keyed.get? xs field.1) (Keyed.get? ys field.1))
    (path : List String) :
    Schema.issuesOfFields fields path xs = Schema.issuesOfFields fields path ys := by
  induction fields with
  | nil =>
      rfl
  | cons field rest ih =>
      rcases List.forall_mem_cons.mp h with ⟨hfield, hrest⟩
      rw [issuesOfFields_cons, issuesOfFields_cons, hfield.issuesAtKey, ih hrest]

theorem shapeFields (h : forall field, field ∈ fields ->
      AtKey field.2 (Keyed.get? xs field.1) (Keyed.get? ys field.1))
    (shaped : Document) :
    Schema.shapeFields fields xs shaped = Schema.shapeFields fields ys shaped := by
  induction fields generalizing shaped with
  | nil =>
      rfl
  | cons field rest ih =>
      rcases List.forall_mem_cons.mp h with ⟨hfield, hrest⟩
      rw [shapeFields_cons, shapeFields_cons, hfield.shapeAt, ih hrest]

theorem object (h : forall field, field ∈ fields ->
      AtKey field.2 (Keyed.get? xs field.1) (Keyed.get? ys field.1)) :
    (Schema.object fields).Indistinct (.document xs) (.document ys) :=
  ⟨rfl, issuesOfFields h, congrArg Value.document (shapeFields h [])⟩

end Indistinct

end Schema

/-!
## Parts of a query
-/

namespace Expr

open DocumentMapper.Action

variable {first second : Clock} {scope scope' : Scope} {a b : Store}

theorem answerAlike_lastValue {entry : Value}
    (h : Keyed.get? scope valuesVar = some entry)
    (h' : Keyed.get? scope' valuesVar = some entry) :
    AnswerAlike Eq (lastValue.evaluate first scope) (lastValue.evaluate second scope')
      a b := by
  have hitems : AnswerAlike Eq (asItems entry) (asItems entry) a b := by
    unfold asItems
    split
    · exact answerAlike_pure rfl
    · split
      · exact answerAlike_pure rfl
      · exact answerAlike_throw _
    · exact answerAlike_throw _
  rw [evaluate_lastValue h, evaluate_lastValue h']
  refine answerAlike_bind hitems fun source other hsource => ?_
  rw [<- hsource, asPath_last]
  split
  · exact answerAlike_throw _
  · exact answerAlike_demand_same _ _

theorem answerAlike_listing {schema : Schema} {set reference item : Expr}
    (hset : AnswerAlike Eq (evaluateSet first set scope)
      (evaluateSet second set scope') a b)
    (hitem : forall entry, AnswerAlike schema.Indistinct
      ((letIn [(refVar, reference)] item).evaluate first ((valuesVar, entry) :: scope))
      ((letIn [(refVar, reference)] item).evaluate second
        ((valuesVar, entry) :: scope')) a b) :
    AnswerAlike schema.list.Indistinct
      ((listing set reference item).evaluate first scope)
      ((listing set reference item).evaluate second scope') a b := by
  rw [evaluate_listing, evaluate_listing]
  refine answerAlike_bind hset fun found other hfound => ?_
  rw [<- hfound]
  exact answerAlike_bind (answerAlike_mapM hitem) fun xs ys hitems =>
    answerAlike_pure (Schema.Indistinct.array hitems)

theorem answerAlike_listIndex {schema : Schema} {name : String} {terms : List Expr}
    {wanted : List Value} {item : Expr}
    (hterms : (array terms).evaluate first scope = pure (.array wanted))
    (hterms' : (array terms).evaluate second scope' = pure (.array wanted))
    (hmatching : a.matching? name wanted = b.matching? name wanted)
    (herror : a.matchingError name = b.matchingError name)
    (hitem : forall entry last, AnswerAlike schema.Indistinct
      (item.evaluate first ((refVar, last) :: (valuesVar, entry) :: scope))
      (item.evaluate second ((refVar, last) :: (valuesVar, entry) :: scope')) a b) :
    AnswerAlike schema.list.Indistinct
      ((listIndex name terms item).evaluate first scope)
      ((listIndex name terms item).evaluate second scope') a b := by
  refine answerAlike_listing ?_ fun entry => ?_
  · rw [evaluateSet_matching hterms, evaluateSet_matching hterms']
    refine answerAlike_getThe ?_
    rw [hmatching, herror]
    exact answerAlike_demand_same _ _
  · rw [evaluate_bindRef, evaluate_bindRef]
    refine answerAlike_bind (answerAlike_lastValue rfl rfl) fun last other hlast => ?_
    rw [<- hlast]
    exact hitem entry last

/-- Entry after entry, what is written stays related key by key. -/
theorem answerAlike_evaluateEntries {R : String -> Value -> Value -> Prop}
    {entries : List (String × Expr)}
    (h : forall entry, entry ∈ entries -> AnswerAlike (R entry.1)
      (entry.2.evaluate first scope) (entry.2.evaluate second scope') a b)
    {written written' : Document}
    (hwritten : forall key,
      Option.Rel (R key) (Keyed.get? written key) (Keyed.get? written' key)) :
    AnswerAlike
      (fun xs ys => forall key,
        Option.Rel (R key) (Keyed.get? xs key) (Keyed.get? ys key))
      (evaluateEntries first entries written scope)
      (evaluateEntries second entries written' scope') a b := by
  induction entries generalizing written written' with
  | nil =>
      exact answerAlike_pure hwritten
  | cons entry rest ih =>
      rcases List.forall_mem_cons.mp h with ⟨hentry, hrest⟩
      rw [evaluateEntries, evaluateEntries]
      refine answerAlike_bind hentry fun x y hvalue => ih hrest fun key => ?_
      rw [Keyed.get?_insert, Keyed.get?_insert]
      by_cases hkey : entry.1 = key
      · rw [if_pos hkey, if_pos hkey, <- hkey]
        exact .some hvalue
      · rw [if_neg hkey, if_neg hkey]
        exact hwritten key

end Expr

end DocumentMapper
