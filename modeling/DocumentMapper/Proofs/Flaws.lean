import DocumentMapper.Proofs.Conformance
import DocumentMapper.Proofs.SharedTrail

/-!
# Flaws

Where a value does not conform, and in which order this is told.

A position in a value is the way to it from the root: which field of an object, which
item of an array, and so on.  A flaw is a position where parsing looks no further and
the value that is there, or a null where none is, does not conform.  Parsing reports
each flaw once, and a position before another where the two part at an earlier field
or item.
-/

namespace DocumentMapper

/-!
## Positions
-/

/-- The way from a value to one of its parts. -/
structure Turn where
  /-- Which part it is: the place of its field in the schema, or of the item. -/
  place : Nat
  /-- What a path calls it: its key, or its place as text. -/
  label : String

namespace Turn

/-- Two positions part at some value, from where the first goes to an earlier part. -/
inductive Before : List Turn -> List Turn -> Prop where
  | parted {a b : Turn} (h : a.place < b.place) (p q : List Turn) :
      Before (a :: p) (b :: q)
  | further (a : Turn) {p q : List Turn} (h : Before p q) : Before (a :: p) (a :: q)

theorem Before.ne {p q : List Turn} (h : Before p q) : p ≠ q := by
  induction h with
  | parted hplace _ _ =>
      intro hsame
      cases hsame
      exact Nat.lt_irrefl _ hplace
  | further a _ ih =>
      intro hsame
      cases hsame
      exact ih rfl

end Turn

structure Flaw where
  turns : List Turn
  fault : Fault

namespace Flaw

def Precedes (first second : Flaw) : Prop :=
  Turn.Before first.turns second.turns

def issue (path : List String) (flaw : Flaw) : Issue :=
  { path := path ++ flaw.turns.map Turn.label, fault := flaw.fault }

def under (turn : Turn) (flaw : Flaw) : Flaw :=
  { flaw with turns := turn :: flaw.turns }

theorem issue_under (path : List String) (turn : Turn) (flaw : Flaw) :
    (flaw.under turn).issue path = flaw.issue (path ++ [turn.label]) := by
  simp [issue, under]

/-!
## Flaws of parts
-/

section

variable {part : Type} {label : Nat -> part -> String} {own : part -> List Flaw}
  {parts : List part}

def gathered (label : Nat -> part -> String) (own : part -> List Flaw)
    (parts : List part) : List Flaw :=
  (parts.mapIdx fun place a =>
    (own a).map (under { place := place, label := label place a })).flatten

theorem mem_gathered {flaw : Flaw} :
    flaw ∈ gathered label own parts <->
      exists place a inner, parts[place]? = some a ∧ inner ∈ own a ∧
        flaw = inner.under { place := place, label := label place a } := by
  simp only [gathered, List.mem_flatten, List.mem_mapIdx]
  constructor
  · rintro ⟨_, ⟨place, hplace, rfl⟩, hmem⟩
    rcases List.mem_map.mp hmem with ⟨inner, hinner, heq⟩
    exact ⟨place, parts[place], inner, List.getElem?_eq_getElem hplace, hinner,
      heq.symm⟩
  · rintro ⟨place, a, inner, ha, hinner, rfl⟩
    rcases List.getElem?_eq_some_iff.mp ha with ⟨hplace, rfl⟩
    exact ⟨_, ⟨place, hplace, rfl⟩, List.mem_map_of_mem hinner⟩

theorem ordered_gathered
    (h : forall a, a ∈ parts -> (own a).Pairwise Precedes) :
    (gathered label own parts).Pairwise Precedes := by
  rw [gathered, List.pairwise_flatten]
  constructor
  · intro flaws hflaws
    rcases List.mem_mapIdx.mp hflaws with ⟨place, hplace, rfl⟩
    rw [List.pairwise_map]
    exact (h _ (List.getElem_mem hplace)).imp fun hbefore => .further _ hbefore
  · rw [List.pairwise_iff_getElem]
    intro i j hi hj hij first hfirst second hsecond
    rw [List.getElem_mapIdx] at hfirst hsecond
    rcases List.mem_map.mp hfirst with ⟨a, _, rfl⟩
    rcases List.mem_map.mp hsecond with ⟨b, _, rfl⟩
    exact .parted hij _ _

theorem issues_gathered (path : List String) :
    (gathered label own parts).map (issue path) =
      (parts.mapIdx fun place a =>
        (own a).map (issue (path ++ [label place a]))).flatten := by
  simp only [gathered, List.map_flatten, List.mapIdx_eq_zipIdx_map, List.map_map,
    Function.comp_def, issue_under]

end

end Flaw

namespace Schema

/-!
## Flaws of a value
-/

/-- Parsing does not look inside the value, nor at another schema for it. -/
def IsLeaf : Schema -> Value -> Prop
  | optional _, value => value = .null
  | omittable _, _ => False
  | array _, .array _ => False
  | object _, .document _ => False
  | _, _ => True

def refusal : Schema -> Value -> Fault
  | never, _ => .notAllowed
  | oneOf options, .string s => .invalidOption options s
  | schema, value => schema.mismatch value

/-- At the position stands a leaf that does not conform.  A key that is missing leads to
a null, unless it may be missing. -/
inductive FlawAt : Schema -> Value -> List Turn -> Fault -> Prop where
  | here {schema : Schema} {value : Value} (hleaf : schema.IsLeaf value)
      (hvalue : ¬ schema.Conforms value) :
      FlawAt schema value [] (schema.refusal value)
  | present {inner : Schema} {value : Value} {turns : List Turn} {fault : Fault}
      (hpresent : value ≠ .null) (h : FlawAt inner value turns fault) :
      FlawAt (.optional inner) value turns fault
  | within {inner : Schema} {value : Value} {turns : List Turn} {fault : Fault}
      (h : FlawAt inner value turns fault) :
      FlawAt (.omittable inner) value turns fault
  | item {schema : Schema} {items : List Value} {place : Nat} {element : Value}
      {turns : List Turn} {fault : Fault} (hitem : items[place]? = some element)
      (h : FlawAt schema element turns fault) :
      FlawAt (.array schema) (.array items)
        ({ place := place, label := toString place } :: turns) fault
  | entry {fields : List (String × Schema)} {entries : Document} {place : Nat}
      {key : String} {schema : Schema} {turns : List Turn} {fault : Fault}
      (hfield : fields[place]? = some (key, schema))
      (hthere : Keyed.get? entries key = none -> schema.isOmittable = false)
      (h : FlawAt schema ((Keyed.get? entries key).getD .null) turns fault) :
      FlawAt (.object fields) (.document entries)
        ({ place := place, label := key } :: turns) fault

/-- The list names every flaw of the value, in order, and its issues are those that
are found. -/
structure Flaws (schema : Schema) (value : Value) (flaws : List Flaw) : Prop where
  ordered : flaws.Pairwise Flaw.Precedes
  mem : forall flaw,
    flaw ∈ flaws <-> schema.FlawAt value flaw.turns flaw.fault
  issues : forall path, schema.issuesAt path value = flaws.map (Flaw.issue path)

theorem flawAt_leaf_iff {schema : Schema} {value : Value}
    (hleaf : schema.IsLeaf value) {turns : List Turn} {fault : Fault} :
    schema.FlawAt value turns fault <->
      ¬ schema.Conforms value ∧ turns = [] ∧ fault = schema.refusal value := by
  constructor
  · intro h
    cases h with
    | here _ hvalue => exact ⟨hvalue, rfl, rfl⟩
    | present hpresent _ => exact absurd hleaf hpresent
    | within _ => exact hleaf.elim
    | item _ _ => exact hleaf.elim
    | entry _ _ _ => exact hleaf.elim
  · rintro ⟨hvalue, rfl, rfl⟩
    exact .here hleaf hvalue

theorem flawAt_optional_iff {inner : Schema} {value : Value}
    (hpresent : value ≠ .null) {turns : List Turn} {fault : Fault} :
    (optional inner).FlawAt value turns fault <->
      inner.FlawAt value turns fault := by
  constructor
  · intro h
    cases h with
    | here hleaf _ => exact absurd hleaf hpresent
    | present _ h => exact h
  · exact .present hpresent

theorem flawAt_omittable_iff {inner : Schema} {value : Value} {turns : List Turn}
    {fault : Fault} :
    (omittable inner).FlawAt value turns fault <->
      inner.FlawAt value turns fault := by
  constructor
  · intro h
    cases h with
    | here hleaf _ => exact hleaf.elim
    | within h => exact h
  · exact .within

/-- A leaf is the only position of its value, and there it has one issue or none. -/
theorem exists_flaws_leaf {schema : Schema} {value : Value}
    (hleaf : schema.IsLeaf value)
    (hone : forall path, schema.issuesAt path value = [] ∨
      schema.issuesAt path value = [{ path := path, fault := schema.refusal value }]) :
    exists flaws, schema.Flaws value flaws := by
  by_cases hvalue : schema.Conforms value
  · refine ⟨[], List.Pairwise.nil, ?_, fun path => ?_⟩
    · intro flaw
      simp [flawAt_leaf_iff hleaf, hvalue]
    · exact issuesAt_eq_nil_iff_conforms.mpr hvalue
  · refine ⟨[{ turns := [], fault := schema.refusal value }],
      List.pairwise_singleton _ _, ?_, fun path => ?_⟩
    · rintro ⟨turns, fault⟩
      simp [flawAt_leaf_iff hleaf, hvalue]
    · rcases hone path with hnone | hissue
      · exact absurd (issuesAt_eq_nil_iff_conforms.mp hnone) hvalue
      · simp [hissue, Flaw.issue]

/-!
## Flaws of arrays and objects
-/

theorem flaws_array {item : Schema} {own : Value -> List Flaw}
    (h : forall element, item.Flaws element (own element)) (items : List Value) :
    (array item).Flaws (.array items)
      (Flaw.gathered (fun place _ => toString place) own items) where
  ordered := Flaw.ordered_gathered fun element _ => (h element).ordered
  mem flaw := by
    rw [Flaw.mem_gathered]
    constructor
    · rintro ⟨place, element, inner, hitem, hinner, rfl⟩
      exact .item hitem (((h element).mem inner).mp hinner)
    · intro hflaw
      rcases flaw with ⟨turns, fault⟩
      cases hflaw with
      | here hleaf _ =>
          exact hleaf.elim
      | @item _ _ place element rest _ hitem hrest =>
          exact ⟨place, element, ⟨rest, fault⟩, hitem,
            ((h element).mem ⟨rest, fault⟩).mpr hrest, rfl⟩
  issues path := by
    rw [Flaw.issues_gathered, issuesAt]
    simp only [(h _).issues]

theorem issuesOfFields_eq_flatten (fields : List (String × Schema))
    (path : List String) (entries : Document) :
    issuesOfFields fields path entries =
      (fields.map fun field =>
        field.2.issuesAtKey (path ++ [field.1])
          (Keyed.get? entries field.1)).flatten := by
  induction fields with
  | nil =>
      rfl
  | cons field rest ih =>
      rw [issuesOfFields_cons, ih]
      rfl

structure FlawsAtKey (schema : Schema) (found : Option Value)
    (flaws : List Flaw) : Prop where
  ordered : flaws.Pairwise Flaw.Precedes
  mem : forall flaw,
    flaw ∈ flaws <->
      (found = none -> schema.isOmittable = false) ∧
        schema.FlawAt (found.getD .null) flaw.turns flaw.fault
  issues : forall path,
    schema.issuesAtKey path found = flaws.map (Flaw.issue path)

theorem exists_flawsAtKey {schema : Schema}
    (h : forall value, exists flaws, schema.Flaws value flaws)
    (found : Option Value) : exists flaws, schema.FlawsAtKey found flaws := by
  rcases h (found.getD .null) with ⟨flaws, hflaws⟩
  cases found with
  | some value =>
      exact ⟨flaws, hflaws.ordered, by simpa using hflaws.mem, hflaws.issues⟩
  | none =>
      cases homittable : schema.isOmittable with
      | true =>
          refine ⟨[], List.Pairwise.nil, ?_, ?_⟩
          · simp [homittable]
          · simp [issuesAtKey, homittable]
      | false =>
          refine ⟨flaws, hflaws.ordered, ?_, ?_⟩
          · simpa [homittable] using hflaws.mem
          · simpa [issuesAtKey, homittable] using hflaws.issues

theorem flaws_object {fields : List (String × Schema)} {entries : Document}
    {own : String × Schema -> List Flaw}
    (h : forall field, field ∈ fields ->
      field.2.FlawsAtKey (Keyed.get? entries field.1) (own field)) :
    (object fields).Flaws (.document entries)
      (Flaw.gathered (fun _ field => field.1) own fields) where
  ordered := Flaw.ordered_gathered fun field hfield => (h field hfield).ordered
  mem flaw := by
    rw [Flaw.mem_gathered]
    constructor
    · rintro ⟨place, field, inner, hfield, hinner, rfl⟩
      have hat := ((h field (List.mem_of_getElem? hfield)).mem inner).mp hinner
      exact .entry hfield hat.1 hat.2
    · intro hflaw
      rcases flaw with ⟨turns, fault⟩
      cases hflaw with
      | here hleaf _ =>
          exact hleaf.elim
      | @entry _ _ place key schema rest _ hfield hthere hrest =>
          have hat := h (key, schema) (List.mem_of_getElem? hfield)
          exact ⟨place, (key, schema), ⟨rest, fault⟩, hfield,
            (hat.mem ⟨rest, fault⟩).mpr ⟨hthere, hrest⟩, rfl⟩
  issues path := by
    rw [Flaw.issues_gathered, issuesAt, issuesOfFields_eq_flatten]
    congr 1
    apply List.ext_getElem
    · simp
    · intro place hplace _
      rw [List.length_map] at hplace
      simp [(h _ (List.getElem_mem hplace)).issues]

/-!
## Every value has its list of flaws
-/

theorem exists_flaws (schema : Schema) (value : Value) :
    exists flaws, schema.Flaws value flaws := by
  induction schema generalizing value with
  | array item ih =>
      cases value with
      | array items =>
          choose own hown using ih
          exact ⟨_, flaws_array hown items⟩
      | _ =>
          exact exists_flaws_leaf trivial fun path => Or.inr rfl
  | object fields ih =>
      cases value with
      | document entries =>
          have hfields (field : String × Schema) : exists flaws, field ∈ fields ->
              field.2.FlawsAtKey (Keyed.get? entries field.1) flaws := by
            by_cases hfield : field ∈ fields
            · rcases exists_flawsAtKey (ih field hfield)
                (Keyed.get? entries field.1) with ⟨flaws, hflaws⟩
              exact ⟨flaws, fun _ => hflaws⟩
            · exact ⟨[], fun hmem => absurd hmem hfield⟩
          choose own hown using hfields
          exact ⟨_, flaws_object hown⟩
      | _ =>
          exact exists_flaws_leaf trivial fun path => Or.inr rfl
  | optional inner ih =>
      by_cases hnull : value = .null
      · rw [hnull]
        exact exists_flaws_leaf rfl fun path => Or.inl rfl
      · rcases ih value with ⟨flaws, hflaws⟩
        refine ⟨flaws, hflaws.ordered, fun flaw => ?_, fun path => ?_⟩
        · rw [hflaws.mem, flawAt_optional_iff hnull]
        · rw [issuesAt, if_neg (by simp [Value.isNull_iff, hnull]), hflaws.issues]
  | omittable inner ih =>
      rcases ih value with ⟨flaws, hflaws⟩
      refine ⟨flaws, hflaws.ordered, fun flaw => ?_, fun path => ?_⟩
      · rw [hflaws.mem, flawAt_omittable_iff]
      · rw [issuesAt, hflaws.issues]
  | any =>
      exact exists_flaws_leaf trivial fun path => Or.inl rfl
  | hidden =>
      exact exists_flaws_leaf trivial fun path => Or.inl rfl
  | string =>
      refine exists_flaws_leaf trivial ?_
      cases value <;> simp [issuesAt, refusal]
  | number =>
      refine exists_flaws_leaf trivial ?_
      cases value <;> simp [issuesAt, refusal, Value.isNumber]
  | boolean =>
      refine exists_flaws_leaf trivial ?_
      cases value <;> simp [issuesAt, refusal]
  | oneOf options =>
      refine exists_flaws_leaf trivial ?_
      intro path
      cases value with
      | string s =>
          simp only [issuesAt, refusal]
          exact ite_eq_or_eq _ _ _
      | _ => exact Or.inr rfl
  | never =>
      refine exists_flaws_leaf trivial ?_
      cases value <;> simp [issuesAt, refusal, Value.isNull]
  | reference collection =>
      refine exists_flaws_leaf trivial ?_
      intro path
      rw [issuesAt]
      cases shapeReference collection value <;> simp [refusal]

/-!
# Main statement
-/

theorem validation_tells_every_flaw (schema : Schema) (value : Value) :
    schema.parseByWalk value = schema.parse value ∧
      ((exists parsed, schema.parse value = .ok parsed) <-> schema.Conforms value) ∧
      exists flaws : List Flaw,
        flaws.Pairwise Flaw.Precedes ∧
        (flaws.map Flaw.turns).Nodup ∧
        (forall flaw, flaw ∈ flaws <->
          schema.FlawAt value flaw.turns flaw.fault) ∧
        (forall issues, schema.parse value = .error issues <->
          flaws ≠ [] ∧ issues = flaws.map (Flaw.issue [])) ∧
        forall trail : Trail,
          ((schema.visit value).run trail).2 =
            { trail with
                issues := trail.issues ++ flaws.map (Flaw.issue trail.path) } := by
  rcases exists_flaws schema value with ⟨flaws, hflaws⟩
  refine ⟨parseByWalk_eq schema value, ?_, flaws, hflaws.ordered, ?_, hflaws.mem,
    ?_, ?_⟩
  · simp [parse_eq_ok_iff_conforms]
  · exact List.pairwise_map.mpr (hflaws.ordered.imp fun h => h.ne)
  · intro issues
    have hissues : schema.issues value = flaws.map (Flaw.issue []) :=
      hflaws.issues []
    rw [parse, hissues]
    cases flaws with
    | nil => simp
    | cons flaw rest => simp [eq_comm]
  · intro trail
    rw [visit_trail, hflaws.issues]

/-!
The order of the issues at one value: the guide is missing, and two of the stops are no
text.
-/

example :
    tripSchema.parse
        (.document
          [("stops", .array [.int .short 1, .null, .bool true]), ("note", .string "b")]) =
      .error
        [{ path := ["guide"], fault := .required },
          { path := ["stops", "0"], fault := .invalidType "string" "number" },
          { path := ["stops", "2"], fault := .invalidType "string" "boolean" }] := by
  rfl

end Schema
end DocumentMapper
