import DocumentMapper.Proofs.CompiledReads
import DocumentMapper.Proofs.RowOrder

/-!
# Redacted documents

Two stores that are the same but for what their documents hold under one key of
their data.  References lead to the same documents but for that key, and where no
index looks at the key, all indexes have the same entries.

Documents are compared by redacting both, so that the key may be in either one
without the other.
-/

namespace DocumentMapper

theorem Keyed.get?_mapItems {key item other : Type} [DecidableEq key]
    (f : key -> item -> other) (entries : List (key × item)) (wanted : key) :
    get? (entries.map fun entry => (entry.1, f entry.1 entry.2)) wanted =
      (get? entries wanted).map (f wanted) := by
  induction entries with
  | nil =>
      rfl
  | cons entry rest ih =>
      rw [List.map_cons, get?_cons, get?_cons, ih]
      by_cases hkey : entry.1 = wanted
      · simp [hkey]
      · simp [hkey]

/-!
## Redacting
-/

def Value.withoutKey (secret : String) : Value -> Value
  | .document data => .document (Keyed.erase data secret)
  | other => other

namespace Document

def redacted (secret : String) (document : Document) : Document :=
  document.map fun entry =>
    (entry.1, if entry.1 = "data" then entry.2.withoutKey secret else entry.2)

theorem get?_redacted (secret : String) (document : Document) (key : String) :
    Keyed.get? (document.redacted secret) key =
      (Keyed.get? document key).map fun value =>
        if key = "data" then value.withoutKey secret else value :=
  Keyed.get?_mapItems
    (fun key value => if key = "data" then Value.withoutKey secret value else value)
    document key

theorem get?_redacted_of_ne (secret : String) (document : Document) {key : String}
    (hkey : key ≠ "data") :
    Keyed.get? (document.redacted secret) key = Keyed.get? document key := by
  simp [get?_redacted, hkey]

theorem identity_redacted (secret : String) (document : Document) :
    (document.redacted secret).identity = document.identity := by
  rw [identity, get?_redacted_of_ne secret document (by decide), identity]

theorem timestamp_redacted (secret : String) (document : Document) :
    (document.redacted secret).timestamp = document.timestamp := by
  rw [timestamp, get?_redacted_of_ne secret document (by decide), timestamp]

end Document

/-- A path to something else: not the key of the data, nor anything around it or
inside it. -/
structure ClearOf (secret : String) (path : List String) : Prop where
  around : ¬ path <+: ["data", secret]
  inside : ¬ ["data", secret] <+: path

theorem clearOf_dataPath {secret name : String} (h : name ≠ secret) :
    ClearOf secret (dataPath name) := by
  constructor <;> simp [dataPath, List.cons_prefix_cons, h, h.symm]

theorem clearOf_singleton {secret name : String} (h : name ≠ "data") :
    ClearOf secret [name] := by
  constructor <;> simp [List.cons_prefix_cons, h]

theorem Value.entry?_congr {as bs : Document} {name : String}
    (hkey : Keyed.get? as Reference.key = Keyed.get? bs Reference.key)
    (hname : Keyed.get? as name = Keyed.get? bs name) :
    entry? as name = entry? bs name := by
  unfold entry?
  rw [hkey, hname]

theorem Value.step?_withoutKey {secret name : String}
    (hsecret : secret ≠ Reference.key) (hname : name ≠ secret) (value : Value) :
    (value.withoutKey secret).step? (.key name) = value.step? (.key name) := by
  cases value with
  | document data =>
      apply entry?_congr
      · rw [Keyed.get?_erase, if_neg hsecret]
      · rw [Keyed.get?_erase, if_neg hname.symm]
  | _ =>
      rfl

theorem Document.at?_redacted {secret : String} (hsecret : secret ≠ Reference.key)
    {path : List String} (h : ClearOf secret path) (document : Document) :
    (document.redacted secret).at? path = document.at? path := by
  cases path with
  | nil =>
      exact absurd List.nil_prefix h.around
  | cons key rest =>
      rw [Document.at?, Document.at?, Value.keySteps, List.map_cons, Value.at?_cons,
        Value.at?_cons, Value.step?, Value.step?]
      by_cases hkey : key = "data"
      · subst hkey
        rw [Value.entry?_eq_get? (by decide) (by decide),
          Value.entry?_eq_get? (by decide) (by decide), get?_redacted]
        cases rest with
        | nil =>
            exact absurd (by simp) h.around
        | cons name rest =>
            have hname : name ≠ secret := by
              intro heq
              exact h.inside (by simp [heq, List.cons_prefix_cons])
            cases Keyed.get? document "data" with
            | none =>
                rfl
            | some value =>
                show (value.withoutKey secret).at? _ = value.at? _
                rw [List.map_cons, Value.at?_cons, Value.at?_cons,
                  Value.step?_withoutKey hsecret hname]
      · rw [Value.entry?_congr (get?_redacted_of_ne secret document (by decide))
          (get?_redacted_of_ne secret document hkey)]

namespace IndexDefinition

/-- No term and no value of the index is at the key, around it or inside it. -/
structure ClearOf (secret : String) (index : IndexDefinition) : Prop where
  terms : forall term, term ∈ index.terms -> DocumentMapper.ClearOf secret term.field
  values : forall value, value ∈ index.values ->
    DocumentMapper.ClearOf secret value.field

variable {secret : String} {index : IndexDefinition}

theorem termsOf?_redacted (hsecret : secret ≠ Reference.key)
    (h : index.ClearOf secret) (document : Document) :
    index.termsOf? (document.redacted secret) = index.termsOf? document := by
  have hterms : (index.terms.map fun term =>
        (document.redacted secret).at? term.field) =
      index.terms.map fun term => document.at? term.field :=
    List.map_congr_left fun term hterm =>
      Document.at?_redacted hsecret (h.terms term hterm) document
  have hmapM := congrArg (fun found => found.mapM id) hterms
  rwa [List.mapM_map, List.mapM_map] at hmapM

theorem valuesOf_redacted (hsecret : secret ≠ Reference.key)
    (h : index.ClearOf secret) (document : Document) :
    index.valuesOf (document.redacted secret) = index.valuesOf document :=
  List.map_congr_left fun value hvalue =>
    congrArg (fun found => found.getD .null)
      (Document.at?_redacted hsecret (h.values value hvalue) document)

theorem entryOf_redacted (hsecret : secret ≠ Reference.key)
    (h : index.ClearOf secret) (document : Document) :
    index.entryOf (document.redacted secret) = index.entryOf document := by
  have hown : (Value.document (document.redacted secret)).at? [.key "ref"] =
      (Value.document document).at? [.key "ref"] :=
    Document.at?_redacted hsecret (clearOf_singleton (by decide)) document
  rw [entryOf, entryOf, valuesOf_redacted hsecret h, hown]

theorem compareRows_redacted (hsecret : secret ≠ Reference.key)
    (h : index.ClearOf secret) (a b : Document) :
    index.compareRows (a.redacted secret) (b.redacted secret) = index.compareRows a b := by
  rw [compareRows, compareRows, valuesOf_redacted hsecret h, valuesOf_redacted hsecret h]

/-- Redacting documents before they are looked up changes no entry. -/
theorem entries_redacted (hsecret : secret ≠ Reference.key)
    (h : index.ClearOf secret) (documents : List Document) (terms : List Value) :
    (Sorting.sort? index.compareRows
        ((documents.map (Document.redacted secret)).filter (index.finds terms))).map
          (List.map index.entryOf) =
      (Sorting.sort? index.compareRows (documents.filter (index.finds terms))).map
        (List.map index.entryOf) := by
  have hfinds : index.finds terms ∘ Document.redacted secret = index.finds terms := by
    funext document
    rw [Function.comp, finds, finds, termsOf?_redacted hsecret h]
  have hentries : index.entryOf ∘ Document.redacted secret = index.entryOf :=
    funext (entryOf_redacted hsecret h)
  rw [List.filter_map, hfinds, Sorting.sort?_map, Option.map_map, List.map_comp_map, hentries]
  simp only [compareRows_redacted hsecret h]

end IndexDefinition

/-!
## Stores
-/

def Document.allRedacted (secret : String) (documents : List (Nat × Document)) :
    List (Nat × Document) :=
  documents.map fun entry => (entry.1, entry.2.redacted secret)

theorem Document.get?_allRedacted (secret : String)
    (documents : List (Nat × Document)) (number : Nat) :
    Keyed.get? (allRedacted secret documents) number =
      (Keyed.get? documents number).map (Document.redacted secret) :=
  Keyed.get?_mapItems (fun _ => Document.redacted secret) documents number

theorem Document.map_snd_allRedacted (secret : String)
    (documents : List (Nat × Document)) :
    (allRedacted secret documents).map Prod.snd =
      (documents.map Prod.snd).map (Document.redacted secret) := by
  rw [allRedacted, List.map_map, List.map_map]
  rfl

def StoredCollection.redacted (secret : String) (stored : StoredCollection) :
    StoredCollection :=
  { stored with documents := Document.allRedacted secret stored.documents }

namespace Store

/-- The stores have the same indexes and, but for a key of the data, the same
collections. -/
structure SameBut (secret : String) (a b : Store) : Prop where
  collections : forall name,
    (Keyed.get? a.collections name).map (StoredCollection.redacted secret) =
      (Keyed.get? b.collections name).map (StoredCollection.redacted secret)
  indexes : forall name, Keyed.get? a.indexes name = Keyed.get? b.indexes name

def IndexesClearOf (secret : String) (store : Store) : Prop :=
  forall name stored, Keyed.get? store.indexes name = some stored ->
    stored.definition.ClearOf secret

variable {secret : String}

theorem documentsOf_redacted (secret : String) (store : Store) (name : String) :
    Document.allRedacted secret (store.documentsOf name) =
      (((Keyed.get? store.collections name).map
        (StoredCollection.redacted secret)).map
          StoredCollection.documents).getD [] := by
  unfold documentsOf
  cases Keyed.get? store.collections name <;> rfl

theorem timestamp_redacted (secret : String) (store : Store) (name : String) :
    (Keyed.get? store.collections name).map StoredCollection.timestamp =
      ((Keyed.get? store.collections name).map
        (StoredCollection.redacted secret)).map StoredCollection.timestamp := by
  cases Keyed.get? store.collections name <;> rfl

theorem references?_redacted (secret : String) (store : Store) (name : String) :
    store.references? name =
      ((Keyed.get? store.collections name).map
        (StoredCollection.redacted secret)).map fun stored =>
          stored.documents.filterMap fun entry => Keyed.get? entry.2 "ref" := by
  have hown (document : Document) :
      Keyed.get? (document.redacted secret) "ref" = Keyed.get? document "ref" :=
    Document.get?_redacted_of_ne secret document (by decide)
  unfold references?
  cases Keyed.get? store.collections name with
  | none =>
      rfl
  | some stored =>
      simp [StoredCollection.redacted, Document.allRedacted, List.filterMap_map, hown]

namespace SameBut

variable {a b : Store}

theorem documentsOf (h : SameBut secret a b) (name : String) :
    Document.allRedacted secret (a.documentsOf name) =
      Document.allRedacted secret (b.documentsOf name) := by
  rw [documentsOf_redacted, documentsOf_redacted, h.collections name]

theorem references? (h : SameBut secret a b) (name : String) :
    a.references? name = b.references? name := by
  rw [references?_redacted secret, h.collections name, <- references?_redacted]

theorem find? (h : SameBut secret a b) (reference : Reference) :
    (a.find? reference).map (Document.redacted secret) =
      (b.find? reference).map (Document.redacted secret) := by
  unfold Store.find?
  split
  · have htimestamp := timestamp_redacted secret a reference.id
    rw [h.collections reference.id, <- timestamp_redacted] at htimestamp
    have hmap := congrArg
      (fun found => found.map fun timestamp =>
        (collectionDocument reference.id timestamp).redacted secret)
      htimestamp
    simpa [Function.comp_def] using hmap
  · split
    · rw [h.indexes reference.id]
    · cases documentNumber? reference.id with
      | none =>
          rfl
      | some number =>
          have hget := congrArg (fun documents => Keyed.get? documents number)
            (h.documentsOf reference.collection)
          rwa [Document.get?_allRedacted, Document.get?_allRedacted] at hget

theorem matching? (h : SameBut secret a b) (hsecret : secret ≠ Reference.key)
    (hclear : a.IndexesClearOf secret) (name : String) (terms : List Value) :
    a.matching? name terms = b.matching? name terms := by
  cases hstored : Keyed.get? a.indexes name with
  | none =>
      have hnone := hstored
      rw [h.indexes name] at hnone
      rw [Store.matching?, Store.matching?, hstored, hnone]
      rfl
  | some stored =>
      have hsame := hstored
      rw [h.indexes name] at hsame
      rw [matching?_of_index hstored, matching?_of_index hsame]
      have hentries (documents : List Document) :=
        IndexDefinition.entries_redacted hsecret (hclear name stored hstored)
          documents terms
      have hdocuments := congrArg (List.map Prod.snd)
        (h.documentsOf stored.definition.source)
      rw [Document.map_snd_allRedacted, Document.map_snd_allRedacted] at hdocuments
      unfold matchingDocuments? foundDocuments
      rw [<- hentries, hdocuments, hentries]

theorem matchingError (h : SameBut secret a b) (name : String) :
    a.matchingError name = b.matchingError name := by
  unfold Store.matchingError Keyed.contains
  rw [h.indexes name]

end SameBut
end Store
end DocumentMapper
