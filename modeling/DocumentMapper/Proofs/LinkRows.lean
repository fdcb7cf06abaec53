import DocumentMapper.Proofs.ReadBack
import DocumentMapper.Proofs.ReverseViews

/-!
# Rows of links

A link is stored as a row with two keys, one made of the name of the model and one of
the name of the field, and the indexes of the field look under keys that are made the
same way.  The two keys are one where a field is named like its own model: the related
instance is written over the owner, and both indexes find the related instance where
they look for either.
-/

namespace DocumentMapper

/-!
## Where an index looks
-/

/-- The document holds one reference where the only term of the index looks, and
another where the last of its values does. -/
structure IndexDefinition.Connects (index : IndexDefinition)
    (start goal : Reference) (document : Document) : Prop where
  term : index.terms.map (fun term => document.at? term.field) =
    [some start.toValue]
  last : (index.values.getLast?.bind fun value => document.at? value.field) =
    some goal.toValue

namespace IndexDefinition

variable {relation : Relation} {source first last : String} {start goal : Reference}
  {document : Document}

theorem connects_joinIndex (name : String)
    (hfirst : document.at? (dataPath first) = some start.toValue)
    (hlast : document.at? (dataPath last) = some goal.toValue) :
    (relation.joinIndex name source first last).Connects start goal document where
  term := by
    rw [Relation.joinIndex, List.map_singleton, hfirst]
  last := by
    rw [Relation.joinIndex, List.getLast?_concat, Option.bind_some, hlast]

theorem connects_joinIndex_of_mem {names : Option String} {index : IndexDefinition}
    (hfirst : document.at? (dataPath first) = some start.toValue)
    (hlast : document.at? (dataPath last) = some goal.toValue)
    (hindex : index ∈
      (names.map fun name => relation.joinIndex name source first last).toList) :
    index.Connects start goal document := by
  rcases Option.map_eq_some_iff.mp (Option.mem_toList.mp hindex) with ⟨name, _, heq⟩
  rw [<- heq]
  exact connects_joinIndex name hfirst hlast

end IndexDefinition

/-!
## What a row holds
-/

/-- The row that a link would store next. -/
def Store.linkRow (clock : Clock) (rows model field : String)
    (owner other : Reference) (store : Store) : Document :=
  storedDocument (numbered rows (store.lastNumber + 1)) (store.nextTimestamp clock)
    (Document.withoutNulls (linkData model field owner other))

namespace Store

variable {clock : Clock} {store : Store} {rows model field : String}
  {owner other : Reference}

theorem at?_linkRow (key : String) :
    (store.linkRow clock rows model field owner other).at? (dataPath key) =
      (Keyed.get? (linkData model field owner other) key).bind Document.kept :=
  at?_storedDocument (Keyed.nodup_keys_ofList _) get?_linkData_key _ _ _

theorem at?_linkRow_relatedKey :
    (store.linkRow clock rows model field owner other).at?
        (dataPath (relatedKey field)) =
      some other.toValue := by
  rw [at?_linkRow, get?_linkData_related]
  rfl

theorem at?_linkRow_ownerKey (hapart : field ≠ model) :
    (store.linkRow clock rows model field owner other).at?
        (dataPath (ownerKey model)) =
      some owner.toValue := by
  rw [at?_linkRow, get?_linkData_owner hapart]
  rfl

end Store

/-!
## The query
-/

/-- In a collection that is there, only a unique index can refuse a row. -/
theorem Store.createDocument_linkData {clock : Clock} {store : Store}
    {rows model field : String} {owner other : Reference}
    (hrows : Keyed.contains store.collections rows = true) :
    let number := store.lastNumber + 1
    let row := store.linkRow clock rows model field owner other
    createDocument clock rows (linkData model field owner other) store =
      if store.collides rows number row then
        .error .instanceNotUnique (store.stepped clock number)
      else
        .ok row ((store.stepped clock number).putDocument rows number row) := by
  unfold createDocument
  rw [if_pos hrows]
  rfl

theorem Expr.evaluate_link_of_ends {clock : Clock} {scope : Scope} {store : Store}
    (join : JoinNames) (model field : String) {start goal : Expr}
    {owner other : Reference}
    (hstart : start.evaluate clock scope store = .ok owner.toValue store)
    (hgoal : goal.evaluate clock scope store = .ok other.toValue store) :
    (join.link model field start goal).evaluate clock scope store =
      (do
        let document <-
          Store.createDocument clock (join.collectionName model field)
            (linkData model field owner other)
        pure (Value.document document)) store := by
  have hhome :
      asCollection (Reference.ofCollection (join.collectionName model field)).toValue
          store =
        .ok (join.collectionName model field) store := by
    rfl
  simp only [JoinNames.link, evaluate, evaluateEntries, bind, EStateM.bind, pure,
    EStateM.pure, hhome, hstart, hgoal]
  rfl

/-!
## Rows and indexes
-/

theorem Store.link_rows_show_ends (model name : String) (related : Model)
    (relation : Relation) (join : JoinNames) (singular : Option String)
    {clock : Clock} {scope : Scope} {store : Store} {start goal : Expr}
    {owner other : Reference}
    (hstart : start.evaluate clock scope store = .ok owner.toValue store)
    (hgoal : goal.evaluate clock scope store = .ok other.toValue store)
    (hrows : Keyed.contains store.collections (join.collectionName model name) =
      true) :
    let rows := join.collectionName model name
    let number := store.lastNumber + 1
    let row := store.linkRow clock rows model name owner other
    let left := (store.stepped clock number).putDocument rows number row
    (join.link model name start goal).evaluate clock scope store =
        (if store.collides rows number row then
          .error .instanceNotUnique (store.stepped clock number)
        else
          .ok (.document row) left) ∧
      left.documentsOf rows =
        Ordered.insert (store.documentsOf rows) number row ∧
      exists forward backward,
        (Field.manyToMany related relation join singular).indexes model name =
            forward :: backward ∧
          forward.name = join.forwardIndexName model name ∧
          backward.map IndexDefinition.name =
            (relation.reverseIndexName? name).toList ∧
          (name ≠ model ->
            forward.Connects owner other row ∧
              forall index, index ∈ backward -> index.Connects other owner row) ∧
          (name = model ->
            forall index, index ∈ forward :: backward ->
              index.Connects other other row) := by
  intro rows number row left
  have hother : row.at? (dataPath (relatedKey name)) = some other.toValue :=
    at?_linkRow_relatedKey
  refine ⟨?_, ?_, _, _, rfl, rfl, ?_, ?_, ?_⟩
  · rw [Expr.evaluate_link_of_ends join model name hstart hgoal]
    simp only [bind, EStateM.bind, createDocument_linkData hrows]
    by_cases hcollides : store.collides rows number row = true
    · rw [if_pos hcollides, if_pos hcollides]
    · rw [if_neg hcollides, if_neg hcollides]
      rfl
  · have hstepped : Keyed.contains (store.stepped clock number).collections rows =
        true :=
      hrows
    exact (documentsOf_putDocument hstepped number row rows).trans (if_pos rfl)
  · cases relation.reverseIndexName? name <;> rfl
  · intro hapart
    have howner : row.at? (dataPath (ownerKey model)) = some owner.toValue :=
      at?_linkRow_ownerKey hapart
    exact ⟨IndexDefinition.connects_joinIndex _ howner hother, fun index hindex =>
      IndexDefinition.connects_joinIndex_of_mem hother howner hindex⟩
  · intro hsame index hindex
    -- The two keys are one here, and the related instance was written last.
    have howner : row.at? (dataPath (ownerKey model)) = some other.toValue := by
      rw [<- hsame]
      exact hother
    rcases List.mem_cons.mp hindex with hforward | hbackward
    · rw [hforward]
      exact IndexDefinition.connects_joinIndex _ howner hother
    · exact IndexDefinition.connects_joinIndex_of_mem hother howner hbackward

/-!
The statement at one run: a song is put on a list, and both indexes over the entries
find the row.
-/

def musicStore : Store :=
  (Store.empty.after
    ((Client.memory fun _ => 0).deploy musicDeployment)).afterCalls
      (musicCalls.take 2)

theorem Store.link_rows_show_ends_entry :
    exists row left forward backward,
      ({ JoinNames.derived with collection := some "entries" }.link "Playlist"
          "songs" (Expr.documentRef "Playlist" "2")
          (Expr.documentRef "Song" "1")).evaluate (fun _ => 0) [] musicStore =
        .ok (.document row) left ∧
      left.documentsOf "entries" = [(3, row)] ∧
      playlistModel.indexes = [forward, backward] ∧
      forward.Connects (numbered "Playlist" 2) (numbered "Song" 1) row ∧
      backward.Connects (numbered "Song" 1) (numbered "Playlist" 2) row := by
  have hlist : (Expr.documentRef "Playlist" "2").evaluate (fun _ => 0) [] musicStore =
      .ok (numbered "Playlist" 2).toValue musicStore := by
    rfl
  have hsong : (Expr.documentRef "Song" "1").evaluate (fun _ => 0) [] musicStore =
      .ok (numbered "Song" 1).toValue musicStore := by
    rfl
  have hrows : Keyed.contains musicStore.collections "entries" = true := by
    with_unfolding_all rfl
  have hnone : musicStore.documentsOf "entries" = [] := by
    with_unfolding_all rfl
  have hnumber : musicStore.lastNumber = 2 := by
    with_unfolding_all rfl
  rcases Store.link_rows_show_ends "Playlist" "songs" songModel
      { Relation.oneWay with reverse := some "lists", sort := some ["-ts", "title"] }
      { JoinNames.derived with collection := some "entries" } none hlist hsong
      hrows with
    ⟨hrun, hstored, forward, backward, hindexes, _, _, hconnects, _⟩
  cases hindexes
  rcases hconnects (by decide) with ⟨hforward, hbackward⟩
  refine ⟨_, _, _, _, hrun.trans (if_neg ?_), ?_, rfl, hforward,
    hbackward _ List.mem_cons_self⟩
  · show ¬ musicStore.collides "entries" _ _ = true
    simp [collides, hnone]
  · refine hstored.trans ?_
    show Ordered.insert (musicStore.documentsOf "entries") (musicStore.lastNumber + 1)
      _ = _
    rw [hnone, hnumber]
    rfl

/-!
The exception: the likes of users are a model with a field of the same name.  The row
holds the user alone, so the link is not found under the instance that owns it.
-/

def likesModel : Model :=
  { name := "likes"
    fields :=
      [("likes", .manyToMany userModel Relation.oneWay JoinNames.derived none)]
    derived := false }

def likesStore : Store :=
  (Store.empty.after
    ((Client.memory fun _ => 0).deploy { models := [userModel, likesModel] })).afterCalls
      [{ clock := fun _ => 0
         model := userModel
         operation := .create [("name", .string "Ann")] },
        { clock := fun _ => 0, model := likesModel, operation := .create [] }]

def likesLink : Expr :=
  JoinNames.derived.link "likes" "likes" (.documentRef "likes" "2")
    (.documentRef "User" "1")

def likesRow : Document :=
  [("ref", (Store.numbered "likes_likes" 3).toValue), ("ts", .int .long 7),
    ("data", .document [("likes_ref", (Store.numbered "User" 1).toValue)])]

theorem Store.likes_row_lacks_owner :
    let left := likesStore.after (likesLink.evaluate (fun _ => 0) [])
    Keyed.contains likesStore.collections "likes_likes" = true ∧
      likesLink.evaluate (fun _ => 0) [] likesStore =
        .ok (.document likesRow) left ∧
      left.documentsOf "likes_likes" = [(3, likesRow)] ∧
      (forall index, index ∈ likesModel.indexes ->
        ¬ index.Connects (numbered "likes" 2) (numbered "User" 1) likesRow) ∧
      left.matching? "likes_by_likes" [(numbered "likes" 2).toValue] = some [] := by
  refine ⟨?_, ?_, ?_, ?_, ?_⟩
  · with_unfolding_all rfl
  · with_unfolding_all rfl
  · with_unfolding_all rfl
  · intro index hindex hconnects
    rw [List.mem_singleton.mp hindex] at hconnects
    have hheld : some (numbered "User" 1).toValue =
        some (numbered "likes" 2).toValue := by
      exact (List.cons.inj hconnects.term).1
    have hsame := Reference.toValue_injective (Option.some.inj hheld)
    exact absurd hsame (by decide)
  · with_unfolding_all rfl

end DocumentMapper
