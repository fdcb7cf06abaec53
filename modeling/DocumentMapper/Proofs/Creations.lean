import DocumentMapper.Proofs.Numbers
import DocumentMapper.Proofs.Records

/-!
# Creations

What the record of a run tells.  A number is given once: it is greater than all that were
given before, in whatever collection.  The documents that are there are those that were
created and not deleted since, neither alone nor with their collection, and a document that
is gone is not found again.
-/

namespace DocumentMapper

/-!
## What a record tells
-/

/-- A deletion takes a document away if it names the document or its collection. -/
def Reference.takes (target : Reference) (collection : String) (number : Nat) : Bool :=
  target.collection = Reference.collections ∧ target.id = collection ∨
    target.collection = collection ∧ documentNumber? target.id = some number

namespace Event

def numbers (log : List Event) : List Nat :=
  log.filterMap fun
    | created _ number => some number
    | deleted _ => none

/-- The documents that are there after an event, each as its collection and number. -/
def next (documents : List (String × Nat)) : Event -> List (String × Nat)
  | created collection number => documents ++ [(collection, number)]
  | deleted target => documents.filter fun document => !target.takes document.1 document.2

/-- The numbers of the documents of a collection that were created and not deleted since, in
the order of their creation. -/
def survivors (log : List Event) (collection : String) : List Nat :=
  ((log.foldl next []).filter fun document => document.1 = collection).map Prod.snd

theorem sublist_numbers (log : List Event) (documents : List (String × Nat)) :
    ((log.foldl next documents).map Prod.snd).Sublist
      (documents.map Prod.snd ++ numbers log) := by
  induction log generalizing documents with
  | nil =>
      simp [numbers]
  | cons event rest ih =>
      refine (ih (event.next documents)).trans ?_
      cases event with
      | created collection number =>
          simp [next, numbers]
      | deleted target =>
          exact (List.filter_sublist.map Prod.snd).append_right _

theorem mem_survivors {log : List Event} {collection : String} {number : Nat} :
    number ∈ survivors log collection <-> (collection, number) ∈ log.foldl next [] := by
  simp [survivors]

end Event

namespace Store

/-!
## Writes
-/

variable {clock : Clock} {store : Store} {collection : String}

theorem mem_keys_remove_iff (hfree : collection ∉ Reference.reserved) {target : Reference}
    {number : Nat} :
    number ∈ Keyed.keys ((store.remove target).documentsOf collection) <->
      number ∈ Keyed.keys (store.documentsOf collection) ∧
        target.takes collection number = false := by
  have hnames := Reference.not_mem_reserved_iff.mp hfree
  unfold remove Reference.takes
  split
  · next hcollections =>
      have hother : Reference.collections ≠ collection := hnames.1.symm
      unfold documentsOf
      rw [Keyed.get?_erase, hcollections]
      by_cases hid : target.id = collection
      · simp [hid, Keyed.keys]
      · simp [hid, hother]
  · next hcollections =>
      split
      · next hindexes =>
          have hother : Reference.indexes ≠ collection := hnames.2.symm
          have hdiffer : Reference.indexes ≠ Reference.collections := by decide
          simp only [hindexes, hother, hdiffer, false_and, or_self, decide_false, and_true]
          rfl
      · cases hnumber : documentNumber? target.id with
        | none =>
            simp [hcollections]
        | some read =>
            dsimp only
            rw [documentsOf_dropDocument]
            by_cases hname : target.collection = collection
            · rw [if_pos hname, Keyed.mem_keys_erase, hname]
              simp [hnames.1, and_comm]
            · simp [hname, hcollections]

namespace Write

theorem change (write : Write) (clock : Clock) (store : Store) :
    Change clock store (store.after (write.run clock)) := by
  cases write with
  | createCollection definition => exact change_createCollection store definition
  | createIndex definition => exact change_createIndex store definition
  | createDocument collection data => exact change_createDocument store collection data
  | updateDocument reference patch => exact change_updateDocument store reference patch
  | delete reference => exact change_delete store reference

/-- A write that fails may have advanced the counters, and has stored nothing. -/
theorem collections_of_error {write : Write} {error : Error} {left : Store}
    (h : write.run clock store = .error error left) :
    left.collections = store.collections := by
  cases write with
  | createCollection definition =>
      rw [run, Store.createCollection] at h
      split at h
      · cases h
        rfl
      · cases h
  | createIndex definition =>
      rw [run, Store.createIndex] at h
      split at h
      · cases h
        rfl
      · split at h
        · cases h
        · cases h
          rfl
  | createDocument written data =>
      rw [run, Store.createDocument] at h
      split at h
      · simp only at h
        split at h
        · cases h
          rfl
        · cases h
      · cases h
        rfl
  | updateDocument reference patch =>
      rw [run, Store.updateDocument] at h
      split at h
      · simp only at h
        split at h
        · cases h
          rfl
        · cases h
      · cases h
        rfl
  | delete reference =>
      rw [run, Store.delete] at h
      split at h
      · cases h
      · cases h
        rfl

/-- What a write does to the documents of a collection is what goes on record. -/
theorem mem_keys_after {write : Write} {document : Document} {left : Store}
    (h : write.run clock store = .ok document left) (hfree : collection ∉ Reference.reserved)
    {documents : List (String × Nat)}
    (hthere : forall number, number ∈ Keyed.keys (store.documentsOf collection) <->
      (collection, number) ∈ documents) (number : Nat) :
    number ∈ Keyed.keys (left.documentsOf collection) <->
      (collection, number) ∈ (write.intent store).foldl Event.next documents := by
  cases write with
  | createCollection definition =>
      rcases createCollection_ok h with ⟨hfresh, hleft⟩
      rw [hleft, documentsOf_createCollection hfresh]
      exact hthere number
  | createIndex definition =>
      rw [(createIndex_ok h).2]
      exact hthere number
  | createDocument written data =>
      rcases createDocument_ok h with ⟨hpresent, _, hleft⟩
      have hstepped : Keyed.contains
          (store.stepped clock (store.lastNumber + 1)).collections written = true :=
        hpresent
      have hsame : (store.stepped clock (store.lastNumber + 1)).documentsOf collection =
          store.documentsOf collection :=
        rfl
      rw [hleft, mem_keys_putDocument_iff, and_iff_right hstepped, hsame, hthere]
      simp only [intent, List.foldl_cons, List.foldl_nil, Event.next, List.mem_append,
        List.mem_singleton, Prod.mk.injEq]
      rw [or_comm, eq_comm (a := written), eq_comm (a := store.lastNumber + 1)]
  | updateDocument reference patch =>
      rcases updateDocument_ok h with ⟨found, place, hfound, hplace, _, hleft⟩
      rw [hleft, mem_keys_putDocument_iff]
      refine Iff.trans (or_iff_right_of_imp ?_) (hthere number)
      rintro ⟨_, rfl, rfl⟩
      exact Keyed.mem_keys_of_mem (mem_documentsOf_of_number hfree hfound hplace)
  | delete target =>
      rw [(delete_ok h).2, mem_keys_remove_iff hfree, hthere]
      simp [intent, Event.next]

end Write

/-!
## Records of runs
-/

variable {start left : Store} {log : List Event}

theorem LeadsTo.history (h : LeadsTo start store) : exists log, History start log store := by
  induction h with
  | start => exact ⟨[], .start⟩
  | query clock expr _ ih =>
      rcases ih with ⟨log, hlog⟩
      exact ⟨_, hlog.trans (history_query clock expr _)⟩

/-- The numbers in the record increase, and it tells which documents are there. -/
structure Logged (log : List Event) (store : Store) : Prop where
  increasing : (Event.numbers log).Pairwise (· < ·)
  given : forall number, number ∈ Event.numbers log -> number ≤ store.lastNumber
  there : forall collection, collection ∉ Reference.reserved ->
    forall number, number ∈ Keyed.keys (store.documentsOf collection) <->
      (collection, number) ∈ log.foldl Event.next []

theorem Write.numbers_intent (write : Write) {document : Document}
    (h : write.run clock store = .ok document left) :
    Event.numbers (write.intent store) = [] ∨
      Event.numbers (write.intent store) = [store.lastNumber + 1] ∧
        left.lastNumber = store.lastNumber + 1 := by
  cases write with
  | createDocument collection data =>
      refine Or.inr ⟨rfl, ?_⟩
      rw [(createDocument_ok h).2.2, putDocument_lastNumber]
      rfl
  | _ =>
      exact Or.inl rfl

theorem Logged.write (h : Logged log store) (clock : Clock) (write : Write) :
    Logged (log ++ write.events clock store) (store.after (write.run clock)) := by
  have hle := (write.change clock store).lastNumber_le
  unfold Write.events
  cases hrun : write.run clock store with
  | error error left =>
      rw [after_of_error hrun] at hle ⊢
      rw [List.append_nil]
      refine ⟨h.increasing, fun number hnumber => (h.given number hnumber).trans hle, ?_⟩
      intro collection hfree number
      rw [documentsOf, Write.collections_of_error hrun]
      exact h.there collection hfree number
  | ok document left =>
      rw [after_of_ok hrun] at hle ⊢
      have hnumbers : Event.numbers (log ++ write.intent store) =
          Event.numbers log ++ Event.numbers (write.intent store) :=
        List.filterMap_append
      have hthere := fun collection hfree number =>
        Write.mem_keys_after hrun hfree (h.there collection hfree) number
      simp only [<- List.foldl_append] at hthere
      rcases write.numbers_intent hrun with hnone | ⟨hone, hlast⟩
      · rw [hnone, List.append_nil] at hnumbers
        constructor
        · rw [hnumbers]
          exact h.increasing
        · intro number hnumber
          rw [hnumbers] at hnumber
          exact (h.given number hnumber).trans hle
        · exact hthere
      · rw [hone] at hnumbers
        constructor
        · rw [hnumbers, List.pairwise_append]
          refine ⟨h.increasing, List.pairwise_singleton _ _, ?_⟩
          intro earlier hearlier later hlater
          rw [List.mem_singleton.mp hlater]
          exact Nat.lt_succ_of_le (h.given earlier hearlier)
        · intro number hnumber
          rw [hnumbers, List.mem_append, List.mem_singleton] at hnumber
          rcases hnumber with hold | rfl
          · exact (h.given number hold).trans hle
          · rw [hlast]
        · exact hthere

theorem History.logged (h : Store.empty.History log store) : Logged log store := by
  induction h with
  | start =>
      refine ⟨List.Pairwise.nil, ?_, ?_⟩
      · intro number hnumber
        cases hnumber
      · intro collection _ number
        exact ⟨nofun, nofun⟩
  | write clock write _ ih =>
      exact ih.write clock write

theorem History.evolves (h : start.History log store) : start.Evolves store := by
  induction h with
  | start => exact .start
  | write clock write _ ih => exact ih.write (write.change clock _)

/-!
## Listings
-/

theorem Logged.keys_eq_survivors (h : Logged log store) (hstore : store.Consistent)
    (hfree : collection ∉ Reference.reserved) :
    Keyed.keys (store.documentsOf collection) = Event.survivors log collection := by
  have hkeys : (Keyed.keys (store.documentsOf collection)).Pairwise (· < ·) :=
    List.pairwise_map.mpr (hstore.sorted collection)
  have hnumbers : ((log.foldl Event.next []).map Prod.snd).Pairwise (· < ·) :=
    h.increasing.sublist (Event.sublist_numbers log [])
  have hsurvivors : (Event.survivors log collection).Pairwise (· < ·) :=
    hnumbers.sublist (List.filter_sublist.map Prod.snd)
  have hmem : forall number, number ∈ Keyed.keys (store.documentsOf collection) <->
      number ∈ Event.survivors log collection := fun number =>
    (h.there collection hfree number).trans Event.mem_survivors.symm
  have hperm := (List.perm_ext_iff_of_nodup (hkeys.imp Nat.ne_of_lt)
    (hsurvivors.imp Nat.ne_of_lt)).mpr hmem
  refine hperm.eq_of_pairwise ?_ hkeys hsurvivors
  intro a b _ _ hab hba
  exact absurd hab (Nat.lt_asymm hba)

theorem query_documents {clock : Clock} {collection : String} {found : List Value}
    (h : store.references? collection = some found) (size : Option Nat) :
    query clock (.paginate (.documents (.collection collection)) size) store =
      .ok (Expr.page (found.take (size.getD Expr.pageSize))) store := by
  have hset : Expr.evaluateSet clock (.documents (.collection collection)) [] store =
      .ok found store := by
    show Expr.demand (store.references? collection) .instanceNotFound store = _
    rw [h]
    rfl
  simp [query, Expr.evaluate, bind, EStateM.bind, hset, pure, EStateM.pure]

/-!
## Documents that are gone
-/

/-- A number that was given and is not used in a collection is not used again. -/
theorem Change.absent {clock : Clock} {left : Store} (hchange : Change clock store left)
    {collection : String} (hfree : collection ∉ Reference.reserved) {number : Nat}
    (h : number ≤ store.lastNumber ∧
      number ∉ Keyed.keys (store.documentsOf collection)) :
    number ≤ left.lastNumber ∧
      number ∉ Keyed.keys (left.documentsOf collection) := by
  refine ⟨Nat.le_trans h.1 hchange.lastNumber_le, ?_⟩
  intro hmem
  rcases List.mem_map.mp hmem with ⟨entry, hentry, rfl⟩
  cases hchange.written hfree hentry with
  | kept hold =>
      exact h.2 (List.mem_map_of_mem hold)
  | created _ _ =>
      have hgiven := h.1
      omega
  | patched _ hfound _ =>
      exact h.2 (Keyed.mem_keys_of_mem hfound)

theorem History.gone (h : start.History log store) (hfree : collection ∉ Reference.reserved)
    {number : Nat} (hgiven : number ≤ start.lastNumber) {target : Reference}
    (htakes : target.takes collection number = true) (hmem : .deleted target ∈ log) :
    number ∉ Keyed.keys (store.documentsOf collection) := by
  induction h with
  | start =>
      cases hmem
  | @write log store clock write hrun ih =>
      have hle := hrun.evolves.lastNumber_le
      rcases List.mem_append.mp hmem with hold | hnew
      · exact ((write.change clock store).absent hfree ⟨hgiven.trans hle, ih hold⟩).2
      · unfold Write.events at hnew
        cases hend : write.run clock store with
        | error error left =>
            rw [hend] at hnew
            cases hnew
        | ok document left =>
            rw [hend] at hnew
            cases write with
            | delete other =>
                cases List.mem_singleton.mp hnew
                rw [after_of_ok hend, (delete_ok hend).2, mem_keys_remove_iff hfree, htakes]
                simp
            | createDocument written data =>
                cases List.mem_singleton.mp hnew
            | _ =>
                cases hnew

theorem query_of_absent {clock : Clock} {target : Reference} {reference : Expr}
    (hreference : reference.evaluate clock [] store = .ok target.toValue store)
    (h : store.find? target = none) :
    query clock (.get reference) store = .error .instanceNotFound store ∧
      query clock (.delete reference) store = .error .instanceNotFound store := by
  have htarget : Expr.asReference target.toValue store = .ok target store := by
    rw [Expr.asReference, Reference.ofValue?_toValue]
    rfl
  have hdemand : Expr.demand (store.find? target) .instanceNotFound store =
      (.error .instanceNotFound store : EStateM.Result Error Store Document) := by
    rw [h]
    rfl
  have hdelete : delete target store = .error .instanceNotFound store := by
    rw [delete, h]
  have hstore : (getThe Store : Action Store) store = .ok store store := by
    rfl
  constructor
  · simp [query, Expr.evaluate, bind, EStateM.bind, hreference, htarget, hstore, hdemand]
  · simp [query, Expr.evaluate, bind, EStateM.bind, hreference, htarget, hdelete]

/-!
# Main statement
-/

/-- Queries carry out the writes on their records, and whatever the writes are, the numbers
that they give increase: a listing shows the documents that were created and not deleted, in
the order of their creation, and a document that is gone is not found again, not even where
its collection has been created anew. -/
theorem numbers_are_given_once :
    (forall clock expr store,
      History store (expr.events clock store) (store.after (query clock expr))) ∧
    (forall start store : Store, start.LeadsTo store ->
      exists added, start.History added store) ∧
    (forall (start store : Store) log added, Store.empty.History log start ->
      start.History added store ->
        (forall earlier, earlier ∈ Event.numbers log ->
          forall later, later ∈ Event.numbers added -> earlier < later) ∧
        (Event.numbers added).Pairwise (· < ·) ∧
        forall collection, collection ∉ Reference.reserved ->
          Keyed.contains store.collections collection = true ->
            forall clock size,
              query clock (.paginate (.documents (.collection collection)) size) store =
                .ok
                  (Expr.page
                    (((Event.survivors (log ++ added) collection).map fun number =>
                      (numbered collection number).toValue).take
                        (size.getD Expr.pageSize)))
                  store) ∧
    (forall before : Store, before.Reachable ->
      forall collection, collection ∉ Reference.reserved ->
        forall number, number ∈ Keyed.keys (before.documentsOf collection) ->
          forall target, Reference.takes target collection number = true ->
            forall clock expr, .deleted target ∈ Expr.events clock expr before ->
              number ∉
                Keyed.keys ((before.after (query clock expr)).documentsOf collection)) ∧
    (forall before between after : Store, before.Reachable ->
      before.LeadsTo between -> between.LeadsTo after ->
        forall collection, collection ∉ Reference.reserved ->
          forall number, number ∈ Keyed.keys (before.documentsOf collection) ->
            number ∉ Keyed.keys (between.documentsOf collection) ->
              forall clock reference,
                reference.evaluate clock [] after =
                    .ok (numbered collection number).toValue after ->
                  query clock (.get reference) after =
                      .error .instanceNotFound after ∧
                    query clock (.delete reference) after =
                      .error .instanceNotFound after) := by
  refine ⟨history_query, fun start store h => h.history, ?_, ?_, ?_⟩
  · intro start store log added hlog hadded
    have hhistory := hlog.trans hadded
    have hlogged := hhistory.logged
    have hincreasing := hlogged.increasing
    rw [Event.numbers, List.filterMap_append, List.pairwise_append] at hincreasing
    refine ⟨hincreasing.2.2, hincreasing.2.1, ?_⟩
    intro collection hfree hpresent clock size
    have hstore := hhistory.evolves.consistent consistent_empty
    rcases Keyed.contains_iff.mp hpresent with ⟨stored, hstored⟩
    apply query_documents
    rw [hstore.references?_eq hfree, hstored, Option.map_some,
      hlogged.keys_eq_survivors hstore hfree]
  · intro before hbefore collection hfree number hthere target htakes clock expr hmem
    rcases List.mem_map.mp hthere with ⟨entry, hentry, rfl⟩
    exact (history_query clock expr before).gone hfree
      (hbefore.numbersGiven hfree entry hentry) htakes hmem
  · intro before between after hbefore hbetween hafter collection hfree number hthere
      hgone clock reference hreference
    have hgiven : number ≤ between.lastNumber := by
      rcases List.mem_map.mp hthere with ⟨entry, hentry, rfl⟩
      exact Nat.le_trans (hbefore.numbersGiven hfree entry hentry)
        hbetween.evolves.lastNumber_le
    have habsent := hafter.evolves.keeps (fun hchange h => hchange.absent hfree h)
      ⟨hgiven, hgone⟩
    exact query_of_absent hreference (find?_numbered_eq_none hfree habsent.2)

/-!
The statement at one run: a note and a task are created in one query, the collection of
the notes is deleted and created again, and then there is another note.
-/

def noteDefinition : CollectionDefinition :=
  { name := "Note" }

def taskDefinition : CollectionDefinition :=
  { name := "Task" }

def createEmpty (collection : String) : Expr :=
  .create (.collection collection) (Model.dataParams [])

def createBoth : Expr :=
  .batch
    [.createCollection noteDefinition, .createCollection taskDefinition,
      createEmpty "Note", createEmpty "Task"]

def renewNotes : Expr :=
  .batch [.delete (.collection "Note"), .createCollection noteDefinition]

def noteAndTask : Store :=
  Store.empty.after (query (fun _ => 0) createBoth)

def noNotes : Store :=
  noteAndTask.after (query (fun _ => 0) renewNotes)

def otherNote : Store :=
  noNotes.after (query (fun _ => 0) (createEmpty "Note"))

theorem numbers_are_given_once_otherNote :
    Keyed.keys (noteAndTask.documentsOf "Note") = [1] ∧
      Keyed.keys (otherNote.documentsOf "Note") = [3] ∧
      noteAndTask.History [.deleted (Reference.ofCollection "Note"), .created "Note" 3]
        otherNote ∧
      1 ∉ Keyed.keys (noNotes.documentsOf "Note") ∧
      (forall earlier, earlier ∈ [1, 2] ->
        forall later, later ∈ [3] -> earlier < later) ∧
      query (fun _ => 0) (.paginate (.documents (.collection "Note")) none) otherNote =
        .ok (Expr.page [(numbered "Note" 3).toValue]) otherNote ∧
      query (fun _ => 0) (.get (.ofReference (numbered "Note" 1))) otherNote =
        .error .instanceNotFound otherNote := by
  have hreach : noteAndTask.Reachable := LeadsTo.start.query _ _
  have hbetween : noteAndTask.LeadsTo noNotes := LeadsTo.start.query _ _
  have hafter : noNotes.LeadsTo otherNote := LeadsTo.start.query _ _
  rcases numbers_are_given_once with ⟨hrecord, _, hrecords, hdeleted, hgone⟩
  have hfirst : Store.empty.History [.created "Note" 1, .created "Task" 2] noteAndTask :=
    hrecord (fun _ => 0) createBoth Store.empty
  have hadded : noteAndTask.History
      [.deleted (Reference.ofCollection "Note"), .created "Note" 3] otherNote :=
    (hrecord (fun _ => 0) renewNotes noteAndTask).trans
      (hrecord (fun _ => 0) (createEmpty "Note") noNotes)
  have htaken : 1 ∉ Keyed.keys (noNotes.documentsOf "Note") :=
    hdeleted noteAndTask hreach "Note" (by decide) 1 (List.mem_singleton_self 1)
      (Reference.ofCollection "Note") (by decide) (fun _ => 0) renewNotes
      (List.mem_singleton_self _)
  rcases hrecords noteAndTask otherNote _ _ hfirst hadded with ⟨hless, _, hlisted⟩
  have hnotes := hlisted "Note" (by decide) (by rfl) (fun _ => 0) none
  exact ⟨by rfl, by rfl, hadded, htaken, hless, hnotes,
    (hgone noteAndTask noNotes otherNote hreach hbetween hafter "Note" (by decide) 1
      (List.mem_singleton_self 1) htaken (fun _ => 0) _ rfl).1⟩

end Store
end DocumentMapper
