import DocumentMapper.Proofs.Operations

/-!
# Numbers of documents

The id of a document is its number in decimal digits, and reading the id gives the
number back.  Other ids may name the same document: a sign or zeros in front do not
change what a number is.

Numbers are given in turn, so the next one is new to every collection whose name is
not reserved.
-/

namespace DocumentMapper

/-!
## Ids
-/

theorem toList_toString (number : Nat) :
    (toString number).toList = Nat.toDigits 10 number := by
  rw [Nat.toString_eq_repr, Nat.toList_repr]

theorem toString_injective {m n : Nat} (h : toString m = toString n) : m = n := by
  have hdigits : Nat.toDigits 10 m = Nat.toDigits 10 n := by
    rw [<- toList_toString, <- toList_toString, h]
  have hread := congrArg (fun digits => Nat.ofDigitChars 10 digits 0) hdigits
  simpa using hread

theorem documentNumber?_toString (number : Nat) :
    documentNumber? (toString number) =
      if number < numberBound then some number else none := by
  have hdigit : forall digit, digit ∈ Nat.toDigits 10 number ->
      digit.isDigit = true := fun _ hmem =>
    Nat.isDigit_of_mem_toDigits (by decide) (by decide) hmem
  have hunsigned : forall rest, Nat.toDigits 10 number = '+' :: rest -> False := by
    intro rest hsign
    have hplus := hdigit '+' (hsign ▸ List.mem_cons_self)
    exact absurd hplus (by decide)
  have hall : (Nat.toDigits 10 number).all Char.isDigit = true :=
    List.all_eq_true.mpr hdigit
  have hsome : (Nat.toDigits 10 number).isEmpty = false :=
    List.isEmpty_eq_false_iff.mpr Nat.toDigits_ne_nil
  have hvalue : (Nat.toDigits 10 number).foldl
      (fun total digit => total * 10 + (digit.toNat - 48)) 0 = number := by
    have hread : Nat.ofDigitChars 10 (Nat.toDigits 10 number) 0 = number := by
      simp
    rw [Nat.ofDigitChars_eq_foldl] at hread
    simpa [Nat.mul_comm] using hread
  unfold documentNumber?
  rw [toList_toString]
  -- No digit is a sign, so the digits are read from the first on.
  simp only [hall, hsome, hvalue, Bool.not_true, Bool.or_false,
    Bool.false_eq_true, if_false]

theorem number_eq_of_documentNumber? {number read : Nat}
    (h : documentNumber? (toString number) = some read) : read = number := by
  rw [documentNumber?_toString] at h
  split at h
  · cases h
    rfl
  · cases h

namespace Store

variable {clock : Clock} {store left : Store} {collection : String}

@[simp] theorem putDocument_lastNumber (store : Store) (collection : String)
    (number : Nat) (document : Document) :
    (store.putDocument collection number document).lastNumber =
      store.lastNumber := by
  unfold putDocument
  split <;> rfl

@[simp] theorem remove_lastNumber (store : Store) (reference : Reference) :
    (store.remove reference).lastNumber = store.lastNumber := by
  unfold remove dropDocument
  repeat' split
  all_goals rfl

/-!
## Documents after a change
-/

/-- How a document has come to stand in a collection after a change. -/
inductive Written (clock : Clock) (store left : Store) (collection : String) :
    Nat × Document -> Prop where
  | kept {entry : Nat × Document} (hentry : entry ∈ store.documentsOf collection) :
      Written clock store left collection entry
  | created {data : Document} (hnumber : left.lastNumber = store.lastNumber + 1)
      (htimestamp : left.lastTimestamp = store.nextTimestamp clock) :
      Written clock store left collection
        (store.lastNumber + 1,
          storedDocument (numbered collection (store.lastNumber + 1))
            (store.nextTimestamp clock) (Document.withoutNulls data))
  | patched {number : Nat} {found : Document} (patch : Document)
      (hfound : (number, found) ∈ store.documentsOf collection)
      (htimestamp : left.lastTimestamp = store.nextTimestamp clock) :
      Written clock store left collection
        (number, patched found (store.nextTimestamp clock) patch)

/-- In a collection whose name is not reserved every document was there before, is
new, or has been patched under its number. -/
theorem Change.written (hchange : Change clock store left)
    (hfree : collection ∉ Reference.reserved) {entry : Nat × Document}
    (hentry : entry ∈ left.documentsOf collection) :
    Written clock store left collection entry := by
  cases hchange with
  | unchanged =>
      exact .kept hentry
  | advanced hnumber =>
      exact .kept hentry
  | createCollection hfresh =>
      rw [documentsOf_createCollection hfresh] at hentry
      exact .kept hentry
  | createIndex hfresh hsource =>
      exact .kept hentry
  | createDocument hpresent hdocument hunique =>
      rcases mem_documentsOf_putDocument hentry with ⟨rfl, rfl⟩ | hold
      · rw [hdocument]
        exact .created (putDocument_lastNumber _ _ _ _) (putDocument_lastTimestamp _ _ _ _)
      · exact .kept hold
  | @updateDocument reference number found document patch hfound hnumber hdocument
      hunique =>
      rcases mem_documentsOf_putDocument hentry with ⟨rfl, rfl⟩ | hold
      · rw [hdocument]
        exact .patched patch (mem_documentsOf_of_number hfree hfound hnumber)
          (putDocument_lastTimestamp _ _ _ _)
      · exact .kept hold
  | remove hfound =>
      exact .kept ((sublist_documentsOf_remove store _ collection).subset hentry)

theorem Change.lastNumber_le (hchange : Change clock store left) :
    store.lastNumber ≤ left.lastNumber := by
  cases hchange with
  | advanced hnumber => exact hnumber
  | createDocument hpresent hdocument hunique =>
      rw [putDocument_lastNumber]
      exact Nat.le_succ _
  | updateDocument hfound hnumber hdocument hunique =>
      rw [putDocument_lastNumber]
      exact Nat.le_refl _
  | remove hfound =>
      rw [remove_lastNumber]
  | _ =>
      exact Nat.le_refl _

theorem Evolves.lastNumber_le {start : Store} (hrun : start.Evolves store) :
    start.lastNumber ≤ store.lastNumber :=
  hrun.keeps (P := fun left => start.lastNumber ≤ left.lastNumber)
    (fun hchange hle => Nat.le_trans hle hchange.lastNumber_le) (Nat.le_refl _)

/-!
## Numbers that were given
-/

def NumbersGiven (store : Store) (collection : String) : Prop :=
  forall entry, entry ∈ store.documentsOf collection ->
    entry.1 ≤ store.lastNumber

theorem numbersGiven_stepped (h : store.NumbersGiven collection) {last : Nat}
    (hlast : store.lastNumber ≤ last) :
    (store.stepped clock last).NumbersGiven collection := by
  intro entry hentry
  exact Nat.le_trans (h entry hentry) hlast

theorem numbersGiven_putDocument (h : store.NumbersGiven collection)
    {written : String} {number : Nat} {document : Document}
    (hnumber : written = collection -> number ≤ store.lastNumber) :
    (store.putDocument written number document).NumbersGiven collection := by
  intro entry hentry
  rw [putDocument_lastNumber]
  rcases mem_documentsOf_putDocument hentry with ⟨hname, heq⟩ | hold
  · rw [heq]
    exact hnumber hname
  · exact h entry hold

theorem numbersGiven_remove (h : store.NumbersGiven collection)
    (reference : Reference) :
    (store.remove reference).NumbersGiven collection := by
  intro entry hentry
  rw [remove_lastNumber]
  exact h entry
    ((sublist_documentsOf_remove store reference collection).subset hentry)

theorem numbersGiven_created (h : store.NumbersGiven collection)
    (written : String) (document : Document) :
    ((store.stepped clock (store.lastNumber + 1)).putDocument written
      (store.lastNumber + 1) document).NumbersGiven collection :=
  numbersGiven_putDocument (numbersGiven_stepped h (Nat.le_succ _))
    fun _ => Nat.le_refl _

/-- An update writes under a number that was found, unless it is a definition that
was found. -/
theorem numbersGiven_updated (h : store.NumbersGiven collection)
    {reference : Reference}
    (hfree : reference.collection = collection ->
      collection ∉ Reference.reserved)
    {found document : Document} {number : Nat}
    (hfound : store.find? reference = some found)
    (hnumber : documentNumber? reference.id = some number) :
    ((store.stepped clock store.lastNumber).putDocument reference.collection
      number document).NumbersGiven collection := by
  apply numbersGiven_putDocument (numbersGiven_stepped h (Nat.le_refl _))
  intro hname
  subst hname
  exact h _ (mem_documentsOf_of_number (hfree rfl) hfound hnumber)

theorem Change.numbersGiven (hchange : Change clock store left)
    (hfree : collection ∉ Reference.reserved)
    (h : store.NumbersGiven collection) : left.NumbersGiven collection := by
  intro entry hentry
  cases hchange.written hfree hentry with
  | kept hold =>
      exact Nat.le_trans (h _ hold) hchange.lastNumber_le
  | created hnumber _ =>
      exact Nat.le_of_eq hnumber.symm
  | patched _ hfound _ =>
      have hgiven := h _ hfound
      exact Nat.le_trans hgiven hchange.lastNumber_le

theorem Reachable.numbersGiven (h : Reachable store)
    (hfree : collection ∉ Reference.reserved) :
    store.NumbersGiven collection := by
  have hempty : Store.empty.NumbersGiven collection := by
    intro entry hentry
    cases hentry
  exact (LeadsTo.evolves h).keeps
    (fun hchange hstore => hchange.numbersGiven hfree hstore) hempty

/-- Operations on instances write no definition, so the name of the collection does
not matter here. -/
theorem Operated.numbersGiven {model : Model} {operation : Operation}
    (hrun : store.Operated clock model operation left)
    (hfree : model.name ∉ Reference.reserved)
    (h : store.NumbersGiven collection) : left.NumbersGiven collection := by
  cases hrun with
  | unchanged =>
      exact h
  | created _ hcreate =>
      rw [(createDocument_ok hcreate).2.2]
      exact numbersGiven_created h _ _
  | updated _ hupdate =>
      rcases updateDocument_ok hupdate with
        ⟨found, number, hfound, hnumber, _, hleft⟩
      rw [hleft]
      exact numbersGiven_updated h (fun hname => hname ▸ hfree) hfound hnumber
  | deleted hdelete =>
      rw [(delete_ok hdelete).2]
      exact numbersGiven_remove h _
  | linked _ hcreate =>
      rw [(createDocument_ok hcreate).2.2]
      exact numbersGiven_created h _ _

theorem NumbersGiven.fresh (h : store.NumbersGiven collection) :
    store.lastNumber + 1 ∉ Keyed.keys (store.documentsOf collection) := by
  intro hmem
  rcases List.mem_map.mp hmem with ⟨entry, hentry, hnumber⟩
  have hle := h entry hentry
  omega

theorem find?_numbered_eq_none {number : Nat} (hfree : collection ∉ Reference.reserved)
    (habsent : number ∉ Keyed.keys (store.documentsOf collection)) :
    store.find? (numbered collection number) = none := by
  cases hfound : store.find? (numbered collection number) with
  | none =>
      rfl
  | some document =>
      rcases mem_documentsOf_of_find? hfree hfound with ⟨read, hread, hmem⟩
      rw [number_eq_of_documentNumber? hread] at hmem
      exact absurd (Keyed.mem_keys_of_mem hmem) habsent

theorem NumbersGiven.find?_numbered (h : store.NumbersGiven collection)
    (hfree : collection ∉ Reference.reserved) :
    store.find? (numbered collection (store.lastNumber + 1)) = none :=
  find?_numbered_eq_none hfree h.fresh

/-!
## Documents by their numbers
-/

theorem find?_created {data document found : Document}
    (hfree : collection ∉ Reference.reserved)
    (hcreate : createDocument clock collection data store = .ok document left)
    (hfound : left.find? (numbered collection (store.lastNumber + 1)) =
      some found) : found = document := by
  rcases createDocument_ok hcreate with ⟨hpresent, _, hleft⟩
  have hstepped : Keyed.contains
      (store.stepped clock (store.lastNumber + 1)).collections collection =
        true := hpresent
  rcases get?_documentsOf_of_find? hfree hfound with ⟨number, hnumber, hget⟩
  rw [number_eq_of_documentNumber? hnumber, hleft] at hget
  change Keyed.get? (((store.stepped clock (store.lastNumber + 1)).putDocument
    collection (store.lastNumber + 1) document).documentsOf collection)
    (store.lastNumber + 1) = some found at hget
  rw [documentsOf_putDocument hstepped, if_pos rfl, Ordered.get?_insert,
    if_pos rfl] at hget
  exact (Option.some.inj hget).symm

end Store
end DocumentMapper
