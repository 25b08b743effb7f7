import Mathlib.Data.List.Induction
import Osdns.Framework.Dictionaries
import Osdns.Platform.Domains
import Osdns.Platform.ServiceDns

/-!
# Writes and restores of a service leave the foreign keys alone

An absent dictionary, an empty one, an absent key and an empty list are four different states.
Captures are related to the states they were made of (`Snapshot`), a write and a restore are then
known by what is looked up in the dictionary they set, and a sequence of writes and foreign edits by
its last edit of each key (`Framed`).
-/

namespace Osdns

open Dictionaries

namespace ServiceDns

/-! ## What is looked up -/

section Lookups

variable {Foreign Bytes : Type} {toAscii : List Char → Option (List Char)}
  {codec : Serialization Foreign Bytes} {store initial : Store Foreign}
  {captured current before : Option Bytes}

/-- The dictionary in the store, which is empty when there is none. -/
def contents : Store Foreign → Dictionary Foreign
  | some (.dictionary dictionary) => dictionary
  | _ => ∅

/-- The value of a key in the store. -/
def field (key : List Char) (store : Store Foreign) : Option (Field Foreign) :=
  (contents store).lookup key

variable (toAscii) in
/-- The state of a service is absent or a dictionary whose managed fields are well formed. -/
structure Valid (store : Store Foreign) : Prop where
  dictionary : ∀ value, store ≠ some (.other value)
  fields : ∀ key value, field key store = some value → validateField toAscii key value = .ok ()

lemma validateField_unmanaged {key : List Char} {value : Field Foreign}
    (unmanaged : isManaged key = false) : validateField toAscii key value = .ok () := by
  unfold validateField
  rw [unmanaged]
  rfl

lemma validateManaged_eq_ok {dictionary : Dictionary Foreign} :
    validateManaged toAscii dictionary = .ok () ↔
      ∀ key value, dictionary.lookup key = some value →
        validateField toAscii key value = .ok () := by
  rw [validateManaged, forM_eq_ok]
  constructor
  · intro h key value found
    exact h ⟨key, value⟩ (AList.mem_lookup_iff.mp found)
  · rintro h ⟨key, value⟩ hm
    exact h key value (AList.mem_lookup_iff.mpr hm)

lemma valid_none : Valid toAscii (none : Store Foreign) where
  dictionary := fun _ h => nomatch h
  fields := fun _ _ h => nomatch h

lemma valid_dictionary {dictionary : Dictionary Foreign} :
    Valid toAscii (some (.dictionary dictionary)) ↔
      validateManaged toAscii dictionary = .ok () :=
  ⟨fun valid => validateManaged_eq_ok.mpr valid.fields,
    fun checked => ⟨(fun _ h => nomatch h), validateManaged_eq_ok.mp checked⟩⟩

variable (toAscii codec) in
/-- The bytes are a capture of the state. -/
inductive Snapshot : Option Bytes → Store Foreign → Prop
  | absent : Snapshot none none
  | present {bytes : Bytes} {again dictionary : Dictionary Foreign}
      (decoded : decode toAscii codec bytes = .ok again)
      (same : ∀ key, again.lookup key = dictionary.lookup key) :
      Snapshot (some bytes) (some (.dictionary dictionary))

/-- A valid state is captured. -/
lemma Valid.read (faithful : codec.Faithful) (valid : Valid toAscii store) :
    ∃ captured, readServiceDns toAscii codec store = .ok captured ∧
      Snapshot toAscii codec captured store := by
  cases store with
  | none => exact ⟨none, rfl, .absent⟩
  | some stored =>
      cases stored with
      | other value => exact absurd rfl (valid.dictionary value)
      | dictionary dictionary =>
          obtain ⟨bytes, again, created, parsed, same⟩ := faithful dictionary
          have checked := valid_dictionary.mp valid
          have checkedAgain : validateManaged toAscii again = .ok () :=
            validateManaged_eq_ok.mpr fun key value found =>
              valid.fields key value ((same key).symm.trans found)
          refine ⟨some bytes, ?_, .present ?_ same⟩
          · rw [readServiceDns, encode, checked, created]
            rfl
          · rw [decode, parsed]
            simp only [checkedAgain]
            rfl

/-- A capture is decoded to the values it was made of. -/
lemma Snapshot.decoded (h : Snapshot toAscii codec captured store) :
    ∃ decoded, decodeOptional toAscii codec captured = .ok decoded ∧
      (∀ key, (pairs decoded).dlookup key = field key store) ∧
      ∀ key, (decoded.bind fun dictionary => dictionary.lookup key) = field key store := by
  cases h with
  | absent => exact ⟨none, rfl, fun _ => rfl, fun _ => rfl⟩
  | present decoded same =>
      refine ⟨some _, ?_, same, same⟩
      rw [decodeOptional, decoded]
      rfl

lemma Snapshot.isNone_iff (h : Snapshot toAscii codec captured store) :
    captured.isNone = true ↔ store = none := by
  cases h with
  | absent => exact ⟨fun _ => rfl, fun _ => rfl⟩
  | present _ _ => simp

/-- Captures of equal managed fields are equivalent. -/
lemma equivalent_of_managed [DecidableEq Foreign] (hc : Snapshot toAscii codec current store)
    (hb : Snapshot toAscii codec before initial)
    (same : ∀ key, isManaged key = true → field key store = field key initial) :
    equivalent toAscii codec current before = true := by
  obtain ⟨left, hleft, _, leftFields⟩ := hc.decoded
  obtain ⟨right, hright, _, rightFields⟩ := hb.decoded
  simp only [equivalent, hleft, hright, List.all_cons, List.all_nil, Bool.and_true,
    Bool.and_eq_true, beq_iff_eq, leftFields, rightFields]
  exact ⟨same serverAddresses (by decide), same searchDomains (by decide)⟩

/-! ## Writes -/

lemma lookup_writtenDictionary {servers search : List (List Char)}
    {decoded : Option (Dictionary Foreign)}
    (fields : ∀ key, (pairs decoded).dlookup key = field key store) (key : List Char) :
    (writtenDictionary servers search decoded).lookup key =
      if key = serverAddresses then some (arrayOf servers)
      else if key = searchDomains then some (arrayOf search)
      else field key store := by
  rw [writtenDictionary, AList.lookup_to_alist, List.dlookup_append,
    dlookup_filter fun key => decide (key ≠ serverAddresses) && decide (key ≠ searchDomains),
    fields]
  by_cases isServers : key = serverAddresses
  · subst isServers
    simp [List.dlookup_cons_eq]
  · by_cases isSearch : key = searchDomains
    · subst isSearch
      have differ : searchDomains ≠ serverAddresses := by decide
      simp [List.dlookup_cons_eq, List.dlookup_cons_ne, differ]
    · simp [List.dlookup_cons_ne, isServers, isSearch]

lemma isManaged_eq_false {key : List Char} :
    isManaged key = false ↔ key ≠ serverAddresses ∧ key ≠ searchDomains := by
  simp [isManaged]

/-- A write of a valid state is answered by the store. -/
lemma Valid.write (faithful : codec.Faithful) (valid : Valid toAscii store)
    (granted : Bool) (servers search : List (List Char)) :
    ∃ dictionary, writeServiceDns toAscii codec granted servers search store =
        setDictionary granted dictionary store ∧
      ∀ key, dictionary.lookup key =
        if key = serverAddresses then some (arrayOf servers)
        else if key = searchDomains then some (arrayOf search)
        else field key store := by
  obtain ⟨captured, read, snapshot⟩ := valid.read faithful
  obtain ⟨decoded, hdecoded, fields, _⟩ := snapshot.decoded
  refine ⟨writtenDictionary servers search decoded, ?_, lookup_writtenDictionary fields⟩
  simp only [writeServiceDns, read, hdecoded]

/-- A write leaves the unmanaged keys alone, whatever the state is. -/
lemma field_writeServiceDns (faithful : codec.Faithful) (granted : Bool)
    (servers search : List (List Char)) {key : List Char} (unmanaged : isManaged key = false) :
    field key (writeServiceDns toAscii codec granted servers search store).2 = field key store := by
  by_cases valid : Valid toAscii store
  · obtain ⟨dictionary, written, fields⟩ := valid.write faithful granted servers search
    obtain ⟨notServers, notSearch⟩ := isManaged_eq_false.mp unmanaged
    rw [written, setDictionary]
    cases granted with
    | false => rfl
    | true => exact (fields key).trans (by rw [if_neg notServers, if_neg notSearch])
  · -- The read fails, and nothing is written.
    cases store with
    | none => exact absurd valid_none valid
    | some stored =>
        cases stored with
        | other value => rfl
        | dictionary dictionary =>
            cases checked : validateManaged toAscii dictionary with
            | ok _ => exact absurd (valid_dictionary.mpr checked) valid
            | error error =>
                have failed : readServiceDns toAscii codec (some (.dictionary dictionary)) =
                    .error error := by
                  simp only [readServiceDns, encode, checked]
                  rfl
                simp only [writeServiceDns, failed]

lemma validateField_arrayOf {key : List Char} {texts : List (List Char)}
    (items : ∀ text ∈ texts, validateItem toAscii key (.string text : Item Foreign) = .ok ()) :
    validateField toAscii key (arrayOf texts : Field Foreign) = .ok () := by
  unfold validateField arrayOf
  split
  · rfl
  · dsimp only
    rw [forM_eq_ok]
    intro item hi
    obtain ⟨text, ht, rfl⟩ := List.mem_map.mp hi
    exact items text ht

/-- The servers of a plan are addresses. -/
lemma validateField_expectedServers (plan : NormalizedConfig) :
    validateField toAscii serverAddresses (arrayOf (expectedServers plan) : Field Foreign) =
      .ok () := by
  refine validateField_arrayOf fun text ht => ?_
  obtain ⟨a, _, rfl⟩ := List.mem_map.mp ht
  simp only [validateItem, if_true, a.parse_toText]

/-- The search domains of a plan are domains. -/
lemma validateField_expectedSearch (idempotent : IdempotentAscii toAscii) {plan : NormalizedConfig}
    (parsed : ∀ s ∈ plan.searchDomains, ∃ input, DnsSuffix.parse toAscii input = some s) :
    validateField toAscii searchDomains (arrayOf (expectedSearch plan) : Field Foreign) =
      .ok () := by
  refine validateField_arrayOf fun text ht => ?_
  obtain ⟨s, hs, rfl⟩ := List.mem_map.mp ht
  obtain ⟨input, hp⟩ := parsed s (List.mem_of_mem_filter hs)
  have differ : searchDomains ≠ serverAddresses := by decide
  simp only [validateItem, if_neg differ, DnsSuffix.parse_toText idempotent hp]

/-- A write of a plan leaves a valid state. -/
lemma Valid.written (faithful : codec.Faithful) (idempotent : IdempotentAscii toAscii)
    (valid : Valid toAscii store) (granted : Bool) {plan : NormalizedConfig}
    (parsed : ∀ s ∈ plan.searchDomains, ∃ input, DnsSuffix.parse toAscii input = some s) :
    Valid toAscii (writeServiceDns toAscii codec granted (expectedServers plan)
      (expectedSearch plan) store).2 := by
  obtain ⟨dictionary, written, fields⟩ :=
    valid.write faithful granted (expectedServers plan) (expectedSearch plan)
  rw [written, setDictionary]
  cases granted with
  | false => exact valid
  | true =>
      refine valid_dictionary.mpr (validateManaged_eq_ok.mpr fun key value found => ?_)
      rw [fields key] at found
      split at found
      · next isServers =>
          cases found
          exact isServers ▸ validateField_expectedServers plan
      · split at found
        · next isSearch =>
            cases found
            exact isSearch ▸ validateField_expectedSearch idempotent parsed
        · exact valid.fields key value found

/-! ## Restores -/

/-- What a restore leaves: managed keys as they were captured, the others as they are. -/
lemma restoredDictionary_spec (hc : Snapshot toAscii codec current store)
    (hb : Snapshot toAscii codec before initial) :
    ∃ restored, restoredDictionary toAscii codec current before = .ok restored ∧
      (∀ key, (restored.bind fun dictionary => dictionary.lookup key) =
        if isManaged key then field key initial else field key store) ∧
      (restored = none ↔
        initial = none ∧ ∀ key, isManaged key = false → field key store = none) := by
  obtain ⟨now, hnow, nowFields, _⟩ := hc.decoded
  obtain ⟨earlier, hearlier, earlierFields, _⟩ := hb.decoded
  have lookups : ∀ key, ((pairs now).filter (fun entry => !isManaged entry.1) ++
      (pairs earlier).filter fun entry => isManaged entry.1).dlookup key =
        if isManaged key then field key initial else field key store := by
    intro key
    rw [List.dlookup_append, dlookup_filter fun key => !isManaged key, dlookup_filter isManaged,
      nowFields, earlierFields]
    cases isManaged key with
    | true => rfl
    | false => simp
  have rest : restoredDictionary toAscii codec current before = .ok
      (if ((pairs now).filter (fun entry => !isManaged entry.1) ++
          (pairs earlier).filter fun entry => isManaged entry.1).isEmpty && before.isNone then none
        else some (List.toAList ((pairs now).filter (fun entry => !isManaged entry.1) ++
          (pairs earlier).filter fun entry => isManaged entry.1))) := by
    simp only [restoredDictionary, hnow, hearlier]
  rw [rest]
  generalize (pairs now).filter (fun entry => !isManaged entry.1) ++
    (pairs earlier).filter (fun entry => isManaged entry.1) = entries at lookups
  refine ⟨_, rfl, fun key => ?_, ?_⟩
  · split
    · next gone =>
        rw [Bool.and_eq_true, List.isEmpty_iff] at gone
        exact (entries_eq_nil_iff.mp gone.1 key).symm.trans (lookups key)
    · exact (AList.lookup_to_alist entries).trans (lookups key)
  · have gone : (entries.isEmpty && before.isNone) = true ↔
        initial = none ∧ ∀ key, isManaged key = false → field key store = none := by
      rw [Bool.and_eq_true, List.isEmpty_iff, hb.isNone_iff, entries_eq_nil_iff]
      simp only [lookups]
      constructor
      · rintro ⟨empty, absent⟩
        refine ⟨absent, fun key unmanaged => ?_⟩
        simpa [unmanaged] using empty key
      · rintro ⟨absent, left⟩
        refine ⟨fun key => ?_, absent⟩
        split
        · rw [absent]
          rfl
        · next unmanaged => exact left key (by simpa using unmanaged)
    rw [← gone]
    split
    · next h => exact ⟨fun _ => h, fun _ => rfl⟩
    · next h => exact ⟨(fun found => nomatch found), fun isGone => absurd isGone h⟩

/-- A restore of a valid state that the store grants. -/
lemma Valid.restored (faithful : codec.Faithful) (valid : Valid toAscii store)
    (validInitial : Valid toAscii initial) (hb : Snapshot toAscii codec before initial) :
    let result := restoreServiceDns toAscii codec true before store
    result.1 = .ok () ∧ Valid toAscii result.2 ∧
      (∀ key, field key result.2 = if isManaged key then field key initial else field key store) ∧
      (result.2 = none ↔
        initial = none ∧ ∀ key, isManaged key = false → field key store = none) := by
  obtain ⟨current, read, snapshot⟩ := valid.read faithful
  obtain ⟨restored, hrestored, fields, absent⟩ := restoredDictionary_spec snapshot hb
  have managed : ∀ key value,
      (if isManaged key then field key initial else field key store) = some value →
        validateField toAscii key value = .ok () := by
    intro key value found
    split at found
    · exact validInitial.fields key value found
    · exact valid.fields key value found
  cases restored with
  | none =>
      have step : restoreServiceDns toAscii codec true before store = (.ok (), none) := by
        simp only [restoreServiceDns, read, hrestored]
        rfl
      rw [step]
      exact ⟨rfl, valid_none, fields, ⟨fun _ => absent.mp rfl, fun _ => rfl⟩⟩
  | some dictionary =>
      have step : restoreServiceDns toAscii codec true before store =
          (.ok (), some (.dictionary dictionary)) := by
        simp only [restoreServiceDns, read, hrestored]
        rfl
      rw [step]
      refine ⟨rfl, valid_dictionary.mpr (validateManaged_eq_ok.mpr fun key value found => ?_),
        fields, ?_⟩
      · exact managed key value ((fields key).symm.trans found)
      · exact ⟨(fun h => nomatch h), fun h => nomatch absent.mpr h⟩

end Lookups

/-! ## Writes and foreign edits -/

section Changes

variable {Foreign Bytes : Type}

/-- What happens to the state of a service while it is leased. -/
inductive Change (Foreign : Type)
  | write (plan : NormalizedConfig) (granted : Bool)
  /-- Another program sets or removes a key; a dictionary that is left empty may be removed. -/
  | edit (key : List Char) (value : Option (Field Foreign)) (keepEmpty : Bool)

/-- The state after an edit by another program. -/
def edited (key : List Char) (value : Option (Field Foreign)) (keepEmpty : Bool)
    (store : Store Foreign) : Store Foreign :=
  let dictionary :=
    match value with
    | some value => (contents store).insert key value
    | none => (contents store).erase key
  if dictionary.entries.isEmpty && !keepEmpty then none else some (.dictionary dictionary)

variable (toAscii : List Char → Option (List Char)) (codec : Serialization Foreign Bytes)

/-- The state after a change. -/
def Change.perform (store : Store Foreign) : Change Foreign → Store Foreign
  | .write plan granted =>
      (writeServiceDns toAscii codec granted (expectedServers plan) (expectedSearch plan) store).2
  | .edit key value keepEmpty => edited key value keepEmpty store

/-- The domains of a plan were parsed, and other programs edit unmanaged keys. -/
def Change.Legal : Change Foreign → Prop
  | .write plan _ => ∀ s ∈ plan.searchDomains, ∃ input, DnsSuffix.parse toAscii input = some s
  | .edit key _ _ => isManaged key = false

/-- What the last edit of a key made of it, if there was one. -/
def lastEdit (key : List Char) (changes : List (Change Foreign)) :
    Option (Option (Field Foreign)) :=
  changes.foldl (fun last change =>
    match change with
    | .write _ _ => last
    | .edit name value _ => if name = key then some value else last) none

variable {toAscii codec} {store initial : Store Foreign} {changes : List (Change Foreign)}

lemma field_edited {key name : List Char} {value : Option (Field Foreign)} {keepEmpty : Bool} :
    field key (edited name value keepEmpty store) =
      if name = key then value else field key store := by
  -- An empty dictionary and none are looked up alike.
  have stored (dictionary : Dictionary Foreign) :
      field key (if dictionary.entries.isEmpty && !keepEmpty then none
        else some (.dictionary dictionary)) = dictionary.lookup key := by
    split
    · next gone =>
        rw [Bool.and_eq_true, List.isEmpty_iff] at gone
        exact (entries_eq_nil_iff.mp gone.1 key).symm
    · rfl
  unfold edited
  refine (stored _).trans ?_
  by_cases same : name = key
  · subst same
    rw [if_pos rfl]
    cases value with
    | none => exact AList.lookup_erase name _
    | some value => exact AList.lookup_insert _
  · rw [if_neg same]
    cases value with
    | none => exact AList.lookup_erase_ne (Ne.symm same)
    | some value => exact AList.lookup_insert_ne (Ne.symm same)

lemma Valid.edited {key : List Char} (valid : Valid toAscii store)
    (unmanaged : isManaged key = false) (value : Option (Field Foreign)) (keepEmpty : Bool) :
    Valid toAscii (edited key value keepEmpty store) := by
  refine ⟨fun foreign => ?_, fun name found h => ?_⟩
  · unfold ServiceDns.edited
    split <;> simp
  · rw [field_edited] at h
    split at h
    · next same => exact same ▸ validateField_unmanaged unmanaged
    · exact valid.fields name found h

/-- What is known while the state of a service is changed. -/
structure Framed (toAscii : List Char → Option (List Char)) (initial : Store Foreign)
    (changes : List (Change Foreign)) (store : Store Foreign) : Prop where
  valid : Valid toAscii store
  unmanaged : ∀ key, isManaged key = false →
    field key store = (lastEdit key changes).getD (field key initial)

lemma lastEdit_concat (key : List Char) (changes : List (Change Foreign))
    (change : Change Foreign) :
    lastEdit key (changes ++ [change]) =
      match change with
      | .write _ _ => lastEdit key changes
      | .edit name value _ => if name = key then some value else lastEdit key changes := by
  rw [lastEdit, List.foldl_append]
  rfl

/-- A change keeps what is known. -/
lemma Framed.perform (faithful : codec.Faithful) (idempotent : IdempotentAscii toAscii)
    (framed : Framed toAscii initial changes store) {change : Change Foreign}
    (legal : change.Legal toAscii) :
    Framed toAscii initial (changes ++ [change]) (change.perform toAscii codec store) := by
  cases change with
  | write plan granted =>
      refine ⟨framed.valid.written faithful idempotent granted legal, fun key unmanaged => ?_⟩
      rw [lastEdit_concat]
      exact (field_writeServiceDns faithful granted _ _ unmanaged).trans
        (framed.unmanaged key unmanaged)
  | edit name value keepEmpty =>
      refine ⟨framed.valid.edited legal value keepEmpty, fun key unmanaged => ?_⟩
      rw [lastEdit_concat]
      refine field_edited.trans ?_
      dsimp only
      split
      · rfl
      · exact framed.unmanaged key unmanaged

lemma framed_changes (faithful : codec.Faithful) (idempotent : IdempotentAscii toAscii)
    (valid : Valid toAscii initial) (legal : ∀ change ∈ changes, change.Legal toAscii) :
    Framed toAscii initial changes (changes.foldl (Change.perform toAscii codec) initial) := by
  induction changes using List.reverseRecOn with
  | nil => exact ⟨valid, fun _ _ => rfl⟩
  | append_singleton changes change ih =>
      have front := ih fun change hc => legal change (List.mem_append_left _ hc)
      rw [List.foldl_append]
      exact front.perform faithful idempotent (legal change (by simp))

/-- The state of a service is captured, changed by writes and by other programs, and restored.  The
unmanaged keys are then as they were edited last, the managed ones as they were captured, and the
dictionary is absent exactly if it was and nothing unmanaged is left; what is read is equivalent to
the capture.  No write changes an unmanaged key. -/
theorem service_frame [DecidableEq Foreign] (faithful : codec.Faithful)
    (idempotent : IdempotentAscii toAscii) (valid : Valid toAscii initial)
    (legal : ∀ change ∈ changes, change.Legal toAscii) :
    ∃ captured, readServiceDns toAscii codec initial = .ok captured ∧
      let leased := changes.foldl (Change.perform toAscii codec) initial
      let result := restoreServiceDns toAscii codec true captured leased
      result.1 = .ok () ∧
      (∀ key, isManaged key = false →
        field key result.2 = (lastEdit key changes).getD (field key initial)) ∧
      (∀ key, isManaged key = true → field key result.2 = field key initial) ∧
      (result.2 = none ↔
        initial = none ∧ ∀ key, isManaged key = false → field key leased = none) ∧
      (∃ after, readServiceDns toAscii codec result.2 = .ok after ∧
        equivalent toAscii codec after captured = true) ∧
      ∀ (store : Store Foreign) (granted : Bool) (servers search : List (List Char))
        (key : List Char), isManaged key = false →
        field key (writeServiceDns toAscii codec granted servers search store).2 =
          field key store := by
  obtain ⟨captured, read, snapshot⟩ := valid.read faithful
  refine ⟨captured, read, ?_⟩
  intro leased result
  have framed : Framed toAscii initial changes leased :=
    framed_changes faithful idempotent valid legal
  obtain ⟨ok, validAfter, fields, absent⟩ := framed.valid.restored faithful valid snapshot
  have managed : ∀ key, isManaged key = true → field key result.2 = field key initial :=
    fun key isM => (fields key).trans (if_pos isM)
  refine ⟨ok, fun key unmanaged => ?_, managed, absent, ?_,
    fun store granted servers search key unmanaged =>
      field_writeServiceDns faithful granted servers search unmanaged⟩
  · refine (fields key).trans ?_
    rw [if_neg (by simp [unmanaged])]
    exact framed.unmanaged key unmanaged
  · obtain ⟨after, readAfter, snapshotAfter⟩ := validAfter.read faithful
    exact ⟨after, readAfter, equivalent_of_managed snapshotAfter snapshot managed⟩

end Changes

/-- Property lists stand for their bytes. -/
def transparent : Serialization Nat (PropertyList Nat) where
  createData fields := .ok (.dictionary fields)
  createWithData bytes := .ok bytes

lemma faithful_transparent : transparent.Faithful :=
  fun fields => ⟨.dictionary fields, fields, rfl, rfl, fun _ => rfl⟩

/-- A service with a server and a value of its own. -/
def ownServer : Store Nat :=
  some (.dictionary (List.toAList
    [⟨serverAddresses, .array [.string "1.1.1.1".toList]⟩, ⟨"unmanaged".toList, .other 25⟩]))

/-- A write and a foreign edit. -/
def overlaid : List (Change Nat) :=
  [.write ⟨[.v4 134744072], [⟨"corp.example".toList⟩], [], none⟩ true,
    .edit "unmanaged".toList (some (.other 15)) true]

theorem service_frame_overlaid :
    ∃ captured, readServiceDns lowerAscii transparent ownServer = .ok captured ∧
      let leased := overlaid.foldl (Change.perform lowerAscii transparent) ownServer
      let result := restoreServiceDns lowerAscii transparent true captured leased
      field "unmanaged".toList result.2 = some (.other 15) ∧
        field serverAddresses result.2 = some (.array [.string "1.1.1.1".toList]) ∧
        field searchDomains result.2 = none := by
  have valid : Valid lowerAscii ownServer := valid_dictionary.mpr (by decide)
  have legal : ∀ change ∈ overlaid, change.Legal lowerAscii := by
    intro change hc
    simp only [overlaid, List.mem_cons, List.not_mem_nil, or_false] at hc
    rcases hc with rfl | rfl
    · intro s hs
      simp only [List.mem_singleton] at hs
      exact ⟨"corp.example".toList, by rw [hs]; decide⟩
    · exact (by decide : isManaged "unmanaged".toList = false)
  obtain ⟨captured, read, _, unmanaged, managed, _⟩ :=
    service_frame faithful_transparent idempotent_lowerAscii valid legal
  refine ⟨captured, read, ?_, ?_, ?_⟩
  · exact unmanaged "unmanaged".toList (by decide)
  · exact managed serverAddresses (by decide)
  · exact managed searchDomains (by decide)

end ServiceDns

end Osdns
