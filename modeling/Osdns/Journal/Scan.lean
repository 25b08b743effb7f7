import Osdns.Journal.Ledger

/-!
# Writing, removing and scanning

What the programs of the store do to the ledger behind the directory, whatever other parties do to
the files that are not theirs in the meantime.

A record that was written, or a file that was removed, without an error stays so over power failures
(`write_sat`, `remove_sat`).  A scan never finds a torn, misplaced or unreadable record: what it
returns was there when it was read, and it has every record of the files that nobody changed
(`records_sat`).
-/

namespace Osdns.Journal

open Durable Interaction Interaction.Fallible

namespace JournalStore

variable (store : JournalStore)

/-- The calls of a party that leaves the files in `mine` alone. -/
def Minds (mine : Set FileName) : Handler FileRet Directory :=
  fun _ d _ d' => (store.others mine).rel d d'

/-- How `write` ends: with the record on the disk, or with the file as it was but for an error that
says otherwise. -/
def Published (before : Directory) (record : Record) : Except StoreError Unit → Directory → Prop :=
  Ends
    (fun _ after =>
      after (store.fileName record) = .flushed (some (recordBytes store.crates record)))
    fun e after =>
      (after (store.fileName record)).content = (before (store.fileName record)).content ∨
        (∃ source, e = .error (.journalPublication true source)) ∧
          (after (store.fileName record)).content = some (recordBytes store.crates record)

/-- How `remove` ends: with no file on the disk, or with the file as it was but for an error that
says otherwise. -/
def Unpublished (before : Directory) (name : FileName) : Except StoreError Unit → Directory → Prop :=
  Ends (fun _ after => after name = .flushed none) fun e after =>
    (after name).content = (before name).content ∨
      (∃ source, e = .error (.journalRemoval true source)) ∧ (after name).content = none

/-- A record that a scan may find: one that its file can hold, and that is there if the file is one
that nobody changes. -/
structure Seen (mine : Set FileName) (ledger : Ledger) (record : Record) : Prop where
  storable : store.Storable (store.fileName record) record
  there : store.fileName record ∈ mine → (ledger (store.fileName record)).content = some record

/-- What a scan has of the files that it visited. -/
structure Scanned (mine : Set FileName) (ledger : Ledger) (visited : List FileName)
    (out : List Record) : Prop where
  seen : ∀ record ∈ out, store.Seen mine ledger record
  apart : (out.map (·.resource)).Nodup
  among : ∀ record ∈ out, store.fileName record ∈ visited
  complete : ∀ name ∈ mine, name ∈ visited → ∀ record, (ledger name).content = some record →
    record ∈ out

/-- What a scan that ends has. -/
structure Found (mine : Set FileName) (ledger : Ledger) (out : List Record) : Prop where
  seen : ∀ record ∈ out, store.Seen mine ledger record
  apart : (out.map (·.resource)).Nodup
  complete : ∀ name ∈ mine, ∀ record, (ledger name).content = some record → record ∈ out

/-- Why a scan fails: a call fails, or two files are about one resource. -/
inductive ScanFailure (mine : Set FileName) (ledger : Ledger) : StoreError → Prop
  | opening {error : StoreError} (h : Opening error) : ScanFailure mine ledger error
  | ambiguous {record other : Record} (hrecord : store.Seen mine ledger record)
      (hother : store.Seen mine ledger other) (hne : store.fileName record ≠ store.fileName other)
      (hresource : record.resource = other.resource) :
      ScanFailure mine ledger (.error (.journalCorrupt
        s!"{store.path (store.fileName record)}: multiple records claim one resource"))

/-- A directory that came from one with the ledger while the files in `mine` were left alone. -/
def Since (mine : Set FileName) (ledger : Ledger) (d : Directory) : Prop :=
  ∃ ledger', store.Holds d ledger' ∧ Keeps mine ledger ledger'

variable {store : JournalStore} {mine : Set FileName} {d d' : Directory} {ledger : Ledger}
  {name : FileName} {record : Record} {lease : LeaseId} {resource : ResourceId}

lemma stable_since : Stable (store.others mine) (store.Since mine ledger) := by
  rintro d d' hd ⟨ledger', hholds, hkeeps⟩
  obtain ⟨ledger'', hholds', hkeeps'⟩ := hholds.others hd
  exact ⟨ledger'', hholds', hkeeps.trans hkeeps'⟩

/-! ## One file -/

/-- A file of the journal that others leave alone keeps its content, and stays flushed. -/
lemma proper_slot (hmine : name ∈ mine) (hname : JournalFile name) (hd : store.Proper mine d d') :
    (d' name).content = (d name).content ∧
      ∀ c, d name = .flushed c → d' name = .flushed c := by
  cases hd with
  | @changes other c slot hother hc hslot =>
      have hne : name ≠ other := fun heq => hother (heq ▸ hmine)
      rw [Function.update_of_ne hne]
      exact ⟨rfl, fun _ h => h⟩
  | @unrelated other slot hother =>
      have hne : name ≠ other := fun heq => hother (heq ▸ hname)
      rw [Function.update_of_ne hne]
      exact ⟨rfl, fun _ h => h⟩
  | flushes => exact ⟨rfl, fun c h => (congrArg Slot.flush h).trans (Slot.flush_flushed c)⟩

lemma others_slot (hmine : name ∈ mine) (hname : JournalFile name)
    (hd : (store.others mine).rel d d') :
    (d' name).content = (d name).content ∧
      ∀ c, d name = .flushed c → d' name = .flushed c := by
  induction hd with
  | refl => exact ⟨rfl, fun _ h => h⟩
  | tail _ hstep ih =>
      have hslot := proper_slot hmine hname hstep
      exact ⟨hslot.1.trans ih.1, fun c h => hslot.2 c (ih.2 c h)⟩

lemma stable_published {before : Directory} {result : Except StoreError Unit}
    (hmine : store.fileName record ∈ mine) :
    Stable (store.others mine) (store.Published before record result) := by
  intro d d' hd h
  obtain ⟨hcontent, hflushed⟩ := others_slot hmine journalFile_fileName hd
  cases result with
  | ok _ => exact hflushed _ h
  | error e =>
      show (d' _).content = _ ∨ _ ∧ (d' _).content = _
      rw [hcontent]
      exact h

lemma stable_unpublished {before : Directory} {result : Except StoreError Unit}
    (hmine : name ∈ mine) (hname : JournalFile name) :
    Stable (store.others mine) (Unpublished before name result) := by
  intro d d' hd h
  obtain ⟨hcontent, hflushed⟩ := others_slot hmine hname hd
  cases result with
  | ok _ => exact hflushed _ h
  | error e =>
      show (d' _).content = _ ∨ _ ∧ (d' _).content = _
      rw [hcontent]
      exact h

/-! ## Writing -/

/-- A call that changes the file `name` by a record that it can hold, or removes it. -/
lemma minds_of_becomes {c : Option Record} {slot : Slot (List UInt8)}
    (hc : ∀ record ∈ c, store.Storable name record) (hslot : store.Becomes (d name) c slot) :
    (store.others {name}ᶜ).rel d (Function.update d name slot) :=
  .single (.changes (fun h => h rfl) hc hslot)

/-- `directory` changes nothing. -/
lemma directory_sat {G : Handler FileRet Directory} {P : Directory → Prop}
    (hG : ∀ o d r, G o d r d) (hP : Stable (store.others mine) P) (hd : P d) :
    Program.Sat fileCalls (store.others mine) G directory.run
      (Ends (fun _ => P) fun e d => Opening e ∧ P d) d := by
  intro d₁ hd₁ r d₂ hr
  obtain ⟨rfl, herror⟩ := hr
  refine ⟨hG _ _ _, fun d₃ hd₃ => ?_⟩
  have hd' := hP hd₃ (hP hd₁ hd)
  cases r with
  | ok _ => exact hd'
  | error e => exact ⟨herror e rfl, hd'⟩

/-- The replacement of the file of a record. -/
lemma replace_sat (hrecord : store.Storable (store.fileName record) record)
    (hmine : store.fileName record ∈ mine) {before : Directory}
    (hd : (d (store.fileName record)).content = (before (store.fileName record)).content) :
    Program.Sat fileCalls (store.others mine) (store.Minds {store.fileName record}ᶜ)
      (.call (.writeAtomic (store.fileName record) (recordBytes store.crates record))
        fun result => .done (result.mapError publicationError))
      (store.Published before record) d := by
  rintro d₁ hd₁ r _ ⟨slot, hslot, rfl⟩
  have hcontent := (others_slot hmine journalFile_fileName hd₁).1.trans hd
  have hsame : Function.update d₁ (store.fileName record) (d₁ (store.fileName record)) = d₁ :=
    Function.update_eq_self _ _
  have hown : ∀ r ∈ some record, store.Storable (store.fileName record) r :=
    fun r hr => Option.mem_some_iff.mp hr ▸ hrecord
  cases hslot with
  | done =>
      refine ⟨minds_of_becomes hown .flushed, fun d₃ hd₃ => stable_published hmine hd₃ ?_⟩
      exact Function.update_self _ _ _
  | unchanged error =>
      rw [hsame]
      exact ⟨.refl, fun d₃ hd₃ => stable_published hmine hd₃ (.inl hcontent)⟩
  | unflushed source =>
      refine ⟨minds_of_becomes hown .marked, fun d₃ hd₃ => stable_published hmine hd₃ (.inr ?_)⟩
      exact ⟨⟨source, rfl⟩, by rw [Function.update_self]; rfl⟩

/-- A record that fits into its file is written. -/
lemma write_eq (hsize : (recordBytes store.crates record).length ≤ maxRecordBytes) :
    store.write record = (do
      directory
      ask (.call (.writeAtomic (store.fileName record) (recordBytes store.crates record))
        fun result => .done (result.mapError publicationError))) := by
  rw [write, reject_of_not (not_lt.mpr hsize)]
  rfl

/-- What `write` reports of its file is so: a record that is written without an error is on the
disk, and after an error that does not say otherwise the file is as it was. -/
theorem write_sat (hrecord : Readable store.crates record)
    (hmine : store.fileName record ∈ mine) :
    Program.Sat fileCalls (store.others mine) (store.Minds {store.fileName record}ᶜ)
      (store.write record).run (store.Published d record) d := by
  by_cases hsize : maxRecordBytes < (recordBytes store.crates record).length
  · have hrun : (store.write record).run = .done (.error (.error (.journalCorrupt
        "journal record exceeds the 16 MiB storage budget"))) := by
      rw [write, reject_of hsize]
      rfl
    rw [hrun]
    exact fun d' hd' => stable_published hmine hd' (.inl rfl)
  rw [write_eq (not_lt.mp hsize)]
  have hstable : Stable (store.others mine) fun d' =>
      (d' (store.fileName record)).content = (d (store.fileName record)).content :=
    fun hd' h => (others_slot hmine journalFile_fileName hd').1.trans h
  refine sat_bind (directory_sat (fun _ _ _ => .refl) hstable rfl) (fun _ d' hd' => ?_)
    fun e d' hd' d'' hd'' => .inl (hstable hd'' hd'.2)
  exact replace_sat ⟨hrecord, not_lt.mp hsize, rfl⟩ hmine hd'

/-! ## Removing -/

lemma minds_of_remove {slot : Slot (List UInt8)} (hslot : store.Becomes (d name) none slot) :
    (store.others {name}ᶜ).rel d (Function.update d name slot) :=
  minds_of_becomes (fun _ h => absurd h (Option.not_mem_none _)) hslot

/-- The flush that makes an absence last. -/
lemma sync_sat (hmine : name ∈ mine) (hname : JournalFile name) {before : Directory}
    (hbefore : (before name).content = none) (hd : (d name).content = none) :
    Program.Sat fileCalls (store.others mine) (store.Minds {name}ᶜ)
      (.call .syncAll fun result =>
        .done (result.mapError fun source => .error (.journalRemoval true source.text)))
      (Unpublished before name) d := by
  rintro d₁ hd₁ r _ (⟨rfl, rfl⟩ | ⟨error, rfl, rfl⟩)
  · have hcontent : (d₁ name).content = none := (others_slot hmine hname hd₁).1.trans hd
    refine ⟨.single .flushes, fun d₂ hd₂ => stable_unpublished hmine hname hd₂ ?_⟩
    exact congrArg Slot.flushed hcontent
  · refine ⟨.refl, fun d₂ hd₂ => stable_unpublished hmine hname hd₂ (.inl ?_)⟩
    exact ((others_slot hmine hname hd₁).1.trans hd).trans hbefore.symm

/-- What is done after the removal of a file. -/
lemma removed_sat (hmine : name ∈ mine) (hname : JournalFile name) {before : Directory}
    {result : Except FsError Unit} {slot : Slot (List UInt8)} (hslot : Removes slot result (d name))
    (hbefore : slot.content = (before name).content) :
    Program.Sat fileCalls (store.others mine) (store.Minds {name}ᶜ) (removed result).run
      (Unpublished before name) d := by
  have hstop : ∀ r : Except StoreError Unit, Unpublished before name r d →
      Program.Sat fileCalls (store.others mine) (store.Minds {name}ᶜ) (.done r)
        (Unpublished before name) d :=
    fun r hr d' hd' => stable_unpublished hmine hname hd' hr
  generalize hafter : d name = after at hslot
  cases hslot with
  | done => exact hstop (.ok ()) hafter
  | missing message hnone =>
      exact sync_sat hmine hname (hbefore ▸ hnone) (hafter ▸ hnone)
  | unchanged error hne =>
      have hcontent : (d name).content = (before name).content := hafter ▸ hbefore
      cases error with
      | notFound message => exact absurd rfl (hne message)
      | io message => exact hstop _ (.inl hcontent)
      | atomicCommit published source => exact hstop _ (.inl hcontent)
      | removal gone source => exact hstop _ (.inl hcontent)
      | refused message => exact hstop _ (.inl hcontent)
  | unflushed source => exact hstop _ (.inr ⟨⟨source, rfl⟩, congrArg Slot.content hafter⟩)

/-- What `remove` reports of the file is so. -/
theorem remove_sat (hmine : recordFileName store.crates.hash lease resource ∈ mine) :
    Program.Sat fileCalls (store.others mine)
      (store.Minds {recordFileName store.crates.hash lease resource}ᶜ)
      (store.remove lease resource).run
      (Unpublished d (recordFileName store.crates.hash lease resource)) d := by
  have hname : JournalFile (recordFileName store.crates.hash lease resource) :=
    extension_recordFileName
  have hstable : Stable (store.others mine) fun d' =>
      (d' (recordFileName store.crates.hash lease resource)).content =
        (d (recordFileName store.crates.hash lease resource)).content :=
    fun hd' h => (others_slot hmine hname hd').1.trans h
  refine sat_bind (directory_sat (fun _ _ _ => .refl) hstable rfl) (fun _ d' hd' => ?_)
    fun e d' hd' d'' hd'' => .inl (hstable hd'' hd'.2)
  rintro d₁ hd₁ r _ ⟨slot, hslot, rfl⟩
  have hafter : Removes (d₁ (recordFileName store.crates.hash lease resource)) r
      (Function.update d₁ (recordFileName store.crates.hash lease resource) slot
        (recordFileName store.crates.hash lease resource)) := by
    rw [Function.update_self]
    exact hslot
  refine ⟨?_, removed_sat hmine hname hafter (hstable hd₁ hd')⟩
  cases hslot with
  | done => exact minds_of_remove .flushed
  | missing message hnone => rw [Function.update_eq_self]; exact .refl
  | unchanged error hne => rw [Function.update_eq_self]; exact .refl
  | unflushed source => exact minds_of_remove .marked

/-! ## Scanning -/

/-- The file of a record is taken into a scan unless another record is about the resource. -/
lemma addRecord_eq (hC : store.crates.Faithful) (hrecord : store.Storable name record)
    (out : List Record) :
    store.addRecord out name ((recordBytes store.crates record).take (maxRecordBytes + 1)) =
      if out.any (·.resource == record.resource) = true then
        .error (.error (.journalCorrupt
          s!"{store.path name}: multiple records claim one resource"))
      else .ok (out ++ [record]) := by
  have htake : (recordBytes store.crates record).take (maxRecordBytes + 1) =
      recordBytes store.crates record :=
    List.take_of_length_le (hrecord.size.trans (Nat.le_succ _))
  have hread : decodeRecord store.crates (store.path name) (recordBytes store.crates record) =
      .ok record := (decodeRecord_recordBytes hC hrecord.size).mpr hrecord.readable
  rw [addRecord, htake, reject_of_not (not_lt.mpr hrecord.size), ok_bind, hread, ok_bind,
    reject_of_not (not_not.mpr hrecord.name), ok_bind]
  by_cases hany : out.any (·.resource == record.resource) = true
  · rw [if_pos hany, reject_of hany]
    rfl
  · rw [if_neg hany, reject_of_not hany]
    rfl

lemma Scanned.nil : store.Scanned mine ledger [] [] where
  seen _ h := absurd h List.not_mem_nil
  apart := List.nodup_nil
  among _ h := absurd h List.not_mem_nil
  complete _ _ h := absurd h List.not_mem_nil

/-- A file that is none of the journal. -/
lemma Scanned.skip {visited : List FileName} {out : List Record}
    (h : store.Scanned mine ledger visited out) (hnone : ∀ record, (ledger name).content ≠ some record) :
    store.Scanned mine ledger (visited ++ [name]) out where
  seen := h.seen
  apart := h.apart
  among record hr := List.mem_append_left _ (h.among record hr)
  complete other hother hvisited record hrecord := by
    rcases List.mem_append.mp hvisited with hvisited | hvisited
    · exact h.complete other hother hvisited record hrecord
    · obtain rfl := List.mem_singleton.mp hvisited
      exact absurd hrecord (hnone record)

/-- The record of another file. -/
lemma Scanned.add {visited : List FileName} {out : List Record}
    (h : store.Scanned mine ledger visited out) (hseen : store.Seen mine ledger record)
    (hname : name = store.fileName record)
    (hother : ∀ other ∈ out, other.resource ≠ record.resource) :
    store.Scanned mine ledger (visited ++ [name]) (out ++ [record]) where
  seen := List.forall_mem_append.mpr ⟨h.seen, List.forall_mem_singleton.mpr hseen⟩
  apart := by
    rw [List.map_append, List.map_singleton, List.nodup_append']
    refine ⟨h.apart, List.nodup_singleton _, ?_⟩
    rw [List.disjoint_singleton, List.mem_map]
    rintro ⟨other, ho, heq⟩
    exact hother other ho heq
  among := List.forall_mem_append.mpr
    ⟨fun r hr => List.mem_append_left _ (h.among r hr),
      List.forall_mem_singleton.mpr (hname ▸ List.mem_append_right _ List.mem_cons_self)⟩
  complete other hmine hvisited r hr := by
    rcases List.mem_append.mp hvisited with hvisited | hvisited
    · exact List.mem_append_left _ (h.complete other hmine hvisited r hr)
    · have hfile : other = store.fileName record := (List.mem_singleton.mp hvisited).trans hname
      rw [hfile] at hmine hr
      rw [Option.some.inj ((hseen.there hmine).symm.trans hr)]
      exact List.mem_append_right _ List.mem_cons_self

/-- One file of a scan. -/
lemma scan_sat (hC : store.crates.Faithful) {visited : List FileName} {out : List Record}
    (hout : store.Scanned mine ledger visited out) (hname : name ∉ visited)
    (hsince : store.Since mine ledger d) (hstored : Every store.Storable ledger) :
    Program.Sat fileCalls (store.others mine) (store.Minds Set.univ) (store.scan out name).run
      (Ends (fun out' d' => store.Scanned mine ledger (visited ++ [name]) out' ∧
        store.Since mine ledger d') fun e _ => store.ScanFailure mine ledger e) d := by
  by_cases hjson : extension name = some ['j', 's', 'o', 'n']
  · have hrun : store.scan out name = (do
        let bytes ← ask (.call (.readFile name (maxRecordBytes + 1)) fun result =>
          .done (result.mapError privateError))
        known (store.addRecord out name bytes)) := by
      simp [scan, hjson]
    rw [hrun]
    rintro d₁ hd₁ r _ ⟨rfl, hread⟩
    refine ⟨.refl, ?_⟩
    cases hread with
    | failed error => exact fun _ _ => .opening (.file error)
    | @done bytes hbytes =>
        obtain ⟨ledger', hholds, hkeeps⟩ := stable_since hd₁ hsince
        obtain ⟨record, hrecord, rfl, hstorable⟩ := hholds.of_content hjson hbytes
        have hfile := hstorable.name
        have hseen : store.Seen mine ledger record := by
          refine ⟨hfile ▸ hstorable, fun hmine => ?_⟩
          rw [← hfile] at hmine ⊢
          exact (hkeeps.content _ hmine hjson).symm.trans hrecord
        intro d₂ hd₂
        have hsince₂ := stable_since hd₂ (stable_since hd₁ hsince)
        rw [addRecord_eq hC hstorable]
        split
        next hany =>
          obtain ⟨other, hother, hresource⟩ := List.any_eq_true.mp hany
          rw [hfile]
          refine .ambiguous hseen (hout.seen other hother) (fun heq => ?_) (eq_of_beq hresource).symm
          rw [hfile, heq] at hname
          exact hname (hout.among other hother)
        next hany =>
          refine ⟨hout.add hseen hfile fun other hother heq => hany ?_, hsince₂⟩
          exact List.any_eq_true.mpr ⟨other, hother, beq_iff_eq.mpr heq⟩
  · have hrun : store.scan out name = pure out := by simp [scan, hjson]
    rw [hrun]
    refine fun d' hd' => ⟨hout.skip fun record hr => hjson ?_, stable_since hd' hsince⟩
    exact (hstored.content hr).name ▸ extension_recordFileName

lemma journalFile_of_content (hstored : Every store.Storable ledger)
    (hrecord : (ledger name).content = some record) : JournalFile name :=
  (hstored.content hrecord).name ▸ extension_recordFileName

/-- A listing has the files that nobody changes. -/
lemma mem_of_lists (hstored : Every store.Storable ledger) (hsince : store.Since mine ledger d)
    {names : List FileName} (hnames : Lists d names) (hmine : name ∈ mine)
    (hrecord : (ledger name).content = some record) : name ∈ names := by
  have hjson := journalFile_of_content hstored hrecord
  obtain ⟨ledger', hholds, hkeeps⟩ := hsince
  rw [hnames.mem_iff, hholds.content hjson, hkeeps.content name hmine hjson, hrecord]
  exact Option.some_ne_none _

/-- What a scan returns was there, with all the records of files that nobody changed, and a scan
fails only when a call fails or two files are about one resource. -/
theorem records_sat (hC : store.crates.Faithful) (hholds : store.Holds d ledger) :
    Program.Sat fileCalls (store.others mine) (store.Minds Set.univ) store.records.run
      (Ends (fun out _ => store.Found mine ledger out) fun e _ => store.ScanFailure mine ledger e)
      d := by
  refine sat_bind (directory_sat (fun _ _ _ => .refl) stable_since ⟨ledger, hholds, Keeps.refl⟩)
    (fun _ d' hd' => ?_) fun e d' hd' _ _ => .opening hd'.1
  rintro _ hd₁ r d₁ ⟨rfl, hr⟩
  refine ⟨.refl, ?_⟩
  have hsince := stable_since hd₁ hd'
  cases r with
  | error error => exact fun _ _ => .opening (.file error)
  | ok names =>
      have hnames := hr names rfl
      have hloop : Program.Sat fileCalls (store.others mine) (store.Minds Set.univ)
          (names.foldlM store.scan []).run
          (Ends (fun out d' => store.Scanned mine ledger names out ∧ store.Since mine ledger d')
            fun e _ => store.ScanFailure mine ledger e) d₁ := by
        refine sat_foldlM
          (I := fun visited out d' =>
            store.Scanned mine ledger visited out ∧ store.Since mine ledger d')
          (fun _ _ _ _ h h' => ⟨h'.1, stable_since h h'.2⟩) (fun _ _ _ _ h => h)
          ⟨Scanned.nil, hsince⟩ fun visited name rest out d' hsplit hscanned => ?_
        have hfresh : name ∉ visited := by
          have hnodup := hnames.nodup
          rw [← hsplit, List.nodup_append'] at hnodup
          exact fun h => hnodup.2.2 h List.mem_cons_self
        exact scan_sat hC hscanned.1 hfresh hscanned.2 hholds.storable
      refine hloop.mono fun result d' hend => ?_
      cases result with
      | error e => exact hend
      | ok out =>
          exact ⟨hend.1.seen, hend.1.apart, fun name hmine record hrecord =>
            hend.1.complete name hmine
              (mem_of_lists hholds.storable hsince hnames hmine hrecord) record hrecord⟩

/-- A store with the compact texts, and a directory with one record. -/
def linkStore : JournalStore := ⟨"journal", compactCrates⟩

def corpRecord : Record := linkRecord 7 "corp.example"

def corpDirectory : Directory :=
  Function.update (fun _ => .flushed none) (linkStore.fileName corpRecord)
    (.flushed (some (recordBytes compactCrates corpRecord)))

def corpLedger : Ledger :=
  Function.update (fun _ => .flushed none) (linkStore.fileName corpRecord)
    (.flushed (some corpRecord))

lemma holds_corp : linkStore.Holds corpDirectory corpLedger :=
  holds_single ⟨readable_corp (by decide), size_corp, rfl⟩

end JournalStore

end Osdns.Journal
