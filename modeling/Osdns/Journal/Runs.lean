import Osdns.Framework.Parallel
import Osdns.Journal.Scan

/-!
# Stores at work

Any number of parties that write, remove and scan records in one directory, in every order of their
calls (`jobs_finish`), and what is left of finished work by later work and by power failures
(`write_lasts`, `remove_lasts`).
-/

namespace Osdns.Journal

open Durable Interaction Interaction.Fallible

namespace JournalStore

/-- What a party does. -/
inductive Job
  | write (record : Record)
  | remove (lease : LeaseId) (resource : ResourceId)
  | scan

abbrev Job.Answer : Job → Type
  | write _ => Except StoreError Unit
  | remove _ _ => Except StoreError Unit
  | scan => Except StoreError (List Record)

variable (store : JournalStore)

def Job.program : (job : Job) → Program FileRet job.Answer
  | write record => (store.write record).run
  | remove lease resource => (store.remove lease resource).run
  | scan => store.records.run

/-- The files that a job changes. -/
def Job.files : Job → Set FileName
  | write record => {store.fileName record}
  | remove lease resource => {recordFileName store.crates.hash lease resource}
  | scan => ∅

/-- How a job ends, when it starts in `before` with a ledger and the files in `mine` are left
alone. -/
def Job.Finished (mine : Set FileName) (before : Directory) (ledger : Ledger) :
    (job : Job) → job.Answer → Directory → Prop
  | write record => store.Published before record
  | remove lease resource => Unpublished before (recordFileName store.crates.hash lease resource)
  | scan => Ends (fun out _ => store.Found mine ledger out) fun e _ =>
      store.ScanFailure mine ledger e

variable {store : JournalStore} {mine mine' : Set FileName} {d d' : Directory} {ledger : Ledger}
  {name : FileName} {record : Record} {lease : LeaseId} {resource : ResourceId}

/-! ## In every order -/

lemma Proper.mono (hmine : mine' ⊆ mine) (h : store.Proper mine d d') : store.Proper mine' d d' := by
  cases h with
  | changes hname hcontent hslot => exact .changes (fun h => hname (hmine h)) hcontent hslot
  | unrelated slot hname => exact .unrelated slot hname
  | flushes => exact .flushes

lemma others_mono (hmine : mine' ⊆ mine) (h : (store.others mine).rel d d') :
    (store.others mine').rel d d' :=
  Relation.ReflTransGen.mono (fun _ _ => Proper.mono hmine) _ _ h

/-- A party does its job when the others leave its files alone. -/
lemma Job.sat (hC : store.crates.Faithful) (hholds : store.Holds d ledger) (job : Job)
    (hreadable : ∀ record, job = .write record → Readable store.crates record)
    (hfiles : job.files store ⊆ mine) :
    Program.Sat fileCalls (store.others mine) (store.Minds (job.files store)ᶜ) (job.program store)
      (job.Finished store mine d ledger) d := by
  cases job with
  | write record => exact write_sat (hreadable record rfl) (hfiles rfl)
  | remove lease resource => exact remove_sat (hfiles rfl)
  | scan =>
      refine (records_sat hC hholds).weaken (fun _ _ _ _ h => h) (fun _ _ h => h) ?_
      exact fun _ _ _ _ _ h => others_mono (Set.subset_univ _) h

/-- A record whose bytes are on the disk is on the disk of the ledger. -/
lemma Holds.flushed (hC : store.crates.Faithful) (hholds : store.Holds d ledger)
    (hrecord : Readable store.crates record)
    (hd : d (store.fileName record) = .flushed (some (recordBytes store.crates record))) :
    ledger (store.fileName record) = .flushed (some record) := by
  have hname : JournalFile (store.fileName record) := journalFile_fileName
  have hcontent := congrArg Slot.content hd
  obtain ⟨holder, -, hbytes, hholder⟩ := hholds.of_content hname hcontent
  have hown : store.Storable (store.fileName record) record := ⟨hrecord, hbytes ▸ hholder.size, rfl⟩
  refine Slot.eq_flushed_of_map ((hholds.files _ hname).symm.trans hd) fun c hc hsame => ?_
  obtain ⟨other, rfl, hother⟩ := Option.map_eq_some_iff.mp hsame
  rw [recordBytes_inj hC (hholds.storable _ other hc) hown hother]

/-- A file that is gone from the disk is gone from the ledger. -/
lemma Holds.absent (hholds : store.Holds d ledger) (hname : JournalFile name)
    (hd : d name = .flushed none) : ledger name = .flushed none :=
  Slot.eq_flushed_of_map ((hholds.files _ hname).symm.trans hd) fun _ _ h =>
    Option.map_eq_none_iff.mp h

/-- The directory stays in order while a party changes its own file and others theirs. -/
lemma Holds.frame {α : Type} {p : Program FileRet α} {Q : α → Directory → Prop}
    (hholds : store.Holds d ledger)
    (h : p.Sat fileCalls (store.others mine) (store.Minds mine') Q d) :
    p.Sat fileCalls (store.others mine) (store.Minds mine')
      (fun a d' => Q a d' ∧ ∃ ledger', store.Holds d' ledger') d := by
  have hkept : ∀ {mine : Set FileName} {d d' : Directory}, (store.others mine).rel d d' →
      (∃ ledger, store.Holds d ledger) → ∃ ledger', store.Holds d' ledger' := by
    rintro mine d d' hd ⟨ledger₁, h₁⟩
    obtain ⟨ledger₂, h₂, -⟩ := h₁.others hd
    exact ⟨ledger₂, h₂⟩
  exact h.frame hkept (fun _ _ _ _ => hkept) ⟨ledger, hholds⟩

/-- From now on, as long as nobody changes the file and over power failures, every scan that ends
finds the record. -/
def Lasts (store : JournalStore) (record : Record) (d : Directory) : Prop :=
  ∀ d', Relation.ReflTransGen (store.Life {store.fileName record}) d d' →
    Program.Sat fileCalls (store.others {store.fileName record}) (store.Minds Set.univ)
      store.records.run
      (Ends (fun out _ => record ∈ out) fun e _ =>
        ∃ ledger, store.ScanFailure {store.fileName record} ledger e) d'

/-- From now on, as long as nobody changes the file and over power failures, no scan finds a record
of it. -/
def Vanished (store : JournalStore) (name : FileName) (d : Directory) : Prop :=
  ∀ d', Relation.ReflTransGen (store.Life {name}) d d' →
    Program.Sat fileCalls (store.others {name}) (store.Minds Set.univ) store.records.run
      (Ends (fun out _ => ∀ record ∈ out, store.fileName record ≠ name) fun e _ =>
        ∃ ledger, store.ScanFailure {name} ledger e) d'

/-- A record that was written lasts. -/
theorem write_lasts (hC : store.crates.Faithful) (hholds : store.Holds d ledger)
    (hrecord : Readable store.crates record) :
    Program.Sat fileCalls (store.others {store.fileName record})
      (store.Minds {store.fileName record}ᶜ) (store.write record).run
      (fun result d' => result = .ok () → Lasts store record d') d := by
  have hmine := Set.mem_singleton (store.fileName record)
  refine (hholds.frame (write_sat hrecord hmine)).mono fun result d₁ hend hok d₂ hlife => ?_
  obtain ⟨hdone, ledger₁, hholds₁⟩ := hend
  rw [hok] at hdone
  obtain ⟨ledger₂, hholds₂, hledger₂⟩ :=
    hholds₁.life hmine journalFile_fileName (hholds₁.flushed hC hrecord hdone) hlife
  refine (records_sat hC hholds₂).mono fun result _ hfound => ?_
  cases result with
  | ok out => exact hfound.complete _ hmine record (congrArg Slot.content hledger₂)
  | error e => exact ⟨ledger₂, hfound⟩

theorem write_lasts_corp :
    Program.Sat fileCalls (linkStore.others {linkStore.fileName corpRecord})
      (linkStore.Minds {linkStore.fileName corpRecord}ᶜ) (linkStore.write corpRecord).run
      (fun result d' => result = .ok () → Lasts linkStore corpRecord d')
      (fun _ => .flushed none) :=
  write_lasts faithful_compactCrates holds_blank (readable_corp (by decide))

/-- A record that was removed is gone. -/
theorem remove_lasts (hC : store.crates.Faithful) (hholds : store.Holds d ledger) :
    Program.Sat fileCalls (store.others {recordFileName store.crates.hash lease resource})
      (store.Minds {recordFileName store.crates.hash lease resource}ᶜ)
      (store.remove lease resource).run
      (fun result d' => result = .ok () →
        Vanished store (recordFileName store.crates.hash lease resource) d') d := by
  have hname : JournalFile (recordFileName store.crates.hash lease resource) :=
    extension_recordFileName
  have hmine := Set.mem_singleton (recordFileName store.crates.hash lease resource)
  refine (hholds.frame (remove_sat hmine)).mono fun result d₁ hend hok d₂ hlife => ?_
  obtain ⟨hdone, ledger₁, hholds₁⟩ := hend
  rw [hok] at hdone
  obtain ⟨ledger₂, hholds₂, hledger₂⟩ :=
    hholds₁.life hmine hname (hholds₁.absent hname hdone) hlife
  refine (records_sat hC hholds₂).mono fun result _ hfound => ?_
  cases result with
  | error e => exact ⟨ledger₂, hfound⟩
  | ok out =>
      intro record hrecord heq
      have hthere := (hfound.seen record hrecord).there heq
      rw [heq, congrArg Slot.content hledger₂] at hthere
      exact absurd hthere.symm (Option.some_ne_none record)

theorem remove_lasts_corp :
    Program.Sat fileCalls (linkStore.others {linkStore.fileName corpRecord})
      (linkStore.Minds {linkStore.fileName corpRecord}ᶜ)
      (linkStore.remove corpRecord.leaseId corpRecord.resource).run
      (fun result d' => result = .ok () → Vanished linkStore (linkStore.fileName corpRecord) d')
      corpDirectory :=
  remove_lasts faithful_compactCrates holds_corp

end JournalStore

end Osdns.Journal
