import Osdns.Journal.Store

/-!
# The ledger behind the journal directory

The records that the files of a directory stand for, and what the parties that work on the directory
do to them.  Every party replaces the file of a record by the bytes of the record, removes files, or
changes files that are none of the journal, so a directory that stands for a ledger goes on doing
so, over power failures too.
-/

namespace Osdns.Journal

open Durable Interaction

/-- A disk of records. -/
abbrev Ledger := Disk FileName Record

/-- `records` looks at the file. -/
def JournalFile (name : FileName) : Prop := extension name = some ['j', 's', 'o', 'n']

namespace JournalStore

variable (store : JournalStore)

/-- A record that the file `name` can hold. -/
structure Storable (name : FileName) (record : Record) : Prop where
  readable : Readable store.crates record
  size : (recordBytes store.crates record).length ≤ maxRecordBytes
  name : name = store.fileName record

/-- The files of the journal are the records of the ledger. -/
structure Holds (d : Directory) (ledger : Ledger) : Prop where
  files : Encodes (recordBytes store.crates) JournalFile d ledger
  storable : Every store.Storable ledger

/-- A new state of a slot: on the disk, or not flushed. -/
inductive Becomes (slot : Slot (List UInt8)) (content : Option Record) :
    Slot (List UInt8) → Prop
  | flushed : Becomes slot content (.flushed (content.map (recordBytes store.crates)))
  | marked : Becomes slot content (slot.mark (content.map (recordBytes store.crates)))

/-- What a party that leaves the files in `mine` alone does. -/
inductive Proper (mine : Set FileName) (d : Directory) : Directory → Prop
  | changes {name : FileName} {content : Option Record} {slot : Slot (List UInt8)}
      (hname : name ∉ mine) (hcontent : ∀ record ∈ content, store.Storable name record)
      (hslot : store.Becomes (d name) content slot) :
      Proper mine d (Function.update d name slot)
  | unrelated {name : FileName} (slot : Slot (List UInt8)) (hname : ¬ JournalFile name) :
      Proper mine d (Function.update d name slot)
  | flushes : Proper mine d fun name => (d name).flush

/-- A step of a machine on which parties leave the files in `mine` alone. -/
inductive Life (mine : Set FileName) (d : Directory) : Directory → Prop
  | proper {d' : Directory} (h : store.Proper mine d d') : Life mine d d'
  | outage {d' : Directory} (h : Outage d d') : Life mine d d'

/-- The rest of the machine, between two calls of a party. -/
def others (mine : Set FileName) : Rely Directory where
  rel := Relation.ReflTransGen (store.Proper mine)
  refl _ := .refl
  trans h₁ h₂ := h₁.trans h₂

variable {store : JournalStore} {mine : Set FileName} {d d' : Directory} {ledger : Ledger}
  {name : FileName} {record : Record} {c : Option Record}

lemma journalFile_fileName : JournalFile (store.fileName record) := extension_recordFileName

/-! ## What is on the disk -/

/-- A file of the journal is the file of a record of the ledger. -/
lemma Holds.of_content (h : store.Holds d ledger) (hname : JournalFile name) {bytes : List UInt8}
    (hbytes : (d name).content = some bytes) :
    ∃ record, (ledger name).content = some record ∧ bytes = recordBytes store.crates record ∧
      store.Storable name record := by
  rw [h.files name hname, Slot.content_map, Option.map_eq_some_iff] at hbytes
  obtain ⟨record, hrecord, rfl⟩ := hbytes
  exact ⟨record, hrecord, rfl, h.storable.content hrecord⟩

lemma Holds.content (h : store.Holds d ledger) (hname : JournalFile name) :
    (d name).content = (ledger name).content.map (recordBytes store.crates) := by
  rw [h.files name hname, Slot.content_map]

/-- The bytes tell the record. -/
lemma recordBytes_inj (hC : store.crates.Faithful) {name' : FileName} {record' : Record}
    (h : store.Storable name record) (h' : store.Storable name' record')
    (hbytes : recordBytes store.crates record = recordBytes store.crates record') :
    record = record' := by
  have hread := (@decodeRecord_recordBytes _ "" _ hC h.size).mpr h.readable
  have hread' := (@decodeRecord_recordBytes _ "" _ hC h'.size).mpr h'.readable
  rw [hbytes, hread'] at hread
  exact (Except.ok.inj hread).symm

/-- An empty directory. -/
lemma holds_blank : store.Holds (fun _ => .flushed none) fun _ => .flushed none where
  files _ _ := (Slot.map_flushed _ none).symm
  storable _ _ h := absurd (Set.mem_singleton_iff.mp h) (Option.some_ne_none _)

/-- A directory with one record. -/
lemma holds_single (h : store.Storable name record) :
    store.Holds
      (Function.update (fun _ => .flushed none) name (.flushed (some (recordBytes store.crates record))))
      (Function.update (fun _ => .flushed none) name (.flushed (some record))) where
  files := by
    have hencodes := (@holds_blank store).files.update (k := name) (.flushed (some record))
    rwa [Slot.map_flushed] at hencodes
  storable := holds_blank.storable.flushed fun r hr => Option.mem_some_iff.mp hr ▸ h

/-! ## Steps -/

/-- A change of a file by the bytes of a record that it can hold, or a removal. -/
lemma Holds.becomes (h : store.Holds d ledger) (hc : ∀ record ∈ c, store.Storable name record)
    {slot : Slot (List UInt8)} (hslot : store.Becomes (d name) c slot) :
    ∃ ledger', store.Holds (Function.update d name slot) ledger' ∧
      (ledger' name).content = c ∧ ∀ other ≠ name, ledger' other = ledger other := by
  cases hslot with
  | flushed =>
      refine ⟨Function.update ledger name (.flushed c), ⟨?_, h.storable.flushed hc⟩,
        by simp, fun other hother => Function.update_of_ne hother _ _⟩
      rw [← Slot.map_flushed]
      exact h.files.update _
  | marked =>
      refine ⟨Function.update ledger name ((ledger name).mark c),
        ⟨?_, h.storable.mark hc⟩, by simp, fun other hother => Function.update_of_ne hother _ _⟩
      by_cases hname : JournalFile name
      · rw [h.files name hname, ← Slot.map_mark]
        exact h.files.update _
      · exact fun k hk => by
          have hne : k ≠ name := fun heq => hname (heq ▸ hk)
          rw [Function.update_of_ne hne, Function.update_of_ne hne]
          exact h.files k hk

/-- A step leaves the files in `mine` as they are, but for flushing them. -/
structure Keeps (mine : Set FileName) (ledger ledger' : Ledger) : Prop where
  content : ∀ name ∈ mine, JournalFile name → (ledger' name).content = (ledger name).content
  flushed : ∀ name ∈ mine, JournalFile name → ∀ content, ledger name = .flushed content →
    ledger' name = .flushed content

lemma Keeps.refl : Keeps mine ledger ledger := ⟨fun _ _ _ => rfl, fun _ _ _ _ h => h⟩

lemma Keeps.trans {ledger' ledger'' : Ledger} (h : Keeps mine ledger ledger')
    (h' : Keeps mine ledger' ledger'') : Keeps mine ledger ledger'' where
  content name hmine hname := (h'.content name hmine hname).trans (h.content name hmine hname)
  flushed name hmine hname content hl :=
    h'.flushed name hmine hname content (h.flushed name hmine hname content hl)

/-- A party that works properly keeps the directory in order. -/
lemma Holds.proper (h : store.Holds d ledger) (hd : store.Proper mine d d') :
    ∃ ledger', store.Holds d' ledger' ∧ Keeps mine ledger ledger' := by
  cases hd with
  | @changes name content slot hname hcontent hslot =>
      obtain ⟨ledger', hholds, -, hother⟩ := h.becomes hcontent hslot
      have hkept : ∀ other ∈ mine, ledger' other = ledger other :=
        fun other hother' => hother other fun heq => hname (heq ▸ hother')
      exact ⟨ledger', hholds, fun other hmine _ => by rw [hkept other hmine],
        fun other hmine _ content hl => (hkept other hmine).trans hl⟩
  | unrelated slot hname => exact ⟨ledger, ⟨h.files.elsewhere hname, h.storable⟩, Keeps.refl⟩
  | flushes =>
      refine ⟨fun name => (ledger name).flush, ⟨h.files.flush, h.storable.flush⟩, fun _ _ _ => rfl, ?_⟩
      intro name _ _ content hl
      show (ledger name).flush = _
      rw [hl, Slot.flush_flushed]

/-- A power failure takes back at most what was not flushed. -/
lemma Holds.outage (h : store.Holds d ledger) (hd : Outage d d') :
    ∃ ledger', store.Holds d' ledger' ∧ Outage ledger ledger' := by
  obtain ⟨ledger', hout, hfiles⟩ := h.files.outage hd
  exact ⟨ledger', ⟨hfiles, h.storable.outage hout⟩, hout⟩

lemma outage_flushed {ledger' : Ledger} (h : Outage ledger ledger')
    (hl : ledger name = .flushed c) : ledger' name = .flushed c := by
  obtain ⟨content', hkept, hl'⟩ := h name
  rw [hl] at hkept
  rw [hl', Set.mem_singleton_iff.mp hkept]

/-! ## Runs -/

lemma Holds.others (h : store.Holds d ledger) (hd : (store.others mine).rel d d') :
    ∃ ledger', store.Holds d' ledger' ∧ Keeps mine ledger ledger' := by
  induction hd with
  | refl => exact ⟨ledger, h, Keeps.refl⟩
  | tail _ hstep ih =>
      obtain ⟨ledger', h', hkeeps⟩ := ih
      obtain ⟨ledger'', h'', hkeeps'⟩ := h'.proper hstep
      exact ⟨ledger'', h'', hkeeps.trans hkeeps'⟩

/-- What is flushed in a file that is left alone is found as long as the machine lives. -/
lemma Holds.life (h : store.Holds d ledger) (hmine : name ∈ mine) (hname : JournalFile name)
    (hl : ledger name = .flushed c) (hd : Relation.ReflTransGen (store.Life mine) d d') :
    ∃ ledger', store.Holds d' ledger' ∧ ledger' name = .flushed c := by
  induction hd with
  | refl => exact ⟨ledger, h, hl⟩
  | tail _ hstep ih =>
      obtain ⟨ledger', h', hl'⟩ := ih
      cases hstep with
      | proper hstep =>
          obtain ⟨ledger'', h'', hkeeps⟩ := h'.proper hstep
          exact ⟨ledger'', h'', hkeeps.flushed name hmine hname c hl'⟩
      | outage hstep =>
          obtain ⟨ledger'', h'', hout⟩ := h'.outage hstep
          exact ⟨ledger'', h'', outage_flushed hout hl'⟩

end JournalStore

end Osdns.Journal
