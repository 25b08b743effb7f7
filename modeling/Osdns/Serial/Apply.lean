import Osdns.Serial.Elsewhere
import Osdns.Serial.Transitions

/-!
# The apply transaction on one resource

`transactWithLocks` seen from the cell of one resource `r`.  The lease is new and named after its
session, so before its first mutation nothing on `r` mentions it.  Each loop of the transaction
is followed until it reaches the entry of `r`, if there is one; the entries of other resources
are interference.
-/

namespace Osdns

open Interaction
open Interaction.Fallible (ask value attempt)
open Engine

variable {r : ResourceId} {c c₀ d : Cell}
variable {F : Faults} {i : SessionId} {m : ManagerId} {caps : Capabilities} {α β : Type}
variable {record : FakeRecord} {records : List FakeRecord} {plan : NormalizedConfig}

/-- Sequencing after a program that works on another resource. -/
lemma sat_other {r' : ResourceId} {p : Engine FakeSnapshotData FakeIdentity α}
    {k : α → Engine FakeSnapshotData FakeIdentity β} {Q : β → Cell → Prop} (hp : EngineOn r' p)
    (hne : r' ≠ r) (hinv : CellInv r c)
    (hk : ∀ a d, Interference c d → EngineSat F i m r (k a) Q d) :
    EngineSat F i m r (p >>= k) Q c :=
  sat_bind (hp.sat hne hinv) hk

lemma sat_value_other {r' : ResourceId} {p : Engine FakeSnapshotData FakeIdentity α}
    {k : α → EngineResult FakeSnapshotData FakeIdentity β} {Q : Except Error β → Cell → Prop}
    (hp : EngineOn r' p) (hne : r' ≠ r) (hinv : CellInv r c)
    (hk : ∀ a d, Interference c d → EngineSat F i m r (k a).run Q d) :
    EngineSat F i m r (value p >>= k).run Q c :=
  Fallible.sat_value (hp.sat hne hinv) hk

/-! ## What a transaction leaves -/

/-- A record of a new lease that is journaled and has no live record yet. -/
structure Journaled (r : ResourceId) (i : SessionId) (record : FakeRecord) (c₀ c : Cell) :
    Prop where
  inv : CellInv r c
  frame : Framed c₀ c
  live : c.live i = none
  journal : c.record i = some record
  confirmed : c.confirmed i = some record

namespace Journaled

lemma stable : Stable interference (Journaled r i record c₀) := fun h hc =>
  ⟨CellInv.stable h hc.inv, Framed.stable h hc.frame, by rw [h.live, hc.live],
    by rw [h.record, hc.journal], by rw [h.confirmed, hc.confirmed]⟩

lemma closed (h : Journaled r i record c₀ c) : Closed r c₀ c :=
  ⟨h.inv, h.frame.lock, h.frame.active⟩

lemma recordOK (h : Journaled r i record c₀ c) : RecordOK r i record c :=
  h.inv.records i record h.journal

lemma kept (h : Journaled r i record c₀ c) : Kept i c := .inr (by rw [h.journal]; rfl)

/-- The start of a mutation for a journaled record. -/
lemma working (h : Journaled r i record c₀ c) :
    Working r i i record.before.data.state c c where
  inv := h.inv
  backed := ⟨fun ho => (h.recordOK.base ho).symm, fun record' hrec => by
    obtain rfl := Option.some.inj (h.journal.symm.trans hrec)
    rfl⟩
  unblocked _ live _ hl := absurd (h.live.symm.trans hl) (by simp)
  known := .inl rfl
  memory := .refl c
  later := le_rfl
  issued _ hp := hp
  moved := .inl (.refl c)
  fresh _ _ h := h

/-- A mutation leaves the record journaled. -/
lemma mutated {b : FakeState} (h : Journaled r i record c₀ c) (hw : Working r i i b c d) :
    Journaled r i record c₀ d :=
  ⟨hw.inv, h.frame.trans hw.memory.framed, by rw [hw.memory.live, h.live],
    by rw [hw.memory.record, h.journal], by rw [hw.memory.confirmed, h.confirmed]⟩

/-- Writing another version of the record closes the transaction. -/
lemma sat_rewrite {k : Except Error Unit → Engine FakeSnapshotData FakeIdentity α}
    {Q : α → Cell → Prop} {evidence : Option FakeSnapshot} (h : Journaled r i record c₀ c)
    (he : ∀ p, evidence = some p → Issued r i record.before.data.state p c)
    (hk : ∀ d answer, Closed r c₀ d → EngineSat F i m r (k answer) Q d) :
    EngineSat F i m r (journalWrite { record with applied := evidence } >>= k) Q c := by
  have hr := h.recordOK
  refine sat_journalWrite h.inv
    ⟨hr.lease, hr.resource, hr.identity, hr.before, hr.before_le, hr.base, he⟩ (.inl rfl)
    fun d answer _ hw => hk d answer ?_
  exact ⟨hw.inv, hw.frame.lock.trans h.frame.lock, hw.frame.active.trans h.frame.active⟩

/-- Removing the record closes the transaction. -/
lemma sat_remove {k : Except Error Unit → Engine FakeSnapshotData FakeIdentity α}
    {Q : α → Cell → Prop} (h : Closed r c₀ c) (hon : record.On r i)
    (hs : Ours i c → c.state = some c.base)
    (hk : ∀ d answer, Closed r c₀ d → Shift c d → EngineSat F i m r (k answer) Q d) :
    EngineSat F i m r (journalRemove record.leaseId record.resource .settled >>= k) Q c := by
  rw [hon.lease]
  refine sat_journalRemove hon.resource h.inv (.inl rfl) (fun _ => hs) fun d answer _ hd => ?_
  exact hk d answer ⟨hd.inv, hd.lock.trans h.lock, hd.active.trans h.active⟩ hd.shift

end Journaled

/-! ## Publication of the initial records -/

/-- What holds of the records of an apply: those of `r` are `record`. -/
def Entries (r : ResourceId) (i : SessionId) (record : FakeRecord) (records : List FakeRecord) :
    Prop :=
  ∀ x ∈ records, x.On x.resource i ∧ (x.resource = r → x = record)

lemma Entries.tail {x : FakeRecord} (h : Entries r i record (x :: records)) :
    Entries r i record records := fun y hy => h y (List.mem_cons_of_mem x hy)

/-- Records of resources without a native effect are removed. -/
lemma sat_removeRecords (hon : Entries r i record records) (h : Closed r c₀ c)
    (hn : (∃ x ∈ records, x.resource = r) → ¬ Ours i c) :
    EngineSat F i m r (removeRecords records) (fun _ => Closed r c₀) c := by
  induction records generalizing c with
  | nil => exact sat_pure Closed.stable h
  | cons x records ih =>
      have hx := (hon x (List.mem_cons_self ..)).1
      have hrest : ∀ {d : Cell}, Shift c d → (∃ x ∈ records, x.resource = r) → ¬ Ours i d :=
        fun hd he ho => hn (he.imp fun y hy => ⟨List.mem_cons_of_mem x hy.1, hy.2⟩) (hd.ours ho)
      have hnext : ∀ {d : Cell}, Closed r c₀ d → Shift c d →
          EngineSat F i m r (removeRecords records) (fun _ => Closed r c₀) d :=
        fun hd hs => ih hon.tail hd (hrest hs)
      by_cases hr : x.resource = r
      · refine Journaled.sat_remove h (hr ▸ hx)
          (fun ho => absurd ho (hn ⟨x, List.mem_cons_self .., hr⟩)) fun d answer hd hs => ?_
        cases answer with
        | ok _ => exact hnext hd hs
        | error error => exact sat_bind (hnext hd hs) fun _ _ h => sat_pure Closed.stable h
      · refine sat_other (engineOn_journalRemove _ _) hr h.inv fun answer d hd => ?_
        have hclosed := Closed.stable hd h
        cases answer with
        | ok _ => exact hnext hclosed hd.shift
        | error error =>
            exact sat_bind (hnext hclosed hd.shift) fun _ _ h => sat_pure Closed.stable h

/-- A resource on which a new lease has neither memory nor a native effect. -/
structure Unmutated (r : ResourceId) (i : SessionId) (c₀ c : Cell) : Prop where
  inv : CellInv r c
  frame : Framed c₀ c
  live : c.live i = none
  free : ¬ Ours i c

lemma Unmutated.stable : Stable interference (Unmutated r i c₀) := fun h hc =>
  ⟨CellInv.stable h hc.inv, Framed.stable h hc.frame, by rw [h.live, hc.live],
    not_ours_stable h hc.free⟩

lemma Unmutated.closed (h : Unmutated r i c₀ c) : Closed r c₀ c :=
  ⟨h.inv, h.frame.lock, h.frame.active⟩

/-- Some record of the list is of `r`. -/
def Includes (r : ResourceId) (records : List FakeRecord) : Prop := ∃ x ∈ records, x.resource = r

/-- The record of `r` is durable, if the list has one. -/
def Durable (r : ResourceId) (i : SessionId) (record : FakeRecord) (records : List FakeRecord)
    (c : Cell) : Prop :=
  Includes r records → c.record i = some record ∧ c.confirmed i = some record

lemma Durable.stable : Stable interference (Durable r i record records) := fun h hc hr => by
  rw [h.record, h.confirmed]
  exact hc hr

/-- What publishing the initial records leaves. -/
def Published (r : ResourceId) (i : SessionId) (record : FakeRecord) (records : List FakeRecord)
    (c₀ : Cell) (answer : Except Error Unit) (c : Cell) : Prop :=
  match answer with
  | .ok _ => Unmutated r i c₀ c ∧ Durable r i record records c
  | .error _ => Closed r c₀ c

lemma Published.stable {answer : Except Error Unit} :
    Stable interference (Published r i record records c₀ answer) := fun h hc => by
  cases answer with
  | ok _ => exact ⟨Unmutated.stable h hc.1, Durable.stable h hc.2⟩
  | error _ => exact Closed.stable h hc

lemma sat_persistUnmutatedFrom {written : List FakeRecord}
    (hon : Entries r i record (written ++ records)) (h : Unmutated r i c₀ c)
    (hrec : Includes r (written ++ records) → RecordOK r i record c)
    (hw : Durable r i record written c) :
    EngineSat F i m r (persistUnmutatedFrom written records).run
      (Published r i record (written ++ records) c₀) c := by
  induction records generalizing written c with
  | nil =>
      rw [List.append_nil]
      exact sat_pure Published.stable ⟨h, hw⟩
  | cons x records ih =>
      have hassoc : written ++ x :: records = (written ++ [x]) ++ records := by simp
      have hmem : x ∈ written ++ x :: records := by simp
      have hprefix : Entries r i record (written ++ [x]) := fun y hy => hon y (by
        rw [hassoc]
        exact List.mem_append_left _ hy)
      -- A failed write withdraws what was published so far.
      have hfail : ∀ {d : Cell} (error : Error), Closed r c₀ d → ¬ Ours i d →
          EngineSat F i m r (do
            let cleanup ← value (removeRecords (written ++ [x]))
            throw (transactionError error cleanup) :
              EngineResult FakeSnapshotData FakeIdentity Unit).run
            (Published r i record (written ++ x :: records) c₀) d := fun error hd ho =>
        Fallible.sat_value (sat_removeRecords hprefix hd fun _ => ho) fun _ _ h =>
          sat_pure Published.stable h
      by_cases hr : x.resource = r
      · obtain rfl : x = record := (hon x hmem).2 hr
        refine sat_journalWrite h.inv (hrec ⟨x, hmem, hr⟩) (.inl rfl) fun d answer _ hd => ?_
        have hud : Unmutated r i c₀ d :=
          ⟨hd.inv, h.frame.trans hd.frame, by rw [hd.live, h.live],
            fun ho => h.free (hd.shift.ours ho)⟩
        match answer with
        | .error error => exact hfail error hud.closed hud.free
        | .ok _ =>
            rw [hassoc]
            refine ih (hassoc ▸ hon) hud (fun hi => ?_) fun _ => ?_
            · exact (hrec (hassoc.symm ▸ hi)).shift hd.shift
            · exact ⟨hd.journal.resolve_right fun hn => hn.1 rfl, hd.confirmed rfl⟩
      · refine sat_value_other (engineOn_journalWrite rfl) hr h.inv fun answer d hd => ?_
        have hud := Unmutated.stable hd h
        match answer with
        | .error error => exact hfail error hud.closed hud.free
        | .ok _ =>
            rw [hassoc]
            refine ih (hassoc ▸ hon) hud (fun hi => ?_) ?_
            · exact RecordOK.stable hd (hrec (hassoc.symm ▸ hi))
            · rintro ⟨y, hy, hyr⟩
              rcases List.mem_append.mp hy with hy | hy
              · exact Durable.stable hd hw ⟨y, hy, hyr⟩
              · obtain rfl := List.mem_singleton.mp hy
                exact absurd hyr hr

/-! ## Rollback of an apply -/

/-- The record of `r` after its mutation. -/
structure Done (r : ResourceId) (i : SessionId) (record : FakeRecord) (c₀ : Cell)
    (mutation : VerifiedMutation FakeSnapshotData) (c : Cell) : Prop where
  journaled : Journaled r i record c₀ c
  expresses : Expresses r i record.before.data.state record.desired mutation.persist c

lemma Done.stable {mutation : VerifiedMutation FakeSnapshotData} :
    Stable interference (Done r i record c₀ mutation) := fun h hc =>
  ⟨Journaled.stable h hc.journaled, Expresses.stable h hc.expresses⟩

/-- The mutations made so far: those of `r` are of `record`. -/
def Mutations (r : ResourceId) (i : SessionId) (record : FakeRecord) (c₀ : Cell)
    (applied : List (FakeRecord × VerifiedMutation FakeSnapshotData)) (c : Cell) : Prop :=
  ∀ x ∈ applied, x.1.On x.1.resource i ∧
    (x.1.resource = r → x.1 = record ∧ Done r i record c₀ x.2 c)

lemma Mutations.stable {applied : List (FakeRecord × VerifiedMutation FakeSnapshotData)} :
    Stable interference (Mutations r i record c₀ applied) := fun h hc x hx =>
  ⟨(hc x hx).1, fun hr => ⟨((hc x hx).2 hr).1, Done.stable h ((hc x hx).2 hr).2⟩⟩

lemma Mutations.tail {x : FakeRecord × VerifiedMutation FakeSnapshotData}
    {applied : List (FakeRecord × VerifiedMutation FakeSnapshotData)}
    (h : Mutations r i record c₀ (x :: applied) c) : Mutations r i record c₀ applied c :=
  fun y hy => h y (List.mem_cons_of_mem x hy)

/-- `rollbackApplied` on the mutated resource. -/
lemma sat_rollbackApplied {mutation : VerifiedMutation FakeSnapshotData}
    (h : Done r i record c₀ mutation c) :
    EngineSat F i m r (rollbackApplied (fakeBackend caps) record mutation)
      (fun _ => Closed r c₀) c := by
  have hj := h.journaled
  have hr := hj.recordOK
  have hp : RollbackOK r i record.before.data.state ⟨some mutation.persist, record.before⟩ c :=
    ⟨⟨hr.before, hr.before_le, fun _ => .inr rfl⟩, fun p hp => by
      obtain rfl := Option.some.inj hp
      exact ⟨h.expresses.issued, h.expresses.names⟩, fun hn => absurd hn (by simp)⟩
  obtain rfl := hr.lease
  unfold rollbackApplied
  refine sat_bind (sat_rollbackProven hr.identity hj.working hj.kept hp) fun residue d hd => ?_
  obtain ⟨hw, hres, hne⟩ := hd
  have hjd := hj.mutated hw
  match residue with
  | .unchanged => exact absurd rfl hne
  | .restored identity =>
      refine Journaled.sat_remove hjd.closed hr.on (fun ho => ?_) fun e answer he _ => ?_
      · rw [Settled.state hres ho, hjd.recordOK.base ho]
      · match answer with
        | .ok _ => exact sat_pure Closed.stable he
        | .error error => exact sat_pure Closed.stable he
  | .pending pending =>
      obtain ⟨hpe, -⟩ := hres
      refine hjd.sat_rewrite (fun p hp => (hpe.evidence p hp).1) fun e answer he => ?_
      match answer with
      | .ok _ => exact sat_pure Closed.stable he
      | .error error => exact sat_pure Closed.stable he

section Failure

variable {applied : List (FakeRecord × VerifiedMutation FakeSnapshotData)}

lemma engineOn_rollbackApplied {mutation : VerifiedMutation FakeSnapshotData}
    (h : record.On r i) : EngineOn r (rollbackApplied (fakeBackend caps) record mutation) :=
  EngineFor.on (engineFor_rollbackApplied (h.for rfl))

lemma engineOn_settleFailed {residue : MutationResidue FakeSnapshotData} (h : record.On r i) :
    EngineOn r (settleFailed (fakeBackend caps) record residue) :=
  EngineFor.on (engineFor_settleFailed (h.for rfl))

lemma away_rollbackAllApplied (hon : ∀ x ∈ applied, x.1.On x.1.resource i ∧ x.1.resource ≠ r) :
    EngineAway r (rollbackAllApplied (fakeBackend caps) applied) :=
  (engineFor_rollbackAllApplied (R := (· ≠ r)) fun x hx => (hon x hx).1.for (hon x hx).2).away
    fun h => h rfl

lemma sat_rollbackAllApplied (h : Closed r c₀ c) (hm : Mutations r i record c₀ applied c)
    (hnodup : (applied.map (·.1.resource)).Nodup) :
    EngineSat F i m r (rollbackAllApplied (fakeBackend caps) applied) (fun _ => Closed r c₀) c := by
  induction applied generalizing c with
  | nil => exact sat_pure Closed.stable h
  | cons x rest ih =>
      obtain ⟨hx, hrec⟩ := hm x (List.mem_cons_self ..)
      rw [List.map_cons, List.nodup_cons] at hnodup
      by_cases hr : x.1.resource = r
      · obtain ⟨rfl, hdone⟩ := hrec hr
        have hne : ∀ y ∈ rest, y.1.On y.1.resource i ∧ y.1.resource ≠ r := fun y hy =>
          ⟨(hm y (List.mem_cons_of_mem x hy)).1, fun hyr => hnodup.1 (by
            rw [hr, ← hyr]
            exact List.mem_map_of_mem hy)⟩
        refine sat_bind (sat_rollbackApplied hdone) fun _ d hd => ?_
        refine sat_bind ((away_rollbackAllApplied hne).sat hd.inv) fun _ e he => ?_
        exact sat_pure Closed.stable (Closed.stable he hd)
      · refine sat_other (engineOn_rollbackApplied hx) hr h.inv fun _ d hd => ?_
        refine sat_bind (ih (Closed.stable hd h) (Mutations.stable hd hm.tail) hnodup.2)
          fun _ e he => ?_
        exact sat_pure Closed.stable he

/-- `settleFailed` on the resource whose mutation failed. -/
lemma sat_settleFailed {residue : MutationResidue FakeSnapshotData}
    (h : Journaled r i record c₀ c)
    (hres : Residue r i record.before.data.state record.before residue c) :
    EngineSat F i m r (settleFailed (fakeBackend caps) record residue) (fun _ => Closed r c₀) c := by
  have hr := h.recordOK
  unfold settleFailed
  split
  · rename_i pending
    refine h.sat_rewrite (fun p hp => (hres.1.evidence p hp).1) fun d answer hd => ?_
    match answer with
    | .ok _ => exact sat_pure Closed.stable hd
    | .error error => exact sat_pure Closed.stable hd
  · refine sat_readback hr.resource h.inv fun d answer hd hread => ?_
    have hjd := Journaled.stable hd h
    match answer with
    | .error error => exact sat_pure Closed.stable hjd.closed
    | .ok now =>
    dsimp only
    split
    · rename_i heq
      have hs := Cell.snapshot_eq_some (hread now rfl)
      rw [fakeBackend_equivalent hs.1 hr.before] at heq
      refine Journaled.sat_remove hjd.closed hr.on (fun ho => ?_) fun e answer he _ => ?_
      · rw [hs.2.1, heq, hjd.recordOK.base ho]
      · match answer with
        | .ok _ => exact sat_pure Closed.stable he
        | .error error => exact sat_pure Closed.stable he
    · exact sat_pure Closed.stable hjd.closed

/-! ## Mutation of the applied resources -/

/-- What the mutation loop of an apply leaves. -/
def AppliedAll (r : ResourceId) (i : SessionId) (record : FakeRecord) (c₀ : Cell)
    (all : List FakeRecord)
    (answer : Except Error (List (FakeRecord × VerifiedMutation FakeSnapshotData))) (c : Cell) :
    Prop :=
  match answer with
  | .ok applied => CellInv r c ∧ Framed c₀ c ∧ Mutations r i record c₀ applied c ∧
      applied.map Prod.fst = all
  | .error _ => Closed r c₀ c

lemma AppliedAll.stable {all : List FakeRecord}
    {answer : Except Error (List (FakeRecord × VerifiedMutation FakeSnapshotData))} :
    Stable interference (AppliedAll r i record c₀ all answer) := fun h hc => by
  cases answer with
  | ok applied => exact ⟨CellInv.stable h hc.1, Framed.stable h hc.2.1,
      Mutations.stable h hc.2.2.1, hc.2.2.2⟩
  | error error => exact Closed.stable h hc

/-- The records still to be mutated: that of `r` is journaled, and `r` untouched. -/
def Waiting (r : ResourceId) (i : SessionId) (record : FakeRecord) (c₀ : Cell)
    (records : List FakeRecord) (c : Cell) : Prop :=
  Includes r records → Journaled r i record c₀ c ∧ ¬ Ours i c

lemma Waiting.stable : Stable interference (Waiting r i record c₀ records) := fun h hc hr =>
  ⟨Journaled.stable h (hc hr).1, not_ours_stable h (hc hr).2⟩

lemma Waiting.tail {x : FakeRecord} (h : Waiting r i record c₀ (x :: records) c) :
    Waiting r i record c₀ records c :=
  fun ⟨y, hy, hyr⟩ => h ⟨y, List.mem_cons_of_mem x hy, hyr⟩

lemma sat_mutateApplied (hinv : CellInv r c) (hframe : Framed c₀ c)
    (hm : Mutations r i record c₀ applied c) (hon : Entries r i record records)
    (hwait : Waiting r i record c₀ records c) (hplan : ∀ x ∈ records, x.desired = plan)
    (hnodup : (applied.map (·.1.resource) ++ records.map (·.resource)).Nodup) :
    EngineSat F i m r (mutateApplied (fakeBackend caps) plan applied records).run
      (AppliedAll r i record c₀ (applied.map Prod.fst ++ records)) c := by
  induction records generalizing applied c with
  | nil =>
      rw [List.append_nil]
      exact sat_pure AppliedAll.stable ⟨hinv, hframe, hm, rfl⟩
  | cons x records ih =>
      obtain ⟨hx, hxr⟩ := hon x (List.mem_cons_self ..)
      obtain rfl := hplan x (List.mem_cons_self ..)
      have hnodup_applied : (applied.map (·.1.resource)).Nodup := (List.nodup_append.mp hnodup).1
      have hnext : ∀ mutation : VerifiedMutation FakeSnapshotData,
          (applied ++ [(x, mutation)]).map Prod.fst ++ records =
            applied.map Prod.fst ++ x :: records := fun mutation => by simp
      have hnodup' : ∀ mutation : VerifiedMutation FakeSnapshotData,
          ((applied ++ [(x, mutation)]).map (·.1.resource) ++ records.map (·.resource)).Nodup :=
        fun mutation => by simpa using hnodup
      by_cases hr : x.resource = r
      · obtain rfl := hxr hr
        have haway : ∀ y ∈ applied, y.1.On y.1.resource i ∧ y.1.resource ≠ r := fun y hy =>
          ⟨(hm y hy).1, fun hyr =>
            (List.disjoint_of_nodup_append hnodup) (List.mem_map_of_mem hy) (by simp [hyr, hr])⟩
        have hlater : ¬ Includes r records := fun ⟨y, hy, hyr⟩ => by
          have := (List.nodup_append.mp hnodup).2.1
          rw [List.map_cons, List.nodup_cons] at this
          exact this.1 (by rw [hr, ← hyr]; exact List.mem_map_of_mem hy)
        obtain ⟨hj, hno⟩ := hwait ⟨x, List.mem_cons_self .., hr⟩
        have hrec := hj.recordOK
        refine Fallible.sat_value (sat_mutateAndVerify hrec.identity hx.lease hj.working hj.kept
          ⟨hrec.before, hrec.before_le, fun _ => .inr rfl⟩ fun ho => absurd ho hno)
          fun answer d hd => ?_
        obtain ⟨hw, hanswer⟩ := hd
        have hjd := hj.mutated hw
        match answer with
        | .ok mutation =>
            rw [← hnext mutation]
            refine ih hjd.inv hjd.frame (fun y hy => ?_) hon.tail (fun hi => absurd hi hlater)
              (fun y hy => hplan y (List.mem_cons_of_mem x hy)) (hnodup' mutation)
            rcases List.mem_append.mp hy with hy | hy
            · exact ⟨(hm y hy).1, fun hyr => absurd hyr (haway y hy).2⟩
            · obtain rfl := List.mem_singleton.mp hy
              exact ⟨hx, fun _ => ⟨rfl, hjd, hanswer⟩⟩
        | .error failure =>
            refine Fallible.sat_value ((away_rollbackAllApplied haway).sat hjd.inv)
              fun _ e he => ?_
            refine Fallible.sat_value (sat_settleFailed (Journaled.stable he hjd)
              (Residue.stable he hanswer)) fun _ u hu => ?_
            refine Fallible.sat_value (sat_removeRecords hon.tail hu fun hi => absurd hi hlater)
              fun _ v hv => ?_
            exact sat_pure AppliedAll.stable hv
      · refine sat_value_other (engineOn_mutateAndVerify _ hx.identity) hr hinv
          fun answer d hd => ?_
        have hinvd := CellInv.stable hd hinv
        have hmd := Mutations.stable hd hm
        have hwd := Waiting.stable hd hwait.tail
        match answer with
        | .ok mutation =>
            rw [← hnext mutation]
            refine ih hinvd (Framed.stable hd hframe) (fun y hy => ?_) hon.tail hwd
              (fun y hy => hplan y (List.mem_cons_of_mem x hy)) (hnodup' mutation)
            rcases List.mem_append.mp hy with hy | hy
            · exact hmd y hy
            · obtain rfl := List.mem_singleton.mp hy
              exact ⟨hx, fun hyr => absurd hyr hr⟩
        | .error failure =>
            have hclosed : Closed r c₀ d :=
              have hf := Framed.stable hd hframe
              ⟨hinvd, hf.lock, hf.active⟩
            -- Either `r` was mutated already, or it still waits.
            by_cases hi : Includes r records
            · have haway : ∀ y ∈ applied, y.1.On y.1.resource i ∧ y.1.resource ≠ r := by
                refine fun y hy => ⟨(hm y hy).1, fun hyr => ?_⟩
                obtain ⟨z, hz, hzr⟩ := hi
                refine (List.disjoint_of_nodup_append hnodup) (List.mem_map_of_mem hy) ?_
                rw [hyr, ← hzr]
                exact List.mem_map_of_mem (List.mem_cons_of_mem x hz)
              refine Fallible.sat_value ((away_rollbackAllApplied haway).sat hinvd)
                fun _ e he => ?_
              refine sat_value_other (engineOn_settleFailed hx) hr (CellInv.stable he hinvd)
                fun _ u hu => ?_
              replace hu := interference.trans he hu
              refine Fallible.sat_value (sat_removeRecords hon.tail (Closed.stable hu hclosed)
                fun hi => not_ours_stable hu (hwd hi).2) fun _ v hv => ?_
              exact sat_pure AppliedAll.stable hv
            · refine Fallible.sat_value (sat_rollbackAllApplied hclosed hmd hnodup_applied)
                fun _ e he => ?_
              refine sat_value_other (engineOn_settleFailed hx) hr he.inv fun _ u hu => ?_
              refine Fallible.sat_value (sat_removeRecords hon.tail (Closed.stable hu he)
                fun hi' => absurd hi' hi) fun _ v hv => ?_
              exact sat_pure AppliedAll.stable hv

end Failure

/-! ## Creation of the live records -/

section Creation

variable {applied : List (FakeRecord × VerifiedMutation FakeSnapshotData)}

/-- A live record exists for `r`, if `r` is concerned. -/
def Created (r : ResourceId) (i : SessionId) (c₀ : Cell) (concerned : Prop) (c : Cell) : Prop :=
  CellInv r c ∧ Framed c₀ c ∧ (concerned → ∃ live, Holding r i c₀ live c)

lemma Created.stable {concerned : Prop} : Stable interference (Created r i c₀ concerned) :=
  fun h hc => ⟨CellInv.stable h hc.1, Framed.stable h hc.2.1, fun hr =>
    (hc.2.2 hr).imp fun _ hl => Holding.stable h hl⟩

/-- What `createLive` makes of a journaled record. -/
lemma sat_createLive {k : Unit → Engine FakeSnapshotData FakeIdentity α} {Q : α → Cell → Prop}
    {state : FakeLiveState} (h : Journaled r i record c₀ c) (hstate : state.On r i)
    (hk : ∀ d, Journaled r i record c₀ d → Interference c d →
      EngineSat F i m r (k ()) Q (d.setLive i ⟨record, state⟩)) :
    EngineSat F i m r (createLive record state >>= k) Q c := by
  have hr := h.recordOK
  refine sat_liveSet (by rw [hr.lease, hr.resource]) h.inv ⟨hr.on, hstate⟩ (.inl rfl)
    (.inl fun old hold => absurd (h.live.symm.trans hold) (by simp)) fun d hd => ?_
  exact hk d (Journaled.stable hd h) hd

/-- A journaled record makes a live record in any state that fits. -/
lemma Journaled.liveOK {state : FakeLiveState} (h : Journaled r i record c₀ c)
    (hs : StateOK r i record state c) : LiveOK r i ⟨record, state⟩ c where
  record := h.recordOK
  state := hs
  logged := h.kept.logged
  same _ record' hrec := by
    obtain rfl := Option.some.inj (h.journal.symm.trans hrec)
    rfl
  agree _ _ := h.confirmed

lemma away_createCommitted (hne : ¬ Includes r records) :
    EngineAway r (createCommitted records : Engine FakeSnapshotData FakeIdentity Unit) :=
  (engineFor_createCommitted (L := 0) (R := (· ≠ r)) fun x hx hr => hne ⟨x, hx, hr⟩).away
    fun h => h rfl

/-- The live records of an apply that had nothing to change. -/
lemma sat_createCommitted (hinv : CellInv r c) (hframe : Framed c₀ c)
    (hon : Entries r i record records) (hwait : Waiting r i record c₀ records c)
    (hstate : ∀ d, Includes r records → Journaled r i record c₀ d → ¬ Ours i d →
      StateOK r i record .committed d)
    (hnodup : (records.map (·.resource)).Nodup) :
    EngineSat F i m r (createCommitted records)
      (fun _ => Created r i c₀ (Includes r records)) c := by
  induction records generalizing c with
  | nil => exact sat_pure Created.stable ⟨hinv, hframe, fun ⟨_, h, _⟩ => absurd h (by simp)⟩
  | cons x records ih =>
      obtain ⟨hx, hxr⟩ := hon x (List.mem_cons_self ..)
      rw [List.map_cons, List.nodup_cons] at hnodup
      by_cases hr : x.resource = r
      · obtain rfl := hxr hr
        have hi : Includes r (x :: records) := ⟨x, List.mem_cons_self .., hr⟩
        obtain ⟨hj, hno⟩ := hwait hi
        have hlater : ¬ Includes r records := fun ⟨y, hy, hyr⟩ => hnodup.1 (by
          rw [hr, ← hyr]
          exact List.mem_map_of_mem hy)
        refine sat_createLive hj trivial fun d hd hcd => ?_
        have hok := hd.liveOK (hstate d hi hd (not_ours_stable hcd hno))
        have hh : Holding r i c₀ ⟨x, .committed⟩ (d.setLive i ⟨x, .committed⟩) :=
          .setLive hd.inv hok hd.frame
        refine ((away_createCommitted hlater).sat hh.inv).mono fun _ e he => ?_
        have hhe := Holding.stable he hh
        exact ⟨hhe.inv, hhe.frame, fun _ => ⟨_, hhe⟩⟩
      · refine sat_other (engineOn_liveSet _) hr hinv fun _ d hd => ?_
        refine (ih (CellInv.stable hd hinv) (Framed.stable hd hframe) hon.tail
          (Waiting.stable hd hwait.tail) (fun e hi => hstate e ?_) hnodup.2).mono
          fun _ e he => ⟨he.1, he.2.1, fun ⟨y, hy, hyr⟩ => he.2.2 ?_⟩
        · obtain ⟨y, hy, hyr⟩ := hi
          exact ⟨y, List.mem_cons_of_mem x hy, hyr⟩
        · rcases List.mem_cons.mp hy with rfl | hy
          · exact absurd hyr hr
          · exact ⟨y, hy, hyr⟩

/-- A live record in preparation whose mutation is verified. -/
structure Verifiable (r : ResourceId) (i : SessionId) (record : FakeRecord) (c₀ : Cell)
    (mutation : VerifiedMutation FakeSnapshotData) (c : Cell) : Prop where
  inv : CellInv r c
  frame : Framed c₀ c
  live : c.live i = some ⟨record, .prepared⟩
  ok : LiveOK r i ⟨record, .verified mutation⟩ c

lemma Verifiable.stable {mutation : VerifiedMutation FakeSnapshotData} :
    Stable interference (Verifiable r i record c₀ mutation) := fun h hc =>
  ⟨CellInv.stable h hc.inv, Framed.stable h hc.frame, by rw [h.live, hc.live],
    LiveOK.stable h hc.ok⟩

/-- The live records to commit: that of `r` is verifiable. -/
def Committable (r : ResourceId) (i : SessionId) (record : FakeRecord) (c₀ : Cell)
    (applied : List (FakeRecord × VerifiedMutation FakeSnapshotData)) (c : Cell) : Prop :=
  ∀ x ∈ applied, x.1.On x.1.resource i ∧
    (x.1.resource = r → x.1 = record ∧ Verifiable r i record c₀ x.2 c)

lemma Committable.stable : Stable interference (Committable r i record c₀ applied) :=
  fun h hc x hx => ⟨(hc x hx).1, fun hr =>
    ⟨((hc x hx).2 hr).1, Verifiable.stable h ((hc x hx).2 hr).2⟩⟩

lemma away_createPrepared (hne : ∀ x ∈ applied, x.1.resource ≠ r) :
    EngineAway r (createPrepared applied : Engine FakeSnapshotData FakeIdentity Unit) :=
  (engineFor_createPrepared (L := 0) (R := (· ≠ r)) hne).away fun h => h rfl

lemma sat_createPrepared (hinv : CellInv r c) (hframe : Framed c₀ c)
    (hm : Mutations r i record c₀ applied c) (hnodup : (applied.map (·.1.resource)).Nodup) :
    EngineSat F i m r (createPrepared applied)
      (fun _ d => CellInv r d ∧ Framed c₀ d ∧ Committable r i record c₀ applied d) c := by
  have hstable : ∀ applied, Stable interference fun d =>
      CellInv r d ∧ Framed c₀ d ∧ Committable r i record c₀ applied d := fun applied _ _ h hc =>
    ⟨CellInv.stable h hc.1, Framed.stable h hc.2.1, Committable.stable h hc.2.2⟩
  induction applied generalizing c with
  | nil => exact sat_pure (hstable []) ⟨hinv, hframe, fun x hx => absurd hx (by simp)⟩
  | cons x rest ih =>
      obtain ⟨hx, hrec⟩ := hm x (List.mem_cons_self ..)
      rw [List.map_cons, List.nodup_cons] at hnodup
      by_cases hr : x.1.resource = r
      · obtain ⟨hxr, hdone⟩ := hrec hr
        have hne : ∀ y ∈ rest, y.1.resource ≠ r := fun y hy hyr => hnodup.1 (by
          rw [hr, ← hyr]
          exact List.mem_map_of_mem hy)
        unfold createPrepared
        rw [hxr]
        refine sat_createLive hdone.journaled trivial fun d hd hcd => ?_
        have hok : LiveOK r i ⟨record, .verified x.2⟩ (d.setLive i ⟨record, .prepared⟩) :=
          (hd.liveOK (show StateOK r i record (.verified x.2) d from
            Expresses.stable hcd hdone.expresses)).setLive
        have hv : Verifiable r i record c₀ x.2 (d.setLive i ⟨record, .prepared⟩) :=
          ⟨hd.inv.setLive ⟨hd.recordOK.on, trivial⟩, hd.frame.trans ⟨rfl, rfl, rfl⟩,
            by simp [Cell.setLive], hok⟩
        refine ((away_createPrepared hne).sat hv.inv).mono fun _ e he => ?_
        have hve := Verifiable.stable he hv
        refine ⟨hve.inv, hve.frame, fun y hy => ?_⟩
        rcases List.mem_cons.mp hy with rfl | hy
        · exact ⟨hx, fun _ => ⟨hxr, hve⟩⟩
        · exact ⟨(hm y (List.mem_cons_of_mem x hy)).1, fun hyr => absurd hyr (hne y hy)⟩
      · refine sat_other (engineOn_liveSet _) hr hinv fun _ d hd => ?_
        refine (ih (CellInv.stable hd hinv) (Framed.stable hd hframe)
          (Mutations.stable hd hm.tail) hnodup.2).mono fun _ e he => ⟨he.1, he.2.1, fun y hy => ?_⟩
        rcases List.mem_cons.mp hy with rfl | hy
        · exact ⟨hx, fun hyr => absurd hyr hr⟩
        · exact he.2.2 y hy

lemma away_commitAll (hne : ∀ x ∈ applied, x.1.resource ≠ r) :
    EngineAway r (commitAll (fakeBackend caps) applied) := by
  induction applied with
  | nil => trivial
  | cons x rest ih =>
      have hrest := ih fun y hy => hne y (List.mem_cons_of_mem x hy)
      refine Program.Only.bind ((engineOn_commitVerified _).away (hne x (List.mem_cons_self ..)))
        fun answer => ?_
      split
      · exact hrest
      · exact Program.Only.bind hrest fun _ => trivial

lemma sat_commitAll (hinv : CellInv r c) (hframe : Framed c₀ c)
    (hm : Committable r i record c₀ applied c) (hnodup : (applied.map (·.1.resource)).Nodup) :
    EngineSat F i m r (commitAll (fakeBackend caps) applied)
      (fun _ => Created r i c₀ (Includes r (applied.map Prod.fst))) c := by
  induction applied generalizing c with
  | nil => exact sat_pure Created.stable ⟨hinv, hframe, fun ⟨_, h, _⟩ => absurd h (by simp)⟩
  | cons x rest ih =>
      obtain ⟨hx, hrec⟩ := hm x (List.mem_cons_self ..)
      rw [List.map_cons, List.nodup_cons] at hnodup
      have hlast : ∀ {e : Cell} {concerned : Prop} (p : Engine FakeSnapshotData FakeIdentity Bool),
          EngineSat F i m r p (fun _ => Created r i c₀ concerned) e →
          EngineSat F i m r (p >>= fun _ => pure false) (fun _ => Created r i c₀ concerned) e :=
        fun p hp => sat_bind hp fun _ _ h => sat_pure Created.stable h
      by_cases hr : x.1.resource = r
      · obtain ⟨-, hv⟩ := hrec hr
        have hne : ∀ y ∈ rest, y.1.resource ≠ r := fun y hy hyr => hnodup.1 (by
          rw [hr, ← hyr]
          exact List.mem_map_of_mem hy)
        refine sat_bind (sat_commitVerified (by rw [hx.lease, hr]) hv.inv hv.frame hv.live hv.ok)
          fun answer d hd => ?_
        obtain ⟨live, hh, -⟩ := hd
        have hrest : EngineSat F i m r (commitAll (fakeBackend caps) rest)
            (fun _ => Created r i c₀ (Includes r ((x :: rest).map Prod.fst))) d :=
          ((away_commitAll hne).sat hh.inv).mono fun _ e he => by
            have hhe := Holding.stable he hh
            exact ⟨hhe.inv, hhe.frame, fun _ => ⟨_, hhe⟩⟩
        match answer with
        | .ok _ => exact hrest
        | .error error => exact hlast _ hrest
      · refine sat_other (engineOn_commitVerified _) hr hinv fun answer d hd => ?_
        have hrest : EngineSat F i m r (commitAll (fakeBackend caps) rest)
            (fun _ => Created r i c₀ (Includes r ((x :: rest).map Prod.fst))) d := by
          refine (ih (CellInv.stable hd hinv) (Framed.stable hd hframe)
            (fun y hy => Committable.stable hd hm y (List.mem_cons_of_mem x hy)) hnodup.2).mono
            fun _ e he => ⟨he.1, he.2.1, fun ⟨y, hy, hyr⟩ => he.2.2 ⟨y, ?_, hyr⟩⟩
          rcases List.mem_cons.mp hy with rfl | hy
          · exact absurd hyr hr
          · exact hy
        match answer with
        | .ok _ => exact hrest
        | .error error => exact hlast _ hrest

end Creation

/-! ## The transaction -/

section Transaction

variable {observations : List (ResourceId × BoundObservation FakeSnapshotData FakeIdentity)}

/-- The observations of an apply: each names its resource, and that of `r` was taken of `r`. -/
def Observed (r : ResourceId)
    (observations : List (ResourceId × BoundObservation FakeSnapshotData FakeIdentity))
    (c : Cell) : Prop :=
  ∀ x ∈ observations, x.2.identity.resource = x.1 ∧
    (x.1 = r → x.2.snapshot.Of r ∧ x.2.snapshot.data.generation ≤ c.generation)

lemma Observed.stable : Stable interference (Observed r observations) := fun h hc x hx =>
  ⟨(hc x hx).1, fun hr => ⟨((hc x hx).2 hr).1,
    ((hc x hx).2 hr).2.trans h.shift.generation_le⟩⟩

/-- What `transact_with_locks` leaves. -/
def Transacted (r : ResourceId) (i : SessionId) (c₀ : Cell) (resources : List ResourceId)
    (answer : Except Error PreparedLease) (c : Cell) : Prop :=
  match answer with
  | .ok prepared => prepared.leaseId = i ∧ prepared.resources = resources ∧
      Created r i c₀ (r ∈ resources) c
  | .error _ => Closed r c₀ c

lemma Transacted.stable {resources : List ResourceId} {answer : Except Error PreparedLease} :
    Stable interference (Transacted r i c₀ resources answer) := fun h hc => by
  cases answer with
  | ok prepared => exact ⟨hc.1, hc.2.1, Created.stable h hc.2.2⟩
  | error error => exact Closed.stable h hc

lemma sat_newLeaseId {k : LeaseId → Engine FakeSnapshotData FakeIdentity α} {Q : α → Cell → Prop}
    (hinv : CellInv r c) (hk : ∀ d, Interference c d → EngineSat F i m r (k i) Q d) :
    EngineSat F i m r (newLeaseId >>= k) Q c := by
  intro d hd answer e he
  obtain ⟨hed, -, ha⟩ := Cell.handler_elsewhere he (by simp [ManagerOp.target, EngineOp.target])
  obtain rfl : answer = i := ha
  have hde : Interference d e := hed ▸ d.interference_pending e.pending
  exact ⟨⟨CellInv.stable (interference.trans hd hde) hinv,
    hed ▸ d.accounted_pending _ e.pending⟩, hk e (interference.trans hd hde)⟩

/-- At most one record of the list is of `r`. -/
lemma exists_entry (r : ResourceId) (hnodup : (records.map (·.resource)).Nodup) :
    ∃ record : FakeRecord, ∀ x ∈ records, x.resource = r → x = record := by
  by_cases h : Includes r records
  · obtain ⟨y, hy, hyr⟩ := h
    exact ⟨y, fun x hx hxr => List.inj_on_of_nodup_map hnodup hx hy (hxr.trans hyr.symm)⟩
  · exact ⟨⟨"", 0, r, .fake, ⟨.fake, r, ⟨0⟩⟩, .prepared, ⟨.fake, r, ⟨.empty, 0⟩⟩, ⟨[], [], [], none⟩,
      none⟩, fun x hx hxr => absurd ⟨x, hx, hxr⟩ h⟩

lemma initialRecords_resource {owner : String} {lease : LeaseId} {wasNoop : Bool} :
    (initialRecords (fakeBackend caps) owner lease plan wasNoop observations).map (·.resource) =
      observations.map Prod.fst := by
  simp [initialRecords, Function.comp_def]

/-- A record an apply starts with. -/
lemma mem_initialRecords {owner : String} {lease : LeaseId} {wasNoop : Bool} {x : FakeRecord}
    (hx : x ∈ initialRecords (fakeBackend caps) owner lease plan wasNoop observations)
    (hobs : Observed r observations c) :
    x.On x.resource lease ∧ x.desired = plan ∧
      (wasNoop = true → x.phase = .applied ∧ x.applied = some x.before) ∧
      (wasNoop = false → x.applied = none) ∧
      (x.resource = r → x.before.Of r ∧ x.before.data.generation ≤ c.generation ∧
        ∃ y ∈ observations, y.2.snapshot = x.before) := by
  obtain ⟨y, hy, rfl⟩ := List.mem_map.mp hx
  obtain ⟨hyi, hyr⟩ := hobs y hy
  refine ⟨⟨rfl, rfl, hyi⟩, rfl, fun h => ?_, fun h => ?_, fun h => ⟨(hyr h).1, (hyr h).2, y, hy, rfl⟩⟩
  · subst h
    exact ⟨rfl, rfl⟩
  · subst h
    rfl

/-- `transact_with_locks` of a new lease. -/
lemma sat_transactWithLocks {owner : String} (hinv : CellInv r c) (hframe : Framed c₀ c)
    (hobs : Observed r observations c) (hnodup : (observations.map Prod.fst).Nodup)
    (hfresh : Fresh i c) :
    EngineSat F i m r (transactWithLocks (fakeBackend caps) owner plan observations).run
      (Transacted r i c₀ (observations.map Prod.fst)) c := by
  refine sat_newLeaseId hinv fun d hd => ?_
  dsimp only [ExceptT.bindCont]
  generalize hnoop : (observations.all fun entry =>
    (fakeBackend caps).matchesDesired entry.2.snapshot plan) = wasNoop
  have hmem := fun {x : FakeRecord}
    (hx : x ∈ initialRecords (fakeBackend caps) owner i plan wasNoop observations) =>
      mem_initialRecords hx (Observed.stable hd hobs)
  have hres : (initialRecords (fakeBackend caps) owner i plan wasNoop observations).map
      (·.resource) = observations.map Prod.fst := initialRecords_resource
  generalize initialRecords (fakeBackend caps) owner i plan wasNoop observations = records
    at hmem hres ⊢
  have hnodup' : (records.map (·.resource)).Nodup := hres ▸ hnodup
  obtain ⟨record, hunique⟩ := exists_entry r hnodup'
  have hon : Entries r i record records := fun x hx => ⟨(hmem hx).1, hunique x hx⟩
  have hincludes : r ∈ observations.map Prod.fst ↔ Includes r records := by
    rw [← hres, List.mem_map]
    rfl
  have hfd : Fresh i d := Fresh.stable hd hfresh
  have hun : Unmutated r i c₀ d :=
    ⟨CellInv.stable hd hinv, Framed.stable hd hframe, hfd.live, hfd.writer⟩
  have hrecord : Includes r records → RecordOK r i record d := by
    rintro ⟨x, hx, hxr⟩
    obtain rfl := hunique x hx hxr
    obtain ⟨hxon, -, happlied, hnone, hxr'⟩ := hmem hx
    obtain ⟨hof, hle, -⟩ := hxr' hxr
    refine ⟨hxon.lease, hxr, hxr ▸ hxon.identity, hof, hle,
      fun ho => absurd ho hfd.writer, fun p hp => ?_⟩
    cases hw : wasNoop with
    | true =>
        rw [(happlied hw).2, Option.some.injEq] at hp
        subst hp
        exact ⟨hof, hle, fun _ => .inr rfl⟩
    | false =>
        rw [hnone hw] at hp
        exact absurd hp (by simp)
  refine Fallible.sat_bind (sat_persistUnmutatedFrom hon hun hrecord
    fun ⟨_, h, _⟩ => absurd h (by simp)) (fun _ e he => ?_) fun _ e he => sat_pure Transacted.stable he
  obtain ⟨hue, hdurable⟩ := he
  have hwait : Waiting r i record c₀ records e := fun hi => by
    obtain ⟨hj, hc⟩ := hdurable hi
    exact ⟨⟨hue.inv, hue.frame, hue.live, hj, hc⟩, hue.free⟩
  have hdone : ∀ {u : Cell} (wasNoop : Bool), Created r i c₀ (Includes r records) u →
      Transacted r i c₀ (observations.map Prod.fst)
        (.ok ⟨i, records.map (·.resource), wasNoop⟩) u := fun wasNoop hu =>
    ⟨rfl, hres, hu.1, hu.2.1, fun hr => hu.2.2 (hincludes.mp hr)⟩
  cases wasNoop with
  | true =>
      refine sat_fire hue.inv fun u answer hu _ => ?_
      match answer with
      | .error error => exact sat_pure Transacted.stable (Closed.stable hu hue.closed)
      | .ok _ =>
      have hstate : ∀ v, Includes r records → Journaled r i record c₀ v → ¬ Ours i v →
          StateOK r i record .committed v := by
        rintro v ⟨x, hx, hxr⟩ hj hno
        obtain rfl := hunique x hx hxr
        obtain ⟨-, hplan, happlied, -, hxr'⟩ := hmem hx
        obtain ⟨hof, -, y, hy, hyx⟩ := hxr' hxr
        have hmatch := List.all_eq_true.mp hnoop y hy
        rw [hyx, fakeBackend_matchesDesired hof] at hmatch
        have hle := hj.recordOK.before_le
        exact ⟨(happlied rfl).1, x.before, (happlied rfl).2,
          ⟨hof, hle, fun _ => .inr rfl⟩, fun ho => absurd ho hno, hplan ▸ hmatch⟩
      refine Fallible.sat_value (sat_createCommitted (CellInv.stable hu hue.inv)
        (Framed.stable hu hue.frame) hon (Waiting.stable hu hwait) hstate hnodup') fun _ v hv => ?_
      exact sat_pure Transacted.stable (hdone true hv)
  | false =>
      refine sat_fire hue.inv fun u answer hu _ => ?_
      match answer with
      | .error error => exact sat_pure Transacted.stable (Closed.stable hu hue.closed)
      | .ok _ =>
      refine Fallible.sat_bind (sat_mutateApplied (CellInv.stable hu hue.inv)
        (Framed.stable hu hue.frame) (fun x hx => absurd hx (by simp)) hon
        (Waiting.stable hu hwait) (fun x hx => (hmem hx).2.1) hnodup') (fun applied v hv => ?_)
        fun _ v hv => sat_pure Transacted.stable hv
      obtain ⟨hinvv, hframev, hmv, hfst⟩ := hv
      rw [List.map_nil, List.nil_append] at hfst
      have hnodupv : (applied.map (·.1.resource)).Nodup := by
        rw [← hfst, List.map_map] at hnodup'
        exact hnodup'
      refine Fallible.sat_value (sat_createPrepared hinvv hframev hmv hnodupv) fun _ x hx => ?_
      refine Fallible.sat_value (sat_commitAll hx.1 hx.2.1 hx.2.2 hnodupv) fun allWritten y hy => ?_
      rw [hfst] at hy
      cases allWritten with
      | false => exact sat_pure Transacted.stable (hdone false hy)
      | true =>
          refine sat_fire hy.1 fun z answer hz _ => ?_
          have hyz := Created.stable hz hy
          match answer with
          | .error error =>
              exact sat_pure Transacted.stable ⟨hyz.1, hyz.2.1.lock, hyz.2.1.active⟩
          | .ok _ => exact sat_pure Transacted.stable (hdone false hyz)

end Transaction

end Osdns
