import Mathlib.Logic.Relation
import Osdns.Ownership.Discipline

/-!
# Exclusion and freedom from deadlock

Two facts about the shared state carry the results.  `LockWorld.Consistent` ties the registries,
the operating system's locks and the live locks to the open files.  `LockWorld.Accounts` says that
the open files of a thread are exactly the locks it holds and the one file that is pending in its
request.  Every allowed call keeps both and touches no file of another thread, so they hold in
every reachable state (`LockSystem.Accounted.reachable`).
-/

namespace Osdns

open Interaction

variable {process : ThreadId → ProcessId}

namespace LockWorld

/-- What the shared state says of itself. -/
structure Consistent (process : ThreadId → ProcessId) (w : LockWorld) : Prop where
  locked : ∀ r f, w.locked r = some f → ∃ t, w.files f = some ⟨t, r⟩
  live : ∀ f, w.live f = true → ∃ t r, w.files f = some ⟨t, r⟩ ∧ w.locked r = some f
  registry : ∀ p r, w.registry p r = true ↔
    ∃ f t, w.files f = some ⟨t, r⟩ ∧ w.live f = true ∧ process t = p
  fresh : ∀ f, w.nextFile ≤ f → w.files f = none

/-- The open files of a thread: the locks of its request and those it owns besides are live, the
pending file is not. -/
structure Accounts (w : LockWorld) (t : ThreadId) (h : LockHolding) (owned : List ResourceLock) :
    Prop where
  lives : ∀ lock, lock ∈ h.locks ++ owned ↔
    w.files lock.file = some ⟨t, lock.resource⟩ ∧ w.live lock.file = true
  pends : ∀ lock, h.pending.map Prod.fst = some lock ↔
    w.files lock.file = some ⟨t, lock.resource⟩ ∧ w.live lock.file = false
  stage : ∀ lock stage, h.pending = some (lock, stage) →
    (w.locked lock.resource = some lock.file ↔ stage ≠ .opened)
  nodup : (h.locks ++ owned).Nodup
  above : ∀ lock, h.pending = some (lock, .opened) →
    ∀ held ∈ h.locks, held.resource.text < lock.resource.text

/-- Nothing changed for the files of a thread. -/
def Spares (w w' : LockWorld) (u : ThreadId) : Prop :=
  ∀ f r, (w'.files f = some ⟨u, r⟩ ↔ w.files f = some ⟨u, r⟩) ∧
    (w.files f = some ⟨u, r⟩ →
      w'.live f = w.live f ∧ (w'.locked r = some f ↔ w.locked r = some f))

variable {w w' : LockWorld} {t u : ThreadId} {h : LockHolding} {owned : List ResourceLock}

lemma Spares.refl (w : LockWorld) (u : ThreadId) : Spares w w u :=
  fun _ _ => ⟨Iff.rfl, fun _ => ⟨rfl, Iff.rfl⟩⟩

lemma Accounts.spared (ha : w.Accounts u h owned) (hs : Spares w w' u) :
    w'.Accounts u h owned where
  lives lock := by
    rw [ha.lives, (hs lock.file lock.resource).1]
    exact and_congr_right fun hf => by rw [((hs _ _).2 hf).1]
  pends lock := by
    rw [ha.pends, (hs lock.file lock.resource).1]
    exact and_congr_right fun hf => by rw [((hs _ _).2 hf).1]
  stage lock stage hp := by
    have hf := ((ha.pends lock).mp (by rw [hp]; rfl)).1
    rw [((hs _ _).2 hf).2]
    exact ha.stage lock stage hp
  nodup := ha.nodup
  above := ha.above

/-- One allowed call. -/
structure Kept (process : ThreadId → ProcessId) (w' : LockWorld) (t : ThreadId) (h : LockHolding)
    (owned : List ResourceLock) (w : LockWorld) : Prop where
  consistent : w'.Consistent process
  accounts : w'.Accounts t h owned
  spares : ∀ u, u ≠ t → Spares w w' u

lemma kept_opened (hw : w.Consistent process) (ha : w.Accounts t h owned) {r : ResourceId}
    (none : h.pending = none) (above : ∀ held ∈ h.locks, held.resource.text < r.text) :
    Kept process
      { w with
        files := Function.update w.files w.nextFile (some ⟨t, r⟩)
        nextFile := w.nextFile + 1 }
      t { h with pending := some (⟨w.nextFile, r⟩, .opened) } owned w := by
  have closed := hw.fresh w.nextFile le_rfl
  have idle : w.live w.nextFile = false := by
    by_contra hl
    obtain ⟨t, r, hf, _⟩ := hw.live _ (by simpa using hl)
    rw [closed] at hf
    cases hf
  refine ⟨⟨?_, ?_, ?_, ?_⟩, ⟨?_, ?_, ?_, ha.nodup, ?_⟩, ?_⟩
  · grind [Function.update_apply, hw.locked]
  · grind [Function.update_apply, hw.live]
  · intro p r'
    rw [hw.registry]
    grind [Function.update_apply]
  · grind [Function.update_apply, hw.fresh]
  · intro lock
    dsimp only
    rw [ha.lives]
    grind [Function.update_apply]
  · intro lock
    have := ha.pends lock
    grind [Function.update_apply]
  · grind [Function.update_apply, hw.locked]
  · grind
  · intro u hu f r
    grind [Function.update_apply]

lemma kept_locked (hw : w.Consistent process) (ha : w.Accounts t h owned) {f : FileId}
    {r : ResourceId} (pending : h.pending = some (⟨f, r⟩, .opened)) (free : w.locked r = none) :
    Kept process { w with locked := Function.update w.locked r (some f) } t
      { h with pending := some (⟨f, r⟩, .locked) } owned w := by
  obtain ⟨file, idle⟩ := (ha.pends ⟨f, r⟩).mp (by rw [pending]; rfl)
  refine ⟨⟨?_, ?_, hw.registry, hw.fresh⟩, ⟨ha.lives, ?_, ?_, ha.nodup, ?_⟩, ?_⟩
  · grind [Function.update_apply, hw.locked]
  · grind [Function.update_apply, hw.live]
  · intro lock
    rw [← ha.pends, pending]
    rfl
  · grind [Function.update_apply]
  · grind
  · intro u hu f r
    grind [Function.update_apply]

lemma kept_inserted (hw : w.Consistent process) (ha : w.Accounts t h owned) {lock : ResourceLock}
    (pending : h.pending = some (lock, .locked)) :
    Kept process
      { w.setRegistry (process t) lock.resource true with
        live := Function.update w.live lock.file true }
      t (.settled (h.locks ++ [lock])) owned w := by
  obtain ⟨file, idle⟩ := (ha.pends lock).mp (by rw [pending]; rfl)
  have holds := (ha.stage _ _ pending).mpr (by simp)
  have new : lock ∉ h.locks ++ owned := fun hl => by simp [((ha.lives lock).mp hl).2] at idle
  refine ⟨⟨hw.locked, ?_, ?_, hw.fresh⟩, ⟨?_, ?_, ?_, ?_, ?_⟩, ?_⟩
  · grind [Function.update_apply, hw.live]
  · intro p r
    have := hw.registry p r
    change (w.setRegistry (process t) lock.resource true).registry p r = true ↔
      ∃ f u, w.files f = some ⟨u, r⟩ ∧ Function.update w.live lock.file true f = true ∧
        process u = p
    rw [setRegistry_registry]
    by_cases hr : p = process t ∧ r = lock.resource
    · obtain ⟨rfl, rfl⟩ := hr
      simpa using ⟨lock.file, t, file, by simp, rfl⟩
    · rw [if_neg hr, this]
      grind [Function.update_apply]
  · intro other
    have := ha.lives other
    have := ha.pends other
    grind [Function.update_apply]
  · intro other
    have := ha.pends other
    grind [Function.update_apply]
  · grind
  · have := ha.nodup
    grind
  · grind
  · intro u hu f r
    grind [Function.update_apply]

lemma kept_removed (hw : w.Consistent process) (ha : w.Accounts t h owned) {lock : ResourceLock}
    (held : lock ∈ h.locks) (none : h.pending = none) :
    Kept process
      { w.setRegistry (process t) lock.resource false with
        live := Function.update w.live lock.file false }
      t ⟨h.locks.erase lock, some (lock, .dying)⟩ owned w := by
  obtain ⟨file, live⟩ := (ha.lives lock).mp (List.mem_append_left _ held)
  have holds : w.locked lock.resource = some lock.file := by grind [hw.live lock.file live]
  have split := List.nodup_append.mp ha.nodup
  refine ⟨⟨hw.locked, ?_, ?_, hw.fresh⟩, ⟨?_, ?_, ?_, ?_, ?_⟩, ?_⟩
  · grind [Function.update_apply, hw.live]
  · intro p r
    have := hw.registry p r
    change (w.setRegistry (process t) lock.resource false).registry p r = true ↔
      ∃ f u, w.files f = some ⟨u, r⟩ ∧ Function.update w.live lock.file false f = true ∧
        process u = p
    rw [setRegistry_registry]
    by_cases hr : p = process t ∧ r = lock.resource
    -- The file lock is exclusive, so no other live lock of the process stands for the resource.
    · rw [if_pos hr]
      grind [Function.update_apply, hw.live]
    · rw [if_neg hr, this]
      grind [Function.update_apply]
  · intro other
    have := ha.lives other
    grind [Function.update_apply, split.1.mem_erase_iff]
  · intro other
    have := ha.pends other
    grind [Function.update_apply]
  · grind
  · exact ha.nodup.sublist (List.erase_sublist.append_right _)
  · grind
  · intro u hu f r
    grind [Function.update_apply]

lemma kept_closed (hw : w.Consistent process) (ha : w.Accounts t h owned) {f : FileId}
    {r : ResourceId} {stage : LockStage} (pending : h.pending = some (⟨f, r⟩, stage)) :
    Kept process
      { w with
        files := Function.update w.files f none
        locked := fun r => if w.locked r = some f then none else w.locked r }
      t (.settled h.locks) owned w := by
  obtain ⟨file, idle⟩ := (ha.pends ⟨f, r⟩).mp (by rw [pending]; rfl)
  refine ⟨⟨?_, ?_, ?_, ?_⟩, ⟨?_, ?_, ?_, ha.nodup, ?_⟩, ?_⟩
  · grind [Function.update_apply, hw.locked]
  · grind [Function.update_apply, hw.live]
  · intro p r'
    rw [hw.registry]
    grind [Function.update_apply]
  · grind [Function.update_apply, hw.fresh]
  · intro other
    have := ha.lives other
    grind [Function.update_apply]
  · intro other
    have := ha.pends other
    grind [Function.update_apply]
  · grind
  · grind
  · intro u hu f r
    grind [Function.update_apply]

lemma Kept.refl (hw : w.Consistent process) (ha : w.Accounts t h owned) :
    Kept process w t h owned w :=
  ⟨hw, ha, fun u _ => Spares.refl w u⟩

/-- What an allowed call does, whether or not the file system fails. -/
lemma kept_exec {o : LockOp} {fault : Option String} {answer : LockRet o}
    (hw : w.Consistent process) (ha : w.Accounts t h owned) (allowed : h.Allows o)
    (answered : w.exec t (process t) fault o = some (answer, w')) :
    Kept process w' t (h.next o answer) owned w := by
  cases o with
  | ensureDir =>
      cases fault <;> cases answered <;> exact .refl hw ha
  | registryContains r =>
      cases answered
      exact .refl hw ha
  | registryInsert lock =>
      cases answered
      exact kept_inserted hw ha allowed
  | registryRemove lock =>
      cases answered
      exact kept_removed hw ha allowed.1 allowed.2
  | openLockFile r =>
      cases fault with
      | none =>
          cases answered
          exact kept_opened hw ha allowed.1 allowed.2
      | some message =>
          cases answered
          exact .refl hw ha
  | tryLock f =>
      obtain ⟨r, pending⟩ := allowed
      have file : w.files f = some ⟨t, r⟩ := ((ha.pends ⟨f, r⟩).mp (by rw [pending]; rfl)).1
      cases fault with
      | some message =>
          simp only [exec, file] at answered
          cases answered
          exact .refl hw ha
      | none =>
          cases free : w.locked r with
          | some g =>
              simp only [exec, file, free] at answered
              cases answered
              exact .refl hw ha
          | none =>
              simp only [exec, file, free] at answered
              cases answered
              have kept := kept_locked hw ha pending free
              simpa only [LockHolding.next, pending, Option.map_some] using kept
  | closeFile f =>
      obtain ⟨r, stage, pending, _⟩ := allowed
      cases answered
      exact kept_closed hw ha pending
  | sleep =>
      cases answered
      exact .refl hw ha

/-- Locks may move between a request and what its thread owns besides. -/
lemma Accounts.rearrange {locks owned' : List ResourceLock} (ha : w.Accounts t h owned)
    (none : h.pending = none) (perm : (h.locks ++ owned).Perm (locks ++ owned')) :
    w.Accounts t (.settled locks) owned' where
  lives lock := by
    rw [← ha.lives]
    exact perm.mem_iff.symm
  pends lock := by
    rw [← ha.pends, none]
    rfl
  stage _ _ hp := nomatch hp
  nodup := perm.nodup_iff.mp ha.nodup
  above _ hp := nomatch hp

/-- A lock changes hands inside its process. -/
lemma Consistent.given {lock : ResourceLock} (hw : w.Consistent process)
    (file : w.files lock.file = some ⟨t, lock.resource⟩) (same : process u = process t) :
    { w with files := Function.update w.files lock.file (some ⟨u, lock.resource⟩) }.Consistent
      process := by
  refine ⟨?_, ?_, ?_, ?_⟩
  · grind [Function.update_apply, hw.locked]
  · grind [Function.update_apply, hw.live]
  · intro p r
    rw [hw.registry]
    constructor <;> grind [Function.update_apply]
  · grind [Function.update_apply, hw.fresh]

end LockWorld

namespace LockSystem

open LockWorld

/-- Every thread follows the discipline and answers for its open files. -/
structure Accounted (process : ThreadId → ProcessId) (s : LockSystem) (hs : ThreadId → LockHolding) :
    Prop where
  consistent : s.world.Consistent process
  accounts : ∀ t, s.world.Accounts t (hs t) (s.owned t)
  follows : ∀ t call, s.calls t = some call →
    call.program.Follows lockDiscipline HandsOut (hs t)
  idle : ∀ t, s.calls t = none → hs t = .settled []
  bare : ∀ t call, s.calls t = some call → call.bare = true → s.owned t = []

variable {s s' : LockSystem} {hs : ThreadId → LockHolding}

lemma Accounted.initial (hi : Initial s) : Accounted process s fun _ => .settled [] where
  consistent := by constructor <;> simp [hi.registry, hi.files, hi.locked, hi.live]
  accounts t := by constructor <;> simp [hi.files, hi.owned]
  follows t call hc := by simp [hi.calls] at hc
  idle _ _ := rfl
  bare t call hc := by simp [hi.calls] at hc

/-- The thread whose turn it is has a new holding, and the others are spared. -/
lemma accounts_update {w : LockWorld} {t : ThreadId} {h : LockHolding}
    {owned : ThreadId → List ResourceLock} (ha : ∀ u, s.world.Accounts u (hs u) (s.owned u))
    (this : w.Accounts t h (owned t)) (spares : ∀ u, u ≠ t → Spares s.world w u)
    (others : ∀ u, u ≠ t → owned u = s.owned u) (u : ThreadId) :
    w.Accounts u (Function.update hs t h u) (owned u) := by
  by_cases hu : u = t
  · subst hu
    rw [Function.update_self]
    exact this
  · rw [Function.update_of_ne hu, others u hu]
    exact (ha u).spared (spares u hu)

/-- The locks a request takes and those left to its thread are what the thread had. -/
lemma taken_perm {request : LockRequest} {owned : List ResourceLock}
    (holds : ∀ lock ∈ taken request, lock ∈ owned) :
    owned.Perm (taken request ++ owned.diff (taken request)) := by
  cases request with
  | drop lock => simpa [taken] using List.perm_cons_erase (holds lock (by simp [taken]))
  | _ => exact List.Perm.refl _

lemma Accounted.start {t : ThreadId} {request : LockRequest} (ha : Accounted process s hs)
    (idle : s.calls t = none) (holds : ∀ lock ∈ taken request, lock ∈ s.owned t) :
    Accounted process
      { s with
        calls := Function.update s.calls t (some ⟨request, (s.owned t).isEmpty, request.program⟩)
        owned := Function.update s.owned t ((s.owned t).diff (taken request)) }
      (Function.update hs t (.settled (taken request))) where
  consistent := ha.consistent
  accounts := by
    have before := ha.accounts t
    rw [ha.idle t idle] at before
    refine accounts_update ha.accounts ?_ (fun u _ => Spares.refl _ u) fun u hu =>
      Function.update_of_ne hu _ _
    simpa using before.rearrange rfl (taken_perm holds)
  follows u call hc := by
    by_cases hu : u = t
    · subst hu
      simp only [Function.update_self, Option.some.injEq] at hc ⊢
      exact hc ▸ request.follows
    · simp only [Function.update_of_ne hu] at hc ⊢
      exact ha.follows u call hc
  idle u hc := by
    by_cases hu : u = t
    · subst hu
      simp at hc
    · simp only [Function.update_of_ne hu] at hc ⊢
      exact ha.idle u hc
  bare u call hc hb := by
    by_cases hu : u = t
    · subst hu
      simp only [Function.update_self, Option.some.injEq] at hc ⊢
      subst hc
      rw [List.isEmpty_iff.mp hb]
      exact List.nil_diff _
    · simp only [Function.update_of_ne hu] at hc ⊢
      exact ha.bare u call hc hb

lemma Accounted.call {t : ThreadId} {call : LockCall} {o : LockOp}
    {k : LockRet o → Locking (Except Error (List ResourceLock))} {fault : Option String}
    {answer : LockRet o} {w : LockWorld} (ha : Accounted process s hs)
    (running : s.calls t = some call) (program : call.program = .call o k)
    (answered : s.world.exec t (process t) fault o = some (answer, w)) :
    Accounted process
      { s with
        world := w
        calls := Function.update s.calls t (some { call with program := k answer }) }
      (Function.update hs t ((hs t).next o answer)) := by
  have follows := ha.follows t call running
  rw [program] at follows
  have kept := kept_exec ha.consistent (ha.accounts t) follows.1 answered
  refine ⟨kept.consistent, ?_, ?_, ?_, ?_⟩
  · exact accounts_update ha.accounts kept.accounts kept.spares fun _ _ => rfl
  · intro u other hc
    by_cases hu : u = t
    · subst hu
      simp only [Function.update_self, Option.some.injEq] at hc ⊢
      exact hc ▸ follows.2 answer trivial
    · simp only [Function.update_of_ne hu] at hc ⊢
      exact ha.follows u other hc
  · intro u hc
    by_cases hu : u = t
    · subst hu
      simp at hc
    · simp only [Function.update_of_ne hu] at hc ⊢
      exact ha.idle u hc
  · intro u other hc hb
    by_cases hu : u = t
    · subst hu
      simp only [Function.update_self, Option.some.injEq] at hc
      subst hc
      exact ha.bare u call running hb
    · simp only [Function.update_of_ne hu] at hc
      exact ha.bare u other hc hb

lemma Accounted.finish {t : ThreadId} {call : LockCall}
    {outcome : Except Error (List ResourceLock)} (ha : Accounted process s hs)
    (running : s.calls t = some call) (program : call.program = .done outcome) :
    Accounted process
      { s with
        calls := Function.update s.calls t none
        owned := Function.update s.owned t (s.owned t ++ outcome.toOption.getD []) }
      (Function.update hs t (.settled [])) := by
  have follows := ha.follows t call running
  rw [program] at follows
  have before := ha.accounts t
  rw [show hs t = _ from follows] at before
  refine ⟨ha.consistent, ?_, ?_, ?_, ?_⟩
  · refine accounts_update ha.accounts ?_ (fun u _ => Spares.refl _ u) fun u hu =>
      Function.update_of_ne hu _ _
    have after : s.world.Accounts t (.settled []) (s.owned t ++ outcome.toOption.getD []) :=
      before.rearrange rfl List.perm_append_comm
    simpa using after
  · intro u other hc
    by_cases hu : u = t
    · subst hu
      simp at hc
    · simp only [Function.update_of_ne hu] at hc ⊢
      exact ha.follows u other hc
  · intro u hc
    by_cases hu : u = t
    · subst hu
      exact Function.update_self ..
    · simp only [Function.update_of_ne hu] at hc ⊢
      exact ha.idle u hc
  · intro u other hc hb
    by_cases hu : u = t
    · subst hu
      simp at hc
    · simp only [Function.update_of_ne hu] at hc ⊢
      exact ha.bare u other hc hb

lemma Accounted.give {t u : ThreadId} {lock : ResourceLock} (ha : Accounted process s hs)
    (holds : lock ∈ s.owned t) (same : process u = process t) (idle : s.calls u = none)
    (other : t ≠ u) :
    Accounted process
      { s with
        world := { s.world with
          files := Function.update s.world.files lock.file (some ⟨u, lock.resource⟩) }
        owned := Function.update (Function.update s.owned t ((s.owned t).erase lock)) u
          (s.owned u ++ [lock]) } hs := by
  have giver := ha.accounts t
  have taker := ha.accounts u
  obtain ⟨file, live⟩ := (giver.lives lock).mp (List.mem_append_right _ holds)
  refine ⟨ha.consistent.given file same, ?_, ha.follows, ha.idle, ?_⟩
  · intro v
    by_cases hv : v = u
    · subst hv
      have new : lock ∉ (hs v).locks ++ s.owned v := fun hl => by
        have := ((taker.lives lock).mp hl).1
        grind
      simp only [Function.update_self]
      refine ⟨fun l => ?_, fun l => ?_, fun l stage hp => ?_, ?_, taker.above⟩
      · have := taker.lives l
        grind [Function.update_apply]
      · have := taker.pends l
        grind [Function.update_apply]
      · exact taker.stage l stage hp
      · rw [← List.append_assoc]
        exact taker.nodup.append (List.nodup_singleton lock) (by simpa using new)
    · by_cases ht : v = t
      · subst ht
        have split := List.nodup_append.mp giver.nodup
        simp only [Function.update_of_ne other, Function.update_self]
        refine ⟨fun l => ?_, fun l => ?_, fun l stage hp => ?_, ?_, giver.above⟩
        · have := giver.lives l
          grind [Function.update_apply, split.2.1.mem_erase_iff]
        · have := giver.pends l
          grind [Function.update_apply]
        · exact giver.stage l stage hp
        · exact giver.nodup.sublist (List.erase_sublist.append_left _)
      · simp only [Function.update_of_ne hv, Function.update_of_ne ht]
        refine (ha.accounts v).spared fun f r => ?_
        grind [Function.update_apply]
  · intro v call hc hb
    have hv : v ≠ u := fun e => by rw [e, idle] at hc; cases hc
    have empty := ha.bare v call hc hb
    by_cases ht : v = t
    · subst ht
      rw [empty] at holds
      cases holds
    · simpa only [Function.update_of_ne hv, Function.update_of_ne ht] using empty

/-- What one step keeps. -/
lemma Accounted.step (ha : Accounted process s hs) (hst : Step process s s') :
    ∃ hs', Accounted process s' hs' := by
  cases hst with
  | start t request idle holds => exact ⟨_, ha.start idle holds⟩
  | call t call o k fault answer w running program answered =>
      exact ⟨_, ha.call running program answered⟩
  | finish t call outcome running program => exact ⟨_, ha.finish running program⟩
  | give t u lock holds same idle other => exact ⟨_, ha.give holds same idle other⟩

/-- What every run keeps. -/
lemma Accounted.reachable (h : Reachable process s) : ∃ hs, Accounted process s hs := by
  induction h with
  | init hi => exact ⟨_, Accounted.initial hi⟩
  | step _ hst ih =>
      obtain ⟨hs, ha⟩ := ih
      exact ha.step hst

/-! ## Exclusion, registries and waiting -/

/-- A live `ResourceLock` of a thread. -/
def Live (s : LockSystem) (t : ThreadId) (lock : ResourceLock) : Prop :=
  s.world.files lock.file = some ⟨t, lock.resource⟩ ∧ s.world.live lock.file = true

/-- A thread that called `acquire_all` while it held no lock has opened the file of a resource
whose file lock another open file holds, one of the thread `u`. -/
def Waits (s : LockSystem) (t u : ThreadId) : Prop :=
  ∃ call resources polls, s.calls t = some call ∧ call.request = .acquireAll resources polls ∧
    call.bare = true ∧ ∃ f g r r', s.world.files f = some ⟨t, r⟩ ∧ s.world.locked r = some g ∧
      g ≠ f ∧ s.world.files g = some ⟨u, r'⟩

/-- What holds of the locks at any moment. -/
structure Exclusive (process : ThreadId → ProcessId) (s : LockSystem) : Prop where
  /-- At most one live lock per resource. -/
  single : ∀ t u lock other, s.Live t lock → s.Live u other → lock.resource = other.resource →
    t = u ∧ lock = other
  /-- A thread outside of a request has exactly the locks it owns. -/
  owned : ∀ t lock, (lock ∈ s.owned t → s.Live t lock) ∧
    (s.calls t = none → s.Live t lock → lock ∈ s.owned t)
  /-- The registry of a process holds the resources of its live locks. -/
  registry : ∀ p r, s.world.registry p r = true ↔
    ∃ t lock, process t = p ∧ lock.resource = r ∧ s.Live t lock
  /-- A drop erases its own key only: its lock is live until then, and no other lock of the
  resource is. -/
  erased : ∀ t call lock k, s.calls t = some call → call.program = .call (.registryRemove lock) k →
    s.Live t lock
  /-- A request that failed left no lock and no open file behind. -/
  failed : ∀ t call error, s.calls t = some call → call.program = .done (.error error) →
    ∀ f r, s.world.files f = some ⟨t, r⟩ → ⟨f, r⟩ ∈ s.owned t
  /-- Nobody waits for itself through others. -/
  acyclic : ∀ t, ¬ Relation.TransGen s.Waits t t

/-- A live lock is in the request of its thread, or the thread owns it besides. -/
lemma Accounted.live_iff (ha : Accounted process s hs) {t : ThreadId} {lock : ResourceLock} :
    s.Live t lock ↔ lock ∈ (hs t).locks ++ s.owned t :=
  ((ha.accounts t).lives lock).symm

/-- The file lock behind a live lock. -/
lemma Accounted.live_locked (ha : Accounted process s hs) {t : ThreadId} {lock : ResourceLock}
    (live : s.Live t lock) : s.world.locked lock.resource = some lock.file := by
  obtain ⟨u, r, file, locked⟩ := ha.consistent.live lock.file live.2
  rw [live.1] at file
  cases file
  exact locked

/-- A thread that waits has one pending file, and what it waits for is held by the other. -/
lemma Accounted.waits_pending {t u : ThreadId} (ha : Accounted process s hs)
    (waits : s.Waits t u) :
    s.owned t = [] ∧ ∃ f g r, (hs t).pending = some (⟨f, r⟩, .opened) ∧
      s.world.locked r = some g ∧ s.world.files g = some ⟨u, r⟩ := by
  obtain ⟨call, resources, polls, running, _, bare, f, g, r, r', file, locked, other, holder⟩ :=
    waits
  have dead : s.world.live f = false := by
    by_contra live
    obtain ⟨v, r'', file', locked'⟩ := ha.consistent.live f (by simpa using live)
    rw [file] at file'
    cases file'
    rw [locked] at locked'
    exact other (Option.some.inj locked')
  have pending := ((ha.accounts t).pends ⟨f, r⟩).mpr ⟨file, dead⟩
  obtain ⟨⟨lock, stage⟩, hp, hl⟩ := Option.map_eq_some_iff.mp pending
  obtain rfl : lock = ⟨f, r⟩ := hl
  have opened : stage = .opened := by
    by_contra ho
    have holds := ((ha.accounts t).stage _ _ hp).mpr ho
    rw [locked] at holds
    exact other (Option.some.inj holds)
  subst opened
  obtain ⟨v, same⟩ := ha.consistent.locked r g locked
  rw [holder] at same
  cases same
  exact ⟨ha.bare t call running bare, f, g, r, hp, locked, holder⟩

/-- What a thread waits for is above every lock it holds, so along a chain of waiting threads the
resources ascend. -/
lemma Accounted.waits_above {t u v : ThreadId} (ha : Accounted process s hs)
    (first : s.Waits t u) (second : s.Waits u v) {f f' : FileId} {r r' : ResourceId}
    (hp : (hs t).pending = some (⟨f, r⟩, .opened))
    (hp' : (hs u).pending = some (⟨f', r'⟩, .opened)) : r.text < r'.text := by
  obtain ⟨_, f₁, g, r₁, pending, locked, holder⟩ := ha.waits_pending first
  rw [hp] at pending
  cases pending
  have live : s.world.live g = true := by
    by_contra dead
    have held := ((ha.accounts u).pends ⟨g, r⟩).mpr ⟨holder, by simpa using dead⟩
    rw [hp'] at held
    cases held
    exact (((ha.accounts u).stage _ _ hp').mp locked) rfl
  have held := ha.live_iff.mp (⟨holder, live⟩ : s.Live u ⟨g, r⟩)
  rw [(ha.waits_pending second).1, List.append_nil] at held
  exact (ha.accounts u).above _ hp' _ held

lemma Accounted.chain_above {t u : ThreadId} (ha : Accounted process s hs)
    (chain : Relation.TransGen s.Waits t u) {f : FileId} {r : ResourceId}
    (hp : (hs t).pending = some (⟨f, r⟩, .opened)) :
    ∀ v, s.Waits u v → ∀ f' r', (hs u).pending = some (⟨f', r'⟩, .opened) →
      r.text < r'.text := by
  induction chain with
  | single first => exact fun v second f' r' hp' => ha.waits_above first second hp hp'
  | tail _ middle ih =>
      intro v last f' r' hp'
      obtain ⟨_, f₁, _, r₁, pending, _, _⟩ := ha.waits_pending middle
      exact List.lt_trans (ih _ middle f₁ r₁ pending) (ha.waits_above middle last pending hp')

/-- No thread waits for itself through others. -/
lemma Accounted.acyclic (ha : Accounted process s hs) (t : ThreadId) :
    ¬ Relation.TransGen s.Waits t t := by
  intro cycle
  obtain ⟨u, first, _⟩ := Relation.TransGen.head'_iff.mp cycle
  obtain ⟨_, f, _, r, pending, _, _⟩ := ha.waits_pending first
  exact List.lt_irrefl r.text (ha.chain_above cycle pending u first f r pending)

/-- In every reachable state of any threads of any processes the locks exclude each other, the
registries agree with them, failed requests left nothing behind and nobody waits in a cycle. -/
theorem exclusive_of_reachable (h : Reachable process s) : Exclusive process s := by
  obtain ⟨hs, ha⟩ := Accounted.reachable h
  refine ⟨?_, ?_, ?_, ?_, ?_, ha.acyclic⟩
  · intro t u lock other live live' same
    have locked := ha.live_locked live
    have locked' := ha.live_locked live'
    rw [same, locked'] at locked
    have file := Option.some.inj locked
    have equal : lock = other := ResourceLock.ext file.symm same
    subst equal
    have owner := live.1.symm.trans live'.1
    cases owner
    exact ⟨rfl, rfl⟩
  · intro t lock
    rw [ha.live_iff]
    refine ⟨List.mem_append_right _, fun idle held => ?_⟩
    rwa [ha.idle t idle] at held
  · intro p r
    rw [ha.consistent.registry]
    constructor
    · rintro ⟨f, t, file, live, hp⟩
      exact ⟨t, ⟨f, r⟩, hp, rfl, file, live⟩
    · rintro ⟨t, lock, hp, rfl, file, live⟩
      exact ⟨lock.file, t, file, live, hp⟩
  · intro t call lock k running program
    have follows := ha.follows t call running
    rw [program] at follows
    exact ha.live_iff.mpr (List.mem_append_left _ follows.1.1)
  · intro t call error running program f r file
    have follows := ha.follows t call running
    rw [program] at follows
    have settled : hs t = .settled [] := follows
    have account := ha.accounts t
    rw [settled] at account
    have live : s.world.live f = true := by
      by_contra dead
      have pending := (account.pends ⟨f, r⟩).mpr ⟨file, by simpa using dead⟩
      cases pending
    simpa using (account.lives ⟨f, r⟩).mpr ⟨file, live⟩

/-- The locks before anything happened. -/
def pristine : LockSystem where
  world := ⟨fun _ _ => false, fun _ => none, fun _ => none, fun _ => false, 0⟩
  calls _ := none
  owned _ := []

/-- A thread has acquired a lock, and a thread of another process, which does not know of it, has
opened the lock file and found it locked. -/
theorem exclusive_of_reachable_refused :
    ∃ s, (⟨0, .loopback⟩ : ResourceLock) ∈ s.owned 0 ∧ s.world.files 1 = some ⟨1, .loopback⟩ ∧
      (∃ call k, s.calls 1 = some call ∧ call.program = .call (.closeFile 1) k) ∧ Exclusive id s := by
  have idle : Reachable id pristine := .init ⟨by simp [pristine], by simp [pristine],
    by simp [pristine], by simp [pristine], by simp [pristine], by simp [pristine]⟩
  have started := idle.step (.start _ 0 (.tryAcquire .loopback) rfl (by simp [taken]))
  have ready := started.step (.call _ 0 _ .ensureDir _ none _ _ rfl rfl rfl)
  have asked := ready.step (.call _ 0 _ (.registryContains .loopback) _ none _ _ rfl rfl rfl)
  have opened := asked.step (.call _ 0 _ (.openLockFile .loopback) _ none _ _ rfl rfl rfl)
  have locked := opened.step (.call _ 0 _ (.tryLock 0) _ none _ _ rfl rfl rfl)
  have inserted := locked.step
    (.call _ 0 _ (.registryInsert ⟨0, .loopback⟩) _ none _ _ rfl rfl rfl)
  have finished := inserted.step (.finish _ 0 _ (.ok [⟨0, .loopback⟩]) rfl rfl)
  have second := finished.step (.start _ 1 (.tryAcquire .loopback) rfl (by simp [taken]))
  have second := second.step (.call _ 1 _ .ensureDir _ none _ _ rfl rfl rfl)
  have second := second.step (.call _ 1 _ (.registryContains .loopback) _ none _ _ rfl rfl rfl)
  have second := second.step (.call _ 1 _ (.openLockFile .loopback) _ none _ _ rfl rfl rfl)
  have second := second.step (.call _ 1 _ (.tryLock 1) _ none _ _ rfl rfl rfl)
  exact ⟨_, List.mem_append_right _ List.mem_cons_self, rfl, ⟨_, _, rfl, rfl⟩,
    exclusive_of_reachable second⟩

end LockSystem

end Osdns
