import Osdns.Framework.Runs
import Osdns.Model.System

/-!
# Programs that work on one cell

A program that calls on one resource only runs in the world as it runs on that resource's cell:
nothing else is read and nothing else is changed.  Runs of several such programs, each on a
resource of its own, are then any combination of runs of each of them.
-/

namespace Osdns

open Interaction

variable {F : Faults} {r : ResourceId} {ctx : Context} {α : Type}

/-! ## One cell by itself -/

/-- What a call may answer and do to a cell that is all there is. -/
def Cell.handlerAlone (F : Faults) (ctx : Context) (r : ResourceId) :
    Handler (ManagerRet FakeSnapshotData FakeIdentity) Cell :=
  fun o c answer d => ∃ fate, (fate = .proceed ∨ F o) ∧
    ((o.target = some r ∧ c.exec r ctx fate o = some (answer, d)) ∨
      (o.target = none ∧ d = c ∧
        ∀ w : World, w.execGlobal ctx.session ctx.manager fate o = some (answer, w)))

/-- The same for calls of the engine. -/
def Cell.engineAlone (F : Faults) (ctx : Context) (r : ResourceId) :
    Handler (EngineRet FakeSnapshotData FakeIdentity) Cell :=
  fun o c answer d => Cell.handlerAlone F ctx r (.engine o) c answer d

/-- A call that reads and changes the cell of `r` only, and can always be answered. -/
def CallsOn (r : ResourceId) (o : ManagerOp FakeSnapshotData FakeIdentity) : Prop :=
  (o.target = some r ∧ (∀ w : World, r ∈ w.names → w.account o = w) ∧
      ∀ c ctx, ∃ answer d, Cell.exec r c ctx .proceed o = some (answer, d)) ∨
    ∃ point, o = .engine (.fire point)

/-- A program that calls on `r` only. -/
abbrev Alone (r : ResourceId) (p : FakeManaged α) : Prop :=
  p.Only (fun _ _ => True) (CallsOn r)

namespace World

variable {w w' : World} {c d : Cell} {i : SessionId} {m : ManagerId}

@[simp] lemma setCell_cells_self : (w.setCell r c).cells r = c := by
  simp [setCell]

@[simp] lemma setCell_setCell : (w.setCell r c).setCell r d = w.setCell r d := by
  simp [setCell]

@[simp] lemma setCell_cells : w.setCell r (w.cells r) = w := by
  simp [setCell]

@[simp] lemma setCell_context : (w.setCell r c).context i m = w.context i m := rfl

lemma setCell_cells_of_ne {r' : ResourceId} (h : r' ≠ r) : (w.setCell r c).cells r' = w.cells r' :=
  Function.update_of_ne h ..

/-- A call on one resource is answered by its cell. -/
lemma handler_alone {o : ManagerOp FakeSnapshotData FakeIdentity}
    {answer : ManagerRet FakeSnapshotData FakeIdentity o} (ho : CallsOn r o) (hr : r ∈ w.names) :
    World.handler F i m o w answer w' ↔
      ∃ d, Cell.handlerAlone F (w.context i m) r o (w.cells r) answer d ∧ w' = w.setCell r d := by
  rcases ho with ⟨ht, haccount, -⟩ | ⟨point, rfl⟩
  · have hsame : ∀ d, (w.setCell r d).account o = w.setCell r d := fun d => haccount _ hr
    constructor
    · rintro ⟨fate, hF, h⟩
      simp only [World.exec, ht, Option.map_eq_some_iff, Prod.mk.injEq] at h
      obtain ⟨⟨a, d⟩, hexec, rfl, rfl⟩ := h
      exact ⟨d, ⟨fate, hF, .inl ⟨ht, hexec⟩⟩, hsame d⟩
    · rintro ⟨d, ⟨fate, hF, ⟨-, hexec⟩ | ⟨hn, -⟩⟩, rfl⟩
      · refine ⟨fate, hF, ?_⟩
        simp only [World.exec, ht, hexec, Option.map_some, hsame]
      · exact absurd (hn.symm.trans ht) (by simp)
  · constructor
    · rintro ⟨fate, hF, h⟩
      refine ⟨w.cells r, ⟨fate, hF, .inr ⟨rfl, rfl, fun u => ?_⟩⟩, ?_⟩ <;>
        cases fate <;>
        simp only [World.exec, ManagerOp.target, EngineOp.target, execGlobal, Option.some.injEq,
          Prod.mk.injEq] at h ⊢ <;> simp [h.1, ← h.2]
    · rintro ⟨d, ⟨fate, hF, ⟨hs, -⟩ | ⟨-, rfl, h⟩⟩, rfl⟩
      · exact absurd hs (by simp [ManagerOp.target, EngineOp.target])
      · refine ⟨fate, hF, ?_⟩
        rw [setCell_cells]
        exact h w

/-- A program on one resource runs in the world as on the resource's cell. -/
lemma runs_alone {p : FakeManaged α} {a : α} (hp : Alone r p) (hr : r ∈ w.names) :
    p.Runs (World.handler F i m) w a w' ↔
      ∃ d, p.Runs (Cell.handlerAlone F (w.context i m) r) (w.cells r) a d ∧
        w' = w.setCell r d := by
  induction p generalizing w with
  | done b => simp [Program.runs_done]
  | call o k ih =>
      have hk : ∀ answer c, (k answer).Runs (World.handler F i m) (w.setCell r c) a w' ↔
          ∃ d, (k answer).Runs (Cell.handlerAlone F (w.context i m) r) c a d ∧
            w' = w.setCell r d := by
        intro answer c
        have := ih answer (hp.2 answer trivial) (w := w.setCell r c) hr
        simpa only [setCell_cells_self, setCell_setCell, setCell_context] using this
      constructor
      · rintro ⟨answer, u, ho, hu⟩
        obtain ⟨c, hc, rfl⟩ := (handler_alone hp.1 hr).mp ho
        obtain ⟨d, hd, rfl⟩ := (hk answer c).mp hu
        exact ⟨d, ⟨answer, c, hc, hd⟩, rfl⟩
      · rintro ⟨d, ⟨answer, c, hc, hd⟩, rfl⟩
        exact ⟨answer, w.setCell r c, (handler_alone hp.1 hr).mpr ⟨c, hc, rfl⟩,
          (hk answer c).mpr ⟨d, hd, rfl⟩⟩

end World

/-- A program on one resource always stops, also without faults. -/
lemma Alone.runs {p : FakeManaged α} (hp : Alone r p) (c : Cell) :
    ∃ a d, p.Runs (Cell.handlerAlone F ctx r) c a d := by
  induction p generalizing c with
  | done a => exact ⟨a, c, rfl, rfl⟩
  | call o k ih =>
      rcases hp.1 with ⟨ht, -, hexec⟩ | ⟨point, rfl⟩
      · obtain ⟨answer, d, h⟩ := hexec c ctx
        obtain ⟨a, e, hk⟩ := ih answer (hp.2 answer trivial) d
        exact ⟨a, e, answer, d, ⟨.proceed, .inl rfl, .inl ⟨ht, h⟩⟩, hk⟩
      · obtain ⟨a, e, hk⟩ := ih (.ok ()) (hp.2 _ trivial) c
        exact ⟨a, e, .ok (), c, ⟨.proceed, .inl rfl, .inr ⟨rfl, rfl, fun _ => rfl⟩⟩, hk⟩

end Osdns
