import Osdns.Engine.Mandate
import Osdns.Serial.Mutation

/-!
# Programs that work on one resource

Every function of the engine that is given one resource calls on that resource only.  Seen from
the cell of another resource it is interference, so loops over several resources are judged one
resource at a time.
-/

namespace Osdns

open Interaction
open Interaction.Fallible (ask value attempt)
open Engine

variable {r r' : ResourceId} {c : Cell} {F : Faults} {i : SessionId} {m : ManagerId} {α β : Type}

/-- The program calls on `r` only, as long as answers name the resources they are about. -/
abbrev EngineOn (r : ResourceId) (p : Engine FakeSnapshotData FakeIdentity α) : Prop :=
  p.Only Named fun o => ∀ r', o.target = some r' → r' = r

/-- The program makes no call on `r`. -/
abbrev EngineAway (r : ResourceId) (p : Engine FakeSnapshotData FakeIdentity α) : Prop :=
  p.Only Named fun o => o.target ≠ some r

/-- A program that makes no call on `r` is interference. -/
lemma EngineAway.sat {p : Engine FakeSnapshotData FakeIdentity α} (hp : EngineAway r p)
    (hinv : CellInv r c) : EngineSat F i m r p (fun _ d => Interference c d) c := by
  refine Program.Only.sat hp (fun hst h => interference.trans h hst)
    (fun o s a t ho hs hst => ?_) (interference.refl c)
  obtain ⟨ht, hnamed, -⟩ := Cell.handler_elsewhere hst ho
  have hshift : Interference s t := ht ▸ s.interference_pending t.pending
  exact ⟨hnamed, ⟨CellInv.stable (interference.trans hs hshift) hinv,
    ht ▸ s.accounted_pending i t.pending⟩, interference.trans hs hshift⟩

lemma EngineOn.away {p : Engine FakeSnapshotData FakeIdentity α} (hp : EngineOn r' p)
    (hne : r' ≠ r) : EngineAway r p :=
  Program.Only.mono (fun _ h ht => hne (h r ht).symm) hp

lemma EngineOn.sat {p : Engine FakeSnapshotData FakeIdentity α} (hp : EngineOn r' p)
    (hne : r' ≠ r) (hinv : CellInv r c) :
    EngineSat F i m r p (fun _ d => Interference c d) c :=
  (hp.away hne).sat hinv

/-- The live record of another resource names it. -/
lemma sat_liveGet_other {L : LeaseId} {k : FakeLive → Engine FakeSnapshotData FakeIdentity α}
    {Q : α → Cell → Prop} (hne : r' ≠ r) (hinv : CellInv r c)
    (hk : ∀ d live, LiveRecord.On r' L live → Interference c d →
      EngineSat F i m r (k live) Q d) :
    EngineSat F i m r (liveGet ⟨L, r'⟩ >>= k) Q c := by
  intro d hd live e he
  obtain ⟨hed, hlive, -⟩ := Cell.handler_elsewhere he
    (show (some r' : Option ResourceId) ≠ some r from fun h => hne (Option.some.inj h))
  have hde : Interference d e := hed ▸ d.interference_pending e.pending
  exact ⟨⟨CellInv.stable (interference.trans hd hde) hinv,
    hed ▸ d.accounted_pending i e.pending⟩, hk e live hlive (interference.trans hd hde)⟩

/-! ## Programs of one lease -/

section Mandate

variable {L : LeaseId} {R : ResourceId → Prop}

lemma EngineFor.on {p : Engine FakeSnapshotData FakeIdentity α} (hp : EngineFor L (· = r) p) :
    EngineOn r p :=
  Program.Only.mono (fun _ h => h.target) hp

lemma EngineFor.away {p : Engine FakeSnapshotData FakeIdentity α} (hp : EngineFor L R p)
    (hr : ¬ R r) : EngineAway r p :=
  Program.Only.mono (fun _ h ht => hr (h.target r ht)) hp

lemma engineOn_readback (site : Site) : EngineOn r (readback site r) :=
  EngineFor.on (L := 0) (engineFor_readback site rfl)

lemma engineOn_journalWrite {record : FakeRecord} (hr : record.resource = r) :
    EngineOn r (journalWrite record) :=
  EngineFor.on (engineFor_journalWrite rfl hr)

lemma engineOn_journalRemove (lease : LeaseId) (removal : Removal) :
    EngineOn r (journalRemove lease r removal) :=
  EngineFor.on (L := lease) (engineFor_journalRemove lease removal rfl)

lemma engineOn_liveSet (live : FakeLive) : EngineOn r (liveSet ⟨L, r⟩ live) :=
  EngineFor.on (L := L) (engineFor_liveSet live rfl)

variable (B : Backend FakeSnapshotData) {identity : FakeResourceIdentity}

lemma engineOn_rollbackProven {proof : Option FakeSnapshot} {target : FakeSnapshot}
    (hr : identity.resource = r) : EngineOn r (rollbackProven B L identity proof target) :=
  EngineFor.on (L := L) (engineFor_rollbackProven B hr)

lemma engineOn_mutateAndVerify {cause : Cause} {expected : FakeSnapshot} {plan : NormalizedConfig}
    {points : MutatePoints} (hr : identity.resource = r) :
    EngineOn r (mutateAndVerify B cause identity expected plan points) :=
  EngineFor.on (L := cause.lease) (engineFor_mutateAndVerify B hr)

lemma engineOn_persistLive {candidate : FakeRecord} (h : candidate.On r L) :
    EngineOn r (persistLive ⟨L, r⟩ candidate).run :=
  EngineFor.on (engineFor_persistLive (h.for rfl) rfl)

lemma engineOn_resolveLive {current : Option FakeSnapshot} :
    EngineOn r (resolveLive B ⟨L, r⟩ current).run :=
  EngineFor.on (engineFor_resolveLive B rfl)

lemma engineOn_commitVerified {mutation : VerifiedMutation FakeSnapshotData} :
    EngineOn r (commitVerified B ⟨L, r⟩ mutation).run :=
  EngineFor.on (engineFor_commitVerified B rfl)

end Mandate

/-! ## Loops -/

section Loops

variable {X γ : Type} {step : X → Engine FakeSnapshotData FakeIdentity β}
variable {loop : List X → Engine FakeSnapshotData FakeIdentity γ} {key : X → ResourceId}
variable {P Q : Cell → Prop}

/-- A loop that performs `step` on every entry and collects the outcomes. -/
structure Performs (step : X → Engine FakeSnapshotData FakeIdentity β)
    (loop : List X → Engine FakeSnapshotData FakeIdentity γ) : Prop where
  nil : ∃ b, loop [] = pure b
  cons : ∀ x xs, ∃ g : β → γ → γ,
    loop (x :: xs) = step x >>= fun a => loop xs >>= fun b => pure (g a b)

/-- A loop over entries of different resources works on `r` once, if at all. -/
lemma Performs.sat (h : Performs step loop) {xs : List X}
    (hon : ∀ x ∈ xs, EngineOn (key x) (step x)) (hnodup : (xs.map key).Nodup)
    (hP : Stable interference P) (hQ : Stable interference Q) (hPinv : ∀ c, P c → CellInv r c)
    (hQinv : ∀ c, Q c → CellInv r c)
    (hstep : ∀ x ∈ xs, key x = r → ∀ c, P c → EngineSat F i m r (step x) (fun _ => Q) c)
    (hc : P c) :
    EngineSat F i m r (loop xs) (fun _ d => (r ∈ xs.map key → Q d) ∧ (r ∉ xs.map key → P d)) c := by
  induction xs generalizing c P with
  | nil =>
      obtain ⟨b, hb⟩ := h.nil
      rw [hb]
      exact fun d hd => ⟨fun hr => absurd hr (by simp), fun _ => hP hd hc⟩
  | cons x xs ih =>
      obtain ⟨g, hg⟩ := h.cons x xs
      rw [List.map_cons, List.nodup_cons] at hnodup
      have hon' : ∀ y ∈ xs, EngineOn (key y) (step y) := fun y hy =>
        hon y (List.mem_cons_of_mem x hy)
      have hstop : ∀ (a : β) (b : γ) (d : Cell), (r ∈ (x :: xs).map key → Q d) →
          (r ∉ (x :: xs).map key → P d) →
          EngineSat F i m r (pure (g a b))
            (fun _ d => (r ∈ (x :: xs).map key → Q d) ∧ (r ∉ (x :: xs).map key → P d)) d :=
        fun a b d hq hp u hu => ⟨fun hr => hQ hu (hq hr), fun hr => hP hu (hp hr)⟩
      rw [hg]
      by_cases hr : key x = r
      · have hlater : r ∉ xs.map key := hr ▸ hnodup.1
        refine sat_bind (hstep x (List.mem_cons_self ..) hr c hc) fun a d hd => ?_
        refine sat_bind (ih hon' hnodup.2 hQ hQinv (fun y hy hyr => ?_) hd) fun b e he => ?_
        · exact absurd (hyr ▸ List.mem_map_of_mem hy) hlater
        · exact hstop a b e (fun _ => he.2 hlater) fun hn => absurd (by simp [hr]) hn
      · refine sat_bind ((hon x (List.mem_cons_self ..)).sat hr (hPinv c hc)) fun a d hd => ?_
        refine sat_bind (ih hon' hnodup.2 hP hPinv (fun y hy => hstep y (List.mem_cons_of_mem x hy))
          (hP hd hc)) fun b e he => ?_
        refine hstop a b e (fun hmem => he.1 ?_) fun hn => he.2 fun hmem => hn ?_
        · exact (List.mem_cons.mp hmem).resolve_left fun h => hr h.symm
        · exact List.mem_cons_of_mem _ hmem

end Loops

end Osdns
