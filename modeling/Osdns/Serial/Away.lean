import Osdns.Serial.Apply

/-!
# The apply transaction away from its resources

What the programs of an apply answer, whatever the calls are answered, and that they make no
call on a resource they are not given.
-/

namespace Osdns

open Interaction
open Interaction.Fallible (ask value attempt)
open Engine

variable {r : ResourceId} {L : LeaseId} {i : SessionId} {caps : Capabilities} {α β : Type}
variable {plan : NormalizedConfig} {resources : List ResourceId}
variable {observations : List (ResourceId × BoundObservation FakeSnapshotData FakeIdentity)}

/-! ## Answers -/

/-- What may be assumed of answers. -/
abbrev Answers := (o : EngineOp FakeSnapshotData FakeIdentity) →
  EngineRet FakeSnapshotData FakeIdentity o → Prop

/-- Every value the program answers with is in `φ`. -/
abbrev EngineYields (A : Answers) (p : Engine FakeSnapshotData FakeIdentity α)
    (φ : α → Prop) : Prop :=
  p.Yields A φ

/-- `observeAll` answers with an observation of each resource, in order. -/
lemma yields_observeAll : EngineYields Named
    (observeAll resources : EngineResult FakeSnapshotData FakeIdentity _).run fun answer =>
      ∀ observations, answer = .ok observations → observations.map Prod.fst = resources ∧
        ∀ x ∈ observations, x.2.identity.resource = x.1 := by
  induction resources with
  | nil =>
      intro observations h
      obtain rfl := Except.ok.inj h
      exact ⟨rfl, fun x hx => absurd hx (by simp)⟩
  | cons resource resources ih =>
      have herror : ∀ error : Error, ∀ observations : List (ResourceId ×
          BoundObservation FakeSnapshotData FakeIdentity), Except.error error = .ok observations →
          observations.map Prod.fst = resource :: resources ∧
            ∀ x ∈ observations, x.2.identity.resource = x.1 := fun _ _ h => absurd h (by simp)
      refine Fallible.yields_bind (ψ := fun o => o.identity.resource = resource)
        (fun answer h a ha => h a ha) (fun observation hobs => ?_) herror
      refine Fallible.yields_after (fun _ => ?_) herror
      refine Fallible.yields_bind ih (fun rest hrest => ?_) herror
      intro all hall
      obtain rfl := Except.ok.inj hall
      refine ⟨by rw [List.map_cons, hrest.1], fun x hx => ?_⟩
      rcases List.mem_cons.mp hx with rfl | hx
      · exact hobs
      · exact hrest.2 x hx

/-! ## Calls -/

lemma away_observeAll (hne : r ∉ resources) :
    EngineAway r (observeAll resources : EngineResult FakeSnapshotData FakeIdentity _).run :=
  (engineFor_observeAll (L := 0) (R := (· ≠ r)) fun _ hx hr => hne (hr ▸ hx)).away fun h => h rfl

/-- `transactWithLocks` makes no call on a resource that was not observed. -/
lemma away_transactWithLocks {owner : String}
    (hobs : ∀ x ∈ observations, x.2.identity.resource = x.1) (hne : r ∉ observations.map Prod.fst) :
    EngineAway r (transactWithLocks (fakeBackend caps) owner plan observations).run := by
  obtain ⟨k, hk, hfor⟩ := engineFor_transactWithLocks (B := fakeBackend caps) (R := (· ≠ r))
    fun x hx => ⟨hobs x hx, fun hr => hne (hr ▸ List.mem_map_of_mem hx)⟩
  rw [hk]
  exact ⟨by simp [EngineOp.target], fun lease _ => (hfor lease).away fun h => h rfl⟩

end Osdns
