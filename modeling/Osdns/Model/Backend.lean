import Osdns.Model.Record

/-!
# Backends as pure observers

A backend interprets snapshots and touches the native state.  Only the first half is here: the
comparisons the engine asks for, which are pure.  The half that reads and changes native state
is performed through calls (`Model/Calls.lean`) and given meaning in `Model/World.lean`.

`fakeBackend` is the in-memory backend of `platform/fake.rs`, as its constructor `build` makes
it: whatever the other capabilities are, it compares and mutates and issues durable identities.
-/

namespace Osdns

/-- The pure part of the `Backend` trait. -/
structure Backend (D : Type) where
  kind : BackendKind
  capabilities : Capabilities
  equivalent : PlatformSnapshot D → PlatformSnapshot D → Bool
  matchesDesired : PlatformSnapshot D → NormalizedConfig → Bool
  provesCurrent : PlatformSnapshot D → PlatformSnapshot D → Bool
  validatePlan : DnsScope → NormalizedConfig → Except Error Unit

namespace Backend

variable {D : Type} (B : Backend D)

def mutationGuard : MutationGuard := B.capabilities.mutationGuard

def ownershipIdentity : OwnershipIdentity := B.capabilities.ownershipIdentity

/-- Whether `claimed` still names `current` as a state we produced. -/
def ownsCurrent (claimed current : PlatformSnapshot D) : Bool :=
  match B.ownershipIdentity with
  | .durable => B.provesCurrent claimed current
  | .bestEffort => B.equivalent claimed current

end Backend

/-! ## The fake backend -/

/-- The fake backend's representation of one resource's DNS state. -/
inductive FakeState
  | empty
  | configured (nameservers : List IpAddr) (searchDomains routingDomains : List DnsSuffix)
      (defaultRoute : Option Bool)
  deriving DecidableEq

/-- A fake snapshot: the managed state and the generation it was captured at. -/
structure FakeSnapshotData where
  state : FakeState
  generation : Nat
  deriving DecidableEq

structure FakeIdentity where
  incarnation : Nat
  deriving DecidableEq

abbrev FakeSnapshot := PlatformSnapshot FakeSnapshotData

abbrev FakeResourceIdentity := ResourceIdentity FakeIdentity

abbrev FakeRecord := JournalRecord FakeSnapshotData FakeIdentity

abbrev FakeLive := LiveRecord FakeSnapshotData FakeIdentity

/-- Whether a configuration expresses nothing at all. -/
def NormalizedConfig.isEmpty (plan : NormalizedConfig) : Bool :=
  plan.nameservers.isEmpty && plan.searchDomains.isEmpty && plan.routingDomains.isEmpty &&
    plan.defaultRoute.isNone

/-- Merges a plan onto existing state, preserving the default route when the plan leaves it
unspecified. -/
def mergeState (current : FakeState) (plan : NormalizedConfig) : FakeState :=
  let defaultRoute :=
    match plan.defaultRoute with
    | some value => some value
    | none =>
        match current with
        | .configured _ _ _ defaultRoute => defaultRoute
        | .empty => none
  let merged := { plan with defaultRoute := defaultRoute }
  if merged.isEmpty then .empty
  else .configured merged.nameservers merged.searchDomains merged.routingDomains
    merged.defaultRoute

/-- Whether a stored state already expresses a plan, ignoring the default route when the plan
leaves it unspecified. -/
def stateMatches (state : FakeState) (plan : NormalizedConfig) : Bool :=
  match state with
  | .empty => plan.isEmpty
  | .configured nameservers searchDomains routingDomains defaultRoute =>
      nameservers == plan.nameservers && searchDomains == plan.searchDomains &&
        routingDomains == plan.routingDomains &&
        match plan.defaultRoute with
        | some wanted => defaultRoute == some wanted
        | none => true

/-- Applying a plan produces a state that expresses it. -/
@[simp] lemma stateMatches_mergeState (current : FakeState) (plan : NormalizedConfig) :
    stateMatches (mergeState current plan) plan = true := by
  obtain ⟨nameservers, searchDomains, routingDomains, defaultRoute⟩ := plan
  cases defaultRoute <;> cases current <;>
    simp only [mergeState] <;> split <;> simp_all [stateMatches, NormalizedConfig.isEmpty]

/-- `interpret_full`: only snapshots of the fake backend can be read. -/
def interpretFull (snapshot : FakeSnapshot) : Except Error FakeSnapshotData :=
  if snapshot.backend = .fake then .ok snapshot.data
  else .error (.platform .fake
    s!"snapshot belongs to backend {snapshot.backend.text} and cannot be interpreted here")

/-- `FakeBackend::build` over the given capabilities. -/
def fakeBackend (caps : Capabilities) : Backend FakeSnapshotData where
  kind := .fake
  capabilities :=
    { caps with mutationGuard := .compareAndMutate, ownershipIdentity := .durable }
  equivalent a b :=
    match interpretFull a, interpretFull b with
    | .ok x, .ok y => x.state == y.state
    | _, _ => false
  matchesDesired snapshot plan :=
    match interpretFull snapshot with
    | .ok data => stateMatches data.state plan
    | .error _ => false
  provesCurrent proof current :=
    match interpretFull proof, interpretFull current with
    | .ok a, .ok b => a.generation == b.generation && a.state == b.state
    | _, _ => false
  validatePlan _ _ := .ok ()

/-! ## Snapshots of one resource -/

/-- A snapshot the fake backend took of the resource `r`. -/
def PlatformSnapshot.Of (r : ResourceId) (p : FakeSnapshot) : Prop :=
  p.backend = .fake ∧ p.resource = r

section FakeComparisons

variable {caps : Capabilities} {r : ResourceId} {p q : FakeSnapshot}

@[simp] lemma fakeBackend_mutationGuard :
    (fakeBackend caps).mutationGuard = .compareAndMutate := rfl

@[simp] lemma fakeBackend_ownershipIdentity :
    (fakeBackend caps).ownershipIdentity = .durable := rfl

@[simp] lemma fakeBackend_ownsCurrent :
    (fakeBackend caps).ownsCurrent p q = (fakeBackend caps).provesCurrent p q := rfl

lemma interpretFull_of (hp : p.Of r) : interpretFull p = .ok p.data := by
  simp [interpretFull, hp.1]

lemma fakeBackend_equivalent (hp : p.Of r) (hq : q.Of r) :
    (fakeBackend caps).equivalent p q = true ↔ p.data.state = q.data.state := by
  simp [fakeBackend, interpretFull_of hp, interpretFull_of hq]

lemma fakeBackend_matchesDesired (hp : p.Of r) (plan : NormalizedConfig) :
    (fakeBackend caps).matchesDesired p plan = stateMatches p.data.state plan := by
  simp [fakeBackend, interpretFull_of hp]

/-- Two snapshots of one resource prove each other exactly when they are the same. -/
lemma fakeBackend_provesCurrent (hp : p.Of r) (hq : q.Of r) :
    (fakeBackend caps).provesCurrent p q = true ↔ p = q := by
  simp only [fakeBackend, interpretFull_of hp, interpretFull_of hq, Bool.and_eq_true, beq_iff_eq]
  constructor
  · rintro ⟨hg, hs⟩
    obtain ⟨pb, pr, ps, pg⟩ := p
    obtain ⟨qb, qr, qs, qg⟩ := q
    obtain ⟨rfl, rfl⟩ := hp
    obtain ⟨rfl, rfl⟩ := hq
    simp_all
  · rintro rfl
    exact ⟨rfl, rfl⟩

end FakeComparisons

end Osdns
