import Osdns.Platform.Lifetime

/-!
# Verdicts over a lifetime

`Gone` and `Replaced` make the engine discard the journal record of a resource, so they should be
final.  The native environment is a function of time (`NativeEnv`), and a backend asks it one
question at a time while it goes on changing.

The verdicts are final as long as no name is used again (`NoReuse`), the object of an identity does
not come back after it was lost (`Steady`) and links are neither renamed nor misread while they are
looked for (`Undisrupted`); see `verdicts_final`.  An adapter or a link that does come back makes
them false (`verdict_taken_back`).
-/

namespace Osdns

open Interaction
open Interaction.Fallible (ask value observes_bind observes_cases observes_value)

/-! ## Environments -/

/-- What the backends ask about. -/
structure NativeEnv where
  bootId : Uuid
  netns : List Char
  /-- The entries of `/sys/class/net`. -/
  links : LinkName → Option Inode
  /-- The owner of NetworkManager's bus name. -/
  serviceOwner : Option (List Char)
  /-- NetworkManager's devices and the active connection of each. -/
  devices : ObjectPath → Option ObjectPath
  /-- The UUID of the connection an activation has applied. -/
  applied : ObjectPath → Option Uuid
  adapters : List Guid

variable {index : Inode → Nat}

/-- The answers an environment may give, where `index` is the interface index of a link.  Every
question may fail, and entries of a directory may be missed. -/
def Truthful (index : Inode → Nat) (e : NativeEnv) (o : NativeOp) (r : NativeRet o) : Prop :=
  match o, r with
  | .bootId, .ok bootId => bootId = e.bootId
  | .netns, .ok netns => netns = e.netns
  | .readDir, .ok names => ∀ name ∈ names, (e.links name).isSome
  | .readIfindex name, some ifindex => ∃ inode, e.links name = some inode ∧ index inode = ifindex
  | .openLink name, .ok inode => e.links name = some inode
  | .inodeOf handle, .ok inode => inode = handle
  | .serviceOwner, .ok owner => e.serviceOwner = some owner
  | .activeConnection path, .ok active => e.devices path = some active
  | .activeConnection path, .error (.unknownObject _) => e.devices path = none
  | .appliedUuid path, .ok uuid => ∃ active, e.devices path = some active ∧ e.applied active = uuid
  | .appliedUuid path, .error (.unknownObject _) => e.devices path = none
  | .listAdapters, .ok adapters => ∀ guid, guid ∈ adapters ↔ guid ∈ e.adapters
  | _, _ => True

/-- Truthful in which no entry of `/sys/class/net` is missed and no index of a link there is left
unread. -/
def InFull (index : Inode → Nat) (e : NativeEnv) (o : NativeOp) (r : NativeRet o) : Prop :=
  Truthful index e o r ∧
    match o, r with
    | .readDir, .ok names => ∀ name, (e.links name).isSome → name ∈ names
    | .readIfindex name, none => e.links name = none
    | _, _ => True

/-- The active connection of a device that has none. -/
def noActivation : ObjectPath := ['/']

/-- Boot ids and the object paths of activations are never used again, and links have distinct
indexes.  No inode stands for two links, but a link may leave and come back. -/
structure NoReuse (index : Inode → Nat) (env : Nat → NativeEnv) : Prop where
  bootId : ∀ b, NeverBack (fun e => e.bootId = b) env
  activation : ∀ path active, active ≠ noActivation →
    NeverBack (fun e => e.devices path = some active) env
  distinct : ∀ t name name' inode inode', (env t).links name = some inode →
    (env t).links name' = some inode' → index inode = index inode' → inode = inode'

/-- The adapter or link of an identity does not come back once it is absent, and the activation of
an identity keeps its connection. -/
structure Steady (env : Nat → NativeEnv) (identity : HeldIdentity) : Prop where
  adapter : ∀ guid, Windows.parseResource identity.resource = .ok (.interface guid) →
    NeverBack (fun e => guid ∈ e.adapters) env
  link : ∀ inode, identity.liveHandle = some inode →
    NeverBack (fun e => ∃ name, e.links name = some inode) env
  connection : ∀ data, identity.data = .networkManager data →
    ∀ t t', (env t).applied data.activePath = (env t').applied data.activePath

/-- No link changes its name between two moments. -/
def Unrenamed (env : Nat → NativeEnv) (t t' : Nat) : Prop :=
  ∀ u v name name' inode, t ≤ u → u ≤ t' → t ≤ v → v ≤ t' →
    (env u).links name = some inode → (env v).links name' = some inode → name = name'

/-- A call of a backend that is answered in full; no link is renamed while systemd-resolved looks
for one. -/
def Undisrupted {α : Type} (index : Inode → Nat) (env : Nat → NativeEnv) (backend : NativeBackend)
    (p : NativeResult α) (t : Nat) (answer : Except Error α) (t' : Nat) : Prop :=
  p.run.Observes (InFull index) env t answer t' ∧
    (backend = .systemdResolved → Unrenamed env t t')

/-- An identity, or what a journal keeps of it. -/
def SameIdentity (captured identity : HeldIdentity) : Prop :=
  identity = captured ∨ identity = { captured with liveHandle := none }

/-- Status calls for one identity, one after the other. -/
inductive Asked (index : Inode → Nat) (env : Nat → NativeEnv) (backend : NativeBackend)
    (captured : HeldIdentity) : Nat → List (Except Error ResourceStatus) → Prop
  | nil (t : Nat) : Asked index env backend captured t []
  | cons {t u u' : Nat} {identity : HeldIdentity} {answer : Except Error ResourceStatus}
      {answers : List (Except Error ResourceStatus)} (later : t ≤ u)
      (same : SameIdentity captured identity)
      (call : Undisrupted index env backend (backend.resourceStatus identity) u answer u')
      (rest : Asked index env backend captured u' answers) :
      Asked index env backend captured t (answer :: answers)

/-- The verdicts on which a journal record is discarded. -/
def Discards (answer : Except Error ResourceStatus) : Prop :=
  answer = .ok .gone ∨ answer = .ok .replaced

/-! ## LifetimeFact

What a backend relies on when it says that the object is the same. -/

/-- The facts about the environment that make up the lifetime of an identity. -/
inductive LifetimeFact (captured : HeldIdentity) : NativeBackend → (NativeEnv → Prop) → Prop
  | boot (data : ResolvedIdentity) (h : captured.data = .systemdResolved data) :
      LifetimeFact captured .systemdResolved fun e => e.bootId = data.bootId
  | link (inode : Inode) (h : captured.liveHandle = some inode) :
      LifetimeFact captured .systemdResolved fun e => ∃ name, e.links name = some inode
  | activation (data : NmResourceIdentity) (h : captured.data = .networkManager data)
      (active : data.activePath ≠ noActivation) :
      LifetimeFact captured .networkManager fun e => e.devices data.devicePath = some data.activePath
  | adapter (guid : Guid) (h : Windows.parseResource captured.resource = .ok (.interface guid)) :
      LifetimeFact captured .windows fun e => guid ∈ e.adapters

/-- A fact holds at some moment of an interval. -/
def SeenWithin (env : Nat → NativeEnv) (P : NativeEnv → Prop) (t t' : Nat) : Prop :=
  ∃ w, t ≤ w ∧ w ≤ t' ∧ P (env w)

variable {env : Nat → NativeEnv} {captured identity : HeldIdentity} {P : NativeEnv → Prop}
  {t t' : Nat}

lemma SeenWithin.mono {u u' : Nat} (h : SeenWithin env P u u') (front : t ≤ u) (back : u' ≤ t') :
    SeenWithin env P t t' := by
  obtain ⟨w, hu, hu', hp⟩ := h
  exact ⟨w, front.trans hu, hu'.trans back, hp⟩

lemma LifetimeFact.neverBack {backend : NativeBackend} (he : LifetimeFact captured backend P)
    (noReuse : NoReuse index env) (steady : Steady env captured) : NeverBack P env := by
  cases he with
  | boot data h => exact noReuse.bootId _
  | link inode h => exact steady.link inode h
  | activation data h active => exact noReuse.activation _ _ active
  | adapter guid h => exact steady.adapter guid h

/-! ## Calls that succeed -/

section Calls

variable {A : NativeEnv → (o : NativeOp) → NativeRet o → Prop}

/-- A result that is computed. -/
lemma observes_pure {α : Type} {p answer : Except Error α}
    (h : (Program.done p : Native (Except Error α)).Observes A env t answer t') :
    p = answer ∧ t ≤ t' :=
  ⟨h.1.symm, h.2⟩

/-- A result that is asked for. -/
lemma observes_asking {o : NativeOp} {r : NativeRet o}
    (h : (asking o).Observes A env t r t') : ∃ w, t ≤ w ∧ w ≤ t' ∧ A (env w) o r := by
  obtain ⟨w, r', ht, ha, hr, ht'⟩ := h
  exact ⟨w, ht, ht', hr ▸ ha⟩

end Calls

namespace Windows

/-- `interface_present` sees an adapter exactly when it is there. -/
lemma observes_interfacePresent {guid : Guid} {present : Bool}
    (h : (interfacePresent guid).run.Observes (InFull index) env t (.ok present) t') :
    SeenWithin env (fun e => present = true ↔ guid ∈ e.adapters) t t' := by
  obtain ⟨adapters, u, asked, done⟩ := observes_bind h
  obtain ⟨w, hw, hu, full, _⟩ := observes_asking asked
  obtain ⟨ha, ht⟩ := done
  cases ha
  refine ⟨w, hw, hu.trans ht, ?_⟩
  rw [decide_eq_true_iff]
  exact full guid

/-- What a verdict about an adapter tells. -/
lemma observes_resourceStatus {guid : Guid} {status : ResourceStatus}
    (hk : parseResource identity.resource = .ok (.interface guid))
    (h : (resourceStatus identity).run.Observes (InFull index) env t (.ok status) t') :
    (status = .same ∧ SeenWithin env (fun e => guid ∈ e.adapters) t t') ∨
      (status = .gone ∧ SeenWithin env (fun e => guid ∉ e.adapters) t t') := by
  unfold resourceStatus at h
  split at h
  · cases h.1
  · obtain ⟨kind, u, parsed, h⟩ := observes_bind h
    obtain ⟨hp, hu⟩ := observes_pure parsed
    rw [hk] at hp
    cases hp
    obtain ⟨present, v, asked, hs, ht⟩ := observes_bind h
    obtain ⟨w, hw, hv, seen⟩ := observes_interfacePresent asked
    cases present with
    | true => exact .inl ⟨Except.ok.inj hs, w, hu.trans hw, hv.trans ht, seen.mp rfl⟩
    | false =>
        exact .inr ⟨Except.ok.inj hs, w, hu.trans hw, hv.trans ht, fun hg => by
          simpa using seen.mpr hg⟩

/-- A rule of the Name Resolution Policy Table is always the same. -/
lemma observes_nrpt {key : List Char} {status : ResourceStatus}
    (hk : parseResource identity.resource = .ok (.nrpt key))
    (h : (resourceStatus identity).run.Observes (InFull index) env t (.ok status) t') :
    status = .same := by
  unfold resourceStatus at h
  split at h
  · cases h.1
  · obtain ⟨kind, u, parsed, h⟩ := observes_bind h
    obtain ⟨hp, hu⟩ := observes_pure parsed
    rw [hk] at hp
    cases hp
    exact Except.ok.inj h.1

/-- No verdict without a resource. -/
lemma observes_kind {status : ResourceStatus}
    (h : (resourceStatus identity).run.Observes (InFull index) env t (.ok status) t') :
    ∃ kind, parseResource identity.resource = .ok kind := by
  unfold resourceStatus at h
  split at h
  · cases h.1
  · obtain ⟨kind, u, parsed, h⟩ := observes_bind h
    exact ⟨kind, (observes_pure parsed).1⟩

end Windows

/-! ## What verdicts tell -/

/-- What is known of the calls of a backend about one captured identity. -/
structure Tells (index : Inode → Nat) (env : Nat → NativeEnv) (backend : NativeBackend)
    (captured : HeldIdentity) : Prop where
  /-- The object was there when the identity was captured. -/
  captures : ∀ t t', Undisrupted index env backend (backend.observe captured.resource) t
    (.ok captured) t' → ∀ P, LifetimeFact captured backend P → SeenWithin env P t t'
  /-- The object is there when the verdict is `Same`. -/
  same : ∀ t t' identity, SameIdentity captured identity →
    Undisrupted index env backend (backend.resourceStatus identity) t (.ok .same) t' →
      ∀ P, LifetimeFact captured backend P → SeenWithin env P t t'
  /-- Something is missing when the verdict makes the engine give up. -/
  discards : ∀ t t' identity answer, SameIdentity captured identity → Discards answer →
    Undisrupted index env backend (backend.resourceStatus identity) t answer t' →
      ∃ P, LifetimeFact captured backend P ∧ SeenWithin env (fun e => ¬ P e) t t'

/-- What a call that said `Same` had seen, among the calls asked from a moment on. -/
lemma Tells.seen {backend : NativeBackend} (tells : Tells index env backend captured)
    {answers : List (Except Error ResourceStatus)}
    (asked : Asked index env backend captured t answers) (hs : Except.ok .same ∈ answers)
    (he : LifetimeFact captured backend P) :
    ∃ w, t ≤ w ∧ P (env w) := by
  induction asked with
  | nil t => cases hs
  | cons later same call rest ih =>
      rcases List.mem_cons.mp hs with rfl | hs
      · obtain ⟨w, hw, _, hp⟩ := tells.same _ _ _ same call P he
        exact ⟨w, later.trans hw, hp⟩
      · obtain ⟨w, hw, hp⟩ := ih hs
        exact ⟨w, later.trans (call.1.le.trans hw), hp⟩

/-- Verdicts that tell enough are final. -/
lemma Tells.final {backend : NativeBackend} (tells : Tells index env backend captured)
    (noReuse : NoReuse index env) (steady : Steady env captured)
    (observed : Undisrupted index env backend (backend.observe captured.resource) t
      (.ok captured) t')
    {u : Nat} (later : t' ≤ u) {answers : List (Except Error ResourceStatus)}
    (asked : Asked index env backend captured u answers) :
    answers.Pairwise fun answer answer' => Discards answer → answer' ≠ .ok .same := by
  induction asked with
  | nil u => exact .nil
  | cons hu same call rest ih =>
      refine .cons (fun answer' member discards same' => ?_)
        (ih (later.trans (hu.trans call.1.le)))
      subst same'
      obtain ⟨P, he, w, hw, hw', lost⟩ := tells.discards _ _ _ _ same discards call
      obtain ⟨v, _, hv, before⟩ := tells.captures _ _ observed P he
      obtain ⟨v', hv', after⟩ := tells.seen rest member he
      exact he.neverBack noReuse steady v w v' (hv.trans (later.trans (hu.trans hw)))
        (hw'.trans hv') before lost after

lemma SameIdentity.resource (h : SameIdentity captured identity) :
    identity.resource = captured.resource := by
  rcases h with rfl | rfl <;> rfl

lemma SameIdentity.data (h : SameIdentity captured identity) : identity.data = captured.data := by
  rcases h with rfl | rfl <;> rfl

/-- The default observation captures an identity and then finds it the same. -/
lemma observes_observeWith {backend : NativeBackend} {resource : ResourceId}
    {identify : NativeResult HeldIdentity} {capture : NativeResult Unit}
    (h : (backend.observeWith resource identify capture).run.Observes (InFull index) env t
      (.ok captured) t') :
    ∃ u v v', t ≤ u ∧ u ≤ v ∧ v' ≤ t' ∧
      identify.run.Observes (InFull index) env t (.ok captured) u ∧
      (backend.resourceStatus captured).run.Observes (InFull index) env v (.ok .same) v' := by
  obtain ⟨identity, u, identified, h⟩ := observes_bind h
  obtain ⟨_, v, read, h⟩ := observes_bind h
  obtain ⟨status, v', asked, h⟩ := observes_bind h
  split at h
  · cases h.1
  · next hs =>
      obtain ⟨hc, ht⟩ := h
      cases hc
      obtain rfl : status = .same := by simpa using hs
      exact ⟨u, v, v', identified.le, read.le, ht, identified, asked⟩

/-! ## Windows -/

namespace Windows

lemma tells : Tells index env .windows captured where
  captures t t' observed P he := by
    cases he with
    | adapter guid hk =>
        obtain ⟨u, v, v', hu, hv, hv', _, asked⟩ := observes_observeWith observed.1
        rcases observes_resourceStatus hk asked with ⟨_, seen⟩ | ⟨hs, _⟩
        · exact seen.mono (hu.trans hv) hv'
        · cases hs
  same t t' identity same call P he := by
    cases he with
    | adapter guid hk =>
        rw [← same.resource] at hk
        rcases observes_resourceStatus hk call.1 with ⟨_, seen⟩ | ⟨hs, _⟩
        · exact seen
        · cases hs
  discards t t' identity answer same discards call := by
    obtain ⟨status, rfl, hs⟩ : ∃ status, answer = .ok status ∧ status ≠ .same := by
      rcases discards with rfl | rfl
      · exact ⟨.gone, rfl, nofun⟩
      · exact ⟨.replaced, rfl, nofun⟩
    obtain ⟨kind, hk⟩ := observes_kind call.1
    cases kind with
    | interface guid =>
        rcases observes_resourceStatus hk call.1 with ⟨hs', _⟩ | ⟨_, seen⟩
        · exact absurd hs' hs
        · exact ⟨_, .adapter guid (same.resource ▸ hk), seen⟩
    | nrpt key => exact absurd (observes_nrpt hk call.1) hs

end Windows

/-! ## NetworkManager -/

namespace NetworkManager

variable {A : NativeEnv → (o : NativeOp) → NativeRet o → Prop}

/-- What a call on an object was answered. -/
lemma observes_onResource {α : Type} {resource : ResourceId} {p : Native (Except DbusError α)}
    {answer : Except Error α} (h : (onResource resource p).run.Observes A env t answer t') :
    ∃ reply u, p.Observes A env t reply u ∧ u ≤ t' ∧
      answer = reply.mapError (nmResourceError resource) := by
  obtain ⟨reply, u, asked, ha, hu⟩ := Program.Observes.bind h
  exact ⟨reply, u, asked, hu, ha⟩

lemma observes_onObject {α : Type} {p : Native (Except DbusError α)} {answer : Except Error α}
    (h : (onObject p).run.Observes A env t answer t') :
    ∃ reply u, p.Observes A env t reply u ∧ u ≤ t' ∧
      answer = reply.mapError fun error => .platform .networkManager error.message := by
  obtain ⟨reply, u, asked, ha, hu⟩ := Program.Observes.bind h
  exact ⟨reply, u, asked, hu, ha⟩

/-- The active connection that a call on a device read. -/
lemma observes_activeConnection {resource : ResourceId} {path active : ObjectPath}
    (h : (onResource resource (asking (.activeConnection path))).run.Observes (InFull index) env t
      (.ok active) t') : SeenWithin env (fun e => e.devices path = some active) t t' := by
  obtain ⟨reply, u, asked, hu, ha⟩ := observes_onResource h
  cases reply with
  | ok a =>
      cases ha
      obtain ⟨w, hw, hw', full⟩ := observes_asking asked
      exact ⟨w, hw, hw'.trans hu, full.1⟩
  | error e => cases ha

/-- The connection that a call on a device read. -/
lemma observes_applied {p : NativeResult (Option Uuid)} {path : ObjectPath} {uuid : Option Uuid}
    (hp : ∃ convert : DbusError → Error, p =
      ask ((asking (.appliedUuid path)).bind fun answer => .done (answer.mapError convert)))
    (h : p.run.Observes (InFull index) env t (.ok uuid) t') :
    SeenWithin env (fun e => ∃ active, e.devices path = some active ∧ e.applied active = uuid) t t' := by
  obtain ⟨convert, rfl⟩ := hp
  obtain ⟨reply, u, asked, ha, hu⟩ := Program.Observes.bind h
  cases reply with
  | ok a =>
      cases ha
      obtain ⟨w, hw, hw', full⟩ := observes_asking asked
      exact ⟨w, hw, hw'.trans hu, full.1⟩
  | error e => cases ha

/-- What an observation saw of the activation it captured. -/
lemma observes_observe {resource : ResourceId}
    (h : (observe resource).run.Observes (InFull index) env t (.ok captured) t')
    (noReuse : NoReuse index env) :
    ∃ data, captured.data = .networkManager data ∧ (data.activePath ≠ noActivation →
      ∃ w, t ≤ w ∧ w ≤ t' ∧ (env w).devices data.devicePath = some data.activePath ∧
        (env w).applied data.activePath = some data.connectionUuid) := by
  unfold observe at h
  split at h
  · cases h.1
  · next name _ =>
      obtain ⟨device, u₁, found, h⟩ := observes_bind h
      obtain ⟨owner, u₂, owned, h⟩ := observes_bind h
      obtain ⟨active, u₃, before, h⟩ := observes_bind h
      obtain ⟨applied, u₄, read, h⟩ := observes_bind h
      split at h
      · cases h.1
      · next uuid =>
          obtain ⟨ownerNow, u₅, ownedNow, h⟩ := observes_bind h
          obtain ⟨activeNow, u₆, after, h⟩ := observes_bind h
          split at h
          · cases h.1
          · next hs =>
              obtain ⟨hc, ht⟩ := h
              cases hc
              obtain ⟨rfl, rfl⟩ : owner = ownerNow ∧ active = activeNow := by simpa using hs
              obtain ⟨i, hi, hi', first⟩ := observes_activeConnection before
              obtain ⟨j, hj, hj', present, device', applied'⟩ := observes_applied ⟨_, rfl⟩ read
              obtain ⟨k, hk, _, last⟩ := observes_activeConnection after
              refine ⟨_, rfl, fun connected => ?_⟩
              have between := (noReuse.activation device active connected).between (hi'.trans hj)
                (hj'.trans (ownedNow.le.trans hk)) first last
              rw [between] at device'
              cases device'
              refine ⟨j, ?_, ?_, between, applied'⟩
              · exact found.le.trans (owned.le.trans (before.le.trans hj))
              · exact hj'.trans (ownedNow.le.trans (after.le.trans ht))

lemma data_of_decode {data : NmResourceIdentity} (h : decode identity = .ok data) :
    identity.data = .networkManager data := by
  unfold decode at h
  split at h
  · cases h
  · split at h
    · cases h
    · split at h
      · next found hd =>
          split at h
          · cases h
          · cases h
            exact hd
      · cases h

/-- An identity without an activation is refused. -/
lemma active_of_decode {data : NmResourceIdentity} (h : decode identity = .ok data) :
    data.activePath ≠ noActivation := by
  have invalid : nativeObjectPath noActivation "ActiveConnection".toList = false := by decide
  unfold decode at h
  split at h
  · cases h
  · split at h
    · cases h
    · split at h
      · split at h
        · cases h
        · next valid =>
            cases h
            intro none
            rw [none, invalid] at valid
            simp at valid
      · cases h

/-- A status call that says neither `Same` nor lets the engine give up. -/
def Undecided (answer : Except Error ResourceStatus) : Prop :=
  answer ≠ .ok .same ∧ ¬ Discards answer ∧
    ∀ backend resource message, answer ≠ .error (.resourceGone backend resource message)

/-- What the closure of `resource_status` found out about the activation of an identity. -/
inductive Activation (env : Nat → NativeEnv) (data : NmResourceIdentity) (t t' : Nat) :
    Except Error ResourceStatus → Prop
  | undecided {answer : Except Error ResourceStatus} (h : Undecided answer) :
      Activation env data t t' answer
  | same (seen : SeenWithin env (fun e => e.devices data.devicePath = some data.activePath) t t') :
      Activation env data t t' (.ok .same)
  | switched {active : ObjectPath} (other : active ≠ data.activePath)
      (seen : SeenWithin env (fun e => e.devices data.devicePath = some active) t t') :
      Activation env data t t' (.ok .replaced)
  | reconnected {uuid : Uuid} (other : uuid ≠ data.connectionUuid)
      (seen : SeenWithin env (fun e => ∃ active, e.devices data.devicePath = some active ∧
        e.applied active = some uuid) t t') :
      Activation env data t t' (.ok .replaced)
  | gone (resource : ResourceId) (message : String)
      (seen : SeenWithin env (fun e => e.devices data.devicePath = none) t t') :
      Activation env data t t' (.error (.resourceGone .networkManager resource message))

lemma Activation.mono {data : NmResourceIdentity} {u u' : Nat} {answer : Except Error ResourceStatus}
    (h : Activation env data u u' answer) (front : t ≤ u) (back : u' ≤ t') :
    Activation env data t t' answer := by
  cases h with
  | undecided h => exact .undecided h
  | same seen => exact .same (seen.mono front back)
  | switched other seen => exact .switched other (seen.mono front back)
  | reconnected other seen => exact .reconnected other (seen.mono front back)
  | gone resource message seen => exact .gone resource message (seen.mono front back)

lemma undecided_platform (backend : BackendKind) (message : String) :
    Undecided (.error (.platform backend message)) := by
  refine ⟨nofun, ?_, nofun⟩
  rintro (h | h) <;> cases h

/-- A call on the device that failed. -/
lemma activation_failed {α : Type} {resource : ResourceId} {data : NmResourceIdentity}
    {p : Native (Except DbusError α)} {e : Error}
    (missing : ∀ message u u', p.Observes (InFull index) env u (.error (.unknownObject message)) u' →
      SeenWithin env (fun e => e.devices data.devicePath = none) u u')
    (h : (onResource resource p).run.Observes (InFull index) env t (.error e) t') :
    Activation env data t t' (.error e) := by
  obtain ⟨reply, u, asked, hu, ha⟩ := observes_onResource h
  cases reply with
  | ok a => cases ha
  | error error =>
      cases error with
      | unknownObject message =>
          cases ha
          exact .gone resource message ((missing message _ _ asked).mono le_rfl hu)
      | other message =>
          cases ha
          exact .undecided (undecided_platform _ _)

lemma undecided_of_decode {e : Error} (h : decode identity = .error e) :
    Undecided (.error e) := by
  have corrupt : ∃ message, e = .journalCorrupt message := by
    unfold decode at h
    split at h
    · exact ⟨_, (Except.error.inj h).symm⟩
    · split at h
      · exact ⟨_, (Except.error.inj h).symm⟩
      · split at h
        · split at h
          · exact ⟨_, (Except.error.inj h).symm⟩
          · cases h
        · exact ⟨_, (Except.error.inj h).symm⟩
  obtain ⟨message, rfl⟩ := corrupt
  refine ⟨nofun, ?_, nofun⟩
  rintro (h | h) <;> cases h

lemma classifyNmActivation_same {data : NmResourceIdentity} {owner : List Char} {uuid : Uuid}
    (ho : data.serviceOwner = owner) (hu : data.connectionUuid = uuid) :
    classifyNmActivation data owner data.activePath uuid = .same := by
  simp [classifyNmActivation, ho, hu]

lemma classifyNmActivation_replaced {data : NmResourceIdentity} {owner : List Char} {uuid : Uuid}
    (ho : data.serviceOwner = owner) (hu : data.connectionUuid ≠ uuid) :
    classifyNmActivation data owner data.activePath uuid = .replaced := by
  simp [classifyNmActivation, ho, hu]

lemma observes_activationStatus {data : NmResourceIdentity} {answer : Except Error ResourceStatus}
    (hd : identity.data = .networkManager data)
    (h : (activationStatus identity).run.Observes (InFull index) env t answer t') :
    Activation env data t t' answer := by
  unfold activationStatus at h
  obtain ⟨recorded, u₁, decoded, h⟩ | ⟨e, u, rfl, failed, _⟩ := observes_cases h
  · obtain ⟨hr, hu₁⟩ := observes_pure decoded
    have data' := data_of_decode hr
    rw [hd] at data'
    cases data'
    obtain ⟨owner, u₂, owned, h⟩ | ⟨e, u, rfl, failed, _⟩ := observes_cases h
    · split at h
      · cases h.1
        refine .undecided ⟨nofun, ?_, nofun⟩
        rintro (h | h) <;> cases h
      · next running =>
          have owner' : data.serviceOwner = owner := by simpa using running
          obtain ⟨active, u₃, read, h⟩ | ⟨e, u, rfl, failed, hu⟩ := observes_cases h
          · have front := hu₁.trans owned.le
            have seen := observes_activeConnection read
            split at h
            · next other =>
                obtain ⟨ha, ht⟩ := h
                cases ha
                exact .switched other (seen.mono front ht)
            · next current =>
                obtain rfl : active = data.activePath := by simpa using current
                obtain ⟨uuid, u₄, read', h⟩ | ⟨e, u, rfl, failed, hu⟩ := observes_cases h
                · have seen' := observes_applied ⟨_, rfl⟩ read'
                  cases uuid with
                  | none =>
                      cases h.1
                      exact .undecided (undecided_platform _ _)
                  | some currentUuid =>
                      obtain ⟨ha, ht⟩ := h
                      cases ha
                      by_cases connection : data.connectionUuid = currentUuid
                      · rw [classifyNmActivation_same owner' connection]
                        exact .same (seen.mono front (read'.le.trans ht))
                      · rw [classifyNmActivation_replaced owner' connection]
                        exact .reconnected (Ne.symm connection) (seen'.mono (front.trans read.le) ht)
                · refine (activation_failed (fun message u u' asked => ?_) failed).mono
                    (front.trans read.le) hu
                  obtain ⟨w, hw, hw', full⟩ := observes_asking asked
                  exact ⟨w, hw, hw', full.1⟩
          · refine (activation_failed (fun message u u' asked => ?_) failed).mono
              (hu₁.trans owned.le) hu
            obtain ⟨w, hw, hw', full⟩ := observes_asking asked
            exact ⟨w, hw, hw', full.1⟩
    · obtain ⟨reply, _, _, _, ha⟩ := observes_onObject failed
      cases reply with
      | ok a => cases ha
      | error error =>
          cases ha
          exact .undecided (undecided_platform _ _)
  · exact .undecided (undecided_of_decode (observes_pure failed).1)

/-- A verdict, and what the closure behind it answered. -/
lemma observes_resourceStatus {data : NmResourceIdentity} {answer : Except Error ResourceStatus}
    (hd : identity.data = .networkManager data)
    (h : (resourceStatus identity).run.Observes (InFull index) env t answer t') :
    ∃ result, Activation env data t t' result ∧
      answer = classifyLifetimeResult identity.resource result := by
  obtain ⟨result, u, asked, ha, hu⟩ := Program.Observes.bind h
  exact ⟨result, (observes_activationStatus hd asked).mono le_rfl hu, ha⟩

lemma classifyLifetimeResult_same {resource : ResourceId} {result : Except Error ResourceStatus}
    (h : classifyLifetimeResult resource result = .ok .same) : result = .ok .same := by
  unfold classifyLifetimeResult at h
  split at h
  · split at h <;> cases h
  · exact h

/-- The activation was lost when a verdict makes the engine give up. -/
lemma lost_of_discards {data : NmResourceIdentity} {resource : ResourceId}
    {result : Except Error ResourceStatus}
    (connection : ∀ w, (env w).applied data.activePath = some data.connectionUuid)
    (activation : Activation env data t t' result)
    (discards : Discards (classifyLifetimeResult resource result)) :
    SeenWithin env (fun e => ¬ e.devices data.devicePath = some data.activePath) t t' := by
  cases activation with
  | undecided h =>
      refine absurd ?_ h.2.1
      unfold classifyLifetimeResult at discards
      split at discards
      · exact absurd rfl (h.2.2 _ _ _)
      · exact discards
  | same seen => rcases discards with h | h <;> cases h
  | switched other seen =>
      obtain ⟨w, hw, hw', present⟩ := seen
      exact ⟨w, hw, hw', fun same => other (Option.some.inj (present.symm.trans same))⟩
  | reconnected other seen =>
      obtain ⟨w, hw, hw', active, present, applied⟩ := seen
      refine ⟨w, hw, hw', fun same => ?_⟩
      obtain rfl := Option.some.inj (present.symm.trans same)
      exact other (Option.some.inj (applied.symm.trans (connection w)))
  | gone resource message seen =>
      obtain ⟨w, hw, hw', missing⟩ := seen
      exact ⟨w, hw, hw', fun same => by simp [missing] at same⟩

/-- A verdict is about an activation. -/
lemma active_of_discards {data : NmResourceIdentity} {answer : Except Error ResourceStatus}
    (hd : identity.data = .networkManager data) (discards : Discards answer)
    (h : (resourceStatus identity).run.Observes (InFull index) env t answer t') :
    data.activePath ≠ noActivation := by
  obtain ⟨result, u, asked, ha, _⟩ := Program.Observes.bind h
  unfold activationStatus at asked
  obtain ⟨recorded, _, decoded, _⟩ | ⟨e, _, rfl, failed, _⟩ := observes_cases asked
  · have hr := (observes_pure decoded).1
    have hrecorded := data_of_decode hr
    rw [hd] at hrecorded
    cases hrecorded
    exact active_of_decode hr
  · have undecided := undecided_of_decode (observes_pure failed).1
    refine absurd ?_ undecided.2.1
    rw [ha] at discards
    unfold classifyLifetimeResult at discards
    split at discards
    · next heq => exact absurd heq (undecided.2.2 _ _ _)
    · exact discards

lemma tells {data : NmResourceIdentity} (hd : captured.data = .networkManager data)
    (connection : data.activePath ≠ noActivation →
      ∀ w, (env w).applied data.activePath = some data.connectionUuid)
    (noReuse : NoReuse index env) : Tells index env .networkManager captured where
  captures t t' observed P he := by
    cases he with
    | activation data' hd' active =>
        obtain ⟨data'', hd'', present⟩ := observes_observe observed.1 noReuse
        rw [hd'] at hd''
        cases hd''
        obtain ⟨w, hw, hw', present, _⟩ := present active
        exact ⟨w, hw, hw', present⟩
  same t t' identity same call P he := by
    cases he with
    | activation data' hd' =>
        obtain ⟨result, activation, ha⟩ := observes_resourceStatus (same.data.trans hd') call.1
        obtain rfl := classifyLifetimeResult_same ha.symm
        cases activation with
        | undecided h => exact absurd rfl h.1
        | same seen => exact seen
  discards t t' identity answer same discards call := by
    have active := active_of_discards (same.data.trans hd) discards call.1
    obtain ⟨result, activation, ha⟩ := observes_resourceStatus (same.data.trans hd) call.1
    exact ⟨_, .activation data hd active,
      lost_of_discards (connection active) activation (ha ▸ discards)⟩

end NetworkManager

/-! ## systemd-resolved -/

namespace Resolved

/-- The search for a link that is there throughout, under one name, finds an entry. -/
lemma findLink_ne_none {inode : Inode} {names : List LinkName} {name : LinkName}
    (present : ∀ v, t ≤ v → v ≤ t' → (env v).links name = some inode) (listed : name ∈ names) :
    ¬ (findLink (index inode) names).Observes (InFull index) env t none t' := by
  induction names generalizing t with
  | nil => cases listed
  | cons first names ih =>
      intro h
      obtain ⟨reply, u, asked, rest⟩ := Program.Observes.bind h
      obtain ⟨w, hw, hw', answered, full⟩ := observes_asking asked
      split at rest
      · cases rest.1
      · next other =>
          rcases List.mem_cons.mp listed with rfl | listed
          · have there := present w hw (hw'.trans rest.le)
            cases reply with
            | none => simp [there] at full
            | some ifindex =>
                obtain ⟨inode', found, hi⟩ := answered
                rw [there] at found
                exact other (congrArg some (Option.some.inj found ▸ hi.symm))
          · exact ih (fun v hv => present v (asked.le.trans hv)) listed rest

/-- An entry that the search found had the index at that moment. -/
lemma seen_of_findLink {ifindex : Nat} {names : List LinkName} {name : LinkName}
    (h : (findLink ifindex names).Observes (InFull index) env t (some name) t') :
    SeenWithin env (fun e => ∃ inode, e.links name = some inode ∧ index inode = ifindex) t t' := by
  induction names generalizing t with
  | nil => cases h.1
  | cons first names ih =>
      obtain ⟨reply, u, asked, h⟩ := Program.Observes.bind h
      obtain ⟨w, hw, hw', answered, full⟩ := observes_asking asked
      split at h
      · next found =>
          obtain ⟨hn, hu⟩ := h
          cases hn
          rw [found] at answered
          exact ⟨w, hw, hw'.trans hu, answered⟩
      · exact (ih h).mono asked.le le_rfl

/-- The boot id of a context was the boot id at some moment. -/
lemma seen_of_current {context : ObservationContext}
    (h : ObservationContext.current.run.Observes (InFull index) env t (.ok context) t') :
    SeenWithin env (fun e => e.bootId = context.bootId) t t' := by
  obtain ⟨bootId, u, asked, h⟩ := observes_bind h
  obtain ⟨w, hw, hw', answered, _⟩ := observes_asking asked
  obtain ⟨netns, u', asked', h⟩ := observes_bind h
  split at h
  · obtain ⟨hc, ht⟩ := h
    cases hc
    exact ⟨w, hw, hw'.trans (asked'.le.trans ht), answered.symm⟩
  · cases h.1

/-- What `identity_data` went through when it found a link: the index was read from an entry and
then the entry was opened. -/
def Found (index : Inode → Nat) (env : Nat → NativeEnv) (ifindex : Nat) (file : Inode)
    (t t' : Nat) : Prop :=
  ∃ name r o inode, t ≤ r ∧ r ≤ o ∧ o ≤ t' ∧ (env r).links name = some inode ∧
    index inode = ifindex ∧ (env o).links name = some file

lemma found_of_identityData {context : ObservationContext} {ifindex : Nat}
    {current : ResolvedIdentity} {file : Inode}
    (h : (identityData context ifindex).run.Observes (InFull index) env t
      (.ok (some (current, file))) t') :
    Found index env ifindex file t t' ∧ current.ifindex = ifindex ∧
      current.bootId = context.bootId := by
  obtain ⟨names, u₁, listed, h⟩ := observes_bind h
  obtain ⟨found, u₂, searched, h⟩ := observes_value h
  cases found with
  | none => cases h.1
  | some name =>
      obtain ⟨r, hr, hr', inode, there, hi⟩ := seen_of_findLink searched
      obtain ⟨opened, u₃, asked, h⟩ := observes_bind h
      obtain ⟨o, ho, ho', answered, _⟩ := observes_asking asked
      obtain ⟨iflink, u₄, read, h⟩ := observes_value h
      obtain ⟨address, u₅, read', h⟩ := observes_value h
      obtain ⟨uevent, u₆, read'', h⟩ := observes_value h
      obtain ⟨hc, ht⟩ := h
      cases hc
      refine ⟨⟨name, r, o, inode, listed.le.trans hr, hr'.trans ho, ?_, there, hi, answered⟩, rfl,
        rfl⟩
      exact ho'.trans (read.le.trans (read'.le.trans (read''.le.trans ht)))

/-- A link that is there throughout is found. -/
lemma identityData_ne_none {context : ObservationContext} {inode : Inode}
    (unrenamed : Unrenamed env t t')
    (present : ∀ v, t ≤ v → v ≤ t' → ∃ name, (env v).links name = some inode) :
    ¬ (identityData context (index inode)).run.Observes (InFull index) env t (.ok none) t' := by
  intro h
  obtain ⟨names, u₁, listed, h⟩ := observes_bind h
  obtain ⟨w, hw, hw', _, full⟩ := observes_asking listed
  obtain ⟨found, u₂, searched, h⟩ := observes_value h
  cases found with
  | none =>
      have ht := h.2
      have within : w ≤ t' := hw'.trans (searched.le.trans ht)
      obtain ⟨name, there⟩ := present w hw within
      refine findLink_ne_none (fun v hv hv' => ?_) (full name (by simp [there])) searched
      have hv₀ := listed.le.trans hv
      have hv₁ := hv'.trans ht
      obtain ⟨name', there'⟩ := present v hv₀ hv₁
      obtain rfl := unrenamed w v name name' inode hw within hv₀ hv₁ there there'
      exact there'
  | some name =>
      obtain ⟨opened, u₃, asked, h⟩ := observes_bind h
      obtain ⟨_, _, _, h⟩ := observes_value h
      obtain ⟨_, _, _, h⟩ := observes_value h
      obtain ⟨_, _, _, h⟩ := observes_value h
      cases h.1

/-- The inodes that are compared. -/
lemma observes_liveInodes {file : Inode} {inodes : Option (Inode × Inode)}
    (h : (liveInodes identity file).run.Observes (InFull index) env t (.ok inodes) t') :
    inodes = identity.liveHandle.map fun handle => (handle, file) := by
  unfold liveInodes at h
  split at h
  · next hn =>
      rw [hn]
      exact Except.ok.inj h.1
  · next original hs =>
      obtain ⟨old, u₁, asked, h⟩ := observes_bind h
      obtain ⟨_, _, _, answered, _⟩ := observes_asking asked
      obtain ⟨now, u₂, asked', h⟩ := observes_bind h
      obtain ⟨_, _, _, answered', _⟩ := observes_asking asked'
      rw [hs, Except.ok.inj h.1]
      simp [show old = original from answered, show now = file from answered']

lemma data_of_decode {data : ResolvedIdentity} (h : decode identity = .ok data) :
    identity.data = .systemdResolved data := by
  unfold decode at h
  split at h
  · cases h
  · split at h
    · next found hd =>
        split at h
        · cases h
          exact hd
        · cases h
    · cases h

/-- How `resource_status` comes to its verdict. -/
lemma observes_resourceStatus {status : ResourceStatus}
    (h : (resourceStatus identity).run.Observes (InFull index) env t (.ok status) t') :
    ∃ data context, identity.data = .systemdResolved data ∧
      SeenWithin env (fun e => e.bootId = context.bootId) t t' ∧
      (classifyObservationContext data context = some status ∨
        classifyObservationContext data context = none ∧ ∃ u u' found, t ≤ u ∧ u' ≤ t' ∧
          (identityData context data.ifindex).run.Observes (InFull index) env u (.ok found) u' ∧
          match found with
          | none => status = .gone
          | some (current, file) =>
              status = classifyIdentity data context (some current)
                (identity.liveHandle.map fun handle => (handle, file))) := by
  obtain ⟨data, u₁, decoded, h⟩ := observes_bind h
  obtain ⟨hd, hu₁⟩ := observes_pure decoded
  obtain ⟨context, u₂, observed, h⟩ := observes_bind h
  have seen := (seen_of_current observed).mono hu₁ h.le
  refine ⟨data, context, data_of_decode hd, seen, ?_⟩
  cases hc : classifyObservationContext data context with
  | some status' =>
      rw [hc] at h
      exact .inl (congrArg some (Except.ok.inj h.1).symm)
  | none =>
      rw [hc] at h
      obtain ⟨_, u₃, verified, h⟩ := observes_bind h
      obtain ⟨found, u₄, searched, h⟩ := observes_bind h
      refine .inr ⟨rfl, u₃, u₄, found, ?_, h.le, searched, ?_⟩
      · exact hu₁.trans (observed.le.trans verified.le)
      · cases found with
        | none => exact Except.ok.inj h.1
        | some pair =>
            obtain ⟨current, file⟩ := pair
            obtain ⟨inodes, u₅, compared, h⟩ := observes_bind h
            obtain rfl := observes_liveInodes compared
            exact Except.ok.inj h.1

lemma classifyObservationContext_ne {data : ResolvedIdentity} {context : ObservationContext} :
    classifyObservationContext data context ≠ some .same ∧
      classifyObservationContext data context ≠ some .replaced := by
  unfold classifyObservationContext
  split_ifs <;> simp

lemma bootId_of_classify {data : ResolvedIdentity} {context : ObservationContext}
    (h : classifyObservationContext data context = none) : context.bootId = data.bootId := by
  by_contra other
  simp [classifyObservationContext, other] at h

lemma bootId_of_gone {data : ResolvedIdentity} {context : ObservationContext}
    (h : classifyObservationContext data context = some .gone) : context.bootId ≠ data.bootId := by
  unfold classifyObservationContext at h
  split_ifs at h with other
  · exact other
  · cases h

/-- What is seen by a call that says `Same`. -/
lemma seen_of_same
    (h : (resourceStatus identity).run.Observes (InFull index) env t (.ok .same) t') :
    ∃ data file, identity.data = .systemdResolved data ∧ identity.liveHandle = some file ∧
      SeenWithin env (fun e => e.bootId = data.bootId) t t' ∧
      Found index env data.ifindex file t t' := by
  obtain ⟨data, context, hd, boot, hc | ⟨hc, u, u', found, hu, hu', searched, hs⟩⟩ :=
    observes_resourceStatus h
  · exact absurd hc classifyObservationContext_ne.1
  · rw [bootId_of_classify hc] at boot
    cases found with
    | none => cases hs
    | some pair =>
        obtain ⟨current, file⟩ := pair
        dsimp only at hs
        obtain ⟨⟨name, r, o, inode, hr, ho, ho', there, hi, opened⟩, _⟩ :=
          found_of_identityData searched
        simp only [classifyIdentity, hc] at hs
        cases hh : identity.liveHandle with
        | none => simp [hh] at hs
        | some handle =>
            simp only [hh, Option.map_some] at hs
            split_ifs at hs with equal
            subst equal
            exact ⟨data, handle, hd, hh ▸ rfl, boot, name, r, o, inode, hu.trans hr, ho,
              ho'.trans hu', there, hi, opened⟩

/-- Something was lost when a verdict makes the engine give up: without a change of the boot id
the search would have found the link and the held handle would have named it. -/
lemma lost_of_discards {data : ResolvedIdentity} {inode : Inode} {status : ResourceStatus}
    (noReuse : NoReuse index env) (hd : identity.data = .systemdResolved data)
    (hh : identity.liveHandle = some inode ∨ identity.liveHandle = none)
    (hi : index inode = data.ifindex) (discards : status = .gone ∨ status = .replaced)
    (call : Undisrupted index env .systemdResolved (resourceStatus identity) t (.ok status) t') :
    SeenWithin env (fun e => ¬ e.bootId = data.bootId) t t' ∨
      SeenWithin env (fun e => ¬ ∃ name, e.links name = some inode) t t' := by
  obtain ⟨data', context, hd', ⟨w, hw, hw', boot⟩, verdict⟩ := observes_resourceStatus call.1
  rw [hd] at hd'
  cases hd'
  by_cases present : ∀ v, t ≤ v → v ≤ t' → ∃ name, (env v).links name = some inode
  · left
    obtain hc | ⟨hc, u, u', found, hu, hu', searched, hs⟩ := verdict
    · rcases discards with rfl | rfl
      · exact ⟨w, hw, hw', fun same => bootId_of_gone hc (boot.symm.trans same)⟩
      · exact absurd hc classifyObservationContext_ne.2
    · exfalso
      have within := fun v (hv : u ≤ v) (hv' : v ≤ u') => present v (hu.trans hv) (hv'.trans hu')
      have unrenamed : Unrenamed env u u' := fun v v' name name' inode hv hv₁ hv' hv₁' =>
        call.2 rfl v v' name name' inode (hu.trans hv) (hv₁.trans hu') (hu.trans hv') (hv₁'.trans hu')
      rw [← hi] at searched
      cases found with
      | none => exact identityData_ne_none unrenamed within searched
      | some pair =>
          obtain ⟨current, file⟩ := pair
          obtain ⟨⟨name, r, o, inode', hr, ho, ho', there, same, opened⟩, _⟩ :=
            found_of_identityData searched
          -- The entry that was found is that of the link, and still is when it is opened.
          obtain ⟨name', there'⟩ := within r hr (ho.trans ho')
          obtain rfl := noReuse.distinct r name name' inode' inode there there' same
          obtain ⟨name'', opened'⟩ := within o (hr.trans ho) ho'
          obtain rfl := unrenamed r o name name'' inode' hr (ho.trans ho') (hr.trans ho) ho' there
            opened'
          rw [opened'] at opened
          cases opened
          dsimp only at hs
          simp only [classifyIdentity, hc] at hs
          rcases hh with hh | hh <;> rcases discards with rfl | rfl <;> simp [hh] at hs
  · right
    simp only [not_forall] at present
    obtain ⟨v, hv, hv', missing⟩ := present
    exact ⟨v, hv, hv', missing⟩

/-- The held handle was opened while the identity was captured. -/
lemma seen_of_identify {resource : ResourceId} {inode : Inode}
    (h : (identify resource).run.Observes (InFull index) env t (.ok captured) t')
    (hh : captured.liveHandle = some inode) :
    SeenWithin env (fun e => ∃ name, e.links name = some inode) t t' := by
  obtain ⟨_, u₁, verified, h⟩ := observes_bind h
  unfold linkIdentity at h
  split at h
  · cases h.1
  · next ifindex _ =>
      obtain ⟨context, u₂, observed, h⟩ := observes_bind h
      obtain ⟨found, u₃, searched, h⟩ := observes_bind h
      cases found with
      | none => cases h.1
      | some pair =>
          obtain ⟨data, file⟩ := pair
          obtain ⟨⟨name, r, o, _, hr, ho, ho', _, _, opened⟩, _⟩ := found_of_identityData searched
          obtain ⟨_, u₄, validated, h⟩ := observes_bind h
          obtain ⟨hc, ht⟩ := h
          cases hc
          cases hh
          refine ⟨o, ?_, ho'.trans (validated.le.trans ht), name, opened⟩
          exact verified.le.trans (observed.le.trans (hr.trans ho))

/-- What an observation saw of the link it captured. -/
lemma observes_observe (steady : Steady env captured) {resource : ResourceId}
    (observed : Undisrupted index env .systemdResolved
      (NativeBackend.observe .systemdResolved resource) t (.ok captured) t') :
    ∃ data inode, captured.data = .systemdResolved data ∧ captured.liveHandle = some inode ∧
      index inode = data.ifindex ∧ SeenWithin env (fun e => e.bootId = data.bootId) t t' ∧
      SeenWithin env (fun e => ∃ name, e.links name = some inode) t t' := by
  obtain ⟨u, v, v', hu, hv, hv', identified, asked⟩ := observes_observeWith observed.1
  obtain ⟨data, inode, hd, hh, boot, name, r, o, inode', hr, ho, ho', there, hi, opened⟩ :=
    seen_of_same asked
  refine ⟨data, inode, hd, hh, ?_, boot.mono (hu.trans hv) hv', o, ?_, ho'.trans hv', name, opened⟩
  · -- The link was there when its directory was opened first and is there now, so it is the link
    -- whose index was read in between.
    obtain ⟨w, hw, hw', first⟩ := seen_of_identify identified hh
    have early : w ≤ r := hw'.trans (hv.trans hr)
    obtain ⟨name', there'⟩ := (steady.link inode hh).between early ho first ⟨name, opened⟩
    have hr₀ := hw.trans early
    have ho₁ := ho'.trans hv'
    obtain rfl := observed.2 rfl r o name' name inode hr₀ (ho.trans ho₁) (hr₀.trans ho) ho₁ there' opened
    rw [there'] at there
    cases there
    exact hi
  · exact hu.trans (hv.trans (hr.trans ho))

lemma tells {data : ResolvedIdentity} {inode : Inode} (noReuse : NoReuse index env)
    (steady : Steady env captured) (hd : captured.data = .systemdResolved data) (hh : captured.liveHandle = some inode)
    (hi : index inode = data.ifindex) : Tells index env .systemdResolved captured where
  captures t t' observed P he := by
    obtain ⟨data', inode', hd', hh', _, boot, link⟩ := observes_observe steady observed
    cases he with
    | boot data hd =>
        rw [hd] at hd'
        cases hd'
        exact boot
    | link inode hh =>
        rw [hh] at hh'
        cases hh'
        exact link
  same t t' identity same call P he := by
    obtain ⟨data', inode', hd', hh', boot, name, _, o, _, hr, ho, ho', _, _, opened⟩ :=
      seen_of_same call.1
    cases he with
    | boot data hd =>
        rw [same.data, hd] at hd'
        cases hd'
        exact boot
    | link inode hh =>
        rcases same with rfl | rfl
        · rw [hh] at hh'
          cases hh'
          exact ⟨o, hr.trans ho, ho', name, opened⟩
        · cases hh'
  discards t t' identity answer same discards call := by
    obtain ⟨status, rfl, hs⟩ : ∃ status, answer = .ok status ∧
        (status = .gone ∨ status = .replaced) := by
      rcases discards with rfl | rfl
      · exact ⟨.gone, rfl, .inl rfl⟩
      · exact ⟨.replaced, rfl, .inr rfl⟩
    have handle : identity.liveHandle = some inode ∨ identity.liveHandle = none := by
      rcases same with rfl | rfl
      · exact .inl hh
      · exact .inr rfl
    rcases lost_of_discards noReuse (same.data.trans hd) handle hi hs call with lost | lost
    · exact ⟨_, .boot data hd, lost⟩
    · exact ⟨_, .link inode hh, lost⟩

end Resolved

/-! ## Final verdicts -/

/-- Once a status call for a captured identity has said `Gone` or `Replaced`, no later one says
`Same`: for calls that are answered in full while no link is renamed, in an environment in which
the object of the identity does not come back once it was lost. -/
theorem verdicts_final {env : Nat → NativeEnv} {backend : NativeBackend} {captured : HeldIdentity}
    {answers : List (Except Error ResourceStatus)} {t t' u : Nat} (noReuse : NoReuse index env)
    (steady : Steady env captured)
    (observed : Undisrupted index env backend (backend.observe captured.resource) t
      (.ok captured) t')
    (later : t' ≤ u) (asked : Asked index env backend captured u answers) :
    answers.Pairwise fun answer answer' => Discards answer → answer' ≠ .ok .same := by
  cases backend with
  | systemdResolved =>
      obtain ⟨data, inode, hd, hh, hi, _⟩ := Resolved.observes_observe steady observed
      exact (Resolved.tells noReuse steady hd hh hi).final noReuse steady observed later asked
  | networkManager =>
      obtain ⟨data, hd, seen⟩ := NetworkManager.observes_observe observed.1 noReuse
      have connection : data.activePath ≠ noActivation →
          ∀ v, (env v).applied data.activePath = some data.connectionUuid := by
        intro active v
        obtain ⟨w, _, _, _, applied⟩ := seen active
        exact (steady.connection data hd v w).trans applied
      exact (NetworkManager.tells hd connection noReuse).final noReuse steady observed later asked
  | windows => exact Windows.tells.final noReuse steady observed later asked

/-! ## Objects that come and go -/

/-- The answers of an environment that answers every question, where `names` are the entries of
`/sys/class/net`. -/
def NativeEnv.reply (index : Inode → Nat) (names : List LinkName) (e : NativeEnv) :
    (o : NativeOp) → NativeRet o
  | .bootId => .ok e.bootId
  | .netns => .ok e.netns
  | .verifyNamespace => .ok ()
  | .readDir => .ok names
  | .readIfindex name => (e.links name).map index
  | .readAttribute _ _ => none
  | .openLink name =>
      match e.links name with
      | some inode => .ok inode
      | none => .error (.platform .systemdResolved "no such link")
  | .inodeOf handle => .ok handle
  | .deviceByIpIface _ => .ok "/org/freedesktop/NetworkManager/Devices/7".toList
  | .serviceOwner =>
      match e.serviceOwner with
      | some owner => .ok owner
      | none => .error (.other "no owner")
  | .activeConnection path =>
      match e.devices path with
      | some active => .ok active
      | none => .error (.unknownObject "no device")
  | .appliedUuid path =>
      match e.devices path with
      | some active => .ok (e.applied active)
      | none => .error (.unknownObject "no device")
  | .listAdapters => .ok e.adapters
  | .dnsSettings _ => .ok ()

lemma NativeEnv.inFull_reply {e : NativeEnv} {names : List LinkName}
    (h : ∀ name, name ∈ names ↔ (e.links name).isSome) (o : NativeOp) :
    InFull index e o (e.reply index names o) := by
  cases o with
  | bootId | netns | inodeOf _ => exact ⟨rfl, trivial⟩
  | verifyNamespace | readAttribute _ _ | deviceByIpIface _ | dnsSettings _ =>
      exact ⟨trivial, trivial⟩
  | readDir => exact ⟨fun name hname => (h name).mp hname, fun name hname => (h name).mpr hname⟩
  | readIfindex name | openLink name =>
      cases hlink : e.links name <;> simp [InFull, Truthful, NativeEnv.reply, hlink]
  | serviceOwner =>
      cases howner : e.serviceOwner <;> simp [InFull, Truthful, NativeEnv.reply, howner]
  | activeConnection path | appliedUuid path =>
      cases hdevice : e.devices path <;> simp [InFull, Truthful, NativeEnv.reply, hdevice]
  | listAdapters => exact ⟨fun guid => Iff.rfl, trivial⟩

/-- One call after another of a captured identity, each at its own moment. -/
lemma Asked.now {backend : NativeBackend} {answer : Except Error ResourceStatus}
    {answers : List (Except Error ResourceStatus)} (later : t ≤ t')
    (call : Undisrupted index env backend (backend.resourceStatus captured) t' answer t')
    (rest : Asked index env backend captured t' answers) :
    Asked index env backend captured t (answer :: answers) :=
  .cons later (.inl rfl) call rest

def eth0 : LinkName := "eth0".toList

def adapterGuid : Guid := "6f73646e-7300-0000-0000-000000000001".toList

def devicePath : ObjectPath := "/org/freedesktop/NetworkManager/Devices/7".toList

def firstActivation : ObjectPath := "/org/freedesktop/NetworkManager/ActiveConnection/9".toList

def secondActivation : ObjectPath := "/org/freedesktop/NetworkManager/ActiveConnection/10".toList

/-- An environment with one link, one device and one adapter. -/
def oneOfEach (link : Nat → Option Inode) (active : Nat → ObjectPath) (present : Nat → Bool)
    (t : Nat) : NativeEnv where
  bootId := 1
  netns := "net:[4026531840]".toList
  links name := if name = eth0 then link t else none
  serviceOwner := some ":1.42".toList
  devices path := if path = devicePath then some (active t) else none
  applied path := if path = firstActivation then some 11 else some 12
  adapters := if present t then [adapterGuid] else []

/-- The entries of `/sys/class/net` there. -/
def entries (link : Nat → Option Inode) (t : Nat) : List LinkName :=
  if (link t).isSome then [eth0] else []

def resolvedLink : ResourceId where
  text := "linux:resolved:ifindex:2".toList
  valid := by decide

def managedDevice : ResourceId where
  text := "linux:network-manager:ifname:eth0".toList
  valid := by decide

def adapter : ResourceId where
  text := "windows:interface:6f73646e-7300-0000-0000-000000000001".toList
  valid := by decide

/-- The identities the backends capture there at first. -/
def identityOf : NativeBackend → HeldIdentity
  | .systemdResolved =>
      ⟨⟨.systemdResolved, resolvedLink,
        .systemdResolved ⟨1, "net:[4026531840]".toList, 2, eth0, none, none, none⟩⟩, some 3⟩
  | .networkManager =>
      ⟨⟨.networkManager, managedDevice,
        .networkManager ⟨eth0, devicePath, firstActivation, 11, ":1.42".toList⟩⟩, none⟩
  | .windows => ⟨⟨.windowsIpHelper, adapter, .untracked⟩, none⟩

section OneOfEach

variable {link : Nat → Option Inode} {active : Nat → ObjectPath} {present : Nat → Bool}

lemma noReuse_oneOfEach
    (h : ∀ path, path ≠ noActivation → NeverBack (fun active => active = path) active) :
    NoReuse (fun _ => 2) (oneOfEach link active present) where
  bootId b := fun i j k _ _ first lost => absurd first lost
  activation path path' connected := by
    intro i j k hij hjk first lost last
    simp only [oneOfEach, Option.ite_none_right_eq_some, Option.some.injEq] at first lost last
    exact h path' connected i j k hij hjk first.2 (fun same => lost ⟨first.1, same⟩) last.2
  distinct t name name' inode inode' there there' _ := by
    simp only [oneOfEach, Option.ite_none_right_eq_some] at there there'
    exact Option.some.inj (there.2.symm.trans there'.2)

/-- What a program that is answered at one moment stops with. -/
lemma undisrupted_oneOfEach {α : Type} {backend : NativeBackend} {p : NativeResult α}
    {answer : Except Error α}
    (h : (p.run.run (fun o (_ : Unit) => ((oneOfEach link active present t).reply (fun _ => 2)
      (entries link t) o, ())) ()).1 = answer) :
    Undisrupted (fun _ => 2) (oneOfEach link active present) backend p t answer t := by
  have listed : ∀ name, name ∈ entries link t ↔
      ((oneOfEach link active present t).links name).isSome := by
    intro name
    by_cases hname : name = eth0 <;> cases hlink : link t <;>
      simp [entries, oneOfEach, hname, hlink]
  refine ⟨h ▸ .run (NativeEnv.inFull_reply listed) p.run, ?_⟩
  intro _ u v name name' inode _ _ _ _ there there'
  simp only [oneOfEach, Option.ite_none_right_eq_some] at there there'
  exact there.1.trans there'.1.symm

end OneOfEach

/-- A link and an adapter are absent for a while; the connection lasts. -/
def comingBack : Nat → NativeEnv :=
  oneOfEach (fun t => if t = 1 then none else some 3) (fun _ => firstActivation) (· ≠ 1)

/-- The verdicts on an adapter and on a link that are absent for a while are taken back: nothing is
renamed, reused or misread, and still `Same` follows `Gone`. -/
theorem verdict_taken_back :
    NoReuse (fun _ => 2) comingBack ∧
      ∀ backend ∈ [NativeBackend.windows, .systemdResolved],
        Undisrupted (fun _ => 2) comingBack backend
            (backend.observe (identityOf backend).resource) 0 (.ok (identityOf backend)) 0 ∧
          Asked (fun _ => 2) comingBack backend (identityOf backend) 0
            [.ok .gone, .ok .same] := by
  refine ⟨noReuse_oneOfEach fun path _ i j k _ _ first lost => absurd first lost, ?_⟩
  simp only [List.forall_mem_cons, List.not_mem_nil, false_imp_iff, implies_true, and_true]
  have at1 : (0 : Nat) ≤ 1 := by decide
  have at2 : (1 : Nat) ≤ 2 := by decide
  exact ⟨⟨undisrupted_oneOfEach rfl, .now at1 (undisrupted_oneOfEach rfl)
      (.now at2 (undisrupted_oneOfEach rfl) (.nil 2))⟩,
    undisrupted_oneOfEach rfl, .now at1 (undisrupted_oneOfEach rfl)
      (.now at2 (undisrupted_oneOfEach rfl) (.nil 2))⟩

/-- The link is replaced and then removed; the device loses its connection, gets another one and
loses that; the adapter is removed. -/
def replaced : Nat → NativeEnv :=
  oneOfEach (fun t => if t = 0 then some 3 else if t = 1 then some 4 else none)
    (fun t => if t = 0 then firstActivation else if t = 2 then secondActivation else noActivation)
    (· == 0)

lemma noReuse_replaced : NoReuse (fun _ => 2) replaced := by
  refine noReuse_oneOfEach fun path connected i j k hij hjk first lost last => ?_
  have apart : secondActivation ≠ firstActivation := by decide
  have moment : ∀ t, (if t = 0 then firstActivation
      else if t = 2 then secondActivation else noActivation) = path →
      t = if path = firstActivation then 0 else 2 := by
    intro t ht
    split_ifs at ht with h0 h2
    · rw [if_pos ht.symm, h0]
    · rw [if_neg (ht ▸ apart), h2]
    · exact absurd ht.symm connected
  have hik : i = k := (moment i first).trans (moment k last).symm
  exact lost (by rwa [show j = i by omega])

lemma steady_replaced (backend : NativeBackend) : Steady replaced (identityOf backend) where
  adapter guid hk := by
    intro i j k hij hjk first lost last
    have absent : ∀ t, t ≠ 0 → (replaced t).adapters = [] := fun t ht => by
      simp [replaced, oneOfEach, ht]
    have hi : i = 0 := by
      by_contra hi
      simp [absent i hi] at first
    have hk : k = 0 := by
      by_contra hk
      simp [absent k hk] at last
    exact lost (by rwa [show j = i by omega])
  link inode hh := by
    intro i j k hij hjk first lost last
    have hinode : inode = 3 := by
      cases backend with
      | systemdResolved => exact (Option.some.inj hh).symm
      | networkManager | windows => cases hh
    have absent : ∀ t, t ≠ 0 → ¬ ∃ name, (replaced t).links name = some inode := by
      rintro t ht ⟨name, there⟩
      simp only [replaced, oneOfEach, if_neg ht, hinode] at there
      split_ifs at there
      cases there
    have hk : k = 0 := by
      by_contra hk
      exact absent k hk last
    exact lost (by rwa [show j = i by omega])
  connection data hd := fun _ _ => rfl

/-- None of the answers takes an earlier one back. -/
def Final (answers : List (Except Error ResourceStatus)) : Prop :=
  answers.Pairwise fun answer answer' => Discards answer → answer' ≠ .ok .same

/-- Objects that are replaced and removed for good. -/
theorem verdicts_final_removed :
    Final [.ok .same, .ok .replaced, .ok .gone] ∧ Final [.ok .same, .ok .replaced, .ok .replaced] ∧
      Final [.ok .same, .ok .gone, .ok .gone] := by
  have final : ∀ (backend : NativeBackend) (first second third : Except Error ResourceStatus),
      Undisrupted (fun _ => 2) replaced backend
          (backend.observe (identityOf backend).resource) 0 (.ok (identityOf backend)) 0 →
        Undisrupted (fun _ => 2) replaced backend (backend.resourceStatus (identityOf backend)) 0
          first 0 →
        Undisrupted (fun _ => 2) replaced backend (backend.resourceStatus (identityOf backend)) 1
          second 1 →
        Undisrupted (fun _ => 2) replaced backend (backend.resourceStatus (identityOf backend)) 2
          third 2 →
        Final [first, second, third] :=
    fun backend first second third observed call call' call'' =>
      verdicts_final noReuse_replaced (steady_replaced backend) observed le_rfl
        (.now le_rfl call (.now (by decide) call' (.now (by decide) call'' (.nil 2))))
  refine ⟨final .systemdResolved _ _ _ ?_ ?_ ?_ ?_, final .networkManager _ _ _ ?_ ?_ ?_ ?_,
    final .windows _ _ _ ?_ ?_ ?_ ?_⟩
  all_goals exact undisrupted_oneOfEach rfl

end Osdns
