import Osdns.Framework.Runs
import Osdns.Platform.NrptLifecycle

/-!
# Requests on NRPT rules when nothing fails

Without faults a request is a function of the state of its key (`RuleRequest.outcome`): what another
owner has is left alone, a rule is written over nothing or over a rule of the same namespaces, and
whatever else the owner has there, also an unfinished rule, can only be deleted.  The programs
refine that function.
-/

namespace Osdns

open Interaction
open Interaction.Fallible (ask value known attempt stops_value stops_bind)

namespace Nrpt

variable {crates : Crates} {owner name : List Char} {resource : ResourceId} {rule before : NrptRule}
variable {s t : Registry} {handle : Handle} {values : RegistryKey} {error : Error} {c : KeyCell}

/-! ## What a request is for -/

/-- What the write of a valid rule makes of its key. -/
def RuleState.written (rule : NrptRule) : RuleState → Option (Option NrptRule) × RuleState
  | absent => (some none, .rule rule)
  | .rule _ => (some none, .rule rule)
  | unowned => (none, .unowned)
  | unreadable => (none, .unreadable)

/-- The answer of a request and what it makes of its key. -/
def RuleRequest.outcome (crates : Crates) (owner : List Char) :
    RuleRequest → RuleState → Option (Option NrptRule) × RuleState
  | write rule, state =>
      match validateRule crates.toAscii crates.uuid rule owner with
      | .ok _ => state.written rule
      | .error _ => (none, state)
  | delete _, .unowned => (none, .unowned)
  | delete _, _ => (some none, .absent)
  | read _, .absent => (some none, .absent)
  | read _, .rule rule => (some (some rule), .rule rule)
  | read _, state => (none, state)

/-- The answers of the registry when no call fails. -/
def faultlessCalls (api : RegistryApi) : Handler RegistryRet Registry
  | .openBase _, s, r, t => t = s ∧
      (r = .ok () ∨ r = .error .notFound ∧ ∀ name, s.keys name = none)
  | .createBase, s, r, t => t = s ∧ r = .ok ()
  | .openKey name, s, r, t => t = s ∧
      (∀ handle values, s.keys name = some (handle, values) → r = .ok handle) ∧
      (s.keys name = none → r = .error .notFound)
  | .createKey name, s, r, t => Creates s name r t ∧ ∀ fault, r ≠ .error fault
  | .getString handle field, s, r, t => t = s ∧
      ∃ name values, s.keys name = some (handle, values) ∧ r = values.getString field
  | .readRuleValues handle key comment, s, r, t => t = s ∧
      ∃ name values, s.keys name = some (handle, values) ∧ r = readRuleValues api values key comment
  | .writeRuleValues handle rule previous, s, r, t =>
      ∃ (name : List Char) (values : RegistryKey) (h : s.keys name = some (handle, values)),
        r = ((writeRuleValuesWith api .none rule previous).perform values).1 ∧
        t = s.put name handle ((writeRuleValuesWith api .none rule previous).perform values).2
          fun _ _ h' => s.distinct h' h
  | .deleteKey handle, s, r, t =>
      0 ≤ r ∧ ∃ name values, s.keys name = some (handle, values) ∧ t = s.remove name
  | .removeTree name, s, r, t =>
      (r = .ok () ∧ s.keys name ≠ none ∧ t = s.remove name) ∨
        (r = .error .notFound ∧ s.keys name = none ∧ t = s)

section Looking

variable {α : Type} {Q : Except Error α → Registry → Prop}

lemma stops_openRule : (openRule crates name).run.Stops (faultlessCalls crates.api)
    (fun a t => t = s ∧ a = .ok ((s.keys name).map Prod.fst)) s := by
  unfold openRule
  refine stops_value (M := fun (r : Except Fault Unit) t => t = s ∧
    (r = .ok () ∨ r = .error .notFound ∧ s.keys name = none)) ?_ fun r t ht => ?_
  · refine ⟨⟨.ok (), s, rfl, .inl rfl⟩, fun r t h => ⟨h.1, ?_⟩⟩
    exact h.2.imp_right fun hmissing => ⟨hmissing.1, hmissing.2 name⟩
  obtain ⟨rfl, rfl | ⟨rfl, hnone⟩⟩ := ht
  · refine stops_value (M := fun (r : Except Fault Handle) u => u = t ∧
      (∀ handle values, t.keys name = some (handle, values) → r = .ok handle) ∧
      (t.keys name = none → r = .error .notFound)) ?_ fun r u hu => ?_
    · refine ⟨?_, fun r u h => h⟩
      cases hkey : t.keys name with
      | none => exact ⟨.error .notFound, t, rfl, fun _ _ h => absurd (hkey.symm.trans h) (by simp),
          fun _ => rfl⟩
      | some key =>
          obtain ⟨handle, values⟩ := key
          refine ⟨.ok handle, t, rfl, fun handle' values' h => ?_, fun h =>
            absurd (hkey.symm.trans h) (by simp)⟩
          rw [(Prod.mk.inj (Option.some.inj (hkey.symm.trans h))).1]
    obtain ⟨rfl, hsome, hnone⟩ := hu
    cases hkey : u.keys name with
    | none =>
        obtain rfl := hnone hkey
        exact ⟨rfl, rfl⟩
    | some key =>
        obtain ⟨handle, values⟩ := key
        obtain rfl := hsome handle values hkey
        exact ⟨rfl, rfl⟩
  · exact ⟨rfl, by rw [hnone]; rfl⟩

lemma stops_readMarker (h : s.keys name = some (handle, values)) :
    (readMarker crates handle resource).run.Stops (faultlessCalls crates.api) (fun a t => t = s ∧
      ∀ marker, a = .ok marker ↔ values.getString .comment = .ok marker) s := by
  unfold readMarker
  refine stops_value (M := fun (r : Except Fault (List Char)) t => t = s ∧
    r = values.getString .comment) ?_ fun r t ht => ?_
  · refine ⟨⟨_, s, rfl, name, values, h, rfl⟩, fun r t hr => ?_⟩
    obtain ⟨rfl, other, values', h', rfl⟩ := hr
    obtain ⟨-, rfl⟩ := Registry.values_eq h h'
    exact ⟨rfl, rfl⟩
  obtain ⟨rfl, rfl⟩ := ht
  split
  all_goals
    rename_i hread
    refine ⟨rfl, fun other => ?_⟩
    rw [hread]
    simp

/-- The marker of a key is the owner's, or the program stops. -/
lemma stops_ownMarker {k : List Char → RegistryProgram α} (h : s.keys name = some (handle, values))
    (hmarked : values.Marked owner →
      (k (markerFor owner)).run.Stops (faultlessCalls crates.api) Q s)
    (hunmarked : ¬ values.Marked owner → ∀ e, Q (.error e) s) :
    (do
      let marker ← readMarker crates handle resource
      known (verifyMarker crates marker owner resource)
      k marker).run.Stops (faultlessCalls crates.api) Q s := by
  refine stops_bind (stops_readMarker h) (fun marker t ht => ?_) fun e t ht => ?_
  · obtain ⟨rfl, hread⟩ := ht
    by_cases hm : marker = markerFor owner
    · subst hm
      rw [verifyMarker, if_pos rfl]
      exact hmarked ((hread _).mp rfl)
    · rw [verifyMarker, if_neg hm]
      refine hunmarked (fun hm' => hm ?_) _
      exact Except.ok.inj (((hread marker).mp rfl).symm.trans hm')
  · obtain ⟨rfl, hread⟩ := ht
    exact hunmarked (fun hm => absurd ((hread _).mpr hm) (by simp)) e

lemma stops_rejectForeignRule : (rejectForeignRule crates name owner resource).run.Stops
    (faultlessCalls crates.api) (fun a t => t = s ∧
      ((a = .ok () ∧ Openable owner (s.keys name)) ∨
        ∃ e, a = .error e ∧ ¬ Openable owner (s.keys name))) s := by
  unfold rejectForeignRule
  refine stops_bind stops_openRule (fun opened t ht => ?_) fun e t ht => absurd ht.2 (by simp)
  obtain ⟨rfl, hopened⟩ := ht
  obtain rfl := Except.ok.inj hopened
  cases hkey : t.keys name with
  | none => exact ⟨rfl, .inl ⟨rfl, by simp [Openable]⟩⟩
  | some key =>
      obtain ⟨handle, values⟩ := key
      have hopenable : Openable owner (some (handle, values)) ↔ values.Marked owner :=
        ⟨fun h => h _ _ rfl, fun h handle' values' h' => by
          obtain ⟨rfl, rfl⟩ := Prod.mk.inj (Option.some.inj h')
          exact h⟩
      refine stops_bind (stops_readMarker hkey) (fun marker u hu => ?_) fun e u hu => ?_
      · obtain ⟨rfl, hread⟩ := hu
        refine ⟨rfl, ?_⟩
        by_cases hm : marker = markerFor owner
        · subst hm
          rw [verifyMarker, if_pos rfl]
          exact .inl ⟨rfl, hopenable.mpr ((hread _).mp rfl)⟩
        · rw [verifyMarker, if_neg hm]
          refine .inr ⟨_, rfl, fun h => hm ?_⟩
          exact Except.ok.inj (((hread marker).mp rfl).symm.trans (hopenable.mp h))
      · obtain ⟨rfl, hread⟩ := hu
        refine ⟨rfl, .inr ⟨e, rfl, fun h => ?_⟩⟩
        exact absurd ((hread _).mpr (hopenable.mp h)) (by simp)

lemma stops_readRuleValues {comment : List Char} (h : s.keys name = some (handle, values)) :
    Program.Stops (faultlessCalls crates.api) (.call (.readRuleValues handle name comment) .done)
      (fun a t => t = s ∧ a = readRuleValues crates.api values name comment) s := by
  refine ⟨⟨_, s, rfl, name, values, h, rfl⟩, fun r t hr => ?_⟩
  obtain ⟨rfl, other, values', h', rfl⟩ := hr
  obtain ⟨-, rfl⟩ := Registry.values_eq h h'
  exact ⟨rfl, rfl⟩

end Looking

/-! ## Requests -/

lemma outcome_delete {state : RuleState} (h : state ≠ .unowned) :
    RuleRequest.outcome crates owner (.delete name) state = (some none, .absent) := by
  cases state with
  | unowned => exact absurd rfl h
  | absent | unreadable | rule => rfl

lemma outcome_valid (h : validateRule crates.toAscii crates.uuid rule owner = .ok ())
    (state : RuleState) :
    RuleRequest.outcome crates owner (.write rule) state = state.written rule := by
  rw [RuleRequest.outcome, h]

lemma outcome_invalid (h : validateRule crates.toAscii crates.uuid rule owner = .error error)
    (state : RuleState) : RuleRequest.outcome crates owner (.write rule) state = (none, state) := by
  rw [RuleRequest.outcome, h]

/-- A request was carried out as it is meant. -/
structure Carried (crates : Crates) (owner : List Char) (request : RuleRequest) (s : Registry)
    (answer : Except Error (Option NrptRule)) (t : Registry) : Prop where
  outcome : (answer.toOption, KeyCell.state crates owner request.key (t.keys request.key)) =
    request.outcome crates owner (KeyCell.state crates owner request.key (s.keys request.key))
  elsewhere : ∀ other, other ≠ request.key → t.keys other = s.keys other

/-- Nothing is changed. -/
lemma Carried.unchanged {request : RuleRequest} {state : RuleState}
    {answer : Except Error (Option NrptRule)}
    (hstate : KeyCell.state crates owner request.key (s.keys request.key) = state)
    (h : request.outcome crates owner state = (answer.toOption, state)) :
    Carried crates owner request s answer s :=
  ⟨by rw [hstate, h], fun _ _ => rfl⟩

lemma state_of_keys (h : s.keys name = some (handle, values)) :
    KeyCell.state crates owner name (s.keys name) = values.state crates owner name := by
  rw [h]
  rfl

lemma stops_readOwnedRuleByKey : (RuleRequest.program crates owner resource (.read name)).run.Stops
    (faultlessCalls crates.api) (Carried crates owner (.read name) s) s := by
  change Program.Stops _ (readOwnedRuleByKey crates name owner resource).run _ s
  unfold readOwnedRuleByKey
  refine stops_bind stops_openRule (fun opened t ht => ?_) fun e t ht => absurd ht.2 (by simp)
  obtain ⟨rfl, hopened⟩ := ht
  obtain rfl := Except.ok.inj hopened
  cases hkey : t.keys name with
  | none =>
      have habsent : KeyCell.state crates owner name (t.keys name) = .absent := by
        rw [hkey]
        rfl
      exact .unchanged habsent rfl
  | some key =>
      obtain ⟨handle, values⟩ := key
      refine stops_ownMarker hkey (fun hm => ?_) fun hm e => ?_
      · refine stops_bind (stops_readRuleValues hkey) (fun rule u hu => ?_) fun e u hu => ?_
        · obtain ⟨rfl, hread⟩ := hu
          cases hv : validateRule crates.toAscii crates.uuid rule owner with
          | error e => exact .unchanged ((state_of_keys hkey).trans
              (RegistryKey.state_of_invalid hm hread.symm hv)) rfl
          | ok _ => exact .unchanged ((state_of_keys hkey).trans
              (RegistryKey.state_of_rule hm hread.symm hv)) rfl
        · obtain ⟨rfl, hread⟩ := hu
          exact .unchanged ((state_of_keys hkey).trans
            (RegistryKey.state_of_unread hm hread.symm)) rfl
      · exact .unchanged ((state_of_keys hkey).trans (RegistryKey.state_of_unmarked hm)) rfl

lemma Carried.deleted (h : Openable owner (s.keys name)) (hkey : t.keys name = none)
    (helse : ∀ other, other ≠ name → t.keys other = s.keys other) :
    Carried crates owner (.delete name) s (.ok none) t := by
  refine ⟨?_, helse⟩
  change (some none, KeyCell.state crates owner name (t.keys name)) =
    RuleRequest.outcome crates owner (.delete name) (KeyCell.state crates owner name (s.keys name))
  rw [hkey, outcome_delete h.state_ne]
  rfl

/-- A request on a key of another owner. -/
lemma Carried.refused {request : RuleRequest} (h : ¬ Openable owner (s.keys request.key))
    (e : Error) : Carried crates owner request s (.error e) s := by
  refine .unchanged (KeyCell.unowned_of_not_openable h) ?_
  cases request with
  | write rule =>
      cases hv : validateRule crates.toAscii crates.uuid rule owner with
      | error e' => exact outcome_invalid hv _
      | ok _ => exact outcome_valid hv _
  | delete key | read key => rfl

lemma stops_deleteRule : (RuleRequest.program crates owner resource (.delete name)).run.Stops
    (faultlessCalls crates.api) (Carried crates owner (.delete name) s) s := by
  refine stops_bind (M := fun a t => Carried crates owner (.delete name) s (a.map fun _ => none) t)
    ?_ (fun _ t ht => ht) fun e t ht => ht
  unfold deleteRule
  refine stops_bind stops_rejectForeignRule (fun _ t ht => ?_) fun e t ht => ?_
  · obtain ⟨rfl, ⟨-, hopen⟩ | ⟨e, habs, -⟩⟩ := ht
    · refine stops_value (M := fun (r : Except Fault Unit) u => u = t ∧
        (r = .ok () ∨ r = .error .notFound ∧ t.keys name = none)) ?_ fun r u hu => ?_
      · refine ⟨⟨.ok (), t, rfl, .inl rfl⟩, fun r u h => ⟨h.1, ?_⟩⟩
        exact h.2.imp_right fun hmissing => ⟨hmissing.1, hmissing.2 name⟩
      obtain ⟨rfl, rfl | ⟨rfl, hnone⟩⟩ := hu
      · refine stops_value (M := fun (r : Except Fault Unit) v =>
          (r = .ok () ∨ r = .error .notFound) ∧ v.keys name = none ∧
            ∀ other, other ≠ name → v.keys other = u.keys other) ?_ fun r v hv => ?_
        · refine ⟨?_, fun r v h => ?_⟩
          · by_cases hkey : u.keys name = none
            · exact ⟨.error .notFound, u, .inr ⟨rfl, hkey, rfl⟩⟩
            · exact ⟨.ok (), u.remove name, .inl ⟨rfl, hkey, rfl⟩⟩
          · rcases h with ⟨rfl, -, rfl⟩ | ⟨rfl, hnone, rfl⟩
            · exact ⟨.inl rfl, Registry.remove_keys _ _, fun _ => Registry.remove_keys_of_ne⟩
            · exact ⟨.inr rfl, hnone, fun _ _ => rfl⟩
        obtain ⟨rfl | rfl, hkey, helse⟩ := hv
        · exact .deleted hopen hkey helse
        · exact .deleted hopen hkey helse
      · exact .deleted hopen hnone fun _ _ => rfl
    · exact absurd habs (by simp)
  · obtain ⟨rfl, ⟨habs, -⟩ | ⟨e', -, hopen⟩⟩ := ht
    · exact absurd habs (by simp)
    · exact .refused hopen e

/-- The rule is there. -/
lemma Carried.written {state : RuleState}
    (valid : validateRule crates.toAscii crates.uuid rule owner = .ok ())
    (hbefore : KeyCell.state crates owner rule.key (s.keys rule.key) = state)
    (hstate : state = .absent ∨ ∃ before, state = .rule before)
    (hafter : KeyCell.state crates owner rule.key (t.keys rule.key) = .rule rule)
    (helse : ∀ other, other ≠ rule.key → t.keys other = s.keys other) :
    Carried crates owner (.write rule) s (.ok none) t := by
  refine ⟨?_, helse⟩
  change (some none, KeyCell.state crates owner rule.key (t.keys rule.key)) =
    RuleRequest.outcome crates owner (.write rule)
      (KeyCell.state crates owner rule.key (s.keys rule.key))
  rw [hafter, hbefore, outcome_valid valid]
  rcases hstate with rfl | ⟨before, rfl⟩
  · rfl
  · rfl

/-- The key of a rule is opened, or created with a handle that nothing has. -/
lemma stops_createRuleKey : (createRuleKey crates name).run.Stops (faultlessCalls crates.api)
    (fun a t => ∃ handle,
      (∃ values, a = .ok (handle, false) ∧ s.keys name = some (handle, values) ∧ t = s) ∨
      (a = .ok (handle, true) ∧ s.keys name = none ∧ t.keys name = some (handle, .empty) ∧
        ∀ other, other ≠ name → t.keys other = s.keys other)) s := by
  unfold createRuleKey
  refine stops_bind (M := fun a t => a = .ok () ∧ t = s) ?_ (fun _ t ht => ?_) fun e t ht =>
    absurd ht.1 (by simp)
  · refine ⟨⟨.ok (), s, rfl, rfl⟩, fun r t h => ?_⟩
    obtain ⟨rfl, rfl⟩ := h
    exact ⟨rfl, rfl⟩
  obtain ⟨-, rfl⟩ := ht
  refine ⟨?_, fun r u hu => ?_⟩
  · cases hkey : t.keys name with
    | none =>
        obtain ⟨handle, hfresh⟩ := t.exists_fresh
        exact ⟨_, _, .created handle hkey fun other values h => absurd h (hfresh other values),
          by simp⟩
    | some key =>
        obtain ⟨handle, values⟩ := key
        exact ⟨_, _, .existing handle values hkey, by simp⟩
  · obtain ⟨hu, hok⟩ := hu
    cases hu with
    | existing handle values h => exact ⟨handle, .inl ⟨values, rfl, h, rfl⟩⟩
    | created handle hnone fresh => exact ⟨handle, .inr ⟨rfl, hnone, Registry.put_keys _ _ _ _ _,
        fun _ => Registry.put_keys_of_ne⟩⟩
    | failed fault => exact absurd rfl (hok fault)

/-- The values of a rule are written. -/
lemma stops_writeRuleValues {previous : Option NrptRule} (h : s.keys name = some (handle, values)) :
    Program.Stops (faultlessCalls crates.api) (.call (.writeRuleValues handle rule previous) .done)
      (fun r t => r = ((writeRuleValuesWith crates.api .none rule previous).perform values).1 ∧
        t.keys name = some (handle,
          ((writeRuleValuesWith crates.api .none rule previous).perform values).2) ∧
        ∀ other, other ≠ name → t.keys other = s.keys other) s := by
  refine ⟨⟨_, _, name, values, h, rfl, rfl⟩, fun r t hr => ?_⟩
  obtain ⟨other, values', h', rfl, rfl⟩ := hr
  obtain ⟨rfl, rfl⟩ := Registry.values_eq h h'
  exact ⟨rfl, Registry.put_keys _ _ _ _ _, fun _ => Registry.put_keys_of_ne⟩

/-- The write of a valid rule that is refused over marked values. -/
lemma Carried.unreadable (valid : validateRule crates.toAscii crates.uuid rule owner = .ok ())
    (h : s.keys rule.key = some (handle, values))
    (hstate : values.state crates owner rule.key = .unreadable) (e : Error) :
    Carried crates owner (.write rule) s (.error e) s :=
  .unchanged ((state_of_keys h).trans hstate) (outcome_valid valid _)

/-- A rule that is under the key of another one has its namespaces: no two UUIDs collide. -/
def Uncollided (crates : Crates) (owner : List Char) (s : Registry) (rule : NrptRule) : Prop :=
  ∀ before, KeyCell.state crates owner rule.key (s.keys rule.key) = .rule before →
    crates.uuid (ruleName owner before.namespaces) =
      crates.uuid (ruleName owner rule.namespaces) →
    ruleName owner before.namespaces = ruleName owner rule.namespaces

/-- Over a rule of the same namespaces. -/
lemma stops_writeUpdated (valid : validateRule crates.toAscii crates.uuid rule owner = .ok ())
    (hkey : s.keys rule.key = some (handle, values)) (hm : values.Marked owner)
    (distinct : Uncollided crates owner s rule) :
    (do
      let before ← ask (.call (.readRuleValues handle rule.key (markerFor owner)) .done)
      known (validateRule crates.toAscii crates.uuid before owner)
      ask (.call (.writeRuleValues handle rule (some before)) .done) :
        RegistryProgram Unit).run.Stops (faultlessCalls crates.api)
      (fun a t => Carried crates owner (.write rule) s (a.map fun _ => none) t) s := by
  refine stops_bind (stops_readRuleValues hkey) (fun before t ht => ?_) fun e t ht => ?_
  · obtain ⟨rfl, hread⟩ := ht
    replace hread := hread.symm
    cases valid' : validateRule crates.toAscii crates.uuid before owner with
    | error e => exact .unreadable valid hkey (RegistryKey.state_of_invalid hm hread valid') e
    | ok _ =>
        have hbefore : KeyCell.state crates owner rule.key (t.keys rule.key) = .rule before :=
          (state_of_keys hkey).trans (RegistryKey.state_of_rule hm hread valid')
        have hsame : SameBinding rule before := sameBinding_of_valid valid valid'
          (readRuleValues_eq_ok.mp hread).2.1 (distinct before hbefore)
        obtain ⟨-, -, -, hservers, -⟩ := validateRule_eq_ok.mp valid
        have hok := (updated_writeRuleValues .none hservers hread).2 rfl hsame
        refine (stops_writeRuleValues hkey).mono fun r u hu => ?_
        obtain ⟨rfl, hkey', helse⟩ := hu
        rcases state_updated valid hm hread (fun _ => .ok ()) rfl with ⟨-, hstate⟩ | ⟨e, he⟩
        · rw [hok]
          exact .written valid hbefore (.inr ⟨before, rfl⟩) ((state_of_keys hkey').trans hstate)
            helse
        · exact absurd (hok.symm.trans (congrArg Prod.fst he)) (by simp)
  · obtain ⟨rfl, hread⟩ := ht
    exact .unreadable valid hkey (RegistryKey.state_of_unread hm hread.symm) e

/-- Over nothing. -/
lemma created_unfailed (roundTrips : crates.api.RoundTrips)
    (valid : validateRule crates.toAscii crates.uuid rule owner = .ok ()) :
    let result := (writeRuleValuesWith crates.api .none rule none).perform .empty
    result.1 = .ok () ∧ result.2.state crates owner rule.key = .rule rule := by
  have hcreated : Created crates.api .none rule
      ((writeRuleValuesWith crates.api .none rule none).perform .empty) := created_writeRuleValues _
  rcases state_created roundTrips valid (fun _ => .ok ()) rfl with h | ⟨e, he, -⟩
  · exact h
  · exact absurd ((hcreated.uncut rfl).symm.trans he) (by simp)

lemma stops_writeRule (roundTrips : crates.api.RoundTrips)
    (distinct : Uncollided crates owner s rule) :
    (RuleRequest.program crates owner resource (.write rule)).run.Stops
      (faultlessCalls crates.api) (Carried crates owner (.write rule) s) s := by
  refine stops_bind (M := fun a t => Carried crates owner (.write rule) s (a.map fun _ => none) t)
    ?_ (fun _ t ht => ht) fun e t ht => ht
  unfold writeRule
  cases valid : validateRule crates.toAscii crates.uuid rule owner with
  | error e => exact Carried.unchanged rfl (outcome_invalid valid _)
  | ok _ =>
  change Program.Stops _ (ExceptT.run (rejectForeignRule crates rule.key owner resource >>= _)) _ s
  refine stops_bind stops_rejectForeignRule (fun _ t ht => ?_) fun e t ht => ?_
  · obtain ⟨rfl, ⟨-, hopen⟩ | ⟨e, habs, -⟩⟩ := ht
    · refine stops_bind stops_createRuleKey (fun opened u hu => ?_) fun e u hu => ?_
      · obtain ⟨dnskey, ⟨values, hopened, hkey, rfl⟩ | ⟨hopened, hnone, hkey, helse⟩⟩ := hu
        · obtain rfl := Except.ok.inj hopened
          dsimp only
          rw [if_pos rfl]
          refine stops_ownMarker hkey (fun hm => ?_) fun hm e => ?_
          · exact stops_writeUpdated valid hkey hm distinct
          · exact absurd (hopen _ _ hkey) hm
        · obtain rfl := Except.ok.inj hopened
          dsimp only
          rw [if_neg (by simp)]
          obtain ⟨hok, hstate⟩ := created_unfailed roundTrips valid
          refine stops_value (stops_writeRuleValues hkey) fun r v hv => ?_
          obtain ⟨rfl, hkey', helse'⟩ := hv
          rw [hok]
          have habsent : KeyCell.state crates owner rule.key (t.keys rule.key) = .absent := by
            rw [hnone]
            rfl
          exact Carried.written valid habsent (.inl rfl) ((state_of_keys hkey').trans hstate)
            fun other hne => (helse' other hne).trans (helse other hne)
      · obtain ⟨_, ⟨_, h, -⟩ | ⟨h, -⟩⟩ := hu
        · exact absurd h (by simp)
        · exact absurd h (by simp)
    · exact absurd habs (by simp)
  · obtain ⟨rfl, ⟨habs, -⟩ | ⟨e', -, hopen⟩⟩ := ht
    · exact absurd habs (by simp)
    · exact .refused hopen e

/-- When no call fails, every request stops, answers what it is to answer and makes of its key what
it is to make of it; the other keys are left alone. -/
theorem faultless_outcome (roundTrips : crates.api.RoundTrips) (request : RuleRequest)
    (distinct : ∀ rule, request = .write rule → Uncollided crates owner s rule) :
    (request.program crates owner resource).run.Stops (faultlessCalls crates.api)
      (Carried crates owner request s) s := by
  cases request with
  | write rule => exact stops_writeRule roundTrips (distinct rule rfl)
  | delete key => exact stops_deleteRule
  | read key => exact stops_readOwnedRuleByKey

/-! ## The rule of one domain -/

def corpCrates : Crates where
  api := doubleNul
  toAscii := Windows.lowercaseAscii
  uuid := id
  debug := String.ofList

def corpResource : ResourceId where
  text := "windows:nrpt:corp".toList
  valid := by decide

lemma validateRule_corpRule : validateRule corpCrates.toAscii corpCrates.uuid corpRule
    "io.test".toList = .ok () :=
  validateRule_eq_ok.mpr ⟨⟨by decide, by decide, by decide⟩, rfl, rfl, by decide, by decide, rfl,
    rfl, rfl⟩

def noKeys : Registry where
  keys := fun _ => none
  distinct := by simp
  finite := by simp

/-- The rule is created. -/
theorem faultless_outcome_created : ∃ answer t, (RuleRequest.program corpCrates "io.test".toList
      corpResource (.write corpRule)).run.Runs (faultlessCalls corpCrates.api) noKeys answer t ∧
    answer.toOption = some none ∧
    KeyCell.state corpCrates "io.test".toList corpRule.key (t.keys corpRule.key) =
      .rule corpRule := by
  have hstops : (RuleRequest.program corpCrates "io.test".toList corpResource
      (.write corpRule)).run.Stops (faultlessCalls corpCrates.api)
      (Carried corpCrates "io.test".toList (.write corpRule) noKeys) noKeys :=
    faultless_outcome roundTrips_doubleNul (.write corpRule) fun _ _ _ _ h => h
  obtain ⟨answer, t, hruns, hcarried⟩ := hstops.exists_run
  have houtcome := hcarried.outcome
  rw [outcome_valid validateRule_corpRule] at houtcome
  exact ⟨answer, t, hruns, (Prod.mk.inj houtcome).1, (Prod.mk.inj houtcome).2⟩

end Nrpt

end Osdns
