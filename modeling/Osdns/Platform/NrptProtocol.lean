import Mathlib.Data.Set.Finite.Lattice
import Osdns.Framework.Loops
import Osdns.Platform.NrptRegistry

/-!
# How the registry keys of NRPT rules come and go

`write_rule`, `delete_rule` and `read_owned_rule_by_key` of `platform/windows/nrpt.rs` as programs
over the calls of the registry.  A key is known by its name and, once it was opened, by a handle to
the object; every call may fail, and the values of one rule are written and read in one call each
(`Platform/NrptRegistry.lean`), of which the first may be cut anywhere.
-/

namespace Osdns

open Interaction
open Interaction.Fallible (ask value known attempt)

namespace Nrpt

/-! ## The registry -/

/-- What a handle refers to. -/
abbrev Handle : Type := Nat

/-- The keys below `NRPT_BASE`.  Every object has one name. -/
structure Registry where
  keys : List Char → Option (Handle × RegistryKey)
  distinct : ∀ {name name' handle values values'}, keys name = some (handle, values) →
    keys name' = some (handle, values') → name = name'
  finite : {name | keys name ≠ none}.Finite

namespace Registry

/-- The key of a name is written. -/
def put (s : Registry) (name : List Char) (handle : Handle) (values : RegistryKey)
    (h : ∀ other values', s.keys other = some (handle, values') → other = name) : Registry where
  keys := Function.update s.keys name (some (handle, values))
  distinct := by
    intro a b handle' values' values'' ha hb
    by_cases hna : a = name <;> by_cases hnb : b = name
    · rw [hna, hnb]
    · subst hna
      rw [Function.update_self] at ha
      rw [Function.update_of_ne hnb] at hb
      obtain ⟨rfl, rfl⟩ := Prod.mk.inj (Option.some.inj ha)
      exact (h b values'' hb).symm
    · subst hnb
      rw [Function.update_self] at hb
      rw [Function.update_of_ne hna] at ha
      obtain ⟨rfl, rfl⟩ := Prod.mk.inj (Option.some.inj hb)
      exact h a values' ha
    · rw [Function.update_of_ne hna] at ha
      rw [Function.update_of_ne hnb] at hb
      exact s.distinct ha hb
  finite := by
    refine (s.finite.insert name).subset fun other hother => ?_
    by_cases hname : other = name
    · exact .inl hname
    · refine .inr ?_
      rw [Set.mem_ofPred_eq, Function.update_of_ne hname] at hother
      exact hother

/-- The key of a name is deleted. -/
def remove (s : Registry) (name : List Char) : Registry where
  keys := Function.update s.keys name none
  distinct := by
    intro a b handle values values' ha hb
    by_cases hna : a = name
    · subst hna
      rw [Function.update_self] at ha
      exact absurd ha (by simp)
    by_cases hnb : b = name
    · subst hnb
      rw [Function.update_self] at hb
      exact absurd hb (by simp)
    rw [Function.update_of_ne hna] at ha
    rw [Function.update_of_ne hnb] at hb
    exact s.distinct ha hb
  finite := by
    refine s.finite.subset fun other hother => ?_
    by_cases hname : other = name
    · rw [Set.mem_ofPred_eq, hname, Function.update_self] at hother
      exact absurd rfl hother
    · rw [Set.mem_ofPred_eq, Function.update_of_ne hname] at hother
      exact hother

variable {s : Registry} {name other : List Char} {handle : Handle} {values values' : RegistryKey}

lemma put_keys (s : Registry) (name : List Char) (handle : Handle) (values : RegistryKey)
    (h : ∀ other values', s.keys other = some (handle, values') → other = name) :
    (s.put name handle values h).keys name = some (handle, values) :=
  Function.update_self ..

lemma put_keys_of_ne {h : ∀ other values', s.keys other = some (handle, values') → other = name}
    (hne : other ≠ name) : (s.put name handle values h).keys other = s.keys other :=
  Function.update_of_ne hne ..

lemma remove_keys (s : Registry) (name : List Char) : (s.remove name).keys name = none :=
  Function.update_self ..

lemma remove_keys_of_ne (h : other ≠ name) : (s.remove name).keys other = s.keys other :=
  Function.update_of_ne h ..

/-- What the registry says of a handle is about the key it was opened for. -/
lemma values_eq (h : s.keys name = some (handle, values))
    (h' : s.keys other = some (handle, values')) : other = name ∧ values' = values := by
  obtain rfl := s.distinct h' h
  exact ⟨rfl, (Prod.mk.inj (Option.some.inj (h'.symm.trans h))).2⟩

/-- A handle that refers to no key. -/
lemma exists_fresh (s : Registry) :
    ∃ handle, ∀ name values, s.keys name ≠ some (handle, values) := by
  let handleOf (name : List Char) : Handle := ((s.keys name).map Prod.fst).getD 0
  obtain ⟨handle, hfresh⟩ := (s.finite.image handleOf).exists_notMem
  refine ⟨handle, fun name values h => hfresh ⟨name, ?_, ?_⟩⟩
  · rw [Set.mem_ofPred_eq, h]
    simp
  · simp [handleOf, h]

end Registry

/-! ## Calls -/

/-- The calls on the registry. -/
inductive RegistryOp
  /-- `open_nrpt_base`. -/
  | openBase (write : Bool)
  /-- `create_hklm`. -/
  | createBase
  | openKey (name : List Char)
  /-- `RegCreateKeyExW`. -/
  | createKey (name : List Char)
  | getString (handle : Handle) (field : ValueName)
  /-- `read_rule_values`. -/
  | readRuleValues (handle : Handle) (key comment : List Char)
  /-- `write_rule_values`. -/
  | writeRuleValues (handle : Handle) (rule : NrptRule) (previous : Option NrptRule)
  /-- `NtDeleteKey`. -/
  | deleteKey (handle : Handle)
  | removeTree (name : List Char)

abbrev RegistryRet : RegistryOp → Type
  | .openBase _ => Except Fault Unit
  | .createBase => Except Fault Unit
  | .openKey _ => Except Fault Handle
  | .createKey _ => Except Fault (Handle × Bool)
  | .getString _ _ => Except Fault (List Char)
  | .readRuleValues _ _ _ => Except Error NrptRule
  | .writeRuleValues _ _ _ => Except Error Unit
  | .deleteKey _ => Int32
  | .removeTree _ => Except Fault Unit

abbrev RegistryProgram : Type → Type := Fallible Error RegistryRet

/-- What the rules need of the libraries. -/
structure Crates where
  api : RegistryApi
  toAscii : List Char → Option (List Char)
  uuid : List Char → List Char
  /-- A text as `{:?}` shows it. -/
  debug : List Char → String

/-- A number as `{:#x}` shows it. -/
def hexadecimal (n : Int32) : String :=
  "0x" ++ String.ofList (Nat.toDigits 16 n.toUInt32.toNat)

section Programs

variable (crates : Crates)

/-- `occupied`. -/
def occupied (resource : ResourceId) (marker : List Char) : Error :=
  .conflict resource (.resourceOccupied
    s!"NRPT rule is not owned by this osdns owner (marker {crates.debug marker})")

/-- `verify_marker`. -/
def verifyMarker (marker owner : List Char) (resource : ResourceId) : Except Error Unit :=
  if marker = markerFor owner then .ok () else .error (occupied crates resource marker)

/-- `read_marker`. -/
def readMarker (ruleKey : Handle) (resource : ResourceId) : RegistryProgram (List Char) := do
  match ← value (.call (.getString ruleKey .comment) .done) with
  | .ok marker => return marker
  | .error .notFound => throw (occupied crates resource "<missing>".toList)
  | .error error => throw (crates.api.mapError error "NRPT read Comment")

/-- The key of a rule, if there is one. -/
def openRule (key : List Char) : RegistryProgram (Option Handle) := do
  match ← value (.call (.openBase false) .done) with
  | .error .notFound => return none
  | .error error => throw (crates.api.mapError error "NRPT open")
  | .ok _ =>
  match ← value (.call (.openKey key) .done) with
  | .error .notFound => return none
  | .error error => throw (crates.api.mapError error "NRPT open rule")
  | .ok ruleKey => return some ruleKey

/-- `reject_foreign_rule`. -/
def rejectForeignRule (key owner : List Char) (resource : ResourceId) : RegistryProgram Unit := do
  match ← openRule crates key with
  | none => return
  | some ruleKey =>
      let marker ← readMarker crates ruleKey resource
      known (verifyMarker crates marker owner resource)

/-- `create_rule_key` with `create_child_key`. -/
def createRuleKey (key : List Char) : RegistryProgram (Handle × Bool) := do
  ask (.call .createBase fun result =>
    .done (result.mapError (crates.api.mapError · "NRPT open for create")))
  ask (.call (.createKey key) fun result =>
    .done (result.mapError (crates.api.mapError · "NRPT create")))

/-- `delete_created_key`. -/
def deleteCreatedKey (key : Handle) : RegistryProgram Unit :=
  ask (.call (.deleteKey key) fun status => .done (
    if 0 ≤ status then .ok ()
    else .error (.platform .windowsIpHelper
      s!"NtDeleteKey failed with NTSTATUS {hexadecimal status}")))

/-- `write_rule`. -/
def writeRule (rule : NrptRule) (owner : List Char) (resource : ResourceId) :
    RegistryProgram Unit := do
  known (validateRule crates.toAscii crates.uuid rule owner)
  rejectForeignRule crates rule.key owner resource
  let (dnskey, created) ← createRuleKey crates rule.key
  if created = false then
    let marker ← readMarker crates dnskey resource
    known (verifyMarker crates marker owner resource)
    let before ← ask (.call (.readRuleValues dnskey rule.key marker) .done)
    known (validateRule crates.toAscii crates.uuid before owner)
    ask (.call (.writeRuleValues dnskey rule (some before)) .done)
  else
    match ← value (.call (.writeRuleValues dnskey rule none) .done) with
    | .ok _ => return
    | .error primary =>
        match ← attempt (deleteCreatedKey dnskey) with
        | .ok _ => throw primary
        | .error error => throw (.transactionFailed primary [error])

/-- `delete_rule`. -/
def deleteRule (key owner : List Char) (resource : ResourceId) : RegistryProgram Unit := do
  rejectForeignRule crates key owner resource
  match ← value (.call (.openBase true) .done) with
  | .error .notFound => return
  | .error error => throw (crates.api.mapError error "NRPT open for delete")
  | .ok _ =>
  match ← value (.call (.removeTree key) .done) with
  | .ok _ => return
  | .error .notFound => return
  | .error error => throw (crates.api.mapError error "NRPT delete")

/-- `read_owned_rule_by_key`. -/
def readOwnedRuleByKey (key owner : List Char) (resource : ResourceId) :
    RegistryProgram (Option NrptRule) := do
  match ← openRule crates key with
  | none => return none
  | some ruleKey =>
      let comment ← readMarker crates ruleKey resource
      known (verifyMarker crates comment owner resource)
      let rule ← ask (.call (.readRuleValues ruleKey key comment) .done)
      known ((validateRule crates.toAscii crates.uuid rule owner).mapError fun error =>
        .externalModification resource error.text)
      return some rule

end Programs

/-! ## What the calls do -/

/-- A failure that does not mean absence. -/
def Fault.IsFailure (fault : Fault) : Prop := fault ≠ .notFound

/-- How a key is created. -/
inductive Creates (s : Registry) (name : List Char) :
    Except Fault (Handle × Bool) → Registry → Prop
  | existing (handle : Handle) (values : RegistryKey) (h : s.keys name = some (handle, values)) :
      Creates s name (.ok (handle, false)) s
  | created (handle : Handle) (hnone : s.keys name = none)
      (fresh : ∀ other values, s.keys other = some (handle, values) → other = name) :
      Creates s name (.ok (handle, true)) (s.put name handle .empty fresh)
  | failed (fault : Fault) : Creates s name (.error fault) s

/-- How the values of a rule are written: the registry may refuse any of them. -/
inductive Writes (api : RegistryApi) (s : Registry) (handle : Handle) (rule : NrptRule)
    (previous : Option NrptRule) : Except Error Unit → Registry → Prop
  | written (set : ValueName → Except Fault Unit) (name : List Char) (values : RegistryKey)
      (result : Except Error Unit × RegistryKey) (h : s.keys name = some (handle, values))
      (hresult : (writeRuleValuesWith api ⟨fun _ => .ok (), set⟩ rule previous).perform values =
        result) :
      Writes api s handle rule previous result.1
        (s.put name handle result.2 fun _ _ h' => s.distinct h' h)
  | failed (error : Error) : Writes api s handle rule previous (.error error) s

/-- The answers of the registry. -/
def registryCalls (api : RegistryApi) : Handler RegistryRet Registry
  | .openBase _, s, r, t => t = s ∧ (r = .error .notFound → ∀ name, s.keys name = none)
  | .createBase, s, _, t => t = s
  | .openKey name, s, r, t => t = s ∧
      (∀ handle, r = .ok handle → ∃ values, s.keys name = some (handle, values)) ∧
      (r = .error .notFound → s.keys name = none)
  | .createKey name, s, r, t => Creates s name r t
  | .getString handle field, s, r, t => t = s ∧
      ((∃ name values, s.keys name = some (handle, values) ∧ r = values.getString field) ∨
        ∃ fault, r = .error fault ∧ fault.IsFailure)
  | .readRuleValues handle key comment, s, r, t => t = s ∧
      ((∃ name values, s.keys name = some (handle, values) ∧
        r = readRuleValues api values key comment) ∨ ∃ error, r = .error error)
  | .writeRuleValues handle rule previous, s, r, t => Writes api s handle rule previous r t
  | .deleteKey handle, s, r, t =>
      (0 ≤ r ∧ ∃ name values, s.keys name = some (handle, values) ∧ t = s.remove name) ∨
        (¬ 0 ≤ r ∧ t = s)
  | .removeTree name, s, r, t =>
      (r = .ok () ∧ s.keys name ≠ none ∧ t = s.remove name) ∨
        (r = .error .notFound ∧ s.keys name = none ∧ t = s) ∨
        ∃ fault, r = .error fault ∧ fault.IsFailure ∧ t = s

end Nrpt

end Osdns
