import Osdns.Platform.NrptProtocol

/-!
# What a request makes of the key of a rule

A request runs while other requests run on other keys, and every one of its calls may fail.  At any
moment its key is in one of a few states (`Meanwhile`), and its answer tells in which of them it
ended (`Concludes`).  A key without the marker of the owner is left alone.  A rule that is updated is
readable at every moment and either the old or the new one; a rule that is created may be left
unfinished, or without a marker.
-/

namespace Osdns

open Interaction
open Interaction.Fallible (ask value known attempt sat_value sat_bind sat_attempt)

namespace Nrpt

variable {crates : Crates} {owner name : List Char} {resource : ResourceId} {rule before : NrptRule}
variable {s t : Registry} {handle : Handle} {values : RegistryKey} {error : Error}

/-! ## The states of a rule -/

/-- What a key is for its owner. -/
inductive RuleState
  | absent
  /-- The marker of the owner is missing. -/
  | unowned
  /-- The values are no valid rule. -/
  | unreadable
  | rule (rule : NrptRule)
  deriving DecidableEq

/-- What `read_owned_rule_by_key` makes of the values of a key. -/
def RegistryKey.state (crates : Crates) (owner key : List Char) (values : RegistryKey) :
    RuleState :=
  match values.getString .comment with
  | .error _ => .unowned
  | .ok marker =>
      if marker = markerFor owner then
        match readRuleValues crates.api values key marker with
        | .error _ => .unreadable
        | .ok rule =>
            match validateRule crates.toAscii crates.uuid rule owner with
            | .error _ => .unreadable
            | .ok _ => .rule rule
      else .unowned

namespace RegistryKey

/-- The key has the marker of the owner. -/
def Marked (owner : List Char) (values : RegistryKey) : Prop :=
  values.getString .comment = .ok (markerFor owner)

lemma state_of_unmarked (h : ¬ values.Marked owner) :
    values.state crates owner name = .unowned := by
  unfold RegistryKey.state
  split
  · rfl
  · rename_i marker hmarker
    have hm : marker ≠ markerFor owner := by
      rintro rfl
      exact h hmarker
    rw [if_neg hm]

lemma state_of_rule (h : values.Marked owner)
    (hr : readRuleValues crates.api values name (markerFor owner) = .ok rule)
    (hv : validateRule crates.toAscii crates.uuid rule owner = .ok ()) :
    values.state crates owner name = .rule rule := by
  have hm : values.getString .comment = .ok (markerFor owner) := h
  simp only [RegistryKey.state, hm, hr, hv, ↓reduceIte]

/-- Marked values that cannot be read. -/
lemma state_of_unread (h : values.Marked owner)
    (hr : readRuleValues crates.api values name (markerFor owner) = .error error) :
    values.state crates owner name = .unreadable := by
  have hm : values.getString .comment = .ok (markerFor owner) := h
  simp only [RegistryKey.state, hm, hr, ↓reduceIte]

/-- Marked values that are no valid rule. -/
lemma state_of_invalid (h : values.Marked owner)
    (hr : readRuleValues crates.api values name (markerFor owner) = .ok rule)
    (hv : validateRule crates.toAscii crates.uuid rule owner = .error error) :
    values.state crates owner name = .unreadable := by
  have hm : values.getString .comment = .ok (markerFor owner) := h
  simp only [RegistryKey.state, hm, hr, hv, ↓reduceIte]

/-- A key with the marker is a rule or is no valid one. -/
lemma state_marked_cases (crates : Crates) (name : List Char) (h : values.Marked owner) :
    values.state crates owner name = .unreadable ∨
      ∃ rule, values.state crates owner name = .rule rule := by
  cases hr : readRuleValues crates.api values name (markerFor owner) with
  | error e => exact .inl (state_of_unread h hr)
  | ok rule =>
      cases hv : validateRule crates.toAscii crates.uuid rule owner with
      | error e => exact .inl (state_of_invalid h hr hv)
      | ok _ => exact .inr ⟨rule, state_of_rule h hr hv⟩

end RegistryKey

/-! ## What an operation leaves -/

/-- The requests of the backend on a rule. -/
inductive RuleRequest
  | write (rule : NrptRule)
  | delete (key : List Char)
  | read (key : List Char)

/-- The key a request works on. -/
def RuleRequest.key : RuleRequest → List Char
  | write rule => rule.key
  | delete key => key
  | read key => key

/-- A request as a program. -/
def RuleRequest.program (crates : Crates) (owner : List Char) (resource : ResourceId) :
    RuleRequest → RegistryProgram (Option NrptRule)
  | write rule => do
      writeRule crates rule owner resource
      return none
  | delete key => do
      deleteRule crates key owner resource
      return none
  | read key => readOwnedRuleByKey crates key owner resource

/-- What is at hand at any moment of a request that began over the first state. -/
inductive Meanwhile : RuleRequest → RuleState → RuleState → Prop
  | unchanged (request : RuleRequest) (state : RuleState) : Meanwhile request state state
  | unmarked (rule : NrptRule) : Meanwhile (.write rule) .absent .unowned
  | unfinished (rule : NrptRule) : Meanwhile (.write rule) .absent .unreadable
  | created (rule : NrptRule) : Meanwhile (.write rule) .absent (.rule rule)
  | updated (rule before : NrptRule) : Meanwhile (.write rule) (.rule before) (.rule rule)
  | discarded (key : List Char) : Meanwhile (.delete key) .unreadable .absent
  | deleted (key : List Char) (before : NrptRule) : Meanwhile (.delete key) (.rule before) .absent

/-- How a request ends. -/
inductive Concludes : RuleRequest → RuleState → Except Error (Option NrptRule) → RuleState → Prop
  | refused (request : RuleRequest) (state : RuleState) (error : Error) :
      Concludes request state (.error error) state
  | unmarked (rule : NrptRule) (error : Error) :
      Concludes (.write rule) .absent (.error error) .unowned
  | unfinished (rule : NrptRule) (error : Error) :
      Concludes (.write rule) .absent (.error error) .unreadable
  | created (rule : NrptRule) : Concludes (.write rule) .absent (.ok none) (.rule rule)
  | updated (rule before : NrptRule) :
      Concludes (.write rule) (.rule before) (.ok none) (.rule rule)
  | alreadyAbsent (key : List Char) : Concludes (.delete key) .absent (.ok none) .absent
  | discarded (key : List Char) : Concludes (.delete key) .unreadable (.ok none) .absent
  | deleted (key : List Char) (before : NrptRule) :
      Concludes (.delete key) (.rule before) (.ok none) .absent
  | readAbsent (key : List Char) : Concludes (.read key) .absent (.ok none) .absent
  | readRule (key : List Char) (rule : NrptRule) :
      Concludes (.read key) (.rule rule) (.ok (some rule)) (.rule rule)

/-! ## Calls on a key that an operation works on -/

/-- What the registry has under a name. -/
abbrev KeyCell : Type := Option (Handle × RegistryKey)

/-- The state of a key for its owner. -/
def KeyCell.state (crates : Crates) (owner name : List Char) (c : KeyCell) : RuleState :=
  match c with
  | none => .absent
  | some (_, values) => values.state crates owner name

/-- Other operations and programs leave the key alone. -/
def others (name : List Char) : Rely Registry where
  rel s t := t.keys name = s.keys name
  refl _ := rfl
  trans h h' := h'.trans h

/-- A call of an operation on a key leaves the other keys alone, and its own in `P`. -/
def keeps (name : List Char) (P : KeyCell → Prop) : Handler RegistryRet Registry :=
  fun _ s _ t => (∀ other, other ≠ name → t.keys other = s.keys other) ∧ P (t.keys name)

/-- `Program.Sat` for the operations on a key. -/
abbrev KeySat (crates : Crates) (name : List Char) (P : KeyCell → Prop) {α : Type}
    (p : Program RegistryRet α) (Q : α → KeyCell → Prop) (s : Registry) : Prop :=
  p.Sat (registryCalls crates.api) (others name) (keeps name P) (fun a t => Q a (t.keys name)) s

section Rules

variable {α β : Type} {P : KeyCell → Prop} {Q : Except Error α → KeyCell → Prop} {c : KeyCell}

lemma sat_stop {a : α} {Q : α → Registry → Prop}
    (h : ∀ t, t.keys name = s.keys name → Q a t) :
    Program.Sat (registryCalls crates.api) (others name) (keeps name P) (.done a) Q s := h

/-- A result that is known. -/
lemma sat_known {result : Except Error β} {k : β → RegistryProgram α}
    (hok : ∀ b, result = .ok b → KeySat crates name P (k b).run Q s)
    (herror : ∀ e, Q (.error e) (s.keys name)) :
    KeySat crates name P (known result >>= k).run Q s := by
  cases result with
  | ok b => exact hok b rfl
  | error e => exact sat_stop fun t ht => ht ▸ herror e

/-- A call that only looks. -/
lemma sat_look (o : RegistryOp) {φ : RegistryRet o → Prop}
    (hlook : ∀ u r v, registryCalls crates.api o u r v → v = u)
    (hφ : ∀ u r, u.keys name = c → registryCalls crates.api o u r u → φ r) (hc : s.keys name = c)
    (hP : P c) : KeySat crates name P (.call o .done) (fun r d => d = c ∧ φ r) s := by
  intro t ht r u hu
  obtain rfl := hlook t r u hu
  have hu' : u.keys name = c := Eq.trans ht hc
  exact ⟨⟨fun _ _ => rfl, hu' ▸ hP⟩, fun v hv => ⟨Eq.trans hv hu', hφ u r hu' hu⟩⟩

/-- The key of a rule is there and has no marker of another one. -/
def Openable (owner : List Char) (c : KeyCell) : Prop :=
  ∀ handle values, c = some (handle, values) → values.Marked owner

lemma sat_openRule (hc : s.keys name = c) (hP : P c) :
    KeySat crates name P (openRule crates name).run (fun a d => d = c ∧
      (∀ handle, a = .ok (some handle) → ∃ values, c = some (handle, values)) ∧
      (a = .ok none → c = none)) s := by
  unfold openRule
  refine sat_value (sat_look (.openBase false)
    (φ := fun r : Except Fault Unit => r = .error .notFound → c = none)
    (fun _ _ _ h => h.1) (fun _ _ hu h hr => hu.symm.trans (h.2 hr name)) hc hP) fun r t ht => ?_
  obtain ⟨ht, hr⟩ := ht
  split
  · exact sat_stop fun u hu => ⟨hu.trans ht, fun _ h => absurd h (by simp), fun _ => hr rfl⟩
  · exact sat_stop fun u hu => ⟨hu.trans ht, fun _ h => absurd h (by simp), fun h =>
      absurd h (by simp)⟩
  refine sat_value (sat_look (.openKey name) (φ := fun r : Except Fault Handle =>
    (∀ handle, r = .ok handle → ∃ values, c = some (handle, values)) ∧
      (r = .error .notFound → c = none))
    (fun _ _ _ h => h.1) (fun u r hu h => ⟨fun handle hr => ?_, fun hr => hu.symm.trans (h.2.2 hr)⟩)
    ht hP) fun r t ht => ?_
  · obtain ⟨values, hv⟩ := h.2.1 handle hr
    exact ⟨values, hu.symm.trans hv⟩
  obtain ⟨ht, hok, hnone⟩ := ht
  split
  · exact sat_stop fun u hu => ⟨hu.trans ht, fun _ h => absurd h (by simp), fun _ => hnone rfl⟩
  · exact sat_stop fun u hu => ⟨hu.trans ht, fun _ h => absurd h (by simp), fun h =>
      absurd h (by simp)⟩
  · rename_i handle
    refine sat_stop fun u hu => ⟨hu.trans ht, fun handle' h => ?_, fun h => absurd h (by simp)⟩
    obtain rfl := Option.some.inj (Except.ok.inj h)
    exact hok _ rfl

lemma sat_readMarker (hc : s.keys name = some (handle, values)) (hP : P (some (handle, values))) :
    KeySat crates name P (readMarker crates handle resource).run (fun a d =>
      d = some (handle, values) ∧ ∀ marker, a = .ok marker → values.getString .comment = .ok marker)
      s := by
  unfold readMarker
  refine sat_value (sat_look (.getString handle .comment) (φ := fun r : Except Fault (List Char) =>
      ∀ marker, r = .ok marker → values.getString .comment = .ok marker)
    (fun _ _ _ h => h.1) (fun u r hu h marker hr => ?_) hc hP) fun r t ht => ?_
  · rcases h.2 with ⟨other, values', h', rfl⟩ | ⟨fault, rfl, -⟩
    · obtain ⟨-, rfl⟩ := Registry.values_eq hu h'
      exact hr
    · exact absurd hr (by simp)
  obtain ⟨ht, hr⟩ := ht
  split
  · exact sat_stop fun u hu => ⟨hu.trans ht, fun marker h =>
      hr marker (congrArg Except.ok (Except.ok.inj h))⟩
  · exact sat_stop fun u hu => ⟨hu.trans ht, fun _ h => absurd h (by simp)⟩
  · exact sat_stop fun u hu => ⟨hu.trans ht, fun _ h => absurd h (by simp)⟩

lemma verifyMarker_eq_ok {marker : List Char}
    (h : verifyMarker crates marker owner resource = .ok ()) : marker = markerFor owner := by
  unfold verifyMarker at h
  split at h
  · assumption
  · exact absurd h (by simp)

/-- The marker of a key is read and is the owner's. -/
lemma sat_ownMarker {k : List Char → RegistryProgram α}
    (hc : s.keys name = some (handle, values)) (hP : P (some (handle, values)))
    (hok : ∀ t, t.keys name = some (handle, values) → values.Marked owner →
      KeySat crates name P (k (markerFor owner)).run Q t)
    (herror : ∀ e, Q (.error e) (some (handle, values))) :
    KeySat crates name P (do
      let marker ← readMarker crates handle resource
      known (verifyMarker crates marker owner resource)
      k marker).run Q s := by
  refine sat_bind (sat_readMarker hc hP) (fun marker t ht => ?_) fun e t ht =>
    sat_stop fun u hu => hu.trans ht.1 ▸ herror e
  refine sat_known (fun _ hv => ?_) fun e => ht.1 ▸ herror e
  obtain rfl := verifyMarker_eq_ok hv
  exact hok t ht.1 (ht.2 _ rfl)

lemma sat_rejectForeignRule (hc : s.keys name = c) (hP : P c) :
    KeySat crates name P (rejectForeignRule crates name owner resource).run
      (fun a d => d = c ∧ (a = .ok () → Openable owner c)) s := by
  unfold rejectForeignRule
  refine sat_bind (sat_openRule hc hP) (fun opened t ht => ?_) fun e t ht =>
    sat_stop fun u hu => ⟨hu.trans ht.1, fun h => absurd h (by simp)⟩
  obtain ⟨ht, hsome, hnone⟩ := ht
  cases opened with
  | none =>
      obtain rfl := hnone rfl
      exact sat_stop fun u hu => ⟨hu.trans ht, fun _ _ _ h => absurd h (by simp)⟩
  | some handle =>
      obtain ⟨values, rfl⟩ := hsome handle rfl
      refine sat_bind (sat_readMarker ht hP) (fun marker u hu => ?_) fun e u hu =>
        sat_stop fun v hv => ⟨hv.trans hu.1, fun h => absurd h (by simp)⟩
      refine sat_stop fun v hv => ⟨hv.trans hu.1, fun hm handle' values' h => ?_⟩
      obtain ⟨rfl, rfl⟩ := Prod.mk.inj (Option.some.inj h)
      obtain rfl := verifyMarker_eq_ok hm
      exact hu.2 _ rfl

/-- The values of a rule are read. -/
lemma sat_readRuleValues {comment : List Char} (hc : s.keys name = some (handle, values))
    (hP : P (some (handle, values))) :
    KeySat crates name P (.call (.readRuleValues handle name comment) .done) (fun a d =>
      d = some (handle, values) ∧
        ∀ rule, a = .ok rule → readRuleValues crates.api values name comment = .ok rule) s := by
  refine sat_look (.readRuleValues handle name comment) (φ := fun r : Except Error NrptRule =>
      ∀ rule, r = .ok rule → readRuleValues crates.api values name comment = .ok rule)
    (fun _ _ _ h => h.1) (fun u r hu h rule hr => ?_) hc hP
  rcases h.2 with ⟨other, values', h', rfl⟩ | ⟨error, rfl⟩
  · obtain ⟨-, rfl⟩ := Registry.values_eq hu h'
    exact hr
  · exact absurd hr (by simp)

end Rules

/-! ## Writing the values -/

section Values

/-- When the registry refuses the server list of a rule, nothing is written; nothing else is ever
written to a rule that exists. -/
lemma update_writeRuleValues (api : RegistryApi) (rule before : NrptRule)
    (set : ValueName → Except Fault Unit) (values : RegistryKey) :
    let result := (writeRuleValuesWith api ⟨fun _ => .ok (), set⟩ rule (some before)).perform values
    (∃ e, result = (.error e, values)) ∨
      (result.1 = .ok () ∧ result.2 .comment = values .comment) := by
  unfold writeRuleValuesWith
  dsimp only
  split
  · exact .inl ⟨_, rfl⟩
  split
  · exact .inr ⟨rfl, rfl⟩
  refine perform_setValue_bind (Q := fun result => (∃ e, result = (.error e, values)) ∨
    (result.1 = .ok () ∧ result.2 .comment = values .comment)) (fun e _ => .inl ⟨e, rfl⟩) ?_
  exact .inr ⟨rfl, rfl⟩

lemma RegistryKey.state_empty : RegistryKey.empty.state crates owner name = .unowned :=
  RegistryKey.state_of_unmarked fun h => by
    simp [RegistryKey.Marked, RegistryKey.getString, RegistryKey.empty] at h

/-- What is left of the values of a rule that is created. -/
lemma state_created {result : Except Error Unit × RegistryKey}
    (roundTrips : crates.api.RoundTrips)
    (valid : validateRule crates.toAscii crates.uuid rule owner = .ok ())
    (set : ValueName → Except Fault Unit)
    (h : (writeRuleValuesWith crates.api ⟨fun _ => .ok (), set⟩ rule none).perform .empty =
      result) :
    (result.1 = .ok () ∧ result.2.state crates owner rule.key = .rule rule) ∨
      ∃ e, result.1 = .error e ∧ (result.2.state crates owner rule.key = .unowned ∨
        result.2.state crates owner rule.key = .unreadable) := by
  obtain ⟨-, -, hcomment, -⟩ := validateRule_eq_ok.mp valid
  have hcreated : Created crates.api ⟨fun _ => .ok (), set⟩ rule result :=
    h ▸ created_writeRuleValues _
  cases ha : result.1 with
  | ok _ =>
      refine .inl ⟨rfl, ?_⟩
      rw [hcreated.finished ha]
      exact RegistryKey.state_of_rule (getString_eq_ok.mpr (hcomment ▸ rfl))
        (readRuleValues_eq_ok.mpr ⟨holds_written roundTrips valid, rfl, hcomment⟩) valid
  | error e =>
      refine .inr ⟨e, rfl, ?_⟩
      by_cases hempty : result.2 = .empty
      · exact .inl (hempty ▸ RegistryKey.state_empty)
      · have hunread : ∃ e', readRuleValues crates.api result.2 rule.key (markerFor owner) =
            .error e' := not_holds_of_unfinished (hcreated.unfinished e ha)
        obtain ⟨e', he'⟩ := hunread
        exact .inr (RegistryKey.state_of_unread
          (getString_eq_ok.mpr (hcomment ▸ hcreated.marked hempty)) he')

/-- What is left of the values of a rule that is updated. -/
lemma state_updated {result : Except Error Unit × RegistryKey}
    (valid : validateRule crates.toAscii crates.uuid rule owner = .ok ()) (hm : values.Marked owner)
    (hread : readRuleValues crates.api values rule.key (markerFor owner) = .ok before)
    (set : ValueName → Except Fault Unit)
    (h : (writeRuleValuesWith crates.api ⟨fun _ => .ok (), set⟩ rule (some before)).perform values =
      result) :
    (result.1 = .ok () ∧ result.2.state crates owner rule.key = .rule rule) ∨
      ∃ e, result = (.error e, values) := by
  rcases update_writeRuleValues crates.api rule before set values with
    ⟨e, he⟩ | ⟨hok, hcomment⟩
  · exact .inr ⟨e, h.symm.trans he⟩
  · obtain ⟨-, -, -, hservers, -⟩ := validateRule_eq_ok.mp valid
    have hupdated := (updated_writeRuleValues ⟨fun _ => .ok (), set⟩ hservers hread).1
    rw [h] at hok hcomment hupdated
    have hmarked : result.2.Marked owner :=
      getString_eq_ok.mpr (hcomment.trans (getString_eq_ok.mp hm))
    exact .inl ⟨hok, RegistryKey.state_of_rule hmarked (hupdated.finished hok) valid⟩

end Values

/-! ## Requests -/

section Requests

variable {c d : KeyCell}

/-- What an operation that began over `c` may have made of it; what is not the owner's stays. -/
structure During (crates : Crates) (owner : List Char) (request : RuleRequest) (c d : KeyCell) :
    Prop where
  state : Meanwhile request (c.state crates owner request.key) (d.state crates owner request.key)
  unowned : c.state crates owner request.key = .unowned → d = c

lemma During.refl (crates : Crates) (owner : List Char) (request : RuleRequest) (c : KeyCell) :
    During crates owner request c c :=
  ⟨.unchanged _ _, fun _ => rfl⟩

/-- How an operation over `c` ends. -/
structure Ended (crates : Crates) (owner : List Char) (request : RuleRequest) (c : KeyCell)
    (answer : Except Error (Option NrptRule)) (d : KeyCell) : Prop where
  state : Concludes request (c.state crates owner request.key) answer
    (d.state crates owner request.key)
  unowned : c.state crates owner request.key = .unowned → d = c

lemma Ended.refused (request : RuleRequest) (c : KeyCell) (error : Error) :
    Ended crates owner request c (.error error) c :=
  ⟨.refused _ _ _, fun _ => rfl⟩

lemma KeyCell.unowned_of_not_openable (h : ¬ Openable owner c) :
    c.state crates owner name = .unowned := by
  unfold Openable at h
  push Not at h
  obtain ⟨handle, values, rfl, hm⟩ := h
  exact RegistryKey.state_of_unmarked hm

/-- A key that can be opened is not the one of another owner. -/
lemma Openable.state_ne (h : Openable owner c) : c.state crates owner name ≠ .unowned := by
  cases c with
  | none => simp [KeyCell.state]
  | some key =>
      obtain ⟨handle, values⟩ := key
      rcases RegistryKey.state_marked_cases crates name (h _ _ rfl) with
        hs | ⟨rule, hs⟩ <;> simp [KeyCell.state, hs]

lemma sat_readOwnedRuleByKey (hc : s.keys name = c) :
    KeySat crates name (During crates owner (.read name) c)
      (readOwnedRuleByKey crates name owner resource).run
      (Ended crates owner (.read name) c) s := by
  have hP := During.refl crates owner (.read name) c
  unfold readOwnedRuleByKey
  refine sat_bind (sat_openRule hc hP) (fun opened t ht => ?_) fun e t ht =>
    sat_stop fun u hu => hu.trans ht.1 ▸ .refused _ _ e
  obtain ⟨ht, hsome, hnone⟩ := ht
  cases opened with
  | none =>
      obtain rfl := hnone rfl
      refine sat_stop fun u hu => ?_
      rw [hu.trans ht]
      exact ⟨.readAbsent name, fun _ => rfl⟩
  | some handle =>
      obtain ⟨values, rfl⟩ := hsome handle rfl
      refine sat_ownMarker ht hP (fun u hu hm => ?_) fun e => .refused _ _ e
      refine sat_bind (sat_readRuleValues hu hP) (fun rule v hv => ?_) fun e v hv =>
        sat_stop fun x hx => hx.trans hv.1 ▸ .refused _ _ e
      obtain ⟨hv, hread⟩ := hv
      refine sat_known (fun _ hvalid => ?_) fun e => hv ▸ .refused _ _ e
      have hstate : values.state crates owner name = .rule rule :=
        RegistryKey.state_of_rule hm (hread rule rfl) (mapError_eq_ok.mp hvalid)
      refine sat_stop fun x hx => ?_
      rw [hx.trans hv]
      refine ⟨?_, fun _ => rfl⟩
      change Concludes _ (values.state crates owner name) _ (values.state crates owner name)
      rw [hstate]
      exact .readRule name rule

/-- The key of a rule or of an unfinished one is deleted. -/
lemma Ended.deleted (h : Openable owner c) :
    Ended crates owner (.delete name) c (.ok none) none := by
  refine ⟨?_, fun hu => absurd hu h.state_ne⟩
  change Concludes _ (c.state crates owner name) _ .absent
  cases c with
  | none => exact .alreadyAbsent name
  | some key =>
      obtain ⟨handle, values⟩ := key
      change Concludes _ (values.state crates owner name) _ _
      rcases RegistryKey.state_marked_cases crates name (h _ _ rfl) with
        hs | ⟨rule, hs⟩
      · rw [hs]
        exact .discarded name
      · rw [hs]
        exact .deleted name rule

lemma During.deleted (h : Openable owner c) (hne : c ≠ none) :
    During crates owner (.delete name) c none := by
  refine ⟨?_, fun hu => absurd hu h.state_ne⟩
  change Meanwhile _ (c.state crates owner name) .absent
  cases c with
  | none => exact absurd rfl hne
  | some key =>
      obtain ⟨handle, values⟩ := key
      change Meanwhile _ (values.state crates owner name) _
      rcases RegistryKey.state_marked_cases crates name (h _ _ rfl) with
        hs | ⟨rule, hs⟩
      · rw [hs]
        exact .discarded name
      · rw [hs]
        exact .deleted name rule

lemma sat_deleteRule (hc : s.keys name = c) :
    KeySat crates name (During crates owner (.delete name) c)
      (RuleRequest.program crates owner resource (.delete name)).run
      (Ended crates owner (.delete name) c) s := by
  have hP := During.refl crates owner (.delete name) c
  refine sat_bind (M := fun a t => Ended crates owner (.delete name) c (a.map fun _ => none)
    (t.keys name)) ?_ (fun _ t ht => sat_stop fun u hu => hu ▸ ht) fun e t ht =>
      sat_stop fun u hu => hu ▸ ht
  unfold deleteRule
  refine sat_bind (sat_rejectForeignRule hc hP) (fun _ t ht => ?_) fun e t ht =>
    sat_stop fun u hu => hu.trans ht.1 ▸ .refused _ _ e
  obtain ⟨ht, hopen⟩ := ht
  replace hopen : Openable owner c := hopen rfl
  refine sat_value (sat_look (.openBase true)
    (φ := fun r : Except Fault Unit => r = .error .notFound → c = none)
    (fun _ _ _ h => h.1) (fun _ _ hu h hr => hu.symm.trans (h.2 hr name)) ht hP) fun r u hu => ?_
  obtain ⟨hu, hnone⟩ := hu
  split
  · obtain rfl := hnone rfl
    refine sat_stop fun v hv => ?_
    rw [hv.trans hu]
    exact .deleted hopen
  · rename_i fault _
    exact sat_stop fun v hv => hv.trans hu ▸ .refused _ _ _
  refine sat_value (M := fun r t => (r = .ok () ∧ t.keys name = none) ∨
    (r = .error .notFound ∧ c = none ∧ t.keys name = c) ∨
      ∃ fault : Fault, r = .error fault ∧ fault.IsFailure ∧ t.keys name = c) ?_ fun r v hv => ?_
  · intro v hv r x hx
    have hv' : v.keys name = c := Eq.trans hv hu
    rcases hx with ⟨rfl, hne, rfl⟩ | ⟨rfl, hmissing, rfl⟩ | ⟨fault, rfl, hfails, rfl⟩
    · refine ⟨⟨fun _ => Registry.remove_keys_of_ne, ?_⟩, fun y hy => .inl ⟨rfl, ?_⟩⟩
      · rw [Registry.remove_keys]
        exact .deleted hopen (hv' ▸ hne)
      · exact Eq.trans hy (Registry.remove_keys _ _)
    · exact ⟨⟨fun _ _ => rfl, hv' ▸ hP⟩, fun y hy => .inr (.inl ⟨rfl, hv'.symm.trans hmissing,
        Eq.trans hy hv'⟩)⟩
    · exact ⟨⟨fun _ _ => rfl, hv' ▸ hP⟩, fun y hy => .inr (.inr ⟨fault, rfl, hfails,
        Eq.trans hy hv'⟩)⟩
  · rcases hv with ⟨rfl, hv⟩ | ⟨rfl, rfl, hv⟩ | ⟨fault, rfl, hfails, hv⟩
    · refine sat_stop fun y hy => ?_
      rw [hy.trans hv]
      exact .deleted hopen
    · refine sat_stop fun y hy => ?_
      rw [hy.trans hv]
      exact .deleted hopen
    · cases fault with
      | notFound => exact absurd rfl hfails
      | wrongType | malformed | status =>
          exact sat_stop fun y hy => hy.trans hv ▸ .refused _ _ _

/-- Not all values of a new rule are there: it has no marker yet, or cannot be read. -/
def Started (crates : Crates) (owner : List Char) (rule : NrptRule) (values : RegistryKey) : Prop :=
  values.state crates owner rule.key = .unowned ∨ values.state crates owner rule.key = .unreadable

/-- A key that was created for a rule, whatever it holds by now. -/
lemma During.created {values : RegistryKey}
    (h : values.state crates owner rule.key = .unowned ∨
      values.state crates owner rule.key = .unreadable ∨
        values.state crates owner rule.key = .rule rule) :
    During crates owner (.write rule) none (some (handle, values)) := by
  refine ⟨?_, fun hu => absurd hu (by simp [KeyCell.state])⟩
  change Meanwhile _ .absent (values.state crates owner rule.key)
  rcases h with h | h | h
  · exact h ▸ .unmarked rule
  · exact h ▸ .unfinished rule
  · exact h ▸ .created rule

lemma Ended.notCreated {values : RegistryKey} {error : Error}
    (h : Started crates owner rule values) :
    Ended crates owner (.write rule) none (.error error) (some (handle, values)) := by
  refine ⟨?_, fun hu => absurd hu (by simp [KeyCell.state])⟩
  change Concludes _ .absent _ (values.state crates owner rule.key)
  rcases h with h | h
  · exact h ▸ .unmarked rule error
  · exact h ▸ .unfinished rule error

lemma Ended.created {values : RegistryKey}
    (h : values.state crates owner rule.key = .rule rule) :
    Ended crates owner (.write rule) none (.ok none) (some (handle, values)) := by
  refine ⟨?_, fun hu => absurd hu (by simp [KeyCell.state])⟩
  change Concludes _ .absent _ (values.state crates owner rule.key)
  exact h ▸ .created rule

lemma During.updated {values values' : RegistryKey}
    (h : values.state crates owner rule.key = .rule before)
    (h' : values'.state crates owner rule.key = .rule rule) :
    During crates owner (.write rule) (some (handle, values)) (some (handle, values')) := by
  have hstate : KeyCell.state crates owner rule.key (some (handle, values)) = .rule before := h
  have hstate' : KeyCell.state crates owner rule.key (some (handle, values')) = .rule rule := h'
  refine ⟨?_, fun hu => absurd (hstate.symm.trans hu) (by simp)⟩
  change Meanwhile _ (KeyCell.state _ _ rule.key _) (KeyCell.state _ _ rule.key _)
  rw [hstate, hstate']
  exact .updated rule before

lemma Ended.updated {values values' : RegistryKey}
    (h : values.state crates owner rule.key = .rule before)
    (h' : values'.state crates owner rule.key = .rule rule) :
    Ended crates owner (.write rule) (some (handle, values)) (.ok none)
      (some (handle, values')) := by
  have hstate : KeyCell.state crates owner rule.key (some (handle, values)) = .rule before := h
  have hstate' : KeyCell.state crates owner rule.key (some (handle, values')) = .rule rule := h'
  refine ⟨?_, fun hu => absurd (hstate.symm.trans hu) (by simp)⟩
  change Concludes _ (KeyCell.state _ _ rule.key _) _ (KeyCell.state _ _ rule.key _)
  rw [hstate, hstate']
  exact .updated rule before

/-- The key of a rule is opened for the writes, or created. -/
lemma sat_createRuleKey (hc : s.keys rule.key = c) :
    KeySat crates rule.key (During crates owner (.write rule) c)
      (createRuleKey crates rule.key).run (fun a d =>
        (∃ handle values, a = .ok (handle, false) ∧ c = some (handle, values) ∧ d = c) ∨
        (∃ handle, a = .ok (handle, true) ∧ c = none ∧ d = some (handle, .empty)) ∨
          ∃ e, a = .error e ∧ d = c) s := by
  have hP := During.refl crates owner (.write rule) c
  unfold createRuleKey
  refine sat_bind (M := fun a t => t.keys rule.key = c) ?_ (fun _ t ht => ?_) fun e t ht =>
    sat_stop fun u hu => .inr (.inr ⟨e, rfl, hu.trans ht⟩)
  · intro t ht r u hu
    obtain rfl : u = t := hu
    have hu' : u.keys rule.key = c := Eq.trans ht hc
    exact ⟨⟨fun _ _ => rfl, hu' ▸ hP⟩, fun v hv => Eq.trans hv hu'⟩
  · intro u hu r v hv
    have hu' : u.keys rule.key = c := Eq.trans hu ht
    cases hv with
    | existing handle values h =>
        exact ⟨⟨fun _ _ => rfl, hu' ▸ hP⟩, fun x hx => .inl ⟨handle, values, rfl, hu'.symm.trans h,
          Eq.trans hx hu'⟩⟩
    | created handle hnone fresh =>
        obtain rfl : c = none := hu'.symm.trans hnone
        have hnew : (u.put rule.key handle .empty fresh).keys rule.key = some (handle, .empty) :=
          Function.update_self ..
        refine ⟨⟨fun other hne => Function.update_of_ne hne .., ?_⟩, fun x hx =>
          .inr (.inl ⟨handle, rfl, rfl, Eq.trans hx hnew⟩)⟩
        rw [hnew]
        exact .created (.inl RegistryKey.state_empty)
    | failed fault =>
        exact ⟨⟨fun _ _ => rfl, hu' ▸ hP⟩, fun x hx => .inr (.inr ⟨_, rfl, Eq.trans hx hu'⟩)⟩

lemma Started.during {values : RegistryKey} (h : Started crates owner rule values) :
    During crates owner (.write rule) none (some (handle, values)) :=
  .created (h.imp_right .inl)

/-- The values of a rule that is created. -/
lemma sat_writeNew (roundTrips : crates.api.RoundTrips)
    (valid : validateRule crates.toAscii crates.uuid rule owner = .ok ())
    (hc : s.keys rule.key = some (handle, .empty)) :
    KeySat crates rule.key (During crates owner (.write rule) none)
      (.call (.writeRuleValues handle rule none) .done) (fun (r : Except Error Unit) d =>
        ∃ values, d = some (handle, values) ∧
          ((r = .ok () ∧ values.state crates owner rule.key = .rule rule) ∨
            ∃ e, r = .error e ∧ Started crates owner rule values)) s := by
  intro t ht r u hu
  have ht' : t.keys rule.key = some (handle, .empty) := Eq.trans ht hc
  cases hu with
  | written set name values result h hresult =>
      obtain ⟨rfl, rfl⟩ := Registry.values_eq ht' h
      have hend := state_created roundTrips valid set hresult
      have hput := Registry.put_keys t rule.key handle result.2 fun _ _ h' => t.distinct h' h
      refine ⟨⟨fun other => Registry.put_keys_of_ne, ?_⟩, fun v hv => ⟨_, Eq.trans hv hput, hend⟩⟩
      rw [hput]
      rcases hend with ⟨-, hrule⟩ | ⟨e, -, hstarted⟩
      · exact .created (.inr (.inr hrule))
      · exact Started.during hstarted
  | failed error =>
      have hstarted : Started crates owner rule .empty := .inl RegistryKey.state_empty
      refine ⟨⟨fun _ _ => rfl, ?_⟩, fun v hv => ⟨_, Eq.trans hv ht', .inr ⟨error, rfl, hstarted⟩⟩⟩
      rw [ht']
      exact hstarted.during

/-- The key is deleted again, unless that fails. -/
lemma sat_deleteCreatedKey {values : RegistryKey} (hstarted : Started crates owner rule values)
    (hc : s.keys rule.key = some (handle, values)) :
    KeySat crates rule.key (During crates owner (.write rule) none) (deleteCreatedKey handle).run
      (fun a d => (a = .ok () ∧ d = none) ∨ ∃ e, a = .error e ∧ d = some (handle, values)) s := by
  intro t ht r u hu
  have ht' : t.keys rule.key = some (handle, values) := Eq.trans ht hc
  rcases hu with ⟨hr, name, values', h, rfl⟩ | ⟨hr, rfl⟩
  · obtain ⟨rfl, rfl⟩ := Registry.values_eq ht' h
    refine ⟨⟨fun _ => Registry.remove_keys_of_ne, ?_⟩, fun x hx =>
      .inl ⟨if_pos hr, Eq.trans hx (Registry.remove_keys _ _)⟩⟩
    rw [Registry.remove_keys]
    exact .refl _ _ _ _
  · refine ⟨⟨fun _ _ => rfl, ?_⟩, fun x hx => .inr ⟨_, if_neg hr, Eq.trans hx ht'⟩⟩
    rw [ht']
    exact hstarted.during

/-- The values of a rule that is created, and what is done when they cannot all be written. -/
lemma sat_writeCreated (roundTrips : crates.api.RoundTrips)
    (valid : validateRule crates.toAscii crates.uuid rule owner = .ok ())
    (hc : s.keys rule.key = some (handle, .empty)) :
    KeySat crates rule.key (During crates owner (.write rule) none) (do
      match ← value (.call (.writeRuleValues handle rule none) .done) with
      | .ok _ => return ()
      | .error primary =>
          match ← attempt (deleteCreatedKey handle) with
          | .ok _ => throw primary
          | .error error => throw (.transactionFailed primary [error]) :
        RegistryProgram Unit).run
      (fun a d => Ended crates owner (.write rule) none (a.map fun _ => none) d) s := by
  refine sat_value (sat_writeNew roundTrips valid hc) fun r t ht => ?_
  obtain ⟨values, ht, ⟨rfl, hrule⟩ | ⟨primary, rfl, hstarted⟩⟩ := ht
  · refine sat_stop fun u hu => ?_
    rw [hu.trans ht]
    exact .created hrule
  refine sat_attempt (sat_deleteCreatedKey hstarted ht) fun a u hu => ?_
  rcases hu with ⟨rfl, hu⟩ | ⟨e, rfl, hu⟩
  · refine sat_stop fun v hv => ?_
    rw [hv.trans hu]
    exact .refused _ _ _
  · refine sat_stop fun v hv => ?_
    rw [hv.trans hu]
    exact .notCreated hstarted

/-- The values of a rule that exists. -/
lemma sat_writeUpdated (valid : validateRule crates.toAscii crates.uuid rule owner = .ok ())
    (valid' : validateRule crates.toAscii crates.uuid before owner = .ok ())
    (hm : values.Marked owner)
    (hread : readRuleValues crates.api values rule.key (markerFor owner) = .ok before)
    (hc : s.keys rule.key = some (handle, values)) :
    KeySat crates rule.key (During crates owner (.write rule) (some (handle, values)))
      (.call (.writeRuleValues handle rule (some before)) .done) (fun (a : Except Error Unit) d =>
        Ended crates owner (.write rule) (some (handle, values)) (a.map fun _ => none) d) s := by
  have hbefore : values.state crates owner rule.key = .rule before :=
    RegistryKey.state_of_rule hm hread valid'
  intro t ht r u hu
  have ht' : t.keys rule.key = some (handle, values) := Eq.trans ht hc
  cases hu with
  | written set name values' result h hresult =>
      obtain ⟨rfl, rfl⟩ := Registry.values_eq ht' h
      have hput := Registry.put_keys t rule.key handle result.2 fun _ _ h' => t.distinct h' h
      refine ⟨⟨fun other hne => Function.update_of_ne hne .., ?_⟩, fun v hv => ?_⟩
      · rw [hput]
        rcases state_updated valid hm hread set hresult with ⟨-, hrule⟩ | ⟨e, rfl⟩
        · exact .updated hbefore hrule
        · exact .refl _ _ _ _
      · have hv' := Eq.trans hv hput
        dsimp only
        rw [hv']
        rcases state_updated valid hm hread set hresult with ⟨hok, hrule⟩ | ⟨e, rfl⟩
        · rw [hok]
          exact .updated hbefore hrule
        · exact .refused _ _ e
  | failed error =>
      refine ⟨⟨fun _ _ => rfl, ht' ▸ .refl _ _ _ _⟩, fun v hv => ?_⟩
      have hv' := Eq.trans hv ht'
      dsimp only
      rw [hv']
      exact .refused _ _ error

/-- A key with another marker is refused, a rule that exists is updated, any other is created. -/
lemma sat_writeRule (roundTrips : crates.api.RoundTrips) (hc : s.keys rule.key = c) :
    KeySat crates rule.key (During crates owner (.write rule) c)
      (RuleRequest.program crates owner resource (.write rule)).run
      (Ended crates owner (.write rule) c) s := by
  have hP := During.refl crates owner (.write rule) c
  refine sat_bind (M := fun a t => Ended crates owner (.write rule) c (a.map fun _ => none)
    (t.keys rule.key)) ?_ (fun _ t ht => sat_stop fun u hu => hu ▸ ht) fun e t ht =>
      sat_stop fun u hu => hu ▸ ht
  unfold writeRule
  refine sat_known (fun _ valid => ?_) fun e => hc ▸ .refused _ _ e
  refine sat_bind (sat_rejectForeignRule hc hP) (fun _ t ht => ?_) fun e t ht =>
    sat_stop fun u hu => hu.trans ht.1 ▸ .refused _ _ e
  refine sat_bind (sat_createRuleKey ht.1) (fun opened u hu => ?_) fun e u hu => ?_
  · obtain ⟨dnskey, created⟩ := opened
    rcases hu with ⟨handle, values, h, rfl, hu⟩ | ⟨handle, h, rfl, hu⟩ | ⟨e, h, -⟩
    · obtain ⟨rfl, rfl⟩ := Prod.mk.inj (Except.ok.inj h)
      dsimp only
      rw [if_pos rfl]
      refine sat_ownMarker hu hP (fun v hv hm => ?_) fun e => .refused _ _ e
      refine sat_bind (sat_readRuleValues hv hP) (fun before x hx => ?_) fun e x hx =>
        sat_stop fun y hy => hy.trans hx.1 ▸ .refused _ _ e
      refine sat_known (fun _ valid' => ?_) fun e => hx.1 ▸ .refused _ _ e
      exact sat_writeUpdated valid valid' hm (hx.2 before rfl) hx.1
    · obtain ⟨rfl, rfl⟩ := Prod.mk.inj (Except.ok.inj h)
      exact sat_writeCreated roundTrips valid hu
    · exact absurd h (by simp)
  · rcases hu with ⟨_, _, h, -⟩ | ⟨_, h, -⟩ | ⟨e', h, hu⟩
    · exact absurd h (by simp)
    · exact absurd h (by simp)
    · exact sat_stop fun v hv => hv.trans hu ▸ .refused _ _ e

/-- Every request, over whatever is under its key. -/
lemma RuleRequest.sat (roundTrips : crates.api.RoundTrips) (request : RuleRequest)
    (hc : s.keys request.key = c) :
    KeySat crates request.key (During crates owner request c)
      (request.program crates owner resource).run (Ended crates owner request c) s := by
  cases request with
  | write rule => exact sat_writeRule roundTrips hc
  | delete key => exact sat_deleteRule hc
  | read key => exact sat_readOwnedRuleByKey hc

end Requests

end Nrpt

end Osdns
