import Osdns.Teardown.Steps

/-!
# The calls of a teardown

What a session that ends a lease calls, record after record.  The calls for one record stand
together: its resource is unregistered, the step is performed, and if it succeeded the resource's
lock is released.  All other calls of the teardown are for other records.
-/

namespace Osdns

open Interaction

variable {ref : LiveRef} {locks held : List ResourceId} {es : List WorldExchange}
variable {step : LiveRef → FakeManaged (Except Error Unit)}

/-- A call that the teardown of `ref` may make. -/
def ManagerOp.Tears (ref : LiveRef) : ManagerOp FakeSnapshotData FakeIdentity → Prop
  | .engine o => o.For ref.lease (· = ref.resource)
  | .release resource => resource = ref.resource
  | .activeRemove resource => resource = ref.resource
  | .tokenGet resource => resource = ref.resource
  | .tokenRemove resource => resource = ref.resource
  | .reconcilerRemove resource => resource = ref.resource
  | .enterSection entered => entered.resource = ref.resource
  | .leaveSection entered => entered.resource = ref.resource
  | .tokenLock _ => True
  | .tokenUnlock _ => True
  | _ => False

/-! ## One record -/

lemma only_releases {C : ManagerOp FakeSnapshotData FakeIdentity → Prop}
    {A : (o : ManagerOp FakeSnapshotData FakeIdentity) →
      ManagerRet FakeSnapshotData FakeIdentity o → Prop}
    (h : ∀ r ∈ locks, C (.release r)) : (releaseAll locks).Only A C := by
  induction locks with
  | nil => trivial
  | cons r locks ih =>
      exact ⟨h r (List.mem_cons_self ..), fun _ _ => ih fun r hr => h r (List.mem_cons_of_mem _ hr)⟩

lemma only_withLiveRecord {α : Type} {f : FakeManaged α}
    (h : f.Only ManagerNamed (ManagerOp.Tears ref)) :
    (withLiveRecord ref f).Only ManagerNamed (ManagerOp.Tears ref) := by
  refine ⟨rfl, fun token _ => ⟨trivial, fun _ _ => ⟨rfl, fun _ _ => ?_⟩⟩⟩
  exact Program.Only.bind (p := f) h fun _ => ⟨rfl, fun _ _ => ⟨trivial, fun _ _ => trivial⟩⟩

lemma only_unregisterActive :
    (unregisterActive ref.resource : FakeManaged Unit).Only ManagerNamed (ManagerOp.Tears ref) :=
  ⟨rfl, fun _ _ => ⟨rfl, fun _ _ => ⟨rfl, fun _ _ => trivial⟩⟩⟩

lemma TearsDown.only (h : TearsDown step) :
    (step ref).Only ManagerNamed (ManagerOp.Tears ref) := by
  refine (h.own ref).mono ?_
  rintro _ ⟨e, rfl, he⟩
  exact he

lemma only_teardownRecord (h : TearsDown step) :
    (teardownRecord step ref locks).Only ManagerNamed (ManagerOp.Tears ref) := by
  refine only_withLiveRecord (only_unregisterActive.bind fun _ => ?_)
  refine Program.Only.bind (p := step ref) h.only fun outcome => ?_
  cases outcome with
  | ok _ =>
      refine Program.Only.bind (only_releases fun r hr => ?_) fun _ => trivial
      have hown : r = ref.resource := of_decide_eq_true (List.mem_filter.mp hr).2
      exact hown
  | error error => trivial

/-- `releaseAll` releases each lock, in order. -/
lemma releaseAll_calls {a : Unit} (h : (releaseAll locks).Transcript es (.done a)) :
    es.map (·.op) = locks.map .release := by
  induction locks generalizing es with
  | nil =>
      obtain ⟨rfl, -⟩ := Program.Transcript.done_inv h
      rfl
  | cons r locks ih =>
      obtain ⟨answer, before, after, rest, rfl, hrest⟩ := Program.Transcript.call_inv h
      rw [List.map_cons, List.map_cons, ih hrest]

/-- The calls for one record: the resource is unregistered, the step performed, and after a
success the resource's lock released. -/
lemma teardownRecord_calls {outcome : Except Error Unit}
    (h : (teardownRecord step ref locks).Transcript es (.done outcome)) :
    ∃ token front block back, es = front ++ block ++ back ∧
      front.map (·.op) = [.tokenGet ref.resource, .tokenLock token, .enterSection ref,
        .activeRemove ref.resource, .tokenRemove ref.resource, .reconcilerRemove ref.resource] ∧
      (step ref).Transcript block (.done outcome) ∧
      back.map (·.op) = (if outcome.isOk then (locks.filter (· = ref.resource)).map .release
        else []) ++ [.leaveSection ref, .tokenUnlock token] := by
  obtain ⟨token, b₁, a₁, es₁, rfl, h₁⟩ := Program.Transcript.call_inv h
  obtain ⟨x₂, b₂, a₂, es₂, rfl, h₂⟩ := Program.Transcript.call_inv h₁
  obtain ⟨x₃, b₃, a₃, es₃, rfl, h₃⟩ := Program.Transcript.call_inv h₂
  obtain ⟨_, none, entered, rfl, hnone, hentered⟩ := Program.Transcript.bind_inv h₃
  obtain ⟨rfl, rfl⟩ := Program.Transcript.done_inv hnone
  obtain ⟨result, inner, last, rfl, hinner, hlast⟩ := Program.Transcript.bind_inv hentered
  obtain ⟨x₄, b₄, a₄, last₁, rfl, h₄⟩ := Program.Transcript.call_inv hlast
  obtain ⟨x₅, b₅, a₅, last₂, rfl, h₅⟩ := Program.Transcript.call_inv h₄
  obtain ⟨rfl, rfl⟩ := Program.Transcript.done_inv h₅
  obtain ⟨x₆, b₆, a₆, es₆, rfl, h₆⟩ := Program.Transcript.call_inv hinner
  obtain ⟨x₇, b₇, a₇, es₇, rfl, h₇⟩ := Program.Transcript.call_inv h₆
  obtain ⟨x₈, b₈, a₈, es₈, rfl, h₈⟩ := Program.Transcript.call_inv h₇
  obtain ⟨_, none, stepped, rfl, hnone, hstepped⟩ := Program.Transcript.bind_inv h₈
  obtain ⟨rfl, rfl⟩ := Program.Transcript.done_inv hnone
  obtain ⟨answer, block, rest, rfl, hstep, hrest⟩ := Program.Transcript.bind_inv hstepped
  suffices hdone : answer = outcome ∧ rest.map (·.op) =
      if outcome.isOk then (locks.filter (· = ref.resource)).map .release else [] by
    obtain ⟨rfl, hreleases⟩ := hdone
    refine ⟨token, [⟨_, token, b₁, a₁⟩, ⟨_, x₂, b₂, a₂⟩, ⟨.enterSection ref, (), b₃, a₃⟩,
      ⟨_, x₆, b₆, a₆⟩, ⟨_, x₇, b₇, a₇⟩, ⟨.reconcilerRemove ref.resource, (), b₈, a₈⟩], block,
      rest ++ [⟨_, x₄, b₄, a₄⟩, ⟨_, x₅, b₅, a₅⟩],
      by simp only [List.nil_append, List.cons_append, List.append_assoc], rfl, hstep, ?_⟩
    rw [List.map_append, hreleases]
    rfl
  cases answer with
  | ok _ =>
      obtain ⟨_, releases, tail, rfl, hreleases, htail⟩ := Program.Transcript.bind_inv hrest
      obtain ⟨rfl, rfl⟩ := Program.Transcript.done_inv htail
      refine ⟨rfl, ?_⟩
      rw [List.append_nil, releaseAll_calls hreleases]
      rfl
  | error error =>
      obtain ⟨rfl, rfl⟩ := Program.Transcript.done_inv hrest
      exact ⟨rfl, rfl⟩

/-! ## All records -/

lemma only_teardown (h : TearsDown step) {refs : List LiveRef} :
    (teardown step refs locks).Only ManagerNamed fun o => ∃ ref ∈ refs, o.Tears ref := by
  induction refs generalizing locks with
  | nil => trivial
  | cons ref refs ih =>
      have later : ∀ held, (teardown step refs held).Only ManagerNamed fun o =>
          ∃ other ∈ ref :: refs, o.Tears other := fun held =>
        ih.mono fun o ⟨other, hmem, ho⟩ => ⟨other, List.mem_cons_of_mem _ hmem, ho⟩
      refine Program.Only.bind (p := teardownRecord step ref locks) ?_ fun outcome => ?_
      · exact (only_teardownRecord h).mono fun o ho => ⟨ref, List.mem_cons_self .., ho⟩
      · match outcome with
        | .ok _ => exact later _
        | .error error => exact (later _).bind fun _ => trivial

/-- Only the locks of the own resource matter to the teardown of a record. -/
lemma teardownRecord_congr (held : List ResourceId)
    (h : locks.filter (· = ref.resource) = held.filter (· = ref.resource)) :
    teardownRecord step ref locks = teardownRecord step ref held := by
  unfold teardownRecord
  rw [h]

/-- The calls for a record stand together, and the others are for other resources. -/
def TornPart (step : LiveRef → FakeManaged (Except Error Unit)) (refs : List LiveRef)
    (held : List ResourceId) (es : List WorldExchange) (ref : LiveRef)
    (outcome : Except Error Unit) : Prop :=
  ∃ before part after, es = before ++ part ++ after ∧
    (teardownRecord step ref held).Transcript part (.done outcome) ∧
    ∀ e ∈ before ++ after, ∃ other ∈ refs, other.resource ≠ ref.resource ∧ e.op.Tears other

/-- How a teardown of `refs` went; `outcomes` says how the step ended on each resource. -/
structure Torn (step : LiveRef → FakeManaged (Except Error Unit)) (refs : List LiveRef)
    (held : List ResourceId) (es : List WorldExchange)
    (outcomes : ResourceId → Except Error Unit) (result : Teardown) : Prop where
  calls : ∀ e ∈ es, ∃ ref ∈ refs, e.op.Tears ref
  parts : ∀ ref ∈ refs, TornPart step refs held es ref (outcomes ref.resource)
  kept : result.live = refs.filter fun ref => !(outcomes ref.resource).isOk
  locked : result.locks =
    held.filter fun r => !(decide (r ∈ refs.map (·.resource)) && (outcomes r).isOk)
  clean : result.error = none → ∀ ref ∈ refs, (outcomes ref.resource).isOk = true
  failed : ∀ error, result.error = some error → ∃ ref ∈ refs, outcomes ref.resource = .error error

/-- The first record and those after it. -/
lemma tornPart_cons (hstep : TearsDown step) {refs : List LiveRef} {part rest : List WorldExchange}
    {outcome : Except Error Unit} {outcomes : ResourceId → Except Error Unit}
    (hnodup : ((ref :: refs).map (·.resource)).Nodup)
    (hnamed : ∀ e ∈ part ++ rest, ManagerNamed e.op e.answer)
    (hpart : (teardownRecord step ref held).Transcript part (.done outcome))
    (hrest : ∀ e ∈ rest, ∃ other ∈ refs, e.op.Tears other)
    (hparts : ∀ other ∈ refs, TornPart step refs held rest other (outcomes other.resource)) :
    ∀ x ∈ ref :: refs, TornPart step (ref :: refs) held (part ++ rest) x
      (Function.update outcomes ref.resource outcome x.resource) := by
  have hne : ∀ other ∈ refs, other.resource ≠ ref.resource := by
    rw [List.map_cons, List.nodup_cons] at hnodup
    intro other hmem heq
    exact hnodup.1 (heq ▸ List.mem_map_of_mem hmem)
  intro x hx
  rcases List.mem_cons.mp hx with rfl | hmem
  · refine ⟨[], part, rest, by simp, by rwa [Function.update_self], fun e he => ?_⟩
    obtain ⟨other, hother, htears⟩ := hrest e he
    exact ⟨other, List.mem_cons_of_mem _ hother, hne other hother, htears⟩
  · obtain ⟨before, own, after, rfl, hown, hothers⟩ := hparts x hmem
    refine ⟨part ++ before, own, after, by simp only [List.append_assoc], ?_, fun e he => ?_⟩
    · rwa [Function.update_of_ne (hne x hmem)]
    · rw [List.append_assoc] at he
      rcases List.mem_append.mp he with he | he
      · have hfirst := hpart.only (fun e he => hnamed e (List.mem_append_left _ he))
          (only_teardownRecord hstep)
        exact ⟨ref, List.mem_cons_self .., (hne x hmem).symm, hfirst e he⟩
      · obtain ⟨other, hother, h⟩ := hothers e he
        exact ⟨other, List.mem_cons_of_mem _ hother, h⟩

/-- The lock filters of a teardown and of what follows its first record agree. -/
lemma lockFilter_cons {refs : List LiveRef} {outcome : Except Error Unit}
    {outcomes : ResourceId → Except Error Unit} {r : ResourceId}
    (hnot : ref.resource ∉ refs.map (·.resource)) :
    (!(decide (r ∈ (ref :: refs).map (·.resource)) &&
        (Function.update outcomes ref.resource outcome r).isOk)) =
      ((decide (r ≠ ref.resource) || !outcome.isOk) &&
        !(decide (r ∈ refs.map (·.resource)) && (outcomes r).isOk)) := by
  by_cases hr : r = ref.resource
  · subst hr
    simp [hnot]
  · simp [hr]

lemma keepFilter_cons {refs : List LiveRef} {outcome : Except Error Unit}
    {outcomes : ResourceId → Except Error Unit} (hnot : ref.resource ∉ refs.map (·.resource)) :
    (refs.filter fun x => !(Function.update outcomes ref.resource outcome x.resource).isOk) =
      refs.filter fun x => !(outcomes x.resource).isOk := by
  refine List.filter_congr fun x hx => ?_
  have hne : x.resource ≠ ref.resource := fun heq => hnot (heq ▸ List.mem_map_of_mem hx)
  rw [Function.update_of_ne hne]

/-- Every transcript of a teardown is one of its records, one after another. -/
lemma teardown_torn (hstep : TearsDown step) {refs : List LiveRef} {result : Teardown}
    (hnodup : (refs.map (·.resource)).Nodup) (hnamed : ∀ e ∈ es, ManagerNamed e.op e.answer)
    (h : (teardown step refs held).Transcript es (.done result)) :
    ∃ outcomes, Torn step refs held es outcomes result := by
  have hall := h.only hnamed (only_teardown hstep)
  induction refs generalizing held es result with
  | nil =>
      obtain ⟨rfl, rfl⟩ := Program.Transcript.done_inv h
      exact ⟨fun _ => .ok (), by simp, by simp, rfl, by simp, by simp, fun _ h => absurd h (by simp)⟩
  | cons ref refs ih =>
      obtain ⟨outcome, part, rest, rfl, hpart, hrest⟩ := Program.Transcript.bind_inv h
      have hnot : ref.resource ∉ refs.map (·.resource) := (List.nodup_cons.mp hnodup).1
      have hlater := (List.nodup_cons.mp hnodup).2
      have hne : ∀ other ∈ refs, other.resource ≠ ref.resource := fun other hmem heq =>
        hnot (heq ▸ List.mem_map_of_mem hmem)
      have hrestnamed : ∀ e ∈ rest, ManagerNamed e.op e.answer := fun e he =>
        hnamed e (List.mem_append_right _ he)
      cases outcome with
      | ok _ =>
          have hcalls := hrest.only hrestnamed (only_teardown hstep)
          obtain ⟨outcomes, torn⟩ := ih hlater hrestnamed hrest hcalls
          refine ⟨Function.update outcomes ref.resource (.ok ()), hall,
            tornPart_cons hstep hnodup hnamed hpart hcalls fun other hmem => ?_, ?_, ?_, ?_, ?_⟩
          · obtain ⟨before, own, after, heq, hown, hothers⟩ := torn.parts other hmem
            refine ⟨before, own, after, heq, ?_, hothers⟩
            rwa [teardownRecord_congr held] at hown
            rw [List.filter_filter]
            refine List.filter_congr fun r _ => ?_
            by_cases hr : r = other.resource
            · subst hr
              simp [hne other hmem]
            · simp [hr]
          · rw [torn.kept, List.filter_cons_of_neg (by simp [Except.isOk, Except.toBool]),
              keepFilter_cons hnot]
          · rw [torn.locked, List.filter_filter]
            refine List.filter_congr fun r _ => ?_
            rw [lockFilter_cons hnot, Bool.and_comm]
            simp [Except.isOk, Except.toBool]
          · intro hclean x hx
            rcases List.mem_cons.mp hx with rfl | hmem
            · rw [Function.update_self]
              rfl
            · rw [Function.update_of_ne (hne x hmem)]
              exact torn.clean hclean x hmem
          · intro error herror
            obtain ⟨x, hmem, hx⟩ := torn.failed error herror
            refine ⟨x, List.mem_cons_of_mem _ hmem, ?_⟩
            rw [Function.update_of_ne (hne x hmem), hx]
      | error error =>
          obtain ⟨left, later, tail, rfl, hteardown, htail⟩ := Program.Transcript.bind_inv hrest
          obtain ⟨rfl, rfl⟩ := Program.Transcript.done_inv htail
          rw [List.append_nil] at hnamed hrestnamed hall ⊢
          have hcalls := hteardown.only hrestnamed (only_teardown hstep)
          obtain ⟨outcomes, torn⟩ := ih hlater hrestnamed hteardown hcalls
          refine ⟨Function.update outcomes ref.resource (.error error), hall,
            tornPart_cons hstep hnodup hnamed hpart hcalls torn.parts, ?_, ?_,
            fun h => absurd h (by simp), fun _ h => ?_⟩
          · rw [List.filter_cons_of_pos (by simp [Except.isOk, Except.toBool]),
              keepFilter_cons hnot, ← torn.kept]
          · refine Eq.trans torn.locked (List.filter_congr fun r _ => ?_)
            rw [lockFilter_cons hnot]
            simp [Except.isOk, Except.toBool]
          · obtain rfl := Option.some.inj h
            exact ⟨ref, List.mem_cons_self .., Function.update_self ..⟩

end Osdns
