import Osdns.Platform.NrptFaultless

/-!
# Runs of requests on NRPT rules

Requests on different keys run at the same time, each of them call by call; a process may die
between any two calls and leave its request unfinished, and other programs may edit the keys that no
request is working on.  Over all such runs the answer of a request tells the state of its key
(`Ended`), and a key that was created but never marked can neither be used nor deleted (`Orphan`).
-/

namespace Osdns

open Interaction

namespace Nrpt

variable {crates : Crates} {name : List Char}

/-! ## The system -/

/-- A request that is being carried out. -/
structure Session where
  owner : List Char
  resource : ResourceId
  request : RuleRequest
  /-- What was under the key when the request began. -/
  before : KeyCell
  rest : Program RegistryRet (Except Error (Option NrptRule))

/-- A request begins. -/
def Session.start (crates : Crates) (registry : Registry) (owner : List Char)
    (resource : ResourceId) (request : RuleRequest) : Session where
  owner := owner
  resource := resource
  request := request
  before := registry.keys request.key
  rest := (request.program crates owner resource).run

/-- The registry, and the request that works on each key. -/
structure Rules where
  registry : Registry
  working : List Char → Option Session

namespace Rules

/-- A step of a request, the end of one, or an edit of another program within `edits`. -/
inductive Step (crates : Crates) (edits : Registry → Registry → Prop) : Rules → Rules → Prop
  | start (s : Rules) (owner : List Char) (resource : ResourceId) (request : RuleRequest)
      (idle : s.working request.key = none) :
      Step crates edits s { s with
        working := Function.update s.working request.key
          (some (Session.start crates s.registry owner resource request)) }
  | call {s : Rules} {name : List Char} {session : Session} {registry : Registry}
      {rest : Program RegistryRet (Except Error (Option NrptRule))}
      (h : s.working name = some session)
      (hcall : Program.Step (registryCalls crates.api) session.rest s.registry rest registry) :
      Step crates edits s {
        registry
        working := Function.update s.working name (some { session with rest }) }
  /-- A request has answered, or its process has died. -/
  | stop (s : Rules) (name : List Char) :
      Step crates edits s { s with working := Function.update s.working name none }
  | other {s : Rules} {registry : Registry} (hedit : edits s.registry registry)
      (idle : ∀ name session, s.working name = some session →
        registry.keys name = s.registry.keys name) :
      Step crates edits s { s with registry }

/-- A state that a run reaches, from whatever was in the registry. -/
inductive Reachable (crates : Crates) (edits : Registry → Registry → Prop) : Rules → Prop
  | init {s : Rules} (h : ∀ name, s.working name = none) : Reachable crates edits s
  | step {s t : Rules} (h : Reachable crates edits s) (hst : Step crates edits s t) :
      Reachable crates edits t

end Rules

variable {edits : Registry → Registry → Prop} {s t : Rules} {session : Session}
variable {registry registry' : Registry}

namespace Rules

/-- The calls of a request that nobody interferes with. -/
lemma steps_of_rest (session : Session) {answer : Except Error (Option NrptRule)}
    (h : s.working name = some session)
    (hruns : session.rest.Runs (registryCalls crates.api) s.registry answer registry) :
    Relation.ReflTransGen (Step crates edits) s {
      registry
      working := Function.update s.working name (some { session with rest := .done answer }) } := by
  obtain ⟨owner, resource, request, before, rest⟩ := session
  dsimp only at hruns ⊢
  induction rest generalizing s with
  | done a =>
      obtain ⟨rfl, rfl⟩ := hruns
      rw [← h, Function.update_eq_self]
  | call o k ih =>
      obtain ⟨r, u, hu, hk⟩ := hruns
      refine .head (.call h (.mk hu)) ?_
      have hrest := ih r (s := {
        registry := u
        working := Function.update s.working name (some ⟨owner, resource, request, before, k r⟩) })
        (Function.update_self ..) hk
      rwa [Function.update_idem] at hrest

/-- A request has its answer. -/
def answered (crates : Crates) (s : Rules) (owner : List Char) (resource : ResourceId)
    (request : RuleRequest) (answer : Except Error (Option NrptRule)) (registry : Registry) :
    Rules where
  registry := registry
  working := Function.update s.working request.key (some {
    Session.start crates s.registry owner resource request with
    rest := .done answer })

@[simp] lemma answered_working (owner : List Char) (resource : ResourceId) (request : RuleRequest)
    (answer : Except Error (Option NrptRule)) :
    (s.answered crates owner resource request answer registry).working request.key = some {
      Session.start crates s.registry owner resource request with rest := .done answer } :=
  Function.update_self ..

/-- A request on an idle key is carried out as its program runs. -/
lemma steps_of_runs {owner : List Char} {resource : ResourceId} {request : RuleRequest}
    {answer : Except Error (Option NrptRule)} (idle : s.working request.key = none)
    (hruns : (request.program crates owner resource).run.Runs (registryCalls crates.api) s.registry
      answer registry) :
    Relation.ReflTransGen (Step crates edits) s
      (s.answered crates owner resource request answer registry) := by
  have hidem (v w : Option Session) : Function.update (Function.update s.working request.key v)
      request.key w = Function.update s.working request.key w := Function.update_idem ..
  have hanswered : s.answered crates owner resource request answer registry = ⟨registry, _⟩ :=
    congrArg (Rules.mk registry) (hidem
      (some (Session.start crates s.registry owner resource request)) _).symm
  rw [hanswered]
  exact .head (.start s owner resource request idle) (steps_of_rest
    (Session.start crates s.registry owner resource request) (Function.update_self ..) hruns)

end Rules

/-! ## Every request is accounted for -/

/-- What a request has done to its key, and what it may still do. -/
structure Session.Sound (crates : Crates) (registry : Registry) (name : List Char)
    (session : Session) : Prop where
  key : session.request.key = name
  during : During crates session.owner session.request session.before (registry.keys name)
  rest : KeySat crates name (During crates session.owner session.request session.before)
    session.rest (Ended crates session.owner session.request session.before) registry

namespace Session.Sound

lemma start (roundTrips : crates.api.RoundTrips) (owner : List Char) (resource : ResourceId)
    (request : RuleRequest) :
    Session.Sound crates registry request.key
      (Session.start crates registry owner resource request) where
  key := rfl
  during := .refl _ _ _ _
  rest := request.sat roundTrips rfl

/-- The key of a request is left alone. -/
lemma undisturbed (h : session.Sound crates registry name)
    (hkey : registry'.keys name = registry.keys name) : session.Sound crates registry' name where
  key := h.key
  during := hkey ▸ h.during
  rest := h.rest.rely hkey

/-- A call of a request leaves the other keys alone. -/
lemma elsewhere (h : session.Sound crates registry name)
    {rest : Program RegistryRet (Except Error (Option NrptRule))}
    (hcall : Program.Step (registryCalls crates.api) session.rest registry rest registry')
    {other : List Char} (hne : other ≠ name) : registry'.keys other = registry.keys other :=
  h.rest.step_guarantee
    (P := fun u v : Registry => ∀ other, other ≠ name → v.keys other = u.keys other)
    (fun _ _ _ _ _ hkept => hkept.1) hcall other hne

lemma call (h : session.Sound crates registry name)
    {rest : Program RegistryRet (Except Error (Option NrptRule))}
    (hcall : Program.Step (registryCalls crates.api) session.rest registry rest registry') :
    Session.Sound crates registry' name { session with rest } where
  key := h.key
  during := h.rest.step_guarantee
    (P := fun _ v : Registry => During crates session.owner session.request session.before
      (v.keys name)) (fun _ _ _ _ _ hkept => hkept.2) hcall
  rest := h.rest.step hcall

/-- A request that has its answer. -/
lemma ended (h : session.Sound crates registry name)
    {answer : Except Error (Option NrptRule)} (hdone : session.rest = .done answer) :
    Ended crates session.owner session.request session.before answer (registry.keys name) := by
  have hrest := h.rest
  rw [hdone] at hrest
  exact hrest registry rfl

end Session.Sound

namespace Rules

/-- Every request is sound. -/
def Sound (crates : Crates) (s : Rules) : Prop :=
  ∀ name session, s.working name = some session → session.Sound crates s.registry name

/-- Who works on a key after a request began, went on or stopped at another one or at this one. -/
lemma working_update {working : List Char → Option Session} {new : Option Session}
    {other : List Char} (h : Function.update working name new other = some session) :
    (other = name ∧ new = some session) ∨ (other ≠ name ∧ working other = some session) := by
  by_cases hother : other = name
  · subst hother
    rw [Function.update_self] at h
    exact .inl ⟨rfl, h⟩
  · rw [Function.update_of_ne hother] at h
    exact .inr ⟨hother, h⟩

lemma Sound.step (roundTrips : crates.api.RoundTrips) (h : s.Sound crates)
    (hst : Step crates edits s t) : t.Sound crates := by
  intro other session hsession
  cases hst with
  | start owner resource request idle =>
      rcases working_update hsession with ⟨rfl, hnew⟩ | ⟨-, hold⟩
      · obtain rfl := Option.some.inj hnew
        exact .start roundTrips owner resource request
      · exact h other session hold
  | @call name worker registry rest hworker hcall =>
      rcases working_update hsession with ⟨rfl, hnew⟩ | ⟨hother, hold⟩
      · obtain rfl := Option.some.inj hnew
        exact (h _ worker hworker).call hcall
      · exact (h other session hold).undisturbed ((h name worker hworker).elsewhere hcall hother)
  | stop name =>
      rcases working_update hsession with ⟨-, hnew⟩ | ⟨-, hold⟩
      · exact absurd hnew (by simp)
      · exact h other session hold
  | other hedit idle => exact (h other session hsession).undisturbed (idle other session hsession)

lemma Reachable.sound (roundTrips : crates.api.RoundTrips) (h : Reachable crates edits s) :
    s.Sound crates := by
  induction h with
  | init hidle =>
      intro name session hsession
      rw [hidle name] at hsession
      exact absurd hsession (by simp)
  | step _ hst ih => exact ih.step roundTrips hst

/-- Whatever fails, dies or runs beside it, a request makes of its key only what it was asked for, at
any moment and at its end, where the answer says which.  A key without the marker of the owner is as
it was, and no other key is ever changed. -/
theorem requests_accounted (roundTrips : crates.api.RoundTrips) (h : Reachable crates edits s)
    (hs : s.working name = some session) :
    session.request.key = name ∧
    During crates session.owner session.request session.before (s.registry.keys name) ∧
    (∀ answer, session.rest = .done answer →
      Ended crates session.owner session.request session.before answer (s.registry.keys name)) ∧
    ∀ rest registry, Program.Step (registryCalls crates.api) session.rest s.registry rest registry →
      ∀ other, other ≠ name → registry.keys other = s.registry.keys other := by
  have hsound := h.sound roundTrips name session hs
  exact ⟨hsound.key, hsound.during, fun _ hdone => hsound.ended hdone,
    fun _ _ hcall _ hne => hsound.elsewhere hcall hne⟩

/-! ## Keys without a marker -/

/-- There is a key and no owner has a marker on it. -/
def Orphan (c : KeyCell) : Prop :=
  ∃ handle values, c = some (handle, values) ∧ ∀ owner, ¬ values.Marked owner

lemma Orphan.state {c : KeyCell} {owner : List Char} (h : Orphan c) :
    c.state crates owner name = .unowned := by
  obtain ⟨handle, values, rfl, hunmarked⟩ := h
  exact RegistryKey.state_of_unmarked (hunmarked owner)

/-- A request on a key without a marker can only be refused. -/
lemma Orphan.refused {c d : KeyCell} {owner : List Char} {request : RuleRequest}
    {answer : Except Error (Option NrptRule)} (h : Orphan c)
    (hended : Ended crates owner request c answer d) : ∃ e, answer = .error e := by
  have hstate := hended.state
  rw [hended.unowned h.state, h.state] at hstate
  cases hstate with
  | refused _ _ error => exact ⟨error, rfl⟩

/-- The cell is under the key, and whoever works on the key found it there. -/
def Abandoned (name : List Char) (c : KeyCell) (s : Rules) : Prop :=
  s.registry.keys name = c ∧ ∀ session, s.working name = some session → session.before = c

lemma Abandoned.step {c : KeyCell} (horphan : Orphan c) (hsound : t.Sound crates)
    (hedits : ∀ u v, edits u v → v.keys name = u.keys name) (h : Abandoned name c s)
    (hs : s.Sound crates) (hst : Step crates edits s t) : Abandoned name c t := by
  obtain ⟨hcell, hfound⟩ := h
  cases hst with
  | start owner resource request idle =>
      refine ⟨hcell, fun session hsession => ?_⟩
      rcases working_update hsession with ⟨rfl, hnew⟩ | ⟨-, hold⟩
      · obtain rfl := Option.some.inj hnew
        exact hcell
      · exact hfound session hold
  | @call other worker registry rest hworker hcall =>
      by_cases hname : name = other
      · subst hname
        have hbefore := hfound worker hworker
        have hnew : Function.update s.working name (some { worker with rest }) name =
            some { worker with rest } := Function.update_self ..
        have hkept := (hsound name _ hnew).during.unowned (hbefore ▸ horphan.state)
        refine ⟨hkept.trans hbefore, fun session hsession => ?_⟩
        obtain rfl := Option.some.inj (hnew.symm.trans hsession)
        exact hbefore
      · refine ⟨((hs other worker hworker).elsewhere hcall hname).trans hcell,
          fun session hsession => ?_⟩
        rcases working_update hsession with ⟨habs, -⟩ | ⟨-, hold⟩
        · exact absurd habs hname
        · exact hfound session hold
  | stop other =>
      refine ⟨hcell, fun session hsession => ?_⟩
      rcases working_update hsession with ⟨-, hnew⟩ | ⟨-, hold⟩
      · exact absurd hnew (by simp)
      · exact hfound session hold
  | other hedit idle => exact ⟨(hedits _ _ hedit).trans hcell, hfound⟩

/-- A key without a marker stays as it is. -/
lemma Orphan.kept (roundTrips : crates.api.RoundTrips)
    (hedits : ∀ u v, edits u v → v.keys name = u.keys name) (h : Reachable crates edits s)
    (idle : s.working name = none) (horphan : Orphan (s.registry.keys name))
    (hrun : Relation.ReflTransGen (Step crates edits) s t) :
    t.Sound crates ∧ Abandoned name (s.registry.keys name) t := by
  induction hrun with
  | refl =>
      refine ⟨h.sound roundTrips, rfl, fun session hsession => ?_⟩
      rw [idle] at hsession
      exact absurd hsession (by simp)
  | tail _ hst ih =>
      have hsound := ih.1.step roundTrips hst
      exact ⟨hsound, ih.2.step horphan hsound hedits ih.1 hst⟩

/-- A key that was created by a process that died before it had written the marker stays as it is,
whatever requests are made by whichever owner, and every request on it is refused: only another
program can delete it. -/
theorem orphan_stays (roundTrips : crates.api.RoundTrips)
    (hedits : ∀ u v, edits u v → v.keys name = u.keys name) (h : Reachable crates edits s)
    (idle : s.working name = none) (horphan : Orphan (s.registry.keys name))
    (hrun : Relation.ReflTransGen (Step crates edits) s t) :
    t.registry.keys name = s.registry.keys name ∧
      ∀ session answer, t.working name = some session → session.rest = .done answer →
        ∃ e, answer = .error e := by
  obtain ⟨hsound, hcell, hfound⟩ := horphan.kept roundTrips hedits h idle hrun
  refine ⟨hcell, fun session answer hsession hdone => ?_⟩
  have hended := (hsound name session hsession).ended hdone
  rw [hfound session hsession] at hended
  exact horphan.refused hended

/-! ## Keys that can be had -/

end Rules

/-! ## A rule that is left without a marker -/

/-- A key was created and nothing was written to it. -/
def unmarked : Registry := noKeys.put corpRule.key 0 .empty (by simp [noKeys])

lemma unmarked_keys : unmarked.keys corpRule.key = some (0, .empty) :=
  Registry.put_keys ..

/-- Nothing can be written to the key that was created, and it cannot be deleted. -/
lemma runs_unmarked : ∃ e, (RuleRequest.program corpCrates "io.test".toList corpResource
    (.write corpRule)).run.Runs (registryCalls corpCrates.api) noKeys (.error e) unmarked := by
  suffices h : ∃ e, (writeRule corpCrates corpRule "io.test".toList corpResource).run.Runs
      (registryCalls corpCrates.api) noKeys (.error e) unmarked by
    obtain ⟨e, h⟩ := h
    exact ⟨e, Fallible.runs_bind.mpr (.inr ⟨e, h, rfl⟩)⟩
  refine ⟨.transactionFailed (.platform .windowsIpHelper "NRPT set Comment")
    [.platform .windowsIpHelper s!"NtDeleteKey failed with NTSTATUS {hexadecimal (-1)}"], ?_⟩
  refine Fallible.runs_bind.mpr (.inl ⟨(), noKeys, ⟨validateRule_corpRule.symm, rfl⟩, ?_⟩)
  refine Fallible.runs_bind.mpr (.inl ⟨(), noKeys, ?_, ?_⟩)
  · refine Fallible.runs_bind.mpr (.inl ⟨none, noKeys, ?_, rfl, rfl⟩)
    exact Fallible.runs_value.mpr ⟨.error .notFound, noKeys,
      ⟨_, _, ⟨rfl, fun _ _ => rfl⟩, rfl, rfl⟩, rfl, rfl⟩
  refine Fallible.runs_bind.mpr (.inl ⟨(0, true), unmarked, ?_, ?_⟩)
  · refine Fallible.runs_bind.mpr (.inl ⟨(), noKeys, ⟨.ok (), noKeys, rfl, rfl, rfl⟩, ?_⟩)
    exact ⟨.ok (0, true), unmarked, .created 0 rfl _, rfl, rfl⟩
  refine Fallible.runs_value.mpr ⟨.error (.platform .windowsIpHelper "NRPT set Comment"), unmarked,
    ⟨_, _, .failed _, rfl, rfl⟩, ?_⟩
  exact Fallible.runs_value.mpr ⟨_, unmarked, ⟨(-1 : Int32), unmarked, .inr ⟨by decide, rfl⟩, rfl,
    rfl⟩, rfl, rfl⟩

/-- Whoever reads the key finds no marker. -/
lemma runs_read_unmarked : ∃ e, (RuleRequest.program corpCrates "io.test".toList corpResource
    (.read corpRule.key)).run.Runs (registryCalls corpCrates.api) unmarked (.error e) unmarked := by
  refine ⟨occupied corpCrates corpResource "<missing>".toList, ?_⟩
  refine Fallible.runs_bind.mpr (.inl ⟨some 0, unmarked, ?_, ?_⟩)
  · refine Fallible.runs_value.mpr ⟨.ok (), unmarked, ⟨_, _, ⟨rfl, by simp⟩, rfl, rfl⟩, ?_⟩
    refine Fallible.runs_value.mpr ⟨.ok 0, unmarked, ⟨_, _, ⟨rfl, fun handle h => ?_, by simp⟩, rfl,
      rfl⟩, rfl, rfl⟩
    obtain rfl := Except.ok.inj h
    exact ⟨.empty, unmarked_keys⟩
  · refine Fallible.runs_bind.mpr (.inr ⟨_, ?_, rfl⟩)
    exact Fallible.runs_value.mpr ⟨.error .notFound, unmarked,
      ⟨_, _, ⟨rfl, .inl ⟨corpRule.key, .empty, unmarked_keys, rfl⟩⟩, rfl, rfl⟩, rfl, rfl⟩

namespace Rules

def idle (registry : Registry) : Rules where
  registry := registry
  working := fun _ => none

lemma Reachable.steps (h : Reachable crates edits s)
    (hrun : Relation.ReflTransGen (Step crates edits) s t) : Reachable crates edits t := by
  induction hrun with
  | refl => exact h
  | tail _ hst ih => exact .step ih hst

/-- The rule could not be written. -/
def refused (e : Error) : Rules :=
  (idle noKeys).answered corpCrates "io.test".toList corpResource (.write corpRule) (.error e)
    unmarked

theorem requests_accounted_refused : ∃ e, Reachable corpCrates (fun _ _ => True) (refused e) ∧
    Ended corpCrates "io.test".toList (.write corpRule) none (.error e)
      ((refused e).registry.keys corpRule.key) := by
  obtain ⟨e, hruns⟩ := runs_unmarked
  have hreach : Reachable corpCrates (fun _ _ => True) (refused e) :=
    (Reachable.init fun _ => rfl).steps (steps_of_runs rfl hruns)
  exact ⟨e, hreach, (requests_accounted roundTrips_doubleNul hreach
    (answered_working "io.test".toList corpResource (.write corpRule) _)).2.2.1 _ rfl⟩

lemma orphan_unmarked : Orphan (unmarked.keys corpRule.key) :=
  ⟨0, .empty, unmarked_keys, fun owner h => by
    simp [RegistryKey.Marked, RegistryKey.getString, RegistryKey.empty] at h⟩

/-- A process that finds the key without a marker cannot read it and leaves it as it is. -/
theorem orphan_stays_read : ∃ e e' s, Reachable corpCrates (fun u v => v = u) (refused e) ∧
    Relation.ReflTransGen (Step corpCrates fun u v => v = u) (refused e) s ∧
    let t := s.answered corpCrates "io.test".toList corpResource (.read corpRule.key) (.error e')
      unmarked
    Relation.ReflTransGen (Step corpCrates fun u v => v = u) s t ∧
      t.registry.keys corpRule.key = s.registry.keys corpRule.key := by
  obtain ⟨e, hruns⟩ := runs_unmarked
  obtain ⟨e', hread⟩ := runs_read_unmarked
  have hreach : Reachable corpCrates (fun u v => v = u) (refused e) :=
    (Reachable.init fun _ => rfl).steps (steps_of_runs rfl hruns)
  let s : Rules :=
    { registry := unmarked, working := Function.update (refused e).working corpRule.key none }
  have hstop : Step corpCrates (fun u v => v = u) (refused e) s := .stop _ corpRule.key
  have hidle : s.working corpRule.key = none :=
    Function.update_self corpRule.key none (refused e).working
  have hsteps : Relation.ReflTransGen (Step corpCrates fun u v => v = u) s
      (s.answered corpCrates "io.test".toList corpResource (.read corpRule.key) (.error e')
        unmarked) := steps_of_runs hidle hread
  refine ⟨e, e', s, hreach, .single hstop, hsteps, ?_⟩
  exact (orphan_stays roundTrips_doubleNul (fun u v h => h ▸ rfl) (hreach.step hstop) hidle
    orphan_unmarked hsteps).1

end Rules

end Nrpt

end Osdns
