import Osdns.Provenance.Names
import Osdns.Framework.Transcripts

/-!
# Runs with their calls

A run of the system with the list of all calls made in it, each with its session.  The calls of one
session are a transcript of its program, whatever the other sessions do in between.
-/

namespace Osdns

open Interaction

/-- A call of a manager with the worlds before and after. -/
abbrev WorldExchange := Exchange (ManagerRet FakeSnapshotData FakeIdentity) World

namespace System

variable {S : Setup} {s t u : System} {i : SessionId}
variable {entry : SessionId × WorldExchange} {log : List (SessionId × WorldExchange)}

/-- A step in which a session performs a call. -/
inductive Calls (S : Setup) : System → SessionId × WorldExchange → System → Prop
  | mk (s : System) (i : SessionId) (session : Session)
      (o : ManagerOp FakeSnapshotData FakeIdentity)
      (k : ManagerRet FakeSnapshotData FakeIdentity o → FakeManaged Outcome)
      (answer : ManagerRet FakeSnapshotData FakeIdentity o) (w : World)
      (running : s.sessions i = some session) (program : session.program = .call o k)
      (claimed : ∀ r, o.target = some r → session.claims r)
      (answered : World.handler S.faults i session.manager o s.world answer w) :
      Calls S s (i, ⟨o, answer, s.world, w⟩) { s with
        world := w
        sessions := Function.update s.sessions i (some { session with program := k answer }) }

lemma Calls.step (h : Calls S s entry t) : Step S s t := by
  cases h with
  | mk i session o k answer w running program claimed answered =>
      exact .call s i session o k answer w running program claimed answered

/-- A step that is no call. -/
structure Quiet (S : Setup) (s t : System) : Prop where
  step : Step S s t
  silent : ∀ entry, ¬ Calls S s entry t

/-- A run and the calls made in it, in order. -/
inductive Run (S : Setup) : System → List (SessionId × WorldExchange) → System → Prop
  | refl (s : System) : Run S s [] s
  | call {s t u : System} {log : List (SessionId × WorldExchange)}
      {entry : SessionId × WorldExchange} (h : Run S s log t) (hc : Calls S t entry u) :
      Run S s (log ++ [entry]) u
  | quiet {s t u : System} {log : List (SessionId × WorldExchange)} (h : Run S s log t)
      (hq : Quiet S t u) : Run S s log u

/-- A quiet step does nothing to a session that runs on. -/
lemma Quiet.session (h : Quiet S s t) {session : Session} (hi : i < s.next)
    (running : t.sessions i = some session) : s.sessions i = some session := by
  obtain ⟨hst, silent⟩ := h
  cases hst with
  | start | startOn =>
      refine ((update_eq_some running).resolve_left fun hnew => ?_).2
      exact absurd hnew.1 hi.ne
  | call j a o k answer w hj program claimed answered =>
      exact absurd (.mk s j a o k answer w hj program claimed answered) (silent _)
  | finish j a outcome hj program =>
      exact ((update_eq_some running).resolve_left fun hnew => absurd hnew.2 (by simp)).2
  | environment => exact running
  | crash => exact (Option.filter_eq_some_iff.mp running).1

lemma Step.next_le (h : Step S s t) : s.next ≤ t.next := by
  cases h with
  | start | startOn => exact Nat.le_succ _
  | call | finish | environment | crash => exact le_rfl

namespace Run

/-- Every run has a log. -/
lemma of_steps (h : Relation.ReflTransGen (Step S) s t) : ∃ log, Run S s log t := by
  induction h with
  | refl => exact ⟨[], .refl s⟩
  | @tail t u _ hst ih =>
      obtain ⟨log, hrun⟩ := ih
      by_cases hcall : ∃ entry, Calls S t entry u
      · obtain ⟨entry, hc⟩ := hcall
        exact ⟨_, hrun.call hc⟩
      · exact ⟨log, hrun.quiet ⟨hst, fun entry hc => hcall ⟨entry, hc⟩⟩⟩

lemma reachable (hs : Reachable S s) (h : Run S s log t) : Reachable S t := by
  induction h with
  | refl => exact hs
  | call _ hc ih => exact .step ih hc.step
  | quiet _ hq ih => exact .step ih hq.step

/-! ## Calls -/

/-- Every call was answered by the world, and its answer names what it is about. -/
lemma handled (hs : Reachable S s) (h : Run S s log t) : ∀ entry ∈ log,
    (∃ m, World.handler S.faults entry.1 m entry.2.op entry.2.before entry.2.answer entry.2.after) ∧
      ManagerNamed entry.2.op entry.2.answer := by
  induction h with
  | refl => exact fun entry he => absurd he (by simp)
  | quiet _ _ ih => exact ih
  | call h hc ih =>
      intro entry he
      rcases List.mem_append.mp he with he | he
      · exact ih entry he
      · obtain rfl := List.mem_singleton.mp he
        cases hc with
        | mk i session o k answer w running program claimed answered =>
            exact ⟨⟨_, answered⟩, managerNamed_of_reachable (h.reachable hs) answered⟩

/-- What holds after a call still holds at the end, unless some call in between may end it. -/
lemma kept {P : World → Prop} {Ends : SessionId × WorldExchange → Prop}
    (hquiet : ∀ {t u}, Quiet S t u → P t.world → P u.world)
    (hcall : ∀ {t entry u}, Calls S t entry u → P t.world → P u.world ∨ Ends entry)
    {first rest : List (SessionId × WorldExchange)} (h : Run S s log t)
    (hlog : log = first ++ entry :: rest) (hP : P entry.2.after) :
    P t.world ∨ ∃ other ∈ rest, Ends other := by
  induction h generalizing rest with
  | refl => exact absurd hlog (by simp)
  | quiet _ hq ih => exact (ih hlog).imp_left (hquiet hq)
  | @call t u log last h hc ih =>
      rcases List.eq_nil_or_concat rest with rfl | ⟨init, final, rfl⟩
      · obtain ⟨-, hlast⟩ := List.append_inj' hlog rfl
        obtain rfl := List.singleton_injective hlast
        left
        cases hc with
        | mk => exact hP
      · have hsplit : log = first ++ entry :: init ∧ [last] = [final] := by
          refine List.append_inj' ?_ rfl
          rw [hlog]
          simp
        obtain rfl := List.singleton_injective hsplit.2
        rcases ih hsplit.1 with hkept | ⟨other, hmem, hends⟩
        · rcases hcall hc hkept with hkept | hends
          · exact .inl hkept
          · exact .inr ⟨last, by simp, hends⟩
        · exact .inr ⟨other, by simp [hmem], hends⟩

/-! ## One session -/

/-- The calls of session `i`. -/
def own (i : SessionId) (log : List (SessionId × WorldExchange)) : List WorldExchange :=
  log.filterMap fun entry => if entry.1 = i then some entry.2 else none

lemma own_append {first rest : List (SessionId × WorldExchange)} :
    own i (first ++ rest) = own i first ++ own i rest := List.filterMap_append ..

lemma own_self {e : WorldExchange} : own i [(i, e)] = [e] := by simp [own]

lemma own_other {j : SessionId} {e : WorldExchange} (h : j ≠ i) : own i [(j, e)] = [] := by
  simp [own, h]

lemma mem_own {e : WorldExchange} : e ∈ own i log ↔ (i, e) ∈ log := by
  rw [own, List.mem_filterMap]
  constructor
  · rintro ⟨⟨j, x⟩, hmem, hx⟩
    dsimp only at hx
    split at hx
    · rename_i hj
      subst hj
      obtain rfl := Option.some.inj hx
      exact hmem
    · exact absurd hx (by simp)
  · intro h
    exact ⟨(i, e), h, if_pos rfl⟩

/-- A call of the session in the run. -/
lemma own_eq_append {first rest : List WorldExchange} {e : WorldExchange}
    (h : own i log = first ++ e :: rest) : ∃ before after, log = before ++ (i, e) :: after ∧
      own i before = first ∧ own i after = rest := by
  obtain ⟨before, tail, rfl, hbefore, htail⟩ := List.filterMap_eq_append_iff.mp h
  obtain ⟨others, ⟨j, x⟩, after, rfl, hothers, hx, hafter⟩ := List.filterMap_eq_cons_iff.mp htail
  dsimp only at hx
  split at hx
  · rename_i hj
    subst hj
    obtain rfl := Option.some.inj hx
    refine ⟨before ++ others, after, by simp, ?_, hafter⟩
    have hnone : own j others = [] := List.filterMap_eq_nil_iff.mpr hothers
    rw [own_append, hnone, List.append_nil]
    exact hbefore
  · exact absurd hx (by simp)

lemma next_le (h : Run S s log t) : s.next ≤ t.next := by
  induction h with
  | refl => exact le_rfl
  | call _ hc ih => exact ih.trans hc.step.next_le
  | quiet _ hq ih => exact ih.trans hq.step.next_le

/-- The calls of a session that is still running are a transcript of its program, and the session
still works on its handle. -/
lemma transcript {session session' : Session} (h : Run S s log t) (hi : i < s.next)
    (running : s.sessions i = some session) (running' : t.sessions i = some session') :
    session.program.Transcript (own i log) session'.program ∧ session'.handle = session.handle := by
  induction h generalizing session' with
  | refl =>
      obtain rfl := Option.some.inj (running.symm.trans running')
      exact ⟨.refl _, rfl⟩
  | quiet h hq ih => exact ih (hq.session (hi.trans_le h.next_le) running')
  | call h hc ih =>
      rw [own_append]
      cases hc with
      | mk j a o k answer w hj program claimed answered =>
          obtain ⟨rfl, ha⟩ | ⟨hne, hold⟩ := update_eq_some running'
          · obtain rfl := Option.some.inj ha
            obtain ⟨hpast, hhandle⟩ := ih hj
            rw [program] at hpast
            rw [own_self]
            exact ⟨hpast.snoc answer _ w, hhandle⟩
          · rw [own_other (Ne.symm hne), List.append_nil]
            exact ih hold

end Run

end System

end Osdns
