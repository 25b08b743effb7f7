import Osdns.System.Handles
import Osdns.Teardown.Records

/-!
# Ending a lease

`restore` and `abandon` tear the live records of the lease down and hand back what is left of it.
Whatever fails, the handle they hand back holds exactly the records whose step failed, with the
locks of their resources.
-/

namespace Osdns

open Interaction

variable {M : FakeManager} {lease : Lease} {state : LiveLease} {es : List WorldExchange}

/-- The teardown step of a request that ends a lease. -/
def Request.step (M : FakeManager) : Request → LiveRef → FakeManaged (Except Error Unit)
  | .abandon _ => abandonRecord
  | _ => fun ref => engine (restoreLiveState M.backend ref).run

/-- The phase of a lease after a failed request. -/
def Request.phase : Request → LeasePhase
  | .abandon _ => .abandoning
  | _ => .restoring

lemma Request.tearsDown (request : Request) : TearsDown (request.step M) := by
  cases request with
  | abandon => exact tearsDown_abandon
  | _ => exact tearsDown_restore M.backend

/-! ## The end of a teardown -/

/-- What is left to the caller after a teardown. -/
structure Handed (lease : Lease) (phase : LeasePhase) (left : Teardown)
    (result : Except (Error × Lease) Unit) : Prop where
  ended : left.error = none → result = .ok ()
  kept : ∀ error, left.error = some error →
    result = .error (error, { lease with state := some ⟨left.live, left.locks, phase⟩ })

lemma releaseEnforceWatch_calls {a : Unit}
    (h : (releaseEnforceWatch M : FakeManaged Unit).Transcript es (.done a)) :
    ∀ e ∈ es, e.op = .enforceRelease := by
  unfold releaseEnforceWatch at h
  split at h
  · obtain ⟨rfl, -⟩ := Program.Transcript.done_inv h
    simp
  · obtain ⟨answer, before, after, rest, rfl, hrest⟩ := Program.Transcript.call_inv h
    obtain ⟨rfl, -⟩ := Program.Transcript.done_inv hrest
    simp

/-- The handle of an ended or failed teardown; no lock is left to release when it ended. -/
lemma finish_calls {phase : LeasePhase} {left : Teardown} {answer : Except Error Unit × Lease}
    (hlocks : left.error = none → left.locks = [])
    (h : (match left.error with
      | none => do
          releaseAll left.locks
          return (.ok (), { lease with state := none })
      | some error => return (.error error,
          { lease with state := some ⟨left.live, left.locks, phase⟩ }) :
        FakeManaged (Except Error Unit × Lease)).Transcript es (.done answer)) :
    es = [] ∧ (left.error = none → answer.1 = .ok ()) ∧ ∀ error, left.error = some error →
      answer = (.error error, { lease with state := some ⟨left.live, left.locks, phase⟩ }) := by
  cases herror : left.error with
  | none =>
      rw [herror] at h
      dsimp only at h
      rw [hlocks herror] at h
      obtain ⟨rfl, rfl⟩ := Program.Transcript.done_inv h
      exact ⟨rfl, fun _ => rfl, fun _ h => absurd h (by simp)⟩
  | some error =>
      rw [herror] at h
      obtain ⟨rfl, rfl⟩ := Program.Transcript.done_inv h
      refine ⟨rfl, fun h => absurd h (by simp), fun _ h => ?_⟩
      obtain rfl := Option.some.inj h
      rfl

/-- Everything after the teardown of the records: at most the observation is given back. -/
lemma end_calls {phase : LeasePhase} {left : Teardown} {answer : Except Error Unit × Lease}
    (hlocks : left.error = none → left.locks = [])
    (h : (do
      if state.phase = .active then releaseEnforceWatch M
      match left.error with
      | none =>
          releaseAll left.locks
          return (.ok (), { lease with state := none })
      | some error => return (.error error,
          { lease with state := some ⟨left.live, left.locks, phase⟩ }) :
        FakeManaged (Except Error Unit × Lease)).Transcript es (.done answer)) :
    (∀ e ∈ es, e.op = .enforceRelease) ∧ (left.error = none → answer.1 = .ok ()) ∧
      ∀ error, left.error = some error →
        answer = (.error error, { lease with state := some ⟨left.live, left.locks, phase⟩ }) := by
  dsimp only at h
  split at h
  · obtain ⟨_, first, rest, rfl, hfirst, hrest⟩ := Program.Transcript.bind_inv h
    obtain ⟨rfl, hanswer⟩ := finish_calls hlocks hrest
    rw [List.append_nil]
    exact ⟨releaseEnforceWatch_calls hfirst, hanswer⟩
  · obtain ⟨rfl, hanswer⟩ := finish_calls hlocks h
    exact ⟨by simp, hanswer⟩

/-! ## Restore and abandon -/

/-- No lock is left when no step failed. -/
lemma Torn.unlocked {step : LiveRef → FakeManaged (Except Error Unit)} {left : Teardown}
    {outcomes : ResourceId → Except Error Unit} (h : Torn step state.live state.locks es outcomes left)
    (hwf : state.Wf lease.leaseId lease.resources) (hclean : left.error = none) :
    left.locks = [] := by
  rw [h.locked, List.filter_eq_nil_iff]
  intro r hr
  have hmem := (hwf.locked r).mp hr
  obtain ⟨ref, href, rfl⟩ := List.mem_map.mp hmem
  simp [h.clean hclean ref href, hmem]

/-- How a request that ends a lease goes: a teardown of its live records, and the observation is
given back. -/
structure EndedBy (M : FakeManager) (request : Request) (lease : Lease) (state : LiveLease)
    (es : List WorldExchange) (outcomes : ResourceId → Except Error Unit)
    (result : Except (Error × Lease) Unit) : Prop where
  torn : ∃ records rest left, es = records ++ rest ∧
    Torn (request.step M) state.live state.locks records outcomes left ∧
    (∀ e ∈ rest, e.op = .enforceRelease) ∧ Handed lease request.phase left result

lemma teardown_ended (request : Request) {answer : Except Error Unit × Lease}
    (hwf : state.Wf lease.leaseId lease.resources) (hnamed : ∀ e ∈ es, ManagerNamed e.op e.answer)
    (h : (do
      let left ← teardown (request.step M) state.live state.locks
      if state.phase = .active then releaseEnforceWatch M
      match left.error with
      | none =>
          releaseAll left.locks
          return (.ok (), { lease with state := none })
      | some error => return (.error error,
          { lease with state := some ⟨left.live, left.locks, request.phase⟩ }) :
        FakeManaged (Except Error Unit × Lease)).Transcript es (.done answer)) :
    ∃ outcomes, EndedBy M request lease state es outcomes
      (answer.1.mapError fun error => (error, answer.2)) := by
  obtain ⟨left, records, rest, rfl, hrecords, hrest⟩ := Program.Transcript.bind_inv h
  obtain ⟨outcomes, torn⟩ := teardown_torn request.tearsDown hwf.distinct
    (fun e he => hnamed e (List.mem_append_left _ he)) hrecords
  obtain ⟨hcalls, hended, hkept⟩ := end_calls (torn.unlocked hwf) hrest
  refine ⟨outcomes, ⟨records, rest, left, rfl, torn, hcalls, fun hnone => ?_, fun error hsome => ?_⟩⟩
  · rw [hended hnone]
    rfl
  · rw [hkept error hsome]
    rfl

/-- The outcome of a request that ends a lease hands back what its operation handed back. -/
lemma ended_inv {p : FakeManaged (Except Error Unit × Lease)} {outcome : Outcome}
    (h : ((do
      match ← p with
      | (.ok _, _) => return .ok ()
      | (.error error, lease) => return .error (error, lease) :
        FakeManaged (Except (Error × Lease) Unit)).bind fun result =>
          .done (.ended result)).Transcript es (.done outcome)) :
    ∃ answer, p.Transcript es (.done answer) ∧
      outcome = .ended (answer.1.mapError fun error => (error, answer.2)) := by
  obtain ⟨result, first, rest, rfl, hfirst, hrest⟩ := Program.Transcript.bind_inv h
  obtain ⟨rfl, rfl⟩ := Program.Transcript.done_inv hrest
  obtain ⟨answer, inner, last, rfl, hinner, hlast⟩ := Program.Transcript.bind_inv hfirst
  have hanswer : last = [] ∧ result = answer.1.mapError fun error => (error, answer.2) := by
    match answer with
    | (.ok _, _) => exact Program.Transcript.done_inv hlast
    | (.error error, _) => exact Program.Transcript.done_inv hlast
  obtain ⟨rfl, rfl⟩ := hanswer
  simp only [List.append_nil]
  exact ⟨answer, hinner, rfl⟩

/-- Every transcript of a restore or abandonment that returned. -/
lemma Request.ended_calls {request : Request} {id : LeaseId} {outcome : Outcome}
    (hreq : request = .restore id ∨ request = .abandon id) (hwf : lease.Wf)
    (hstate : lease.state = some state) (hnamed : ∀ e ∈ es, ManagerNamed e.op e.answer)
    (h : (request.onLease M lease).Transcript es (.done outcome)) :
    ∃ result outcomes, outcome = .ended result ∧
      EndedBy M request lease state es outcomes result := by
  have hs := hwf state hstate
  rcases hreq with rfl | rfl
  · obtain ⟨answer, hcalls, rfl⟩ := ended_inv (p := lease.restoreState M) h
    unfold Lease.restoreState at hcalls
    rw [hstate] at hcalls
    obtain ⟨outcomes, hended⟩ := teardown_ended (.restore id) hs hnamed hcalls
    exact ⟨_, outcomes, rfl, hended⟩
  · obtain ⟨answer, hcalls, rfl⟩ := ended_inv (p := lease.abandonState M) h
    unfold Lease.abandonState at hcalls
    rw [hstate] at hcalls
    obtain ⟨outcomes, hended⟩ := teardown_ended (.abandon id) hs hnamed hcalls
    exact ⟨_, outcomes, rfl, hended⟩

end Osdns
