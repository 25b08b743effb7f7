import Mathlib.Logic.Relation
import Osdns.System.Keys

/-!
# Computed runs

Runs of the system as lists of moves.  `System.perform` computes the state after a move, and every
state so computed is reachable, so a run with particular interleavings and faults can be exhibited
by evaluation.  With `performAll` calls fail as the moves say and sessions interleave freely; with
`performOrderly` calls proceed and operations run one at a time, which every setup allows.
-/

namespace Osdns

open Interaction

/-- A move of a computed run. -/
inductive Move
  /-- Starts a request that needs no handle. -/
  | start (m : ManagerId) (request : Request)
  /-- Starts a request on an idle lease. -/
  | startOn (m : ManagerId) (request : Request)
  /-- Session `i` performs calls, with the given fates. -/
  | calls (i : SessionId) (fates : List Fate)
  | finish (i : SessionId)
  /-- An external program writes the native state of a resource. -/
  | write (r : ResourceId) (state : FakeState)
  /-- A native watch reports a change of a resource. -/
  | notify (m : ManagerId) (r : ResourceId)
  | tick (duration : Duration)
  | crash (m : ManagerId)

/-- Session `i` performs `n` calls that proceed. -/
def Move.run (i : SessionId) (n : Nat) : Move := .calls i (List.replicate n .proceed)

/-- Whether a move starts a session. -/
def Move.starts : Move → Bool
  | .start _ _ => true
  | .startOn _ _ => true
  | _ => false

/-- Whether a move is one step. -/
def Move.single : Move → Bool
  | .calls _ fates => fates.length == 1
  | _ => true

/-- A move call by call. -/
def Move.singles : Move → List Move
  | .calls i fates => fates.map fun fate => .calls i [fate]
  | move => [move]

namespace System

/-- The resources a session may call on, where they are listed. -/
def mayCall (session : Session) (r : ResourceId) : Bool :=
  session.handle.all fun lease => decide (r ∈ lease.resources)

/-- One call of session `i`. -/
def performCall (s : System) (i : SessionId) (fate : Fate) : Option System :=
  match s.sessions i with
  | none => none
  | some session =>
  match session.program with
  | .done _ => none
  | .call o k =>
      if o.target.all (mayCall session) then
        match s.world.exec i session.manager fate o with
        | none => none
        | some (answer, w) => some { s with
            world := w
            sessions := Function.update s.sessions i (some { session with program := k answer }) }
      else none

/-- Calls of session `i`, in order. -/
def performCalls (s : System) (i : SessionId) : List Fate → Option System
  | [] => some s
  | fate :: fates => (s.performCall i fate).bind fun t => t.performCalls i fates

/-- The state after a move, if the move is possible. -/
def perform (S : Setup) (s : System) : Move → Option System
  | .start m request =>
      match request, request.lease with
      | _, some _ => none
      | .reconcile r, none =>
          if S.policy m = .enforce then
            some (s.spawn ⟨m, .reconcile r, none, fun _ => True,
              Request.alone (S.manager m) (.reconcile r)⟩)
          else none
      | request, none =>
          some (s.spawn ⟨m, request, none, fun _ => True, request.alone (S.manager m)⟩)
  | .startOn m request =>
      match request.lease with
      | none => none
      | some id =>
          match s.leases id with
          | none => none
          | some (owner, lease) =>
              if owner = m then
                some ({ s with leases := Function.update s.leases id none }.spawn
                  ⟨m, request, some lease, (· ∈ lease.resources),
                    request.onLease (S.manager m) lease⟩)
              else none
  | .calls i fates => s.performCalls i fates
  | .finish i =>
      match s.sessions i with
      | none => none
      | some session =>
          match session.program with
          | .call _ _ => none
          | .done outcome => some (s.finish i session.manager outcome)
  | .write r state =>
      let c := s.world.cells r
      some { s with world := s.world.setCell r { c with
        state := some state
        generation := c.generation + 1
        incarnation := if c.state.isNone then c.incarnation + 1 else c.incarnation
        writer := .external
        log := .external (some ⟨state, c.generation + 1⟩) :: c.log } }
  | .notify m r => some { s with world := s.world.setCell r { s.world.cells r with
      pending := Function.update (s.world.cells r).pending m
        (some (.touch s.world.clock ((s.world.cells r).pending m))) } }
  | .tick duration => some { s with world := { s.world with clock := s.world.clock + duration } }
  | .crash m => some { s with
      world := s.world.crash m
      sessions := fun i => (s.sessions i).filter fun session => session.manager ≠ m
      leases := fun l => (s.leases l).filter fun entry => entry.1 ≠ m }

/-- The state after some moves. -/
def performAll (S : Setup) (s : System) : List Move → Option System
  | [] => some s
  | move :: moves => (s.perform S move).bind fun t => t.performAll S moves

/-- Whether no session runs. -/
def atRest (s : System) : Bool := (List.range s.next).all fun i => (s.sessions i).isNone

/-- Whether a move keeps operations apart and calls from failing. -/
def orderly (s : System) : Move → Bool
  | .start _ _ => s.atRest
  | .startOn _ _ => s.atRest
  | .calls _ fates => fates.all (· = .proceed)
  | _ => true

/-- The state after some orderly moves. -/
def performOrderly (S : Setup) (s : System) : List Move → Option System
  | [] => some s
  | move :: moves =>
      if s.orderly move then (s.perform S move).bind fun t => t.performOrderly S moves else none

/-- Managers with one policy, where every call may fail and sessions interleave freely. -/
def unrestricted (policy : ConflictPolicy) : Setup where
  owner _ := "io.example.agent"
  capabilities _ := .full .fake
  policy _ := policy
  faults _ := True
  serial := False

/-- Managers with one policy, where operations on one resource run one at a time and every call may
fail but the hook between the two halves of an update. -/
def oneAtATime (policy : ConflictPolicy) : Setup where
  owner _ := "io.example.agent"
  capabilities _ := .full .fake
  policy _ := policy
  faults o := o ≠ .engine (.fire .afterUpdatePrepared)
  serial := True

lemma oneAtATime_hook (policy : ConflictPolicy) :
    ¬ (oneAtATime policy).faults (.engine (.fire .afterUpdatePrepared)) := fun h => h rfl

/-- The system before anything happened, over the given world. -/
def pristine (w : World) : System where
  world := w
  sessions _ := none
  leases _ := none
  next := 0

/-! ## Computed states are reachable -/

/-- A reachable state in which sessions claim what `mayCall` says. -/
structure Computed (S : Setup) (s : System) : Prop where
  reachable : Reachable S s
  claims : ∀ i session, s.sessions i = some session → ∀ r, mayCall session r = true → session.claims r

section Sound

variable {S : Setup} {s t : System}

/-- The setup allows a move: its calls may go as they do, and what it starts is free to start. -/
structure Allows (S : Setup) (s : System) (move : Move) : Prop where
  fates : ∀ i fates, move = .calls i fates → ∀ fate ∈ fates, fate = .proceed ∨ ∀ o, S.faults o
  free : move.starts = true → ∀ claims, s.Free S claims

lemma Computed.spawn {u : System} {session : Session} (h : Computed S s)
    (hu : u.sessions = s.sessions) (hst : Step S s (u.spawn session))
    (hclaims : ∀ r, mayCall session r = true → session.claims r) :
    Step S s (u.spawn session) ∧ ∀ j a, (u.spawn session).sessions j = some a →
      ∀ r, mayCall a r = true → a.claims r := by
  refine ⟨hst, fun i a hi => ?_⟩
  obtain ⟨rfl, ha⟩ | ⟨-, hi⟩ := update_eq_some hi
  · obtain rfl := Option.some.inj ha
    exact hclaims
  · exact h.claims i a (hu ▸ hi)

/-- A computed call is a step, and sessions keep claiming what `mayCall` says. -/
lemma Computed.call_step {i : SessionId} {fate : Fate}
    (hfate : fate = .proceed ∨ ∀ o, S.faults o) (h : Computed S s) (hst : s.performCall i fate = some t) :
    Step S s t ∧ ∀ j a, t.sessions j = some a → ∀ r, mayCall a r = true → a.claims r := by
  unfold performCall at hst
  cases hi : s.sessions i with
  | none => simp [hi] at hst
  | some session =>
      simp only [hi] at hst
      cases hp : session.program with
      | done outcome => simp [hp] at hst
      | call o k =>
          simp only [hp] at hst
          split at hst
          · rename_i hmay
            cases hexec : s.world.exec i session.manager fate o with
            | none => simp [hexec] at hst
            | some result =>
                simp only [hexec, Option.some.injEq] at hst
                subst hst
                refine ⟨.call s i session o k result.1 result.2 hi hp
                  (fun r hr => h.claims i session hi r ?_) ⟨fate, hfate.imp_right fun hf => hf o, hexec⟩,
                  fun j a hj => ?_⟩
                · simpa [hr] using hmay
                · obtain ⟨rfl, ha⟩ | ⟨-, hj⟩ := update_eq_some hj
                  · obtain rfl := Option.some.inj ha
                    exact h.claims j session hi
                  · exact h.claims j a hj
          · exact absurd hst (by simp)

lemma Computed.call {i : SessionId} {fate : Fate} (hfate : fate = .proceed ∨ ∀ o, S.faults o)
    (h : Computed S s) (hst : s.performCall i fate = some t) : Computed S t :=
  ⟨.step h.reachable (h.call_step hfate hst).1, (h.call_step hfate hst).2⟩

/-- Computed calls are steps. -/
lemma Computed.calls_steps {i : SessionId} {fates : List Fate}
    (hfates : ∀ fate ∈ fates, fate = .proceed ∨ ∀ o, S.faults o) (h : Computed S s)
    (hst : s.performCalls i fates = some t) :
    Relation.ReflTransGen (Step S) s t := by
  induction fates generalizing s with
  | nil => exact Option.some.inj hst ▸ .refl
  | cons fate fates ih =>
      obtain ⟨u, hu, hrest⟩ := Option.bind_eq_some_iff.mp hst
      have hfate := hfates fate (List.mem_cons_self ..)
      exact .head (h.call_step hfate hu).1
        (ih (fun x hx => hfates x (List.mem_cons_of_mem _ hx)) (h.call hfate hu) hrest)

lemma Computed.calls {i : SessionId} {fates : List Fate}
    (hfates : ∀ fate ∈ fates, fate = .proceed ∨ ∀ o, S.faults o) (h : Computed S s)
    (hst : s.performCalls i fates = some t) : Computed S t := by
  induction fates generalizing s with
  | nil => exact Option.some.inj hst ▸ h
  | cons fate fates ih =>
      obtain ⟨u, hu, hrest⟩ := Option.bind_eq_some_iff.mp hst
      exact ih (fun x hx => hfates x (List.mem_cons_of_mem _ hx))
        (h.call (hfates fate (List.mem_cons_self ..)) hu) hrest

/-- A single move is a step, and sessions keep claiming what `mayCall` says. -/
lemma Computed.step {move : Move} (hsingle : move.single = true) (hmove : Allows S s move)
    (h : Computed S s) (hst : s.perform S move = some t) :
    Step S s t ∧ ∀ j a, t.sessions j = some a → ∀ r, mayCall a r = true → a.claims r := by
  cases move with
  | start m request =>
      have hdone : request.lease = none → (∀ r, request = .reconcile r → S.policy m = .enforce) →
          t = s.spawn ⟨m, request, none, fun _ => True, request.alone (S.manager m)⟩ →
          Step S s t ∧ ∀ j a, t.sessions j = some a → ∀ r, mayCall a r = true → a.claims r := by
        rintro halone henf rfl
        exact h.spawn rfl (.start s m request _ halone henf (hmove.free rfl _)) fun _ _ => trivial
      cases request with
      | reconcile r =>
          simp only [System.perform, Request.lease] at hst
          split at hst
          · rename_i henf
            exact hdone rfl (fun _ _ => henf) (Option.some.inj hst).symm
          · exact absurd hst (by simp)
      | apply config => exact hdone rfl (fun _ h => absurd h (by simp)) (Option.some.inj hst).symm
      | recoverStale => exact hdone rfl (fun _ h => absurd h (by simp)) (Option.some.inj hst).symm
      | abandonJournal r =>
          exact hdone rfl (fun _ h => absurd h (by simp)) (Option.some.inj hst).symm
      | update | restore | abandon | drop => exact absurd hst (by simp [System.perform, Request.lease])
  | startOn m request =>
      cases hreq : request.lease with
      | none => simp [System.perform, hreq] at hst
      | some id =>
          cases hidle : s.leases id with
          | none => simp [System.perform, hreq, hidle] at hst
          | some entry =>
              obtain ⟨owner, lease⟩ := entry
              simp only [System.perform, hreq, hidle] at hst
              split at hst
              · rename_i howner
                subst howner
                obtain rfl := Option.some.inj hst
                refine h.spawn rfl (.startOn s owner request lease id hreq hidle
                  (hmove.free rfl _)) fun r hr => ?_
                simpa [mayCall] using hr
              · exact absurd hst (by simp)
  | calls i fates =>
      match fates, hsingle with
      | [fate], _ =>
          obtain ⟨u, hu, hrest⟩ := Option.bind_eq_some_iff.mp hst
          obtain rfl := Option.some.inj hrest
          exact h.call_step (hmove.fates i [fate] rfl fate List.mem_cons_self) hu
  | finish i =>
      cases hi : s.sessions i with
      | none => simp [System.perform, hi] at hst
      | some session =>
          cases hp : session.program with
          | call o k => simp [System.perform, hi, hp] at hst
          | done outcome =>
              simp only [System.perform, hi, hp, Option.some.injEq] at hst
              subst hst
              refine ⟨.finish s i session outcome hi hp, fun j a hj => ?_⟩
              obtain ⟨-, ha⟩ | ⟨-, hj⟩ := update_eq_some hj
              · exact absurd ha (by simp)
              · exact h.claims j a hj
  | write r state =>
      obtain rfl := Option.some.inj hst
      exact ⟨.environment s _ (.external _ r _ (.write _ state)), h.claims⟩
  | notify m r =>
      obtain rfl := Option.some.inj hst
      exact ⟨.environment s _ (.notify _ m r), h.claims⟩
  | tick duration =>
      obtain rfl := Option.some.inj hst
      exact ⟨.environment s _ (.tick _ duration), h.claims⟩
  | crash m =>
      obtain rfl := Option.some.inj hst
      refine ⟨.crash s m, fun i a hi => ?_⟩
      exact h.claims i a (Option.filter_eq_some_iff.mp hi).1

lemma Computed.perform {move : Move} (hmove : Allows S s move) (h : Computed S s)
    (hst : s.perform S move = some t) : Computed S t := by
  cases move with
  | calls i fates => exact h.calls (hmove.fates i fates rfl) hst
  | start | startOn | finish | write | notify | tick | crash =>
      obtain ⟨hstep, hclaims⟩ := h.step rfl hmove hst
      exact ⟨.step h.reachable hstep, hclaims⟩

lemma Computed.all (hfaults : ∀ o, S.faults o) (hserial : ¬ S.serial) {moves : List Move}
    (h : Computed S s) (hst : s.performAll S moves = some t) : Computed S t := by
  induction moves generalizing s with
  | nil => exact Option.some.inj hst ▸ h
  | cons move moves ih =>
      obtain ⟨u, hu, hrest⟩ := Option.bind_eq_some_iff.mp hst
      have hmove : Allows S s move :=
        ⟨fun _ _ _ _ _ => .inr hfaults, fun _ _ hs => absurd hs hserial⟩
      exact ih (h.perform hmove hu) hrest

/-- A reachable system at rest has no session. -/
lemma Reachable.sessions_none (h : Reachable S s) (hr : s.atRest = true) (i : SessionId) :
    s.sessions i = none := by
  cases hi : s.sessions i with
  | none => rfl
  | some session =>
      have hnext := ((Keyed.reachable h).started i session hi).1
      have hnone := List.all_eq_true.mp hr i (List.mem_range.mpr hnext)
      rw [hi] at hnone
      exact absurd hnone (by simp)

/-- Orderly moves are allowed by every setup. -/
lemma Computed.allows {move : Move} (h : Computed S s) (ho : s.orderly move = true) :
    Allows S s move := by
  have hrest : s.atRest = true → ∀ claims, s.Free S claims := fun hr claims _ i session hi =>
    absurd hi (by simp [h.reachable.sessions_none hr i])
  cases move with
  | start | startOn => exact ⟨fun _ _ he => absurd he (by simp), fun _ => hrest ho⟩
  | calls i fates =>
      refine ⟨fun _ _ he fate hf => .inl ?_, fun hs => absurd hs (by simp [Move.starts])⟩
      obtain ⟨-, rfl⟩ := Move.calls.inj he
      exact of_decide_eq_true (List.all_eq_true.mp ho fate hf)
  | _ => exact ⟨fun _ _ he => absurd he (by simp), fun hs => absurd hs (by simp [Move.starts])⟩

lemma Computed.all_orderly {moves : List Move} (h : Computed S s)
    (hst : s.performOrderly S moves = some t) : Computed S t := by
  induction moves generalizing s with
  | nil => exact Option.some.inj hst ▸ h
  | cons move moves ih =>
      unfold performOrderly at hst
      split at hst
      · rename_i ho
        obtain ⟨u, hu, hrest⟩ := Option.bind_eq_some_iff.mp hst
        exact ih (h.perform (h.allows ho) hu) hrest
      · exact absurd hst (by simp)

end Sound

lemma initial_pristine (topology : Topology) (native : FakeState) :
    Initial (pristine (World.pristine topology native)) :=
  ⟨fun _ => rfl, fun _ => rfl, rfl, fun _ _ => rfl, fun _ => rfl, fun _ => rfl,
    fun _ => ⟨some native, 0, 0, false, rfl⟩⟩

lemma computed_pristine {S : Setup} (topology : Topology) (native : FakeState) :
    Computed S (pristine (World.pristine topology native)) :=
  ⟨.init (initial_pristine topology native), fun _ _ hi => absurd hi (by simp [pristine])⟩

lemma computed_performAll {S : Setup} (hfaults : ∀ o, S.faults o) (hserial : ¬ S.serial)
    {topology : Topology} {native : FakeState} {moves : List Move} {t : System}
    (h : (pristine (World.pristine topology native)).performAll S moves = some t) :
    Computed S t :=
  (computed_pristine topology native).all hfaults hserial h

/-- A state computed from a pristine world is reachable. -/
theorem reachable_performAll {S : Setup} (hfaults : ∀ o, S.faults o) (hserial : ¬ S.serial)
    {topology : Topology} {native : FakeState} {moves : List Move} {t : System}
    (h : (pristine (World.pristine topology native)).performAll S moves = some t) :
    Reachable S t :=
  (computed_performAll hfaults hserial h).reachable

/-- A state computed by orderly moves is reachable in every setup. -/
theorem reachable_performOrderly {S : Setup} {topology : Topology} {native : FakeState}
    {moves : List Move} {t : System}
    (h : (pristine (World.pristine topology native)).performOrderly S moves = some t) :
    Reachable S t :=
  ((computed_pristine topology native).all_orderly h).reachable

end System

end Osdns
