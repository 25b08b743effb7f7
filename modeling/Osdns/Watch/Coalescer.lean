import Mathlib.Data.List.Perm.Basic
import Mathlib.Logic.Function.Basic
import Osdns.Framework.Traces
import Osdns.Model.Config

/-!
# The event coalescer

`spawn_coalescer` and `flush` of `watch.rs`.  Producers insert events into a map of pending events
and then signal a wake channel of capacity one; a worker waits for a token, lets a window pass in
which it drains further tokens, and flushes the map.

Every step of a producer or of the worker that touches the map, the channel or the flag is one
`Action`.  The window runs out at any moment (`expire`).
-/

namespace Osdns

inductive DnsEvent
  | resourceChanged (resource : ResourceId)
  | resourceRemoved (resource : ResourceId)
  deriving DecidableEq

/-- `DnsEvent::resource`. -/
def DnsEvent.resource : DnsEvent → ResourceId
  | .resourceChanged resource => resource
  | .resourceRemoved resource => resource

namespace Watch

open Transition

/-! ## The model -/

/-- The map of pending events, a key at most once. -/
abbrev Pending := List (ResourceId × DnsEvent)

/-- `HashMap::insert`. -/
def Pending.insert (pending : Pending) (event : DnsEvent) : Pending :=
  (event.resource, event) :: pending.filter fun entry => entry.1 ≠ event.resource

/-- A call of the callback that the coalescer hands out. -/
inductive Producer
  | idle
  /-- The flag was not set; the map is about to be locked. -/
  | inserting (event : DnsEvent)
  /-- The event is in the map; the channel is about to be signalled. -/
  | signalling
  deriving DecidableEq

/-- Where the worker is. -/
inductive Worker
  /-- In `rx.recv()`. -/
  | receiving
  /-- `rx.recv()` has taken a token, and the flag is about to be looked at. -/
  | woken
  /-- In `rx.recv_timeout(remaining)`. -/
  | coalescing
  /-- `rx.recv_timeout` has taken a token, and the flag is about to be looked at. -/
  | renewed
  /-- In `flush`, before the map is taken; the last flush ends the thread. -/
  | flushing (final : Bool)
  /-- In `flush`, with the events that are still to be delivered. -/
  | delivering (rest : List DnsEvent) (final : Bool)
  | finished
  deriving DecidableEq

/-- The coalescer, its worker and its producers. -/
structure State (P : Type) where
  pending : Pending
  /-- The wake channel holds its one token. -/
  token : Bool
  /-- Every sender of the wake channel is dropped. -/
  closed : Bool
  flag : Bool
  worker : Worker
  producers : P → Producer

/-- `spawn_coalescer`. -/
def State.initial {P : Type} : State P where
  pending := []
  token := false
  closed := false
  flag := false
  worker := .receiving
  producers := fun _ => .idle

inductive Action (P : Type)
  /-- A producer is called with an event and looks at the flag. -/
  | report (p : P) (event : DnsEvent)
  | insert (p : P) (event : DnsEvent)
  | signal (p : P)
  /-- `rx.recv()` returns. -/
  | receive
  /-- The worker looks at the flag after it took a token. -/
  | check
  /-- `rx.recv_timeout` returns without a timeout. -/
  | drain
  /-- The window is over. -/
  | expire
  /-- `flush` takes the map and finds its events in some order. -/
  | take (batch : List DnsEvent)
  | deliver (event : DnsEvent)
  /-- `flush` returns. -/
  | conclude
  /-- The callback that was called last panics, which unwinds the worker. -/
  | unwind
  /-- `Coalescer::deactivate` sets the flag. -/
  | stop
  /-- `Coalescer::deactivate` signals the channel. -/
  | stopSignal
  /-- The last sender is dropped, after `deactivate`. -/
  | close

section Steps

variable {P : Type} [DecidableEq P]

/-- A producer moves on. -/
def State.setProducer (s : State P) (p : P) (producer : Producer) : State P :=
  { s with producers := Function.update s.producers p producer }

/-- The worker ends, and its `WatchWorker` sets the flag. -/
def State.finish (s : State P) : State P := { s with worker := .finished, flag := true }

/-- One step of a producer, of the worker or of the owner of the coalescer. -/
def perform (s : State P) : Action P → Option (State P)
  | .report p event =>
      if s.producers p = .idle then
        if s.flag then some s else some (s.setProducer p (.inserting event))
      else none
  | .insert p event =>
      if s.producers p = .inserting event then
        some { s.setProducer p .signalling with pending := s.pending.insert event }
      else none
  | .signal p =>
      -- `try_send`: a full channel keeps its token.
      if s.producers p = .signalling then some { s.setProducer p .idle with token := true }
      else none
  | .receive =>
      if s.worker = .receiving then
        if s.token then some { s with worker := .woken, token := false }
        else if s.closed then some s.finish else none
      else none
  | .check =>
      if s.worker = .woken ∨ s.worker = .renewed then
        if s.flag then some s.finish else some { s with worker := .coalescing }
      else none
  | .drain =>
      if s.worker = .coalescing then
        if s.token then some { s with worker := .renewed, token := false }
        else if s.closed then some { s with worker := .flushing true } else none
      else none
  | .expire =>
      if s.worker = .coalescing then some { s with worker := .flushing false } else none
  | .take batch =>
      match s.worker with
      | .flushing final =>
          if batch.Perm (s.pending.map Prod.snd) then
            some { s with worker := .delivering batch final, pending := [] }
          else none
      | _ => none
  | .deliver event =>
      match s.worker with
      | .delivering (next :: rest) final =>
          if event = next ∧ s.flag = false then some { s with worker := .delivering rest final }
          else none
      | _ => none
  | .conclude =>
      match s.worker with
      | .delivering rest final =>
          if rest = [] ∨ s.flag then
            if final then some s.finish else some { s with worker := .receiving }
          else none
      | _ => none
  | .unwind =>
      match s.worker with
      | .delivering _ _ => some s.finish
      | _ => none
  | .stop => some { s with flag := true }
  | .stopSignal => if s.flag then some { s with token := true } else none
  | .close => if s.flag then some { s with closed := true } else none

end Steps

/-! ## What a step does -/

section Results

variable {P : Type} {s t : State P} {a : Action P}

section Steps

variable [DecidableEq P]

/-- The steps that leave the coalescer running, one by one, and the ones that end it. -/
inductive Stepped (s : State P) : Action P → State P → Prop
  | reported {p event} (idle : s.producers p = .idle) (running : s.flag = false) :
      Stepped s (.report p event) (s.setProducer p (.inserting event))
  | refused {p event} (stopped : s.flag = true) : Stepped s (.report p event) s
  | inserted {p event} (at_map : s.producers p = .inserting event) :
      Stepped s (.insert p event)
        { s.setProducer p .signalling with pending := s.pending.insert event }
  | signalled {p} (at_channel : s.producers p = .signalling) :
      Stepped s (.signal p) { s.setProducer p .idle with token := true }
  | received (at_channel : s.worker = .receiving) (token : s.token = true) :
      Stepped s .receive { s with worker := .woken, token := false }
  | disconnected (at_channel : s.worker = .receiving) (closed : s.closed = true) :
      Stepped s .receive s.finish
  | opened (took : s.worker = .woken ∨ s.worker = .renewed) (running : s.flag = false) :
      Stepped s .check { s with worker := .coalescing }
  | ended (took : s.worker = .woken ∨ s.worker = .renewed) (stopped : s.flag = true) :
      Stepped s .check s.finish
  | drained (window : s.worker = .coalescing) (token : s.token = true) :
      Stepped s .drain { s with worker := .renewed, token := false }
  | cut (window : s.worker = .coalescing) (closed : s.closed = true) :
      Stepped s .drain { s with worker := .flushing true }
  | expired (window : s.worker = .coalescing) :
      Stepped s .expire { s with worker := .flushing false }
  | took {batch final} (flushing : s.worker = .flushing final)
      (perm : batch.Perm (s.pending.map Prod.snd)) :
      Stepped s (.take batch) { s with worker := .delivering batch final, pending := [] }
  | delivered {event rest final} (next : s.worker = .delivering (event :: rest) final)
      (running : s.flag = false) :
      Stepped s (.deliver event) { s with worker := .delivering rest final }
  | resumed {rest} (handed : s.worker = .delivering rest false) (done : rest = [] ∨ s.flag = true) :
      Stepped s .conclude { s with worker := .receiving }
  | concluded {rest} (handed : s.worker = .delivering rest true) : Stepped s .conclude s.finish
  | unwound {rest final} (panicked : s.worker = .delivering rest final) : Stepped s .unwind s.finish
  | stopped : Stepped s .stop { s with flag := true }
  | roused (stopped : s.flag = true) : Stepped s .stopSignal { s with token := true }
  | closed (stopped : s.flag = true) : Stepped s .close { s with closed := true }

end Steps

/-! ## No event is stranded -/

/-- The worker took a token and has not taken the map since: it is inside a window, or in a flush
before it takes the map. -/
def Worker.Collecting : Worker → Prop
  | .woken => True
  | .coalescing => True
  | .renewed => True
  | .flushing _ => True
  | _ => False

/-- Pending events are attended to while the coalescer runs. -/
structure Attended (s : State P) : Prop where
  ending : s.closed = true ∨ s.worker = .finished → s.flag = true
  waiting : s.flag = false → s.pending ≠ [] →
    (∃ p, s.producers p = .signalling) ∨ s.worker.Collecting ∨ s.token = true

/-- While the worker is somewhere else, a token or a producer about to send one is left. -/
lemma Attended.away (hs : Attended s) (hw : ¬ s.worker.Collecting) (hf : s.flag = false)
    (hne : s.pending ≠ []) : (∃ p, s.producers p = .signalling) ∨ s.token = true := by
  rcases hs.waiting hf hne with h | h | h
  · exact .inl h
  · exact absurd h hw
  · exact .inr h

lemma Attended.step [DecidableEq P] (hs : Attended s) (h : Stepped s a t) : Attended t := by
  have hending := hs.ending
  cases h with
  | reported idle running =>
      refine ⟨hending, fun hf hne => ?_⟩
      refine (hs.waiting hf hne).imp_left fun ⟨q, hq⟩ => ⟨q, ?_⟩
      have hqp : q ≠ _ := fun heq => by
        rw [heq, idle] at hq
        cases hq
      exact (Function.update_of_ne hqp _ _).trans hq
  | refused stopped => exact hs
  | inserted at_map => exact ⟨hending, fun _ _ => .inl ⟨_, Function.update_self ..⟩⟩
  | signalled at_channel => exact ⟨hending, fun _ _ => .inr (.inr rfl)⟩
  | received at_channel token => exact ⟨by simpa using hs.ending ∘ .inl, fun _ _ => .inr (.inl trivial)⟩
  | disconnected at_channel closed => exact ⟨fun _ => rfl, fun hf => absurd hf (by simp [State.finish])⟩
  | opened took running => exact ⟨by simpa using hs.ending ∘ .inl, fun _ _ => .inr (.inl trivial)⟩
  | ended took stopped => exact ⟨fun _ => rfl, fun hf => absurd hf (by simp [State.finish])⟩
  | drained window token => exact ⟨by simpa using hs.ending ∘ .inl, fun _ _ => .inr (.inl trivial)⟩
  | cut window closed => exact ⟨by simpa using hs.ending ∘ .inl, fun _ _ => .inr (.inl trivial)⟩
  | expired window => exact ⟨by simpa using hs.ending ∘ .inl, fun _ _ => .inr (.inl trivial)⟩
  | took flushing perm => exact ⟨by simpa using hs.ending ∘ .inl, fun _ hne => absurd rfl hne⟩
  | delivered next running =>
      refine ⟨by simpa using hs.ending ∘ .inl, fun hf hne => ?_⟩
      exact (hs.away (by simp [next, Worker.Collecting]) hf hne).imp_right .inr
  | resumed handed done =>
      refine ⟨by simpa using hs.ending ∘ .inl, fun hf hne => ?_⟩
      exact (hs.away (by simp [handed, Worker.Collecting]) hf hne).imp_right .inr
  | concluded handed => exact ⟨fun _ => rfl, fun hf => absurd hf (by simp [State.finish])⟩
  | unwound panicked => exact ⟨fun _ => rfl, fun hf => absurd hf (by simp [State.finish])⟩
  | stopped => exact ⟨fun _ => rfl, fun hf => absurd hf (by simp)⟩
  | roused stopped => exact ⟨hending, fun _ _ => .inr (.inr rfl)⟩
  | closed stopped => exact ⟨fun _ => stopped, fun hf => absurd (stopped.symm.trans hf) (by simp)⟩

/-! ## What is pending is the latest -/

/-- The event an action inserts. -/
def Action.inserted? : Action P → Option DnsEvent
  | .insert _ event => some event
  | _ => none

/-- The event an action delivers. -/
def Action.delivered? : Action P → Option DnsEvent
  | .deliver event => some event
  | _ => none

/-- The latest event inserted for a resource. -/
def latest (r : ResourceId) (actions : List (Action P)) : Option DnsEvent :=
  ((actions.filterMap Action.inserted?).filter fun event => event.resource = r).getLast?

/-- The events handed to the callback. -/
def delivered (actions : List (Action P)) : List DnsEvent :=
  actions.filterMap Action.delivered?

lemma latest_insert {r : ResourceId} {before : List (Action P)} {p : P} {event : DnsEvent} :
    latest r (before ++ [.insert p event]) =
      if event.resource = r then some event else latest r before := by
  unfold latest
  by_cases hr : event.resource = r
  · simp [Action.inserted?, hr]
  · simp [Action.inserted?, hr]

lemma latest_other {r : ResourceId} {before : List (Action P)} (h : a.inserted? = none) :
    latest r (before ++ [a]) = latest r before := by
  simp [latest, h]

/-- Each resource is pending at most once, with the latest event inserted for it. -/
structure Current (before : List (Action P)) (s : State P) : Prop where
  keys : (s.pending.map Prod.fst).Nodup
  own : ∀ entry ∈ s.pending, entry.2.resource = entry.1
  latest : ∀ entry ∈ s.pending, latest entry.1 before = some entry.2

lemma Current.of_pending {before : List (Action P)} (hs : Current before s)
    (hp : t.pending = s.pending) (ha : a.inserted? = none) : Current (before ++ [a]) t where
  keys := hp ▸ hs.keys
  own := hp ▸ hs.own
  latest := fun entry he => by
    rw [latest_other ha]
    exact hs.latest entry (hp ▸ he)

lemma Current.insert {before : List (Action P)} (hs : Current before s) {p : P} {event : DnsEvent}
    (hp : t.pending = s.pending.insert event) : Current (before ++ [.insert p event]) t := by
  have hmem : ∀ entry ∈ t.pending, entry = (event.resource, event) ∨
      entry ∈ s.pending ∧ entry.1 ≠ event.resource := by
    intro entry he
    rw [hp, Pending.insert, List.mem_cons, List.mem_filter] at he
    exact he.imp_right fun h => ⟨h.1, by simpa using h.2⟩
  constructor
  · rw [hp, Pending.insert, List.map_cons, List.nodup_cons]
    constructor
    · intro habs
      obtain ⟨entry, he, heq⟩ := List.mem_map.mp habs
      exact absurd heq (by simpa using (List.mem_filter.mp he).2)
    · exact hs.keys.sublist (List.filter_sublist.map Prod.fst)
  · intro entry he
    rcases hmem entry he with rfl | ⟨he, _⟩
    · rfl
    · exact hs.own entry he
  · intro entry he
    rw [latest_insert]
    rcases hmem entry he with rfl | ⟨he, hne⟩
    · rw [if_pos rfl]
    · rw [if_neg (Ne.symm hne)]
      exact hs.latest entry he

lemma Current.step [DecidableEq P] {before : List (Action P)} (hs : Current before s)
    (h : Stepped s a t) : Current (before ++ [a]) t := by
  cases h with
  | inserted at_map => exact hs.insert rfl
  | took flushing perm => exact ⟨List.nodup_nil, by simp, by simp⟩
  | _ => exact hs.of_pending rfl rfl

/-- A batch taken from the map has each resource once, with its latest event. -/
lemma Current.batch {before : List (Action P)} (hs : Current before s) {batch : List DnsEvent}
    (perm : batch.Perm (s.pending.map Prod.snd)) :
    (batch.map DnsEvent.resource).Nodup ∧
      ∀ event ∈ batch, Watch.latest event.resource before = some event := by
  have hkeys : (s.pending.map Prod.snd).map DnsEvent.resource = s.pending.map Prod.fst := by
    rw [List.map_map]
    exact List.map_congr_left hs.own
  constructor
  · rw [(perm.map DnsEvent.resource).nodup_iff, hkeys]
    exact hs.keys
  · intro event he
    obtain ⟨entry, hentry, rfl⟩ := List.mem_map.mp (perm.mem_iff.mp he)
    rw [hs.own entry hentry]
    exact hs.latest entry hentry

/-! ## A flush hands over its batch -/

/-- What is left of the batch is in the worker's hands; a flush that is over left nothing unless the
coalescer was stopped. -/
def Handing (batch : List DnsEvent) (after : List (Action P)) (s : State P) : Prop :=
  ∃ rest, batch = delivered after ++ rest ∧
    ((∃ final, s.worker = .delivering rest final) ∨
      (∀ events final, s.worker ≠ .delivering events final) ∧ (s.flag = false → rest = []))

lemma delivered_other {after : List (Action P)} (h : a.delivered? = none) :
    delivered (after ++ [a]) = delivered after := by
  simp [delivered, h]

lemma Handing.of_worker {batch : List DnsEvent} {after : List (Action P)}
    (hs : Handing batch after s) (hw : t.worker = s.worker) (hf : t.flag = false → s.flag = false)
    (ha : a.delivered? = none) : Handing batch (after ++ [a]) t := by
  obtain ⟨rest, hbatch, h⟩ := hs
  refine ⟨rest, by rw [delivered_other ha]; exact hbatch, ?_⟩
  rw [hw]
  exact h.imp_right fun h => ⟨h.1, h.2 ∘ hf⟩

/-- The worker was outside of `flush` and stays there. -/
lemma Handing.of_outside {batch : List DnsEvent} {after : List (Action P)}
    (hs : Handing batch after s) (hw : ∀ events final, s.worker ≠ .delivering events final)
    (hw' : ∀ events final, t.worker ≠ .delivering events final)
    (hf : t.flag = false → s.flag = false) (ha : a.delivered? = none) :
    Handing batch (after ++ [a]) t := by
  obtain ⟨rest, hbatch, h⟩ := hs
  refine ⟨rest, by rw [delivered_other ha]; exact hbatch, .inr ⟨hw', ?_⟩⟩
  rcases h with ⟨final, h⟩ | h
  · exact absurd h (hw rest final)
  · exact h.2 ∘ hf

/-- The worker leaves `flush`, with nothing left or stopped. -/
lemma Handing.of_over {batch : List DnsEvent} {after : List (Action P)} {events : List DnsEvent}
    {final : Bool} (hs : Handing batch after s) (hw : s.worker = .delivering events final)
    (hw' : ∀ events final, t.worker ≠ .delivering events final)
    (hf : t.flag = false → events = []) (ha : a.delivered? = none) :
    Handing batch (after ++ [a]) t := by
  obtain ⟨rest, hbatch, h⟩ := hs
  refine ⟨rest, by rw [delivered_other ha]; exact hbatch, .inr ⟨hw', fun hflag => ?_⟩⟩
  rcases h with ⟨final', h⟩ | h
  · rw [hw] at h
    cases h
    exact hf hflag
  · exact absurd hw (h.1 events final)

lemma Handing.step [DecidableEq P] {batch : List DnsEvent} {after : List (Action P)}
    (hs : Handing batch after s) (h : Stepped s a t) (htake : ∀ b, a ≠ .take b) :
    Handing batch (after ++ [a]) t := by
  cases h with
  | reported idle running => exact hs.of_worker rfl id rfl
  | refused stopped => exact hs.of_worker rfl id rfl
  | inserted at_map => exact hs.of_worker rfl id rfl
  | signalled at_channel => exact hs.of_worker rfl id rfl
  | received at_channel token => exact hs.of_outside (by simp [at_channel]) (by simp) id rfl
  | disconnected at_channel closed =>
      exact hs.of_outside (by simp [at_channel]) (by simp [State.finish]) (by simp [State.finish]) rfl
  | opened took running =>
      refine hs.of_outside ?_ (by simp) id rfl
      rcases took with took | took <;> simp [took]
  | ended took stopped =>
      refine hs.of_outside ?_ (by simp [State.finish]) (by simp [State.finish]) rfl
      rcases took with took | took <;> simp [took]
  | drained window token => exact hs.of_outside (by simp [window]) (by simp) id rfl
  | cut window closed => exact hs.of_outside (by simp [window]) (by simp) id rfl
  | expired window => exact hs.of_outside (by simp [window]) (by simp) id rfl
  | took flushing perm => exact absurd rfl (htake _)
  | @delivered event rest final next running =>
      obtain ⟨left, hbatch, h⟩ := hs
      rcases h with ⟨final', h⟩ | h
      · rw [next] at h
        cases h
        refine ⟨rest, ?_, .inl ⟨final, rfl⟩⟩
        rw [hbatch]
        simp [Watch.delivered, Action.delivered?]
      · exact absurd next (h.1 (event :: rest) final)
  | resumed handed done =>
      refine hs.of_over handed (by simp) (fun hf => ?_) rfl
      rcases done with done | done
      · exact done
      · exact absurd (done.symm.trans hf) (by simp)
  | concluded handed => exact hs.of_over handed (by simp [State.finish]) (by simp [State.finish]) rfl
  | unwound panicked =>
      exact hs.of_over panicked (by simp [State.finish]) (by simp [State.finish]) rfl
  | stopped => exact hs.of_worker rfl (by simp) rfl
  | roused stopped => exact hs.of_worker rfl id rfl
  | closed stopped => exact hs.of_worker rfl id rfl

/-! ## Runs -/

section Runs

variable [DecidableEq P] {actions : List (Action P)}

end Runs

end Results

end Watch

end Osdns
