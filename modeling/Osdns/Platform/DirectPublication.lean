import Osdns.Platform.DirectCapture

/-!
# Guarded mutations of the resolver file

`apply_bound` and `restore_bound` compare the file with the expected state, once at the beginning
and once more right before the temporary file is renamed over it or the file is removed.  Another
program may still come between that last look and the rename; what is certain is what was seen, that
nothing is published twice, and what the outcome tells the engine.
-/

namespace Osdns

open Interaction
open Interaction.Fallible (ask value known sat_bind sat_value)
open Journal (SnapshotData IdentityData)

namespace Direct

/-! ## Publishing -/

section Publishing

variable {s t : Disk} {H : List (Option File)} {pub : List (Option (List UInt8))}
variable {resource : ResourceId} {expected : DirectSnapshot} {c : Option (List UInt8)}

/-- What this program has published since then is `pub`. -/
def Begun (H : List (Option File)) (pub : List (Option (List UInt8))) (t : Disk) : Prop :=
  H <:+ t.history ∧ t.published = pub

lemma Begun.stable : Stable others (Begun H pub) :=
  fun hst h => ⟨h.1.trans hst.history, hst.published.trans h.2⟩

/-- Nothing is published unless the expected state was seen since the operation began, and then only
once. -/
def careful (H : List (Option File)) (pub : List (Option (List UInt8)))
    (expected : DirectSnapshot) : Handler FileRet Disk :=
  fun _ u _ v => v.published ≠ u.published →
    u.published = pub ∧ ∃ x, Seen H x u ∧ snapshotOf x = expected

lemma careful_look {o : FileOp} {u : Disk} {r : FileRet o} (_ : Looks o) :
    careful H pub expected o u r u := fun h => absurd rfl h

/-- The expected state was seen, and nothing has been published. -/
def Verified (H : List (Option File)) (pub : List (Option (List UInt8)))
    (expected : DirectSnapshot) (t : Disk) : Prop :=
  Begun H pub t ∧ ∃ x, Seen H x t ∧ snapshotOf x = expected

lemma Verified.stable : Stable others (Verified H pub expected) := by
  intro t u htu h
  obtain ⟨hbegun, x, hx, hexpected⟩ := h
  exact ⟨Begun.stable htu hbegun, x, Seen.stable htu hx, hexpected⟩

lemma sat_verifyExpected (hs : Begun H pub s) :
    Program.Sat fileCalls others (careful H pub expected) (verifyExpected resource expected).run
      (fun a t => Begun H pub t ∧ (a = .ok () → Verified H pub expected t)) s := by
  have hQ : ∀ a : Except FileError Unit, Stable others fun t =>
      Begun H pub t ∧ (a = .ok () → Verified H pub expected t) := by
    intro a t u htu h
    exact ⟨Begun.stable htu h.1, fun ha => Verified.stable htu (h.2 ha)⟩
  unfold verifyExpected
  refine sat_bind (sat_readCurrent (fun o u r h => careful_look h) Begun.stable
    (fun t ht => ht.1) hs) (fun current t ht => ?_) fun e t ht => sat_stop hQ ⟨ht.kept, by simp⟩
  split
  · exact sat_stop hQ ⟨ht.kept, by simp⟩
  · rename_i hsame
    rw [not_not] at hsame
    obtain ⟨x, hx, hcurrent⟩ := ht.found current rfl
    exact sat_stop hQ ⟨ht.kept, fun _ => ⟨ht.kept, x, hx, hcurrent.trans hsame⟩⟩

/-- What a write or a removal does to what is published. -/
structure Wrote (H : List (Option File)) (pub : List (Option (List UInt8)))
    (c : Option (List UInt8)) (a : Except FileError Unit) (t : Disk) : Prop where
  history : H <:+ t.history
  finished : a = .ok () →
    t.published = c :: pub ∨ (c = none ∧ t.published = pub ∧ Seen H none t)
  failed : ∀ e, a = .error e → t.published = pub ∨ (t.published = c :: pub ∧ Inner e)

lemma Wrote.stable (a : Except FileError Unit) : Stable others (Wrote H pub c a) := by
  intro t u htu h
  refine ⟨h.history.trans htu.history, fun ha => ?_, fun e ha => ?_⟩
  · rw [htu.published]
    exact (h.finished ha).imp_right fun h => ⟨h.1, h.2.1, Seen.stable htu h.2.2⟩
  · rw [htu.published]
    exact h.failed e ha

lemma Wrote.unwritten {e : FileError} (h : Begun H pub t) : Wrote H pub c (.error e) t :=
  ⟨h.1, by simp, fun _ _ => .inl h.2⟩

lemma Wrote.written (h : Begun H (c :: pub) t) : Wrote H pub c (.ok ()) t :=
  ⟨h.1, fun _ => .inl h.2, by simp⟩

/-- What follows the publication failed. -/
lemma Wrote.unconfirmed {e : FileError} (h : Begun H (c :: pub) t) (he : Inner e) :
    Wrote H pub c (.error e) t :=
  ⟨h.1, by simp, fun _ he' => .inr ⟨h.2, Except.error.inj he' ▸ he⟩⟩

/-- The directory may fail to be flushed after the publication. -/
lemma Wrote.called {r : Except String Unit} (h : Begun H (c :: pub) t) :
    Wrote H pub c (r.mapError ioError) t := by
  cases r with
  | ok _ => exact .written h
  | error message => exact .unconfirmed h rfl

/-- The last call of a write. -/
lemma sat_commit {content : List UInt8} (hs : Verified H pub expected s) :
    Program.Sat fileCalls others (careful H pub expected)
      (io (.call (.commit content) .done)).run (Wrote H pub (some content)) s := by
  intro t ht r u hu
  obtain ⟨⟨hH, hpub⟩, hseen⟩ := Verified.stable ht hs
  rcases hu with hu | ⟨⟨e, rfl⟩, rfl⟩
  · refine ⟨fun _ => ⟨hpub, hseen⟩, fun v hv => Wrote.stable _ hv (.called ⟨?_, ?_⟩)⟩
    · rw [hu.history]
      exact hH.trans (List.suffix_cons ..)
    · rw [hu.published, hpub]
  · exact ⟨fun h => absurd rfl h, fun v hv => Wrote.stable _ hv (.unwritten ⟨hH, hpub⟩)⟩

/-- A call of the preparation. -/
lemma sat_prepare {o : FileOp} (hlook : Looks o) (hs : Begun H pub s) :
    Program.Sat fileCalls others (careful H pub expected) (.call o .done)
      (fun _ => Begun H pub) s :=
  sat_look hlook (fun _ _ _ h => careful_look h) Begun.stable (fun _ => Begun.stable)
    (fun _ _ hu _ => hu) hs

lemma sat_rejectExtendedAttributes {p : Program FileRet (Except AttributeFault Nat)}
    (hp : p.Sat fileCalls others (careful H pub expected) (fun _ => Begun H pub) s) :
    Program.Sat fileCalls others (careful H pub expected) (rejectExtendedAttributes p).run
      (fun _ => Begun H pub) s := by
  unfold rejectExtendedAttributes
  refine sat_value hp fun r t ht => ?_
  split
  · exact sat_stop (fun _ => Begun.stable) ht
  · exact sat_stop (fun _ => Begun.stable) ht
  · exact sat_stop (fun _ => Begun.stable) ht
  · exact sat_stop (fun _ => Begun.stable) ht

lemma sat_checkReplaced (hs : Begun H pub s) :
    Program.Sat fileCalls others (careful H pub expected) checkReplaced.run
      (fun _ => Begun H pub) s := by
  have hprepared : Program.Sat fileCalls others (careful H pub expected) (.call .openFile .done)
      (fun _ => Begun H pub) s := sat_prepare trivial hs
  unfold checkReplaced
  refine sat_value hprepared fun r t ht => ?_
  split
  · rename_i file
    exact sat_rejectExtendedAttributes (sat_prepare (o := .listAttributes file) trivial ht)
  · exact sat_stop (fun _ => Begun.stable) ht
  · exact sat_stop (fun _ => Begun.stable) ht

lemma sat_setMode {metadata : Option DirectFileMetadata} (hs : Begun H pub s) :
    Program.Sat fileCalls others (careful H pub expected) (setMode metadata).run
      (fun _ => Begun H pub) s := by
  cases metadata with
  | none => exact sat_stop (fun _ => Begun.stable) hs
  | some metadata =>
      exact (sat_prepare (o := .setPermissions metadata.mode) trivial hs).seq fun r t ht =>
        sat_stop (fun _ => Begun.stable) ht

lemma sat_write {content : List UInt8} {metadata : Option DirectFileMetadata}
    (hs : Begun H pub s) :
    Program.Sat fileCalls others (careful H pub expected)
      (write content metadata (verifyExpected resource expected)).run
      (Wrote H pub (some content)) s := by
  have hQ : ∀ a, Stable others (Wrote H pub (some content) a) := Wrote.stable
  have failed : ∀ (e : FileError) (t : Disk), Begun H pub t →
      Program.Sat fileCalls others (careful H pub expected) (.done (.error e))
        (Wrote H pub (some content)) t := fun e t ht => sat_stop hQ (.unwritten ht)
  unfold write
  refine sat_bind (sat_checkReplaced hs) (fun _ t ht => ?_) failed
  refine sat_io hQ (sat_prepare (o := .openTemporary) trivial ht) (fun _ t ht => ?_)
    fun _ t ht => .unwritten ht
  refine sat_bind (sat_rejectExtendedAttributes
    (sat_prepare (o := .temporaryAttributes) trivial ht)) (fun _ t ht => ?_) failed
  refine sat_io hQ (sat_prepare (o := .writeAll content) trivial ht) (fun _ t ht => ?_)
    fun _ t ht => .unwritten ht
  refine sat_bind (sat_setMode ht) (fun _ t ht => ?_) failed
  refine sat_io hQ (sat_prepare (o := .syncAll) trivial ht) (fun _ t ht => ?_)
    fun _ t ht => .unwritten ht
  refine sat_bind (sat_verifyExpected ht) (fun _ t ht => ?_) fun e t ht => failed e t ht.1
  exact sat_commit (ht.2 rfl)

lemma sat_checkUsable {Q : Except FileError Unit → Disk → Prop} {k : Unit → FileProgram Unit}
    (hQ : ∀ a, Stable others (Q a)) (hs : Begun H pub s)
    (hok : ∀ t, Begun H pub t →
      Program.Sat fileCalls others (careful H pub expected) (k ()).run Q t)
    (herror : ∀ e t, Begun H pub t → Q (.error e) t) :
    Program.Sat fileCalls others (careful H pub expected)
      (ask (.call .checkUsable .done) >>= k).run Q s :=
  sat_bind (sat_prepare (o := .checkUsable) trivial hs) (fun _ t ht => hok t ht)
    fun e t ht => sat_stop hQ (herror e t ht)

lemma sat_writeContent {content : List UInt8} {snapshot : DirectSnapshot} (hs : Begun H pub s) :
    Program.Sat fileCalls others (careful H pub expected)
      (writeContent resource content snapshot expected).run (Wrote H pub (some content)) s :=
  sat_checkUsable Wrote.stable hs (fun _ ht => sat_write ht) fun _ _ ht => .unwritten ht

/-- The file is removed, or was not there. -/
lemma sat_removeFile (hs : Verified H pub expected s) :
    Program.Sat fileCalls others (careful H pub expected) (.call .removeFile .done)
      (fun (r : Except OpenFault Unit) t =>
        (Begun H (none :: pub) t ∧ r ≠ .error .notFound) ∨
          (Begun H pub t ∧ ∃ e, r = .error e ∧ (e = .notFound → Seen H none t))) s := by
  intro t ht r u hu
  obtain ⟨⟨hH, hpub⟩, hseen⟩ := Verified.stable ht hs
  rcases hu with ⟨hu, hr⟩ | ⟨⟨e, rfl, hmissing⟩, rfl⟩
  · refine ⟨fun _ => ⟨hpub, hseen⟩, fun v hv => .inl ⟨Begun.stable hv ⟨?_, ?_⟩, hr⟩⟩
    · rw [hu.history]
      exact hH.trans (List.suffix_cons ..)
    · rw [hu.published, hpub]
  · refine ⟨fun h => absurd rfl h, fun v hv => .inr ⟨Begun.stable hv ⟨hH, hpub⟩, e, rfl, ?_⟩⟩
    intro he
    have hnow := Seen.now hH
    rw [hmissing he] at hnow
    exact Seen.stable hv hnow

lemma sat_removeCurrent (hs : Verified H pub expected s) :
    Program.Sat fileCalls others (careful H pub expected) removeCurrent.run
      (Wrote H pub none) s := by
  have hQ : ∀ a, Stable others (Wrote H pub none a) := Wrote.stable
  unfold removeCurrent
  refine sat_bind (sat_look (o := .checkUsable) trivial (fun _ _ _ h => careful_look h)
    Verified.stable (fun _ => Verified.stable) (fun _ _ hu _ => hu) hs) (fun _ t ht => ?_)
    fun e t ht => sat_stop hQ (.unwritten ht.1)
  refine sat_value (sat_removeFile ht) fun r t ht => ?_
  split
  · rcases ht with ⟨ht, -⟩ | ⟨-, e, habs, -⟩
    · have hsync : Program.Sat fileCalls others (careful H pub expected)
          (.call .syncDirectory .done) (fun _ => Begun H (none :: pub)) t :=
        sat_look trivial (fun _ _ _ h => careful_look h) Begun.stable (fun _ => Begun.stable)
          (fun _ _ hu _ => hu) ht
      exact Program.Sat.seq hsync fun r u hu => sat_stop hQ (.called hu)
    · exact absurd habs (by simp)
  · rcases ht with ⟨-, habs⟩ | ⟨ht, e, he, hmissing⟩
    · exact absurd rfl habs
    · obtain rfl := Except.error.inj he
      exact sat_stop hQ ⟨ht.1, fun _ => .inr ⟨rfl, ht.2, hmissing rfl⟩, by simp⟩
  · rcases ht with ⟨ht, -⟩ | ⟨ht, -⟩
    · exact sat_stop hQ (.unconfirmed ht rfl)
    · exact sat_stop hQ (.unwritten ht)

lemma sat_applySnapshot {plan : NormalizedConfig} (hs : Begun H pub s) :
    Program.Sat fileCalls others (careful H pub expected)
      (applySnapshot resource expected plan).run
      (Wrote H pub (some (ResolvConf.buildResolvConfContent plan))) s := by
  have hQ : ∀ a, Stable others
      (Wrote H pub (some (ResolvConf.buildResolvConfContent plan)) a) := Wrote.stable
  unfold applySnapshot
  refine sat_bind (sat_writeContent hs) (fun _ t ht => ?_) fun e t ht => sat_stop hQ ht
  have hpublished : Begun H (some (ResolvConf.buildResolvConfContent plan) :: pub) t :=
    ⟨ht.history, (ht.finished rfl).resolve_right fun h => absurd h.1 (by simp)⟩
  refine sat_bind (sat_readCurrent (fun _ _ _ h => careful_look h) Begun.stable
    (fun t ht => ht.1) hpublished) (fun observed u hu => ?_) fun e u hu => ?_
  · split
    · exact sat_stop hQ (.unconfirmed hu.kept rfl)
    · exact sat_stop hQ (.written hu.kept)
  · exact sat_stop hQ (.unconfirmed hu.kept (hu.inner e rfl))

end Publishing

/-! ## Guarded mutations -/

/-- The mutations of the backend. -/
inductive FileRequest
  | apply (plan : NormalizedConfig)
  | restore (target : PlatformSnapshot SnapshotData)

def FileRequest.program (resource : ResourceId) (identity : ResourceIdentity IdentityData)
    (expected : PlatformSnapshot SnapshotData) : FileRequest → Program FileRet FileAttempt
  | apply plan => applyBound resource identity expected plan
  | restore target => restoreBound resource identity expected target

/-- The content that a mutation is to put under the name, or none. -/
def FileRequest.Wants : FileRequest → Option (List UInt8) → Prop
  | apply plan, c => c = some (ResolvConf.buildResolvConfContent plan)
  | restore target, c => ∃ data, fromPlatform target = .ok data ∧ data.content = c

/-- A call publishes something only if nothing was published since `s` and the expected state was
seen since then. -/
def carefully (s : Disk) (expected : PlatformSnapshot SnapshotData) : Handler FileRet Disk :=
  fun _ u _ v => v.published ≠ u.published →
    u.published = s.published ∧ ∃ x, Seen s.history x u ∧ fromPlatform expected = .ok (snapshotOf x)

/-- What the outcome of a mutation says of what was published. -/
def Attempted (request : FileRequest) (s : Disk) : FileAttempt → Disk → Prop
  | .performed, t => ∃ c, request.Wants c ∧ (t.published = c :: s.published ∨
      (c = none ∧ t.published = s.published ∧ Seen s.history none t))
  | .rejected _, t => t.published = s.published
  | .indeterminate _, t => t.published = s.published ∨
      ∃ c, request.Wants c ∧ t.published = c :: s.published

section Guarded

variable {s t : Disk} {resource : ResourceId} {identity : ResourceIdentity IdentityData}
variable {expected : PlatformSnapshot SnapshotData} {data : DirectSnapshot} {α β : Type}

lemma Attempted.stable (request : FileRequest) (a : FileAttempt) :
    Stable others (Attempted request s a) := by
  intro t u htu h
  have hpublished := htu.published
  cases a with
  | performed =>
      obtain ⟨c, hc, h | ⟨hnone, h, hseen⟩⟩ := h
      · exact ⟨c, hc, .inl (hpublished.trans h)⟩
      · exact ⟨c, hc, .inr ⟨hnone, hpublished.trans h, Seen.stable htu hseen⟩⟩
  | rejected e => exact hpublished.trans h
  | indeterminate e =>
      refine h.imp hpublished.trans fun hsome => ?_
      obtain ⟨c, hc, h⟩ := hsome
      exact ⟨c, hc, hpublished.trans h⟩

lemma sat_carefully {p : Program FileRet α} {Q : α → Disk → Prop}
    (hdata : fromPlatform expected = .ok data)
    (h : p.Sat fileCalls others (careful s.history s.published data) Q t) :
    p.Sat fileCalls others (carefully s expected) Q t := by
  refine h.weaken (fun _ _ _ _ h => h) (fun _ _ h => h) fun o u r v _ hcareful hne => ?_
  obtain ⟨hpub, x, hx, hexpected⟩ := hcareful hne
  exact ⟨hpub, x, hx, hexpected ▸ hdata⟩

lemma sat_known {G : Handler FileRet Disk} {Q : Except FileError α → Disk → Prop}
    {result : Except FileError β} {k : β → FileProgram α} (hQ : ∀ a, Stable others (Q a))
    (hok : ∀ b, result = .ok b → Program.Sat fileCalls others G (k b).run Q s)
    (herror : ∀ e, Q (.error e) s) :
    Program.Sat fileCalls others G (known result >>= k).run Q s := by
  cases result with
  | ok b => exact hok b rfl
  | error e => exact sat_stop hQ (herror e)

/-- The outcome of an application. -/
lemma attempted_apply {plan : NormalizedConfig} {result : Except FileError Unit}
    (h : Wrote s.history s.published (some (ResolvConf.buildResolvConfContent plan)) result t) :
    Attempted (.apply plan) s (.fromApplyResult result) t := by
  cases result with
  | ok _ => exact ⟨_, rfl, h.finished rfl⟩
  | error e =>
      rcases h.failed e rfl with hpub | ⟨hpub, hinner⟩
      · unfold FileAttempt.fromApplyResult
        dsimp only
        split
        · exact hpub
        · exact .inl hpub
      · have hinner' : e.isExternalModification = false := hinner
        have hout : FileAttempt.fromApplyResult (.error e) = .indeterminate e :=
          if_neg (by simp [hinner'])
        rw [hout]
        exact .inr ⟨_, rfl, hpub⟩

lemma sat_applyBound {plan : NormalizedConfig} (hs : Begun s.history s.published s) :
    (applyBound resource identity expected plan).Sat fileCalls others (carefully s expected)
      (Attempted (.apply plan) s) s := by
  have hprepared : ∀ a : Except FileError DirectSnapshot, Stable others fun t =>
      Begun s.history s.published t ∧ ∀ data, a = .ok data → fromPlatform expected = .ok data := by
    intro a t u htu h
    exact ⟨Begun.stable htu h.1, h.2⟩
  unfold applyBound
  refine Program.Sat.seq (M := fun (a : Except FileError DirectSnapshot) t =>
    Begun s.history s.published t ∧ ∀ data, a = .ok data →
      fromPlatform expected = .ok data) ?_ fun prepared t ht => ?_
  · refine sat_known hprepared (fun _ _ => ?_) fun e => ⟨hs, by simp⟩
    refine sat_known hprepared (fun _ _ => ?_) fun e => ⟨hs, by simp⟩
    refine sat_known hprepared (fun data hdata => ?_) fun e => ⟨hs, by simp⟩
    refine sat_bind (sat_carefully hdata (sat_verifyExpected hs)) (fun _ t ht => ?_)
      fun e t ht => sat_stop hprepared ⟨ht.1, by simp⟩
    exact sat_stop hprepared ⟨ht.1, fun data' h => Except.ok.inj h ▸ hdata⟩
  · cases prepared with
    | error e => exact fun u hu => Attempted.stable _ (.rejected e) hu ht.1.2
    | ok data =>
        refine Program.Sat.seq (sat_carefully (ht.2 data rfl) (sat_applySnapshot ht.1))
          fun result u hu => ?_
        exact fun v hv => Attempted.stable _ _ hv (attempted_apply hu)

/-- The outcome of a restore. -/
lemma attempted_restore {target : PlatformSnapshot SnapshotData} {a : Except FileError Unit}
    (htarget : fromPlatform target = .ok data)
    (h : Wrote s.history s.published data.content a t) :
    Attempted (.restore target) s (.fromRestoreResult a) t := by
  cases a with
  | ok _ => exact ⟨data.content, ⟨data, htarget, rfl⟩, h.finished rfl⟩
  | error e => exact (h.failed e rfl).imp_right fun h => ⟨data.content, ⟨data, htarget, rfl⟩, h.1⟩

/-- A snapshot is written back, or the file removed. -/
lemma sat_restoreContent {target : DirectSnapshot} (hs : Begun s.history s.published t) :
    Program.Sat fileCalls others (careful s.history s.published data)
      (restoreContent resource target data).run (Wrote s.history s.published target.content) t := by
  unfold restoreContent
  cases target.content with
  | some content => exact sat_writeContent hs
  | none =>
      refine sat_bind (sat_verifyExpected hs) (fun _ u hu => sat_removeCurrent (hu.2 rfl))
        fun e u hu => sat_stop Wrote.stable (.unwritten hu.1)

lemma sat_restoreBound {target : PlatformSnapshot SnapshotData}
    (hs : Begun s.history s.published s) :
    (restoreBound resource identity expected target).Sat fileCalls others (carefully s expected)
      (Attempted (.restore target) s) s := by
  have hprepared : ∀ a : Except FileError (DirectSnapshot × DirectSnapshot), Stable others fun t =>
      Begun s.history s.published t ∧ ∀ data, a = .ok data →
        fromPlatform expected = .ok data.1 ∧ fromPlatform target = .ok data.2 := by
    intro a t u htu h
    exact ⟨Begun.stable htu h.1, h.2⟩
  unfold restoreBound
  refine Program.Sat.seq (M := fun (a : Except FileError (DirectSnapshot × DirectSnapshot)) t =>
    Begun s.history s.published t ∧ ∀ data, a = .ok data →
      fromPlatform expected = .ok data.1 ∧ fromPlatform target = .ok data.2) ?_
    fun prepared t ht => ?_
  · refine sat_known hprepared (fun _ _ => ?_) fun e => ⟨hs, by simp⟩
    refine sat_known hprepared (fun _ _ => ?_) fun e => ⟨hs, by simp⟩
    refine sat_known hprepared (fun _ _ => ?_) fun e => ⟨hs, by simp⟩
    refine sat_known hprepared (fun data hdata => ?_) fun e => ⟨hs, by simp⟩
    refine sat_known hprepared (fun data' htarget => ?_) fun e => ⟨hs, by simp⟩
    refine sat_bind (sat_carefully hdata (sat_verifyExpected hs)) (fun _ t ht => ?_)
      fun e t ht => sat_stop hprepared ⟨ht.1, by simp⟩
    exact sat_stop hprepared ⟨ht.1, fun both h => Except.ok.inj h ▸ ⟨hdata, htarget⟩⟩
  · cases prepared with
    | error e => exact fun u hu => Attempted.stable _ (.rejected e) hu ht.1.2
    | ok both =>
        obtain ⟨hdata, htarget⟩ := ht.2 both rfl
        refine Program.Sat.seq (sat_carefully hdata (sat_restoreContent ht.1))
          fun result u hu => ?_
        exact fun v hv => Attempted.stable _ _ hv (attempted_restore htarget hu)

end Guarded

end Direct

end Osdns
