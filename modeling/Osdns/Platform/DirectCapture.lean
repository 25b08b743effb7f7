import Osdns.Platform.DirectProtocol

/-!
# Captures of the resolver file

A capture reads the file piece by piece while other programs may write or replace it.  It is
accepted only if the change time is the same before and after, and the file still had its link after
the first look at it: then all of it is what the name stood for at that moment.
-/

namespace Osdns

open Interaction
open Interaction.Fallible (sat_bind sat_value)

namespace Direct

/-! ## What was seen -/

section Seeing

variable {s t u : Disk} {H : List (Option File)} {x : Option File} {file : Nat} {F : File}
variable {φ ψ : Disk → Prop}

/-- The name stood for this at some moment since its history was `H`. -/
def Seen (H : List (Option File)) (x : Option File) (t : Disk) : Prop :=
  ∃ newer, t.history = newer ++ H ∧ (x ∈ newer ∨ H.head? = some x)

lemma Seen.suffix (h : Seen H x t) (hist : t.history <:+ u.history) : Seen H x u := by
  obtain ⟨newer, hnewer, hx⟩ := h
  obtain ⟨newest, hnewest⟩ := hist
  refine ⟨newest ++ newer, by rw [← hnewest, hnewer, List.append_assoc], ?_⟩
  exact hx.imp_left (List.mem_append_right newest)

/-- What the name stands for now. -/
lemma Seen.now (h : H <:+ t.history) : Seen H (t.name.map t.files) t := by
  obtain ⟨newer, hnewer⟩ := h
  refine ⟨newer, hnewer.symm, ?_⟩
  have hcurrent := t.current
  rw [← hnewer] at hcurrent
  cases newer with
  | nil => exact .inr hcurrent
  | cons first rest => exact .inl (by
      rw [← Option.some.inj hcurrent]
      exact List.mem_cons_self)

lemma Seen.stable : Stable others (Seen H x) := fun hst h => h.suffix hst.history

/-- As long as a file has not changed, it is `F` and `φ` holds. -/
def Still (file : Nat) (F : File) (φ : Disk → Prop) (t : Disk) : Prop :=
  F.changed ≤ (t.files file).changed ∧
    ((t.files file).changed = F.changed → t.files file = F ∧ φ t)

lemma Still.stable (hφ : Stable others φ) : Stable others (Still file F φ) := by
  intro t u htu h
  refine ⟨h.1.trans (htu.changed file), fun heq => ?_⟩
  have ht : (t.files file).changed = F.changed := le_antisymm (heq ▸ htu.changed file) h.1
  obtain ⟨hF, hφt⟩ := h.2 ht
  exact ⟨(htu.same file (heq.trans ht.symm)).trans hF, hφ htu hφt⟩

lemma Still.imp (h : Still file F φ t) (himp : t.files file = F → φ t → ψ t) :
    Still file F ψ t :=
  ⟨h.1, fun heq => ⟨(h.2 heq).1, himp (h.2 heq).1 (h.2 heq).2⟩⟩

/-- The state of the resolver file as a snapshot. -/
def metadataOf (file : File) : DirectFileMetadata where
  mode := file.mode
  owner := some file.owner
  flags := none
  links := some 1
  modified := none

def snapshotOf : Option File → DirectSnapshot
  | none => ⟨none, none⟩
  | some file => ⟨some file.content, some (metadataOf file)⟩

lemma validate_snapshotOf (x : Option File) : (snapshotOf x).validate = .ok () := by
  cases x with
  | none => rfl
  | some file => rfl

end Seeing

/-! ## Reading -/

section Reading

variable {s t : Disk} {H : List (Option File)} {pub : List (Option (List UInt8))}
variable {G : Handler FileRet Disk} {resource : ResourceId} {file : Nat} {F : File}
variable {φ ψ : Disk → Prop} {α β : Type} {Q : Except FileError α → Disk → Prop}

/-- The calls that do not touch the name. -/
def Looks : FileOp → Prop
  | .commit _ => False
  | .removeFile => False
  | _ => True

lemma looks_same {o : FileOp} {r : FileRet o} (h : Looks o) (hcall : fileCalls o s r t) :
    t = s := by
  cases o with
  | commit _ | removeFile => exact h.elim
  | checkUsable | openFile | stat _ | read _ _ _ => exact hcall.1
  | listAttributes _ | openTemporary | temporaryAttributes | writeAll _ | setPermissions _
  | syncAll | syncDirectory => exact hcall

/-- A call that does not touch the name. -/
lemma sat_look {o : FileOp} {χ : FileRet o → Disk → Prop} (hlook : Looks o)
    (hG : ∀ o u r, Looks o → G o u r u) (hφ : Stable others φ) (hχ : ∀ r, Stable others (χ r))
    (hcall : ∀ u r, φ u → fileCalls o u r u → χ r u) (hs : φ s) :
    Program.Sat fileCalls others G (.call o .done) χ s := by
  intro t ht r u hu
  obtain rfl := looks_same hlook hu
  exact ⟨hG o _ r hlook, fun v hv => hχ r hv (hcall _ r (hφ ht hs) hu)⟩

lemma sat_io {p : Program FileRet (Except String β)} {M : Except String β → Disk → Prop}
    {k : β → FileProgram α} (hQ : ∀ a, Stable others (Q a)) (hp : p.Sat fileCalls others G M s)
    (hok : ∀ b u, M (.ok b) u → Program.Sat fileCalls others G (k b).run Q u)
    (herror : ∀ message u, M (.error message) u → Q (.error (ioError message)) u) :
    Program.Sat fileCalls others G (io p >>= k).run Q s := by
  change Program.Sat fileCalls others G ((p.bind _).bind _) Q s
  rw [Program.bind_assoc]
  refine Program.Sat.seq hp fun r u hu => ?_
  cases r with
  | ok b => exact hok b u hu
  | error message => exact fun v hv => hQ _ hv (herror message u hu)

lemma sat_stop {a : Except FileError α} (hQ : ∀ a, Stable others (Q a)) (h : Q a s) :
    Program.Sat fileCalls others G (.done a) Q s :=
  fun _ ht => hQ a ht h

/-- An error of this program that is not about another one. -/
def Inner (e : FileError) : Prop := e.isExternalModification = false

/-- A part of a capture keeps `φ`, and its result is `χ`. -/
structure Ended (φ : Disk → Prop) (χ : β → Disk → Prop) (a : Except FileError β) (t : Disk) :
    Prop where
  kept : φ t
  found : ∀ b, a = .ok b → χ b t
  inner : ∀ e, a = .error e → Inner e

lemma Ended.stable {χ : β → Disk → Prop} (hφ : Stable others φ) (hχ : ∀ b, Stable others (χ b))
    (a : Except FileError β) : Stable others (Ended φ χ a) :=
  fun htu h => ⟨hφ htu h.kept, fun b ha => hχ b htu (h.found b ha), h.inner⟩

lemma Ended.failed {χ : β → Disk → Prop} {e : FileError} (ht : φ t) (he : Inner e) :
    Ended φ χ (.error e) t :=
  ⟨ht, by simp, fun _ he' => Except.error.inj he' ▸ he⟩

lemma Ended.done {χ : β → Disk → Prop} {b : β} (ht : φ t) (hb : χ b t) :
    Ended φ χ (.ok b) t :=
  ⟨ht, fun _ hb' => Except.ok.inj hb' ▸ hb, by simp⟩

lemma named_stable (m : DirectFileMetadata) :
    Stable others fun t => Seen H (some F) t ∧ m = metadataOf F :=
  fun htu h => ⟨Seen.stable htu h.1, h.2⟩

/-- `LinuxDirectPolicy::metadata` names the file that is there at the moment. -/
lemma sat_metadata (hG : ∀ o u r, Looks o → G o u r u) (hφ : Stable others φ)
    (hH : ∀ t, φ t → H <:+ t.history) (hstill : ∀ t, φ t → Still file F (fun _ => True) t)
    (hs : φ s) : Program.Sat fileCalls others G (metadata file).run
      (Ended φ fun m => Still file F fun t => Seen H (some F) t ∧ m = metadataOf F) s := by
  have hχ : ∀ r : Except String Stat, Stable others fun t => φ t ∧ ∀ stat, r = .ok stat →
      Still file F (fun t => stat.regular = true → stat.links = 1 → Seen H (some F) t ∧
        stat.mode = F.mode ∧ stat.owner = F.owner) t := by
    intro r t u htu h
    refine ⟨hφ htu h.1, fun stat hr => Still.stable ?_ htu (h.2 stat hr)⟩
    intro v w hvw hv hreg hlinks
    exact ⟨Seen.stable hvw (hv hreg hlinks).1, (hv hreg hlinks).2⟩
  have hQ : ∀ a, Stable others (Ended φ (fun m => Still file F fun t =>
      Seen H (some F) t ∧ m = metadataOf F) a) :=
    Ended.stable hφ fun m => Still.stable (named_stable m)
  unfold metadata
  refine sat_io hQ (sat_look (o := .stat file) trivial hG hφ hχ (fun u r hu hr => ⟨hu, ?_⟩) hs)
    (fun stat u hu => ?_) fun message u hu => .failed hu.1 rfl
  · intro stat hstat
    obtain rfl := hr.2 stat hstat
    refine (hstill u hu).imp fun hF _ hreg hlinks => ?_
    have hname : u.name = some file := by
      by_contra hne
      simp [Disk.stat, hne] at hlinks
    refine ⟨?_, by simp [Disk.stat, hF], by simp [Disk.stat, hF]⟩
    have hnow := Seen.now (hH u hu)
    rwa [hname, Option.map_some, hF] at hnow
  · split
    · exact sat_stop hQ (.failed hu.1 rfl)
    · rename_i hgood
      rw [not_or, not_not, not_not] at hgood
      refine sat_stop hQ (.done hu.1 ((hu.2 stat rfl).imp fun _ h => ?_))
      obtain ⟨hseen, hmode, howner⟩ := h hgood.1 hgood.2
      exact ⟨hseen, by simp [metadataOf, hmode, howner, hgood.2]⟩

/-- As long as the file does not change, its bytes are read one piece after the other. -/
lemma sat_readToEnd {limit : Nat} (hG : ∀ o u r, Looks o → G o u r u) (hφ : Stable others φ)
    {rounds : Nat} {content : List UInt8} (hrounds : limit ≤ rounds + content.length)
    (hcontent : Still file F (fun _ => content <+: F.content) s) (hs : φ s) :
    Program.Sat fileCalls others G (readToEnd file limit rounds content).run
      (Ended φ fun c => Still file F fun _ => c.length < limit → c = F.content) s := by
  have hQ : ∀ a, Stable others (Ended φ (fun c : List UInt8 =>
      Still file F fun _ => c.length < limit → c = F.content) a) :=
    Ended.stable hφ fun _ => Still.stable fun _ h => h
  induction rounds generalizing content s with
  | zero =>
      refine sat_stop hQ (.done hs (hcontent.imp fun _ _ hlt => ?_))
      omega
  | succ rounds ih =>
      have hψ : Stable others fun t => φ t ∧ Still file F (fun _ => content <+: F.content) t :=
        hφ.and (Still.stable fun _ h => h)
      have hχ : ∀ r : Except String (List UInt8), Stable others fun t => φ t ∧
          ∀ bytes, r = .ok bytes → Still file F (fun _ => content ++ bytes <+: F.content ∧
            (bytes = [] → limit ≤ content.length ∨ content = F.content)) t := by
        intro r t u htu h
        exact ⟨hφ htu h.1, fun bytes hr => Still.stable (fun _ h => h) htu (h.2 bytes hr)⟩
      unfold readToEnd
      refine sat_io hQ (sat_look (o := .read file content.length (limit - content.length)) trivial
        hG hψ hχ (fun u r hu hr => ⟨hu.1, fun bytes hbytes => hu.2.imp fun hF hprefix => ?_⟩)
        ⟨hs, hcontent⟩) (fun bytes u hu => ?_) fun message u hu => .failed hu.1 rfl
      · obtain ⟨rest, hrest⟩ := hprefix
        obtain ⟨hread, hend⟩ := hr.2 bytes hbytes
        rw [hF, ← hrest, List.drop_left] at hread hend
        constructor
        · obtain ⟨more, hmore⟩ := hread.trans (List.take_prefix ..)
          exact ⟨more, by rw [← hrest, ← hmore, List.append_assoc]⟩
        · intro hempty
          rcases List.take_eq_nil_iff.mp (hend hempty) with hlimit | hnil
          · exact .inl (by omega)
          · exact .inr (by rw [← hrest, hnil, List.append_nil])
      · obtain ⟨hu, hbytes⟩ := hu
        replace hbytes := hbytes bytes rfl
        split
        · rename_i hempty
          refine sat_stop hQ (.done hu (hbytes.imp fun _ h hlt => ?_))
          exact (h.2 (List.isEmpty_iff.mp hempty)).resolve_left (by omega)
        · rename_i hmore
          have hlength : 0 < bytes.length :=
            List.length_pos_of_ne_nil fun h => hmore (List.isEmpty_iff.mpr h)
          refine ih ?_ (hbytes.imp fun _ h => h.1) hu
          rw [List.length_append]
          omega

/-- What a capture finds. -/
abbrev Captured (H : List (Option File)) (φ : Disk → Prop) :
    Except FileError DirectSnapshot → Disk → Prop :=
  Ended φ fun snapshot t => ∃ x, Seen H x t ∧ snapshotOf x = snapshot

lemma Captured.stable (hφ : Stable others φ) (a : Except FileError DirectSnapshot) :
    Stable others (Captured H φ a) := by
  refine Ended.stable hφ (fun snapshot t u htu h => ?_) a
  obtain ⟨x, hx, hsnapshot⟩ := h
  exact ⟨x, Seen.stable htu hx, hsnapshot⟩

/-- What held of the file as long as it had not changed holds when it is confirmed. -/
lemma sat_confirmUnchanged {before : Stat} {first : DirectFileMetadata}
    (hG : ∀ o u r, Looks o → G o u r u) (hφ : Stable others φ) (hψ : Stable others ψ)
    (hH : ∀ t, φ t → H <:+ t.history) (hchanged : before.changed = F.changed)
    (hstill : Still file F ψ s) (hs : φ s) :
    Program.Sat fileCalls others G (confirmUnchanged resource file before first).run
      (Ended φ fun _ => ψ) s := by
  have hQ := Ended.stable hφ fun _ : Unit => hψ
  have failed : ∀ (e : FileError) (t : Disk), φ t → Inner e →
      Program.Sat fileCalls others G (.done (.error e)) (Ended φ fun _ : Unit => ψ) t :=
    fun e t ht he => sat_stop hQ (.failed ht he)
  have hkept : Stable others fun t => φ t ∧ Still file F ψ t := hφ.and (Still.stable hψ)
  have hafter : ∀ r : Except String Stat, Stable others fun u => (φ u ∧ Still file F ψ u) ∧
      ∀ after, r = .ok after → after.changed = F.changed → ψ u := by
    intro r t u htu h
    exact ⟨hkept htu h.1, fun after hr heq => hψ htu (h.2 after hr heq)⟩
  unfold confirmUnchanged
  refine sat_io hQ (sat_look (o := .stat file) trivial hG hkept hafter
    (fun u r hu hr => ⟨hu, ?_⟩) ⟨hs, hstill⟩) (fun after t ht => ?_)
    fun message t ht => .failed ht.1.1 rfl
  · intro after hr' heq
    obtain rfl := hr.2 after hr'
    exact (hu.2.2 heq).2
  obtain ⟨⟨ht, hstill⟩, hend⟩ := ht
  split
  · exact failed _ t ht rfl
  rename_i hsame
  rw [not_or, not_or, not_not, not_not, not_not] at hsame
  have hshown := hend after rfl (hsame.2.2.symm.trans hchanged)
  have hboth : Stable others fun t => (φ t ∧ Still file F ψ t) ∧ ψ t := hkept.and hψ
  refine sat_bind (sat_metadata hG hboth (fun t ht => hH t ht.1.1)
    (fun t ht => ht.1.2.imp fun _ _ => trivial) ⟨⟨ht, hstill⟩, hshown⟩) (fun second t ht => ?_)
    fun e t ht => failed e t ht.kept.1.1 (ht.inner e rfl)
  split
  · exact failed _ t ht.kept.1.1 rfl
  · exact sat_stop hQ (.done ht.kept.1.1 ht.kept.2)

/-- The file that was opened still had its link when it was first looked at, and if it is confirmed
at the end, it was all the time what it was then. -/
lemma sat_readOpened (hG : ∀ o u r, Looks o → G o u r u) (hφ : Stable others φ)
    (hH : ∀ t, φ t → H <:+ t.history) (hs : φ s) :
    Program.Sat fileCalls others G (readOpened resource file).run (Captured H φ) s := by
  have hQ := Captured.stable (H := H) hφ
  have failed : ∀ (e : FileError) (t : Disk), φ t → Inner e →
      Program.Sat fileCalls others G (.done (.error e)) (Captured H φ) t :=
    fun e t ht he => sat_stop hQ (.failed ht he)
  unfold readOpened
  have hstat : ∀ r : Except String Stat, Stable others fun u => φ u ∧ ∀ before, r = .ok before →
      ∃ F, Still file F (fun _ => True) u ∧ before.changed = F.changed := by
    intro r t u htu h
    refine ⟨hφ htu h.1, fun before hr => ?_⟩
    obtain ⟨F, hF, hchanged⟩ := h.2 before hr
    exact ⟨F, Still.stable (fun _ h => h) htu hF, hchanged⟩
  refine sat_io hQ (sat_look (o := .stat file) trivial hG hφ hstat (fun u r hu hr => ⟨hu, ?_⟩) hs)
    (fun before t ht => ?_) fun message t ht => .failed ht.1 rfl
  · intro before hbefore
    obtain rfl := hr.2 before hbefore
    exact ⟨u.files file, ⟨le_rfl, fun _ => ⟨rfl, trivial⟩⟩, rfl⟩
  obtain ⟨ht, hbefore⟩ := ht
  obtain ⟨F, hstill, hchanged⟩ := hbefore before rfl
  split
  · exact failed _ t ht rfl
  -- From here on the file is `F`, unless its change time says otherwise.
  have hkept : Stable others fun t => φ t ∧ Still file F (fun _ => True) t :=
    hφ.and (Still.stable fun _ h => h)
  refine sat_bind (sat_metadata hG hkept (fun t ht => hH t ht.1) (fun t ht => ht.2) ⟨ht, hstill⟩)
    (fun first t ht => ?_) fun e t ht => failed e t ht.kept.1 (ht.inner e rfl)
  obtain ⟨⟨ht, hstill⟩, hfirst, -⟩ := ht
  have hlinked : Stable others fun t => φ t ∧
      Still file F (fun t => Seen H (some F) t ∧ first = metadataOf F) t :=
    hφ.and (Still.stable (named_stable first))
  refine sat_bind (sat_readToEnd hG hlinked (by simp) (hstill.imp fun _ _ => List.nil_prefix)
    ⟨ht, hfirst first rfl⟩) (fun content t ht => ?_) fun e t ht => failed e t ht.kept.1 (ht.inner e rfl)
  obtain ⟨⟨ht, hseen⟩, hread, -⟩ := ht
  replace hread := hread content rfl
  split
  · exact failed _ t ht rfl
  rename_i hbudget
  have hshown : Still file F (fun t => Seen H (some F) t ∧
      snapshotOf (some F) = ⟨some content, some first⟩) t := by
    refine ⟨hseen.1, fun heq => ?_⟩
    obtain ⟨hF, hlink, hmetadata⟩ := hseen.2 heq
    refine ⟨hF, hlink, ?_⟩
    rw [(hread.2 heq).2 (by omega), hmetadata]
    rfl
  have hshows : Stable others fun t => Seen H (some F) t ∧
      snapshotOf (some F) = ⟨some content, some first⟩ :=
    fun htu h => ⟨Seen.stable htu h.1, h.2⟩
  refine sat_bind (sat_confirmUnchanged hG hφ hshows hH hchanged hshown ht) (fun _ t ht => ?_)
    fun e t ht => failed e t ht.kept (ht.inner e rfl)
  obtain ⟨hlink, hsnapshot⟩ := ht.found () rfl
  exact sat_stop hQ (.done ht.kept ⟨some F, hlink, hsnapshot⟩)

/-- A snapshot is of what the name stood for at one moment of the capture. -/
lemma sat_readCurrent (hG : ∀ o u r, Looks o → G o u r u) (hφ : Stable others φ)
    (hH : ∀ t, φ t → H <:+ t.history) (hs : φ s) :
    Program.Sat fileCalls others G (readCurrent resource).run (Captured H φ) s := by
  have hQ := Captured.stable (H := H) hφ
  have failed : ∀ (e : FileError) (t : Disk), φ t → Inner e →
      Program.Sat fileCalls others G (.done (.error e)) (Captured H φ) t :=
    fun e t ht he => sat_stop hQ (.failed ht he)
  unfold readCurrent
  have husable : ∀ r : Except FileError Unit, Stable others fun u => φ u ∧
      ∀ e, r = .error e → Inner e := by
    intro r t u htu h
    exact ⟨hφ htu h.1, h.2⟩
  refine sat_bind (sat_look (o := .checkUsable) trivial hG hφ husable
    (fun u r hu hr => ⟨hu, hr.2⟩) hs) (fun _ t ht => ?_) fun e t ht =>
      failed e t ht.1 (ht.2 e rfl)
  have hopen : ∀ r : Except OpenFault Nat, Stable others fun u => φ u ∧
      (r = .error .notFound → Seen H none u) := by
    intro r t u htu h
    exact ⟨hφ htu h.1, fun hr => Seen.stable htu (h.2 hr)⟩
  refine sat_value (sat_look (o := .openFile) trivial hG hφ hopen
    (fun u r hu hr => ⟨hu, fun hr' => ?_⟩) ht.1) fun r t ht => ?_
  · have hnow := Seen.now (hH u hu)
    rwa [hr.2.2 hr', Option.map_none] at hnow
  split
  · exact sat_stop hQ (.done ht.1 ⟨none, ht.2 rfl, rfl⟩)
  · exact failed _ t ht.1 rfl
  · exact sat_readOpened hG hφ hH ht.1

/-- Whatever other programs do to the file, a capture changes nothing, and when it succeeds its
content and metadata are valid and those of one moment since it began. -/
theorem capture_of_one_moment (resource : ResourceId) (s : Disk) :
    Program.Sat fileCalls others (fun _ u _ v => v = u) (readCurrent resource).run
      (fun a t => ∀ snapshot, a = .ok snapshot → snapshot.validate = .ok () ∧
        ∃ x, Seen s.history x t ∧ snapshotOf x = snapshot) s := by
  have hφ : Stable others fun t => s.history <:+ t.history := fun hst h => h.trans hst.history
  refine Program.Sat.mono (fun a t h snapshot ha => ?_)
    (sat_readCurrent (fun _ _ _ _ => rfl) hφ (fun _ h => h) List.suffix_rfl)
  obtain ⟨x, hx, rfl⟩ := h.found snapshot ha
  exact ⟨validate_snapshotOf x, x, hx, rfl⟩

end Reading

end Direct

end Osdns
