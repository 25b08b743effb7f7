import Mathlib.Data.List.Nodup
import Mathlib.Data.Set.Lattice

/-!
# Selecting by cost

The elements of least cost, as a set (`Cheapest`) and as a computed list (`cheapest`), and what it
means that they point at one thing only (`OnlyOutput`).
-/

namespace Selection

variable {α β γ ε : Type}

/-! ## Least cost -/

/-- The elements of least cost. -/
def Cheapest [LE β] (cost : α → β) (s : Set α) : Set α := {x ∈ s | ∀ y ∈ s, cost x ≤ cost y}

/-- The entries of least cost of a list. -/
def cheapest [Min β] [DecidableEq β] (cost : α → β) (l : List α) : List α :=
  match (l.map cost).min? with
  | none => []
  | some best => l.filter fun x => cost x = best

section Order

variable [LE β] [Min β] [DecidableEq β] [Std.IsLinearOrder β] [Std.LawfulOrderMin β]

lemma mem_cheapest {cost : α → β} {l : List α} {x : α} :
    x ∈ cheapest cost l ↔ x ∈ Cheapest cost {y | y ∈ l} := by
  unfold cheapest
  cases hmin : (l.map cost).min? with
  | none =>
      have hl : l = [] := by simpa using hmin
      subst hl
      simp [Cheapest]
  | some best =>
      rw [List.min?_eq_some_iff] at hmin
      obtain ⟨hbest, hle⟩ := hmin
      obtain ⟨b, hb, rfl⟩ := List.mem_map.mp hbest
      simp only [List.mem_filter, decide_eq_true_eq, Cheapest, Set.mem_ofPred_eq]
      constructor
      · rintro ⟨hx, heq⟩
        exact ⟨hx, fun y hy => heq ▸ hle (cost y) (List.mem_map_of_mem hy)⟩
      · rintro ⟨hx, hmin⟩
        exact ⟨hx, Std.le_antisymm (hmin b hb) (hle (cost x) (List.mem_map_of_mem hx))⟩

end Order

/-! ## One output -/

/-- Every chosen element has an output, and `i` is the only output any of them has. -/
def OnlyOutput (outputs : α → Set γ) (chosen : Set α) (i : γ) : Prop :=
  (∀ x ∈ chosen, (outputs x).Nonempty) ∧ ⋃ x ∈ chosen, outputs x = {i}

/-- Choices that match each other, output by output, point at the same thing. -/
lemma OnlyOutput.of_matching {outputs : α → Set γ} {chosen chosen' : Set α} {i : γ}
    (h : OnlyOutput outputs chosen i)
    (hto : ∀ x ∈ chosen, ∃ y ∈ chosen', outputs y = outputs x)
    (hfrom : ∀ y ∈ chosen', ∃ x ∈ chosen, outputs y = outputs x) :
    OnlyOutput outputs chosen' i := by
  constructor
  · intro y hy
    obtain ⟨x, hx, heq⟩ := hfrom y hy
    rw [heq]
    exact h.1 x hx
  · rw [← h.2]
    apply Set.Subset.antisymm
    · intro j hj
      obtain ⟨y, hy, hj⟩ := Set.mem_iUnion₂.mp hj
      obtain ⟨x, hx, heq⟩ := hfrom y hy
      exact Set.mem_iUnion₂.mpr ⟨x, hx, heq ▸ hj⟩
    · intro j hj
      obtain ⟨x, hx, hj⟩ := Set.mem_iUnion₂.mp hj
      obtain ⟨y, hy, heq⟩ := hto x hx
      exact Set.mem_iUnion₂.mpr ⟨y, hy, heq ▸ hj⟩

/-! ## Sets collected in a list -/

section Collecting

variable [DecidableEq γ]

/-- `Extend::extend` on a set. -/
def insertAll (found new : List γ) : List γ := new.foldl (fun found i => found.insert i) found

lemma mem_insertAll {found new : List γ} {i : γ} :
    i ∈ insertAll found new ↔ i ∈ found ∨ i ∈ new := by
  induction new generalizing found with
  | nil => simp [insertAll]
  | cons j new ih =>
      have step : insertAll found (j :: new) = insertAll (found.insert j) new := rfl
      rw [step, ih, List.mem_insert_iff, List.mem_cons]
      tauto

lemma nodup_insertAll {found new : List γ} (h : found.Nodup) : (insertAll found new).Nodup := by
  induction new generalizing found with
  | nil => exact h
  | cons j new ih => exact ih (List.Nodup.insert h)

lemma insertAll_append {found new more : List γ} :
    insertAll found (new ++ more) = insertAll (insertAll found new) more :=
  List.foldl_append

/-- A loop that adds what each entry names and stops at an entry it refuses. -/
lemma foldlM_insertAll {step : List γ → α → Except ε (List γ)} {P : α → Prop} {named : α → List γ}
    {l : List α} {found final : List γ}
    (h : ∀ x ∈ l, ∀ found new, step found x = .ok new ↔ P x ∧ new = insertAll found (named x)) :
    l.foldlM step found = .ok final ↔
      (∀ x ∈ l, P x) ∧ final = insertAll found (l.flatMap named) := by
  induction l generalizing found with
  | nil =>
      show Except.ok found = Except.ok final ↔ _
      simp [insertAll, eq_comm]
  | cons x l ih =>
      have hx := h x List.mem_cons_self found
      have hl := fun y hy => h y (List.mem_cons_of_mem x hy)
      rw [List.foldlM_cons, List.flatMap_cons, insertAll_append, List.forall_mem_cons]
      cases hs : step found x with
      | error e =>
          have hP : ¬ P x := fun hP => by
            have := (hx (insertAll found (named x))).mpr ⟨hP, rfl⟩
            rw [hs] at this
            cases this
          constructor
          · intro habs
            cases habs
          · exact fun hr => absurd hr.1.1 hP
      | ok new =>
          obtain ⟨hP, rfl⟩ := (hx new).mp hs
          show l.foldlM step _ = .ok final ↔ _
          rw [ih hl]
          exact ⟨fun hr => ⟨⟨hP, hr.1⟩, hr.2⟩, fun hr => ⟨hr.1.2, hr.2⟩⟩

end Collecting

/-- A collected set with one member. -/
lemma eq_singleton_iff {l : List γ} {i : γ} (h : l.Nodup) : l = [i] ↔ {j | j ∈ l} = {i} := by
  constructor
  · rintro rfl
    ext j
    simp
  · intro hl
    have hmem : ∀ j, j ∈ l ↔ j = i := fun j => Set.ext_iff.mp hl j
    rcases l with _ | ⟨j, _ | ⟨k, l⟩⟩
    · exact absurd ((hmem i).mpr rfl) (by simp)
    · rw [(hmem j).mp (by simp)]
    · have hj : j = i := (hmem j).mp (by simp)
      have hk : k = i := (hmem k).mp (by simp)
      simp [hj, hk] at h

/-! ## A value given once -/

lemma findSome?_eq_some_iff {f : α → Option β} {l : List α} {b : β}
    (unique : ∀ x ∈ l, ∀ y ∈ l, (f x).isSome → (f y).isSome → x = y) :
    l.findSome? f = some b ↔ ∃ a ∈ l, f a = some b := by
  constructor
  · exact List.exists_of_findSome?_eq_some
  · rintro ⟨a, ha, hb⟩
    cases hf : l.findSome? f with
    | none => simp [List.findSome?_eq_none_iff.mp hf a ha] at hb
    | some c =>
        obtain ⟨d, hd, hc⟩ := List.exists_of_findSome?_eq_some hf
        obtain rfl := unique a ha d hd (by simp [hb]) (by simp [hc])
        rw [← hb, ← hc]

/-- A value that is given at most once is found in any order. -/
lemma findSome?_perm {f : α → Option β} {l l' : List α} (h : l.Perm l')
    (unique : ∀ x ∈ l, ∀ y ∈ l, (f x).isSome → (f y).isSome → x = y) :
    l'.findSome? f = l.findSome? f := by
  apply Option.ext
  intro b
  rw [findSome?_eq_some_iff unique, findSome?_eq_some_iff fun x hx y hy =>
    unique x (h.mem_iff.mpr hx) y (h.mem_iff.mpr hy)]
  simp only [h.mem_iff]

end Selection
