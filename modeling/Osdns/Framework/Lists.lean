import Mathlib.Data.List.DropRight
import Mathlib.Data.List.Nodup

/-!
# Lists that are collected, cut and joined

Values collected without duplicates (`collectNew`), a list in pieces of bounded length (`chunks`)
and texts joined by a separator.
-/

namespace Listing

variable {α β : Type}

/-! ## Without duplicates -/

section Collect

variable [DecidableEq α]

/-- A value is pushed unless the list contains it. -/
def pushNew (found : List α) (x : α) : List α := if x ∈ found then found else found ++ [x]

/-- The values are pushed one after another, each unless the list contains it. -/
def collectNew (found new : List α) : List α := new.foldl pushNew found

/-- The first occurrences of the values of a list. -/
def dedupe (l : List α) : List α := collectNew [] l

lemma mem_pushNew {found : List α} {x y : α} : y ∈ pushNew found x ↔ y ∈ found ∨ y = x := by
  unfold pushNew
  split
  · next hx => exact ⟨.inl, fun h => h.elim id fun heq => heq ▸ hx⟩
  · simp

lemma nodup_pushNew {found : List α} {x : α} (h : found.Nodup) : (pushNew found x).Nodup := by
  unfold pushNew
  split
  · exact h
  · next hx => exact List.nodup_append.mpr ⟨h, List.nodup_singleton x, by
      rintro y hy z hz rfl
      exact hx (List.mem_singleton.mp hz ▸ hy)⟩

@[simp] lemma collectNew_nil {found : List α} : collectNew found [] = found := rfl

lemma collectNew_cons {found new : List α} {x : α} :
    collectNew found (x :: new) = collectNew (pushNew found x) new := rfl

lemma collectNew_append {found new more : List α} :
    collectNew found (new ++ more) = collectNew (collectNew found new) more := List.foldl_append

lemma mem_collectNew {found new : List α} {y : α} :
    y ∈ collectNew found new ↔ y ∈ found ∨ y ∈ new := by
  induction new generalizing found with
  | nil => simp
  | cons x new ih =>
      rw [collectNew_cons, ih, mem_pushNew, List.mem_cons]
      tauto

lemma nodup_collectNew {found new : List α} (h : found.Nodup) : (collectNew found new).Nodup := by
  induction new generalizing found with
  | nil => exact h
  | cons x new ih => exact ih (nodup_pushNew h)

/-- Values that the list contains are not pushed again. -/
lemma collectNew_of_subset {found new : List α} (h : new ⊆ found) :
    collectNew found new = found := by
  induction new with
  | nil => rfl
  | cons x new ih =>
      obtain ⟨hx, hnew⟩ := List.cons_subset.mp h
      rw [collectNew_cons, pushNew, if_pos hx]
      exact ih hnew

/-- New values without duplicates are all pushed. -/
lemma collectNew_of_nodup {found new : List α} (h : new.Nodup) (hnew : ∀ x ∈ new, x ∉ found) :
    collectNew found new = found ++ new := by
  induction new generalizing found with
  | nil => simp
  | cons x new ih =>
      obtain ⟨hx, hrest⟩ := List.nodup_cons.mp h
      rw [collectNew_cons, pushNew, if_neg (hnew x List.mem_cons_self), ih hrest]
      · simp
      · intro y hy hmem
        rcases List.mem_append.mp hmem with hmem | hmem
        · exact hnew y (List.mem_cons_of_mem x hy) hmem
        · exact hx (List.mem_singleton.mp hmem ▸ hy)

/-- Values that are computed one after another and collected. -/
lemma collectM_spec {f : β → Option α} {l : List β} {found built : List α}
    (h : l.foldlM (fun found x => (f x).map (pushNew found)) found = some built) :
    (found.Nodup → built.Nodup) ∧ (∀ y, y ∈ built ↔ y ∈ found ∨ ∃ x ∈ l, f x = some y) ∧
      ∀ x ∈ l, ∃ y, f x = some y := by
  induction l generalizing found with
  | nil =>
      cases h
      simp
  | cons x l ih =>
      rw [List.foldlM_cons] at h
      obtain ⟨next, hnext, h⟩ := Option.bind_eq_some_iff.mp h
      obtain ⟨y, hy, rfl⟩ := Option.map_eq_some_iff.mp hnext
      obtain ⟨hnodup, hmem, hall⟩ := ih h
      refine ⟨fun hfound => hnodup (nodup_pushNew hfound), fun z => ?_, ?_⟩
      · rw [hmem, mem_pushNew]
        simp only [List.mem_cons, exists_eq_or_imp, hy, Option.some.injEq, eq_comm (a := y)]
        tauto
      · simp only [List.mem_cons, forall_eq_or_imp]
        exact ⟨⟨y, hy⟩, hall⟩

lemma mem_dedupe {l : List α} {y : α} : y ∈ dedupe l ↔ y ∈ l := by
  simp [dedupe, mem_collectNew]

lemma nodup_dedupe {l : List α} : (dedupe l).Nodup := nodup_collectNew List.nodup_nil

lemma dedupe_of_nodup {l : List α} (h : l.Nodup) : dedupe l = l := by
  rw [dedupe, collectNew_of_nodup h (by simp), List.nil_append]

end Collect

/-! ## Pieces -/

/-- At most `fuel` pieces of `n` entries, the last one shorter. -/
def pieces (n : Nat) : Nat → List α → List (List α)
  | 0, _ => []
  | _ + 1, [] => []
  | fuel + 1, x :: l => (x :: l).take n :: pieces n fuel ((x :: l).drop n)

/-- `slice::chunks`. -/
def chunks (n : Nat) (l : List α) : List (List α) := pieces n l.length l

section Chunks

variable {n fuel : Nat} {l piece : List α}

lemma flatten_pieces (hn : 0 < n) (hl : l.length ≤ fuel) : (pieces n fuel l).flatten = l := by
  induction fuel generalizing l with
  | zero =>
      have hnil : l = [] := List.length_eq_zero_iff.mp (Nat.le_zero.mp hl)
      rw [hnil]
      rfl
  | succ fuel ih =>
      cases l with
      | nil => rfl
      | cons x l =>
          have hrest : ((x :: l).drop n).length ≤ fuel := by
            rw [List.length_drop, List.length_cons]
            rw [List.length_cons] at hl
            omega
          rw [pieces, List.flatten_cons, ih hrest, List.take_append_drop]

lemma length_mem_pieces (hn : 0 < n) (hp : piece ∈ pieces n fuel l) :
    1 ≤ piece.length ∧ piece.length ≤ n := by
  induction fuel generalizing l with
  | zero => cases hp
  | succ fuel ih =>
      cases l with
      | nil => cases hp
      | cons x l =>
          rw [pieces, List.mem_cons] at hp
          rcases hp with rfl | hp
          · rw [List.length_take, List.length_cons]
            omega
          · exact ih hp

lemma flatten_chunks (hn : 0 < n) : (chunks n l).flatten = l := flatten_pieces hn (Nat.le_refl _)

lemma length_mem_chunks (hn : 0 < n) (hp : piece ∈ chunks n l) :
    1 ≤ piece.length ∧ piece.length ≤ n := length_mem_pieces hn hp

lemma ne_nil_of_mem_chunks (hn : 0 < n) (hp : piece ∈ chunks n l) : piece ≠ [] := by
  have := (length_mem_chunks hn hp).1
  exact List.ne_nil_of_length_pos this

/-- An entry is in some piece. -/
lemma exists_mem_chunks (hn : 0 < n) {x : α} : x ∈ l ↔ ∃ piece ∈ chunks n l, x ∈ piece := by
  conv_lhs => rw [← flatten_chunks (l := l) hn]
  exact List.mem_flatten

/-- The pieces of a list without duplicates are different. -/
lemma nodup_chunks (hn : 0 < n) (h : l.Nodup) : (chunks n l).Nodup := by
  rw [← flatten_chunks (l := l) hn] at h
  refine (List.nodup_flatten.mp h).2.imp_of_mem fun {a b} ha _ hdisjoint heq => ?_
  obtain ⟨x, hx⟩ := List.exists_mem_of_ne_nil _ (ne_nil_of_mem_chunks hn ha)
  exact hdisjoint hx (heq ▸ hx)

end Chunks

/-! ## Joined texts -/

section Join

variable {p : α → Bool} {sep : α} {ls ls' : List (List α)}

/-- Texts without separators are the parts of the joined text. -/
lemma splitOnP_intercalate (hsep : p sep = true) (hn : ls ≠ [])
    (plain : ∀ l ∈ ls, ∀ c ∈ l, p c = false) : ([sep].intercalate ls).splitOnP p = ls := by
  induction ls with
  | nil => exact absurd rfl hn
  | cons l ls ih =>
      cases ls with
      | nil => simpa using List.splitOnP_eq_singleton (plain l List.mem_cons_self)
      | cons l' ls =>
          rw [List.intercalate_cons_cons, List.append_assoc]
          simp only [List.cons_append, List.nil_append]
          rw [List.splitOnP_append_cons_of_forall_mem (plain l List.mem_cons_self) sep hsep,
            ih (by simp) fun l hl => plain l (List.mem_cons_of_mem _ hl)]

/-- Joining texts without separators loses nothing. -/
lemma intercalate_inj [DecidableEq α] (hn : ls ≠ []) (hn' : ls' ≠ [])
    (plain : ∀ l ∈ ls, sep ∉ l) (plain' : ∀ l ∈ ls', sep ∉ l)
    (h : [sep].intercalate ls = [sep].intercalate ls') : ls = ls' := by
  have split : ∀ {texts : List (List α)}, texts ≠ [] → (∀ l ∈ texts, sep ∉ l) →
      ([sep].intercalate texts).splitOnP (· == sep) = texts := fun hne hplain =>
    splitOnP_intercalate (by simp) hne fun l hl c hc => by
      simpa using fun heq : c = sep => hplain l hl (heq ▸ hc)
  rw [← split hn plain, h, split hn' plain']

end Join

end Listing
