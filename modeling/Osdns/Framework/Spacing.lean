import Mathlib.Data.List.TakeWhile

/-!
# Elements that are some places apart

`Spaced k apart l` says that of any `k + 1` consecutive elements of `l` the first and the last are
related.  A list that grows at its end stays spaced when the new element is far enough from the one
`k` places before it.
-/

namespace Spacing

variable {α : Type}

/-- The first and the last of `k + 1` consecutive elements are related, for a positive `k`. -/
def Spaced (k : Nat) (apart : α → α → Prop) (l : List α) : Prop :=
  ∀ before first between last after, l = before ++ first :: (between ++ last :: after) →
    between.length + 1 = k → apart first last

variable {k : Nat} {apart : α → α → Prop} {l : List α} {x : α}

lemma spaced_nil : Spaced k apart [] := by
  intro before first between last after h
  simp at h

/-- The new last element is compared with the one `k` places before it. -/
lemma Spaced.concat (spaced : Spaced k apart l)
    (far : ∀ before first between, l = before ++ first :: between → between.length + 1 = k →
      apart first x) : Spaced k apart (l ++ [x]) := by
  intro before first between last after h hk
  rcases List.eq_nil_or_concat after with rfl | ⟨after, y, rfl⟩
  · have parts : l ++ [x] = (before ++ first :: between) ++ [last] := by simpa using h
    obtain ⟨hl, hx⟩ := List.append_inj' parts rfl
    cases hx
    exact far before first between hl hk
  · have parts : l ++ [x] = (before ++ first :: (between ++ last :: after)) ++ [y] := by
      simpa using h
    exact spaced before first between last after (List.append_inj' parts rfl).1 hk

/-- An element with at least as many behind it as the second part has lies in the first part. -/
lemma mem_left_of_append {l r before between : List α} {first : α}
    (h : l ++ r = before ++ first :: between) (short : r.length ≤ between.length) : first ∈ l := by
  rcases List.append_eq_append_iff.mp h with ⟨more, _, hr⟩ | ⟨more, hl, hr⟩
  · have := congrArg List.length hr
    simp only [List.length_append, List.length_cons] at this
    omega
  · cases more with
    | nil =>
        have := congrArg List.length hr
        simp only [List.nil_append, List.length_cons] at this
        omega
    | cons y more =>
        cases hr
        rw [hl]
        exact List.mem_append_right _ List.mem_cons_self

/-- What `dropWhile` leaves is a suffix, and what it drops passes the test. -/
lemma dropWhile_split (p : α → Bool) (l : List α) :
    ∃ dropped, l = dropped ++ l.dropWhile p ∧ ∀ a ∈ dropped, p a = true :=
  ⟨l.takeWhile p, List.takeWhile_append_dropWhile.symm, fun _ ha => List.mem_takeWhile_imp ha⟩

end Spacing
