import Mathlib.Data.List.AList

/-!
# Dictionaries as lists of entries

A dictionary is an `AList`; code that takes it apart works on its list of entries.  What is kept of
the entries by their keys is looked up as it was, and a dictionary is known by its lookups.
-/

namespace Dictionaries

variable {κ ν : Type} [DecidableEq κ]

/-- Entries that are kept by their keys. -/
lemma dlookup_filter (keep : κ → Bool) (entries : List (Sigma fun _ : κ => ν)) (key : κ) :
    (entries.filter fun entry => keep entry.1).dlookup key =
      if keep key then entries.dlookup key else none := by
  induction entries with
  | nil => simp
  | cons entry entries ih =>
      obtain ⟨name, value⟩ := entry
      rw [List.filter_cons]
      by_cases same : key = name
      · subst same
        cases kept : keep key with
        | true => rw [if_pos rfl, if_pos rfl, List.dlookup_cons_eq, List.dlookup_cons_eq]
        | false => simpa [kept] using ih
      · rw [List.dlookup_cons_ne entries ⟨name, value⟩ same, ← ih]
        cases kept : keep name with
        | true => exact List.dlookup_cons_ne _ _ same
        | false => rfl

/-- A list of entries is empty when no key is found in it. -/
lemma entries_eq_nil_iff {entries : List (Sigma fun _ : κ => ν)} :
    entries = [] ↔ ∀ key, entries.dlookup key = none := by
  constructor
  · rintro rfl key
    rfl
  · intro h
    cases entries with
    | nil => rfl
    | cons entry entries =>
        have found := h entry.1
        rw [List.dlookup_cons_eq] at found
        cases found

/-- A loop that stops at the first error finds none exactly when no element has one. -/
lemma forM_eq_ok {α ε : Type} {f : α → Except ε Unit} {l : List α} :
    l.forM f = .ok () ↔ ∀ x ∈ l, f x = .ok () := by
  induction l with
  | nil => exact ⟨fun _ x hx => (by cases hx), fun _ => rfl⟩
  | cons x l ih =>
      rw [List.forall_mem_cons, ← ih]
      change (f x >>= fun _ => l.forM f) = _ ↔ _
      cases f x with
      | error e =>
          constructor
          · intro h
            cases h
          · rintro ⟨h, _⟩
            cases h
      | ok _ => exact ⟨fun h => ⟨rfl, h⟩, And.right⟩

end Dictionaries
