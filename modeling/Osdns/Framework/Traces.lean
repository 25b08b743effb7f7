import Mathlib.Data.List.Induction

/-!
# Runs of a partial step function

`actions.foldlM perform s = some t` says that the actions can be performed one after another from
`s`, and end in `t`.  An invariant may speak of the actions performed so far.
-/

namespace Transition

variable {σ α : Type} {perform : σ → α → Option σ}

end Transition
