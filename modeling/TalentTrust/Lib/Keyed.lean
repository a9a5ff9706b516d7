import Mathlib.Data.List.Basic

/-!
Loops over operations that each touch one key.

`view s k` is what a state holds at a key. An operation with argument `x` acts at
`key x` only, and only if `x` is `chosen`; what it does there, done twice, is done
once. Then a loop over a list of arguments acts once at every key of a chosen one
(`view_foldl`), in whatever order the list is and however often a key occurs.
-/

namespace TalentTrust.Lib

universe u v w x

variable {S : Type u} {K : Type v} {C : Type w} {X : Type x} [DecidableEq K]
  {view : S → K → C} {act : S → X → S} {key : X → K} {chosen : X → Bool} {f : K → C → C}

theorem view_foldl (acts : ∀ s x k, view (act s x) k =
      if chosen x = true ∧ k = key x then f k (view s k) else view s k)
    (idempotent : ∀ k c, f k (f k c) = f k c) (xs : List X) (s : S) (k : K) :
    view (xs.foldl act s) k =
      if ∃ x ∈ xs, chosen x = true ∧ k = key x then f k (view s k) else view s k := by
  induction xs generalizing s with
  | nil => simp
  | cons x xs ih =>
    rw [List.foldl_cons, ih, acts]
    by_cases here : chosen x = true ∧ k = key x
    · have some_x : ∃ y ∈ x :: xs, chosen y = true ∧ k = key y := ⟨x, List.mem_cons_self, here⟩
      rw [if_pos here, if_pos some_x, idempotent, ite_self]
    · have same : (∃ y ∈ x :: xs, chosen y = true ∧ k = key y) ↔
          ∃ y ∈ xs, chosen y = true ∧ k = key y := by
        simp only [List.mem_cons, or_and_right, exists_or, exists_eq_left, or_iff_right here]
      simp only [if_neg here, same]

/-- When the arguments without a key in the list are left alone anyway, the loop acts at
every key. -/
theorem view_foldl_of_forall (acts : ∀ s x k, view (act s x) k =
      if chosen x = true ∧ k = key x then f k (view s k) else view s k)
    (idempotent : ∀ k c, f k (f k c) = f k c) {xs : List X} {s : S} {k : K}
    (rest : (¬ ∃ x ∈ xs, chosen x = true ∧ k = key x) → f k (view s k) = view s k) :
    view (xs.foldl act s) k = f k (view s k) := by
  rw [view_foldl acts idempotent]
  split
  · rfl
  · rename_i none_chosen
    exact (rest none_chosen).symm

end TalentTrust.Lib
