import Mathlib.Algebra.Order.Group.Defs
import Mathlib.Data.List.Basic

/-!
Times at which something has happened, how many of them fall into an interval of a given
length, and a counter of those since an origin.

`Within width bound times` says that no closed interval of length `width` has more than
`bound` of the times. A counter keeps this as long as every interval with a time from before
its origin has none from after it (`Since.apart`), which is what has to be asked when the
counter starts again (`Within.restart`).
-/

namespace TalentTrust.Lib

variable {α : Type*} [AddCommGroup α] [LinearOrder α]

/-- How many of the times are in the interval of length `width` from `first`. -/
def countWithin (width first : α) (times : List α) : ℕ :=
  times.countP fun t => first ≤ t ∧ t ≤ first + width

def Within (width : α) (bound : ℕ) (times : List α) : Prop :=
  ∀ first, countWithin width first times ≤ bound

/-- A counter that started at `origin` has counted every time since then, and no interval has a
time from before the origin and one from after it. -/
structure Since (width origin : α) (count : ℕ) (times : List α) : Prop where
  apart : ∀ t ∈ times, origin ≤ t ∨ width < origin - t
  counted : times.countP (origin ≤ ·) ≤ count

theorem countWithin_concat (width first now : α) (times : List α) :
    countWithin width first (times ++ [now]) =
      countWithin width first times + if first ≤ now ∧ now ≤ first + width then 1 else 0 := by
  simp [countWithin]

variable {width origin now : α} {bound count : ℕ} {times : List α}

theorem within_nil (width : α) (bound : ℕ) : Within width bound [] := fun _ => Nat.zero_le _

theorem Since.concat (since : Since width origin count times) (started : origin ≤ now) :
    Since width origin (count + 1) (times ++ [now]) where
  apart := List.forall_mem_append.mpr ⟨since.apart, List.forall_mem_singleton.mpr (.inl started)⟩
  counted := by
    have := since.counted
    simp only [List.countP_append, List.countP_singleton]
    split <;> omega

theorem Since.mono {count' : ℕ} (since : Since width origin count times) (le : count ≤ count') :
    Since width origin count' times :=
  ⟨since.apart, since.counted.trans le⟩

variable [IsOrderedAddMonoid α]

/-- A time that is more than the width after all others has an interval to itself. -/
theorem Within.restart (within : Within width bound times) (room : 1 ≤ bound)
    (later : ∀ t ∈ times, width < now - t) : Within width bound (times ++ [now]) := by
  intro first
  rw [countWithin_concat]
  split
  · rename_i inside
    have none : countWithin width first times = 0 := by
      refine List.countP_eq_zero.mpr fun t mem => ?_
      simp only [decide_eq_true_eq, not_and]
      intro after _
      have near : now - t ≤ width :=
        sub_le_iff_le_add'.mpr (inside.2.trans (add_le_add_left after width))
      exact absurd (later t mem) near.not_gt
    omega
  · exact within first

/-- A time that the counter counts is in an interval with counted times only. -/
theorem Within.proceed (within : Within width bound times) (since : Since width origin count times)
    (started : origin ≤ now) (room : count + 1 ≤ bound) : Within width bound (times ++ [now]) := by
  intro first
  rw [countWithin_concat]
  split
  · rename_i inside
    have counted : countWithin width first times ≤ times.countP (origin ≤ ·) := by
      refine List.countP_mono_left fun t mem => ?_
      simp only [decide_eq_true_eq]
      rintro ⟨after, -⟩
      rcases since.apart t mem with counted | before
      · exact counted
      · -- Then the interval, which has the new time, would be longer than the width.
        have long : width < now - first :=
          before.trans_le ((sub_le_sub_right started t).trans (sub_le_sub_left after now))
        exact absurd inside.2 (by rw [not_le, add_comm]; exact lt_sub_iff_add_lt.mp long)
    have := since.counted
    omega
  · exact within first

theorem since_restart (nonneg : 0 ≤ width) (later : ∀ t ∈ times, width < now - t) :
    Since width now 0 times where
  apart t mem := .inr (later t mem)
  counted := by
    refine (List.countP_eq_zero.mpr fun t mem => ?_).le
    simp only [decide_eq_true_eq, not_le]
    exact sub_pos.mp (nonneg.trans_lt (later t mem))

end TalentTrust.Lib
