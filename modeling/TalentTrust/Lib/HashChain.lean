import Mathlib.Data.List.Basic
import Mathlib.Data.List.Induction

/-!
Hash chains.

An entry carries the hash of its predecessor, `prev`, and its own, `own`; a
chain begins from `genesis`. `digest` is what the own hash should be. A walk
along the chain checks both hashes of each entry and stops at the first that
fails. When digests bind their entries, the last hash of a chain determines the
whole chain (`Chained.eq_of_tip_eq`), its length included, since no digest is
the genesis hash.
-/

namespace TalentTrust.Lib

universe u v

variable {E : Type u} {H : Type v} {prev own digest : E → H}

/-- Every entry carries the hash of its predecessor, and its own digest. -/
def Chained (prev own digest : E → H) : H → List E → Prop
  | _, [] => True
  | expected, e :: es => prev e = expected ∧ own e = digest e ∧ Chained prev own digest (own e) es

/-- The hash the next entry has to carry. -/
def tip (own : E → H) (genesis : H) (es : List E) : H := (es.getLast?.map own).getD genesis

@[simp] theorem tip_nil (genesis : H) : tip own genesis [] = genesis := rfl

@[simp] theorem tip_append_singleton (genesis : H) (es : List E) (e : E) :
    tip own genesis (es ++ [e]) = own e := by
  simp [tip]

theorem tip_cons (genesis : H) (e : E) (es : List E) : tip own genesis (e :: es) = tip own (own e) es := by
  rcases List.eq_nil_or_concat' es with rfl | ⟨es, last, rfl⟩
  · rfl
  · rw [← List.cons_append, tip_append_singleton, tip_append_singleton]

variable {genesis : H} {es : List E}

theorem chained_append_singleton {e : E} :
    Chained prev own digest genesis (es ++ [e]) ↔
      Chained prev own digest genesis es ∧ prev e = tip own genesis es ∧ own e = digest e := by
  induction es generalizing genesis with
  | nil => simp [Chained]
  | cons d es ih =>
    rw [List.cons_append, Chained, Chained, ih, tip_cons]
    simp [and_assoc]

theorem Chained.take (chained : Chained prev own digest genesis es)
    (n : Nat) : Chained prev own digest genesis (es.take n) := by
  induction es generalizing genesis n with
  | nil =>
    rw [List.take_nil]
    trivial
  | cons e es ih =>
    cases n with
    | zero => trivial
    | succ n => exact ⟨chained.1, chained.2.1, ih chained.2.2 n⟩

/-! ### The walk -/

section Walk

variable [DecidableEq H]

/-- The position of the first entry whose link or own hash fails, counted from `i`. -/
def firstBroken (prev own digest : E → H) : H → Nat → List E → Option (Nat × E)
  | _, _, [] => none
  | expected, i, e :: es =>
    if prev e ≠ expected then some (i, e)
    else if own e ≠ digest e then some (i, e)
    else firstBroken prev own digest (own e) (i + 1) es

theorem firstBroken_eq_none_iff {i : Nat} :
    firstBroken prev own digest genesis i es = none ↔ Chained prev own digest genesis es := by
  induction es generalizing genesis i with
  | nil => simp [firstBroken, Chained]
  | cons e es ih =>
    unfold firstBroken Chained
    by_cases linked : prev e = genesis
    · by_cases sealed : own e = digest e
      · rw [if_neg (not_not.mpr linked), if_neg (not_not.mpr sealed), ih]
        simp [linked, sealed]
      · simp [linked, sealed]
    · simp [linked]

/-- The walk stops at the first entry at which a chain of those before it does
not go on. -/
theorem firstBroken_eq_some {i k : Nat} {e : E}
    (broken : firstBroken prev own digest genesis i es = some (k, e)) :
    ∃ before after, es = before ++ e :: after ∧ k = i + before.length ∧
      Chained prev own digest genesis before ∧
      (prev e ≠ tip own genesis before ∨ own e ≠ digest e) := by
  induction es generalizing genesis i with
  | nil => cases broken
  | cons d es ih =>
    unfold firstBroken at broken
    by_cases linked : prev d = genesis
    · by_cases sealed : own d = digest d
      · rw [if_neg (not_not.mpr linked), if_neg (not_not.mpr sealed)] at broken
        obtain ⟨before, after, rfl, at', chained, fails⟩ := ih broken
        refine ⟨d :: before, after, rfl, ?_, ⟨linked, sealed, chained⟩, ?_⟩
        · rw [List.length_cons]
          omega
        · rwa [tip_cons]
      · rw [if_neg (not_not.mpr linked), if_pos sealed] at broken
        cases broken
        exact ⟨[], es, rfl, rfl, trivial, .inr sealed⟩
    · rw [if_pos linked] at broken
      cases broken
      exact ⟨[], es, rfl, rfl, trivial, .inl linked⟩

end Walk

/-! ### Tamper evidence -/

/-- Equal digests come from equal entries, and none is the genesis hash. -/
structure Binding (own digest : E → H) (genesis : H) : Prop where
  inj : ∀ {e e' : E}, own e = digest e → own e' = digest e' → own e = own e' → e = e'
  ne_genesis : ∀ e, digest e ≠ genesis

theorem Chained.eq_of_tip_eq (binding : Binding own digest genesis) {es' : List E}
    (chained : Chained prev own digest genesis es) (chained' : Chained prev own digest genesis es')
    (same : tip own genesis es = tip own genesis es') : es = es' := by
  -- Along the first chain from its end: the last entries agree, so they carry
  -- the same hash of their predecessors.
  induction es using List.reverseRecOn generalizing es' with
  | nil =>
    rcases List.eq_nil_or_concat' es' with rfl | ⟨es', e', rfl⟩
    · rfl
    · obtain ⟨-, -, sealed⟩ := chained_append_singleton.mp chained'
      rw [tip_append_singleton, sealed] at same
      exact absurd same.symm (binding.ne_genesis e')
  | append_singleton es e ih =>
    obtain ⟨before, linked, sealed⟩ := chained_append_singleton.mp chained
    rcases List.eq_nil_or_concat' es' with rfl | ⟨es', e', rfl⟩
    · rw [tip_append_singleton, sealed] at same
      exact absurd same (binding.ne_genesis e)
    · obtain ⟨before', linked', sealed'⟩ := chained_append_singleton.mp chained'
      rw [tip_append_singleton, tip_append_singleton] at same
      cases binding.inj sealed sealed' same
      rw [ih before before' (linked.symm.trans linked')]

end TalentTrust.Lib
