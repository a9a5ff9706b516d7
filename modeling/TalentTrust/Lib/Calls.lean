import TalentTrust.Lib.Run
import Mathlib.Data.List.Forall2

/-!
Interruptible calls over a shared resource.

A call of an asynchronous function runs without interruption from one `await`
to the next. The open calls stand in a list; `turn` is what a call does in one
such stretch, to the resource and to itself, and `resumeAt` lets the call at a
position take its turn. Any interleaving is a list of such positions.
-/

namespace TalentTrust.Lib

universe u v w x

variable {R : Type u} {C : Type v}

def resumeAt (turn : R → C → R × C) (i : Nat) (s : R × List C) : R × List C :=
  match s.2[i]? with
  | none => s
  | some c => ((turn s.1 c).1, s.2.set i (turn s.1 c).2)

variable {turn : R → C → R × C} {s : R × List C} {i : Nat}

theorem resumeAt_of_none (missing : s.2[i]? = none) : resumeAt turn i s = s := by
  simp [resumeAt, missing]

theorem resumeAt_of_some {c : C} (found : s.2[i]? = some c) :
    resumeAt turn i s = ((turn s.1 c).1, s.2.set i (turn s.1 c).2) := by
  simp [resumeAt, found]

theorem exists_split_of_getElem? {xs : List C} {c : C} (h : xs[i]? = some c) :
    ∃ earlier later, xs = earlier ++ c :: later ∧ ∀ d, xs.set i d = earlier ++ d :: later := by
  obtain ⟨bound, rfl⟩ := List.getElem?_eq_some_iff.mp h
  refine ⟨xs.take i, xs.drop (i + 1), ?_, fun d => ?_⟩
  · rw [List.getElem_cons_drop, List.take_append_drop]
  · exact List.set_eq_take_append_cons_drop.trans (if_pos bound)

variable (i s) in
theorem length_resumeAt : (resumeAt turn i s).2.length = s.2.length := by
  cases found : s.2[i]? with
  | none => rw [resumeAt_of_none found]
  | some c => rw [resumeAt_of_some found, List.length_set]

theorem map_resumeAt {β : Type*} {f : C → β} (keeps : ∀ r c, f (turn r c).2 = f c) (i : Nat) :
    (resumeAt turn i s).2.map f = s.2.map f := by
  cases found : s.2[i]? with
  | none => rw [resumeAt_of_none found]
  | some c =>
    obtain ⟨earlier, later, split, written⟩ := exists_split_of_getElem? found
    rw [resumeAt_of_some found, written, split, List.map_append, List.map_append, List.map_cons,
      List.map_cons, keeps]

theorem forall_mem_resumeAt {ok : C → Prop} (keeps : ∀ r c, ok c → ok (turn r c).2) (i : Nat)
    (all : ∀ c ∈ s.2, ok c) : ∀ c ∈ (resumeAt turn i s).2, ok c := by
  cases found : s.2[i]? with
  | none => rwa [resumeAt_of_none found]
  | some c =>
    rw [resumeAt_of_some found]
    exact forall_mem_set all (keeps s.1 c (all c (List.mem_of_getElem? found))) i

theorem getElem?_resumeAt_self {c : C} (found : s.2[i]? = some c) :
    (resumeAt turn i s).2[i]? = some (turn s.1 c).2 := by
  rw [resumeAt_of_some found]
  exact (List.getElem?_set_self (List.getElem?_eq_some_iff.mp found).1)

/-- A call that its own turn would not change is not changed at all. -/
theorem getElem?_resumeAt {j : Nat} {c : C} (found : s.2[j]? = some c) (stays : (turn s.1 c).2 = c)
    : (resumeAt turn i s).2[j]? = some c := by
  by_cases same : i = j
  · subst same
    rw [getElem?_resumeAt_self found, stays]
  · cases resumed : s.2[i]? with
    | none => rwa [resumeAt_of_none resumed]
    | some d =>
      rw [resumeAt_of_some resumed, List.getElem?_set_ne same]
      exact found

/-! ### Running calls to their end -/

def settle (turn : R → C → R × C) : Nat → R × List C → R × List C
  | 0, s => s
  | n + 1, s => resumeAt turn n (resumeAt turn n (settle turn n s))

section Settle

variable (ok : C → Prop) {done : C → Prop} (keeps : ∀ r c, ok c → ok (turn r c).2)
  (stays : ∀ r c, done c → (turn r c).2 = c)
  (twice : ∀ r r' c, ok c → done (turn r' (turn r c).2).2)

include keeps stays twice

/-- If two turns finish every call, all calls are finished by `settle`. -/
theorem settle_done (all : ∀ c ∈ s.2, ok c) : ∀ n,
    (∀ c ∈ (settle turn n s).2, ok c) ∧ (settle turn n s).2.length = s.2.length ∧
      ∀ i < n, ∀ c, (settle turn n s).2[i]? = some c → done c
  | 0 => ⟨all, rfl, fun i bound => absurd bound (Nat.not_lt_zero i)⟩
  | n + 1 => by
      obtain ⟨oks, length, finished⟩ := settle_done all n
      refine ⟨forall_mem_resumeAt keeps n (forall_mem_resumeAt keeps n oks), ?_, ?_⟩
      · rw [settle, length_resumeAt, length_resumeAt, length]
      · intro i bound c found
        rw [settle] at found
        have within : i < (settle turn n s).2.length := by
          simpa [length_resumeAt] using (List.getElem?_eq_some_iff.mp found).1
        have before := List.getElem?_eq_getElem within
        rcases Nat.lt_succ_iff_lt_or_eq.mp bound with less | rfl
        · have ended := finished i less _ before
          have kept := getElem?_resumeAt (i := n) (getElem?_resumeAt (i := n) before (stays _ _ ended))
            (stays _ _ ended)
          cases Option.some.inj (kept.symm.trans found)
          exact ended
        · rw [getElem?_resumeAt_self (getElem?_resumeAt_self before)] at found
          cases Option.some.inj found
          exact twice _ _ _ (oks _ (List.mem_of_getElem? before))

/-- The events that give each of the first `n` calls two turns. -/
def settleEvents {Event : Type w} (resume : Nat → Event) : Nat → List Event
  | 0 => []
  | n + 1 => settleEvents resume n ++ [resume n, resume n]

omit keeps stays twice in
/-- A machine whose event `resume i` resumes call `i` settles its calls by
`settleEvents`. -/
theorem view_run_settleEvents {State : Type x} {Event : Type w} (turn : R → C → R × C)
    (step : State → Event → State) (view : State → R × List C) (resume : Nat → Event)
    (resumes : ∀ s i, view (step s (resume i)) = resumeAt turn i (view s)) (s : State) : ∀ n,
    view (run step s (settleEvents resume n)) = settle turn n (view s)
  | 0 => rfl
  | n + 1 => by
      rw [settleEvents, run_append, run_cons, run_cons, run_nil, resumes, resumes,
        view_run_settleEvents turn step view resume resumes s n, settle]

theorem done_of_settleEvents {State : Type x} {Event : Type w} {step : State → Event → State}
    (view : State → R × List C) (resume : Nat → Event)
    (resumes : ∀ s i, view (step s (resume i)) = resumeAt turn i (view s)) {s : State}
    (all : ∀ c ∈ (view s).2, ok c) :
    ∀ c ∈ (view (run step s (settleEvents resume (view s).2.length))).2, done c := by
  intro c mem
  rw [view_run_settleEvents turn step view resume resumes] at mem
  obtain ⟨-, length, finished⟩ := settle_done ok keeps stays twice all (view s).2.length
  obtain ⟨i, found⟩ := List.mem_iff_getElem?.mp mem
  exact finished i (length ▸ (List.getElem?_eq_some_iff.mp found).1) c found

end Settle

/-! ### Calls of two runs, position by position -/

section Pairs

variable {D : Type x} {R : C → D → Prop} {xs : List C} {ys : List D}

theorem forall₂_getElem? (related : List.Forall₂ R xs ys) (i : Nat) :
    (xs[i]? = none ∧ ys[i]? = none) ∨ ∃ x y, xs[i]? = some x ∧ ys[i]? = some y ∧ R x y := by
  induction related generalizing i with
  | nil => exact .inl ⟨rfl, rfl⟩
  | cons here _ ih =>
    cases i with
    | zero => exact .inr ⟨_, _, rfl, rfl, here⟩
    | succ i => exact ih i

theorem forall₂_set (related : List.Forall₂ R xs ys) (i : Nat) {x : C} {y : D} (new : R x y) :
    List.Forall₂ R (xs.set i x) (ys.set i y) := by
  induction related generalizing i with
  | nil => exact .nil
  | cons here rest ih =>
    cases i with
    | zero => exact .cons new rest
    | succ i => exact .cons here (ih i)

end Pairs

/-! ### At most one call of each key -/

section Distinct

variable {K : Type x} {key : C → K} {selected : C → Prop} {calls : List C} {i : Nat} {c c' : C}

variable (key selected calls) in
/-- No two selected calls have the same key. -/
def DistinctBy : Prop :=
  ∀ (i j : Nat) (c d : C), calls[i]? = some c → calls[j]? = some d → selected c → selected d →
    key c = key d → i = j

theorem getElem?_concat_eq_some {d : C} (found : (calls ++ [c])[i]? = some d) :
    calls[i]? = some d ∨ i = calls.length ∧ d = c := by
  rcases Nat.lt_trichotomy i calls.length with below | rfl | above
  · rw [List.getElem?_append_left below] at found
    exact .inl found
  · rw [List.getElem?_concat_length] at found
    exact .inr ⟨rfl, (Option.some.inj found).symm⟩
  · have outside : (calls ++ [c]).length ≤ i := by
      rw [List.length_append]
      exact above
    rw [List.getElem?_eq_none outside] at found
    cases found

theorem getElem?_set_eq_some {j : Nat} {d : C} (found : (calls.set i c')[j]? = some d) :
    (j = i ∧ d = c') ∨ (j ≠ i ∧ calls[j]? = some d) := by
  by_cases here : j = i
  · subst here
    rw [List.getElem?_set] at found
    simp only [if_true] at found
    split at found
    · exact .inl ⟨rfl, (Option.some.inj found).symm⟩
    · cases found
  · rw [List.getElem?_set_ne (Ne.symm here)] at found
    exact .inr ⟨here, found⟩

theorem DistinctBy.concat (distinct : DistinctBy key selected calls)
    (alone : selected c → ∀ d ∈ calls, selected d → key d ≠ key c) :
    DistinctBy key selected (calls ++ [c]) := by
  intro i j d e first second chosen chosen' same
  rcases getElem?_concat_eq_some first with old | ⟨rfl, rfl⟩ <;>
    rcases getElem?_concat_eq_some second with old' | ⟨rfl, rfl⟩
  · exact distinct i j d e old old' chosen chosen' same
  · exact absurd same (alone chosen' d (List.mem_of_getElem? old) chosen)
  · exact absurd same.symm (alone chosen e (List.mem_of_getElem? old') chosen')
  · rfl

theorem DistinctBy.set (distinct : DistinctBy key selected calls) (found : calls[i]? = some c)
    (same_key : key c' = key c) (chosen : selected c' → selected c) :
    DistinctBy key selected (calls.set i c') := by
  intro j k d e first second here there same
  rcases getElem?_set_eq_some first with ⟨rfl, rfl⟩ | ⟨_, old⟩ <;>
    rcases getElem?_set_eq_some second with ⟨rfl, rfl⟩ | ⟨_, old'⟩
  · rfl
  · exact distinct j k c e found old' (chosen here) there (same_key ▸ same)
  · exact distinct j k d c old found here (chosen there) (same_key ▸ same)
  · exact distinct j k d e old old' here there same

variable (key selected) in
theorem distinctBy_nil : DistinctBy key selected [] := by
  intro i j c d found
  cases found

end Distinct

end TalentTrust.Lib
