import TalentTrust.Lib.Run
import Mathlib.Data.List.Infix

/-!
Walking through a growing list page by page.

The `k`-th request is given the cursor of the page before and answers with a
page and, if there is more, a cursor. `rows k` is the list as it stands at that
request; rows are only added at its end, and at some point no more are. A
cursor marks the position from which the next page begins.

If each cursor marks the end of its page, the pages together are the whole list
(`walk_complete`). If cursors may overshoot, the pages are the whole list only
if none did (`exact_of_complete`): a cursor is given out only when there is a
row after the page, and that row is then lost.
-/

namespace TalentTrust.Lib

universe u v

variable {C : Type u} {E : Type v} {fetch : Nat → Option C → Option (List E × Option C)}
  {rows : Nat → List E} {limit : Nat} {marks : Nat → Option C → Nat → Prop}

/-- Follow the cursors from the `k`-th request on, until a page has none: the
number of the last request, and the pages. -/
def walk (fetch : Nat → Option C → Option (List E × Option C)) :
    Nat → Nat → Option C → Option (Nat × List E)
  | 0, _, _ => none
  | fuel + 1, k, cursor =>
    match fetch k cursor with
    | none => none
    | some (page, none) => some (k, page)
    | some (page, some next) =>
      (walk fetch fuel (k + 1) (some next)).map fun rest => (rest.1, page ++ rest.2)

/-- Rows are added at the end only, and at some point no more. -/
structure Growing (rows : Nat → List E) : Prop where
  grows : ∀ k, rows k <+: rows (k + 1)
  settles : ∃ m, ∀ k, m ≤ k → rows k = rows m

variable (growing : Growing rows)

include growing

theorem Growing.mono {j k : Nat} (le : j ≤ k) : rows j <+: rows k := by
  induction le with
  | refl => exact List.prefix_rfl
  | step _ ih => exact ih.trans (growing.grows _)

theorem Growing.filter (keep : E → Bool) : Growing fun k => (rows k).filter keep where
  grows k := (growing.grows k).filter keep
  settles := growing.settles.imp fun _ settled k late => congrArg (List.filter keep) (settled k late)

theorem Growing.map {F : Type*} (f : E → F) : Growing fun k => (rows k).map f where
  grows k := (growing.grows k).map f
  settles := growing.settles.imp fun _ settled k late => congrArg (List.map f) (settled k late)

theorem Growing.bounded : ∃ bound, ∀ k, (rows k).length ≤ bound := by
  obtain ⟨m, settled⟩ := growing.settles
  refine ⟨(rows m).length, ?_⟩
  intro k
  rcases Nat.le_total k m with early | late
  · exact (growing.mono early).length_le
  · rw [settled k late]

omit growing

variable {xs : List E}

theorem page_of_isPrefix {ys : List E} (initial : xs <+: ys) {i : Nat}
    (within : i + limit ≤ xs.length) : (xs.drop i).take limit = (ys.drop i).take limit := by
  obtain ⟨more, rfl⟩ := initial
  rw [List.drop_append_of_le_length (by omega), List.take_append_of_le_length]
  rw [List.length_drop]
  omega

variable {e : E}

theorem getLast?_page {i : Nat} (positive : 0 < limit) (within : i + limit ≤ xs.length) :
    ((xs.drop i).take limit).getLast? = xs[i + limit - 1]? := by
  rw [List.getLast?_eq_getElem?, List.length_take, List.length_drop, List.getElem?_take,
    if_pos (by omega), List.getElem?_drop]
  congr 1
  omega

/-! ### Rows added in batches -/

section Batches

variable {State : Type*} {Event : Type*} {step : State → Event → State} {content : State → List E}

theorem isPrefix_run (grows : ∀ s e, content s <+: content (step s e)) (s : State) (es : List Event) :
    content s <+: content (run step s es) := by
  induction es generalizing s with
  | nil => exact List.prefix_rfl
  | cons e es ih => exact (grows s e).trans (ih (step s e))

theorem growing_batches (grows : ∀ s e, content s <+: content (step s e)) (s : State)
    (batches : List (List Event)) : Growing fun k => content (run step s (batches.take k).flatten) where
  grows k := by
    rw [List.take_add_one, List.flatten_append, run_append]
    exact isPrefix_run grows _ _
  settles := by
    refine ⟨batches.length, fun k late => ?_⟩
    rw [List.take_of_length_le late, List.take_length]

end Batches

/-! ### Cursors that mark the end of their page -/

variable (fetch rows limit marks) in
/-- Requests answer with the page at the position of their cursor; if there is
more, with a cursor that marks the end of the page. -/
structure Contiguous : Prop where
  first : marks 0 none 0
  last : ∀ {k cursor i}, marks k cursor i → (rows k).length ≤ i + limit →
    fetch k cursor = some (((rows k).drop i).take limit, none)
  more : ∀ {k cursor i}, marks k cursor i → i + limit < (rows k).length →
    ∃ next, fetch k cursor = some (((rows k).drop i).take limit, some next) ∧
      marks (k + 1) (some next) (i + limit)

variable (growing : Growing rows) (positive : 0 < limit) (paged : Contiguous fetch rows limit marks)

include growing positive paged

theorem walk_from {bound : Nat} (bounded : ∀ k, (rows k).length ≤ bound) :
    ∀ (left : Nat) {k i : Nat} {cursor : Option C}, bound - i ≤ left → marks k cursor i →
      ∃ fuel n, k ≤ n ∧ walk fetch fuel k cursor = some (n, (rows n).drop i) := by
  -- Each page with a next one leaves fewer rows.
  intro left
  induction left with
  | zero =>
    intro k i cursor short marked
    have size := bounded k
    refine ⟨1, k, Nat.le_refl k, ?_⟩
    rw [walk, paged.last marked (by omega), List.take_of_length_le]
    rw [List.length_drop]
    omega
  | succ left ih =>
    intro k i cursor short marked
    by_cases size : i + limit < (rows k).length
    · obtain ⟨next, fetched, marked'⟩ := paged.more marked size
      obtain ⟨fuel, n, le, walked⟩ := ih (by omega) marked'
      refine ⟨fuel + 1, n, by omega, ?_⟩
      have initial := growing.mono (show k ≤ n by omega)
      rw [walk, fetched]
      simp only [walked, Option.map_some, page_of_isPrefix initial size.le]
      rw [← List.drop_drop, List.take_append_drop]
    · refine ⟨1, k, Nat.le_refl k, ?_⟩
      rw [walk, paged.last marked (by omega), List.take_of_length_le]
      rw [List.length_drop]
      omega

theorem walk_complete : ∃ fuel n, walk fetch fuel 0 none = some (n, rows n) := by
  obtain ⟨bound, bounded⟩ := growing.bounded
  obtain ⟨fuel, n, -, walked⟩ :=
    walk_from growing positive paged bounded bound (Nat.sub_le _ _) paged.first
  exact ⟨fuel, n, walked⟩

omit growing positive paged

/-! ### Cursors that overshoot -/

variable (fetch rows limit marks) in
/-- Requests answer with the page at the position of their cursor, and with a
cursor that marks a position not before the end of the page. -/
structure Paged : Prop where
  first : marks 0 none 0
  page : ∀ {k cursor i}, marks k cursor i →
    ∃ next, fetch k cursor = some (((rows k).drop i).take limit, next) ∧
      (next = none ↔ (rows k).length ≤ i + limit) ∧
      ∀ c, next = some c → ∃ i', i + limit ≤ i' ∧ marks (k + 1) (some c) i'

theorem length_walk_le (growing : Growing rows) (paged : Paged fetch rows limit marks) :
    ∀ {fuel k i n : Nat} {cursor : Option C} {es : List E}, marks k cursor i →
      walk fetch fuel k cursor = some (n, es) → k ≤ n ∧ es.length ≤ (rows n).length - i := by
  intro fuel
  induction fuel with
  | zero =>
    intro k i n cursor es marked walked
    cases walked
  | succ fuel ih =>
    intro k i n cursor es marked walked
    obtain ⟨next, fetched, more, later⟩ := paged.page marked
    rw [walk, fetched] at walked
    cases next with
    | none =>
      cases walked
      rw [List.length_take, List.length_drop]
      exact ⟨Nat.le_refl _, Nat.min_le_right _ _⟩
    | some c =>
      obtain ⟨rest, walkedRest, eq⟩ := Option.map_eq_some_iff.mp walked
      cases eq
      obtain ⟨i', after, marked'⟩ := later c rfl
      obtain ⟨le, size⟩ := ih marked' walkedRest
      have grown := (growing.mono (show k ≤ rest.1 by omega)).length_le
      refine ⟨by omega, ?_⟩
      rw [List.length_append, List.length_take, List.length_drop]
      omega

/-- If a walk from a position returns all rows from there on, so does the walk
from the next page, and the cursor has marked the end of the page. -/
theorem exact_step (growing : Growing rows) (paged : Paged fetch rows limit marks)
    {fuel k i n : Nat} {cursor : Option C} (marked : marks k cursor i)
    (more : i + limit < (rows k).length)
    (walked : walk fetch fuel k cursor = some (n, (rows n).drop i)) :
    ∃ fuel' c page, fetch k cursor = some (page, some c) ∧ marks (k + 1) (some c) (i + limit) ∧
      walk fetch fuel' (k + 1) (some c) = some (n, (rows n).drop (i + limit)) := by
  cases fuel with
  | zero => cases walked
  | succ fuel =>
    obtain ⟨next, fetched, last, later⟩ := paged.page marked
    rw [walk, fetched] at walked
    cases next with
    | none => exact absurd (last.mp rfl) (by omega)
    | some c =>
      obtain ⟨rest, walkedRest, eq⟩ := Option.map_eq_some_iff.mp walked
      obtain ⟨m, es⟩ := rest
      cases (Prod.mk.inj eq).1
      obtain ⟨i', after, marked'⟩ := later c rfl
      obtain ⟨le, size⟩ := length_walk_le growing paged marked' walkedRest
      have initial := growing.mono (show k ≤ m by omega)
      have grown := initial.length_le
      -- The page is the first part of what is left, so the rest is the second.
      have split : ((rows m).drop i).take limit ++ es =
          ((rows m).drop i).take limit ++ (rows m).drop (i + limit) := by
        rw [← List.drop_drop, List.take_append_drop, ← page_of_isPrefix initial more.le]
        exact (Prod.mk.inj eq).2
      have same := List.append_cancel_left split
      rw [same, List.length_drop] at size
      have atEnd : i' = i + limit := by omega
      refine ⟨fuel, c, _, fetched, atEnd ▸ marked', ?_⟩
      rw [walkedRest, same]

theorem exact_of_complete (growing : Growing rows) (paged : Paged fetch rows limit marks)
    {fuel n : Nat} (complete : walk fetch fuel 0 none = some (n, rows n)) (j : Nat)
    (more : ∀ l, l ≤ j → (l + 1) * limit < (rows l).length) :
    ∃ cursor c page, marks j cursor (j * limit) ∧ fetch j cursor = some (page, some c) ∧
      marks (j + 1) (some c) ((j + 1) * limit) := by
  have reach : ∀ k, k ≤ j → ∃ fuel' cursor, marks k cursor (k * limit) ∧
      walk fetch fuel' k cursor = some (n, (rows n).drop (k * limit)) := by
    intro k
    induction k with
    | zero =>
      intro _
      refine ⟨fuel, none, ?_, ?_⟩
      · rw [Nat.zero_mul]
        exact paged.first
      · rw [Nat.zero_mul, List.drop_zero, complete]
    | succ k ih =>
      intro le
      obtain ⟨fuel', cursor, marked, walked⟩ := ih (by omega)
      have within := more k (by omega)
      rw [Nat.succ_mul] at within
      obtain ⟨fuel'', c, -, -, marked', walked'⟩ := exact_step growing paged marked within walked
      rw [Nat.succ_mul]
      exact ⟨fuel'', some c, marked', walked'⟩
  obtain ⟨fuel', cursor, marked, walked⟩ := reach j (Nat.le_refl j)
  have within := more j (Nat.le_refl j)
  rw [Nat.succ_mul] at within ⊢
  obtain ⟨-, c, page, fetched, marked', -⟩ := exact_step growing paged marked within walked
  exact ⟨cursor, c, page, marked, fetched, marked'⟩

/-! ### Positions among the kept rows -/

/-- The `k`-th of the rows that a test keeps stands at a position `m` of all rows
that is not before `k`, and is `k` only if no row up to there was left out. -/
theorem findIdx?_of_filter {κ : Type*} [DecidableEq κ] {key : E → κ} {keep : E → Bool}
    (distinct : (xs.map key).Nodup) {k : Nat} (kept : (xs.filter keep)[k]? = some e) :
    ∃ m, xs.findIdx? (fun x => key x = key e) = some m ∧ k ≤ m ∧
      (m = k ↔ ∀ x ∈ xs.take (k + 1), keep x = true) := by
  induction xs generalizing k with
  | nil => simp at kept
  | cons x xs ih =>
    obtain ⟨fresh, rest⟩ := List.nodup_cons.mp distinct
    have later : e ∈ xs → key x ≠ key e := by
      intro mem same
      exact fresh (same ▸ List.mem_map_of_mem mem)
    by_cases keeps : keep x = true
    · rw [List.filter_cons_of_pos keeps] at kept
      cases k with
      | zero =>
        cases kept
        exact ⟨0, by simp [List.findIdx?_cons], Nat.le_refl 0, by simpa using keeps⟩
      | succ k =>
        have mem := (List.mem_filter.mp (List.mem_of_getElem? kept)).1
        obtain ⟨m, found, le, exactly⟩ := ih rest kept
        refine ⟨m + 1, by simp [List.findIdx?_cons, later mem, found], by omega, ?_⟩
        rw [Nat.add_right_cancel_iff, exactly]
        simp [keeps]
    · rw [List.filter_cons_of_neg keeps] at kept
      have mem := (List.mem_filter.mp (List.mem_of_getElem? kept)).1
      obtain ⟨m, found, le, -⟩ := ih rest kept
      refine ⟨m + 1, by simp [List.findIdx?_cons, later mem, found], by omega, ?_⟩
      constructor
      · intro same
        omega
      · intro all
        exact absurd (all x (by simp)) keeps

/-- If a test, once passed, is passed by all later rows, the rows that pass it are
those after the ones that fail. -/
theorem filter_eq_drop_countP {test : E → Bool}
    (upward : xs.Pairwise fun x y => test x = true → test y = true) :
    xs.filter test = xs.drop (xs.countP fun x => !test x) := by
  induction xs with
  | nil => rfl
  | cons x xs ih =>
    obtain ⟨passed, rest⟩ := List.pairwise_cons.mp upward
    by_cases passes : test x = true
    · have all : ∀ y ∈ x :: xs, test y = true := by
        rw [List.forall_mem_cons]
        exact ⟨passes, fun y mem => passed y mem passes⟩
      have none' : (x :: xs).countP (fun y => !test y) = 0 := by
        rw [List.countP_eq_zero]
        intro y mem
        simp [all y mem]
      rw [List.filter_eq_self.mpr all, none', List.drop_zero]
    · rw [List.filter_cons_of_neg passes, List.countP_cons_of_pos (by simpa using passes),
        List.drop_succ_cons, ih rest]

theorem countP_key_le {key : E → Nat} (increasing : xs.Pairwise fun x y => key x < key y) {k : Nat}
    (found : xs[k]? = some e) : xs.countP (fun x => key x ≤ key e) = k + 1 := by
  induction xs generalizing k with
  | nil => simp at found
  | cons x xs ih =>
    obtain ⟨greater, rest⟩ := List.pairwise_cons.mp increasing
    cases k with
    | zero =>
      cases found
      have later : xs.countP (fun y => key y ≤ key e) = 0 := by
        rw [List.countP_eq_zero]
        intro y mem
        simpa using greater y mem
      rw [List.countP_cons_of_pos (by simp), later]
    | succ k =>
      have later := greater e (List.mem_of_getElem? found)
      rw [List.countP_cons_of_pos (by simpa using later.le), ih rest found]

/-! ### One more row -/

theorem window_append_singleton {start size : Nat} :
    ((xs ++ [e]).drop start).take size = (xs.drop start).take size ↔
      ¬ (start ≤ xs.length ∧ xs.length < start + size) := by
  by_cases starts : start ≤ xs.length
  · rw [List.drop_append_of_le_length starts]
    by_cases ends : xs.length < start + size
    · refine iff_of_false ?_ (not_not.mpr ⟨starts, ends⟩)
      intro same
      have sizes := congrArg List.length same
      simp only [List.length_take, List.length_append, List.length_drop, List.length_singleton] at sizes
      omega
    · refine iff_of_true ?_ (fun inside => ends inside.2)
      rw [List.take_append_of_le_length]
      rw [List.length_drop]
      omega
  · refine iff_of_true ?_ (fun inside => starts inside.1)
    rw [List.drop_eq_nil_of_le (by simp; omega), List.drop_eq_nil_of_le (by omega)]

theorem drop_append_singleton {start : Nat} :
    (xs ++ [e]).drop start = xs.drop start ↔ ¬ start ≤ xs.length := by
  by_cases starts : start ≤ xs.length
  · rw [List.drop_append_of_le_length starts]
    simp [starts]
  · rw [List.drop_eq_nil_of_le (by simp; omega), List.drop_eq_nil_of_le (by omega)]
    simp [starts]

end TalentTrust.Lib
