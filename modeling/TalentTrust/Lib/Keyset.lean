import TalentTrust.Lib.Paging
import Mathlib.Data.List.Nodup

/-!
Walking through rows by the position of the last row seen.

A page holds the first rows after a position, in the order in which they are
listed, and its cursor is the position of its last row. Rows may come and go
between two requests.

If the rows are listed downwards in the order of their positions, a walk returns
positions that strictly descend, and every position that was there at each of
its requests (`keyset_walk`). If they are listed in another order, a walk over
fixed rows returns each of them once exactly when the end of every page splits
the list: the rows after it are those below its last row (`walk_eq_of_splits`,
`splits_of_walk_perm`). A walk ends once the rows stay as they are
(`keyset_walk_ends`).
-/

namespace TalentTrust.Lib

universe u v

variable {E : Type u} {P : Type v} {pos : E → P} {below : P → P → Bool} {limit : Nat}

/-- A strict order, given as a test. -/
structure StrictOrder (below : P → P → Bool) : Prop where
  irrefl : ∀ p, below p p = false
  trans : ∀ {p q r}, below p q = true → below q r = true → below p r = true

variable (pos below) in
/-- The rows after the cursor; all of them if there is none. -/
def rowsAfter (rows : List E) (cursor : Option P) : List E :=
  rows.filter fun x => cursor.all (below (pos x))

variable (pos below limit) in
/-- The first rows after the cursor and, if there are more, the position of the
last one. -/
def pageAfter (rows : List E) (cursor : Option P) : List E × Option P :=
  let found := rowsAfter pos below rows cursor
  let page := found.take limit
  (page, if limit < found.length then page.getLast?.map pos else none)

variable (pos below limit) in
/-- The `k`-th request meets the rows as they are then. -/
def keysetFetch (rows : Nat → List E) (k : Nat) (cursor : Option P) : Option (List E × Option P) :=
  some (pageAfter pos below limit (rows k) cursor)

theorem mem_rowsAfter {rows : List E} {cursor : Option P} {x : E} :
    x ∈ rowsAfter pos below rows cursor ↔ x ∈ rows ∧ cursor.all (below (pos x)) = true :=
  List.mem_filter

variable (pos below) in
theorem pageAfter_cases (positive : 0 < limit) (rows : List E) (cursor : Option P) :
    ((rowsAfter pos below rows cursor).length ≤ limit ∧
        pageAfter pos below limit rows cursor = (rowsAfter pos below rows cursor, none)) ∨
      ∃ front last rest, rowsAfter pos below rows cursor = front ++ last :: rest ∧
        front.length + 1 = limit ∧ rest ≠ [] ∧
        pageAfter pos below limit rows cursor = (front ++ [last], some (pos last)) := by
  generalize found : rowsAfter pos below rows cursor = xs
  by_cases more : limit < xs.length
  · right
    have filled : xs.take limit ≠ [] := by
      intro empty
      have size := congrArg List.length empty
      rw [List.length_take, List.length_nil] at size
      omega
    have page : (xs.take limit).dropLast ++ [(xs.take limit).getLast filled] = xs.take limit :=
      List.dropLast_append_getLast filled
    refine ⟨(xs.take limit).dropLast, (xs.take limit).getLast filled, xs.drop limit, ?_, ?_, ?_, ?_⟩
    · rw [← List.singleton_append, ← List.append_assoc, page, List.take_append_drop]
    · rw [List.length_dropLast, List.length_take]
      omega
    · intro empty
      have := List.drop_eq_nil_iff.mp empty
      omega
    · rw [page]
      simp [pageAfter, found, if_pos more, List.getLast?_eq_getLast_of_ne_nil filled]
  · left
    have fits := Nat.not_lt.mp more
    exact ⟨fits, by simp [pageAfter, found, if_neg more, List.take_of_length_le fits]⟩

section Walk

variable {rows : Nat → List E} {fuel k n : Nat} {cursor : Option P} {es page : List E}

theorem keyset_walk_last (final : pageAfter pos below limit (rows k) cursor = (page, none)) :
    walk (keysetFetch pos below limit rows) (fuel + 1) k cursor = some (k, page) := by
  rw [walk, keysetFetch, final]

theorem keyset_walk_more {next : P}
    (more : pageAfter pos below limit (rows k) cursor = (page, some next)) :
    walk (keysetFetch pos below limit rows) (fuel + 1) k cursor =
      (walk (keysetFetch pos below limit rows) fuel (k + 1) (some next)).map
        fun rest => (rest.1, page ++ rest.2) := by
  rw [walk, keysetFetch, more]

theorem keyset_walk_cases (positive : 0 < limit)
    (walked : walk (keysetFetch pos below limit rows) fuel k cursor = some (n, es)) :
    ∃ fuel', fuel = fuel' + 1 ∧
      ((n = k ∧ es = rowsAfter pos below (rows k) cursor ∧ es.length ≤ limit) ∨
      ∃ front last rest es', rowsAfter pos below (rows k) cursor = front ++ last :: rest ∧
        front.length + 1 = limit ∧ rest ≠ [] ∧ es = front ++ last :: es' ∧
        walk (keysetFetch pos below limit rows) fuel' (k + 1) (some (pos last)) = some (n, es')) := by
  cases fuel with
  | zero => cases walked
  | succ fuel =>
    refine ⟨fuel, rfl, ?_⟩
    rcases pageAfter_cases pos below positive (rows k) cursor with
      ⟨fits, final⟩ | ⟨front, last, rest, found, size, more, page⟩
    · rw [keyset_walk_last final] at walked
      cases walked
      exact .inl ⟨rfl, rfl, fits⟩
    · rw [keyset_walk_more page] at walked
      obtain ⟨⟨n', es'⟩, later, whole⟩ := Option.map_eq_some_iff.mp walked
      cases whole
      refine .inr ⟨front, last, rest, es', found, size, more, ?_, later⟩
      rw [List.append_assoc, List.singleton_append]

/-- What a walk returns lies after its cursor and was there at one of its requests. -/
theorem mem_keyset_walk (order : StrictOrder below) (positive : 0 < limit)
    (walked : walk (keysetFetch pos below limit rows) fuel k cursor = some (n, es)) :
    k ≤ n ∧ ∀ e ∈ es, cursor.all (below (pos e)) = true ∧ ∃ j, k ≤ j ∧ j ≤ n ∧ e ∈ rows j := by
  induction fuel generalizing k cursor es with
  | zero => cases walked
  | succ fuel ih =>
    obtain ⟨fuel', same, ⟨rfl, rfl, fits⟩ | ⟨front, last, rest, es', found, -, -, rfl, later⟩⟩ :=
      keyset_walk_cases positive walked
    · refine ⟨le_rfl, fun e mem => ?_⟩
      obtain ⟨listed, after⟩ := mem_rowsAfter.mp mem
      exact ⟨after, n, le_rfl, le_rfl, listed⟩
    · obtain rfl : fuel = fuel' := by omega
      obtain ⟨le, rest'⟩ := ih later
      have here : ∀ e ∈ front ++ [last], e ∈ rows k ∧ cursor.all (below (pos e)) = true := by
        intro e mem
        apply mem_rowsAfter.mp
        rw [found]
        simp only [List.mem_append, List.mem_cons, List.not_mem_nil, or_false] at mem ⊢
        exact mem.imp id .inl
      refine ⟨by omega, fun e mem => ?_⟩
      rw [← List.singleton_append, ← List.append_assoc] at mem
      rcases List.mem_append.mp mem with now | after
      · exact ⟨(here e now).2, k, le_rfl, by omega, (here e now).1⟩
      · obtain ⟨lower, j, since, until', listed⟩ := rest' e after
        refine ⟨?_, j, by omega, until', listed⟩
        have upper := (here last (by simp)).2
        cases cursor with
        | none => rfl
        | some c => exact order.trans lower upper

/-- The cursor that the `k`-th request is made with. -/
def cursorAt (pos : E → P) (below : P → P → Bool) (limit : Nat) (rows : Nat → List E) : Nat → Option P
  | 0 => none
  | k + 1 => (pageAfter pos below limit (rows k) (cursorAt pos below limit rows k)).2

theorem length_rowsAfter_lt (order : StrictOrder below) {rows : List E} {last : E}
    (mem : last ∈ rowsAfter pos below rows cursor) :
    (rowsAfter pos below rows (some (pos last))).length < (rowsAfter pos below rows cursor).length := by
  have after := (mem_rowsAfter.mp mem).2
  have sub : rowsAfter pos below rows (some (pos last)) =
      (rowsAfter pos below rows cursor).filter fun x => below (pos x) (pos last) := by
    rw [rowsAfter, rowsAfter, List.filter_filter]
    refine List.filter_congr fun x _ => ?_
    cases cursor with
    | none => simp
    | some c =>
      cases lower : below (pos x) (pos last) with
      | false => simp [lower]
      | true => simp [lower, order.trans lower after]
  rw [sub]
  exact List.length_filter_lt_length_iff_exists.mpr ⟨last, mem, by simp [order.irrefl]⟩

variable (pos rows) in
/-- Once the rows after the cursors do not become more, a walk ends. -/
theorem keyset_walk_ends (order : StrictOrder below) (positive : 0 < limit) {m : Nat}
    (fewer : ∀ k, m ≤ k → ∀ p ∈ cursorAt pos below limit rows (k + 1),
      (rowsAfter pos below (rows (k + 1)) (some p)).length ≤
        (rowsAfter pos below (rows k) (some p)).length) :
    ∃ fuel n es, walk (keysetFetch pos below limit rows) fuel 0 none = some (n, es) := by
  let Ends k := ∃ fuel n es,
    walk (keysetFetch pos below limit rows) fuel k (cursorAt pos below limit rows k) = some (n, es)
  have page_cases : ∀ k, Ends k ∨ ∃ last ∈ rowsAfter pos below (rows k) (cursorAt pos below limit rows k),
      cursorAt pos below limit rows (k + 1) = some (pos last) ∧ (Ends (k + 1) → Ends k) := by
    intro k
    rcases pageAfter_cases pos below positive (rows k) (cursorAt pos below limit rows k) with
      ⟨-, final⟩ | ⟨front, last, rest, found, -, -, page⟩
    · exact .inl ⟨1, k, _, keyset_walk_last final⟩
    · have next : cursorAt pos below limit rows (k + 1) = some (pos last) := congrArg Prod.snd page
      refine .inr ⟨last, by simp [found], next, ?_⟩
      rintro ⟨fuel, n, es, walked⟩
      rw [next] at walked
      exact ⟨fuel + 1, n, front ++ [last] ++ es, by rw [keyset_walk_more page, walked, Option.map_some]⟩
  -- From `m` on, each page leaves less after its cursor.
  have late : ∀ size k, m ≤ k →
      (rowsAfter pos below (rows k) (cursorAt pos below limit rows k)).length = size → Ends k := by
    intro size
    induction size using Nat.strong_induction_on with
    | _ size ih =>
      intro k le here
      rcases page_cases k with ends | ⟨last, mem, next, onward⟩
      · exact ends
      · have less := length_rowsAfter_lt order mem
        have kept := fewer k le (pos last) next
        exact onward (ih _ (by rw [next]; omega) (k + 1) (by omega) rfl)
  have all : ∀ d k, k + d = m → Ends k := by
    intro d
    induction d with
    | zero => exact fun k here => late _ k here.ge rfl
    | succ d ih =>
      intro k here
      rcases page_cases k with ends | ⟨_, _, _, onward⟩
      · exact ends
      · exact onward (ih (k + 1) (by omega))
  exact all m 0 (Nat.zero_add m)

/-- The same walk with positions written as cursors, if those that are given out
can be read back. -/
theorem walk_encoded {C : Type*} (encode : P → C) (valid : P → Prop)
    {fetch : Nat → Option C → Option (List E × Option C)}
    (fetched : ∀ k (cursor : Option P), (∀ p ∈ cursor, valid p) → fetch k (cursor.map encode) =
      some ((pageAfter pos below limit (rows k) cursor).1,
        (pageAfter pos below limit (rows k) cursor).2.map encode))
    (readable : ∀ k, ∀ e ∈ rows k, valid (pos e)) (fuel k : Nat) (cursor : Option P)
    (here : ∀ p ∈ cursor, valid p) :
    walk fetch fuel k (cursor.map encode) = walk (keysetFetch pos below limit rows) fuel k cursor := by
  induction fuel generalizing k cursor with
  | zero => rfl
  | succ fuel ih =>
    have page := fetched k cursor here
    cases next : (pageAfter pos below limit (rows k) cursor).2 with
    | none =>
      rw [next] at page
      rw [walk, page, keyset_walk_last (Prod.ext rfl next)]
      rfl
    | some p =>
      rw [next] at page
      have valid' : valid p := by
        simp only [pageAfter, Option.ite_none_right_eq_some, Option.map_eq_some_iff] at next
        obtain ⟨-, last, final, rfl⟩ := next
        have mem := List.mem_of_mem_take (List.mem_of_getLast? final)
        exact readable k last (mem_rowsAfter.mp mem).1
      rw [walk, page, keyset_walk_more (Prod.ext rfl next)]
      rw [← ih (k + 1) (some p) (fun q mem => Option.some.inj mem ▸ valid')]
      rfl

/-! ### Rows in the order of their positions -/

variable (pos below es) in
def Descending : Prop :=
  es.Pairwise fun a b => below (pos b) (pos a) = true

variable (pos below) in
/-- The rows by position, downwards. -/
def downwards (rows : List E) : List E :=
  rows.mergeSort fun a b => !below (pos a) (pos b)

theorem nodup_map_pos {K : Type*} (key : P → K) {rows : List E}
    (distinct : (rows.map fun x => key (pos x)).Nodup) : (rows.map pos).Nodup := by
  refine List.Nodup.of_map key ?_
  rw [List.map_map]
  exact distinct

section Sorted

variable (order : StrictOrder below) (linear : ∀ {p q}, p ≠ q → below p q = true ∨ below q p = true)
  {rows : List E}

include order linear

theorem descending_downwards (distinct : (rows.map pos).Nodup) :
    Descending pos below (downwards pos below rows) := by
  have notBoth : ∀ {p q}, below p q = true → below q p = false := by
    intro p q lower
    by_contra upper
    have loop := order.trans lower (Bool.not_eq_false _ ▸ upper)
    rw [order.irrefl] at loop
    cases loop
  have sorted : (downwards pos below rows).Pairwise fun a b => (!below (pos a) (pos b)) = true := by
    apply List.pairwise_mergeSort
    · intro a b c first second
      rw [Bool.not_eq_true'] at first second ⊢
      by_contra lower
      rw [Bool.not_eq_false] at lower
      by_cases same : pos a = pos b
      · rw [same, second] at lower
        cases lower
      · rcases linear same with before | after
        · rw [first] at before
          cases before
        · rw [order.trans after lower] at second
          cases second
    · intro a b
      rw [Bool.or_eq_true, Bool.not_eq_true', Bool.not_eq_true']
      cases lower : below (pos a) (pos b) with
      | false => exact .inl rfl
      | true => exact .inr (notBoth lower)
  have different : (downwards pos below rows).Pairwise fun a b => pos a ≠ pos b :=
    List.pairwise_map.mp (((List.mergeSort_perm rows _).map pos).nodup_iff.mpr distinct)
  apply (sorted.and different).imp
  rintro a b ⟨notBelow, other⟩
  exact (linear other).resolve_left fun lower => by simp [lower] at notBelow

/-- Selecting and then sorting is sorting and then selecting: positions are distinct. -/
theorem downwards_filter (distinct : (rows.map pos).Nodup) (cursor : Option P) :
    downwards pos below (rows.filter fun x => cursor.all (below (pos x))) =
      rowsAfter pos below (downwards pos below rows) cursor := by
  apply @List.Perm.eq_of_pairwise E fun a b => below (pos b) (pos a) = true
  · intro a b _ _ lower upper
    have loop := order.trans lower upper
    rw [order.irrefl] at loop
    cases loop
  · exact descending_downwards order linear (distinct.sublist (List.filter_sublist.map pos))
  · exact (descending_downwards order linear distinct).filter _
  · exact (List.mergeSort_perm _ _).trans ((List.mergeSort_perm _ _).filter _).symm

end Sorted

/-! ### Pages from one row more -/

theorem page_of_next (limit : Nat) (found : List E) :
    let rows := found.take (limit + 1)
    let page := if limit < rows.length then rows.take limit else rows
    page = found.take limit ∧ (limit < rows.length ↔ limit < found.length) := by
  intro rows page
  have length : rows.length = min (limit + 1) found.length := List.length_take
  refine ⟨?_, by omega⟩
  by_cases more : limit < rows.length
  · simp only [page, if_pos more, rows, List.take_take]
    congr 1
    omega
  · simp only [page, if_neg more]
    simp only [rows]
    rw [List.take_of_length_le (by omega), List.take_of_length_le (by omega)]

theorem nextCursor_eq {C : Type*} (encode : P → C) (limit : Nat) (found : List E) :
    (if limit < found.length then (found.take limit).getLast?.map fun x => encode (pos x) else none) =
      (if limit < found.length then (found.take limit).getLast?.map pos else none).map encode := by
  split
  · rw [Option.map_map]
    rfl
  · rfl

/-- What a walk returns when the rows are in order at each request. -/
structure KeysetWalk (pos : E → P) (below : P → P → Bool) (rows : Nat → List E) (k : Nat)
    (cursor : Option P) (n : Nat) (es : List E) : Prop where
  descending : Descending pos below es
  complete : ∀ p, cursor.all (below p) = true →
    (∀ j, k ≤ j → j ≤ n → ∃ e ∈ rows j, pos e = p) → ∃ e ∈ es, pos e = p

theorem keyset_walk (order : StrictOrder below) (positive : 0 < limit)
    (sorted : ∀ k, Descending pos below (rows k))
    (walked : walk (keysetFetch pos below limit rows) fuel k cursor = some (n, es)) :
    KeysetWalk pos below rows k cursor n es := by
  induction fuel generalizing k cursor es with
  | zero => cases walked
  | succ fuel ih =>
    have found : Descending pos below (rowsAfter pos below (rows k) cursor) := (sorted k).filter _
    obtain ⟨fuel', same, ⟨rfl, rfl, fits⟩ | ⟨front, last, rest, es', split, -, -, rfl, later⟩⟩ :=
      keyset_walk_cases positive walked
    · refine ⟨found, fun p after there => ?_⟩
      obtain ⟨e, listed, rfl⟩ := there n le_rfl le_rfl
      exact ⟨e, mem_rowsAfter.mpr ⟨listed, after⟩, rfl⟩
    · obtain rfl : fuel = fuel' := by omega
      obtain ⟨le, lower⟩ := mem_keyset_walk order positive later
      obtain ⟨descends, complete⟩ := ih later
      rw [split, Descending, List.pairwise_append, List.pairwise_cons] at found
      obtain ⟨frontDescends, ⟨lastAbove, -⟩, frontAbove⟩ := found
      constructor
      · refine List.pairwise_append.mpr ⟨frontDescends, List.pairwise_cons.mpr ⟨?_, descends⟩, ?_⟩
        · exact fun e mem => (lower e mem).1
        · intro a first e mem
          have above := frontAbove a first last List.mem_cons_self
          rcases List.mem_cons.mp mem with rfl | after
          · exact above
          · exact order.trans (lower e after).1 above
      · intro p after there
        obtain ⟨e, listed, rfl⟩ := there k le_rfl (by omega)
        have mem : e ∈ front ++ last :: rest := split ▸ mem_rowsAfter.mpr ⟨listed, after⟩
        simp only [List.mem_append, List.mem_cons] at mem ⊢
        rcases mem with first | rfl | missed
        · exact ⟨e, .inl first, rfl⟩
        · exact ⟨e, .inr (.inl rfl), rfl⟩
        · -- it stands below the last row of the page, where the walk goes on
          obtain ⟨e', mem', same'⟩ := complete (pos e) (lastAbove e missed)
            (fun j since until' => there j (by omega) until')
          exact ⟨e', .inr (.inr mem'), same'⟩

end Walk

/-! ### Fixed rows in any order -/

variable (pos below) in
/-- The rows from `n` on are those below the row before. -/
def SplitsAt (rows : List E) (n : Nat) : Prop :=
  ∀ last, rows[n - 1]? = some last → ∀ i x, rows[i]? = some x →
    (below (pos x) (pos last) = true ↔ n ≤ i)

section Fixed

variable {rows : List E} {fuel j k n : Nat} {cursor : Option P} {es : List E} {last : E}

theorem page_end {front rest : List E} (size : front.length + 1 = limit)
    (found : rows.drop (j * limit) = front ++ last :: rest) :
    rows[(j + 1) * limit - 1]? = some last ∧ rows.drop ((j + 1) * limit) = rest := by
  have product : (j + 1) * limit = j * limit + limit := Nat.succ_mul j limit
  constructor
  · have index : (j + 1) * limit - 1 = j * limit + front.length := by omega
    rw [index, ← List.getElem?_drop, found, List.getElem?_append_right le_rfl, Nat.sub_self]
    rfl
  · rw [product, ← List.drop_drop, found, ← size, List.drop_append, List.drop_eq_nil_of_le (by omega),
      Nat.add_sub_cancel_left]
    rfl

theorem rowsAfter_of_splits {m : Nat} (final : rows[m - 1]? = some last)
    (splits : SplitsAt pos below rows m) :
    rowsAfter pos below rows (some (pos last)) = rows.drop m := by
  have here := splits last final
  have before : (rows.take m).filter (fun x => below (pos x) (pos last)) = [] := by
    apply List.filter_eq_nil_iff.mpr
    intro x mem
    obtain ⟨i, at', rfl⟩ := List.mem_take_iff_getElem.mp mem
    rw [here i _ (List.getElem?_eq_getElem (by omega))]
    omega
  have after : (rows.drop m).filter (fun x => below (pos x) (pos last)) = rows.drop m := by
    apply List.filter_eq_self.mpr
    intro x mem
    obtain ⟨i, at', rfl⟩ := List.mem_drop_iff_getElem.mp mem
    exact (here (m + i) _ (List.getElem?_eq_getElem (by omega))).mpr (by omega)
  calc rowsAfter pos below rows (some (pos last))
      = (rows.take m ++ rows.drop m).filter (fun x => below (pos x) (pos last)) := by
        rw [List.take_append_drop]
        rfl
    _ = rows.drop m := by rw [List.filter_append, before, after, List.nil_append]

theorem walk_eq_of_splits (positive : 0 < limit)
    (splits : ∀ i, (i + 1) * limit < rows.length → SplitsAt pos below rows ((i + 1) * limit))
    (here : rowsAfter pos below rows cursor = rows.drop (j * limit))
    (walked : walk (keysetFetch pos below limit fun _ => rows) fuel k cursor = some (n, es)) :
    es = rows.drop (j * limit) := by
  induction fuel generalizing j k cursor es with
  | zero => cases walked
  | succ fuel ih =>
    obtain ⟨fuel', same, ⟨rfl, rfl, fits⟩ | ⟨front, last, rest, es', found, size, more, rfl, later⟩⟩ :=
      keyset_walk_cases positive walked
    · exact here
    · obtain rfl : fuel = fuel' := by omega
      rw [here] at found
      obtain ⟨final, left⟩ := page_end size found
      have inside : (j + 1) * limit < rows.length := by
        by_contra past
        rw [List.drop_eq_nil_of_le (Nat.not_lt.mp past)] at left
        exact more left.symm
      have next := rowsAfter_of_splits final (splits j inside)
      rw [found, ih next later, left]

theorem head_walk (positive : 0 < limit)
    (walked : walk (keysetFetch pos below limit fun _ => rows) fuel k cursor = some (n, es)) :
    es.head? = (rowsAfter pos below rows cursor).head? := by
  obtain ⟨-, -, ⟨-, rfl, -⟩ | ⟨front, last, rest, es', found, -, -, rfl, -⟩⟩ :=
    keyset_walk_cases positive walked
  · rfl
  · rw [found, List.head?_append, List.head?_append, List.head?_cons, List.head?_cons]

/-- If the rows from `m` on, and no other ones, come first in what is after the
row before, `m` splits the rows. -/
theorem splitsAt_of_perm {m : Nat} (distinct : rows.Nodup) (final : rows[m - 1]? = some last)
    (first : es.head? = (rowsAfter pos below rows (some (pos last))).head?)
    (lower : ∀ e ∈ es, below (pos e) (pos last) = true) (each : es.Perm (rows.drop m)) :
    SplitsAt pos below rows m := by
  intro last' final' i x at'
  obtain rfl : last = last' := Option.some.inj (final.symm.trans final')
  constructor
  · intro below'
    by_contra early
    -- the first row after the cursor would be one of the rows before `m`
    have before : x ∈ (rows.take m).filter fun x => below (pos x) (pos last) := by
      refine List.mem_filter.mpr ⟨List.mem_of_getElem? (i := i) ?_, below'⟩
      rw [List.getElem?_take, if_pos (by omega), at']
    have found : rowsAfter pos below rows (some (pos last)) =
        (rows.take m).filter (fun x => below (pos x) (pos last)) ++
          (rows.drop m).filter (fun x => below (pos x) (pos last)) := by
      rw [← List.filter_append, List.take_append_drop]
      rfl
    obtain ⟨y, ys, front⟩ := List.exists_cons_of_ne_nil (List.ne_nil_of_mem before)
    rw [found, front] at first
    have late : y ∈ rows.drop m := each.subset (List.mem_of_head? first)
    have soon : y ∈ rows.take m := by
      have : y ∈ (rows.take m).filter fun x => below (pos x) (pos last) := by
        rw [front]
        exact List.mem_cons_self
      exact (List.mem_filter.mp this).1
    rw [← List.take_append_drop m rows] at distinct
    exact List.disjoint_of_nodup_append distinct soon late
  · intro late
    apply lower
    apply each.symm.subset
    refine List.mem_of_getElem? (i := i - m) ?_
    rw [List.getElem?_drop, Nat.add_sub_cancel' late, at']

/-- If the pages are a permutation of the rows, every page end splits the rows. -/
theorem splits_of_walk_perm (order : StrictOrder below) (positive : 0 < limit) (distinct : rows.Nodup)
    (here : rowsAfter pos below rows cursor = rows.drop (j * limit))
    (walked : walk (keysetFetch pos below limit fun _ => rows) fuel k cursor = some (n, es))
    (each : es.Perm (rows.drop (j * limit))) {i : Nat} (le : j ≤ i)
    (inside : (i + 1) * limit < rows.length) : SplitsAt pos below rows ((i + 1) * limit) := by
  induction fuel generalizing j k cursor es with
  | zero => cases walked
  | succ fuel ih =>
    obtain ⟨fuel', same, ⟨rfl, rfl, fits⟩ | ⟨front, last, rest, es', found, size, -, rfl, later⟩⟩ :=
      keyset_walk_cases positive walked
    · -- this page was the last one
      rw [here, List.length_drop] at fits
      have ends : (j + 1) * limit ≤ (i + 1) * limit := Nat.mul_le_mul_right limit (by omega)
      have product : (j + 1) * limit = j * limit + limit := Nat.succ_mul j limit
      omega
    · obtain rfl : fuel = fuel' := by omega
      rw [here] at found
      obtain ⟨final, left⟩ := page_end size found
      have rest' : es'.Perm (rows.drop ((j + 1) * limit)) := by
        rw [found, List.perm_append_left_iff, List.perm_cons] at each
        rw [left]
        exact each
      have splits : SplitsAt pos below rows ((j + 1) * limit) :=
        splitsAt_of_perm distinct final (head_walk positive later)
          (fun e mem => ((mem_keyset_walk order positive later).2 e mem).1) rest'
      rcases Nat.eq_or_lt_of_le le with rfl | after
      · exact splits
      · exact ih (rowsAfter_of_splits final splits) later rest' after

end Fixed

end TalentTrust.Lib
