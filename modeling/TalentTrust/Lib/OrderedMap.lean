import Mathlib.Tactic.Abel
import Mathlib.Data.List.Nodup

/-!
The `Map` of JavaScript: a finite map that remembers insertion order.

Setting a key that is present keeps its place, and iteration visits the
entries oldest first. Every map carries the proof that its keys are distinct.
-/

namespace TalentTrust.Lib

universe u v

/-- Replace the value of `k`, or append the entry when `k` is new. -/
def setEntry {κ : Type u} {α : Type v} [DecidableEq κ] (k : κ) (v : α) :
    List (κ × α) → List (κ × α)
  | [] => [(k, v)]
  | e :: es => if e.1 = k then (k, v) :: es else e :: setEntry k v es

section Entries

variable {κ : Type u} {α : Type v} [DecidableEq κ]

theorem keys_setEntry (k : κ) (v : α) : ∀ es : List (κ × α), (setEntry k v es).map Prod.fst =
      if k ∈ es.map Prod.fst then es.map Prod.fst else es.map Prod.fst ++ [k]
  | [] => by simp [setEntry]
  | e :: es => by
      unfold setEntry
      by_cases h : e.1 = k
      · simp [h]
      · have h' : k ≠ e.1 := fun eq => h eq.symm
        rw [if_neg h, List.map_cons, keys_setEntry k v es]
        by_cases mem : k ∈ es.map Prod.fst <;> simp [mem, h']

theorem lookup_cons_ite (e : κ × α) (es : List (κ × α)) (j : κ) :
    (e :: es).lookup j = if j = e.1 then some e.2 else es.lookup j := by
  rw [List.lookup_cons]
  by_cases h : j = e.1
  · rw [if_pos h, beq_iff_eq.mpr h]
  · rw [if_neg h, beq_eq_false_iff_ne.mpr h]

theorem lookup_setEntry (k j : κ) (v : α) : ∀ es : List (κ × α),
    (setEntry k v es).lookup j = if j = k then some v else es.lookup j
  | [] => by rw [setEntry, lookup_cons_ite]
  | e :: es => by
      unfold setEntry
      by_cases he : e.1 = k
      · rw [if_pos he, lookup_cons_ite, lookup_cons_ite, he]
        by_cases hj : j = k <;> simp [hj]
      · rw [if_neg he, lookup_cons_ite, lookup_cons_ite, lookup_setEntry k j v es]
        by_cases hj : j = k
        · have : k ≠ e.1 := fun eq => he eq.symm
          simp [hj, this]
        · simp [hj]

theorem lookup_eq_none_of_notMem {j : κ} : ∀ {es : List (κ × α)}, j ∉ es.map Prod.fst →
    es.lookup j = none
  | [], _ => rfl
  | e :: es, h => by
      rw [List.map_cons, List.mem_cons, not_or] at h
      rw [lookup_cons_ite, if_neg h.1, lookup_eq_none_of_notMem h.2]

theorem lookup_filter {p : κ × α → Bool} : ∀ {es : List (κ × α)}, (es.map Prod.fst).Nodup → ∀ j,
    (es.filter p).lookup j = (es.lookup j).filter fun v => p (j, v)
  | [], _, j => rfl
  | e :: es, nodup, j => by
      rw [List.map_cons, List.nodup_cons] at nodup
      have ih := lookup_filter (p := p) nodup.2 j
      by_cases hj : j = e.1
      · subst hj
        rw [lookup_cons_ite, if_pos rfl]
        by_cases hp : p e = true
        · rw [List.filter_cons_of_pos hp, lookup_cons_ite, if_pos rfl]
          exact (Option.filter_some_pos (p := fun v => p (e.1, v)) hp).symm
        · rw [lookup_eq_none_of_notMem nodup.1] at ih
          rw [List.filter_cons_of_neg hp, ih]
          exact (Option.filter_some_neg (p := fun v => p (e.1, v)) (by simpa using hp)).symm
      · rw [lookup_cons_ite, if_neg hj, ← ih]
        by_cases hp : p e = true
        · rw [List.filter_cons_of_pos hp, lookup_cons_ite, if_neg hj]
        · rw [List.filter_cons_of_neg hp]

theorem lookup_map {β : Type*} (f : α → β) (j : κ) : ∀ es : List (κ × α),
    (es.map fun e => (e.1, f e.2)).lookup j = (es.lookup j).map f
  | [] => rfl
  | e :: es => by
      rw [List.map_cons, lookup_cons_ite, lookup_cons_ite, lookup_map f j es]
      by_cases h : j = e.1 <;> simp [h]

variable {k : κ} {v : α}

theorem lookup_eq_some_iff_mem {es : List (κ × α)} (nodup : (es.map Prod.fst).Nodup) :
    es.lookup k = some v ↔ (k, v) ∈ es := by
  constructor
  · intro found
    obtain ⟨before, after, rfl, -⟩ := List.lookup_eq_some_iff.mp found
    exact List.mem_append_right before List.mem_cons_self
  · intro mem
    induction es with
    | nil => cases mem
    | cons e es ih =>
      rw [List.map_cons, List.nodup_cons] at nodup
      rw [lookup_cons_ite]
      rcases List.mem_cons.mp mem with rfl | mem
      · rw [if_pos rfl]
      · rw [if_neg, ih nodup.2 mem]
        intro same
        exact nodup.1 (same ▸ List.mem_map_of_mem mem)

theorem setEntry_of_notMem : ∀ {es : List (κ × α)}, k ∉ es.map Prod.fst →
    setEntry k v es = es ++ [(k, v)]
  | [], _ => rfl
  | e :: es, fresh => by
      rw [List.map_cons, List.mem_cons, not_or] at fresh
      rw [setEntry, if_neg (fun same => fresh.1 same.symm), setEntry_of_notMem fresh.2, List.cons_append]

theorem setEntry_of_lookup : ∀ {es : List (κ × α)}, es.lookup k = some v →
    setEntry k v es = es
  | e :: es, found => by
      rw [lookup_cons_ite] at found
      unfold setEntry
      by_cases same : k = e.1
      · rw [if_pos same] at found
        rw [if_pos same.symm, same, ← Option.some.inj found]
      · rw [if_neg same] at found
        rw [if_neg (fun eq => same eq.symm), setEntry_of_lookup found]

theorem setEntry_setEntry (k : κ) (v w : α) : ∀ es : List (κ × α),
    setEntry k w (setEntry k v es) = setEntry k w es
  | [] => by simp [setEntry]
  | e :: es => by
      by_cases same : e.1 = k
      · simp [setEntry, same]
      · simp [setEntry, if_neg same, setEntry_setEntry k v w es]

theorem map_setEntry {β : Type*} (f : α → β) (k : κ) (v : α) : ∀ es : List (κ × α),
    (setEntry k v es).map (fun e => (e.1, f e.2)) = setEntry k (f v) (es.map fun e => (e.1, f e.2))
  | [] => rfl
  | e :: es => by
      by_cases same : e.1 = k
      · simp [setEntry, same]
      · simp [setEntry, if_neg same, map_setEntry f k v es]

end Entries

/-- A JavaScript `Map`. -/
structure OrderedMap (κ : Type u) (α : Type v) where
  entries : List (κ × α)
  nodup : (entries.map Prod.fst).Nodup

namespace OrderedMap

variable {κ : Type u} {α : Type v} [DecidableEq κ]

instance [DecidableEq α] : DecidableEq (OrderedMap κ α) := fun a b =>
  decidable_of_iff (a.entries = b.entries)
    ⟨fun h => by cases a; cases b; cases h; rfl, fun h => by rw [h]⟩

def empty : OrderedMap κ α := ⟨[], List.nodup_nil⟩

variable (m : OrderedMap κ α)

def get? (k : κ) : Option α := m.entries.lookup k

def has (k : κ) : Bool := (m.get? k).isSome

def size : Nat := m.entries.length

def set (k : κ) (v : α) : OrderedMap κ α where
  entries := setEntry k v m.entries
  nodup := by
    rw [keys_setEntry]
    split
    · exact m.nodup
    · rename_i fresh
      exact List.nodup_append.mpr ⟨m.nodup, by simp, by
        intro a ha b hb
        rw [List.mem_singleton.mp hb]
        exact fun eq => fresh (eq ▸ ha)⟩

/-- Keep the entries that satisfy `p`. -/
def filter (p : κ × α → Bool) (m : OrderedMap κ α) : OrderedMap κ α where
  entries := m.entries.filter p
  nodup := m.nodup.sublist (List.filter_sublist.map _)

def erase (k : κ) : OrderedMap κ α := m.filter fun e => e.1 ≠ k

/-- Delete the `n` oldest entries. -/
def dropOldest (n : Nat) : OrderedMap κ α where
  entries := m.entries.drop n
  nodup := m.nodup.sublist ((List.drop_sublist n m.entries).map _)

/-- Apply `f` to every value. -/
def mapValues {β : Type*} (f : α → β) (m : OrderedMap κ α) : OrderedMap κ β where
  entries := m.entries.map fun e => (e.1, f e.2)
  nodup := by
    have keys : (m.entries.map fun e => (e.1, f e.2)).map Prod.fst = m.entries.map Prod.fst := by
      rw [List.map_map]
      rfl
    rw [keys]
    exact m.nodup

/-- `map.keys().next().value`. -/
def oldest? : Option κ := m.entries.head?.map Prod.fst

@[simp] theorem get?_empty (k : κ) : (empty : OrderedMap κ α).get? k = none := rfl

variable (m : OrderedMap κ α)

theorem get?_set (k j : κ) (v : α) : (m.set k v).get? j = if j = k then some v else m.get? j :=
  lookup_setEntry k j v m.entries

@[simp] theorem get?_set_self (k : κ) (v : α) : (m.set k v).get? k = some v := by
  rw [get?_set, if_pos rfl]

theorem get?_set_of_ne {k j : κ} (v : α) (h : j ≠ k) : (m.set k v).get? j = m.get? j := by
  rw [get?_set, if_neg h]

variable {v : α}

theorem set_of_get? {m : OrderedMap κ α} {k : κ} (found : m.get? k = some v) : m.set k v = m := by
  cases m
  simp only [set, OrderedMap.mk.injEq]
  exact setEntry_of_lookup found

theorem get?_filter (p : κ × α → Bool) (j : κ) :
    (m.filter p).get? j = (m.get? j).filter fun v => p (j, v) :=
  lookup_filter m.nodup j

theorem get?_erase (k j : κ) : (m.erase k).get? j = if j = k then none else m.get? j := by
  rw [erase, get?_filter]
  by_cases h : j = k
  · cases m.get? j <;> simp [h]
  · cases m.get? j <;> simp [h]

theorem get?_eq_some_iff {m : OrderedMap κ α} {k : κ} : m.get? k = some v ↔ (k, v) ∈ m.entries :=
  lookup_eq_some_iff_mem m.nodup

theorem get?_of_filter {m : OrderedMap κ α} {p : κ × α → Bool} {j : κ}
    (h : (m.filter p).get? j = some v) : m.get? j = some v ∧ p (j, v) = true := by
  rw [get?_filter, Option.filter_eq_some_iff] at h
  exact h

theorem get?_of_erase {m : OrderedMap κ α} {k j : κ} (h : (m.erase k).get? j = some v) :
    m.get? j = some v :=
  (get?_of_filter h).1

theorem get?_of_dropOldest {m : OrderedMap κ α} {n : Nat} {j : κ}
    (h : (m.dropOldest n).get? j = some v) : m.get? j = some v :=
  get?_eq_some_iff.mpr (List.mem_of_mem_drop (get?_eq_some_iff.mp h))

variable {β : Type*}

theorem get?_mapValues (f : α → β) (j : κ) : (m.mapValues f).get? j = (m.get? j).map f :=
  lookup_map f j m.entries

theorem set_set (k : κ) (v w : α) : (m.set k v).set k w = m.set k w := by
  cases m
  simp only [set, OrderedMap.mk.injEq]
  exact setEntry_setEntry k v w _

theorem mapValues_set (f : α → β) (k : κ) (v : α) :
    (m.set k v).mapValues f = (m.mapValues f).set k (f v) := by
  cases m
  simp only [set, mapValues, OrderedMap.mk.injEq]
  exact map_setEntry f k v _

theorem mapValues_erase (f : α → β) (k : κ) :
    (m.erase k).mapValues f = (m.mapValues f).erase k := by
  cases m
  simp only [erase, filter, mapValues, OrderedMap.mk.injEq, List.filter_map]
  rfl

/-! ### Sizes -/

theorem size_set_le (k : κ) (v : α) : (m.set k v).size ≤ m.size + 1 := by
  have keys := congrArg List.length (keys_setEntry k v m.entries)
  rw [List.length_map] at keys
  rw [size, set, keys]
  split <;> simp [size]

theorem size_erase_lt {k : κ} (found : m.get? k = some v) : (m.erase k).size < m.size :=
  List.length_filter_lt_length_iff_exists.mpr ⟨(k, v), get?_eq_some_iff.mp found, by simp⟩

/-! ### Sums over the values -/

section Total

variable {G : Type*} [AddCommGroup G]

/-- The sum of the weights of the values. -/
def total (weight : α → G) (m : OrderedMap κ α) : G := (m.entries.map fun e => weight e.2).sum

theorem sum_setEntry (weight : α → G) (k : κ) (v : α) : ∀ es : List (κ × α),
    ((setEntry k v es).map fun e => weight e.2).sum =
      (es.map fun e => weight e.2).sum - (es.lookup k).elim 0 weight + weight v
  | [] => by simp [setEntry]
  | e :: es => by
      rw [lookup_cons_ite]
      by_cases here : e.1 = k
      · rw [setEntry, if_pos here, if_pos here.symm]
        simp only [List.map_cons, List.sum_cons, Option.elim_some]
        abel
      · rw [setEntry, if_neg here, if_neg (fun same => here same.symm), List.map_cons, List.sum_cons,
          sum_setEntry weight k v es, List.map_cons, List.sum_cons]
        abel

theorem total_set (weight : α → G) (m : OrderedMap κ α) (k : κ) (v : α) :
    (m.set k v).total weight = m.total weight - (m.get? k).elim 0 weight + weight v :=
  sum_setEntry weight k v m.entries

end Total

end OrderedMap

end TalentTrust.Lib
