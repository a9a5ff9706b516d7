import TalentTrust.Lib.Run
import Mathlib.Data.List.Induction

/-!
Work that is to be done once for as long as a record of it is kept.

A gate looks for the record of one key when a call arrives. It answers the call
from the record, or starts the work and writes the record when the work is
answered. Calls interleave with the answers and with other uses of the store,
which may drop the record but do not write it.

`Once` says of the history of the key that between two starts the record has
ended. For every gate this holds exactly when no call is passed on while the work
is under way (`once_iff_alone`): nothing marks the key as taken before the record
is written.
-/

namespace TalentTrust.Lib

universe u v w x

inductive Mark where
  /-- The work is started. -/
  | started
  /-- The record is gone. -/
  | ended
  deriving DecidableEq, Repr

/-- Between two starts the record has ended. -/
def Once (history : List Mark) : Prop :=
  ∀ before between after, history = before ++ .started :: (between ++ .started :: after) →
    .ended ∈ between

theorem once_nil : Once [] := by
  intro before between after same
  simp at same

variable {history : List Mark}

theorem once_of_append {more : List Mark} (once : Once (history ++ more)) : Once history := by
  intro before between after same
  apply once before between (after ++ more)
  rw [same, List.append_assoc, List.cons_append, List.append_assoc, List.cons_append]

/-- One more mark: if it is a start, the record has ended since the one before. -/
theorem Once.concat (once : Once history) {m : Mark}
    (ended : m = .started → ∀ before between, history = before ++ .started :: between →
      .ended ∈ between) :
    Once (history ++ [m]) := by
  intro before between after same
  rcases List.eq_nil_or_concat' after with rfl | ⟨rest, n, rfl⟩
  · rw [← List.cons_append, ← List.append_assoc] at same
    obtain ⟨front, last⟩ := List.append_inj' same rfl
    exact ended (List.singleton_injective last) before between front
  · have whole : before ++ Mark.started :: (between ++ Mark.started :: (rest ++ [n])) =
        before ++ Mark.started :: (between ++ Mark.started :: rest) ++ [n] := by simp
    exact once before between rest (List.append_inj' (same.trans whole) rfl).1

theorem once_ended (once : Once history) : Once (history ++ [.ended]) :=
  once.concat nofun

theorem once_started_iff :
    Once (history ++ [.started]) ↔ Once history ∧ history.getLast? ≠ some .started := by
  constructor
  · intro once
    refine ⟨once_of_append once, fun last => ?_⟩
    obtain ⟨front, rfl⟩ := List.getLast?_eq_some_iff.mp last
    have := once front [] [] (by simp)
    cases this
  · rintro ⟨once, last⟩
    refine once.concat fun _ before between same => ?_
    rcases List.eq_nil_or_concat' between with rfl | ⟨marks, m, rfl⟩
    · exact absurd (same ▸ List.getLast?_concat) last
    · cases m with
      | started =>
        rw [same, ← List.cons_append, ← List.append_assoc, List.getLast?_concat] at last
        exact absurd rfl last
      | ended => simp

/-! ### Gates -/

/-- A gate in front of some work, for the calls with one key. `S` is the store, `C`
what a started call remembers, `A` an answer and `O` another use of the store. -/
structure Gate (S : Type u) (C : Type v) (A : Type w) (O : Type x) where
  /-- A call arrives: started, or answered by the gate. -/
  arrive : S → Int → Option C × S
  /-- A started call is answered, and the answer recorded. -/
  record : S → C → A → Int → S
  other : S → O → S
  /-- The store has a record of the key. -/
  held : S → Bool

variable {S : Type u} {C : Type v} {A : Type w} {O : Type x} {gate : Gate S C A O}

/-- Only a call that finds no record is started; an answer from the record keeps
it; other uses do not write it. -/
structure Gate.Lawful (gate : Gate S C A O) : Prop where
  absent_of_started : ∀ s now, (gate.arrive s now).1 ≠ none → gate.held (gate.arrive s now).2 = false
  kept_of_answered : ∀ s now, (gate.arrive s now).1 = none →
    gate.held (gate.arrive s now).2 = gate.held s
  absent_of_other : ∀ s o, gate.held s = false → gate.held (gate.other s o) = false

namespace Gate

inductive Event (A : Type w) (O : Type x) where
  | arrive (now : Int)
  /-- The `i`-th of the calls under way is answered. -/
  | answer (i : Nat) (response : A) (now : Int)
  | other (use : O)

/-- The store, the calls under way, and the history of the key. -/
structure State (S : Type u) (C : Type v) where
  store : S
  underWay : List C
  history : List Mark

def start (store : S) : State S C := ⟨store, [], []⟩

/-- The record was there and is not any more. -/
def endedMark (gate : Gate S C A O) (before after : S) : List Mark :=
  if gate.held before && !gate.held after then [.ended] else []

def step (gate : Gate S C A O) (s : State S C) : Event A O → State S C
  | .arrive now =>
    let (started, store) := gate.arrive s.store now
    { store
      underWay := s.underWay ++ started.toList
      history := s.history ++ (gate.endedMark s.store store ++ started.toList.map fun _ => .started) }
  | .answer i response now =>
    match s.underWay[i]? with
    | none => s
    | some call =>
      let store := gate.record s.store call response now
      -- a record that is not kept has ended at once
      { store
        underWay := s.underWay.eraseIdx i
        history := s.history ++ if gate.held store then [] else [.ended] }
  | .other use =>
    let store := gate.other s.store use
    { s with store, history := s.history ++ gate.endedMark s.store store }

/-- A call that is passed on meets no work under way. -/
def Alone (gate : Gate S C A O) (s : State S C) : Event A O → Prop
  | .arrive now => (gate.arrive s.store now).1 ≠ none → s.underWay = []
  | .answer _ _ _ | .other _ => True

/-- What holds as long as calls are passed on alone. -/
structure Invariant (gate : Gate S C A O) (s : State S C) : Prop where
  single : s.underWay.length ≤ 1
  unrecorded : s.underWay ≠ [] → gate.held s.store = false ∧ s.history.getLast? = some .started
  taken : s.history.getLast? = some .started → s.underWay ≠ [] ∨ gate.held s.store = true
  once : Once s.history

theorem invariant_start (store : S) : Invariant gate (start store : State S C) where
  single := Nat.zero_le 1
  unrecorded busy := absurd rfl busy
  taken last := by cases last
  once := once_nil

theorem endedMark_of_absent {before : S} (absent : gate.held before = false) (after : S) :
    gate.endedMark before after = [] := by
  simp [endedMark, absent]

theorem endedMark_of_kept {before after : S} (kept : gate.held after = gate.held before) :
    gate.endedMark before after = [] := by
  cases held : gate.held before <;> simp [endedMark, kept, held]

theorem endedMark_of_lost {before after : S} (held : gate.held before = true)
    (lost : gate.held after = false) : gate.endedMark before after = [.ended] := by
  simp [endedMark, held, lost]

variable (s : State S C)

theorem step_answered {now : Int} (answered : (gate.arrive s.store now).1 = none)
    (lawful : gate.Lawful) :
    gate.step s (.arrive now : Event A O) = { s with store := (gate.arrive s.store now).2 } := by
  have kept := endedMark_of_kept (lawful.kept_of_answered s.store now answered)
  simp [step, answered, kept]

theorem step_started {now : Int} {call : C} (started : (gate.arrive s.store now).1 = some call) :
    gate.step s (.arrive now : Event A O) =
      ⟨(gate.arrive s.store now).2, s.underWay ++ [call],
        s.history ++ gate.endedMark s.store (gate.arrive s.store now).2 ++ [.started]⟩ := by
  simp [step, started]

theorem Invariant.free {s : State S C} (inv : Invariant gate s) (alone : s.underWay = []) {store : S}
    (absent : gate.held store = false) :
    Once (s.history ++ gate.endedMark s.store store ++ [.started]) := by
  rw [once_started_iff]
  cases held : gate.held s.store with
  | true =>
    rw [endedMark_of_lost held absent]
    refine ⟨once_ended inv.once, ?_⟩
    simp
  | false =>
    rw [endedMark_of_absent held, List.append_nil]
    refine ⟨inv.once, fun last => ?_⟩
    rcases inv.taken last with busy | recorded
    · exact busy alone
    · rw [held] at recorded
      cases recorded

theorem Invariant.of_idle {s : State S C} (idle : s.underWay = []) (once : Once s.history)
    (taken : s.history.getLast? = some .started → gate.held s.store = true) : Invariant gate s where
  single := by simp [idle]
  unrecorded busy := absurd idle busy
  taken last := .inr (taken last)
  once := once

theorem Invariant.step (lawful : gate.Lawful) (s : State S C) (e : Event A O) (inv : Invariant gate s)
    (alone : gate.Alone s e) : Invariant gate (gate.step s e) := by
  cases e with
  | arrive now =>
    cases verdict : (gate.arrive s.store now).1 with
    | none =>
      have kept := lawful.kept_of_answered s.store now verdict
      rw [step_answered s verdict lawful]
      exact
        { inv with
          unrecorded := by
            intro busy
            rw [kept]
            exact inv.unrecorded busy
          taken := by
            rw [kept]
            exact inv.taken }
    | some call =>
      have passed : (gate.arrive s.store now).1 ≠ none := by simp [verdict]
      have none' := alone passed
      have absent := lawful.absent_of_started s.store now passed
      rw [step_started s verdict]
      exact
        { single := by simp [none']
          unrecorded := fun _ => ⟨absent, List.getLast?_concat⟩
          taken := fun _ => .inl (by simp)
          once := inv.free none' absent }
  | answer i response now =>
    cases found : s.underWay[i]? with
    | none =>
      simp only [Gate.step, found]
      exact inv
    | some call =>
      have rest : s.underWay.eraseIdx i = [] := by
        apply List.eq_nil_of_length_eq_zero
        have := (List.getElem?_eq_some_iff.mp found).1
        have := inv.single
        rw [List.length_eraseIdx]
        split <;> omega
      simp only [Gate.step, found]
      cases kept : gate.held (gate.record s.store call response now) with
      | true => exact .of_idle rest (by simpa using inv.once) fun _ => kept
      | false => exact .of_idle rest (once_ended inv.once) (by simp)
  | other use =>
    cases held : gate.held s.store with
    | false =>
      have absent := lawful.absent_of_other s.store use held
      simp only [Gate.step, endedMark_of_absent held, List.append_nil]
      exact
        { inv with
          unrecorded := fun busy => ⟨absent, (inv.unrecorded busy).2⟩
          taken := by
            intro last
            rcases inv.taken last with busy | recorded
            · exact .inl busy
            · rw [held] at recorded
              cases recorded }
    | true =>
      have idle : s.underWay = [] := by
        by_contra busy
        rw [(inv.unrecorded busy).1] at held
        cases held
      cases kept : gate.held (gate.other s.store use) with
      | true =>
        simp only [Gate.step, endedMark_of_kept (kept.trans held.symm), List.append_nil]
        exact .of_idle idle inv.once fun _ => kept
      | false =>
        simp only [Gate.step, endedMark_of_lost held kept]
        exact .of_idle idle (once_ended inv.once) (by simp)

/-- A call that is passed on while the work is under way is a second start. -/
theorem Invariant.alone (e : Event A O) (inv : Invariant gate s)
    (once : Once (gate.step s e).history) : gate.Alone s e := by
  cases e with
  | arrive now =>
    intro passed
    obtain ⟨call, started⟩ := Option.ne_none_iff_exists'.mp passed
    by_contra busy
    obtain ⟨absent, last⟩ := inv.unrecorded busy
    rw [step_started s started, endedMark_of_absent absent, List.append_nil, once_started_iff] at once
    exact once.2 last
  | answer _ _ _ | other _ => trivial

theorem history_step (e : Event A O) : ∃ more, (gate.step s e).history = s.history ++ more := by
  cases e with
  | arrive now => exact ⟨_, rfl⟩
  | answer i response now =>
    simp only [step]
    split
    · exact ⟨[], (List.append_nil _).symm⟩
    · exact ⟨_, rfl⟩
  | other use => exact ⟨_, rfl⟩

theorem history_run (es : List (Event A O)) :
    ∃ more, (run gate.step s es).history = s.history ++ more := by
  induction es generalizing s with
  | nil => exact ⟨[], (List.append_nil _).symm⟩
  | cons e es ih =>
    obtain ⟨first, here⟩ := history_step s e
    obtain ⟨rest, later⟩ := ih (gate.step s e)
    exact ⟨first ++ rest, by rw [run_cons, later, here, List.append_assoc]⟩

/-- The work is started once per record exactly when no call is passed on while it
is under way. -/
theorem once_iff_alone (lawful : gate.Lawful) (store : S) (es : List (Event A O)) :
    Once (run gate.step (start store) es).history ↔ Along gate.step gate.Alone (start store) es := by
  have always : Along gate.step gate.Alone (start store) es ↔
      ∀ fs, fs <+: es → Once (run gate.step (start store) fs).history := by
    apply @along_iff_always _ _ _ _ _ _ (Invariant gate) fun s => Once s.history
    · exact fun s e inv alone => inv.step lawful s e alone
    · exact fun s inv => inv.once
    · exact fun s e inv once => inv.alone s e once
    · exact invariant_start store
  rw [always]
  constructor
  · rintro once fs ⟨rest, rfl⟩
    obtain ⟨more, later⟩ := history_run (run gate.step (start store) fs) rest
    rw [run_append, later] at once
    exact once_of_append once
  · intro always
    exact always es List.prefix_rfl

end Gate

end TalentTrust.Lib
