import TalentTrust.CircuitBreaker.Breaker

/-!
One probe at a time.

`probeInFlight` is cleared by every operation that settles and by every entry to
`HALF_OPEN`, so it says that a probe runs only as long as the probe is of the
present period and no other operation has settled since (`Tracked`). The breaker
keeps to one probe as long as no call comes to it while an older probe runs
(`one_probe_iff`).
-/

namespace TalentTrust.CircuitBreaker

open TalentTrust.Lib

variable {config : Config}

/-! ### What the flag says -/

/-- A probe of the present period that no other operation has overtaken. -/
def Fresh (s : State) (call : Call) : Prop :=
  call.startedIn = .halfOpen ∧ call.period = periods s.history ∧ call.overtaken = false

/-- `probeInFlight` is set while a fresh probe runs. -/
structure Tracked (s : State) : Prop where
  known : ∀ call ∈ s.running, call.period ≤ periods s.history
  flag : s.breaker.probeInFlight = true ↔ ∃ call ∈ s.running, Fresh s call

theorem tracked_initial (now : Int) : Tracked (.initial now) := by
  constructor
  · intro call mem
    cases mem
  · constructor
    · intro set
      cases set
    · rintro ⟨call, mem, _⟩
      cases mem

variable {s : State} (tracked : Tracked s)

include tracked

theorem Tracked.not_fresh_enter {call : Call} (mem : call ∈ s.running) :
    ¬ Fresh (enter s) call := by
  rintro ⟨_, same, _⟩
  have bound := tracked.known call mem
  simp only [enter, periods_entered] at same
  omega

theorem Tracked.enter : Tracked (enter s) := by
  constructor
  · intro call mem
    simp only [CircuitBreaker.enter, periods_entered]
    exact (tracked.known call mem).trans (Nat.le_succ _)
  · constructor
    · intro set
      cases set
    · rintro ⟨call, mem, fresh⟩
      exact absurd fresh (tracked.not_fresh_enter mem)

theorem Tracked.launch (accepts : s.breaker.Accepts) : Tracked (launch s) := by
  constructor
  · simp only [CircuitBreaker.launch, periods_started]
    exact forall_mem_concat tracked.known le_rfl
  · rcases accepts with closed | ⟨half, clear⟩
    · have unchanged : (CircuitBreaker.launch s).breaker.probeInFlight = s.breaker.probeInFlight := by
        simp [CircuitBreaker.launch, closed]
      rw [unchanged, tracked.flag]
      simp [CircuitBreaker.launch, Fresh, closed, or_and_right, exists_or]
    · simp [CircuitBreaker.launch, Fresh, half, or_and_right, exists_or]

theorem Tracked.conclude (i : Nat) (call : Call) (ok : Bool) :
    Tracked (conclude config s i call ok) := by
  constructor
  · intro other mem
    simp only [CircuitBreaker.conclude, List.mem_map, periods_settled] at mem ⊢
    obtain ⟨before, mem, rfl⟩ := mem
    exact tracked.known before (List.mem_of_mem_eraseIdx mem)
  · constructor
    · intro set
      cases set
    · rintro ⟨other, mem, _, _, fresh⟩
      obtain ⟨before, _, rfl⟩ := List.mem_map.mp mem
      cases fresh

omit tracked

theorem tracked_step (s : State) (e : Event) (tracked : Tracked s) (noReset : e ≠ .reset) :
    Tracked (step config s e) :=
  step_invariant (fun _ _ tracked => ⟨tracked.known, tracked.flag⟩)
    (fun _ tracked _ => tracked.enter) (fun _ tracked => tracked.launch)
    (fun _ i call ok tracked _ => tracked.conclude i call ok) s e tracked noReset

/-! ### Probes -/

def probes (s : State) : List Call := s.running.filter fun call => call.startedIn = .halfOpen

def OneProbe (s : State) : Prop := (probes s).length ≤ 1

instance (s : State) : Decidable (OneProbe s) := inferInstanceAs (Decidable (_ ≤ _))

theorem OneProbe.eq (one : OneProbe s) {a b : Call} (ha : a ∈ s.running) (hb : b ∈ s.running)
    (pa : a.startedIn = .halfOpen) (pb : b.startedIn = .halfOpen) : a = b := by
  have ma : a ∈ probes s := List.mem_filter.mpr ⟨ha, by simpa using pa⟩
  have mb : b ∈ probes s := List.mem_filter.mpr ⟨hb, by simpa using pb⟩
  unfold OneProbe at one
  match probes s, one, ma, mb with
  | [only], _, ma, mb => rw [List.mem_singleton.mp ma, List.mem_singleton.mp mb]

theorem oneProbe_conclude (one : OneProbe s) (i : Nat) (call : Call) (ok : Bool) :
    OneProbe (conclude config s i call ok) := by
  unfold OneProbe probes conclude at *
  rw [List.filter_map, List.length_map]
  exact ((List.eraseIdx_sublist s.running i).filter _).length_le.trans one

/-- Launching keeps to one probe iff, in `HALF_OPEN`, every probe that runs is fresh: the
flag then says that there is none. -/
theorem oneProbe_launch (tracked : Tracked s) (accepts : s.breaker.Accepts) (one : OneProbe s) :
    OneProbe (launch s) ↔
      (s.breaker.state = .halfOpen → ∀ call ∈ s.running, call.startedIn = .halfOpen → Fresh s call) := by
  rcases accepts with closed | ⟨half, clear⟩
  · have same : OneProbe (launch s) := by
      simpa [OneProbe, probes, launch, closed] using one
    refine iff_of_true same fun half => ?_
    rw [closed] at half
    cases half
  · have none_fresh : ∀ call ∈ s.running, ¬ Fresh s call := by
      intro call mem fresh
      rw [tracked.flag.mpr ⟨call, mem, fresh⟩] at clear
      cases clear
    have alone : OneProbe (launch s) ↔ ∀ call ∈ s.running, ¬ call.startedIn = .halfOpen := by
      simp [OneProbe, probes, launch, half]
    rw [alone]
    exact ⟨fun no _ call mem probe => absurd probe (no call mem),
      fun all call mem probe => none_fresh call mem (all half call mem probe)⟩

/-- A call of `execute` that comes to a `HALF_OPEN` breaker finds no probe of an earlier
period, and none that another operation has overtaken. -/
def NoLostProbe (config : Config) (s : State) : Event → Prop
  | .execute =>
    (s.breaker.Due config s.now → ∀ call ∈ s.running, call.startedIn ≠ .halfOpen) ∧
      (s.breaker.state = .halfOpen → ∀ call ∈ s.running, call.startedIn = .halfOpen →
        call.period = periods s.history ∧ call.overtaken = false)
  | _ => True

instance (config : Config) (s : State) : (e : Event) → Decidable (NoLostProbe config s e)
  | .execute => inferInstanceAs (Decidable (_ ∧ _))
  | .settle _ _ | .getState | .getStats | .tick _ | .reset => isTrue trivial

theorem noLostProbe_execute_iff (tracked : Tracked s) :
    NoLostProbe config s .execute ↔
      ((refresh config s).breaker.state = .halfOpen → ∀ call ∈ (refresh config s).running,
        call.startedIn = .halfOpen → Fresh (refresh config s) call) := by
  by_cases due : s.breaker.Due config s.now
  · rw [refresh_of_due due]
    constructor
    · intro cond _ call mem probe
      exact absurd probe (cond.1 due call mem)
    · intro fresh
      refine ⟨fun _ call mem probe => tracked.not_fresh_enter mem (fresh rfl call mem probe), ?_⟩
      intro half
      rw [due.1] at half
      cases half
  · rw [refresh_of_not_due due]
    constructor
    · intro cond half call mem probe
      exact ⟨probe, cond.2 half call mem probe⟩
    · intro fresh
      exact ⟨fun now => absurd now due, fun half call mem probe => (fresh half call mem probe).2⟩

theorem oneProbe_refresh (one : OneProbe s) : OneProbe (refresh config s) :=
  refresh_keeps one fun _ => one

theorem oneProbe_execute_iff (tracked : Tracked s) (one : OneProbe s) :
    OneProbe (step config s .execute) ↔ NoLostProbe config s .execute := by
  have tracked' : Tracked (refresh config s) := refresh_keeps tracked fun _ => tracked.enter
  have one' : OneProbe (refresh config s) := oneProbe_refresh one
  rw [noLostProbe_execute_iff tracked]
  rcases step_execute config s with ⟨accepts, next⟩ | ⟨rejects, next⟩
  · rw [next]
    exact oneProbe_launch tracked' accepts one'
  · rw [next]
    refine iff_of_true one' fun half call mem probe => ?_
    have set : (refresh config s).breaker.probeInFlight = true := by
      by_contra clear
      exact rejects (.inr ⟨half, Bool.eq_false_of_not_eq_true clear⟩)
    obtain ⟨fresh, mem', isFresh⟩ := tracked'.flag.mp set
    rw [one'.eq mem mem' probe isFresh.1]
    exact isFresh

theorem oneProbe_step {e : Event} (one : OneProbe s) (other : e ≠ .execute) :
    OneProbe (step config s e) := by
  cases e with
  | execute => exact absurd rfl other
  | settle i ok =>
    cases found : s.running[i]? with
    | none => rwa [step_settle_of_none found]
    | some call =>
      rw [step_settle found]
      exact oneProbe_conclude one i call ok
  | getState =>
    rw [step_getState]
    exact oneProbe_refresh one
  | getStats =>
    rw [step_getStats]
    exact oneProbe_refresh one
  | tick ms | reset => exact one

theorem oneProbe_step_iff (tracked : Tracked s) (one : OneProbe s) (e : Event) :
    OneProbe (step config s e) ↔ NoLostProbe config s e := by
  by_cases execute : e = .execute
  · rw [execute]
    exact oneProbe_execute_iff tracked one
  · refine iff_of_true (oneProbe_step one execute) ?_
    cases e with
    | execute => exact absurd rfl execute
    | _ => trivial

/-- The flag says what it should, and at most one probe runs. -/
structure SingleFile (s : State) : Prop extends Tracked s where
  one : OneProbe s

theorem singleFile_step (s : State) (e : Event) (inv : SingleFile s) (noReset : e ≠ .reset)
    (cond : NoLostProbe config s e) : SingleFile (step config s e) where
  toTracked := tracked_step s e inv.toTracked noReset
  one := (oneProbe_step_iff inv.toTracked inv.one e).mpr cond

/-- At most one probe runs in every state of a run iff every call of `execute` that comes
to a `HALF_OPEN` breaker finds the running probe, if any, fresh. -/
theorem one_probe_iff (config : Config) (now : Int) (events : List Event)
    (noReset : ∀ e ∈ events, e ≠ .reset) :
    Along (step config) (NoLostProbe config) (.initial now) events ↔
      ∀ fs, fs <+: events → OneProbe (run (step config) (.initial now) fs) :=
  (along_of_forall noReset).iff_always singleFile_step (fun _ inv => inv.one)
    (fun _ e inv _ => (oneProbe_step_iff inv.toTracked inv.one e).mp)
    ⟨tracked_initial now, Nat.zero_le 1⟩

/-- Default options. Six operations start and five fail, so the breaker opens; the sixth
fails after the breaker has let a probe through, which clears the flag and opens it again. -/
def lateFailure : List Event :=
  List.replicate 6 .execute ++ List.replicate 5 (.settle 0 false) ++
    [.tick 30000, .execute, .settle 0 false, .tick 30000, .execute]

theorem two_probes_after_late_failure :
    (∀ e ∈ lateFailure, e ≠ .reset) ∧
      (probes (run (step defaultConfig) (.initial 0) lateFailure)).length = 2 := by
  decide +kernel

/-- The same operations, with a probe that settles before the next call. -/
theorem one_probe_iff_of_settled :
    let events : List Event :=
      List.replicate 6 .execute ++ List.replicate 5 (.settle 0 false) ++
        [.tick 30000, .execute, .settle 1 true, .settle 0 false, .execute]
    (∀ e ∈ events, e ≠ .reset) ∧
      Along (step defaultConfig) (NoLostProbe defaultConfig) (.initial 0) events ∧
      ∀ fs, fs <+: events → OneProbe (run (step defaultConfig) (.initial 0) fs) := by
  intro events
  have noReset : ∀ e ∈ events, e ≠ .reset := by decide
  have met : Along (step defaultConfig) (NoLostProbe defaultConfig) (.initial 0) events := by
    decide +kernel
  exact ⟨noReset, met, (one_probe_iff _ 0 events noReset).mp met⟩

end TalentTrust.CircuitBreaker
