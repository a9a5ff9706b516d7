import Mathlib.Order.Basic
import Mathlib.Data.List.Basic

/-!
Runs of a deterministic state machine under a condition on its steps.

A machine is a step function `State → Event → State`; an event that is not
enabled leaves the state as it is. `Along step cond` says that every step of a
run meets `cond`, which reads the state before the step and the event. The
rules below turn what one step does under the condition into what holds at the
end of a run. The condition is closed under taking an initial part of a run
(`Along.of_prefix`), so a rule about the end of a run is a rule about every
state the run reaches.
-/

namespace TalentTrust.Lib

universe u v

variable {State : Type u} {Event : Type v} {step : State → Event → State}
  {cond : State → Event → Prop} (s : State)

variable (step) in
def run (events : List Event) : State :=
  events.foldl step s

@[simp] theorem run_nil : run step s [] = s := rfl

@[simp] theorem run_cons (e : Event) (es : List Event) :
    run step s (e :: es) = run step (step s e) es := rfl

theorem run_append (es fs : List Event) : run step s (es ++ fs) = run step (run step s es) fs :=
  List.foldl_append

section Lists

variable {α : Type*} {ok : α → Prop} {xs xs' : List α} {x : α}

theorem forall_mem_concat (all : ∀ y ∈ xs, ok y) (new : ok x) : ∀ y ∈ xs ++ [x], ok y :=
  List.forall_mem_append.mpr ⟨all, List.forall_mem_singleton.mpr new⟩

theorem forall_mem_set (all : ∀ y ∈ xs, ok y) (new : ok x) (i : Nat) : ∀ y ∈ xs.set i x, ok y := by
  intro y mem
  rcases List.mem_or_eq_of_mem_set mem with mem | rfl
  · exact all y mem
  · exact new

theorem getElem?_of_isPrefix (initial : xs <+: xs') {i : Nat} (found : xs[i]? = some x) : xs'[i]? = some x := by
  obtain ⟨more, rfl⟩ := initial
  rw [List.getElem?_append_left (List.getElem?_eq_some_iff.mp found).1, found]

end Lists

/-- Every step of the run from `s` meets `cond`, read in the state before it. -/
def Along (step : State → Event → State) (cond : State → Event → Prop) :
    State → List Event → Prop
  | _, [] => True
  | s, e :: es => cond s e ∧ Along step cond (step s e) es

@[simp] theorem along_nil : Along step cond s [] := trivial

@[simp] theorem along_cons (e : Event) (es : List Event) :
    Along step cond s (e :: es) ↔ cond s e ∧ Along step cond (step s e) es := Iff.rfl

theorem along_append (es fs : List Event) :
    Along step cond s (es ++ fs) ↔ Along step cond s es ∧ Along step cond (run step s es) fs := by
  induction es generalizing s with
  | nil => simp
  | cons e es ih => simp [ih, and_assoc]

variable {es : List Event} {s : State}

theorem Along.of_prefix {fs : List Event} (h : Along step cond s fs)
    (initial : es <+: fs) : Along step cond s es := by
  obtain ⟨rest, rfl⟩ := initial
  exact ((along_append s es rest).mp h).1

theorem along_of_forall {only : Event → Prop}
    (all : ∀ e ∈ es, only e) : Along step (fun _ e => only e) s es := by
  induction es generalizing s with
  | nil => trivial
  | cons e es ih =>
    obtain ⟨here, rest⟩ := List.forall_mem_cons.mp all
    exact ⟨here, ih rest⟩

instance [∀ s e, Decidable (cond s e)] : ∀ s es, Decidable (Along step cond s es)
  | _, [] => isTrue trivial
  | s, e :: es =>
    have := instDecidableAlong (step s e) es
    inferInstanceAs (Decidable (cond s e ∧ Along step cond (step s e) es))

variable {Inv : State → Prop}

/-- An invariant that every step keeps under the condition holds at the end of
every run that meets it. -/
theorem Along.invariant
    (keeps : ∀ s e, Inv s → cond s e → Inv (step s e)) (h : Along step cond s es)
    (start : Inv s) : Inv (run step s es) := by
  induction es generalizing s with
  | nil => exact start
  | cons e es ih => exact ih h.2 (keeps s e start h.1)

theorem run_invariant (keeps : ∀ s e, Inv s → Inv (step s e))
    (start : Inv s) (es : List Event) : Inv (run step s es) := by
  induction es generalizing s with
  | nil => exact start
  | cons e es ih => exact ih (keeps s e start)

/-- When the condition keeps an invariant in a run whose steps are `given`, and
is needed for what the invariant gives, the run meets it at every step iff that
holds in every state it reaches. -/
theorem Along.iff_always {given : State → Event → Prop} {Good : State → Prop}
    (admitted : Along step given s es)
    (keeps : ∀ s e, Inv s → given s e → cond s e → Inv (step s e)) (good : ∀ s, Inv s → Good s)
    (needs : ∀ s e, Inv s → given s e → Good (step s e) → cond s e) (start : Inv s) :
    Along step cond s es ↔ ∀ fs, fs <+: es → Good (run step s fs) := by
  induction es generalizing s with
  | nil =>
    constructor
    · intro _ fs initial
      rw [List.prefix_nil.mp initial]
      exact good s start
    · intro _
      trivial
  | cons e es ih =>
    constructor
    · intro met fs initial
      rcases List.prefix_cons_iff.mp initial with rfl | ⟨gs, rfl, rest⟩
      · exact good s start
      · exact (ih admitted.2 (keeps s e start admitted.1 met.1)).mp met.2 gs rest
    · intro always
      have next : Good (step s e) := always [e] (List.cons_prefix_cons.mpr ⟨rfl, List.nil_prefix⟩)
      have met : cond s e := needs s e start admitted.1 next
      refine ⟨met, (ih admitted.2 (keeps s e start admitted.1 met)).mpr ?_⟩
      intro fs initial
      exact always (e :: fs) (List.cons_prefix_cons.mpr ⟨rfl, initial⟩)

/-- When every step keeps an invariant under which the condition says what is asked of a
step, a run meets the condition at every step iff each of its steps is as asked. -/
theorem Along.iff_each {given asked : State → Event → Prop} (admitted : Along step given s es)
    (keeps : ∀ s e, Inv s → given s e → Inv (step s e))
    (agree : ∀ s e, Inv s → given s e → (cond s e ↔ asked s e)) (start : Inv s) :
    Along step cond s es ↔ ∀ fs e, fs ++ [e] <+: es → asked (run step s fs) e := by
  induction es generalizing s with
  | nil =>
    constructor
    · intro _ fs e initial
      exact absurd (List.prefix_nil.mp initial) (List.append_ne_nil_of_right_ne_nil fs (by simp))
    · intro _
      trivial
  | cons e es ih =>
    have rest := ih admitted.2 (keeps s e start admitted.1)
    constructor
    · rintro ⟨here, later⟩ fs d initial
      cases fs with
      | nil =>
        obtain ⟨rfl, _⟩ := List.cons_prefix_cons.mp initial
        exact (agree s d start admitted.1).mp here
      | cons f fs =>
        obtain ⟨rfl, inner⟩ := List.cons_prefix_cons.mp initial
        exact rest.mp later fs d inner
    · intro each
      refine ⟨(agree s e start admitted.1).mpr ?_, rest.mpr fun fs d initial => ?_⟩
      · exact each [] e (List.cons_prefix_cons.mpr ⟨rfl, List.nil_prefix⟩)
      · exact each (e :: fs) d (List.cons_prefix_cons.mpr ⟨rfl, initial⟩)

theorem Along.congr {given other : State → Event → Prop}
    (admitted : Along step given s es) (agree : ∀ s e, given s e → (cond s e ↔ other s e)) :
    Along step cond s es ↔ Along step other s es := by
  induction es generalizing s with
  | nil => exact Iff.rfl
  | cons e es ih => exact and_congr (agree s e admitted.1) (ih admitted.2)

theorem along_true (s : State) (es : List Event) : Along step (fun _ _ => True) s es := by
  induction es generalizing s with
  | nil => trivial
  | cons e es ih => exact ⟨trivial, ih _⟩

/-- When the condition keeps an invariant, and is needed for what the invariant
gives, a run meets it at every step iff that holds in every state it reaches. -/
theorem along_iff_always {Good : State → Prop}
    (keeps : ∀ s e, Inv s → cond s e → Inv (step s e)) (good : ∀ s, Inv s → Good s)
    (needs : ∀ s e, Inv s → Good (step s e) → cond s e) (start : Inv s) :
    Along step cond s es ↔ ∀ fs, fs <+: es → Good (run step s fs) :=
  (along_true s es).iff_always (fun s e inv _ => keeps s e inv) good
    (fun s e inv _ => needs s e inv) start

variable {R : State → State → Prop}

/-- When, under an invariant, the condition is exactly what makes a step climb, a run meets
it at every step iff every earlier state of the run is below every later one. -/
theorem along_iff_monotone_of_invariant
    (refl : ∀ s, R s s) (trans : ∀ {a b c}, R a b → R b c → R a c)
    (keeps : ∀ s e, Inv s → Inv (step s e))
    (exact_step : ∀ s e, Inv s → (cond s e ↔ R s (step s e))) (start : Inv s)
    (es : List Event) :
    Along step cond s es ↔
      ∀ fs gs, fs <+: gs → gs <+: es → R (run step s fs) (run step s gs) := by
  have climbs : Along step cond s es ↔ ∀ fs e, fs ++ [e] <+: es →
      R (run step s fs) (step (run step s fs) e) :=
    (along_true s es).iff_each (fun s e inv _ => keeps s e inv)
      (fun s e inv _ => exact_step s e inv) start
  rw [climbs]
  constructor
  · rintro climbs fs _ ⟨rest, rfl⟩ initial
    induction rest generalizing fs with
    | nil => simpa using refl (run step s fs)
    | cons e rest ih =>
      have split : fs ++ e :: rest = (fs ++ [e]) ++ rest := by simp
      rw [split] at initial ⊢
      have here := climbs fs e ((List.prefix_append _ _).trans initial)
      have later := ih (fs ++ [e]) initial
      rw [run_append s fs [e]] at later
      exact trans here later
  · intro monotone fs e initial
    have pair := monotone fs (fs ++ [e]) (List.prefix_append _ _) initial
    rwa [run_append] at pair

theorem along_iff_monotone (refl : ∀ s, R s s)
    (trans : ∀ {a b c}, R a b → R b c → R a c) (exact_step : ∀ s e, cond s e ↔ R s (step s e))
    (s : State) (es : List Event) :
    Along step cond s es ↔
      ∀ fs gs, fs <+: gs → gs <+: es → R (run step s fs) (run step s gs) :=
  along_iff_monotone_of_invariant refl trans (fun _ _ (_ : True) => trivial)
    (fun s e _ => exact_step s e) trivial es

/-! ### Runs under a clock -/

section Clock

universe w

variable {Clock : Type w} [Preorder Clock] (time : Event → Clock) {Inv : Clock → State → Prop}

/-- An invariant that may speak of the time of the last step, and that every later step keeps
under the condition, holds at the end of every run in the order of time. -/
theorem Along.invariant_at
    (keeps : ∀ {c s} e, Inv c s → c ≤ time e → cond s e → Inv (time e) (step s e))
    {c : Clock} (h : Along step cond s es) (start : Inv c s)
    (late : ∀ e ∈ es, c ≤ time e) (ordered : es.Pairwise fun d e => time d ≤ time e) :
    ∃ last, Inv last (run step s es) := by
  induction es generalizing c s with
  | nil => exact ⟨c, start⟩
  | cons e es ih =>
    obtain ⟨later, rest⟩ := List.pairwise_cons.mp ordered
    exact ih h.2 (keeps e start (late e List.mem_cons_self) h.1) later rest

theorem along_of_invariant_at
    (keeps : ∀ {c s} e, Inv c s → c ≤ time e → cond s e ∧ Inv (time e) (step s e))
    {c : Clock} (start : Inv c s) (late : ∀ e ∈ es, c ≤ time e)
    (ordered : es.Pairwise fun d e => time d ≤ time e) : Along step cond s es := by
  induction es generalizing c s with
  | nil => trivial
  | cons e es ih =>
    obtain ⟨later, rest⟩ := List.pairwise_cons.mp ordered
    obtain ⟨met, next⟩ := keeps e start (late e List.mem_cons_self)
    exact ⟨met, ih next later rest⟩

theorem head_le_of_ordered {e : Event}
    (ordered : (e :: es).Pairwise fun d e => time d ≤ time e) : ∀ d ∈ e :: es, time e ≤ time d := by
  intro d mem
  rcases List.mem_cons.mp mem with rfl | mem
  · exact le_refl _
  · exact (List.pairwise_cons.mp ordered).1 d mem

end Clock

/-! ### Two runs at once -/

variable (step) in
/-- Two copies of a machine, each with an event of its own. -/
def lockstep (s : State × State) (e : Event × Event) : State × State :=
  (step s.1 e.1, step s.2 e.2)

theorem run_lockstep (s : State × State) (es : List (Event × Event)) :
    run (lockstep step) s es = (run step s.1 (es.map Prod.fst), run step s.2 (es.map Prod.snd)) := by
  induction es generalizing s with
  | nil => rfl
  | cons e es ih => exact ih (lockstep step s e)

/-! ### Noninterference -/

/-- Events that leave a view of the state as it is do not count, if what the others make of the
view depends on nothing else. -/
theorem view_run_filter {V : Type*} (view : State → V) (counts : Event → Bool)
    (local_ : ∀ s t e, view s = view t → view (step s e) = view (step t e))
    (other : ∀ s e, counts e = false → view (step s e) = view s) {s t : State}
    (same : view s = view t) (es : List Event) :
    view (run step s es) = view (run step t (es.filter counts)) := by
  induction es generalizing s t with
  | nil => exact same
  | cons e es ih =>
    rw [List.filter_cons]
    split
    · exact ih (local_ s t e same)
    · rename_i ignored
      exact ih ((other s e (Bool.eq_false_iff.mpr ignored)).trans same)

/-! ### Answers -/

section Answers

universe w x y

variable {Other : Type w} {Answer : Type x} {Clock : Type y}

/-- The answers of a machine to a list of requests. -/
def answers (serve : State → Event → Answer × State) : State → List Event → List Answer
  | _, [] => []
  | s, e :: es => (serve s e).1 :: answers serve (serve s e).2 es

/-- Two machines answer alike if a relation between their states, at the time of the last
request, has them answer alike and is kept by requests that come later. -/
theorem answers_eq_of_simulation [Preorder Clock] (time : Event → Clock)
    {serve : State → Event → Answer × State} {serve' : Other → Event → Answer × Other}
    {R : Clock → State → Other → Prop}
    (simulates : ∀ {c s t} e, R c s t → c ≤ time e →
      (serve s e).1 = (serve' t e).1 ∧ R (time e) (serve s e).2 (serve' t e).2)
    {c : Clock} {t : Other} (related : R c s t)
    (late : ∀ e ∈ es, c ≤ time e) (ordered : es.Pairwise fun d e => time d ≤ time e) :
    answers serve s es = answers serve' t es := by
  induction es generalizing c s t with
  | nil => rfl
  | cons e es ih =>
    obtain ⟨later, rest⟩ := List.pairwise_cons.mp ordered
    obtain ⟨same, related'⟩ := simulates e related (late e List.mem_cons_self)
    rw [answers, answers, same, ih related' later rest]

end Answers

end TalentTrust.Lib
