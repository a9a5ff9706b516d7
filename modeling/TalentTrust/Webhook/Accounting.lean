import TalentTrust.Webhook.Reputation

/-!
What becomes of the deliveries of reputation events.

A delivery that has returned should have had one 2xx response and left no dead
letter, or have had none and left exactly one. It returns either way unless the
breaker turns it away or its loop ends by itself: these returns leave nothing
(`attempt_cases`). So every delivery is accounted for exactly when each attempt
that is due is let through (`delivery_accounting_iff`). Every delivery returns
after a bounded number of turns.
-/

namespace TalentTrust.Webhook.Reputation

open TalentTrust.Lib TalentTrust.CircuitBreaker

/-! ### Accounts -/

/-- The 2xx responses of a delivery. -/
def Delivery.successes (d : Delivery) : Nat := d.outcomes.countP HttpOutcome.ok

/-- The dead letters that a delivery has pushed. -/
def State.letters (s : State) (i : Nat) : Nat := s.dlq.countP fun letter => letter.delivery = i

variable (options : Options)

/-- A success or a dead letter, and no more requests than attempts. -/
structure Accounted (s : State) (i : Nat) (d : Delivery) : Prop where
  settled : d.successes = 1 ∧ s.letters i = 0 ∨ d.successes = 0 ∧ s.letters i = 1
  bounded : (d.requests : ℚ) ≤ options.attempts

def AllAccounted (s : State) : Prop :=
  ∀ i d, s.deliveries[i]? = some d → d.ended = true → Accounted options s i d

/-- The attempt is one of those allowed, and the breaker lets it through. -/
def Admitted (now : Int) (b : Breaker) (n : Nat) : Prop :=
  (n : ℚ) ≤ options.attempts ∧ (b.transitionIfNeeded options.breaker now).Accepts

/-- The attempts that are due at an event are admitted: the first one of every delivery that
begins, and the next one of a delivery whose timer fires. -/
def LetThrough (s : State) : Event → Prop
  | .emitEvent event now => Along (deliverToSubscription options event now)
      (fun s _ => Admitted options now s.breaker 1) s (targets s event)
  | .turn i _ now _ => ∀ d, s.deliveries[i]? = some d → d.stage = .sleeping →
      Admitted options now s.breaker (d.attemptNumber + 1)
  | _ => True

/-! ### What the parts of a delivery do -/

section Parts

variable {options : Options} {b : Breaker} {d : Delivery} {now : Int}
  (config : CircuitBreaker.Config) (b : Breaker) (now : Int)

theorem start_cases :
    ((b.transitionIfNeeded config now).Accepts ∧ ∃ b', b.start config now = (.ok (), b')) ∨
      (¬ (b.transitionIfNeeded config now).Accepts ∧ ∃ e b', b.start config now = (.error e, b')) := by
  simp only [Breaker.start, Breaker.Accepts]
  obtain ⟨state, failures, successes, last, flag⟩ := b.transitionIfNeeded config now
  cases state with
  | closed => left; simp
  | opened => right; simp
  | halfOpen =>
    cases flag with
    | false => left; simp
    | true => right; simp

theorem transitionIfNeeded_idem :
    (b.transitionIfNeeded config now).transitionIfNeeded config now = b.transitionIfNeeded config now := by
  by_cases due : b.Due config now
  · rw [Breaker.transitionIfNeeded, Breaker.transitionIfNeeded, if_pos due, if_neg]
    rintro ⟨opened, -⟩
    cases opened
  · rw [Breaker.transitionIfNeeded, Breaker.transitionIfNeeded, if_neg due, if_neg due]

variable (options : Options) (b : Breaker) (d : Delivery)

theorem attempt_cases (n : Nat) (now : Int) :
    (Admitted options now b n ∧ (attempt options b d n now).1 =
        { d with attemptNumber := n, stage := .requesting, requests := d.requests + 1 }) ∨
      (¬ Admitted options now b n ∧ ∃ result, (attempt options b d n now).1 =
        { d with stage := .returned result }) := by
  by_cases allowed : (n : ℚ) ≤ options.attempts
  · rcases start_cases options.breaker b now with ⟨accepts, b', started⟩ | ⟨refuses, e, b', started⟩
    · left
      simp [attempt, allowed, started, Admitted, accepts]
    · right
      refine ⟨fun admitted => refuses admitted.2, { success := false, circuitOpen := true }, ?_⟩
      simp [attempt, allowed, started]
  · right
    refine ⟨fun admitted => allowed admitted.1, { success := false }, ?_⟩
    rw [attempt, if_neg allowed]

theorem deliver_cases (now : Int) :
    (Admitted options now b 1 ∧ (deliver options b d now).1 =
        { d with attemptNumber := 1, stage := .requesting, requests := d.requests + 1 }) ∨
      (¬ Admitted options now b 1 ∧ ∃ result, (deliver options b d now).1 =
        { d with stage := .returned result }) := by
  by_cases opened : (b.transitionIfNeeded options.breaker now).state = .opened
  · right
    refine ⟨?_, { success := false, circuitOpen := true }, ?_⟩
    · rintro ⟨-, accepts⟩
      simp [Breaker.Accepts, opened] at accepts
    · simp [deliver, Breaker.getState, opened]
  · have admitted : Admitted options now (b.transitionIfNeeded options.breaker now) 1 ↔
        Admitted options now b 1 := by
      rw [Admitted, Admitted, transitionIfNeeded_idem]
    have begins : deliver options b d now =
        attempt options (b.transitionIfNeeded options.breaker now) d 1 now := by
      simp [deliver, Breaker.getState, opened]
    rw [begins, ← admitted]
    exact attempt_cases options _ d 1 now

theorem receive_cases (outcome : HttpOutcome) (now : Int) (uuid : String) :
    let out := receive options b d outcome now uuid
    (outcome.ok = true ∧ out.2.2 = none ∧ ∃ result, out.1 =
        { d with outcomes := d.outcomes ++ [outcome], stage := .returned result }) ∨
      (outcome.ok = false ∧ out.2.2 = none ∧ (d.attemptNumber : ℚ) < options.attempts ∧ out.1 =
        { d with outcomes := d.outcomes ++ [outcome], stage := .sleeping }) ∨
      (outcome.ok = false ∧ out.2.2 = some (d.letter uuid now) ∧ ∃ result, out.1 =
        { d with outcomes := d.outcomes ++ [outcome], stage := .returned result }) := by
  intro out
  cases good : outcome.ok with
  | true =>
    left
    simp [out, receive, good]
  | false =>
    right
    by_cases retry : (getLabelValues outcome.failure.1 outcome.failure.2).1 = .failure ∧
        isRetryableFailure outcome.failure.1 outcome.failure.2 = true ∧
        (d.attemptNumber : ℚ) < options.attempts
    · left
      simp [out, receive, good, retry]
    · right
      simp [out, receive, good, retry, Delivery.letter]

end Parts

/-! ### The invariant -/

variable (options : Options) (s : State)

/-- A delivery under way has had no success and left no letter. -/
structure UnderWay (i : Nat) (d : Delivery) : Prop where
  unanswered : d.successes = 0
  unlettered : s.letters i = 0
  requested : d.requests = d.attemptNumber
  allowed : (d.attemptNumber : ℚ) ≤ options.attempts

structure Fine (i : Nat) (d : Delivery) : Prop where
  ended : d.ended = true → Accounted options s i d
  underWay : d.ended = false → UnderWay options s i d

structure Invariant : Prop where
  fine : ∀ i d, s.deliveries[i]? = some d → Fine options s i d
  addressed : ∀ letter ∈ s.dlq, letter.delivery < s.deliveries.length

section Invariant

variable {options : Options} {s : State}

theorem Invariant.allAccounted (inv : Invariant options s) : AllAccounted options s :=
  fun i d found ended => (inv.fine i d found).ended ended

variable {d : Delivery} {i : Nat}

theorem Fine.of_letters {s' : State} (fine : Fine options s i d) (same : s'.letters i = s.letters i)
    : Fine options s' i d where
  ended ended := ⟨same ▸ (fine.ended ended).settled, (fine.ended ended).bounded⟩
  underWay going :=
    let way := fine.underWay going
    ⟨way.unanswered, same ▸ way.unlettered, way.requested, way.allowed⟩

/-- The state after a turn of a delivery. -/
def State.advance (s : State) (i : Nat) (d : Delivery) (b : Breaker) (letter : Option DlqEntry) : State :=
  { s with
    breaker := b
    deliveries := s.deliveries.set i d
    dlq := s.dlq ++ (letter.map (Letter.mk i)).toList }

theorem letters_advance (s : State) (i j : Nat) (d : Delivery) (b : Breaker) (letter : Option DlqEntry) :
    (s.advance i d b letter).letters j = s.letters j + if i = j then letter.toList.length else 0 := by
  rw [State.letters, State.advance, List.countP_append, ← State.letters]
  cases letter with
  | none => simp
  | some entry =>
    by_cases same : i = j
    · simp [same]
    · simp [same]

theorem Invariant.advance (inv : Invariant options s) {d' : Delivery}
    (found : s.deliveries[i]? = some d) {b : Breaker} {letter : Option DlqEntry}
    (next : Fine options (s.advance i d' b letter) i d') :
    Invariant options (s.advance i d' b letter) where
  fine j e held := by
    have inside : i < s.deliveries.length := (List.getElem?_eq_some_iff.mp found).1
    by_cases same : i = j
    · subst same
      have held' : (s.deliveries.set i d')[i]? = some e := held
      rw [List.getElem?_set_self inside] at held'
      exact Option.some.inj held' ▸ next
    · have held' : (s.deliveries.set i d')[j]? = some e := held
      rw [List.getElem?_set_ne same] at held'
      apply (inv.fine j e held').of_letters
      rw [letters_advance, if_neg same, Nat.add_zero]
  addressed sent mem := by
    have inside : i < s.deliveries.length := (List.getElem?_eq_some_iff.mp found).1
    have length : (s.advance i d' b letter).deliveries.length = s.deliveries.length := List.length_set
    rw [length]
    rcases List.mem_append.mp mem with before | now
    · exact inv.addressed sent before
    · obtain ⟨entry, -, rfl⟩ := Option.map_eq_some_iff.mp (Option.mem_toList.mp now)
      exact inside

theorem letters_of_addressed (inv : Invariant options s) : s.letters s.deliveries.length = 0 := by
  rw [State.letters, List.countP_eq_zero]
  intro letter mem
  have := inv.addressed letter mem
  simp only [decide_eq_true_eq]
  omega

/-! ### The beginning of a delivery -/

theorem deliverToSubscription_frame (options : Options) (event : ReputationWebhookEvent) (now : Int) (s : State)
    (target : String × ReputationWebhookSubscription) :
    (∃ d, d.successes = 0 ∧
        (deliverToSubscription options event now s target).deliveries = s.deliveries ++ [d] ∧
        ((Admitted options now s.breaker 1 ∧ d.ended = false ∧ d.requests = 1 ∧ d.attemptNumber = 1) ∨
          (¬ Admitted options now s.breaker 1 ∧ d.ended = true))) ∧
      (deliverToSubscription options event now s target).dlq = s.dlq := by
  refine ⟨?_, rfl⟩
  rcases deliver_cases options s.breaker
      { subscriptionId := target.1, url := target.2.webhookUrl,
        body := signedBody event (createWebhookSignature event.toJson target.2.secret now),
        attemptNumber := 0, stage := .requesting, requests := 0, outcomes := [] } now with
    ⟨admitted, began⟩ | ⟨refused, result, began⟩
  · exact ⟨_, rfl, congrArg (fun d => s.deliveries ++ [d]) began, .inl ⟨admitted, rfl, rfl, rfl⟩⟩
  · exact ⟨_, rfl, congrArg (fun d => s.deliveries ++ [d]) began, .inr ⟨refused, rfl⟩⟩

theorem foldl_deliverToSubscription (options : Options) (event : ReputationWebhookEvent) (now : Int)
    (ts : List (String × ReputationWebhookSubscription)) (s : State) :
    (∃ ds, (ts.foldl (deliverToSubscription options event now) s).deliveries = s.deliveries ++ ds) ∧
      (ts.foldl (deliverToSubscription options event now) s).dlq = s.dlq := by
  induction ts generalizing s with
  | nil => exact ⟨⟨[], (List.append_nil _).symm⟩, rfl⟩
  | cons t ts ih =>
    obtain ⟨⟨d, -, appended, -⟩, same⟩ := deliverToSubscription_frame options event now s t
    obtain ⟨⟨ds, rest⟩, kept⟩ := ih (deliverToSubscription options event now s t)
    refine ⟨⟨d :: ds, ?_⟩, kept.trans same⟩
    rw [List.foldl_cons, rest, appended, List.append_assoc, List.singleton_append]

variable (inv : Invariant options s) (event : ReputationWebhookEvent) (now : Int)

include inv event now

theorem Invariant.deliverToSubscription
    (target : String × ReputationWebhookSubscription) (admitted : Admitted options now s.breaker 1) :
    Invariant options (deliverToSubscription options event now s target) := by
  obtain ⟨⟨d, none, appended, made⟩, same⟩ := deliverToSubscription_frame options event now s target
  obtain ⟨-, going, requests, number⟩ := made.resolve_right fun refused => refused.1 admitted
  have letters : ∀ i, (Reputation.deliverToSubscription options event now s target).letters i = s.letters i := by
    intro i
    rw [State.letters, same, State.letters]
  refine ⟨fun i e held => ?_, fun letter mem => ?_⟩
  · rw [appended, List.getElem?_append] at held
    split at held
    · exact (inv.fine i e held).of_letters (letters i)
    · rename_i outside
      obtain ⟨last, rfl⟩ : i = s.deliveries.length ∧ e = d := by
        rw [List.getElem?_singleton] at held
        split at held
        · exact ⟨by omega, (Option.some.inj held).symm⟩
        · cases held
      refine ⟨fun ended => ?_, fun _ => ⟨none, ?_, requests.trans number.symm, ?_⟩⟩
      · rw [going] at ended
        cases ended
      · rw [letters, last, letters_of_addressed inv]
      · rw [number]
        exact admitted.1
  · rw [same] at mem
    have := inv.addressed letter mem
    rw [appended, List.length_append]
    omega

/-- Deliveries that begin together are accounted for only if each of them is let through. -/
theorem admitted_of_allAccounted (ts : List (String × ReputationWebhookSubscription))
    (good : AllAccounted options (ts.foldl (Reputation.deliverToSubscription options event now) s)) :
    Along (Reputation.deliverToSubscription options event now) (fun s _ => Admitted options now s.breaker 1)
      s ts := by
  induction ts generalizing s with
  | nil => trivial
  | cons t ts ih =>
    obtain ⟨⟨d, none, appended, made⟩, same⟩ := deliverToSubscription_frame options event now s t
    rcases made with ⟨admitted, -⟩ | ⟨-, ended⟩
    · exact ⟨admitted, ih (inv.deliverToSubscription event now t admitted) good⟩
    · -- it has returned without a trace, and stays so
      exfalso
      obtain ⟨⟨ds, rest⟩, kept⟩ := foldl_deliverToSubscription options event now ts
        (Reputation.deliverToSubscription options event now s t)
      have held : ((t :: ts).foldl (Reputation.deliverToSubscription options event now) s).deliveries[
          s.deliveries.length]? = some d := by
        rw [List.foldl_cons, rest, appended]
        simp
      have letters : ((t :: ts).foldl (Reputation.deliverToSubscription options event now) s).letters
          s.deliveries.length = 0 := by
        rw [State.letters, List.foldl_cons, kept, same, ← State.letters, letters_of_addressed inv]
      have settled := (good _ d held ended).settled
      rw [none, letters] at settled
      simp at settled

omit inv event now

/-! ### Turns -/

theorem successes_append (d : Delivery) (outcome : HttpOutcome) (stage : Stage) :
    ({ d with outcomes := d.outcomes ++ [outcome], stage } : Delivery).successes =
      d.successes + if outcome.ok then 1 else 0 := by
  rw [Delivery.successes, List.countP_append, List.countP_singleton, Delivery.successes]

theorem step_turn_requesting (found : s.deliveries[i]? = some d)
    (requesting : d.stage = .requesting) (outcome : HttpOutcome) (now : Int) (uuid : String) :
    let out := receive options s.breaker d outcome now uuid
    step options s (.turn i outcome now uuid) = s.advance i out.1 out.2.1 out.2.2 := by
  simp only [step, found, requesting]
  rfl

theorem step_turn_sleeping (found : s.deliveries[i]? = some d) (sleeping : d.stage = .sleeping)
    (outcome : HttpOutcome) (now : Int) (uuid : String) :
    let out := attempt options s.breaker d (d.attemptNumber + 1) now
    step options s (.turn i outcome now uuid) = s.advance i out.1 out.2 none := by
  simp [step, found, sleeping, State.advance]

theorem step_emitEvent (event : ReputationWebhookEvent) (now : Int) :
    step options s (.emitEvent event now) =
      (targets s event).foldl (Reputation.deliverToSubscription options event now) s := rfl

theorem ended_eq_false_iff : d.ended = false ↔ d.stage = .requesting ∨ d.stage = .sleeping := by
  unfold Delivery.ended
  cases d.stage <;> simp

theorem fine_receive (way : UnderWay options s i d) (outcome : HttpOutcome) (now : Int)
    (uuid : String) : let out := receive options s.breaker d outcome now uuid
    Fine options (s.advance i out.1 out.2.1 out.2.2) i out.1 := by
  intro out
  have bounded : (d.requests : ℚ) ≤ options.attempts := way.requested ▸ way.allowed
  rcases receive_cases options s.breaker d outcome now uuid with
    ⟨good, none, result, next⟩ | ⟨bad, none, -, next⟩ | ⟨bad, letter, result, next⟩
  · refine ⟨fun _ => ⟨.inl ⟨?_, ?_⟩, ?_⟩, fun going => ?_⟩
    · rw [next, successes_append, way.unanswered, good]
      rfl
    · rw [letters_advance, none, way.unlettered]
      simp
    · rw [next]
      exact bounded
    · rw [next] at going
      cases going
  · refine ⟨fun ended => ?_, fun _ => ⟨?_, ?_, ?_, ?_⟩⟩
    · rw [next] at ended
      cases ended
    · rw [next, successes_append, way.unanswered, bad]
      rfl
    · rw [letters_advance, none, way.unlettered]
      simp
    · rw [next]
      exact way.requested
    · rw [next]
      exact way.allowed
  · refine ⟨fun _ => ⟨.inr ⟨?_, ?_⟩, ?_⟩, fun going => ?_⟩
    · rw [next, successes_append, way.unanswered, bad]
      rfl
    · rw [letters_advance, letter, way.unlettered]
      simp
    · rw [next]
      exact bounded
    · rw [next] at going
      cases going

theorem fine_attempt (way : UnderWay options s i d) {now : Int}
    (admitted : Admitted options now s.breaker (d.attemptNumber + 1)) :
    let out := attempt options s.breaker d (d.attemptNumber + 1) now
    Fine options (s.advance i out.1 out.2 none) i out.1 := by
  intro out
  have next := (attempt_cases options s.breaker d (d.attemptNumber + 1) now).resolve_right
    fun refused => refused.1 admitted
  refine ⟨fun ended => ?_, fun _ => ⟨?_, ?_, ?_, ?_⟩⟩
  · rw [next.2] at ended
    cases ended
  · rw [next.2]
    exact way.unanswered
  · rw [letters_advance, way.unlettered]
    simp
  · rw [next.2, way.requested]
  · rw [next.2]
    exact admitted.1

theorem Invariant.step (inv : Invariant options s) (e : Event) (let_through : LetThrough options s e) :
    Invariant options (step options s e) := by
  cases e with
  | addSubscription subscription uuid | removeSubscription id =>
    exact ⟨fun i d found => (inv.fine i d found).of_letters rfl, inv.addressed⟩
  | emitEvent event now =>
    rw [step_emitEvent]
    exact Along.invariant (fun s t inv admitted => inv.deliverToSubscription event now t admitted)
      let_through inv
  | turn i outcome now uuid =>
    cases found : s.deliveries[i]? with
    | none => simpa only [Reputation.step, found] using inv
    | some d =>
      cases stage : d.stage with
      | requesting =>
        have way := (inv.fine i d found).underWay (ended_eq_false_iff.mpr (.inl stage))
        rw [step_turn_requesting found stage]
        exact inv.advance found (fine_receive way outcome now uuid)
      | sleeping =>
        have way := (inv.fine i d found).underWay (ended_eq_false_iff.mpr (.inr stage))
        rw [step_turn_sleeping found stage]
        exact inv.advance found (fine_attempt way (let_through d found stage))
      | returned result => simpa only [Reputation.step, found, stage] using inv

/-- A delivery that is turned away at its next attempt returns without a trace. -/
theorem letThrough_of_allAccounted (inv : Invariant options s) (e : Event)
    (good : AllAccounted options (Reputation.step options s e)) : LetThrough options s e := by
  cases e with
  | addSubscription subscription uuid | removeSubscription id => trivial
  | emitEvent event now =>
    exact admitted_of_allAccounted inv event now (targets s event) good
  | turn i outcome now uuid =>
    intro d found stage
    by_contra refused
    have way := (inv.fine i d found).underWay (ended_eq_false_iff.mpr (.inr stage))
    obtain ⟨-, result, next⟩ := (attempt_cases options s.breaker d (d.attemptNumber + 1) now).resolve_left
      fun admitted => refused admitted.1
    have inside : i < s.deliveries.length := (List.getElem?_eq_some_iff.mp found).1
    rw [step_turn_sleeping found stage, next] at good
    have settled := (good i _ (List.getElem?_set_self inside) rfl).settled
    rw [letters_advance, way.unlettered] at settled
    have unanswered : ({ d with stage := .returned result } : Delivery).successes = 0 := way.unanswered
    rw [unanswered] at settled
    simp at settled

theorem invariant_initial (options : Options)
    (subscriptions : OrderedMap String ReputationWebhookSubscription) (b : Breaker) :
    Invariant options (.initial subscriptions b) where
  fine _ _ held := by cases held
  addressed _ mem := by cases mem

end Invariant

/-! ### Deliveries return -/

/-- The turns that a delivery may still take. -/
def rank (d : Delivery) : Nat :=
  match d.stage with
  | .requesting => 2 * (⌊options.attempts⌋₊ - d.attemptNumber) + 2
  | .sleeping => 2 * (⌊options.attempts⌋₊ - d.attemptNumber) + 1
  | .returned _ => 0

def Event.isTurn (i : Nat) : Event → Bool
  | .turn j _ _ _ => i = j
  | _ => false

section Returns

variable {options : Options} {s : State} {d : Delivery}

theorem ended_of_rank (zero : rank options d = 0) : d.ended = true := by
  unfold rank at zero
  unfold Delivery.ended
  cases stage : d.stage with
  | requesting | sleeping => rw [stage] at zero; cases zero
  | returned result => rfl

theorem rank_receive (requesting : d.stage = .requesting) (outcome : HttpOutcome) (now : Int)
    (uuid : String) :
    rank options (receive options s.breaker d outcome now uuid).1 < rank options d := by
  rcases receive_cases options s.breaker d outcome now uuid with
    ⟨-, -, result, next⟩ | ⟨-, -, -, next⟩ | ⟨-, -, result, next⟩
  · simp [rank, next, requesting]
  · simp [rank, next, requesting]
  · simp [rank, next, requesting]

theorem rank_attempt (sleeping : d.stage = .sleeping) (now : Int) :
    rank options (attempt options s.breaker d (d.attemptNumber + 1) now).1 < rank options d := by
  rcases attempt_cases options s.breaker d (d.attemptNumber + 1) now with
    ⟨admitted, next⟩ | ⟨-, result, next⟩
  · have small : d.attemptNumber + 1 ≤ ⌊options.attempts⌋₊ := Nat.le_floor admitted.1
    simp only [rank, next, sleeping]
    omega
  · simp [rank, next, sleeping]

theorem rank_step (options : Options) {i : Nat} (found : s.deliveries[i]? = some d) (e : Event) :
    ∃ d', (step options s e).deliveries[i]? = some d' ∧
      rank options d' ≤ rank options d - if e.isTurn i then 1 else 0 := by
  have inside : i < s.deliveries.length := (List.getElem?_eq_some_iff.mp found).1
  cases e with
  | addSubscription subscription uuid
  | removeSubscription id => exact ⟨d, found, by simp [Event.isTurn]⟩
  | emitEvent event now =>
    obtain ⟨⟨ds, grown⟩, -⟩ := foldl_deliverToSubscription options event now (targets s event) s
    refine ⟨d, ?_, by simp [Event.isTurn]⟩
    rw [step_emitEvent, grown, List.getElem?_append_left inside, found]
  | turn j outcome now uuid =>
    by_cases same : i = j
    · subst same
      simp only [Event.isTurn, decide_true, if_true]
      cases stage : d.stage with
      | requesting =>
        rw [step_turn_requesting found stage]
        exact ⟨_, List.getElem?_set_self inside,
          Nat.le_pred_of_lt (rank_receive stage outcome now uuid)⟩
      | sleeping =>
        rw [step_turn_sleeping found stage]
        exact ⟨_, List.getElem?_set_self inside, Nat.le_pred_of_lt (rank_attempt stage now)⟩
      | returned result =>
        refine ⟨d, ?_, by simp [rank, stage]⟩
        simp [step, found, stage]
    · refine ⟨d, ?_, by simp [Event.isTurn, same]⟩
      have other : j ≠ i := fun eq => same eq.symm
      cases held : s.deliveries[j]? with
      | none => simpa only [step, held] using found
      | some e =>
        cases stage : e.stage with
        | requesting =>
          rw [step_turn_requesting held stage, State.advance, List.getElem?_set_ne other, found]
        | sleeping =>
          rw [step_turn_sleeping held stage, State.advance, List.getElem?_set_ne other, found]
        | returned result => simpa only [step, held, stage] using found

theorem ended_of_turns {i : Nat} (found : s.deliveries[i]? = some d) (es : List Event)
    (enough : rank options d ≤ es.countP (Event.isTurn i)) :
    ∃ d', (run (step options) s es).deliveries[i]? = some d' ∧ d'.ended = true := by
  induction es generalizing s d with
  | nil => exact ⟨d, found, ended_of_rank (Nat.le_zero.mp enough)⟩
  | cons e es ih =>
    obtain ⟨d', found', less⟩ := rank_step options found e
    apply ih found'
    rw [List.countP_cons] at enough
    omega

end Returns

/-- Every delivery of a run that has returned is accounted for, in every state of the run, iff
every attempt that is due is let through; and every delivery returns. -/
theorem delivery_accounting_iff (options : Options)
    (subscriptions : OrderedMap String ReputationWebhookSubscription) (b : Breaker) (events : List Event) :
    (Along (step options) (LetThrough options) (.initial subscriptions b) events ↔
      ∀ fs, fs <+: events → AllAccounted options (run (step options) (.initial subscriptions b) fs)) ∧
    ∀ i < (run (step options) (.initial subscriptions b) events).deliveries.length, ∀ more : List Event,
      2 * ⌊options.attempts⌋₊ + 2 ≤ more.countP (Event.isTurn i) →
      ∃ d, (run (step options) (.initial subscriptions b) (events ++ more)).deliveries[i]? = some d ∧
        d.ended = true := by
  constructor
  · exact along_iff_always (fun s e inv through => inv.step e through) (fun s inv => inv.allAccounted)
      (fun s e inv good => letThrough_of_allAccounted inv e good) (invariant_initial options subscriptions b)
  · intro i inside more enough
    rw [run_append]
    apply ended_of_turns (List.getElem?_eq_getElem inside)
    apply le_trans _ enough
    unfold rank
    split <;> omega

def sampleSubscription : ReputationWebhookSubscription :=
  ⟨"s1", "https://receiver.example", "key", [], none⟩

/-- With the default options the receiver fails five times: the first event becomes a dead
letter and opens the breaker, and the second event is lost. -/
theorem second_event_lost :
    let fails : Event := .turn 0 (.response 500) 1000 "d1"
    let s := run (step {}) (.initial .empty .initial)
      ([.addSubscription sampleSubscription "", .emitEvent sampleEvent 0] ++ List.replicate 9 fails ++
        [.emitEvent sampleEvent 2000])
    s.deliveries.map (fun d => (d.ended, d.successes, d.requests)) = [(true, 0, 5), (true, 0, 0)] ∧
      s.letters 0 = 1 ∧ s.letters 1 = 0 := by
  decide +kernel

end TalentTrust.Webhook.Reputation
