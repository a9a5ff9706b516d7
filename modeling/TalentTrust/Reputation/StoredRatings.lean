import TalentTrust.Reputation.Routes

/-!
The rows of `reputation_entries`, over runs of the entry points of
`ReputationService` that lead to an insert.

What a row says about its users is guarded on every way to the table: reviewer and
target are compared and looked up on the contract, and the triple is `UNIQUE`. That
the rating is an integer is not. `updateProfile` asks for it, but `createRating` and
`createBulkRatings` do not, and a column of type `INTEGER` keeps a number with a
fraction as it is, so all that a rating meets there is the `CHECK` on its range.
-/

namespace TalentTrust.Reputation.StoredRatings

open TalentTrust.Lib TalentTrust.Reputation

/-! ### Calls -/

/-- A value of type `number`. -/
inductive Number where
  | finite (value : Decimal)
  | infinite
  | nan
  deriving DecidableEq

/-- The rating for the table. A number that is not finite gets into no row: an infinite one
fails the `CHECK`, and `NaN` is bound as `NULL`. Zero stands for both, which is refused too. -/
def Number.bound : Number → Decimal
  | .finite value => value
  | .infinite | .nan => .ofNat 0

/-- The arguments of `createRating`, which are also the fields of an item of a batch. -/
structure RatingArgs where
  reviewerId : String
  targetId : String
  rating : Number
  contextId : String
  comment : Option String
  deriving DecidableEq

def RatingArgs.entry (args : RatingArgs) : CreateReputationEntry :=
  { reviewerId := args.reviewerId
    targetId := args.targetId
    rating := args.rating.bound
    comment := args.comment
    contextId := args.contextId }

/-- The payload of `updateProfile`; a context that is not a string is passed on as empty. -/
def RatingArgs.body (args : RatingArgs) : CreateRatingBody :=
  ⟨args.reviewerId, args.contextId, args.rating.bound, args.comment⟩

/-- A call of the service, or a step of the rest of the application, which may change
whatever is not a row of `reputation_entries`. -/
inductive Call where
  | createRating (args : RatingArgs) (draw : RatingDraw)
  | updateProfile (args : RatingArgs) (draw : RatingDraw)
  | createBulkRatings (items : List RatingArgs) (draws : Nat → RatingDraw)
  | elsewhere (after : Backend)

/-- A call under the flags that hold when it is made. -/
structure Event where
  host : Host
  correlationId : Option String
  call : Call

def serve (s : Backend) (e : Event) : Backend :=
  match e.call with
  | .createRating args draw => (createRating e.host s args.entry e.correlationId draw).2
  | .updateProfile args draw =>
    (updateProfile e.host s args.targetId args.body e.correlationId draw).2
  | .createBulkRatings items draws =>
    (createBulkRatings e.host s (items.map RatingArgs.entry) e.correlationId draws).2
  | .elsewhere after => if after.db.entries = s.db.entries then after else s

/-- The backend, and each row with the contracts of the time when it was inserted. -/
structure Watched extends Backend where
  inserted : List (ReputationEntry × List Contract)

def step (w : Watched) (e : Event) : Watched :=
  let next := serve w.toBackend e
  { toBackend := next
    inserted := w.inserted ++
      (next.db.entries.filter (· ∉ w.db.entries)).map fun row => (row, w.db.contracts) }

/-! ### The property and the condition -/

def Participates (contracts : List Contract) (contractId userId : String) : Prop :=
  ∃ contract ∈ contracts, contract.id = contractId ∧
    (contract.clientId = userId ∨ contract.freelancerId = userId)

/-- A row has an integer from 1 to 5 as its rating, and two parties of its contract as its
users. -/
structure WellFormed (contracts : List Contract) (row : ReputationEntry) : Prop where
  integer : ∃ n, 1 ≤ n ∧ n ≤ 5 ∧ row.rating.toNat? = some n
  differ : row.reviewerId ≠ row.targetId
  reviewer : Participates contracts row.contextId row.reviewerId
  target : Participates contracts row.contextId row.targetId

/-- Every row is well formed, with its contract as it was when the row was inserted. -/
def RowsFormed (w : Watched) : Prop :=
  ∀ row ∈ w.db.entries, ∃ contracts, (row, contracts) ∈ w.inserted ∧ WellFormed contracts row

/-- The ratings that reach the table without a look at their number. -/
def Call.unchecked : Call → List CreateReputationEntry
  | .createRating args _ => [args.entry]
  | .createBulkRatings items _ => items.map RatingArgs.entry
  | .updateProfile _ _ | .elsewhere _ => []

/-- Those of them that the guards and the table let through are integers. -/
def InsertsIntegers (w : Watched) (e : Event) : Prop :=
  ∀ rating ∈ e.call.unchecked, Ratable e.host w.db rating → rating.rating.toNat?.isSome = true

/-! ### What a call adds -/

theorem isRating_iff (rating : Decimal) :
    isRating rating = true ↔ ∃ n, 1 ≤ n ∧ n ≤ 5 ∧ rating.toNat? = some n := by
  unfold isRating
  cases rating.toNat? <;> simp

theorem range_of_checked {entry : CreateReputationEntry} (checked : entry.Checked)
    (integer : entry.rating.toNat?.isSome = true) :
    ∃ n, 1 ≤ n ∧ n ≤ 5 ∧ entry.rating.toNat? = some n := by
  obtain ⟨n, found⟩ := Option.isSome_iff_exists.mp integer
  have low := (Decimal.less_eq_false_iff _ _).mp checked.1
  have high := (Decimal.less_eq_false_iff _ _).mp checked.2.1
  rw [Decimal.value_of_toNat? found, Decimal.value_of_toNat? (Decimal.toNat?_ofNat _)] at low high
  exact ⟨n, by exact_mod_cast low, by exact_mod_cast high, found⟩

theorem participates_of_verified {db : Database} {contractId userId : String}
    (verified : db.verifyContractParticipation contractId userId = true) :
    Participates db.contracts contractId userId := by
  unfold Database.verifyContractParticipation at verified
  rw [List.any_eq_true] at verified
  obtain ⟨contract, mem, party⟩ := verified
  exact ⟨contract, mem, of_decide_eq_true party⟩

/-- A call makes a list of ratings, each of which is among the unchecked ones or was checked;
the rest of the application keeps the rows. -/
theorem serve_cases (s : Backend) (e : Event) :
    (serve s e).db.entries = s.db.entries ∨ ∃ ratings draws,
      (serve s e).db = (bulkLoop e.host e.correlationId draws 0 ratings s).2.db ∧
      ∀ rating ∈ ratings, rating ∈ e.call.unchecked ∨ isRating rating.rating = true := by
  obtain ⟨host, correlationId, call⟩ := e
  cases call with
  | createRating args draw =>
    exact .inr ⟨[args.entry], fun _ => draw, rfl, fun _ mem => .inl mem⟩
  | updateProfile args draw =>
    cases ready : host.initialized with
    | false => exact .inl (by simp [serve, updateProfile_of_uninitialized _ _ ready])
    | true =>
      by_cases valid : args.targetId ≠ "" ∧ isValidReputationRatingPayload args.body = true
      · refine .inr ⟨[args.entry], fun _ => draw, ?_, fun rating mem => .inr ?_⟩
        · simp only [serve, updateProfile_of_valid _ _ ready valid.1 valid.2]
          rfl
        · rw [List.mem_singleton.mp mem]
          exact (Bool.and_eq_true _ _ ▸ valid.2 :).2
      · rw [not_and_or, not_not, Bool.not_eq_true] at valid
        exact .inl (by simp [serve, updateProfile_of_invalid _ _ valid])
  | createBulkRatings items draws =>
    cases ready : host.initialized with
    | false => exact .inl (by simp [serve, createBulkRatings, ready])
    | true =>
      refine .inr ⟨items.map RatingArgs.entry, draws, ?_, fun _ mem => .inl mem⟩
      simp [serve, createBulkRatings, ready]
  | elsewhere after =>
    left
    dsimp only [serve]
    split
    · assumption
    · rfl

theorem wellFormed_of_added {w : Watched} {e : Event} (integers : InsertsIntegers w e)
    {row : ReputationEntry} (stored : row ∈ (serve w.toBackend e).db.entries)
    (added : row ∉ w.db.entries) : WellFormed w.db.contracts row := by
  rcases serve_cases w.toBackend e with kept | ⟨ratings, draws, rated, listed⟩
  · rw [kept] at stored
    exact absurd stored added
  · rw [rated] at stored
    obtain ⟨mem, ratable⟩ := ratable_of_added stored added
    have integer : ∃ n, 1 ≤ n ∧ n ≤ 5 ∧ row.rating.toNat? = some n := by
      rcases listed _ mem with unchecked | checked
      · exact range_of_checked ratable.checked (integers _ unchecked ratable)
      · exact (isRating_iff _).mp checked
    exact ⟨integer, ratable.other, participates_of_verified ratable.reviewer,
      participates_of_verified ratable.target⟩

theorem RowsFormed.step {w : Watched} {e : Event} (formed : RowsFormed w)
    (integers : InsertsIntegers w e) : RowsFormed (step w e) := by
  intro row stored
  by_cases old : row ∈ w.db.entries
  · obtain ⟨contracts, recorded, known⟩ := formed row old
    exact ⟨contracts, List.mem_append_left _ recorded, known⟩
  · refine ⟨w.db.contracts, List.mem_append_right _ ?_, wellFormed_of_added integers stored old⟩
    exact List.mem_map_of_mem (List.mem_filter.mpr ⟨stored, decide_eq_true old⟩)

/-- From a table without rows, a run whose unchecked ratings are integers leaves well-formed
rows, no two with the same reviewer, target and context. -/
theorem stored_ratings_wellFormed (w : Watched) (empty : w.db.entries = []) (events : List Event)
    (integers : Along step InsertsIntegers w events) :
    RowsFormed (run step w events) ∧ ((run step w events).db.entries.map (·.triple)).Nodup := by
  have start : RowsFormed w := by
    intro row stored
    rw [empty] at stored
    cases stored
  exact ⟨integers.invariant (fun _ _ formed here => formed.step here) start,
    (run step w events).db.triples_differ⟩

/-! ### Four and a half -/

def unrated : Watched := { toBackend := oneContract.toBackend, inserted := [] }

def ratingOf (value : Decimal) : Event where
  host := plainHost
  correlationId := none
  call := .createRating ⟨"u1", "u2", .finite value, "7c9e6679-7425-40de-944b-e07fc1f90ae7", none⟩
    ⟨⟨"r", "2026-01-01T00:00:00.000Z"⟩, ⟨"log", "2026-01-01T00:00:00.000Z"⟩⟩

def fourPointFive : Decimal := ⟨45, -1, by decide⟩

/-- A rating of 4.5 is stored as it is. -/
theorem fraction_stored :
    (run step unrated [ratingOf fourPointFive]).db.entries.map (·.rating) = [fourPointFive] ∧
      ¬ RowsFormed (run step unrated [ratingOf fourPointFive]) := by
  have stored : (run step unrated [ratingOf fourPointFive]).db.entries.map (·.rating) =
      [fourPointFive] := by
    decide +kernel
  refine ⟨stored, fun formed => ?_⟩
  have mem : fourPointFive ∈ (run step unrated [ratingOf fourPointFive]).db.entries.map (·.rating) := by
    exact List.mem_singleton_self _
  obtain ⟨row, listed, rating⟩ := List.mem_map.mp mem
  obtain ⟨_, _, wellFormed⟩ := formed row listed
  obtain ⟨n, _, _, found⟩ := wellFormed.integer
  rw [rating] at found
  cases found

/-- A rating of 5 is well formed. -/
theorem integer_wellFormed :
    (run step unrated [ratingOf (.ofNat 5)]).db.entries.map (·.rating) = [.ofNat 5] ∧
      RowsFormed (run step unrated [ratingOf (.ofNat 5)]) := by
  have integers : Along step InsertsIntegers unrated [ratingOf (.ofNat 5)] := by
    refine ⟨fun rating listed _ => ?_, trivial⟩
    rw [List.mem_singleton.mp listed]
    rfl
  exact ⟨by decide +kernel, (stored_ratings_wellFormed unrated rfl _ integers).1⟩

end TalentTrust.Reputation.StoredRatings
