import TalentTrust.Contracts.Service
import TalentTrust.Milestones.Service

/-!
Milestones and the budgets of their contracts.

`createContract` refuses milestones that exceed the budget together
(`accepted_le_budget`). Nothing else does: `updateContract` compares neither new
milestones with the budget nor a new budget with anything, and the milestone
records are filed, deleted and restored without a look at the contract. The
sums stay within the budgets in a run whose operations all pass the checks that
are not made (`milestones_within_budget`). `validateContractBounds` has maxima only, and compares
the running total with one: with negative amounts its verdict depends on their order
(`bounds_sound_iff`).

The milestones of a contract are not stored with it. `accepted` is history: the
milestones that were last accepted with each contract, which no operation reads.
-/

namespace TalentTrust.Milestones

open TalentTrust.Lib TalentTrust.Retention TalentTrust.Contracts

/-- A platform that adds amounts exactly. -/
structure ExactHost extends Contracts.Host where
  exact : ∀ a b, ∃ c, plus a b = some c ∧ c.value = a.value + b.value

/-- The amounts added as decimals. -/
def exactHost (isUuid isDatetime : String → Bool) (milestonesEnabled : Bool) : ExactHost where
  plus a b := some (a.add b)
  isUuid
  isDatetime
  milestonesEnabled
  exact a b := ⟨a.add b, rfl, Decimal.value_add a b⟩

/-! ### Runs -/

structure Books where
  store : Contracts.Store
  milestones : MilestoneStore
  accepted : OrderedMap String (List Contracts.Milestone)

/-- Before any contract. An update needs the column `deleted_at`, which the migrations do not
make. -/
def Books.initial (users : List String) (softDeletes : Bool) : Books :=
  ⟨⟨users, .empty, softDeletes⟩, .empty, .empty⟩

inductive Operation where
  | createContract (data : CreateContractDto) (fresh : Fresh)
  | updateContract (id : String) (dto : UpdateContractDto)
  /-- `id` is what `randomUUID()` draws: no record has it. -/
  | create (contractId : String) (input : CreateMilestoneInput) (id : String) (now : Date)
  | softDelete (contractId milestoneId : String) (now : Date)
  | restore (contractId milestoneId : String) (now : Date) (envValue : Option String)

/-- An operation that is refused changes nothing. -/
def step (host : ExactHost) (s : Books) : Operation → Books
  | .createContract data fresh =>
    match Contracts.createContract host.toHost s.store data fresh with
    | .error _ => s
    | .ok (row, store) =>
      { s with
        store
        accepted := s.accepted.set row.id ((effectiveMilestones host.toHost data.milestones).getD []) }
  | .updateContract id dto =>
    match Contracts.updateContract host.toHost s.store id dto with
    | .error _ => s
    | .ok (_, store) =>
      match effectiveMilestones host.toHost dto.milestones with
      | none => { s with store }
      | some ms => { s with store, accepted := s.accepted.set id ms }
  | .create contractId input id now =>
    if s.milestones.has id then s
    else { s with milestones := (Milestones.create s.milestones contractId input id now).2 }
  | .softDelete contractId milestoneId now =>
    match Milestones.softDelete s.milestones contractId milestoneId now with
    | .error _ => s
    | .ok (_, milestones) => { s with milestones }
  | .restore contractId milestoneId now envValue =>
    match Milestones.restore s.milestones contractId milestoneId now envValue with
    | .error _ => s
    | .ok (_, milestones) => { s with milestones }

/-! ### Sums and budgets -/

/-- The sum of milestones that were accepted with a contract. -/
def milestonesSum (ms : List Contracts.Milestone) : ℚ :=
  (ms.map fun m => (m.amount.map Decimal.value).getD 0).sum

/-- What counts for one contract: its budget, if it exists, and the two sums. -/
structure View where
  budget : Option ℚ
  accepted : ℚ
  active : ℚ

def Books.view (s : Books) (id : String) : View where
  budget := (s.store.contracts.get? id).map fun c => c.amount.value
  accepted := milestonesSum ((s.accepted.get? id).getD [])
  active := activeSum s.milestones id

/-- Both sums are within the budget. -/
def View.Covered (v : View) : Prop := ∀ b ∈ v.budget, v.accepted ≤ b ∧ v.active ≤ b

/-- Every contract covers its milestones. -/
def WithinBudget (s : Books) : Prop := ∀ id, (s.view id).Covered

/-- The checks that are not made, on the arguments of an operation and what is stored before it:
a new contract's budget covers what is filed under its id; the budget that an update brings, or
the stored one, covers the milestones it brings, or those accepted last, and the active records;
with a created or restored record the active ones are within the budget; and no record with a
negative amount is deleted. -/
def Fits (host : ExactHost) (s : Books) : Operation → Prop
  | .createContract data fresh =>
    ∀ budget ∈ data.budget, activeSum s.milestones fresh.id ≤ budget.value
  | .updateContract id dto =>
    ∀ c ∈ s.store.contracts.get? id,
      (effectiveMilestones host.toHost dto.milestones).elim (s.view id).accepted milestonesSum ≤
          (dto.budget.getD c.amount).value ∧
        activeSum s.milestones id ≤ (dto.budget.getD c.amount).value
  | .create contractId input _ _ =>
    ∀ c ∈ s.store.contracts.get? contractId,
      activeSum s.milestones contractId + input.amount.value ≤ c.amount.value
  | .softDelete _ milestoneId _ => ∀ record ∈ s.milestones.get? milestoneId, 0 ≤ record.amount.value
  | .restore contractId milestoneId _ _ =>
    ∀ record ∈ s.milestones.get? milestoneId, ∀ c ∈ s.store.contracts.get? contractId,
      activeSum s.milestones contractId + record.amount.value ≤ c.amount.value

/-! ### Bounds -/

theorem zero_value : Contracts.zero.value = 0 := by
  simp [Contracts.zero, Decimal.ofNat, Decimal.value]

section Bounds

variable (host : ExactHost) (budget : Decimal) (ms : List Contracts.Milestone)

/-- The verdict of `validateContractBounds`. -/
def boundsValid : Bool :=
  (validateContractBounds host.toHost (some budget) (some ms)).isOk

/-- From zero to the maximum. -/
def InBounds (amount : ℚ) : Prop := 0 ≤ amount ∧ amount ≤ maxContractAmountStroops.value

/-- The verdict does not depend on the order of the milestones, and a valid one bounds the
budget, the amounts and their total. -/
structure BoundsSound : Prop where
  unordered : ∀ ms', ms'.Perm ms → boundsValid host budget ms' = boundsValid host budget ms
  sound : boundsValid host budget ms = true → InBounds budget.value ∧
    (∀ m ∈ ms, ∀ a ∈ m.amount, InBounds a.value) ∧ InBounds (milestonesSum ms)

/-- What the maxima alone ask. -/
structure BelowMaxima : Prop where
  price : budget.value ≤ maxContractAmountStroops.value
  count : ms.length ≤ maxMilestonesPerContract
  given : ∀ m ∈ ms, m.amount ≠ none
  total : milestonesSum ms ≤ maxContractAmountStroops.value

variable {budget ms}

theorem milestonesSum_cons {m : Contracts.Milestone} {amount : Decimal} (here : m.amount = some amount) :
    milestonesSum (m :: ms) = amount.value + milestonesSum ms := by
  simp [milestonesSum, here]

theorem milestonesSum_append (front back : List Contracts.Milestone) :
    milestonesSum (front ++ back) = milestonesSum front + milestonesSum back := by
  simp [milestonesSum]

/-- The loop looks at every sum of a prefix. -/
theorem totalWithin_eq_none_iff {start : Decimal}
    (le : start.value ≤ maxContractAmountStroops.value) :
    totalWithin host.toHost start ms = none ↔ (∀ m ∈ ms, m.amount ≠ none) ∧
      ∀ front, front <+: ms → start.value + milestonesSum front ≤ maxContractAmountStroops.value := by
  induction ms generalizing start with
  | nil => simp [totalWithin, milestonesSum, le]
  | cons m ms ih =>
    cases here : m.amount with
    | none => simp [totalWithin, here]
    | some amount =>
      obtain ⟨next, added, exact'⟩ := host.exact start amount
      by_cases within : next.value ≤ maxContractAmountStroops.value
      · have passed : totalWithin host.toHost start (m :: ms) = totalWithin host.toHost next ms := by
          rw [totalWithin, here]
          simp [added, Option.filter_some, (Decimal.less_eq_false_iff _ _).mpr within]
        rw [passed, ih within]
        refine and_congr (by simp [here]) ⟨fun all front before => ?_, fun all front before => ?_⟩
        · cases front with
          | nil => simpa [milestonesSum] using le
          | cons first front =>
            obtain ⟨rfl, rest⟩ := List.cons_prefix_cons.mp before
            rw [milestonesSum_cons here, ← add_assoc, ← exact']
            exact all front rest
        · have sum := all (m :: front) (List.cons_prefix_cons.mpr ⟨rfl, before⟩)
          rwa [milestonesSum_cons here, ← add_assoc, ← exact'] at sum
      · have stopped : totalWithin host.toHost start (m :: ms) ≠ none := by
          rw [totalWithin, here]
          simp only [added, Option.filter_some, (Decimal.less_iff _ _).mpr (not_le.mp within)]
          simp
        refine iff_of_false stopped fun all => within ?_
        have sum := all.2 [m] (List.prefix_append [m] ms)
        rw [milestonesSum_cons here] at sum
        simpa [exact', milestonesSum] using sum

theorem max_nonneg : Contracts.zero.value ≤ maxContractAmountStroops.value :=
  (Decimal.less_eq_false_iff _ _).mp (by decide)

/-- Among milestones below the maxima the verdict is that of the sums of prefixes. -/
theorem boundsValid_iff :
    boundsValid host budget ms = true ↔ BelowMaxima budget ms ∧
      ∀ front back, front ++ back = ms → milestonesSum front ≤ maxContractAmountStroops.value := by
  have loop := @totalWithin_eq_none_iff host ms _ max_nonneg
  simp only [zero_value, zero_add] at loop
  unfold boundsValid validateContractBounds
  dsimp only
  by_cases dear : maxContractAmountStroops.value < budget.value
  · rw [if_pos ((Decimal.less_iff _ _).mpr dear)]
    exact iff_of_false Bool.false_ne_true fun valid => not_le.mpr dear valid.1.price
  · rw [if_neg ((Decimal.less_iff _ _).not.mpr dear)]
    by_cases many : maxMilestonesPerContract < ms.length
    · rw [if_pos many]
      exact iff_of_false Bool.false_ne_true fun valid => not_le.mpr many valid.1.count
    · rw [if_neg many]
      cases total : totalWithin host.toHost Contracts.zero ms with
      | some message =>
        refine iff_of_false Bool.false_ne_true fun valid => ?_
        have ended := loop.mpr ⟨valid.1.given, ?_⟩
        · simp [ended] at total
        · rintro front ⟨back, parts⟩
          exact valid.2 front back parts
      | none =>
        obtain ⟨given, sums⟩ := loop.mp total
        exact iff_of_true rfl ⟨⟨not_lt.mp dear, not_lt.mp many, given, sums ms (List.prefix_refl ms)⟩,
          fun front back parts => sums front ⟨back, parts⟩⟩

/-- Below the maxima a sum of a prefix exceeds only with what follows it below zero. -/
theorem boundsValid_of_parts (below : BelowMaxima budget ms)
    (parts : ∀ front back, front ++ back = ms → milestonesSum front ≤ 0 ∨ 0 ≤ milestonesSum back) :
    boundsValid host budget ms = true := by
  refine (boundsValid_iff host).mpr ⟨below, fun front back whole => ?_⟩
  have total := below.total
  rw [← whole, milestonesSum_append] at total
  rcases parts front back whole with debit | credit
  · exact debit.trans (zero_value.symm.le.trans max_nonneg)
  · linarith

def Milestone.value (m : Contracts.Milestone) : ℚ := (m.amount.map Decimal.value).getD 0

theorem milestonesSum_nonneg (nonneg : ∀ m ∈ ms, 0 ≤ Milestone.value m) : 0 ≤ milestonesSum ms :=
  List.sum_nonneg (List.forall_mem_map.mpr nonneg)

theorem milestonesSum_nonpos (nonpos : ∀ m ∈ ms, Milestone.value m ≤ 0) : milestonesSum ms ≤ 0 := by
  have sum := List.sum_le_card_nsmul (ms.map Milestone.value) 0 (List.forall_mem_map.mpr nonpos)
  rwa [smul_zero] at sum

/-- The negative amounts before the others. -/
def debitsFirst (ms : List Contracts.Milestone) : List Contracts.Milestone :=
  (ms.filter fun m => Milestone.value m ≤ 0) ++ ms.filter fun m => !decide (Milestone.value m ≤ 0)

theorem debitsFirst_perm (ms : List Contracts.Milestone) : (debitsFirst ms).Perm ms :=
  List.filter_append_perm _ ms

theorem BelowMaxima.perm {ms' : List Contracts.Milestone} (below : BelowMaxima budget ms)
    (perm : ms'.Perm ms) : BelowMaxima budget ms' where
  price := below.price
  count := perm.length_eq.trans_le below.count
  given m mem := below.given m (perm.mem_iff.mp mem)
  total := (perm.map Milestone.value).sum_eq.trans_le below.total

theorem boundsValid_debitsFirst (below : BelowMaxima budget ms) :
    boundsValid host budget (debitsFirst ms) = true := by
  refine boundsValid_of_parts host (below.perm (debitsFirst_perm ms)) fun front back whole => ?_
  rcases List.append_eq_append_iff.mp whole with ⟨rest, debits, -⟩ | ⟨rest, -, credits⟩
  · refine .inl (milestonesSum_nonpos fun m mem => ?_)
    have among : m ∈ ms.filter fun m => Milestone.value m ≤ 0 := by
      rw [debits]
      exact List.mem_append_left rest mem
    exact of_decide_eq_true (List.mem_filter.mp among).2
  · refine .inr (milestonesSum_nonneg fun m mem => ?_)
    have among : m ∈ ms.filter fun m => !decide (Milestone.value m ≤ 0) := by
      rw [credits]
      exact List.mem_append_right rest mem
    exact (not_le.mp (by simpa using (List.mem_filter.mp among).2)).le

theorem boundsValid_of_nonneg (below : BelowMaxima budget ms)
    (nonneg : ∀ m ∈ ms, 0 ≤ Milestone.value m) : boundsValid host budget ms = true := by
  refine boundsValid_of_parts host below fun front back whole => .inr (milestonesSum_nonneg fun m mem => ?_)
  exact nonneg m (whole ▸ List.mem_append_right front mem)

variable (budget ms) in
/-- Nothing asks that an amount is not negative: below the maxima the verdict is sound, and
the same in any order, exactly when none is. -/
theorem bounds_sound_iff :
    BoundsSound host budget ms ↔
      (BelowMaxima budget ms → 0 ≤ budget.value ∧ ∀ m ∈ ms, 0 ≤ Milestone.value m) := by
  constructor
  · rintro ⟨unordered, sound⟩ below
    have valid := boundsValid_debitsFirst host below
    rw [unordered _ (debitsFirst_perm ms)] at valid
    obtain ⟨inBudget, amounts, -⟩ := sound valid
    refine ⟨inBudget.1, fun m mem => ?_⟩
    obtain ⟨a, here⟩ := Option.ne_none_iff_exists'.mp (below.given m mem)
    simpa [Milestone.value, here] using (amounts m mem a here).1
  · intro nonneg
    constructor
    · intro ms' perm
      by_cases below : BelowMaxima budget ms
      · have all := (nonneg below).2
        rw [boundsValid_of_nonneg host below all, boundsValid_of_nonneg host (below.perm perm)]
        exact fun m mem => all m (perm.mem_iff.mp mem)
      · rw [Bool.eq_iff_iff, boundsValid_iff, boundsValid_iff]
        exact iff_of_false (fun valid => below (valid.1.perm perm.symm)) (fun valid => below valid.1)
    · intro valid
      obtain ⟨below, -⟩ := (boundsValid_iff host).mp valid
      obtain ⟨budget', all⟩ := nonneg below
      refine ⟨⟨budget', below.price⟩, fun m mem a here => ?_, milestonesSum_nonneg all, below.total⟩
      have first : InBounds (Milestone.value m) := by
        refine ⟨all m mem, le_trans ?_ below.total⟩
        exact List.single_le_sum (List.forall_mem_map.mpr all) _ (List.mem_map_of_mem mem)
      simpa [Milestone.value, Option.mem_def.mp here] using first

/-- A total that is within the maximum at the end exceeds it on the way, or does not. -/
theorem bounds_unsound :
    let host := exactHost (fun _ => true) (fun _ => true) true
    let most : Contracts.Milestone := ⟨some "Build", none, some (Decimal.ofNat 100000000000001), none⟩
    let refund : Contracts.Milestone := ⟨some "Refund", none, some (Decimal.ofScaled (-5) 0), none⟩
    boundsValid host Contracts.zero [most, refund] = false ∧
      boundsValid host Contracts.zero [refund, most] = true ∧
      boundsValid host (Decimal.ofScaled (-5) 0) [] = true := by
  decide +kernel

end Bounds

/-! ### The check of `createContract` -/

section Accepted

variable {host : ExactHost} {ms : List Contracts.Milestone}

theorem milestoneTotal_exact (host : ExactHost) (given : ∀ m ∈ ms, m.amount ≠ none)
    (start : Decimal) : ∃ sum, milestoneTotal host.toHost start ms = some sum ∧
      sum.value = start.value + milestonesSum ms := by
  induction ms generalizing start with
  | nil => exact ⟨start, rfl, by simp [milestonesSum]⟩
  | cons m ms ih =>
    obtain ⟨first, rest⟩ := List.forall_mem_cons.mp given
    obtain ⟨amount, here⟩ := Option.ne_none_iff_exists'.mp first
    obtain ⟨next, added, exact'⟩ := host.exact start amount
    obtain ⟨sum, totalled, same⟩ := ih rest next
    refine ⟨sum, ?_, ?_⟩
    · rw [milestoneTotal, here, Option.bind_some, added, Option.bind_some, totalled]
    · rw [same, exact', milestonesSum_cons here, add_assoc]

/-- The milestones that a contract is created with are within its budget. -/
theorem accepted_le_budget {store : Contracts.Store} {data : CreateContractDto} {fresh : Fresh}
    {row : Contract} (creatable : Creatable host.toHost store data fresh row) :
    milestonesSum ((effectiveMilestones host.toHost data.milestones).getD []) ≤ row.amount.value := by
  obtain ⟨bounds, budget, -, -, positive, -⟩ := creatable
  have covers : milestonesSum [] ≤ row.amount.value := by
    rw [Decimal.less_eq_false_iff, zero_value] at positive
    exact positive
  cases given : effectiveMilestones host.toHost data.milestones with
  | none => exact covers
  | some ms =>
    rw [given] at bounds budget
    cases ms with
    | nil => exact covers
    | cons m ms =>
      have valid : boundsValid host row.amount (m :: ms) = true := by
        rw [boundsValid, ← budget_of_bounds bounds, bounds]
        rfl
      obtain ⟨below, -⟩ := (boundsValid_iff host).mp valid
      obtain ⟨sum, totalled, same⟩ := milestoneTotal_exact host below.given Contracts.zero
      have within : row.amount.less sum = false := by
        cases exceeds : row.amount.less sum with
        | false => rfl
        | true =>
          simp only [budgetError, totalled, exceeds, if_true] at budget
          cases budget
      rw [Decimal.less_eq_false_iff, same, zero_value, zero_add] at within
      exact within

end Accepted

/-! ### What an operation changes -/

section Steps

variable {host : ExactHost} {s s' : Books}

/-- When only one contract's view changes, the sums have to be within the budget there. -/
theorem withinBudget_of_at (id : String) (others : ∀ j, j ≠ id → s'.view j = s.view j)
    (within : WithinBudget s) (here : (s'.view id).Covered) : WithinBudget s' := by
  intro j
  by_cases same : j = id
  · rw [same]
    exact here
  · rw [others j same]
    exact within j

theorem withinBudget_moved {milestones : MilestoneStore} {id : String} {change : ℚ}
    (moved : ∀ j, activeSum milestones j = activeSum s.milestones j + if id = j then change else 0)
    (within : WithinBudget s)
    (fits : ∀ c ∈ s.store.contracts.get? id, activeSum s.milestones id + change ≤ c.amount.value) :
    WithinBudget { s with milestones } := by
  refine withinBudget_of_at (s := s) id (fun j other => ?_) within fun b mem => ?_
  · simp only [Books.view, moved j, if_neg (Ne.symm other), add_zero]
  · obtain ⟨c, held, rfl⟩ := Option.map_eq_some_iff.mp mem
    refine ⟨(within id _ mem).1, ?_⟩
    simp only [Books.view, moved id, if_pos]
    exact fits c held

variable {store : Contracts.Store}

theorem withinBudget_created {data : CreateContractDto} {fresh : Fresh} {row : Contract}
    (done : Contracts.createContract host.toHost s.store data fresh = .ok (row, store))
    (within : WithinBudget s) (fits : Fits host s (.createContract data fresh)) :
    WithinBudget
      { s with
        store
        accepted := s.accepted.set row.id ((effectiveMilestones host.toHost data.milestones).getD []) } := by
  obtain ⟨creatable, inserted⟩ := (createContract_ok_iff _ _ _ _ _).mp done
  have stored : store = s.store.insert row := inserted
  refine withinBudget_of_at (s := s) row.id (fun j other => ?_) within ?_
  · simp [Books.view, stored, Store.insert, OrderedMap.get?_set_of_ne _ _ other]
  · simp only [View.Covered, Books.view, stored, Store.insert, OrderedMap.get?_set_self, Option.map_some,
      Option.getD_some, Option.mem_some_iff, forall_eq']
    refine ⟨accepted_le_budget creatable, ?_⟩
    rw [id_of_row? creatable.made]
    exact fits _ (amount_of_row? creatable.made)

theorem withinBudget_updated {id : String} {dto : UpdateContractDto} {c : Contract}
    {accepted : OrderedMap String (List Contracts.Milestone)}
    (done : Contracts.updateContract host.toHost s.store id dto = .ok (c, store))
    (others : ∀ j, j ≠ id → accepted.get? j = s.accepted.get? j)
    (here : milestonesSum ((accepted.get? id).getD []) =
      (effectiveMilestones host.toHost dto.milestones).elim (s.view id).accepted milestonesSum)
    (within : WithinBudget s) (fits : Fits host s (.updateContract id dto)) :
    WithinBudget { s with store, accepted } := by
  obtain ⟨old, found, -, result⟩ := (updateContract_ok_iff _ _ _ _ _).mp done
  obtain ⟨rfl, rfl⟩ := Prod.mk.inj result
  refine withinBudget_of_at (s := s) id (fun j other => ?_) within ?_
  · simp only [Books.view, OrderedMap.get?_set_of_ne _ _ other, others j other]
  · simp only [View.Covered, Books.view, OrderedMap.get?_set_self, Option.map_some, here,
      Option.mem_some_iff, forall_eq']
    exact fits old (Sqlite.findById_eq_some_iff.mp found).2.1

theorem withinBudget_step (s : Books) (op : Operation) (within : WithinBudget s)
    (fits : Fits host s op) : WithinBudget (step host s op) := by
  cases op with
  | createContract data fresh =>
    simp only [step]
    split
    · exact within
    · rename_i done
      exact withinBudget_created done within fits
  | updateContract id dto =>
    simp only [step]
    split
    · exact within
    · rename_i done
      split
      · rename_i given
        exact withinBudget_updated done (fun _ _ => rfl) (by rw [given]; rfl) within fits
      · rename_i ms given
        refine withinBudget_updated done (fun j other => ?_) ?_ within fits
        · exact OrderedMap.get?_set_of_ne _ _ other
        · rw [OrderedMap.get?_set_self, Option.getD_some, given, Option.elim_some]
  | create contractId input id now =>
    simp only [step]
    split
    · exact within
    · rename_i free
      exact withinBudget_moved (activeSum_create s.milestones contractId input
        (Bool.eq_false_iff.mpr free) now) within fits
  | softDelete contractId milestoneId now =>
    simp only [step]
    split
    · exact within
    · rename_i record milestones done
      obtain ⟨old, held, -, -, rfl, -⟩ := softDelete_ok done
      have moved : ∀ j, activeSum milestones j = activeSum s.milestones j +
          if contractId = j then -old.amount.value else 0 := by
        intro j
        rw [activeSum_softDelete done j]
        split <;> ring
      refine withinBudget_moved moved within fun c stored => ?_
      have active := (within contractId _ (Option.map_eq_some_iff.mpr ⟨c, stored, rfl⟩)).2
      have amount : 0 ≤ old.amount.value := fits old held
      simp only [Books.view] at active
      linarith
  | restore contractId milestoneId now envValue =>
    simp only [step]
    split
    · exact within
    · rename_i record milestones done
      obtain ⟨old, held, -, -, rfl, -⟩ := restore_ok done
      exact withinBudget_moved (activeSum_restore done) within (fits old held)

end Steps

theorem withinBudget_initial (users : List String) (softDeletes : Bool) :
    WithinBudget (.initial users softDeletes) := by
  intro id b mem
  cases mem

/-- In a run whose operations all pass the checks, the accepted and the active milestones of
every contract are within its budget in every state. -/
theorem milestones_within_budget (host : ExactHost) (users : List String) (softDeletes : Bool)
    (operations : List Operation)
    (fits : Along (step host) (Fits host) (.initial users softDeletes) operations) :
    ∀ done, done <+: operations → WithinBudget (run (step host) (.initial users softDeletes) done) :=
  fun _ before => (fits.of_prefix before).invariant withinBudget_step
    (withinBudget_initial users softDeletes)

def budgetOf100 : Operation :=
  .createContract
    { title := some "Website", clientId := some "u1", freelancerId := some "u2",
      budget := some (Decimal.ofNat 100), status := none, milestones := none }
    ⟨"c1", "2026-01-01T00:00:00.000Z"⟩

def milestoneOf (amount : Nat) : Operation :=
  .create "c1" { title := "Design", amount := Decimal.ofNat amount } "m1" ⟨some 0⟩

/-- A milestone of 60 passes the check. -/
theorem milestones_within_budget_sixty :
    let host := exactHost (fun _ => true) (fun _ => true) true
    WithinBudget (run (step host) (.initial ["u1", "u2"] false) [budgetOf100, milestoneOf 60]) := by
  intro host
  refine milestones_within_budget host ["u1", "u2"] false [budgetOf100, milestoneOf 60] ?_ _
    (List.prefix_refl _)
  refine ⟨fun b given => ?_, fun c held => ?_, trivial⟩
  · cases given
    exact zero_value.symm.trans_le ((Decimal.less_eq_false_iff (Decimal.ofNat 100) _).mp (by decide))
  · cases held
    exact le_of_eq_of_le (zero_add _) ((Decimal.less_eq_false_iff _ _).mp (by decide))

/-- A milestone of 200 is filed all the same. -/
theorem milestones_exceed_budget :
    let host := exactHost (fun _ => true) (fun _ => true) true
    ¬ WithinBudget (run (step host) ⟨.migrated ["u1", "u2"] .empty, .empty, .empty⟩
      [budgetOf100, milestoneOf 200]) := by
  intro host within
  have active := (within "c1" (Decimal.ofNat 100).value (by rfl)).2
  have filed : (Decimal.ofNat 200).value + 0 ≤ (Decimal.ofNat 100).value := active
  rw [add_zero] at filed
  exact absurd ((Decimal.less_iff _ _).mp (by decide)) (not_lt.mpr filed)

end TalentTrust.Milestones
