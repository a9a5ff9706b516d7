import TalentTrust.Lib.Text

/-!
Finite JavaScript numbers, by their shortest decimal.

ECMAScript prints a finite number from the shortest decimal `m · 10 ^ e` that
reads back as it. Distinct numbers have distinct shortest decimals, ordered as
the numbers are, and a number is an integer exactly when its shortest decimal
has `e ≥ 0`. So a number is carried here by that decimal: equality, order,
`Number.isInteger` and printing are those of the language. Arithmetic on these
values is exact.
-/

namespace TalentTrust.Lib

/-- A decimal `mantissa · 10 ^ exponent` with no trailing zero in the mantissa. -/
structure Decimal where
  mantissa : Int
  exponent : Int
  normal : mantissa % 10 ≠ 0 ∨ (mantissa = 0 ∧ exponent = 0)
  deriving DecidableEq

namespace Decimal

def value (d : Decimal) : ℚ := d.mantissa * (10 : ℚ) ^ d.exponent

/-- `Number.isInteger(d) && d >= 0`, with the integer it is. -/
def toNat? (d : Decimal) : Option Nat :=
  if 0 ≤ d.mantissa ∧ 0 ≤ d.exponent then some (d.mantissa.toNat * 10 ^ d.exponent.toNat) else none

/-- `a < b`, by comparing the mantissas at the smaller exponent. -/
def less (a b : Decimal) : Bool :=
  let e := min a.exponent b.exponent
  a.mantissa * 10 ^ (a.exponent - e).toNat < b.mantissa * 10 ^ (b.exponent - e).toNat

/-! ### Printing -/

/-- The parts of a printed number: integer digits, fraction digits, exponent.
The four cases are those of `Number::toString`, on `k` digits with the decimal
point after the first `n` of them. -/
def parts (d : Decimal) : List Char × List Char × Option Int :=
  let s := Nat.toDigits 10 d.mantissa.natAbs
  let n := s.length + d.exponent
  if s.length ≤ n ∧ n ≤ 21 then (s ++ List.replicate d.exponent.toNat '0', [], none)
  else if 0 < n ∧ n ≤ 21 then (s.take n.toNat, s.drop n.toNat, none)
  else if -6 < n ∧ n ≤ 0 then (['0'], List.replicate (-n).toNat '0' ++ s, none)
  else (s.take 1, s.drop 1, some (n - 1))

/-- `String(d)`, which is also `JSON.stringify(d)`. -/
def chars (d : Decimal) : List Char :=
  (if d.mantissa < 0 then ['-'] else []) ++ d.parts.1 ++
    (if d.parts.2.1 = [] then [] else '.' :: d.parts.2.1) ++
    match d.parts.2.2 with
    | none => []
    | some x => 'e' :: (if x < 0 then '-' else '+') :: Nat.toDigits 10 x.natAbs

/-- Drop the trailing zeros of `n`, counting them on top of `e`. -/
def stripZeros : Nat → Nat → Nat → Nat × Nat
  | 0, n, e => (n, e)
  | fuel + 1, n, e => if n % 10 = 0 then stripZeros fuel (n / 10) (e + 1) else (n, e)

theorem stripZeros_spec :
    ∀ fuel n e, 0 < n → n ≤ fuel → (stripZeros fuel n e).1 % 10 ≠ 0 ∧
      (stripZeros fuel n e).1 * 10 ^ (stripZeros fuel n e).2 = n * 10 ^ e
  | 0, n, e, pos, le => by omega
  | fuel + 1, n, e, pos, le => by
      unfold stripZeros
      split
      · rename_i zero
        have half : 10 * (n / 10) = n := by omega
        obtain ⟨last, same⟩ := stripZeros_spec fuel (n / 10) (e + 1) (by omega) (by omega)
        refine ⟨last, same.trans ?_⟩
        rw [pow_succ, mul_comm (10 ^ e) 10, ← mul_assoc, mul_comm (n / 10) 10, half]
      · rename_i last
        exact ⟨last, rfl⟩

/-- A natural number as a JavaScript number. -/
def ofNat (n : Nat) : Decimal :=
  if h : 0 < n then
    { mantissa := (stripZeros n n 0).1
      exponent := (stripZeros n n 0).2
      normal := by
        left
        have := (stripZeros_spec n n 0 h le_rfl).1
        omega }
  else ⟨0, 0, .inr ⟨rfl, rfl⟩⟩

theorem toNat?_ofNat (n : Nat) : (ofNat n).toNat? = some n := by
  unfold ofNat toNat?
  split
  · rename_i pos
    have same := (stripZeros_spec n n 0 pos le_rfl).2
    simpa using same
  · have : n = 0 := by omega
    simp [this]

example : (ofNat 1200).chars = "1200".toList := by decide
example : (ofNat (12 * 10 ^ 20)).chars = "1.2e+21".toList := by decide

/-! ### Printing is injective -/

theorem append_inj_of_span {α : Type*} {p : α → Prop} :
    ∀ {l l' r r' : List α}, (∀ c ∈ l, p c) → (∀ c ∈ l', p c) → (∀ c ∈ r.head?, ¬ p c) →
      (∀ c ∈ r'.head?, ¬ p c) → l ++ r = l' ++ r' → l = l' ∧ r = r'
  | [], [], _, _, _, _, _, _, h => ⟨rfl, h⟩
  | [], c :: cs, r, _, _, all', stop, _, h => by
      have head : c ∈ r.head? := by simp [show r = c :: (cs ++ _) from h]
      exact absurd (all' c List.mem_cons_self) (stop c head)
  | c :: cs, [], _, r', all, _, _, stop', h => by
      have head : c ∈ r'.head? := by simp [← (show c :: (cs ++ _) = r' from h)]
      exact absurd (all c List.mem_cons_self) (stop' c head)
  | c :: cs, c' :: cs', r, r', all, all', stop, stop', h => by
      simp only [List.cons_append, List.cons.injEq] at h
      obtain ⟨same, rest⟩ := append_inj_of_span (fun x hx => all x (List.mem_cons_of_mem _ hx))
        (fun x hx => all' x (List.mem_cons_of_mem _ hx)) stop stop' h.2
      exact ⟨by rw [h.1, same], rest⟩

def exponentChars : Option Int → List Char
  | none => []
  | some x => 'e' :: (if x < 0 then '-' else '+') :: Nat.toDigits 10 x.natAbs

variable (d : Decimal)

theorem chars_eq :
    d.chars = (if d.mantissa < 0 then ['-'] else []) ++ (d.parts.1 ++
      ((if d.parts.2.1 = [] then [] else '.' :: d.parts.2.1) ++ exponentChars d.parts.2.2)) := by
  unfold chars exponentChars
  cases d.parts.2.2 <;> simp

theorem toDigits_ten_injective {m n : Nat} (h : Nat.toDigits 10 m = Nat.toDigits 10 n) : m = n := by
  rw [← Nat.ofDigitChars_ten_toDigits (n := m), h, Nat.ofDigitChars_ten_toDigits]

theorem toDigits_ten_isDigit {n : Nat} : ∀ c ∈ Nat.toDigits 10 n, c.isDigit = true :=
  fun _ hc => Nat.isDigit_of_mem_toDigits (by decide) (by decide) hc

theorem exponentChars_injective {x y : Option Int} (h : exponentChars x = exponentChars y) :
    x = y := by
  cases x with
  | none => cases y with
    | none => rfl
    | some y => simp [exponentChars] at h
  | some x => cases y with
    | none => simp [exponentChars] at h
    | some y =>
      simp only [exponentChars, List.cons.injEq, true_and] at h
      have size := toDigits_ten_injective h.2
      have sign : x < 0 ↔ y < 0 := by
        by_cases hx : x < 0 <;> by_cases hy : y < 0 <;> simp_all
        omega
      rw [show x = y by omega]

theorem exponentChars_head (x : Option Int) : ∀ c ∈ (exponentChars x).head?, ¬ c.isDigit = true := by
  cases x <;> simp [exponentChars]

theorem tail_head (f : List Char) (x : Option Int) :
    ∀ c ∈ ((if f = [] then [] else '.' :: f) ++ exponentChars x).head?, ¬ c.isDigit = true := by
  split
  · simpa using exponentChars_head x
  · simp

theorem toDigits_ne_nil (n : Nat) : Nat.toDigits 10 n ≠ [] :=
  List.ne_nil_of_length_pos Nat.length_toDigits_pos

theorem parts_isDigit : d.parts.1 ≠ [] ∧
    (∀ c ∈ d.parts.1, c.isDigit = true) ∧ ∀ c ∈ d.parts.2.1, c.isDigit = true := by
  have some := toDigits_ne_nil d.mantissa.natAbs
  have zeros : ∀ n, ∀ c ∈ List.replicate n '0', c.isDigit = true := by
    intro n c hc
    rw [List.eq_of_mem_replicate hc]
    rfl
  have all := toDigits_ten_isDigit (n := d.mantissa.natAbs)
  unfold parts
  dsimp only
  split
  · exact ⟨by simp [some], List.forall_mem_append.mpr ⟨all, zeros _⟩, by simp⟩
  · split
    · refine ⟨?_, fun c hc => all c (List.mem_of_mem_take hc),
        fun c hc => all c (List.mem_of_mem_drop hc)⟩
      simp only [ne_eq, List.take_eq_nil_iff, some, or_false]
      omega
    · split
      · exact ⟨by simp, by simp, List.forall_mem_append.mpr ⟨zeros _, all⟩⟩
      · refine ⟨by simp [some], fun c hc => all c (List.mem_of_mem_take hc),
          fun c hc => all c (List.mem_of_mem_drop hc)⟩

/-- The number that the parts of a printed number denote. -/
def partsValue (p : List Char × List Char × Option Int) : ℚ :=
  (Nat.ofDigitChars 10 (p.1 ++ p.2.1) 0 : ℚ) * (10 : ℚ) ^ (p.2.2.getD 0 - p.2.1.length)

theorem parts_value : partsValue d.parts = (d.mantissa.natAbs : ℚ) * (10 : ℚ) ^ d.exponent := by
  set s := Nat.toDigits 10 d.mantissa.natAbs with hs
  have read : Nat.ofDigitChars 10 s 0 = d.mantissa.natAbs := Nat.ofDigitChars_ten_toDigits
  have some : 0 < s.length := Nat.length_toDigits_pos
  unfold partsValue parts
  simp only [← hs]
  split
  · obtain ⟨k, hk⟩ : ∃ k : ℕ, d.exponent = k := ⟨d.exponent.toNat, by omega⟩
    simp only [List.append_nil, Nat.ofDigitChars_append, read, Nat.ofDigitChars_replicate_zero,
      Option.getD_none, List.length_nil, hk]
    simp [mul_comm]
  · split
    · simp only [List.take_append_drop, read, Option.getD_none, List.length_drop]
      congr 2
      omega
    · split
      · simp only [List.cons_append, List.nil_append, Nat.ofDigitChars_cons,
          Nat.ofDigitChars_append, Nat.ofDigitChars_replicate_zero, Option.getD_none]
        simp only [Char.reduceToNat, Nat.sub_self, Nat.mul_zero, Nat.add_zero, read,
          List.length_append, List.length_replicate]
        congr 2
        omega
      · simp only [List.take_append_drop, read, Option.getD_some, List.length_drop]
        congr 2
        omega

theorem value_eq_natAbs : d.value =
    (if d.mantissa < 0 then -1 else 1) * ((d.mantissa.natAbs : ℚ) * (10 : ℚ) ^ d.exponent) := by
  unfold value
  split
  · have : d.mantissa = -(d.mantissa.natAbs : ℤ) := by omega
    rw [this]
    simp
  · have : d.mantissa = (d.mantissa.natAbs : ℤ) := by omega
    rw [this]
    simp

/-- Scaling by a positive power of ten makes room for a trailing zero. -/
theorem mantissa_ne_of_exponent_lt {a b : Decimal} (less : a.exponent < b.exponent) :
    a.value ≠ b.value ∨ a.mantissa = 0 := by
  by_contra h
  push Not at h
  obtain ⟨same, nonzero⟩ := h
  unfold value at same
  have split : (10 : ℚ) ^ b.exponent =
      (10 : ℚ) ^ (b.exponent - a.exponent).toNat * (10 : ℚ) ^ a.exponent := by
    rw [← zpow_natCast, ← zpow_add₀ (by norm_num)]
    congr 1
    omega
  rw [split, ← mul_assoc] at same
  have cancel := mul_right_cancel₀ (zpow_ne_zero a.exponent (by norm_num : (10 : ℚ) ≠ 0)) same
  have whole : a.mantissa = b.mantissa * 10 ^ (b.exponent - a.exponent).toNat := by
    exact_mod_cast cancel
  have last : a.mantissa % 10 = 0 := by
    obtain ⟨k, hk⟩ : ∃ k, (b.exponent - a.exponent).toNat = k + 1 :=
      ⟨(b.exponent - a.exponent).toNat - 1, by omega⟩
    rw [whole, hk, pow_succ, ← mul_assoc]
    exact Int.mul_emod_left _ _
  rcases a.normal with h | h
  · exact h last
  · exact nonzero h.1

theorem value_injective {a b : Decimal} (same : a.value = b.value) : a = b := by
  have key : a.mantissa = b.mantissa ∧ a.exponent = b.exponent := by
    have zero : ∀ {x y : Decimal}, x.value = y.value → x.mantissa = 0 →
        x.mantissa = y.mantissa ∧ x.exponent = y.exponent := by
      intro x y eq zx
      have zy : y.mantissa = 0 := by
        have : y.value = 0 := by rw [← eq, value, zx]; simp
        rcases mul_eq_zero.mp this with h | h
        · exact_mod_cast h
        · exact absurd h (zpow_ne_zero _ (by norm_num))
      have ex := x.normal
      have ey := y.normal
      rw [zx] at ex ⊢
      rw [zy] at ey ⊢
      exact ⟨rfl, by simp_all⟩
    rcases lt_trichotomy a.exponent b.exponent with less | eq | less
    · rcases mantissa_ne_of_exponent_lt less with h | h
      · exact absurd same h
      · exact zero same h
    · refine ⟨?_, eq⟩
      unfold value at same
      rw [eq] at same
      exact_mod_cast mul_right_cancel₀ (zpow_ne_zero b.exponent (by norm_num : (10 : ℚ) ≠ 0)) same
    · rcases mantissa_ne_of_exponent_lt less with h | h
      · exact absurd same.symm h
      · obtain ⟨hm, he⟩ := zero same.symm h
        exact ⟨hm.symm, he.symm⟩
  cases a
  cases b
  obtain ⟨rfl, rfl⟩ := key
  rfl

theorem chars_injective {a b : Decimal} (h : a.chars = b.chars) : a = b := by
  obtain ⟨someA, intA, fracA⟩ := a.parts_isDigit
  obtain ⟨someB, intB, fracB⟩ := b.parts_isDigit
  -- A number starts with a digit, so the sign can be read off.
  have first : ∀ d : Decimal, d.parts.1 ≠ [] → (∀ c ∈ d.parts.1, c.isDigit = true) →
      ∀ rest, (d.parts.1 ++ rest).head? ≠ some '-' := by
    intro d nonempty digits rest eq
    cases hp : d.parts.1 with
    | nil => exact nonempty hp
    | cons c cs =>
      rw [hp] at eq digits
      simp only [List.cons_append, List.head?_cons, Option.some.injEq] at eq
      have := digits c List.mem_cons_self
      rw [eq] at this
      exact absurd this (by decide)
  rw [chars_eq, chars_eq] at h
  have sign : a.mantissa < 0 ↔ b.mantissa < 0 := by
    constructor
    · intro neg
      by_contra pos
      rw [if_pos neg, if_neg pos] at h
      exact first b someB intB _ (by rw [List.nil_append] at h; rw [← h]; rfl)
    · intro neg
      by_contra pos
      rw [if_pos neg, if_neg pos] at h
      exact first a someA intA _ (by rw [List.nil_append] at h; rw [h]; rfl)
  have body := List.append_cancel_left (by simpa only [sign] using h)
  obtain ⟨int, tail⟩ := append_inj_of_span intA intB (tail_head _ _) (tail_head _ _) body
  have point : ∀ (f : List Char) (x y : Option Int), f ≠ [] →
      '.' :: f ++ exponentChars x ≠ exponentChars y := by
    intro f x y _ eq
    cases y <;> simp [exponentChars] at eq
  have rest : a.parts.2.1 = b.parts.2.1 ∧ exponentChars a.parts.2.2 = exponentChars b.parts.2.2 := by
    by_cases ha : a.parts.2.1 = [] <;> by_cases hb : b.parts.2.1 = []
    · rw [if_pos ha, if_pos hb] at tail
      exact ⟨by rw [ha, hb], tail⟩
    · rw [if_pos ha, if_neg hb] at tail
      exact absurd tail.symm (point _ _ _ hb)
    · rw [if_neg ha, if_pos hb] at tail
      exact absurd tail (point _ _ _ ha)
    · rw [if_neg ha, if_neg hb] at tail
      simp only [List.cons_append, List.cons.injEq, true_and] at tail
      exact append_inj_of_span fracA fracB (exponentChars_head _) (exponentChars_head _) tail
  have parts : a.parts = b.parts :=
    Prod.ext int (Prod.ext rest.1 (exponentChars_injective rest.2))
  apply value_injective
  rw [value_eq_natAbs, value_eq_natAbs, ← parts_value, ← parts_value, parts]
  simp only [sign]

/-! ### Order and exact sums -/

theorem value_eq_scaled {e : Int} (le : e ≤ d.exponent) :
    d.value = ((d.mantissa * 10 ^ (d.exponent - e).toNat : Int) : ℚ) * (10 : ℚ) ^ e := by
  have split : (10 : ℚ) ^ d.exponent = (10 : ℚ) ^ (d.exponent - e).toNat * (10 : ℚ) ^ e := by
    rw [← zpow_natCast, ← zpow_add₀ (by norm_num)]
    congr 1
    omega
  rw [value, split]
  push_cast
  ring

theorem value_of_toNat? {d : Decimal} {n : Nat} (integer : d.toNat? = some n) : d.value = n := by
  unfold toNat? at integer
  split at integer
  · rename_i positive
    rw [← Option.some.inj integer, value_eq_scaled d positive.2, zpow_zero, mul_one, sub_zero]
    obtain ⟨m, mantissa⟩ := Int.eq_ofNat_of_zero_le positive.1
    rw [mantissa]
    rfl
  · cases integer

theorem less_iff (a b : Decimal) : a.less b = true ↔ a.value < b.value := by
  have positive : (0 : ℚ) < (10 : ℚ) ^ min a.exponent b.exponent := zpow_pos (by norm_num) _
  rw [value_eq_scaled a (min_le_left a.exponent b.exponent),
    value_eq_scaled b (min_le_right a.exponent b.exponent), mul_lt_mul_iff_left₀ positive, Int.cast_lt,
    less, decide_eq_true_eq]

theorem less_eq_false_iff (a b : Decimal) : a.less b = false ↔ b.value ≤ a.value := by
  rw [← Bool.not_eq_true, less_iff, not_lt]

def ofScaled (m e : Int) : Decimal :=
  if h : m = 0 then ⟨0, 0, .inr ⟨rfl, rfl⟩⟩
  else
    { mantissa := m.sign * (stripZeros m.natAbs m.natAbs 0).1
      exponent := e + (stripZeros m.natAbs m.natAbs 0).2
      normal := by
        left
        have last := (stripZeros_spec m.natAbs m.natAbs 0 (Int.natAbs_pos.mpr h) le_rfl).1
        rcases lt_trichotomy m 0 with negative | zero | positive
        · rw [Int.sign_eq_neg_one_of_neg negative]
          omega
        · exact absurd zero h
        · rw [Int.sign_eq_one_of_pos positive]
          omega }

theorem value_ofScaled (m e : Int) : (ofScaled m e).value = m * (10 : ℚ) ^ e := by
  unfold ofScaled
  split
  · rename_i zero
    simp [value, zero]
  · rename_i nonzero
    have same := (stripZeros_spec m.natAbs m.natAbs 0 (Int.natAbs_pos.mpr nonzero) le_rfl).2
    rw [pow_zero, mul_one] at same
    have whole : m = m.sign * ((stripZeros m.natAbs m.natAbs 0).1 *
        10 ^ (stripZeros m.natAbs m.natAbs 0).2 : Nat) := by
      rw [same, Int.sign_mul_natAbs]
    conv_rhs => rw [whole]
    rw [value, zpow_add₀ (by norm_num), zpow_natCast]
    push_cast
    ring

/-- `a + b`, without rounding. -/
def add (a b : Decimal) : Decimal :=
  let e := min a.exponent b.exponent
  ofScaled (a.mantissa * 10 ^ (a.exponent - e).toNat + b.mantissa * 10 ^ (b.exponent - e).toNat) e

theorem value_add (a b : Decimal) : (a.add b).value = a.value + b.value := by
  rw [add, value_ofScaled, value_eq_scaled a (min_le_left a.exponent b.exponent),
    value_eq_scaled b (min_le_right a.exponent b.exponent), ← add_mul, ← Int.cast_add]

example : (ofNat 150).add (ofNat 50) = ofNat 200 := by decide

end Decimal

end TalentTrust.Lib
