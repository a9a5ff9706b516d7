import TalentTrust.Lib.Calls

/-!
Check-then-write on one key of a store.

An attempt reads the key; if it found nothing it will later write its own
value, without looking again. Other attempts may run between the read and the
write. The view `view : α → β` is what a read keeps of the value it found.

`KeyStep` is what one atomic step of such a system does to one key: to the
value stored there and to the attempts made on it, oldest first. If no attempt
reads the free key while another one is between its read and its write, the
first attempt alone writes and all others find what it wrote
(`Exclusive.step`). Two attempts that have both found the key free both write
in the end (`contenders_le_of_step`).
-/

namespace TalentTrust.Lib

universe u v

/-- How far an attempt has come. -/
inductive Attempt (α : Type u) (β : Type v) where
  /-- It found the key free and has not written yet. -/
  | free
  /-- It found a value and will not write. -/
  | taken (seen : β)
  /-- It has written. -/
  | wrote (value : α)

variable {α : Type u} {β : Type v}

/-- One step of the system, seen from one key. -/
inductive KeyStep (view : α → β) :
    Option α → List (Attempt α β) → Option α → List (Attempt α β) → Prop where
  | idle (stored : Option α) (attempts : List (Attempt α β)) :
      KeyStep view stored attempts stored attempts
  | readFree (attempts : List (Attempt α β)) :
      KeyStep view none attempts none (attempts ++ [.free])
  | readTaken (value : α) (attempts : List (Attempt α β)) :
      KeyStep view (some value) attempts (some value) (attempts ++ [.taken (view value)])
  | write (stored : Option α) (value : α) (earlier later : List (Attempt α β)) :
      KeyStep view stored (earlier ++ .free :: later) (some value)
        (earlier ++ .wrote value :: later)

/-- No attempt reads the free key while another has yet to write. -/
def Orderly : Option α → List (Attempt α β) → List (Attempt α β) → Prop
  | none, before, after => after = before ++ [.free] → .free ∉ before
  | some _, _, _ => True

/-- What orderly attempts leave behind: the value that was there from the
start, seen by all; or nothing, with at most one attempt about to write; or the
value of the one attempt that wrote, seen by all others. -/
def Exclusive (view : α → β) : Option α → Option α → List (Attempt α β) → Prop
  | some value, stored, attempts => stored = some value ∧ ∀ a ∈ attempts, a = .taken (view value)
  | none, none, attempts => attempts = [] ∨ attempts = [.free]
  | none, some value, attempts => ∃ earlier later, attempts = earlier ++ .wrote value :: later ∧
      ∀ a ∈ earlier ++ later, a = .taken (view value)

theorem exclusive_start (view : α → β) (initial : Option α) : Exclusive view initial initial [] := by
  cases initial with
  | none => exact .inl rfl
  | some value => exact ⟨rfl, by simp⟩

variable {attempts : List (Attempt α β)} {view : α → β}
  {attempts' : List (Attempt α β)} {stored : Option α} {initial : Option α} {stored' : Option α}

/-- An orderly step keeps the key exclusive. -/
theorem Exclusive.step (ok : Exclusive view initial stored attempts)
    (h : KeyStep view stored attempts stored' attempts')
    (orderly : Orderly stored attempts attempts') : Exclusive view initial stored' attempts' := by
  cases h with
  | idle => exact ok
  | readFree =>
    cases initial with
    | some value => cases ok.1
    | none =>
      rcases ok with rfl | rfl
      · exact .inr rfl
      · exact absurd (List.mem_singleton.mpr rfl) (orderly rfl)
  | readTaken value =>
    cases initial with
    | some first =>
      obtain ⟨same, seen⟩ := ok
      cases same
      exact ⟨rfl, forall_mem_concat seen rfl⟩
    | none =>
      obtain ⟨earlier, later, rfl, seen⟩ := ok
      refine ⟨earlier, later ++ [.taken (view value)], by simp, ?_⟩
      rw [← List.append_assoc]
      exact forall_mem_concat seen rfl
  | write _ value earlier later =>
    -- Only a key that was free from the start has an attempt that may write.
    have mem : Attempt.free ∈ earlier ++ .free :: later := by simp
    cases initial with
    | some first => cases ok.2 _ mem
    | none =>
      cases stored with
      | none =>
        rcases ok with empty | single
        · simp at empty
        · obtain ⟨rfl, -, rfl⟩ : earlier = [] ∧ Attempt.free = (.free : Attempt α β) ∧
              later = [] := by
            cases earlier with
            | nil => simpa using single
            | cons a as => simp at single
          exact ⟨[], [], rfl, by simp⟩
      | some old =>
        obtain ⟨before, after, same, seen⟩ := ok
        rw [same] at mem
        rcases List.mem_append.mp mem with mem | mem
        · cases seen _ (List.mem_append_left _ mem)
        · rcases List.mem_cons.mp mem with eq | mem
          · cases eq
          · cases seen _ (List.mem_append_right _ mem)

/-- An attempt that has written, or will. -/
def Attempt.contends : Attempt α β → Bool
  | .taken _ => false
  | _ => true

theorem Exclusive.contenders_le_one
    (ok : Exclusive view initial stored attempts) : attempts.countP Attempt.contends ≤ 1 := by
  have none_of_taken : ∀ {as : List (Attempt α β)} {b : β}, (∀ a ∈ as, a = .taken b) →
      as.countP Attempt.contends = 0 := fun all =>
    List.countP_eq_zero.mpr fun a mem => by rw [all a mem]; simp [Attempt.contends]
  cases initial with
  | some value => exact (none_of_taken ok.2).symm ▸ Nat.zero_le 1
  | none =>
    cases stored with
    | none => rcases ok with rfl | rfl <;> simp [Attempt.contends]
    | some value =>
      obtain ⟨earlier, later, rfl, all⟩ := ok
      have := none_of_taken all
      rw [List.countP_append] at this
      rw [List.countP_append, List.countP_cons]
      simp only [Attempt.contends, if_true]
      omega

theorem Exclusive.exists_wrote {a : Attempt α β}
    (ok : Exclusive view none stored attempts) (mem : a ∈ attempts) (decided : a ≠ .free) :
    ∃ value, stored = some value ∧ .wrote value ∈ attempts ∧
      ∀ a ∈ attempts, a = .wrote value ∨ a = .taken (view value) := by
  cases stored with
  | none =>
    rcases ok with rfl | rfl
    · cases mem
    · exact absurd (List.mem_singleton.mp mem) decided
  | some last =>
    obtain ⟨earlier, later, rfl, all⟩ := ok
    refine ⟨last, rfl, by simp, fun a mem => ?_⟩
    rcases List.mem_append.mp mem with mem | mem
    · exact .inr (all a (List.mem_append_left _ mem))
    · rcases List.mem_cons.mp mem with rfl | mem
      · exact .inl rfl
      · exact .inr (all a (List.mem_append_right _ mem))

variable (ok : Exclusive view initial stored attempts)

include ok

theorem Exclusive.of_decided {a : Attempt α β} (mem : a ∈ attempts) (decided : a ≠ .free) :
    ∃ value, ∀ a ∈ attempts, a = .wrote value ∨ a = .taken (view value) := by
  cases initial with
  | some first => exact ⟨first, fun a mem => .inr (ok.2 a mem)⟩
  | none =>
    obtain ⟨value, -, -, all⟩ := ok.exists_wrote mem decided
    exact ⟨value, all⟩

theorem Exclusive.of_wrote {value : α} (wrote : .wrote value ∈ attempts) :
    ∀ a ∈ attempts, a = .wrote value ∨ a = .taken (view value) := by
  obtain ⟨last, all⟩ := ok.of_decided wrote nofun
  rcases all _ wrote with same | taken
  · cases same
    exact all
  · cases taken

omit ok

variable (h : KeyStep view stored attempts stored' attempts')

include h

theorem KeyStep.eq_of_nil (none_left : attempts' = []) : attempts = [] ∧ stored' = stored := by
  cases h with
  | idle => exact ⟨none_left, rfl⟩
  | readFree | readTaken => simp at none_left
  | write => simp at none_left

theorem contenders_le_of_step :
    attempts.countP Attempt.contends ≤ attempts'.countP Attempt.contends := by
  cases h with
  | idle => exact Nat.le_refl _
  | readFree | readTaken => simp
  | write => simp [List.countP_cons, Attempt.contends]

omit h

/-! ### Attempts in a list of calls

Every call has at most one key, for good, and counts as an attempt on it. A new
call is appended; an open call takes its turn in place. -/

section Calls

universe w x y

variable {κ : Type w} {C : Type x} {R : Type y} [DecidableEq κ]

/-- The attempts on key `k`, oldest first. -/
def attemptsOn (key : C → Option κ) (attempt : C → Attempt α β) (calls : List C) (k : κ) :
    List (Attempt α β) :=
  (calls.filter fun c => key c = some k).map attempt

/-- What a new attempt reads. -/
def readAttempt (view : α → β) : Option α → Attempt α β
  | none => .free
  | some value => .taken (view value)

variable {key : C → Option κ} {attempt : C → Attempt α β} {k : κ} {view : α → β}

theorem attemptsOn_append (calls more : List C) (k : κ) :
    attemptsOn key attempt (calls ++ more) k =
      attemptsOn key attempt calls k ++ attemptsOn key attempt more k := by
  rw [attemptsOn, List.filter_append, List.map_append]
  rfl

theorem attemptsOn_cons (c : C) (calls : List C) (k : κ) :
    attemptsOn key attempt (c :: calls) k =
      (if key c = some k then [attempt c] else []) ++ attemptsOn key attempt calls k := by
  by_cases h : key c = some k <;> simp [attemptsOn, h]

variable {stored : Option α}

theorem attemptsOn_eq_replicate : ∀ {calls : List C},
    (∀ c ∈ calls, key c = some k → attempt c = readAttempt view stored) →
    attemptsOn key attempt calls k =
      List.replicate (calls.countP fun c => key c = some k) (readAttempt view stored)
  | [], _ => rfl
  | c :: calls, own => by
      have rest := attemptsOn_eq_replicate fun d mem => own d (List.mem_cons_of_mem c mem)
      rw [attemptsOn_cons, rest]
      by_cases h : key c = some k
      · simp [h, own c List.mem_cons_self h, List.replicate_succ]
      · simp [h]

theorem keyStep_append {c : C} (calls : List C)
    (own : key c = some k → attempt c = readAttempt view stored) :
    KeyStep view stored (attemptsOn key attempt calls k) stored
      (attemptsOn key attempt (calls ++ [c]) k) := by
  rw [attemptsOn_append, attemptsOn_cons]
  by_cases h : key c = some k
  · rw [if_pos h, own h]
    cases stored with
    | none => exact .readFree _
    | some value => exact .readTaken value _
  · rw [if_neg h]
    exact (List.append_nil _).symm ▸ .idle _ _

theorem orderly_append {c : C} {calls : List C}
    (own : key c = some k → stored = none → .free ∉ attemptsOn key attempt calls k) :
    Orderly stored (attemptsOn key attempt calls k) (attemptsOn key attempt (calls ++ [c]) k) := by
  cases stored with
  | some value => trivial
  | none =>
    intro grown
    rw [attemptsOn_append, attemptsOn_cons] at grown
    by_cases h : key c = some k
    · exact own h rfl
    · rw [if_neg h] at grown
      simp [attemptsOn] at grown

/-- Several new calls at once keep a key exclusive, if it is taken, or if it
was never tried and at most one of them tries it. -/
theorem Exclusive.append_calls {calls more : List C}
    (ok : Exclusive view initial stored (attemptsOn key attempt calls k))
    (own : ∀ c ∈ more, key c = some k → attempt c = readAttempt view stored)
    (single : stored = none → attemptsOn key attempt calls k = [] ∧
      (more.countP fun c => key c = some k) ≤ 1) :
    Exclusive view initial stored (attemptsOn key attempt (calls ++ more) k) := by
  rw [attemptsOn_append, attemptsOn_eq_replicate own]
  cases stored with
  | none =>
    obtain ⟨untried, few⟩ := single rfl
    cases initial with
    | some value => cases ok.1
    | none =>
      rw [untried]
      rcases Nat.le_one_iff_eq_zero_or_eq_one.mp few with zero | one
      · exact .inl (by rw [zero]; rfl)
      · exact .inr (by rw [one]; rfl)
  | some value =>
    have seen : ∀ n, ∀ a ∈ List.replicate n (readAttempt view (some value)),
        a = .taken (view value) := fun n a mem => List.eq_of_mem_replicate mem
    cases initial with
    | some first =>
      obtain ⟨same, all⟩ := ok
      cases same
      exact ⟨rfl, List.forall_mem_append.mpr ⟨all, seen _⟩⟩
    | none =>
      obtain ⟨earlier, later, split, all⟩ := ok
      rw [split, List.append_assoc, List.cons_append]
      refine ⟨earlier, _, rfl, ?_⟩
      rw [← List.append_assoc]
      exact List.forall_mem_append.mpr ⟨all, seen _⟩

variable (key attempt) in
/-- What a turn does to key `k`, whose value in the resource is read by `get`:
nothing, unless the call is one of the key that found it free and now writes it. -/
structure TurnSpec (get : R → Option α) (k : κ) (turn : R → C → R × C) (r : R) (c : C) : Prop where
  sameKey : key (turn r c).2 = key c
  other : key c ≠ some k → get (turn r c).1 = get r
  own : key c = some k →
    (attempt (turn r c).2 = attempt c ∧ get (turn r c).1 = get r) ∨
    (attempt c = .free ∧ ∃ value, attempt (turn r c).2 = .wrote value ∧
      get (turn r c).1 = some value)

variable {turn : R → C → R × C} {get : R → Option α} {s : R × List C} (before : List C) (i : Nat)
  (spec : ∀ c, s.2[i]? = some c → TurnSpec key attempt get k turn s.1 c)

include spec

/-- A call that takes its turn among others leaves the key alone, or writes it. -/
theorem keyStep_resumeAt :
    KeyStep view (get s.1) (attemptsOn key attempt (before ++ s.2) k)
      (get (resumeAt turn i s).1)
      (attemptsOn key attempt (before ++ (resumeAt turn i s).2) k) := by
  cases found : s.2[i]? with
  | none =>
    rw [resumeAt_of_none found]
    exact .idle _ _
  | some c =>
    obtain ⟨sameKey, other, own⟩ := spec c found
    obtain ⟨earlier, later, split, written⟩ := exists_split_of_getElem? found
    rw [resumeAt_of_some found, written, split]
    simp only [attemptsOn_append, attemptsOn_cons, sameKey]
    by_cases h : key c = some k
    · simp only [if_pos h, List.singleton_append, ← List.append_assoc]
      rcases own h with ⟨unchanged, kept⟩ | ⟨free, value, wrote, stored⟩
      · rw [unchanged, kept]
        exact .idle _ _
      · rw [free, wrote, stored]
        exact .write _ _ _ _
    · simp only [if_neg h]
      rw [other h]
      exact .idle _ _

theorem length_attemptsOn_resumeAt :
    (attemptsOn key attempt (before ++ (resumeAt turn i s).2) k).length =
      (attemptsOn key attempt (before ++ s.2) k).length := by
  cases found : s.2[i]? with
  | none => rw [resumeAt_of_none found]
  | some c =>
    obtain ⟨earlier, later, split, written⟩ := exists_split_of_getElem? found
    rw [resumeAt_of_some found, written, split]
    simp only [attemptsOn_append, attemptsOn_cons, (spec c found).sameKey]
    by_cases h : key c = some k <;> simp [h]

theorem orderly_resumeAt (stored : Option α) :
    Orderly stored (attemptsOn key attempt (before ++ s.2) k)
      (attemptsOn key attempt (before ++ (resumeAt turn i s).2) k) := by
  cases stored with
  | some value => trivial
  | none =>
    intro grown
    have := congrArg List.length grown
    rw [length_attemptsOn_resumeAt before i spec] at this
    simp at this

end Calls

end TalentTrust.Lib
