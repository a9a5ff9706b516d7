import TalentTrust.Lib.Json

/-!
A JSON text never ends in another one that follows a colon.

`scan` reads a text and keeps track of whether it is inside a string and of how
many brackets are open. A printed value leaves both as they were
(`scan_print`). If it ended in a colon and a second value, the colon would stand
inside a bracket, which the second value does not close, or inside a string;
and a text read from inside a string and from outside ends on opposite sides
(`scan_opposite`). So a name, a colon and a value can be told apart again
whatever the name is (`colon_stringify_injective`).
-/

namespace TalentTrust.Lib.Json

inductive Side where
  | out
  | str
  | esc
  deriving DecidableEq, Repr

/-- Read one character. Outside of strings there are no backslashes, and no colon
without an open bracket. -/
def scanChar : Side × Nat → Char → Option (Side × Nat)
  | (.out, d), c =>
    if c = '"' then some (.str, d)
    else if c = '\\' then none
    else if c = '[' ∨ c = '{' then some (.out, d + 1)
    else if c = ']' ∨ c = '}' then if d = 0 then none else some (.out, d - 1)
    else if c = ':' then if d = 0 then none else some (.out, d)
    else some (.out, d)
  | (.str, d), c =>
    if c = '"' then some (.out, d) else if c = '\\' then some (.esc, d) else some (.str, d)
  | (.esc, d), _ => some (.str, d)

def scan : Side × Nat → List Char → Option (Side × Nat)
  | s, [] => some s
  | s, c :: cs => (scanChar s c).bind fun s' => scan s' cs

@[simp] theorem scan_nil (s : Side × Nat) : scan s [] = some s := rfl

@[simp] theorem scan_cons (s : Side × Nat) (c : Char) (cs : List Char) :
    scan s (c :: cs) = (scanChar s c).bind fun s' => scan s' cs := rfl

theorem scan_append : ∀ (s : Side × Nat) (cs ds : List Char),
    scan s (cs ++ ds) = (scan s cs).bind fun s' => scan s' ds
  | s, [], ds => rfl
  | s, c :: cs, ds => by
      rw [List.cons_append, scan_cons, scan_cons, Option.bind_assoc]
      exact congrArg _ (funext fun s' => scan_append s' cs ds)

/-! ### Printed values are balanced -/

theorem scanChar_hexChar {n : Nat} (small : n < 16) (d : Nat) :
    scanChar (.str, d) (hexChar n) = some (.str, d) := by
  interval_cases n <;> rfl

theorem scan_escape (c : Char) (d : Nat) : scan (.str, d) (escape c) = some (.str, d) := by
  unfold escape
  split
  · rfl
  · split
    · rfl
    · rename_i quote slash
      split
      · split
        case h_6 =>
          have high := scanChar_hexChar (n := c.toNat / 16) (by omega) d
          have low := scanChar_hexChar (n := c.toNat % 16) (by omega) d
          rw [show scan (.str, d) ['\\', 'u', '0', '0', hexChar (c.toNat / 16), hexChar (c.toNat % 16)] =
            scan (.str, d) [hexChar (c.toNat / 16), hexChar (c.toNat % 16)] from rfl]
          rw [scan_cons, high, Option.bind_some, scan_cons, low, Option.bind_some, scan_nil]
        all_goals rfl
      · simp [scanChar, quote, slash]

theorem scan_quoted (d : Nat) : ∀ cs : List Char,
    scan (.str, d) (cs.flatMap escape) = some (.str, d)
  | [] => rfl
  | c :: cs => by
      rw [List.flatMap_cons, scan_append, scan_escape, Option.bind_some, scan_quoted d cs]

theorem scan_quote (s : String) (d : Nat) : scan (.out, d) (quote s) = some (.out, d) := by
  rw [quote, scan_cons, show scanChar (.out, d) '"' = some (.str, d) from rfl, Option.bind_some,
    scan_append, scan_quoted]
  rfl

theorem scan_number (d : Nat) : ∀ cs : List Char, (∀ c ∈ cs, numberChar c) →
    scan (.out, d) cs = some (.out, d)
  | [], _ => rfl
  | c :: cs, number => by
      have plain : scanChar (.out, d) c = some (.out, d) := by
        have first := number c List.mem_cons_self
        have : c ≠ '"' ∧ c ≠ '\\' ∧ c ≠ '[' ∧ c ≠ '{' ∧ c ≠ ']' ∧ c ≠ '}' ∧ c ≠ ':' := by
          refine ⟨?_, ?_, ?_, ?_, ?_, ?_, ?_⟩ <;> rintro rfl <;> simp [numberChar] at first
        simp [scanChar, this]
      rw [scan_cons, plain]
      exact scan_number d cs fun c' mem => number c' (List.mem_cons_of_mem _ mem)

mutual

theorem scan_print : ∀ (v : Json) (d : Nat), scan (.out, d) (print v) = some (.out, d)
  | .null, _ => rfl
  | .bool true, _ => rfl
  | .bool false, _ => rfl
  | .num n, d => scan_number d n.chars (chars_numberChar n)
  | .str s, d => scan_quote s d
  | .arr [], _ => rfl
  | .arr (v :: vs), d => by
      rw [print, scan_cons, show scanChar (.out, d) '[' = some (.out, d + 1) from rfl, Option.bind_some,
        scan_append, scan_print v, Option.bind_some, scan_printItems vs]
  | .obj [], _ => rfl
  | .obj ((k, v) :: fs), d => by
      rw [print, scan_cons, show scanChar (.out, d) '{' = some (.out, d + 1) from rfl, Option.bind_some,
        scan_append, scan_quote, Option.bind_some, scan_cons,
        show scanChar (.out, d + 1) ':' = some (.out, d + 1) from rfl, Option.bind_some, scan_append,
        scan_print v, Option.bind_some, scan_printFields fs]

theorem scan_printItems : ∀ (vs : List Json) (d : Nat),
    scan (.out, d + 1) (printItems vs) = some (.out, d)
  | [], _ => rfl
  | v :: vs, d => by
      rw [printItems, scan_cons, show scanChar (.out, d + 1) ',' = some (.out, d + 1) from rfl,
        Option.bind_some, scan_append, scan_print v, Option.bind_some, scan_printItems vs]

theorem scan_printFields : ∀ (fs : List (String × Json)) (d : Nat),
    scan (.out, d + 1) (printFields fs) = some (.out, d)
  | [], _ => rfl
  | (k, v) :: fs, d => by
      rw [printFields, scan_cons, show scanChar (.out, d + 1) ',' = some (.out, d + 1) from rfl,
        Option.bind_some, scan_append, scan_quote, Option.bind_some, scan_cons,
        show scanChar (.out, d + 1) ':' = some (.out, d + 1) from rfl, Option.bind_some, scan_append,
        scan_print v, Option.bind_some, scan_printFields fs]

end

/-! ### No value after a colon -/

/-- One reading is inside a string where the other is outside. -/
def Opposite : Side × Nat → Side × Nat → Prop
  | (.out, _), (.str, _) | (.str, _), (.out, _) => True
  | _, _ => False

theorem opposite_scanChar {a b a' b' : Side × Nat} {c : Char} (opposite : Opposite a b)
    (readA : scanChar a c = some a') (readB : scanChar b c = some b') : Opposite a' b' := by
  have crossed : ∀ {d e : Nat} {x y : Side × Nat}, scanChar (.out, d) c = some x →
      scanChar (.str, e) c = some y → (x.1 = .str ∧ y.1 = .out) ∨ (x.1 = .out ∧ y.1 = .str) := by
    intro d e x y outside inside
    simp only [scanChar] at outside inside
    split at outside
    · rename_i isQuote
      rw [if_pos isQuote] at inside
      cases outside
      cases inside
      exact .inl ⟨rfl, rfl⟩
    · rename_i notQuote
      split at outside
      · cases outside
      · rename_i notSlash
        rw [if_neg notQuote, if_neg notSlash] at inside
        cases inside
        refine .inr ⟨?_, rfl⟩
        split at outside
        · cases outside; rfl
        · split at outside
          · split at outside
            · cases outside
            · cases outside; rfl
          · split at outside
            · split at outside
              · cases outside
              · cases outside; rfl
            · cases outside; rfl
  obtain ⟨sideA, d⟩ := a
  obtain ⟨sideB, e⟩ := b
  obtain ⟨sideA', d'⟩ := a'
  obtain ⟨sideB', e'⟩ := b'
  cases sideA <;> cases sideB <;> try exact opposite.elim
  · rcases crossed readA readB with ⟨rfl, rfl⟩ | ⟨rfl, rfl⟩ <;> trivial
  · rcases crossed readB readA with ⟨rfl, rfl⟩ | ⟨rfl, rfl⟩ <;> trivial

/-- Two readings of one text that start on opposite sides end on opposite sides. -/
theorem scan_opposite : ∀ (cs : List Char) {a b a' b' : Side × Nat}, Opposite a b →
    scan a cs = some a' → scan b cs = some b' → Opposite a' b'
  | [], a, b, a', b', opposite, readA, readB => by
      cases readA
      cases readB
      exact opposite
  | c :: cs, a, b, a', b', opposite, readA, readB => by
      rw [scan_cons, Option.bind_eq_some_iff] at readA readB
      obtain ⟨a₁, firstA, restA⟩ := readA
      obtain ⟨b₁, firstB, restB⟩ := readB
      exact scan_opposite cs (opposite_scanChar opposite firstA firstB) restA restB

/-- A printed value does not end in a colon and another one. -/
theorem print_ne_append_colon (v w : Json) (m : List Char) : print v ≠ m ++ ':' :: print w := by
  intro text
  have whole := scan_print v 0
  rw [text, scan_append, Option.bind_eq_some_iff] at whole
  obtain ⟨⟨side, d⟩, -, rest⟩ := whole
  rw [scan_cons] at rest
  cases side with
  | out =>
    cases d with
    | zero => cases rest
    | succ d =>
      rw [show scanChar (.out, d + 1) ':' = some (.out, d + 1) from rfl, Option.bind_some,
        scan_print w] at rest
      cases rest
  | str
  | esc => exact scan_opposite (print w) (a := (.str, d)) (b := (.out, 0)) trivial rest (scan_print w 0)

/-- So the colon before a value is the first character of what a longer name leaves over. -/
theorem eq_of_colon_print {v w : Json} {m : List Char} (rest : ':' :: print v = m ++ ':' :: print w) :
    m = [] ∧ v = w := by
  cases m with
  | nil =>
    rw [List.nil_append, List.cons.injEq] at rest
    exact ⟨rfl, stringify_injective (congrArg String.ofList rest.2)⟩
  | cons c m =>
    rw [List.cons_append, List.cons.injEq] at rest
    exact absurd rest.2 (print_ne_append_colon v w m)

/-- A name, a colon and a value are told apart again, also where the name has colons. -/
theorem colon_stringify_injective {s t : String} {v w : Json}
    (same : s ++ ":" ++ stringify v = t ++ ":" ++ stringify w) : s = t ∧ v = w := by
  have texts : s.toList ++ ':' :: print v = t.toList ++ ':' :: print w := by
    have lists := congrArg String.toList same
    simpa [stringify] using lists
  rcases List.append_eq_append_iff.mp texts with ⟨m, names, rest⟩ | ⟨m, names, rest⟩
  · obtain ⟨rfl, values⟩ := eq_of_colon_print rest
    rw [List.append_nil] at names
    exact ⟨(String.toList_inj.mp names).symm, values⟩
  · obtain ⟨rfl, values⟩ := eq_of_colon_print rest
    rw [List.append_nil] at names
    exact ⟨String.toList_inj.mp names, values.symm⟩

end TalentTrust.Lib.Json
