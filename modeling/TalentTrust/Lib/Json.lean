import TalentTrust.Lib.Decimal

/-!
JSON values and the text `JSON.stringify` prints for them.

An object lists its members in the order in which the language enumerates
them. `stringify_injective` says that the text determines the value. Canonical
printers sort the keys at every level first (`sortKeys`), so that their text
determines the value up to the order of object keys.
-/

namespace TalentTrust.Lib

inductive Json where
  | null
  | bool (b : Bool)
  | num (n : Decimal)
  | str (s : String)
  | arr (items : List Json)
  | obj (fields : List (String × Json))
  deriving Inhabited

namespace Json

/-- Reading property `key` of a value: `none` is `undefined`. -/
def get? (v : Json) (key : String) : Option Json :=
  match v with
  | .obj fields => fields.lookup key
  | _ => none

/-- `typeof v === 'object' && v !== null && !Array.isArray(v)`. -/
def isRecord : Json → Bool
  | .obj _ => true
  | _ => false

/-! ### Decidable equality -/

mutual

def beq : Json → Json → Bool
  | .null, .null => true
  | .bool a, .bool b => a == b
  | .num a, .num b => a == b
  | .str a, .str b => a == b
  | .arr a, .arr b => beqItems a b
  | .obj a, .obj b => beqFields a b
  | _, _ => false

def beqItems : List Json → List Json → Bool
  | [], [] => true
  | a :: as, b :: bs => beq a b && beqItems as bs
  | _, _ => false

def beqFields : List (String × Json) → List (String × Json) → Bool
  | [], [] => true
  | (k, a) :: as, (l, b) :: bs => k == l && (beq a b && beqFields as bs)
  | _, _ => false

end

mutual

theorem beq_iff : ∀ a b : Json, beq a b = true ↔ a = b
  | .null, b => by cases b <;> simp [beq]
  | .bool a, b => by cases b <;> simp [beq]
  | .num a, b => by cases b <;> simp [beq]
  | .str a, b => by cases b <;> simp [beq]
  | .arr as, b => by
      cases b with
      | arr bs => simp [beq, beqItems_iff as bs]
      | _ => simp [beq]
  | .obj as, b => by
      cases b with
      | obj bs => simp [beq, beqFields_iff as bs]
      | _ => simp [beq]

theorem beqItems_iff : ∀ as bs : List Json, beqItems as bs = true ↔ as = bs
  | [], bs => by cases bs <;> simp [beqItems]
  | a :: as, bs => by
      cases bs with
      | nil => simp [beqItems]
      | cons b bs => simp [beqItems, beq_iff a b, beqItems_iff as bs]

theorem beqFields_iff : ∀ as bs : List (String × Json), beqFields as bs = true ↔ as = bs
  | [], bs => by cases bs <;> simp [beqFields]
  | (k, a) :: as, bs => by
      cases bs with
      | nil => simp [beqFields]
      | cons b bs =>
        obtain ⟨l, b⟩ := b
        simp [beqFields, beq_iff a b, beqFields_iff as bs, and_assoc]

end

instance : DecidableEq Json := fun a b => decidable_of_iff (beq a b = true) (beq_iff a b)

/-! ### Printing -/

/-- One character of a JSON string (`QuoteJSONString`). -/
def escape (c : Char) : List Char :=
  if c = '"' then ['\\', '"']
  else if c = '\\' then ['\\', '\\']
  else if c.toNat < 32 then
    match c.toNat with
    | 8 => ['\\', 'b']
    | 9 => ['\\', 't']
    | 10 => ['\\', 'n']
    | 12 => ['\\', 'f']
    | 13 => ['\\', 'r']
    | n => ['\\', 'u', '0', '0', hexChar (n / 16), hexChar (n % 16)]
  else [c]

def quote (s : String) : List Char := '"' :: (s.toList.flatMap escape ++ ['"'])

mutual

def print : Json → List Char
  | .null => ['n', 'u', 'l', 'l']
  | .bool true => ['t', 'r', 'u', 'e']
  | .bool false => ['f', 'a', 'l', 's', 'e']
  | .num n => n.chars
  | .str s => quote s
  | .arr [] => ['[', ']']
  | .arr (v :: vs) => '[' :: (print v ++ printItems vs)
  | .obj [] => ['{', '}']
  | .obj ((k, v) :: fs) => '{' :: (quote k ++ ':' :: (print v ++ printFields fs))

/-- The items after the first, up to the closing bracket. -/
def printItems : List Json → List Char
  | [] => [']']
  | v :: vs => ',' :: (print v ++ printItems vs)

/-- The members after the first, up to the closing brace. -/
def printFields : List (String × Json) → List Char
  | [] => ['}']
  | (k, v) :: fs => ',' :: (quote k ++ ':' :: (print v ++ printFields fs))

end

def stringify (v : Json) : String := String.ofList (print v)

example : stringify (.obj [("a", .arr [.num (.ofNat 10), .null]), ("b\n", .str "\"")]) =
    "\x7b\"a\":[10,null],\"b\\n\":\"\\\"\"\x7d" := by decide

mutual

/-- The value with its object keys sorted at every level, by a stable sort. -/
def sortKeys (le : String → String → Bool) : Json → Json
  | .arr items => .arr (sortItems le items)
  | .obj fields => .obj ((sortFields le fields).insertionSort fun a b => le a.1 b.1 = true)
  | v => v

def sortItems (le : String → String → Bool) : List Json → List Json
  | [] => []
  | v :: vs => sortKeys le v :: sortItems le vs

def sortFields (le : String → String → Bool) : List (String × Json) → List (String × Json)
  | [] => []
  | (k, v) :: fs => (k, sortKeys le v) :: sortFields le fs

end

/-- The text of a value printed with sorted keys. -/
def stringifySorted (le : String → String → Bool) (v : Json) : String := stringify (sortKeys le v)

example : stringifySorted codeUnitLe (.obj [("b", .obj [("d", .null), ("c", .bool true)]),
    ("a", .arr [])]) = "\x7b\"a\":[],\"b\":\x7b\"c\":true,\"d\":null\x7d\x7d" := by decide

/-! ### The text determines the value -/

/-- Read one character of a JSON string back. -/
def unescape : List Char → Option (Char × List Char)
  | '\\' :: 'b' :: r => some (Char.ofNat 8, r)
  | '\\' :: 't' :: r => some (Char.ofNat 9, r)
  | '\\' :: 'n' :: r => some (Char.ofNat 10, r)
  | '\\' :: 'f' :: r => some (Char.ofNat 12, r)
  | '\\' :: 'r' :: r => some (Char.ofNat 13, r)
  | '\\' :: 'u' :: _ :: _ :: a :: b :: r =>
    some (Char.ofNat (16 * (hexDigit? a).getD 0 + (hexDigit? b).getD 0), r)
  | '\\' :: c :: r => some (c, r)
  | c :: r => some (c, r)
  | [] => none

theorem unescape_escape (c : Char) (r : List Char) : unescape (escape c ++ r) = some (c, r) := by
  unfold escape
  split
  · rename_i h
    subst h
    rfl
  · split
    · rename_i h
      subst h
      rfl
    · split
      · rename_i small
        obtain ⟨n, hn, rfl⟩ : ∃ n, n < 32 ∧ c = Char.ofNat n := ⟨c.toNat, small, by simp⟩
        interval_cases n <;> rfl
      · unfold unescape
        split <;> simp_all

theorem escape_head (c : Char) (r : List Char) : (escape c ++ r).head? ≠ some '"' := by
  unfold escape
  split
  · simp
  · rename_i notQuote
    split
    · simp
    · split
      · split <;> simp
      · simpa using notQuote

theorem quoted_append_injective : ∀ {cs ds r r' : List Char},
    cs.flatMap escape ++ '"' :: r = ds.flatMap escape ++ '"' :: r' → cs = ds ∧ r = r'
  | [], [], r, r', h => by simpa using h
  | [], d :: ds, r, r', h => by
      have := escape_head d (ds.flatMap escape ++ '"' :: r')
      simp only [List.flatMap_nil, List.nil_append, List.flatMap_cons, List.append_assoc] at h
      rw [← h] at this
      exact absurd rfl this
  | c :: cs, [], r, r', h => by
      have := escape_head c (cs.flatMap escape ++ '"' :: r)
      simp only [List.flatMap_nil, List.nil_append, List.flatMap_cons, List.append_assoc] at h
      rw [h] at this
      exact absurd rfl this
  | c :: cs, d :: ds, r, r', h => by
      simp only [List.flatMap_cons, List.append_assoc] at h
      have heads := congrArg unescape h
      rw [unescape_escape, unescape_escape] at heads
      simp only [Option.some.injEq, Prod.mk.injEq] at heads
      obtain ⟨same, rest⟩ := quoted_append_injective heads.2
      exact ⟨by rw [heads.1, same], rest⟩

theorem quote_append_injective {s t : String} {r r' : List Char}
    (h : quote s ++ r = quote t ++ r') : s = t ∧ r = r' := by
  simp only [quote, List.cons_append, List.append_assoc, List.cons.injEq, true_and,
    List.nil_append] at h
  obtain ⟨same, rest⟩ := quoted_append_injective h
  exact ⟨String.toList_inj.mp same, rest⟩

/-- The characters a printed number is made of. -/
def numberChar (c : Char) : Prop := c.isDigit = true ∨ c = '-' ∨ c = '.' ∨ c = 'e' ∨ c = '+'

theorem chars_numberChar (d : Decimal) : ∀ c ∈ d.chars, numberChar c := by
  obtain ⟨-, int, frac⟩ := d.parts_isDigit
  intro c hc
  rw [Decimal.chars_eq] at hc
  simp only [List.mem_append] at hc
  rcases hc with h | h | h | h
  · split at h <;> simp_all [numberChar]
  · exact .inl (int c h)
  · split at h
    · simp at h
    · rcases List.mem_cons.mp h with rfl | h
      · simp [numberChar]
      · exact .inl (frac c h)
  · cases hx : d.parts.2.2 with
    | none => simp [hx, Decimal.exponentChars] at h
    | some x =>
      rw [hx] at h
      simp only [Decimal.exponentChars, List.mem_cons] at h
      rcases h with rfl | rfl | h
      · simp [numberChar]
      · split <;> simp [numberChar]
      · exact .inl (Decimal.toDigits_ten_isDigit c h)

theorem chars_head (d : Decimal) : ∃ c cs, d.chars = c :: cs ∧ numberChar c := by
  cases h : d.chars with
  | nil =>
    obtain ⟨nonempty, -, -⟩ := d.parts_isDigit
    rw [Decimal.chars_eq] at h
    simp [nonempty] at h
  | cons c cs => exact ⟨c, cs, rfl, chars_numberChar d c (by simp [h])⟩

/-- What may follow a value: nothing that continues a number. -/
def Delimited (r : List Char) : Prop := ∀ c ∈ r.head?, ¬ numberChar c

theorem delimited_nil : Delimited [] := by simp [Delimited]

theorem delimited_printItems (vs : List Json) (r : List Char) : Delimited (printItems vs ++ r) := by
  cases vs <;> simp [Delimited, printItems, numberChar]

theorem delimited_printFields (fs : List (String × Json)) (r : List Char) :
    Delimited (printFields fs ++ r) := by
  cases fs with
  | nil => simp [Delimited, printFields, numberChar]
  | cons f fs => obtain ⟨k, v⟩ := f; simp [Delimited, printFields, numberChar]

/-- The first character of a printed value tells its kind. -/
def kind : Json → Nat
  | .null => 0
  | .bool true => 1
  | .bool false => 2
  | .num _ => 3
  | .str _ => 4
  | .arr _ => 5
  | .obj _ => 6

def charKind (c : Char) : Nat :=
  if c = 'n' then 0 else if c = 't' then 1 else if c = 'f' then 2 else if c = '"' then 4
  else if c = '[' then 5 else if c = '{' then 6 else 3

theorem print_head (v : Json) : ∃ c cs, print v = c :: cs ∧ charKind c = v.kind := by
  cases v with
  | null => exact ⟨_, _, rfl, rfl⟩
  | bool b => cases b <;> exact ⟨_, _, rfl, rfl⟩
  | num d =>
    obtain ⟨c, cs, hc, number⟩ := chars_head d
    refine ⟨c, cs, hc, ?_⟩
    have : c ≠ 'n' ∧ c ≠ 't' ∧ c ≠ 'f' ∧ c ≠ '"' ∧ c ≠ '[' ∧ c ≠ '{' := by
      refine ⟨?_, ?_, ?_, ?_, ?_, ?_⟩ <;> rintro rfl <;> simp [numberChar] at number
    simp [charKind, kind, this]
  | str s => exact ⟨_, _, rfl, rfl⟩
  | arr vs => cases vs <;> exact ⟨_, _, rfl, rfl⟩
  | obj fs =>
    cases fs with
    | nil => exact ⟨_, _, rfl, rfl⟩
    | cons f fs => obtain ⟨k, v⟩ := f; exact ⟨_, _, rfl, rfl⟩

theorem kind_eq_of_print_append {v w : Json} {r r' : List Char}
    (h : print v ++ r = print w ++ r') : v.kind = w.kind := by
  obtain ⟨c, cs, hv, kv⟩ := print_head v
  obtain ⟨d, ds, hw, kw⟩ := print_head w
  rw [hv, hw] at h
  simp only [List.cons_append, List.cons.injEq] at h
  rw [← kv, ← kw, h.1]

/-- No value begins with the bracket that closes a list. -/
theorem print_append_ne_bracket (v : Json) (r r' : List Char) : print v ++ r ≠ ']' :: r' := by
  intro h
  obtain ⟨c, cs, hc, hk⟩ := print_head v
  rw [hc, List.cons_append, List.cons.injEq] at h
  cases v with
  | num d =>
    obtain ⟨c', cs', hc', number⟩ := chars_head d
    cases hc.symm.trans hc'
    simp [h.1, numberChar] at number
  | bool b => rw [h.1] at hk; cases b <;> cases hk
  | _ => rw [h.1] at hk; cases hk

mutual

theorem print_append_injective : ∀ (v w : Json) {r r' : List Char}, Delimited r → Delimited r' →
    print v ++ r = print w ++ r' → v = w ∧ r = r'
  | .null, w, r, r', _, _, h => by
      have k := kind_eq_of_print_append h
      cases w with
      | null => exact ⟨rfl, List.append_cancel_left h⟩
      | bool b => cases b <;> cases k
      | _ => cases k
  | .bool a, w, r, r', _, _, h => by
      have k := kind_eq_of_print_append h
      cases w with
      | bool b =>
        cases a <;> cases b
        · exact ⟨rfl, List.append_cancel_left h⟩
        · cases k
        · cases k
        · exact ⟨rfl, List.append_cancel_left h⟩
      | _ => cases a <;> cases k
  | .num a, w, r, r', hr, hr', h => by
      have k := kind_eq_of_print_append h
      cases w with
      | num b =>
        obtain ⟨same, rest⟩ := Decimal.append_inj_of_span (chars_numberChar a)
          (chars_numberChar b) hr hr' h
        exact ⟨by rw [Decimal.chars_injective same], rest⟩
      | bool b => cases b <;> cases k
      | _ => cases k
  | .str a, w, r, r', _, _, h => by
      have k := kind_eq_of_print_append h
      cases w with
      | str b =>
        obtain ⟨same, rest⟩ := quote_append_injective h
        exact ⟨by rw [same], rest⟩
      | bool b => cases b <;> cases k
      | _ => cases k
  | .arr as, w, r, r', _, _, h => by
      have k := kind_eq_of_print_append h
      cases w with
      | arr bs =>
        match as, bs with
        | [], [] => exact ⟨rfl, List.append_cancel_left h⟩
        | [], b :: bs =>
          simp only [print, List.cons_append, List.append_assoc, List.cons.injEq, true_and] at h
          exact absurd h.symm (print_append_ne_bracket b _ _)
        | a :: as, [] =>
          simp only [print, List.cons_append, List.append_assoc, List.cons.injEq, true_and] at h
          exact absurd h (print_append_ne_bracket a _ _)
        | a :: as, b :: bs =>
          -- After the bracket, the text is that of the items after another one.
          obtain ⟨same, rest⟩ := printItems_append_injective (a :: as) (b :: bs)
            (congrArg (',' :: ·) (List.cons.inj h).2)
          exact ⟨by rw [same], rest⟩
      | bool b => cases b <;> cases k
      | _ => cases k
  | .obj as, w, r, r', _, _, h => by
      have k := kind_eq_of_print_append h
      cases w with
      | obj bs =>
        match as, bs with
        | [], [] => exact ⟨rfl, List.append_cancel_left h⟩
        | [], (_, _) :: _ => simp [print, quote] at h
        | (_, _) :: _, [] => simp [print, quote] at h
        | (l, a) :: as, (m, b) :: bs =>
          obtain ⟨same, rest⟩ := printFields_append_injective ((l, a) :: as) ((m, b) :: bs)
            (congrArg (',' :: ·) (List.cons.inj h).2)
          exact ⟨by rw [same], rest⟩
      | bool b => cases b <;> cases k
      | _ => cases k

theorem printItems_append_injective : ∀ (as bs : List Json) {r r' : List Char},
    printItems as ++ r = printItems bs ++ r' → as = bs ∧ r = r'
  | [], [], r, r', h => ⟨rfl, List.append_cancel_left h⟩
  | [], _ :: _, r, r', h => by simp [printItems] at h
  | _ :: _, [], r, r', h => by simp [printItems] at h
  | a :: as, b :: bs, r, r', h => by
      simp only [printItems, List.cons_append, List.append_assoc, List.cons.injEq, true_and] at h
      obtain ⟨head, tail⟩ := print_append_injective a b
        (delimited_printItems as r) (delimited_printItems bs r') h
      obtain ⟨rest, after⟩ := printItems_append_injective as bs tail
      exact ⟨by rw [head, rest], after⟩

theorem printFields_append_injective : ∀ (as bs : List (String × Json)) {r r' : List Char},
    printFields as ++ r = printFields bs ++ r' → as = bs ∧ r = r'
  | [], [], r, r', h => ⟨rfl, List.append_cancel_left h⟩
  | [], (_, _) :: _, r, r', h => by simp [printFields] at h
  | (_, _) :: _, [], r, r', h => by simp [printFields] at h
  | (l, a) :: as, (m, b) :: bs, r, r', h => by
      simp only [printFields, List.cons_append, List.append_assoc, List.cons.injEq,
        true_and] at h
      obtain ⟨key, value⟩ := quote_append_injective h
      simp only [List.cons.injEq, true_and] at value
      obtain ⟨head, tail⟩ := print_append_injective a b
        (delimited_printFields as r) (delimited_printFields bs r') value
      obtain ⟨rest, after⟩ := printFields_append_injective as bs tail
      exact ⟨by rw [key, head, rest], after⟩

end

theorem stringify_injective {v w : Json} (h : stringify v = stringify w) : v = w := by
  have text := String.ofList_injective h
  exact (print_append_injective v w delimited_nil delimited_nil (by rw [text])).1

end Json

end TalentTrust.Lib
