import TalentTrust.Lib.Json
import TalentTrust.Lib.OrderedMap

/-!
`JSON.parse`.

The parser follows the grammar of JSON: white space between tokens, escapes in
strings, numbers without leading zeros. Of members with one name the last one
counts, in the place of the first. A number is read exactly; a surrogate escape
without its partner is read as the replacement character. Reading what
`JSON.stringify` prints gives the value back (`parse_stringify`), with repeated
names resolved (`normalize`).
-/

namespace TalentTrust.Lib

/-! ### Reading numbers -/

namespace Decimal

theorem stripZeros_normal {m : Int} (nonzero : 0 < m.natAbs) :
    (m.sign * (stripZeros m.natAbs m.natAbs 0).1 : Int) % 10 ≠ 0 := by
  have last := (stripZeros_spec m.natAbs m.natAbs 0 nonzero le_rfl).1
  rcases Int.sign_trichotomy m with sign | sign | sign
  · rw [sign]
    omega
  · have := Int.sign_eq_zero_iff_zero.mp sign
    omega
  · rw [sign]
    omega

theorem zero_normal : (0 : Int) % 10 ≠ 0 ∨ ((0 : Int) = 0 ∧ (0 : Int) = 0) := .inr ⟨rfl, rfl⟩

/-- The decimal `m · 10 ^ e`. -/
def normalise (m e : Int) : Decimal :=
  if h : 0 < m.natAbs then
    { mantissa := m.sign * (stripZeros m.natAbs m.natAbs 0).1
      exponent := e + (stripZeros m.natAbs m.natAbs 0).2
      normal := .inl (stripZeros_normal h) }
  else ⟨0, 0, zero_normal⟩

theorem value_normalise (m e : Int) : (normalise m e).value = m * (10 : ℚ) ^ e := by
  unfold normalise value
  split
  · rename_i pos
    have same := (stripZeros_spec m.natAbs m.natAbs 0 pos le_rfl).2
    simp only [pow_zero, mul_one] at same
    have cast : ((stripZeros m.natAbs m.natAbs 0).1 : ℚ) * 10 ^ (stripZeros m.natAbs m.natAbs 0).2 =
        m.natAbs := by exact_mod_cast same
    have whole : (m.sign : ℚ) * m.natAbs = m := by
      rw [← Int.cast_natCast, ← Int.cast_mul, Int.sign_mul_natAbs]
    rw [zpow_add₀ (by norm_num)]
    push_cast
    calc (m.sign : ℚ) * (stripZeros m.natAbs m.natAbs 0).1 *
          (10 ^ e * 10 ^ (stripZeros m.natAbs m.natAbs 0).2)
        = m.sign * ((stripZeros m.natAbs m.natAbs 0).1 * 10 ^ (stripZeros m.natAbs m.natAbs 0).2) *
            10 ^ e := by ring
      _ = m * 10 ^ e := by rw [cast, whole]
  · have : m = 0 := by omega
    simp [this]

/-- The number with the given sign, digits, fraction and exponent. -/
def ofParts (negative : Bool) (p : List Char × List Char × Option Int) : Decimal :=
  let m : Int := Nat.ofDigitChars 10 (p.1 ++ p.2.1) 0
  normalise (if negative then -m else m) (p.2.2.getD 0 - p.2.1.length)

theorem ofParts_parts (d : Decimal) : ofParts (decide (d.mantissa < 0)) d.parts = d := by
  apply value_injective
  rw [ofParts, value_normalise, value_eq_natAbs, ← parts_value, partsValue]
  by_cases neg : d.mantissa < 0
  · simp [neg]
  · simp [neg]

def digits (cs : List Char) : List Char := cs.takeWhile (·.isDigit)

def readInteger (cs : List Char) : Option (List Char × List Char) :=
  if digits cs = [] ∨ ((digits cs).head? = some '0' ∧ digits cs ≠ ['0']) then none
  else some (digits cs, cs.dropWhile (·.isDigit))

def readFraction : List Char → Option (List Char × List Char)
  | '.' :: cs => if digits cs = [] then none else some (digits cs, cs.dropWhile (·.isDigit))
  | cs => some ([], cs)

/-- The digits of an exponent, after its sign. -/
def readPower (negative : Bool) (cs : List Char) : Option (Option Int × List Char) :=
  if digits cs = [] then none
  else
    let power : Int := Nat.ofDigitChars 10 (digits cs) 0
    some (some (if negative then -power else power), cs.dropWhile (·.isDigit))

def readExponent : List Char → Option (Option Int × List Char)
  | [] => some (none, [])
  | c :: cs =>
    if c = 'e' ∨ c = 'E' then
      match cs with
      | '-' :: cs => readPower true cs
      | '+' :: cs => readPower false cs
      | cs => readPower false cs
    else some (none, c :: cs)

def readUnsigned (negative : Bool) (cs : List Char) : Option (Decimal × List Char) := do
  let (int, cs) ← readInteger cs
  let (frac, cs) ← readFraction cs
  let (power, cs) ← readExponent cs
  some (ofParts negative (int, frac, power), cs)

def readNumber : List Char → Option (Decimal × List Char)
  | '-' :: cs => readUnsigned true cs
  | cs => readUnsigned false cs

theorem span_digits {ds r : List Char} (all : ∀ c ∈ ds, c.isDigit = true)
    (stop : ∀ c ∈ r.head?, ¬ c.isDigit = true) :
    digits (ds ++ r) = ds ∧ (ds ++ r).dropWhile (·.isDigit) = r := by
  have none : r.takeWhile (·.isDigit) = [] ∧ r.dropWhile (·.isDigit) = r := by
    cases r with
    | nil => exact ⟨rfl, rfl⟩
    | cons c r =>
      have := stop c (by simp)
      exact ⟨List.takeWhile_cons_of_neg this, List.dropWhile_cons_of_neg this⟩
  constructor
  · rw [digits, List.takeWhile_append_of_pos all, none.1, List.append_nil]
  · rw [List.dropWhile_append_of_pos all, none.2]

theorem head_toDigits {n : Nat} (pos : 0 < n) : (Nat.toDigits 10 n).head? ≠ some '0' := by
  induction n using Nat.strongRecOn with
  | ind n ih =>
    rcases Nat.lt_or_ge n 10 with small | large
    · interval_cases n <;> decide
    · rw [Nat.toDigits_of_base_le (by decide) large]
      have front := ih (n / 10) (by omega) (by omega)
      rwa [List.head?_append_of_ne_nil _ (toDigits_ne_nil _)]

theorem parts_head (d : Decimal) : d.parts.1.head? = some '0' → d.parts.1 = ['0'] := by
  have head : (Nat.toDigits 10 d.mantissa.natAbs).head? = some '0' →
      Nat.toDigits 10 d.mantissa.natAbs = ['0'] ∧ d.exponent = 0 := by
    intro isZero
    rcases Nat.eq_zero_or_pos d.mantissa.natAbs with zero | pos
    · rw [zero]
      refine ⟨rfl, ?_⟩
      rcases d.normal with nonzero | ⟨-, exponent⟩
      · exact absurd (by omega) nonzero
      · exact exponent
    · exact absurd isZero (head_toDigits pos)
  unfold parts
  dsimp only
  split
  · intro isZero
    rw [List.head?_append_of_ne_nil _ (toDigits_ne_nil _)] at isZero
    obtain ⟨digits, exponent⟩ := head isZero
    simp [digits, exponent]
  · rename_i notWhole
    split
    · intro isZero
      rw [List.head?_take, if_neg (by omega)] at isZero
      obtain ⟨digits, exponent⟩ := head isZero
      simp [digits, exponent] at notWhole
    · split
      · intro _
        rfl
      · intro isZero
        rw [List.head?_take] at isZero
        obtain ⟨digits, exponent⟩ := head isZero
        simp [digits]

theorem readNumber_of_digit {cs : List Char} (digit : ∀ c ∈ cs.head?, c.isDigit = true) :
    readNumber cs = readUnsigned false cs := by
  unfold readNumber
  split
  · exact absurd (digit '-' rfl) (by decide)
  · rfl

theorem readFraction_printed {frac r : List Char} (all : ∀ c ∈ frac, c.isDigit = true)
    (stop : ∀ c ∈ r.head?, ¬ c.isDigit = true ∧ c ≠ '.') :
    readFraction ((if frac = [] then [] else '.' :: frac) ++ r) = some (frac, r) := by
  by_cases none : frac = []
  · rw [if_pos none, List.nil_append, none]
    unfold readFraction
    split
    · exact absurd rfl (stop '.' rfl).2
    · rfl
  · obtain ⟨read, rest⟩ := span_digits all (fun c mem => (stop c mem).1)
    rw [if_neg none, List.cons_append, readFraction, read, if_neg none, rest]

theorem readExponent_printed (x : Option Int) {r : List Char}
    (stop : ∀ c ∈ r.head?, ¬ c.isDigit = true ∧ c ≠ 'e' ∧ c ≠ 'E') :
    readExponent (exponentChars x ++ r) = some (x, r) := by
  cases x with
  | none =>
    cases r with
    | nil => rfl
    | cons c r =>
      obtain ⟨-, small, large⟩ := stop c rfl
      simp [exponentChars, readExponent, small, large]
  | some x =>
    obtain ⟨read, rest⟩ := span_digits (toDigits_ten_isDigit (n := x.natAbs))
      (fun c mem => (stop c mem).1)
    have power : ∀ negative, readPower negative (Nat.toDigits 10 x.natAbs ++ r) =
        some (some (if negative then -(x.natAbs : ℤ) else x.natAbs), r) := by
      intro negative
      simp [readPower, read, rest]
    by_cases neg : x < 0
    · simp only [exponentChars, if_pos neg, List.cons_append, readExponent, true_or, if_true, power]
      rw [show -(x.natAbs : ℤ) = x by omega]
    · simp only [exponentChars, if_neg neg, List.cons_append, readExponent, true_or, if_true, power]
      rw [if_neg (by decide), show (x.natAbs : ℤ) = x by omega]

/-- A printed number is read back, where no character of a number follows. -/
theorem readNumber_chars (d : Decimal) {r : List Char}
    (stop : ∀ c ∈ r.head?, ¬ c.isDigit = true ∧ c ≠ '.' ∧ c ≠ 'e' ∧ c ≠ 'E') :
    readNumber (d.chars ++ r) = some (d, r) := by
  obtain ⟨nonempty, int, frac⟩ := d.parts_isDigit
  have exponentStop : ∀ c ∈ (exponentChars d.parts.2.2 ++ r).head?, ¬ c.isDigit = true ∧ c ≠ '.' := by
    intro c mem
    cases h : d.parts.2.2 with
    | none =>
      rw [h] at mem
      exact ⟨(stop c mem).1, (stop c mem).2.1⟩
    | some x =>
      rw [h] at mem
      cases mem
      exact ⟨by decide, by decide⟩
  have integer : ∀ c ∈ ((if d.parts.2.1 = [] then [] else '.' :: d.parts.2.1) ++
      (exponentChars d.parts.2.2 ++ r)).head?, ¬ c.isDigit = true := by
    intro c mem
    split at mem
    · exact (exponentStop c mem).1
    · cases mem
      decide
  obtain ⟨read, rest⟩ := span_digits int integer
  have unsigned : ∀ negative, readUnsigned negative (d.parts.1 ++
      ((if d.parts.2.1 = [] then [] else '.' :: d.parts.2.1) ++ (exponentChars d.parts.2.2 ++ r))) =
      some (ofParts negative d.parts, r) := by
    intro negative
    have whole : ¬ (d.parts.1 = [] ∨ (d.parts.1.head? = some '0' ∧ d.parts.1 ≠ ['0'])) := by
      rintro (none | ⟨zero, other⟩)
      · exact nonempty none
      · exact other (d.parts_head zero)
    simp [readUnsigned, readInteger, read, rest, if_neg whole, readFraction_printed frac exponentStop, readExponent_printed _ (fun c mem => ⟨(stop c mem).1, (stop c mem).2.2⟩)]
  have text : d.chars ++ r = (if d.mantissa < 0 then ['-'] else []) ++ (d.parts.1 ++
      ((if d.parts.2.1 = [] then [] else '.' :: d.parts.2.1) ++ (exponentChars d.parts.2.2 ++ r))) := by
    rw [chars_eq]
    simp
  rw [text]
  by_cases neg : d.mantissa < 0
  · rw [if_pos neg, List.cons_append, List.nil_append, readNumber, unsigned]
    have same := ofParts_parts d
    rw [decide_eq_true neg] at same
    rw [same]
  · rw [if_neg neg, List.nil_append, readNumber_of_digit, unsigned]
    · have same := ofParts_parts d
      rw [decide_eq_false neg] at same
      rw [same]
    · intro c mem
      rw [List.head?_append_of_ne_nil _ nonempty] at mem
      exact int c (List.mem_of_mem_head? mem)

end Decimal

namespace Json

/-! ### Reading strings -/

/-- The character with the given code units; `U+FFFD` for a lone surrogate. -/
def decodeUnits : List Nat → List Char
  | [] => []
  | [u] => [if 0xD800 ≤ u ∧ u ≤ 0xDFFF then Char.ofNat 0xFFFD else Char.ofNat u]
  | u :: v :: us =>
    if 0xD800 ≤ u ∧ u ≤ 0xDBFF ∧ 0xDC00 ≤ v ∧ v ≤ 0xDFFF then
      Char.ofNat (0x10000 + (u - 0xD800) * 0x400 + (v - 0xDC00)) :: decodeUnits us
    else if 0xD800 ≤ u ∧ u ≤ 0xDFFF then Char.ofNat 0xFFFD :: decodeUnits (v :: us)
    else Char.ofNat u :: decodeUnits (v :: us)

theorem decodeUnits_codeUnits (c : Char) (us : List Nat) :
    decodeUnits (codeUnits c ++ us) = c :: decodeUnits us := by
  have valid := c.valid
  have bound : c.toNat < 0xD800 ∨ (0xDFFF < c.toNat ∧ c.toNat < 0x110000) := valid
  unfold codeUnits
  split
  · have plain : ¬ (0xD800 ≤ c.toNat ∧ c.toNat ≤ 0xDFFF) := by omega
    cases us with
    | nil => simp [decodeUnits, plain]
    | cons v us =>
      have notPair : ¬ (0xD800 ≤ c.toNat ∧ c.toNat ≤ 0xDBFF ∧ 0xDC00 ≤ v ∧ v ≤ 0xDFFF) := by omega
      simp only [List.cons_append, List.nil_append, decodeUnits, if_neg notPair, if_neg plain,
        Char.ofNat_toNat]
  · have pair : 0xD800 ≤ 0xD800 + (c.toNat - 0x10000) / 0x400 ∧
        0xD800 + (c.toNat - 0x10000) / 0x400 ≤ 0xDBFF ∧
        0xDC00 ≤ 0xDC00 + (c.toNat - 0x10000) % 0x400 ∧
        0xDC00 + (c.toNat - 0x10000) % 0x400 ≤ 0xDFFF := by omega
    have whole : 0x10000 + (0xD800 + (c.toNat - 0x10000) / 0x400 - 0xD800) * 0x400 +
        (0xDC00 + (c.toNat - 0x10000) % 0x400 - 0xDC00) = c.toNat := by omega
    simp only [List.cons_append, List.nil_append, decodeUnits, if_pos pair, whole, Char.ofNat_toNat]

theorem decodeUnits_flatMap (cs : List Char) : decodeUnits (cs.flatMap codeUnits) = cs := by
  induction cs with
  | nil => rfl
  | cons c cs ih => rw [List.flatMap_cons, decodeUnits_codeUnits, ih]

/-- The code unit of a one-letter escape. -/
def escaped? (c : Char) : Option Nat :=
  if c = '"' ∨ c = '\\' ∨ c = '/' then some c.toNat
  else if c = 'b' then some 8
  else if c = 't' then some 9
  else if c = 'n' then some 10
  else if c = 'f' then some 12
  else if c = 'r' then some 13
  else none

/-- The code unit of four hex digits. -/
def unit? (a b c d : Char) : Option Nat :=
  match hexDigit? a, hexDigit? b, hexDigit? c, hexDigit? d with
  | some w, some x, some y, some z => some (((16 * w + x) * 16 + y) * 16 + z)
  | _, _, _, _ => none

/-- The code units of a string, read after its opening quote. -/
def readUnits : List Char → Option (List Nat × List Char)
  | [] => none
  | '"' :: r => some ([], r)
  | '\\' :: 'u' :: a :: b :: c :: d :: r => do
      let u ← unit? a b c d
      let (us, r) ← readUnits r
      some (u :: us, r)
  | '\\' :: c :: r => do
      let u ← escaped? c
      let (us, r) ← readUnits r
      some (u :: us, r)
  | c :: r => do
      if c.toNat < 32 ∨ c = '\\' then none
      else
        let (us, r) ← readUnits r
        some (codeUnits c ++ us, r)

/-- A string, read after its opening quote. -/
def readString (cs : List Char) : Option (String × List Char) :=
  (readUnits cs).map fun x => (String.ofList (decodeUnits x.1), x.2)

theorem unit?_hexChar {n : Nat} (small : n < 256) :
    unit? '0' '0' (hexChar (n / 16)) (hexChar (n % 16)) = some n := by
  unfold unit?
  rw [hexDigit?_hexChar (by omega), hexDigit?_hexChar (by omega)]
  simp [hexDigit?]
  omega

variable {c : Char}

theorem readUnits_letter {u : Nat} (letter : escaped? c = some u) (r : List Char) :
    readUnits ('\\' :: c :: r) = (readUnits r).map fun x => (u :: x.1, x.2) := by
  rw [readUnits.eq_def]
  split
  · rename_i eq
    cases eq
  · rename_i eq
    cases eq
  · rename_i eq
    cases eq
    cases letter
  · rename_i eq
    cases eq
    rw [letter]
    cases readUnits r <;> rfl
  · rename_i other eq
    cases eq
    exact absurd rfl (other c r rfl)

theorem readUnits_plain (large : 32 ≤ c.toNat) (notQuote : c ≠ '"') (notSlash : c ≠ '\\')
    (r : List Char) : readUnits (c :: r) = (readUnits r).map fun x => (codeUnits c ++ x.1, x.2) := by
  rw [readUnits.eq_def]
  split
  · rename_i eq
    cases eq
  · rename_i eq
    cases eq
    exact absurd rfl notQuote
  iterate 2
    rename_i eq
    cases eq
    exact absurd rfl notSlash
  · rename_i eq
    cases eq
    rw [if_neg (by simp [notSlash]; omega)]
    cases readUnits r <;> rfl

theorem readUnits_unit {a b d : Char} {u : Nat} (isUnit : unit? a b c d = some u) (r : List Char) :
    readUnits ('\\' :: 'u' :: a :: b :: c :: d :: r) =
      (readUnits r).map fun x => (u :: x.1, x.2) := by
  rw [readUnits, isUnit]
  cases readUnits r <;> rfl

theorem readUnits_escape (c : Char) (r : List Char) :
    readUnits (escape c ++ r) = (readUnits r).map fun x => (codeUnits c ++ x.1, x.2) := by
  unfold escape
  split
  · rename_i isQuote
    subst isQuote
    exact readUnits_letter rfl r
  · rename_i notQuote
    split
    · rename_i isSlash
      subst isSlash
      exact readUnits_letter rfl r
    · rename_i notSlash
      split
      · have units : codeUnits c = [c.toNat] := by
          rw [codeUnits, if_pos (by omega)]
        rw [units]
        split
        iterate 5
          rename_i code
          rw [code]
          exact readUnits_letter rfl r
        · exact readUnits_unit (unit?_hexChar (by omega)) r
      · exact readUnits_plain (by omega) notQuote notSlash r

theorem readUnits_quoted (cs r : List Char) :
    readUnits (cs.flatMap escape ++ '"' :: r) = some (cs.flatMap codeUnits, r) := by
  induction cs with
  | nil =>
    rfl
  | cons c cs ih =>
    rw [List.flatMap_cons, List.append_assoc, readUnits_escape, ih]
    rfl

theorem readString_quoted (s : String) (r : List Char) :
    readString (s.toList.flatMap escape ++ '"' :: r) = some (s, r) := by
  rw [readString, readUnits_quoted, Option.map_some, decodeUnits_flatMap, String.ofList_toList]

/-! ### Reading values -/

/-- White space of JSON. -/
def skipSpace (cs : List Char) : List Char :=
  cs.dropWhile fun c => c = ' ' ∨ c = '\t' ∨ c = '\n' ∨ c = '\r'

/-- Of the members with one name the last one counts, in the place of the first. -/
def lastWins (fields : List (String × Json)) : List (String × Json) :=
  fields.foldl (fun acc f => setEntry f.1 f.2 acc) []

/-- A member, with the given reader for its value. -/
def readField (value : List Char → Option (Json × List Char)) (cs : List Char) :
    Option ((String × Json) × List Char) :=
  match skipSpace cs with
  | '"' :: cs => do
      let (key, cs) ← readString cs
      match skipSpace cs with
      | ':' :: cs => do
          let (v, cs) ← value cs
          some ((key, v), cs)
      | _ => none
  | _ => none

def readWord (word : List Char) (v : Json) (cs : List Char) : Option (Json × List Char) :=
  if word.isPrefixOf cs then some (v, cs.drop word.length) else none

mutual

/-- A value; the fuel bounds the number of tokens. -/
def readValue : Nat → List Char → Option (Json × List Char)
  | 0, _ => none
  | fuel + 1, cs =>
    match skipSpace cs with
    | [] => none
    | c :: cs =>
      if c = 'n' then readWord ['u', 'l', 'l'] .null cs
      else if c = 't' then readWord ['r', 'u', 'e'] (.bool true) cs
      else if c = 'f' then readWord ['a', 'l', 's', 'e'] (.bool false) cs
      else if c = '"' then (readString cs).map fun x => (.str x.1, x.2)
      else if c = '[' then
        match skipSpace cs with
        | ']' :: cs => some (.arr [], cs)
        | cs => do
            let (v, cs) ← readValue fuel cs
            let (vs, cs) ← readItems fuel cs
            some (.arr (v :: vs), cs)
      else if c = '{' then
        match skipSpace cs with
        | '}' :: cs => some (.obj [], cs)
        | cs => do
            let (f, cs) ← readField (readValue fuel) cs
            let (fs, cs) ← readFields fuel cs
            some (.obj (lastWins (f :: fs)), cs)
      else (Decimal.readNumber (c :: cs)).map fun x => (.num x.1, x.2)

def readItems : Nat → List Char → Option (List Json × List Char)
  | 0, _ => none
  | fuel + 1, cs =>
    match skipSpace cs with
    | ']' :: cs => some ([], cs)
    | ',' :: cs => do
        let (v, cs) ← readValue fuel cs
        let (vs, cs) ← readItems fuel cs
        some (v :: vs, cs)
    | _ => none

def readFields : Nat → List Char → Option (List (String × Json) × List Char)
  | 0, _ => none
  | fuel + 1, cs =>
    match skipSpace cs with
    | '}' :: cs => some ([], cs)
    | ',' :: cs => do
        let (f, cs) ← readField (readValue fuel) cs
        let (fs, cs) ← readFields fuel cs
        some (f :: fs, cs)
    | _ => none

end

/-- `JSON.parse(s)`; `none` is a `SyntaxError`. -/
def parse (s : String) : Option Json :=
  match readValue (s.toList.length + 1) s.toList with
  | some (v, rest) => if skipSpace rest = [] then some v else none
  | none => none

example : parse " [1.50, \"\\u0041\\n\", null]" =
    some (.arr [.num ⟨15, -1, by decide⟩, .str "A\n", .null]) := by decide +kernel

/-! ### Reading what is printed -/

mutual

/-- The value that is left when repeated names are resolved at every level. -/
def normalize : Json → Json
  | .arr items => .arr (normalizeItems items)
  | .obj fields => .obj (lastWins (normalizeFields fields))
  | v => v

def normalizeItems : List Json → List Json
  | [] => []
  | v :: vs => normalize v :: normalizeItems vs

def normalizeFields : List (String × Json) → List (String × Json)
  | [] => []
  | (k, v) :: fs => (k, normalize v) :: normalizeFields fs

end

theorem skipSpace_cons (solid : c ≠ ' ' ∧ c ≠ '\t' ∧ c ≠ '\n' ∧ c ≠ '\r') (cs : List Char) :
    skipSpace (c :: cs) = c :: cs := by
  simp [skipSpace, solid]

theorem print_solid (v : Json) : ∃ c cs, print v = c :: cs ∧
    (c ≠ ' ' ∧ c ≠ '\t' ∧ c ≠ '\n' ∧ c ≠ '\r') ∧ c ≠ ']' ∧ c ≠ '}' := by
  cases v with
  | null | str s => exact ⟨_, _, rfl, by decide, by decide, by decide⟩
  | bool b => cases b <;> exact ⟨_, _, rfl, by decide, by decide, by decide⟩
  | num d =>
    obtain ⟨c, cs, text, number⟩ := chars_head d
    refine ⟨c, cs, text, ?_, ?_, ?_⟩
    · refine ⟨?_, ?_, ?_, ?_⟩ <;> rintro rfl <;> simp [numberChar] at number
    · rintro rfl
      simp [numberChar] at number
    · rintro rfl
      simp [numberChar] at number
  | arr vs => cases vs <;> exact ⟨_, _, rfl, by decide, by decide, by decide⟩
  | obj fs => rcases fs with _ | ⟨⟨k, v⟩, fs⟩ <;> exact ⟨_, _, rfl, by decide, by decide, by decide⟩

/-- What may follow a value inside a bracket, or nothing. -/
def Closing (r : List Char) : Prop := ∀ c ∈ r.head?, c = ',' ∨ c = ']' ∨ c = '}'

theorem closing_printItems (vs : List Json) (r : List Char) : Closing (printItems vs ++ r) := by
  cases vs <;> simp [Closing, printItems]

theorem closing_printFields (fs : List (String × Json)) (r : List Char) :
    Closing (printFields fs ++ r) := by
  match fs with
  | [] => simp [Closing, printFields]
  | (k, v) :: fs => simp [Closing, printFields]

theorem readValue_number (number : numberChar c) (fuel : Nat) (cs : List Char) :
    readValue (fuel + 1) (c :: cs) = (Decimal.readNumber (c :: cs)).map fun x => (.num x.1, x.2) := by
  have solid : c ≠ ' ' ∧ c ≠ '\t' ∧ c ≠ '\n' ∧ c ≠ '\r' := by
    refine ⟨?_, ?_, ?_, ?_⟩ <;> rintro rfl <;> simp [numberChar] at number
  have other : c ≠ 'n' ∧ c ≠ 't' ∧ c ≠ 'f' ∧ c ≠ '"' ∧ c ≠ '[' ∧ c ≠ '{' := by
    refine ⟨?_, ?_, ?_, ?_, ?_, ?_⟩ <;> rintro rfl <;> simp [numberChar] at number
  rw [readValue, skipSpace_cons solid]
  simp [other]

theorem readValue_items {cs : List Char}
    (solid : c ≠ ' ' ∧ c ≠ '\t' ∧ c ≠ '\n' ∧ c ≠ '\r') (notEnd : c ≠ ']') (fuel : Nat) :
    readValue (fuel + 1) ('[' :: c :: cs) = (do
      let (v, cs) ← readValue fuel (c :: cs)
      let (vs, cs) ← readItems fuel cs
      some (.arr (v :: vs), cs)) := by
  rw [readValue, skipSpace_cons (by decide)]
  simp only [skipSpace_cons solid]
  rw [if_neg (by decide), if_neg (by decide), if_neg (by decide), if_neg (by decide),
    if_pos (by decide)]
  split
  · rename_i eq
    cases eq
    exact absurd rfl notEnd
  · rfl

theorem readValue_fields (cs : List Char) (fuel : Nat) :
    readValue (fuel + 1) ('{' :: '"' :: cs) = (do
      let (f, cs) ← readField (readValue fuel) ('"' :: cs)
      let (fs, cs) ← readFields fuel cs
      some (.obj (lastWins (f :: fs)), cs)) := by
  rw [readValue, skipSpace_cons (by decide)]
  simp only [skipSpace_cons (show '"' ≠ ' ' ∧ '"' ≠ '\t' ∧ '"' ≠ '\n' ∧ '"' ≠ '\r' by decide)]
  split
  · rename_i eq
    cases eq
  · rfl

theorem readField_quote (value : List Char → Option (Json × List Char)) (k : String) (cs : List Char) :
    readField value (quote k ++ ':' :: cs) = (value cs).map fun x => ((k, x.1), x.2) := by
  have text : quote k ++ ':' :: cs = '"' :: (k.toList.flatMap escape ++ '"' :: ':' :: cs) := by
    simp [quote]
  rw [text, readField, skipSpace_cons (by decide)]
  simp only [readString_quoted, Option.bind_eq_bind, Option.bind_some,
    skipSpace_cons (show ':' ≠ ' ' ∧ ':' ≠ '\t' ∧ ':' ≠ '\n' ∧ ':' ≠ '\r' by decide)]
  cases value cs <;> rfl

mutual

/-- A printed value is read back, with enough fuel. -/
theorem readValue_print : ∀ (v : Json) {fuel : Nat} {r : List Char}, (print v).length < fuel →
    Closing r → readValue fuel (print v ++ r) = some (normalize v, r)
  | _, 0, _, short, _ => absurd short (Nat.not_lt_zero _)
  | .null, _ + 1, _, _, _ => rfl
  | .bool true, _ + 1, _, _, _ => rfl
  | .bool false, _ + 1, _, _, _ => rfl
  | .num d, fuel + 1, r, _, closing => by
      obtain ⟨c, cs, text, number⟩ := chars_head d
      have stop : ∀ c ∈ r.head?, ¬ c.isDigit = true ∧ c ≠ '.' ∧ c ≠ 'e' ∧ c ≠ 'E' := by
        intro c mem
        rcases closing c mem with rfl | rfl | rfl <;> decide
      have read := Decimal.readNumber_chars d stop
      rw [print, text, List.cons_append] at *
      rw [readValue_number number, read]
      rfl
  | .str s, fuel + 1, r, _, _ => by
      have text : print (.str s) ++ r = '"' :: (s.toList.flatMap escape ++ '"' :: r) := by
        simp [print, quote]
      rw [text, readValue, skipSpace_cons (by decide)]
      simp [readString_quoted, normalize]
  | .arr [], _ + 1, _, _, _ => rfl
  | .arr (v :: vs), fuel + 1, r, enough, _ => by
      obtain ⟨c, cs, text, solid, notEnd, -⟩ := print_solid v
      simp only [print, List.length_cons, List.length_append] at enough
      have first : readValue fuel (print v ++ (printItems vs ++ r)) = _ :=
        readValue_print v (by omega) (closing_printItems vs r)
      have rest : readItems fuel (printItems vs ++ r) = _ := readItems_print vs (by omega)
      rw [text, List.cons_append] at first
      rw [print, List.cons_append, List.append_assoc, text, List.cons_append,
        readValue_items solid notEnd, first]
      simp only [Option.bind_eq_bind, Option.bind_some, rest]
      rfl
  | .obj [], _ + 1, _, _, _ => rfl
  | .obj ((k, v) :: fs), fuel + 1, r, enough, _ => by
      simp only [print, List.length_cons, List.length_append] at enough
      have first : readValue fuel (print v ++ (printFields fs ++ r)) = _ :=
        readValue_print v (by omega) (closing_printFields fs r)
      have rest : readFields fuel (printFields fs ++ r) = _ := readFields_print fs (by omega)
      have text : print (.obj ((k, v) :: fs)) ++ r =
          '{' :: (quote k ++ ':' :: (print v ++ (printFields fs ++ r))) := by
        simp [print]
      have member := readField_quote (readValue fuel) k (print v ++ (printFields fs ++ r))
      rw [first, Option.map_some] at member
      rw [text]
      unfold quote at member ⊢
      rw [List.cons_append] at member ⊢
      rw [readValue_fields, member]
      simp only [Option.bind_eq_bind, Option.bind_some, rest]
      rfl

theorem readItems_print : ∀ (vs : List Json) {fuel : Nat} {r : List Char},
    (printItems vs).length < fuel → readItems fuel (printItems vs ++ r) = some (normalizeItems vs, r)
  | _, 0, _, short => absurd short (Nat.not_lt_zero _)
  | [], _ + 1, _, _ => rfl
  | v :: vs, fuel + 1, r, enough => by
      simp only [printItems, List.length_cons, List.length_append] at enough
      have first : readValue fuel (print v ++ (printItems vs ++ r)) = _ :=
        readValue_print v (by omega) (closing_printItems vs r)
      have rest : readItems fuel (printItems vs ++ r) = _ := readItems_print vs (by omega)
      rw [printItems, List.cons_append, List.append_assoc, readItems, skipSpace_cons (by decide)]
      simp only [first, Option.bind_eq_bind, Option.bind_some, rest]
      rfl

theorem readFields_print : ∀ (fs : List (String × Json)) {fuel : Nat} {r : List Char},
    (printFields fs).length < fuel →
      readFields fuel (printFields fs ++ r) = some (normalizeFields fs, r)
  | _, 0, _, short => absurd short (Nat.not_lt_zero _)
  | [], _ + 1, _, _ => rfl
  | (k, v) :: fs, fuel + 1, r, enough => by
      simp only [printFields, List.length_cons, List.length_append] at enough
      have first : readValue fuel (print v ++ (printFields fs ++ r)) = _ :=
        readValue_print v (by omega) (closing_printFields fs r)
      have rest : readFields fuel (printFields fs ++ r) = _ := readFields_print fs (by omega)
      have text : printFields ((k, v) :: fs) ++ r =
          ',' :: (quote k ++ ':' :: (print v ++ (printFields fs ++ r))) := by
        simp [printFields]
      rw [text, readFields, skipSpace_cons (by decide)]
      simp only [readField_quote, first, Option.map_some, Option.bind_eq_bind, Option.bind_some, rest]
      rfl

end

theorem parse_stringify (v : Json) : parse (stringify v) = some (normalize v) := by
  have read : readValue ((print v).length + 1) (print v ++ []) = _ :=
    readValue_print v (Nat.lt_succ_self _) (by simp [Closing])
  rw [List.append_nil] at read
  rw [parse, stringify, String.toList_ofList, read]
  rfl

variable {fields : List (String × Json)}

theorem lastWins_of_nodup (nodup : (fields.map Prod.fst).Nodup) : lastWins fields = fields := by
  have step : ∀ (fs acc : List (String × Json)), ((acc ++ fs).map Prod.fst).Nodup →
      fs.foldl (fun acc f => setEntry f.1 f.2 acc) acc = acc ++ fs := by
    intro fs
    induction fs with
    | nil =>
      intro acc _
      rw [List.foldl_nil, List.append_nil]
    | cons f fs ih =>
      intro acc distinct
      have fresh : f.1 ∉ acc.map Prod.fst := by
        rw [List.map_append, List.nodup_append] at distinct
        intro mem
        exact distinct.2.2 f.1 mem f.1 List.mem_cons_self rfl
      rw [List.foldl_cons, setEntry_of_notMem fresh, ih _ (by simpa using distinct)]
      simp
  exact step fields [] nodup

/-! ### Values of the language -/

/-- An array index: a whole number below `2^32 - 1` without leading zeros. -/
def isIndex (key : String) : Bool :=
  key ≠ "" && key.toList.all Char.isDigit && (key = "0" || key.toList.head? ≠ some '0') &&
    digitsValue key.toList < 4294967295

variable (fields) in
/-- The order in which an object enumerates its members: array indices first, ascending. -/
def enumerated : List (String × Json) :=
  (fields.filter fun f => isIndex f.1).mergeSort
      (fun f g => digitsValue f.1.toList ≤ digitsValue g.1.toList) ++
    fields.filter fun f => !isIndex f.1

mutual

/-- The members of every object in the order of enumeration. -/
def enumerate : Json → Json
  | .arr items => .arr (enumerateItems items)
  | .obj fields => .obj (enumerated (enumerateFields fields))
  | v => v

def enumerateItems : List Json → List Json
  | [] => []
  | v :: vs => enumerate v :: enumerateItems vs

def enumerateFields : List (String × Json) → List (String × Json)
  | [] => []
  | (k, v) :: fs => (k, enumerate v) :: enumerateFields fs

end

/-- The value of the language that `JSON.parse(s)` returns. -/
def parseValue (s : String) : Option Json := (parse s).map enumerate

/-- What a JSON value of the language looks like: names do not repeat, and the members of
every object are in the order of enumeration. -/
structure IsValue (v : Json) : Prop where
  plain : v.normalize = v
  ordered : v.enumerate = v

theorem parseValue_stringify {v : Json} (value : IsValue v) : parseValue (stringify v) = some v := by
  rw [parseValue, parse_stringify, value.plain, Option.map_some, value.ordered]

theorem enumerated_of_names (names : ∀ f ∈ fields, isIndex f.1 = false) :
    enumerated fields = fields := by
  have none_index : (fields.filter fun f => isIndex f.1) = [] :=
    List.filter_eq_nil_iff.mpr fun f mem => by rw [names f mem]; exact Bool.false_ne_true
  have all_named : (fields.filter fun f => !isIndex f.1) = fields :=
    List.filter_eq_self.mpr fun f mem => by rw [names f mem]; rfl
  rw [enumerated, none_index, all_named, List.mergeSort_nil, List.nil_append]

theorem normalizeFields_of_values (values : ∀ f ∈ fields, f.2.normalize = f.2) :
    normalizeFields fields = fields := by
  induction fields with
  | nil => rfl
  | cons f fs ih =>
    obtain ⟨first, rest⟩ := List.forall_mem_cons.mp values
    rw [normalizeFields, first, ih rest]

theorem enumerateFields_of_values (values : ∀ f ∈ fields, f.2.enumerate = f.2) :
    enumerateFields fields = fields := by
  induction fields with
  | nil => rfl
  | cons f fs ih =>
    obtain ⟨first, rest⟩ := List.forall_mem_cons.mp values
    rw [enumerateFields, first, ih rest]

theorem isValue_num (d : Decimal) : IsValue (.num d) := ⟨rfl, rfl⟩

theorem isValue_str (s : String) : IsValue (.str s) := ⟨rfl, rfl⟩

theorem isValue_obj (keys : List String)
    (named : fields.map Prod.fst = keys) (plain : keys.Nodup ∧ ∀ key ∈ keys, isIndex key = false)
    (values : ∀ f ∈ fields, IsValue f.2) : IsValue (.obj fields) where
  plain := by
    rw [normalize, normalizeFields_of_values fun f mem => (values f mem).plain,
      lastWins_of_nodup (named ▸ plain.1)]
  ordered := by
    have names : ∀ f ∈ fields, isIndex f.1 = false := fun f mem =>
      plain.2 f.1 (named ▸ List.mem_map_of_mem mem)
    rw [enumerate, enumerateFields_of_values fun f mem => (values f mem).ordered, enumerated_of_names names]

end Json

end TalentTrust.Lib
