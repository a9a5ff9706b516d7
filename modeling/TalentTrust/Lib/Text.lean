import Mathlib.Tactic

/-!
String operations of the JavaScript standard library.

`trim` removes the white space and line terminators of ECMAScript,
`codeUnitLe` is the default order of `Array.prototype.sort` on strings,
`parseInt` reads as many digits as there are, and `toHex`/`fromHex` are the
`hex` encoding of a `Buffer`. Reading hex stops at the first pair that is not
two hex digits, as `Buffer.from(s, 'hex')` does.
-/

namespace TalentTrust.Lib

/-! ### White space -/

/-- `WhiteSpace` and `LineTerminator` of ECMAScript. -/
def isSpace (c : Char) : Bool :=
  let n := c.toNat
  (9 ≤ n && n ≤ 13) || n == 0x20 || n == 0xA0 || n == 0x1680 || (0x2000 ≤ n && n ≤ 0x200A) ||
    n == 0x2028 || n == 0x2029 || n == 0x202F || n == 0x205F || n == 0x3000 || n == 0xFEFF

def trimChars (cs : List Char) : List Char :=
  ((cs.dropWhile isSpace).reverse.dropWhile isSpace).reverse

def trim (s : String) : String := String.ofList (trimChars s.toList)

/-- `s.trim().length === 0`. -/
def isBlank (s : String) : Bool := trim s == ""

example : trim "\t a b \n" = "a b" := by decide

/-! ### The default order of strings -/

/-- The UTF-16 code units of a character. -/
def codeUnits (c : Char) : List Nat :=
  if c.toNat < 0x10000 then [c.toNat]
  else [0xD800 + (c.toNat - 0x10000) / 0x400, 0xDC00 + (c.toNat - 0x10000) % 0x400]

def lexLe : List Nat → List Nat → Bool
  | [], _ => true
  | _ :: _, [] => false
  | a :: as, b :: bs => a < b || (a == b && lexLe as bs)

/-- Comparison by UTF-16 code units. -/
def codeUnitLe (s t : String) : Bool := lexLe (s.toList.flatMap codeUnits) (t.toList.flatMap codeUnits)

def jsLength (s : String) : Nat := (s.toList.flatMap codeUnits).length

theorem jsLength_of_basic {s : String} (basic : ∀ c ∈ s.toList, c.toNat < 0x10000) :
    jsLength s = s.toList.length := by
  rw [jsLength]
  generalize s.toList = cs at basic ⊢
  induction cs with
  | nil => rfl
  | cons c cs ih =>
    obtain ⟨first, rest⟩ := List.forall_mem_cons.mp basic
    rw [List.flatMap_cons, List.length_append, ih rest, codeUnits, if_pos first, List.length_singleton,
      List.length_cons, Nat.add_comm]

/-! ### Whole numbers -/

/-- The number that a list of decimal digits stands for. -/
def digitsValue (digits : List Char) : Nat := digits.foldl (fun n c => 10 * n + (c.toNat - 48)) 0

/-- `parseInt(s, 10)`: the digits after white space and a sign; `none` is `NaN`. -/
def parseInt (s : String) : Option Int :=
  let read (digits : List Char) : Option Nat :=
    if digits = [] then none else some (digitsValue digits)
  match s.toList.dropWhile isSpace with
  | '-' :: rest => (read (rest.takeWhile Char.isDigit)).map fun n => -(n : Int)
  | '+' :: rest => (read (rest.takeWhile Char.isDigit)).map Int.ofNat
  | rest => (read (rest.takeWhile Char.isDigit)).map Int.ofNat

example : parseInt " -12.5 days" = some (-12) := by decide

/-! ### Hexadecimal text -/

def hexChar (n : Nat) : Char := if n < 10 then Char.ofNat (48 + n) else Char.ofNat (87 + n)

/-- The value of a hex digit, upper or lower case. -/
def hexDigit? (c : Char) : Option Nat :=
  if '0' ≤ c ∧ c ≤ '9' then some (c.toNat - 48)
  else if 'a' ≤ c ∧ c ≤ 'f' then some (c.toNat - 87)
  else if 'A' ≤ c ∧ c ≤ 'F' then some (c.toNat - 55)
  else none

/-- `buffer.toString('hex')`. -/
def toHex (bytes : List UInt8) : String :=
  String.ofList (bytes.flatMap fun b => [hexChar (b.toNat / 16), hexChar (b.toNat % 16)])

def readHex : List Char → List UInt8
  | a :: b :: rest =>
    match hexDigit? a, hexDigit? b with
    | some x, some y => UInt8.ofNat (16 * x + y) :: readHex rest
    | _, _ => []
  | _ => []

/-- `Buffer.from(s, 'hex')`. -/
def fromHex (s : String) : List UInt8 := readHex s.toList

theorem hexDigit?_hexChar {n : Nat} (h : n < 16) : hexDigit? (hexChar n) = some n := by
  interval_cases n <;> rfl

theorem fromHex_toHex (bytes : List UInt8) : fromHex (toHex bytes) = bytes := by
  unfold fromHex toHex
  rw [String.toList_ofList]
  induction bytes with
  | nil => rfl
  | cons b bs ih =>
    have small := b.toNat_lt
    have whole : 16 * (b.toNat / 16) + b.toNat % 16 = b.toNat := by omega
    simp only [List.flatMap_cons, List.cons_append, List.nil_append, readHex]
    rw [hexDigit?_hexChar (by omega), hexDigit?_hexChar (by omega)]
    simp [ih, whole]

/-- Two texts that differ at most in the case of letters; the second is in lower case. -/
def EqUpToCase (text lower : List Char) : Prop :=
  List.Forall₂ (fun c d => c = d ∨ c = d.toUpper) text lower

theorem hexDigit?_eq_some_iff {c : Char} {n : Nat} :
    hexDigit? c = some n ↔ n < 16 ∧ (c = hexChar n ∨ c = (hexChar n).toUpper) := by
  constructor
  · intro read
    have code : Char.ofNat c.toNat = c := Char.ofNat_toNat c
    unfold hexDigit? at read
    -- A digit, a letter in lower case or one in upper case: each range is small.
    split_ifs at read with range range range
    all_goals
      have least := UInt32.le_iff_toNat_le.mp range.1
      have most := UInt32.le_iff_toNat_le.mp range.2
      change _ ≤ c.toNat at least
      change c.toNat ≤ _ at most
      generalize c.toNat = k at *
      subst code
      simp at least most
      interval_cases k <;> cases read <;> decide
  · rintro ⟨small, rfl | rfl⟩ <;> interval_cases n <;> rfl

/-- What `Buffer.from(s, 'hex')` reads is the hex text of some bytes, and whatever comes after
it without a pair of hex digits. -/
theorem readHex_eq_iff {text : List Char} {bytes : List UInt8} :
    readHex text = bytes ↔ ∃ digits rest, text = digits ++ rest ∧
      EqUpToCase digits (toHex bytes).toList ∧ readHex rest = [] := by
  unfold toHex
  rw [String.toList_ofList]
  induction bytes generalizing text with
  | nil =>
    refine ⟨fun none => ⟨[], text, rfl, .nil, none⟩, ?_⟩
    rintro ⟨digits, rest, rfl, same, none⟩
    cases same
    exact none
  | cons b bs ih =>
    have whole : 16 * (b.toNat / 16) + b.toNat % 16 = b.toNat := by omega
    have small := b.toNat_lt
    simp only [List.flatMap_cons, List.cons_append, List.nil_append]
    constructor
    · intro read
      unfold readHex at read
      split at read
      · rename_i x y tail
        split at read
        · rename_i u v first second
          obtain ⟨byte, rest⟩ := List.cons.inj read
          obtain ⟨digits, after, rfl, same, none⟩ := ih.mp rest
          rw [hexDigit?_eq_some_iff] at first second
          have value : 16 * u + v = b.toNat := by
            rw [← byte, UInt8.toNat_ofNat']
            omega
          refine ⟨x :: y :: digits, after, rfl, ?_, none⟩
          rw [show b.toNat / 16 = u by omega, show b.toNat % 16 = v by omega]
          exact .cons first.2 (.cons second.2 same)
        · cases read
      · cases read
    · rintro ⟨digits, rest, rfl, same, none⟩
      obtain _ | ⟨first, _ | ⟨second, same⟩⟩ := same
      rw [List.cons_append, List.cons_append, readHex,
        hexDigit?_eq_some_iff.mpr ⟨by omega, first⟩, hexDigit?_eq_some_iff.mpr ⟨by omega, second⟩]
      simp [whole, ih.mpr ⟨_, rest, rfl, same, none⟩]

theorem toHex_injective {a b : List UInt8} (h : toHex a = toHex b) : a = b := by
  rw [← fromHex_toHex a, h, fromHex_toHex]

/-- `Buffer.from(s)`. -/
def utf8Bytes (s : String) : List UInt8 := s.toByteArray.data.toList

theorem utf8Bytes_injective : Function.Injective utf8Bytes := by
  intro s t h
  exact String.toByteArray_inj.mp (ByteArray.ext (Array.toList_inj.mp h))

theorem utf8Bytes_ofList (cs : List Char) :
    utf8Bytes (String.ofList cs) = cs.flatMap String.utf8EncodeChar := by
  simp [utf8Bytes, List.utf8Encode]

/-- `createHash('sha256').update(s).digest('hex')` for a given digest function. -/
def sha256Hex (sha256 : String → List UInt8) (s : String) : String := toHex (sha256 s)

theorem sha256Hex_injective {sha256 : String → List UInt8} (inj : Function.Injective sha256)
    {s t : String} (h : sha256Hex sha256 s = sha256Hex sha256 t) : s = t :=
  inj (toHex_injective h)

end TalentTrust.Lib
