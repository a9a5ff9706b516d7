import TalentTrust.Lib.Text

/-!
The `base64` and `base64url` encodings of a `Buffer`.

Reading accepts both alphabets and passes over every other character, the
padding included. Bits that do not make up a byte are dropped. What is encoded
is read back (`fromBase64_toBase64`, `fromBase64_toBase64Url`); text survives the way through its UTF-8
bytes (`utf8Text_utf8Bytes`).
-/

namespace TalentTrust.Lib

def sextetChar (n : Nat) : Char :=
  if n < 26 then Char.ofNat (65 + n)
  else if n < 52 then Char.ofNat (71 + n)
  else if n < 62 then Char.ofNat (n - 4)
  else if n = 62 then '+'
  else '/'

/-- The six bits of a character, in the standard or the URL-safe alphabet. -/
def sextet? (c : Char) : Option Nat :=
  if 'A' ≤ c ∧ c ≤ 'Z' then some (c.toNat - 65)
  else if 'a' ≤ c ∧ c ≤ 'z' then some (c.toNat - 71)
  else if '0' ≤ c ∧ c ≤ '9' then some (c.toNat + 4)
  else if c = '+' ∨ c = '-' then some 62
  else if c = '/' ∨ c = '_' then some 63
  else none

def encodeBytes : List UInt8 → List Char
  | [] => []
  | [a] => [sextetChar (a.toNat / 4), sextetChar (a.toNat % 4 * 16), '=', '=']
  | [a, b] =>
    [sextetChar (a.toNat / 4), sextetChar (a.toNat % 4 * 16 + b.toNat / 16),
      sextetChar (b.toNat % 16 * 4), '=']
  | a :: b :: c :: rest =>
    sextetChar (a.toNat / 4) :: sextetChar (a.toNat % 4 * 16 + b.toNat / 16) ::
      sextetChar (b.toNat % 16 * 4 + c.toNat / 64) :: sextetChar (c.toNat % 64) :: encodeBytes rest

/-- `buffer.toString('base64')`. -/
def toBase64 (bytes : List UInt8) : String := String.ofList (encodeBytes bytes)

def decodeSextets : List Nat → List UInt8
  | w :: x :: y :: z :: rest =>
    UInt8.ofNat (w * 4 + x / 16) :: UInt8.ofNat (x % 16 * 16 + y / 4) ::
      UInt8.ofNat (y % 4 * 64 + z) :: decodeSextets rest
  | [w, x, y] => [UInt8.ofNat (w * 4 + x / 16), UInt8.ofNat (x % 16 * 16 + y / 4)]
  | [w, x] => [UInt8.ofNat (w * 4 + x / 16)]
  | _ => []

/-- `Buffer.from(s, 'base64')`. -/
def fromBase64 (s : String) : List UInt8 := decodeSextets (s.toList.filterMap sextet?)

variable {n : Nat}

theorem sextet?_sextetChar (small : n < 64) : sextet? (sextetChar n) = some n := by
  interval_cases n <;> rfl

theorem sextets_cons (small : n < 64) (cs : List Char) :
    (sextetChar n :: cs).filterMap sextet? = n :: cs.filterMap sextet? :=
  List.filterMap_cons_some (sextet?_sextetChar small)

theorem ofNat_toNat_eq {b : UInt8} (same : n = b.toNat) : UInt8.ofNat n = b := by
  rw [same, UInt8.ofNat_toNat]

theorem decode_encodeBytes : ∀ bytes : List UInt8,
    decodeSextets ((encodeBytes bytes).filterMap sextet?) = bytes
  | [] => rfl
  | [a] => by
      have := a.toNat_lt
      rw [encodeBytes, sextets_cons (by omega), sextets_cons (by omega)]
      have padding : ['=', '='].filterMap sextet? = [] := by decide
      rw [padding, decodeSextets, ofNat_toNat_eq (b := a) (by omega)]
  | [a, b] => by
      have := a.toNat_lt
      have := b.toNat_lt
      rw [encodeBytes, sextets_cons (by omega), sextets_cons (by omega), sextets_cons (by omega)]
      have padding : ['='].filterMap sextet? = [] := by decide
      rw [padding, decodeSextets, ofNat_toNat_eq (b := a) (by omega), ofNat_toNat_eq (b := b) (by omega)]
  | a :: b :: c :: rest => by
      have := a.toNat_lt
      have := b.toNat_lt
      have := c.toNat_lt
      rw [encodeBytes, sextets_cons (by omega), sextets_cons (by omega), sextets_cons (by omega),
        sextets_cons (by omega), decodeSextets, decode_encodeBytes rest,
        ofNat_toNat_eq (b := a) (by omega), ofNat_toNat_eq (b := b) (by omega),
        ofNat_toNat_eq (b := c) (by omega)]

variable (bytes : List UInt8)

theorem fromBase64_toBase64 : fromBase64 (toBase64 bytes) = bytes := by
  rw [fromBase64, toBase64, String.toList_ofList, decode_encodeBytes]

/-! ### The URL-safe alphabet -/

/-- A character in the URL-safe alphabet, which has no padding. -/
def urlChar? (c : Char) : Option Char :=
  if c = '+' then some '-' else if c = '/' then some '_' else if c = '=' then none else some c

/-- `buffer.toString('base64url')`. -/
def toBase64Url : String :=
  String.ofList ((encodeBytes bytes).filterMap urlChar?)

/-- `/[A-Za-z0-9_-]/`. -/
def isUrlChar (c : Char) : Bool :=
  ('A' ≤ c && c ≤ 'Z') || ('a' ≤ c && c ≤ 'z') || ('0' ≤ c && c ≤ '9') || c = '_' || c = '-'

theorem toNat_lt_of_isUrlChar {c : Char} (url : isUrlChar c = true) : c.toNat < 128 := by
  have upto : ∀ {d : Char}, c ≤ d → d.toNat < 128 → c.toNat < 128 :=
    fun le small => Nat.lt_of_le_of_lt (UInt32.le_iff_toNat_le.mp le) small
  simp only [isUrlChar, Bool.or_eq_true, Bool.and_eq_true, decide_eq_true_eq] at url
  rcases url with (((⟨-, upper⟩ | ⟨-, lower⟩) | ⟨-, digit⟩) | rfl) | rfl
  · exact upto upper (by decide)
  · exact upto lower (by decide)
  · exact upto digit (by decide)
  · decide
  · decide

theorem sextet?_urlChar? (c : Char) : (urlChar? c).bind sextet? = sextet? c := by
  unfold urlChar?
  split
  · subst c
    decide
  · split
    · subst c
      decide
    · split
      · subst c
        decide
      · rfl

theorem fromBase64_toBase64Url : fromBase64 (toBase64Url bytes) = bytes := by
  rw [fromBase64, toBase64Url, String.toList_ofList, List.filterMap_filterMap]
  simp only [sextet?_urlChar?]
  exact decode_encodeBytes bytes

theorem isUrlChar_sextetChar (small : n < 64) :
    ∀ c ∈ urlChar? (sextetChar n), isUrlChar c = true := by
  have all : ∀ n < 64, (urlChar? (sextetChar n)).all isUrlChar = true := by decide
  exact (Option.all_eq_true _ _).mp (all n small)

theorem encodeBytes_sextets : ∀ bytes : List UInt8, ∀ c ∈ encodeBytes bytes,
    c = '=' ∨ ∃ n, n < 64 ∧ c = sextetChar n
  | [] => by simp [encodeBytes]
  | [a] => by
      have := a.toNat_lt
      simp only [encodeBytes, List.mem_cons, List.not_mem_nil, or_false]
      rintro c (rfl | rfl | rfl | rfl)
      · exact .inr ⟨_, by omega, rfl⟩
      · exact .inr ⟨_, by omega, rfl⟩
      · exact .inl rfl
      · exact .inl rfl
  | [a, b] => by
      have := a.toNat_lt
      have := b.toNat_lt
      simp only [encodeBytes, List.mem_cons, List.not_mem_nil, or_false]
      rintro c (rfl | rfl | rfl | rfl)
      · exact .inr ⟨_, by omega, rfl⟩
      · exact .inr ⟨_, by omega, rfl⟩
      · exact .inr ⟨_, by omega, rfl⟩
      · exact .inl rfl
  | a :: b :: c :: rest => by
      have := a.toNat_lt
      have := b.toNat_lt
      have := c.toNat_lt
      simp only [encodeBytes, List.mem_cons]
      rintro d (rfl | rfl | rfl | rfl | later)
      · exact .inr ⟨_, by omega, rfl⟩
      · exact .inr ⟨_, by omega, rfl⟩
      · exact .inr ⟨_, by omega, rfl⟩
      · exact .inr ⟨_, by omega, rfl⟩
      · exact encodeBytes_sextets rest d later

theorem isUrlChar_toBase64Url : ∀ c ∈ (toBase64Url bytes).toList, isUrlChar c = true := by
  intro c mem
  rw [toBase64Url, String.toList_ofList] at mem
  obtain ⟨d, encoded, url⟩ := List.mem_filterMap.mp mem
  rcases encodeBytes_sextets bytes d encoded with rfl | ⟨n, small, rfl⟩
  · cases url
  · exact isUrlChar_sextetChar small c url

theorem length_encodeBytes : ∀ bytes : List UInt8, (encodeBytes bytes).length = (bytes.length + 2) / 3 * 4
  | [] => rfl
  | [_] => by simp [encodeBytes]
  | [_, _] => by simp [encodeBytes]
  | a :: b :: c :: rest => by
      simp only [encodeBytes, List.length_cons, length_encodeBytes rest]
      omega

theorem length_toBase64Url : (toBase64Url bytes).toList.length ≤ (bytes.length + 2) / 3 * 4 := by
  rw [toBase64Url, String.toList_ofList, ← length_encodeBytes]
  exact List.length_filterMap_le _ _

/-! ### Text -/

theorem length_utf8Bytes_of_ascii {cs : List Char} (ascii : ∀ c ∈ cs, c.toNat < 128) :
    (utf8Bytes (String.ofList cs)).length = cs.length := by
  change cs.utf8Encode.size = cs.length
  induction cs with
  | nil => rfl
  | cons c cs ih =>
    obtain ⟨first, rest⟩ := List.forall_mem_cons.mp ascii
    have one : c.utf8Size = 1 := by
      rw [Char.utf8Size_eq_one_iff]
      exact Nat.le_of_lt_succ first
    rw [List.utf8Encode_cons, ByteArray.size_append, ih rest, List.utf8Encode_singleton,
      List.size_toByteArray, String.length_utf8EncodeChar, one, List.length_cons, Nat.add_comm]

/-- `buffer.toString('utf-8')`; `repair` says what is made of bytes that are not UTF-8. -/
def utf8Text (repair : List UInt8 → String) (bytes : List UInt8) : String :=
  (String.fromUTF8? ⟨bytes.toArray⟩).getD (repair bytes)

theorem utf8Text_utf8Bytes (repair : List UInt8 → String) (s : String) :
    utf8Text repair (utf8Bytes s) = s := by
  have bytes : (⟨(utf8Bytes s).toArray⟩ : ByteArray) = s.toByteArray := by
    rw [utf8Bytes]
  have read : String.fromUTF8? s.toByteArray = some s := by
    simp only [String.fromUTF8?, Option.dite_none_right_eq_some]
    exact ⟨s.isValidUTF8, rfl⟩
  rw [utf8Text, bytes, read, Option.getD_some]

end TalentTrust.Lib
