import TalentTrust.Lib.Base64
import TalentTrust.Lib.Collation
import TalentTrust.Retention.Storage
import Mathlib.Data.Bool.AllAny

/-!
`contracts/cursor.repository.ts`: page sizes and cursors.

A cursor is the position of a row, its creation time and its id, as JSON in
`base64url`. What comes back from a client is checked for its length, its
alphabet and its fields before it is used. The position of a stored row passes
these checks: its id is a UUID and its time was printed by `toISOString`
(`decodeCursor_encodeCursor`).
-/

namespace TalentTrust.Contracts

open TalentTrust.Lib TalentTrust.Retention

/-! ### The platform -/

def isoChars : List Char := "0123456789-+:.TZ".toList

def uuidChars : List Char := "0123456789abcdef-".toList

/-- What the repositories take from their platform: the text of bytes that are not
UTF-8, times as text and back, and the comparison of texts in its locale. -/
structure Platform where
  repair : List UInt8 → String
  toISOString : Instant → String
  /-- `new Date(text)`. -/
  parseDate : String → Date
  localeCompare : String → String → Ordering
  parseDate_toISOString : ∀ now, (parseDate (toISOString now)).time.isSome
  toISOString_length : ∀ now, (toISOString now).toList.length ≤ 27
  toISOString_chars : ∀ now, ∀ c ∈ (toISOString now).toList, c ∈ isoChars
  localeCompare_self : ∀ s, localeCompare s s = .eq

/-- A platform whose clock stands still. -/
instance : Inhabited Platform where
  default :=
    { repair := fun _ => ""
      toISOString := fun _ => "2026-01-01T00:00:00.000Z"
      parseDate := fun _ => ⟨some 1767225600000⟩
      localeCompare := fun s t => if s = t then .eq else if codeUnitLe s t then .lt else .gt
      parseDate_toISOString := fun _ => rfl
      toISOString_length := fun _ => by decide
      toISOString_chars := fun _ => List.all_iff_forall_prop.mp (by decide)
      localeCompare_self := fun s => by simp }

/-- A `randomUUID()`. -/
structure Uuid where
  text : String
  length : text.toList.length = 36
  chars : ∀ c ∈ text.toList, c ∈ uuidChars
  deriving DecidableEq

/-! ### Positions -/

structure CursorPosition where
  createdAt : String
  id : String
  deriving DecidableEq

/-- The comparison of the paging queries: an earlier time, or the same time and a
smaller id. -/
def CursorPosition.below (order : Collation) (p q : CursorPosition) : Bool :=
  order.less p.createdAt q.createdAt || (p.createdAt = q.createdAt && order.less p.id q.id)

section Order

variable {order : Collation}

theorem below_eq_pairLess (p q : CursorPosition) :
    p.below order q = order.pairLess (p.createdAt, p.id) (q.createdAt, q.id) := rfl

theorem strictOrder_below (order : Collation) : StrictOrder (CursorPosition.below order) where
  irrefl p := Collation.strictOrder_pairLess.irrefl (p.createdAt, p.id)
  trans {p q r} lower upper := by
    rw [below_eq_pairLess] at lower upper ⊢
    exact Collation.strictOrder_pairLess.trans lower upper

theorem below_trichotomous {p q : CursorPosition} (different : p ≠ q) :
    p.below order q = true ∨ q.below order p = true := by
  rw [below_eq_pairLess]
  apply Collation.pairLess_trichotomous
  intro same
  cases p
  cases q
  cases same
  exact different rfl

end Order

/-- The position of a row that a repository has created. -/
structure CursorPosition.Stamped (platform : Platform) (p : CursorPosition) : Prop where
  uuid : ∃ id : Uuid, p.id = id.text
  time : ∃ now, p.createdAt = platform.toISOString now

/-! ### Page sizes -/

def cursorMaxLimit : Nat := 100

def cursorDefaultLimit : Nat := 20

def cursorMaxLength : Nat := 256

/-- `parseLimit`; `raw` is `String(raw)`, and `none` for `undefined` and `null`. -/
def parseLimit (raw : Option String) : Except String Nat :=
  match raw.filter (· ≠ "") with
  | none => .ok cursorDefaultLimit
  | some text =>
    match (parseInt text).filter fun n => 1 ≤ n with
    | none => .error "Invalid limit: must be a positive integer"
    | some n =>
      if cursorMaxLimit < n then
        .error ("Invalid limit: " ++ toString n ++ " exceeds maximum allowed page size of 100")
      else .ok n.toNat

structure PageLimit where
  size : Nat
  positive : 1 ≤ size
  bounded : size ≤ cursorMaxLimit
  deriving DecidableEq

/-- The size as the number that is passed to `findPage`. -/
def PageLimit.number (limit : PageLimit) : Decimal := Decimal.ofNat limit.size

theorem parseLimit_number (limit : PageLimit) :
    parseLimit (some (String.ofList limit.number.chars)) = .ok limit.size := by
  have each : ∀ n ∈ List.range' 1 100,
      parseLimit (some (String.ofList (Decimal.ofNat n).chars)) = .ok n := by
    decide +kernel
  apply each
  have := limit.positive
  have := limit.bounded
  rw [List.mem_range'_1]
  unfold cursorMaxLimit at this
  omega

/-! ### Cursors -/

def CursorPosition.toJson (p : CursorPosition) : Json :=
  .obj [("createdAt", .str p.createdAt), ("id", .str p.id)]

def encodeCursor (position : CursorPosition) : String :=
  toBase64Url (utf8Bytes position.toJson.stringify)

def stringField (name : String) (v : Json) : Option String :=
  match v.get? name with
  | some (.str s) => some s
  | _ => none

def decodeCursor (platform : Platform) (cursor : String) : Except String CursorPosition :=
  if cursorMaxLength < jsLength cursor then .error "Invalid pagination cursor: malformed"
  else if cursor = "" ∨ cursor.toList.all isUrlChar = false then
    .error "Invalid pagination cursor: malformed"
  else
    match Json.parse (utf8Text platform.repair (fromBase64 cursor)) with
    | none => .error "Invalid pagination cursor: cannot decode"
    | some parsed =>
      match stringField "createdAt" parsed, stringField "id" parsed with
      | some createdAt, some id =>
        if (platform.parseDate createdAt).time = none then
          .error "Invalid pagination cursor: createdAt is not a valid date"
        else .ok ⟨createdAt, id⟩
      | _, _ => .error "Invalid pagination cursor: missing required fields"

/-! ### Cursors of stored rows -/

/-- A character that JSON prints as itself, in one byte. -/
def isPlain (c : Char) : Bool := c.toNat < 128 && Json.escape c = [c]

theorem isPlain_iso : ∀ c ∈ isoChars, isPlain c = true :=
  List.all_eq_true.mp (by decide)

theorem isPlain_uuid : ∀ c ∈ uuidChars, isPlain c = true :=
  List.all_eq_true.mp (by decide)

theorem flatMap_escape {cs : List Char} (plain : ∀ c ∈ cs, isPlain c = true) :
    cs.flatMap Json.escape = cs := by
  induction cs with
  | nil => rfl
  | cons c cs ih =>
    obtain ⟨first, rest⟩ := List.forall_mem_cons.mp plain
    rw [isPlain, Bool.and_eq_true, decide_eq_true_eq, decide_eq_true_eq] at first
    rw [List.flatMap_cons, first.2, ih rest, List.singleton_append]

section Stamped

variable {platform : Platform} {p : CursorPosition} (stamped : p.Stamped platform)

include stamped

theorem CursorPosition.Stamped.plain :
    (∀ c ∈ p.createdAt.toList, isPlain c = true) ∧ ∀ c ∈ p.id.toList, isPlain c = true := by
  obtain ⟨⟨id, same⟩, now, printed⟩ := stamped
  rw [same, printed]
  exact ⟨fun c mem => isPlain_iso c (platform.toISOString_chars now c mem),
    fun c mem => isPlain_uuid c (id.chars c mem)⟩

theorem stringify_stamped : p.toJson.stringify =
    String.ofList ("\x7b\"createdAt\":\"".toList ++ p.createdAt.toList ++
      ("\",\"id\":\"".toList ++ p.id.toList ++ "\"\x7d".toList)) := by
  obtain ⟨time, id⟩ := stamped.plain
  have names : "createdAt".toList.flatMap Json.escape = "createdAt".toList ∧
      "id".toList.flatMap Json.escape = "id".toList := by decide
  simp only [CursorPosition.toJson, Json.stringify, Json.print, Json.printFields, Json.quote,
    flatMap_escape time, flatMap_escape id, names]
  simp

theorem length_stringify : (utf8Bytes p.toJson.stringify).length ≤ 87 := by
  obtain ⟨time, id⟩ := stamped.plain
  have ascii : ∀ {cs : List Char}, (∀ c ∈ cs, isPlain c = true) → ∀ c ∈ cs, c.toNat < 128 := by
    intro cs plain c mem
    have := plain c mem
    rw [isPlain, Bool.and_eq_true, decide_eq_true_eq] at this
    exact this.1
  have front : ∀ c ∈ "\x7b\"createdAt\":\"".toList, c.toNat < 128 :=
    List.all_iff_forall_prop.mp (by decide)
  have middle : ∀ c ∈ "\",\"id\":\"".toList, c.toNat < 128 :=
    List.all_iff_forall_prop.mp (by decide)
  have back : ∀ c ∈ "\"\x7d".toList, c.toNat < 128 :=
    List.all_iff_forall_prop.mp (by decide)
  rw [stringify_stamped stamped, length_utf8Bytes_of_ascii]
  · obtain ⟨⟨uuid, sameId⟩, now, sameTime⟩ := stamped
    have idLength := uuid.length
    have timeLength := platform.toISOString_length now
    rw [← sameId] at idLength
    rw [← sameTime] at timeLength
    have texts : "\x7b\"createdAt\":\"".toList.length = 14 ∧ "\",\"id\":\"".toList.length = 8 ∧
        "\"\x7d".toList.length = 2 := by decide
    simp only [List.length_append]
    omega
  · intro c mem
    simp only [List.mem_append] at mem
    rcases mem with (first | time') | ((between | id') | last)
    · exact front c first
    · exact ascii time c time'
    · exact middle c between
    · exact ascii id c id'
    · exact back c last

theorem jsLength_encodeCursor : jsLength (encodeCursor p) ≤ cursorMaxLength := by
  have basic : ∀ c ∈ (encodeCursor p).toList, c.toNat < 0x10000 := by
    intro c mem
    have := toNat_lt_of_isUrlChar (isUrlChar_toBase64Url _ c mem)
    omega
  have bytes := length_stringify stamped
  have chars := length_toBase64Url (utf8Bytes p.toJson.stringify)
  rw [jsLength_of_basic basic, encodeCursor, cursorMaxLength]
  omega

omit stamped

theorem normalize_toJson (p : CursorPosition) : p.toJson.normalize = p.toJson := by
  have distinct : ([("createdAt", Json.str p.createdAt), ("id", .str p.id)].map Prod.fst).Nodup := by
    simp
  simp only [CursorPosition.toJson, Json.normalize, Json.normalizeFields]
  rw [Json.lastWins_of_nodup distinct]

theorem encodeCursor_ne_empty (p : CursorPosition) : encodeCursor p ≠ "" := by
  intro empty
  have bytes := fromBase64_toBase64Url (utf8Bytes p.toJson.stringify)
  rw [← encodeCursor, empty] at bytes
  have none' : fromBase64 "" = utf8Bytes "" := by decide
  have text := utf8Bytes_injective (none'.symm.trans bytes)
  have parsed := Json.parse_stringify p.toJson
  rw [← text] at parsed
  cases parsed

theorem decodeCursor_encodeCursor (stamped : p.Stamped platform) :
    decodeCursor platform (encodeCursor p) = .ok p := by
  have short : ¬ cursorMaxLength < jsLength (encodeCursor p) :=
    Nat.not_lt.mpr (jsLength_encodeCursor stamped)
  have formed : ¬ (encodeCursor p = "" ∨ (encodeCursor p).toList.all isUrlChar = false) := by
    rintro (empty | other)
    · exact encodeCursor_ne_empty p empty
    · have all := List.all_eq_true.mpr (isUrlChar_toBase64Url (utf8Bytes p.toJson.stringify))
      rw [← encodeCursor, other] at all
      cases all
  have parsed : Json.parse (utf8Text platform.repair (fromBase64 (encodeCursor p))) = some p.toJson := by
    rw [encodeCursor, fromBase64_toBase64Url, utf8Text_utf8Bytes, Json.parse_stringify, normalize_toJson]
  have valid : (platform.parseDate p.createdAt).time ≠ none := by
    obtain ⟨now, printed⟩ := stamped.time
    rw [printed]
    exact Option.isSome_iff_ne_none.mp (platform.parseDate_toISOString now)
  have fields : stringField "createdAt" p.toJson = some p.createdAt ∧
      stringField "id" p.toJson = some p.id := ⟨rfl, rfl⟩
  simp only [decodeCursor, if_neg short, if_neg formed, parsed, fields, if_neg valid]

end Stamped

end TalentTrust.Contracts
