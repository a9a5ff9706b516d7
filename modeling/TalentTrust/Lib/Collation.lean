import TalentTrust.Lib.JsonParse
import TalentTrust.Lib.Keyset

/-!
Orders of texts by their units.

A collation compares texts by the numbers they are stored as: `<` of JavaScript
by UTF-16 code units, the `BINARY` collation of SQLite by UTF-8 bytes. Since a
text is determined by its units, every collation is a linear order. Both print ASCII
as it is and all else above it, so an ASCII text has the same place among all texts in
either order (`lexLe_ascii_left`, `lexLe_ascii_right`).
-/

namespace TalentTrust.Lib

theorem lexLe_eq_false_iff {a b : List Nat} : lexLe a b = false ↔ b < a := by
  induction a generalizing b with
  | nil => simp [lexLe]
  | cons x xs ih =>
    cases b with
    | nil => simp [lexLe]
    | cons y ys =>
      simp only [lexLe, Bool.or_eq_false_iff, decide_eq_false_iff_not, Bool.and_eq_false_imp,
        beq_iff_eq, ih, List.cons_lt_cons_iff]
      constructor
      · rintro ⟨notLess, tail⟩
        rcases Nat.eq_or_lt_of_le (Nat.not_lt.mp notLess) with rfl | less
        · exact .inr ⟨rfl, tail rfl⟩
        · exact .inl less
      · rintro (less | ⟨rfl, tail⟩)
        · exact ⟨Nat.not_lt.mpr less.le, fun same => absurd same (Nat.ne_of_gt less)⟩
        · exact ⟨Nat.lt_irrefl y, fun _ => tail⟩

structure Collation where
  units : String → List Nat
  injective : Function.Injective units

/-- `s < t` in JavaScript. -/
def codeUnitOrder : Collation where
  units s := s.toList.flatMap codeUnits
  injective s t same := by
    apply String.toList_injective
    rw [← Json.decodeUnits_flatMap s.toList, ← Json.decodeUnits_flatMap t.toList]
    exact congrArg Json.decodeUnits same

/-- `s < t` in SQLite. -/
def byteOrder : Collation where
  units s := (utf8Bytes s).map (·.toNat)
  injective s t same := by
    apply utf8Bytes_injective
    exact List.map_injective_iff.mpr (fun _ _ => UInt8.toNat_inj.mp) same

namespace Collation

variable {order : Collation}

def less (order : Collation) (s t : String) : Bool := !lexLe (order.units t) (order.units s)

theorem less_iff {s t : String} : order.less s t = true ↔ order.units s < order.units t := by
  rw [less, Bool.not_eq_true', lexLe_eq_false_iff]

theorem less_self (s : String) : order.less s s = false := by
  rw [← Bool.not_eq_true, less_iff]
  exact lt_irrefl _

/-- Pairs of texts, compared by their first parts and then by their second. -/
def pairLess (order : Collation) (p q : String × String) : Bool :=
  order.less p.1 q.1 || (p.1 = q.1 && order.less p.2 q.2)

theorem pairLess_iff {p q : String × String} : order.pairLess p q = true ↔
    toLex (order.units p.1, order.units p.2) < toLex (order.units q.1, order.units q.2) := by
  rw [pairLess, Bool.or_eq_true, Bool.and_eq_true, decide_eq_true_eq, less_iff, less_iff,
    Prod.Lex.toLex_lt_toLex, order.injective.eq_iff]

theorem strictOrder_pairLess : StrictOrder order.pairLess where
  irrefl p := by
    rw [← Bool.not_eq_true, pairLess_iff]
    exact lt_irrefl _
  trans lower upper := pairLess_iff.mpr ((pairLess_iff.mp lower).trans (pairLess_iff.mp upper))

theorem pairLess_trichotomous {p q : String × String} (different : p ≠ q) :
    order.pairLess p q = true ∨ order.pairLess q p = true := by
  rw [pairLess_iff, pairLess_iff]
  apply lt_or_gt_of_ne
  intro same
  have parts := Prod.mk.inj (toLex.injective same)
  exact different (Prod.ext (order.injective parts.1) (order.injective parts.2))

end Collation

/-! ### Where ASCII texts stand -/

def IsAscii (cs : List Char) : Prop := ∀ c ∈ cs, c.toNat < 128

/-- An encoding that prints ASCII as it is and all else above it. -/
structure AboveAscii (encode : Char → List Nat) : Prop where
  ascii : ∀ c : Char, c.toNat < 128 → encode c = [c.toNat]
  above : ∀ c : Char, 128 ≤ c.toNat → ∃ u us, encode c = u :: us ∧ 128 ≤ u

theorem aboveAscii_codeUnits : AboveAscii codeUnits where
  ascii c small := by rw [codeUnits, if_pos (by omega)]
  above c large := by
    rw [codeUnits]
    split
    · exact ⟨_, _, rfl, large⟩
    · exact ⟨_, _, rfl, by omega⟩

/-- The bytes of a character as numbers. -/
def byteUnits (c : Char) : List Nat := (String.utf8EncodeChar c).map (·.toNat)

theorem map_utf8Bytes (s : String) : (utf8Bytes s).map (·.toNat) = s.toList.flatMap byteUnits := by
  have bytes := utf8Bytes_ofList s.toList
  rw [String.ofList_toList] at bytes
  rw [bytes, List.map_flatMap]
  rfl

theorem le_toNat_ofNat {m n : Nat} (le : m ≤ n) (byte : n < 256) : m ≤ (UInt8.ofNat n).toNat := by
  rw [UInt8.toNat_ofNat', Nat.mod_eq_of_lt byte]
  exact le

theorem aboveAscii_byteUnits : AboveAscii byteUnits where
  ascii c small := by
    have size : c.val.toNat ≤ 127 := Nat.le_of_lt_succ small
    simp only [byteUnits, String.utf8EncodeChar]
    rw [if_pos size, List.map_singleton, UInt8.toNat_ofNat', Nat.mod_eq_of_lt (by omega)]
    rfl
  above c large := by
    have size : ¬c.val.toNat ≤ 127 := Nat.not_le.mpr large
    simp only [byteUnits, String.utf8EncodeChar]
    rw [if_neg size]
    split
    · exact ⟨_, _, rfl, le_toNat_ofNat (by omega) (by omega)⟩
    · split
      · exact ⟨_, _, rfl, le_toNat_ofNat (by omega) (by omega)⟩
      · exact ⟨_, _, rfl, le_toNat_ofNat (by omega) (by omega)⟩

section Ascii

variable {encode encode' : Char → List Nat}
  (above : AboveAscii encode) (above' : AboveAscii encode')

include above above'

theorem lexLe_ascii_left {cs : List Char} (ascii : IsAscii cs) (ds : List Char) :
    lexLe (cs.flatMap encode) (ds.flatMap encode) = lexLe (cs.flatMap encode') (ds.flatMap encode') := by
  induction cs generalizing ds with
  | nil => simp [lexLe]
  | cons c cs ih =>
    obtain ⟨small, rest⟩ := List.forall_mem_cons.mp ascii
    cases ds with
    | nil => simp [lexLe, above.ascii c small, above'.ascii c small]
    | cons d ds =>
      rcases Nat.lt_or_ge d.toNat 128 with plain | large
      · simp [lexLe, above.ascii c small, above'.ascii c small, above.ascii d plain,
          above'.ascii d plain, ih rest ds]
      · obtain ⟨u, us, eq, big⟩ := above.above d large
        obtain ⟨u', us', eq', big'⟩ := above'.above d large
        have less : c.toNat < u := by omega
        have less' : c.toNat < u' := by omega
        simp [lexLe, above.ascii c small, above'.ascii c small, eq, eq', less, less']

theorem lexLe_ascii_right {cs : List Char} (ascii : IsAscii cs) (ds : List Char) :
    lexLe (ds.flatMap encode) (cs.flatMap encode) = lexLe (ds.flatMap encode') (cs.flatMap encode') := by
  induction cs generalizing ds with
  | nil =>
    cases ds with
    | nil => rfl
    | cons d ds =>
      rcases Nat.lt_or_ge d.toNat 128 with plain | large
      · simp [lexLe, above.ascii d plain, above'.ascii d plain]
      · obtain ⟨u, us, eq, -⟩ := above.above d large
        obtain ⟨u', us', eq', -⟩ := above'.above d large
        simp [lexLe, eq, eq']
  | cons c cs ih =>
    obtain ⟨small, rest⟩ := List.forall_mem_cons.mp ascii
    cases ds with
    | nil => simp [lexLe]
    | cons d ds =>
      rcases Nat.lt_or_ge d.toNat 128 with plain | large
      · simp [lexLe, above.ascii c small, above'.ascii c small, above.ascii d plain,
          above'.ascii d plain, ih rest ds]
      · obtain ⟨u, us, eq, big⟩ := above.above d large
        obtain ⟨u', us', eq', big'⟩ := above'.above d large
        have greater : lexLe ((d :: ds).flatMap encode) ((c :: cs).flatMap encode) = false := by
          simp [lexLe, above.ascii c small, eq]
          omega
        have greater' : lexLe ((d :: ds).flatMap encode') ((c :: cs).flatMap encode') = false := by
          simp [lexLe, above'.ascii c small, eq']
          omega
        rw [greater, greater']

end Ascii

end TalentTrust.Lib
