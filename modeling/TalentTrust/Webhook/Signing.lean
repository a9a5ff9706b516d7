import TalentTrust.Lib.JsonParse
import TalentTrust.Lib.Sha256

/-!
`utils/webhook-signing.util.ts`: signatures of webhook bodies and their check.

A signature is the HMAC of a time and of the body as `JSON.stringify` prints it.
Of a header that carries the signature of one value, the check of another value
comes down to the digests of the two texts (`verify_signed_iff`).
-/

namespace TalentTrust.Webhook

open TalentTrust.Lib

/-! ### Signing -/

structure WebhookSignature where
  signature : String
  timestamp : Int
  deriving DecidableEq

def webhookSignatureMaxAgeMs : Int := 5 * 60 * 1000

def canonicalString (payload : Json) (timestamp : Int) : String :=
  toString timestamp ++ "." ++ Json.stringify payload

variable (payload : Json) (secret : String)

/-- The digest of a signature, as bytes. -/
def signatureBytes (timestamp : Int) : List UInt8 :=
  Sha256.hmac (utf8Bytes secret) (utf8Bytes (canonicalString payload timestamp))

def generateSignature (timestamp : Int) : String :=
  toHex (signatureBytes payload secret timestamp)

def createWebhookSignature (now : Int) : WebhookSignature :=
  ⟨generateSignature payload secret now, now⟩

/-! ### Checking -/

inductive WebhookVerificationCode where
  | valid
  | unauthorized
  | badRequest
  | invalidWebhookSignature
  deriving DecidableEq, Repr

structure WebhookVerificationResult where
  valid : Bool
  code : WebhookVerificationCode
  message : String
  deriving DecidableEq

def failure (code : WebhookVerificationCode) (message : String) : WebhookVerificationResult :=
  ⟨false, code, message⟩

/-- `/^sha256=/i`. -/
def hasScheme (cs : List Char) : Bool := (cs.take 7).map Char.toLower = "sha256=".toList

def normalizeSignatureHeader (signature : String) : Option String :=
  let trimmed := trimChars signature.toList
  let hexBody := if hasScheme trimmed then trimmed.drop 7 else trimmed
  if hexBody = [] ∨ 256 < jsLength (String.ofList hexBody) then none
  else if hexBody.all fun c => (hexDigit? c).isSome then some (String.ofList (hexBody.map Char.toLower))
  else none

def constantTimeCompareHex (a b : String) : Bool :=
  let left := fromHex a
  let right := fromHex b
  if left.length ≠ right.length ∨ left.length = 0 then false else left = right

/-- `none` stands for an argument of another type. -/
def verifyWebhookSignature (signature : Option String) (timestamp : Option Int)
    (secret : Option String) (now maxAgeMs : Int) : WebhookVerificationResult :=
  match secret.filter (· ≠ "") with
  -- `sanitizeErrorMessage` does not let a message about a secret through.
  | none => failure .badRequest "The request could not be processed"
  | some secret =>
    match timestamp.filter (0 < ·) with
    | none => failure .badRequest "Webhook timestamp is invalid"
    | some timestamp =>
      if maxAgeMs < now - timestamp then failure .unauthorized "Webhook timestamp is too old"
      else
        match (signature.bind normalizeSignatureHeader).filter fun s => jsLength s = 64 with
        | none => failure .badRequest "Webhook signature format is invalid"
        | some normalized =>
          if constantTimeCompareHex normalized (generateSignature payload secret timestamp) then
            ⟨true, .valid, "Webhook signature is valid"⟩
          else failure .invalidWebhookSignature "Webhook signature does not match"

/-! ### Headers that carry a digest -/

section Hex

variable {bytes : List UInt8}

theorem hexChar_lower {n : Nat} (small : n < 16) :
    isSpace (hexChar n) = false ∧ (hexDigit? (hexChar n)).isSome = true ∧
      (hexChar n).toLower = hexChar n ∧ (hexChar n).toNat < 0x10000 := by
  interval_cases n <;> decide

theorem mem_toHex {c : Char} (mem : c ∈ (toHex bytes).toList) : ∃ n < 16, c = hexChar n := by
  rw [toHex, String.toList_ofList] at mem
  obtain ⟨b, -, digit⟩ := List.mem_flatMap.mp mem
  have small := b.toNat_lt
  rcases List.mem_pair.mp digit with rfl | rfl
  · exact ⟨b.toNat / 16, by omega, rfl⟩
  · exact ⟨b.toNat % 16, by omega, rfl⟩

theorem length_toHex (bytes : List UInt8) : (toHex bytes).toList.length = 2 * bytes.length := by
  rw [toHex, String.toList_ofList]
  induction bytes with
  | nil => rfl
  | cons b bs ih =>
    rw [List.flatMap_cons, List.length_append]
    simp only [List.length_cons, List.length_nil]
    omega

theorem jsLength_toHex : jsLength (toHex bytes) = 2 * bytes.length := by
  rw [jsLength_of_basic, length_toHex]
  intro c mem
  obtain ⟨n, small, rfl⟩ := mem_toHex mem
  exact (hexChar_lower small).2.2.2

theorem trimChars_of_solid {cs : List Char} (solid : ∀ c ∈ cs, isSpace c = false) : trimChars cs = cs := by
  have kept : ∀ {ds : List Char}, (∀ c ∈ ds, isSpace c = false) → ds.dropWhile isSpace = ds := by
    intro ds solid
    cases ds with
    | nil => rfl
    | cons d ds =>
      exact List.dropWhile_cons_of_neg (by rw [solid d List.mem_cons_self]; exact Bool.false_ne_true)
  rw [trimChars, kept solid, kept, List.reverse_reverse]
  intro c mem
  exact solid c (List.mem_reverse.mp mem)

theorem normalizeSignatureHeader_toHex (size : bytes.length = 32) :
    normalizeSignatureHeader ("sha256=" ++ toHex bytes) = some (toHex bytes) := by
  have scheme : "sha256=".toList.all (fun c => !isSpace c) = true := by decide
  have solid : ∀ c ∈ "sha256=".toList ++ (toHex bytes).toList, isSpace c = false := by
    intro c mem
    rcases List.mem_append.mp mem with front | digit
    · simpa using List.all_eq_true.mp scheme c front
    · obtain ⟨n, small, rfl⟩ := mem_toHex digit
      exact (hexChar_lower small).1
  have digits : (toHex bytes).toList.all (fun c => (hexDigit? c).isSome) = true := by
    rw [List.all_eq_true]
    intro c mem
    obtain ⟨n, small, rfl⟩ := mem_toHex mem
    exact (hexChar_lower small).2.1
  have lower : (toHex bytes).toList.map Char.toLower = (toHex bytes).toList := by
    rw [← List.map_id (toHex bytes).toList, List.map_map]
    apply List.map_congr_left
    intro c mem
    obtain ⟨n, small, rfl⟩ := mem_toHex mem
    exact (hexChar_lower small).2.2.1
  have longEnough : ¬ ((toHex bytes).toList = [] ∨ 256 < jsLength (toHex bytes)) := by
    rw [jsLength_toHex, size, not_or]
    refine ⟨fun empty => ?_, by decide⟩
    have length := length_toHex bytes
    rw [empty, size] at length
    cases length
  have text : trimChars ("sha256=" ++ toHex bytes).toList = "sha256=".toList ++ (toHex bytes).toList := by
    rw [String.toList_append, trimChars_of_solid solid]
  have marked : hasScheme ("sha256=".toList ++ (toHex bytes).toList) = true := by
    simp [hasScheme]
  simp only [normalizeSignatureHeader, text, marked, if_true]
  rw [show ("sha256=".toList ++ (toHex bytes).toList).drop 7 = (toHex bytes).toList from rfl,
    String.ofList_toList, if_neg longEnough, digits, if_pos rfl, lower, String.ofList_toList]

theorem constantTimeCompareHex_toHex {a b : List UInt8} (first : a.length = 32) (second : b.length = 32) :
    constantTimeCompareHex (toHex a) (toHex b) = true ↔ a = b := by
  simp [constantTimeCompareHex, fromHex_toHex, first, second]

end Hex

theorem verify_signed (signed received : Json) {secret : String} {timestamp now maxAgeMs : Int}
    (named : secret ≠ "") (positive : 0 < timestamp) (young : now - timestamp ≤ maxAgeMs) :
    verifyWebhookSignature received (some ("sha256=" ++ generateSignature signed secret timestamp))
        (some timestamp) (some secret) now maxAgeMs =
      if signatureBytes signed secret timestamp = signatureBytes received secret timestamp then
        ⟨true, .valid, "Webhook signature is valid"⟩
      else failure .invalidWebhookSignature "Webhook signature does not match" := by
  have size : ∀ payload, (signatureBytes payload secret timestamp).length = 32 := fun _ => rfl
  have header := normalizeSignatureHeader_toHex (size signed)
  have long : jsLength (toHex (signatureBytes signed secret timestamp)) = 64 := by
    rw [jsLength_toHex, size]
  have compare := constantTimeCompareHex_toHex (size signed) (size received)
  simp [verifyWebhookSignature, generateSignature, header, Option.filter_some, named, positive, not_lt.mpr young, long, compare]

/-- What the receiver needs: a secret, a time that is positive and not too old, and the digest
of the value that was signed. -/
theorem verify_signed_iff (signed received : Json) (secret : String) (timestamp now maxAgeMs : Int) :
    (verifyWebhookSignature received (some ("sha256=" ++ generateSignature signed secret timestamp))
        (some timestamp) (some secret) now maxAgeMs).valid = true ↔
      secret ≠ "" ∧ 0 < timestamp ∧ now - timestamp ≤ maxAgeMs ∧
        signatureBytes signed secret timestamp = signatureBytes received secret timestamp := by
  by_cases named : secret = ""
  · simp [verifyWebhookSignature, named, failure, Option.filter_some]
  by_cases positive : 0 < timestamp
  · by_cases young : now - timestamp ≤ maxAgeMs
    · rw [verify_signed signed received named positive young]
      split
      · rename_i same
        simp [named, positive, young, same]
      · rename_i differ
        simp [differ, failure]
    · simp only [young, false_and, and_false, iff_false]
      simp [verifyWebhookSignature, named, positive, not_le.mp young, failure, Option.filter_some]
  · simp [verifyWebhookSignature, named, positive, failure, Option.filter_some]

end TalentTrust.Webhook
