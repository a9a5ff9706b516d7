import TalentTrust.Events.Ingestion

/-!
`DeduplicationManager` (`utils/deduplication.ts`): the check of the integrity of a payload.

The hashes are compared as the bytes that they decode to, and decoding stops at the first pair
that is not hex, so text after a digest is not seen (`validatePayloadIntegrity_exact_iff`).
-/

namespace TalentTrust.Events

open TalentTrust.Lib Ingestion

def validatePayloadIntegrity (svc : Ingestion.Service) (s : Ingestion.Submission) (expectedHash : String) : Bool :=
  comparePayloadHashes (computePayloadHash svc s) expectedHash

/-- The verdict is exact on a hash iff the hash is not the digest of the payload followed by
more text that does not begin with two hex digits. -/
theorem validatePayloadIntegrity_exact_iff (svc : Ingestion.Service) (s : Ingestion.Submission) (expectedHash : String) :
    (validatePayloadIntegrity svc s expectedHash = true ↔
      EqUpToCase expectedHash.toList (computePayloadHash svc s).toList) ↔
    ¬ ∃ digits rest, expectedHash.toList = digits ++ rest ∧ rest ≠ [] ∧
      EqUpToCase digits (computePayloadHash svc s).toList ∧ readHex rest = [] := by
  have verdict : validatePayloadIntegrity svc s expectedHash = true ↔ ∃ digits rest,
      expectedHash.toList = digits ++ rest ∧
        EqUpToCase digits (computePayloadHash svc s).toList ∧ readHex rest = [] := by
    simp only [validatePayloadIntegrity, comparePayloadHashes, decide_eq_true_eq,
      computePayloadHash, sha256Hex, fromHex_toHex]
    exact eq_comm.trans readHex_eq_iff
  rw [verdict]
  constructor
  · rintro exact ⟨digits, rest, split, more, same, none⟩
    have whole := (exact.mp ⟨digits, rest, split, same, none⟩).length_eq
    rw [split, List.length_append, ← same.length_eq] at whole
    exact more (List.eq_nil_of_length_eq_zero (by omega))
  · intro clean
    constructor
    · rintro ⟨digits, rest, split, same, none⟩
      by_cases more : rest = []
      · rwa [split, more, List.append_nil]
      · exact absurd ⟨digits, rest, split, more, same, none⟩ clean
    · exact fun same => ⟨_, [], (List.append_nil _).symm, same, rfl⟩

/-- The digest with a letter after it passes. -/
theorem integrity_of_longer_hash :
    let expectedHash := computePayloadHash pairService (amountEvent 1) ++ "z"
    validatePayloadIntegrity pairService (amountEvent 1) expectedHash = true ∧
      ¬ EqUpToCase expectedHash.toList (computePayloadHash pairService (amountEvent 1)).toList := by
  refine ⟨by decide +kernel, fun same => ?_⟩
  have lengths := same.length_eq
  revert lengths
  decide +kernel

end TalentTrust.Events
