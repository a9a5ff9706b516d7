import TalentTrust.Lib.Json

/-!
Audit entries: `audit/types.ts`, and `computeEntryHash` of `audit/store.ts`.

An entry carries the hash of its predecessor and its own. The hash covers
every field but itself: `payload_injective` says that the hashed text
determines them all. No hash is the text `GENESIS` in which a chain begins,
since a digest is printed in hex.
-/

namespace TalentTrust.Audit

open TalentTrust.Lib

/-! ### Actions and severities -/

inductive AuditAction where
  | contractCreated
  | contractUpdated
  | contractCancelled
  | contractCompleted
  | contractDeleted
  | paymentInitiated
  | paymentReleased
  | paymentDisputed
  | reputationUpdated
  | userCreated
  | userUpdated
  | userDeleted
  | authLogin
  | authLogout
  | authFailed
  | authLockoutTriggered
  | authLockoutReleased
  | adminAction
  | endpointAccess
  | endpointMutation
  | deploymentPromoted
  | deploymentRolledBack
  | milestonesCreated
  | milestonesUpdated
  | milestonesDeleted
  deriving DecidableEq, Repr

def AuditAction.text : AuditAction → String
  | .contractCreated => "CONTRACT_CREATED"
  | .contractUpdated => "CONTRACT_UPDATED"
  | .contractCancelled => "CONTRACT_CANCELLED"
  | .contractCompleted => "CONTRACT_COMPLETED"
  | .contractDeleted => "CONTRACT_DELETED"
  | .paymentInitiated => "PAYMENT_INITIATED"
  | .paymentReleased => "PAYMENT_RELEASED"
  | .paymentDisputed => "PAYMENT_DISPUTED"
  | .reputationUpdated => "REPUTATION_UPDATED"
  | .userCreated => "USER_CREATED"
  | .userUpdated => "USER_UPDATED"
  | .userDeleted => "USER_DELETED"
  | .authLogin => "AUTH_LOGIN"
  | .authLogout => "AUTH_LOGOUT"
  | .authFailed => "AUTH_FAILED"
  | .authLockoutTriggered => "AUTH_LOCKOUT_TRIGGERED"
  | .authLockoutReleased => "AUTH_LOCKOUT_RELEASED"
  | .adminAction => "ADMIN_ACTION"
  | .endpointAccess => "ENDPOINT_ACCESS"
  | .endpointMutation => "ENDPOINT_MUTATION"
  | .deploymentPromoted => "DEPLOYMENT_PROMOTED"
  | .deploymentRolledBack => "DEPLOYMENT_ROLLED_BACK"
  | .milestonesCreated => "MILESTONES_CREATED"
  | .milestonesUpdated => "MILESTONES_UPDATED"
  | .milestonesDeleted => "MILESTONES_DELETED"

inductive AuditSeverity where
  | info
  | warning
  | critical
  deriving DecidableEq, Repr

def AuditSeverity.text : AuditSeverity → String
  | .info => "INFO"
  | .warning => "WARNING"
  | .critical => "CRITICAL"

def AuditAction.all : List AuditAction :=
  [.contractCreated, .contractUpdated, .contractCancelled, .contractCompleted, .contractDeleted,
    .paymentInitiated, .paymentReleased, .paymentDisputed, .reputationUpdated, .userCreated,
    .userUpdated, .userDeleted, .authLogin, .authLogout, .authFailed, .authLockoutTriggered,
    .authLockoutReleased, .adminAction, .endpointAccess, .endpointMutation, .deploymentPromoted,
    .deploymentRolledBack, .milestonesCreated, .milestonesUpdated, .milestonesDeleted]

theorem AuditAction.text_injective {a b : AuditAction} (same : a.text = b.text) : a = b := by
  have distinct : (all.map text).Nodup := by decide +kernel
  have listed : ∀ a : AuditAction, a ∈ all := by
    intro a
    cases a <;> decide
  exact List.inj_on_of_nodup_map distinct (listed a) (listed b) same

theorem AuditSeverity.text_injective {a b : AuditSeverity} (same : a.text = b.text) : a = b := by
  cases a <;> cases b <;> first | rfl | (exfalso; revert same; decide)

/-! ### Entries -/

/-- What `append` is given. -/
structure CreateAuditEntryInput where
  action : AuditAction
  severity : AuditSeverity
  actor : String
  resource : String
  resourceId : String
  metadata : List (String × Json)
  ipAddress : Option String
  correlationId : Option String
  deriving DecidableEq

/-- An entry without its hash: `Omit<AuditEntry, 'hash'>`. -/
structure UnhashedEntry extends CreateAuditEntryInput where
  id : String
  timestamp : String
  previousHash : String
  deriving DecidableEq

structure AuditEntry extends UnhashedEntry where
  hash : String
  deriving DecidableEq

/-- `value ?? null`. -/
def orNull (value : Option String) : Json := (value.map Json.str).getD .null

/-- The object whose text is hashed. -/
def UnhashedEntry.payload (entry : UnhashedEntry) : Json :=
  .obj [("id", .str entry.id), ("timestamp", .str entry.timestamp),
    ("action", .str entry.action.text), ("severity", .str entry.severity.text),
    ("actor", .str entry.actor), ("resource", .str entry.resource),
    ("resourceId", .str entry.resourceId), ("metadata", .obj entry.metadata),
    ("ipAddress", orNull entry.ipAddress), ("correlationId", orNull entry.correlationId),
    ("previousHash", .str entry.previousHash)]

/-- Sentinel hash used as the previous hash of the very first entry. -/
def genesisHash : String := "GENESIS"

def computeEntryHash (sha256 : String → List UInt8) (entry : UnhashedEntry) : String :=
  sha256Hex sha256 entry.payload.stringify

/-! ### What the hash determines -/

theorem orNull_injective {a b : Option String} (same : orNull a = orNull b) : a = b := by
  cases a with
  | none =>
    cases b with
    | none => rfl
    | some b => cases same
  | some a =>
    cases b with
    | none => cases same
    | some b =>
      cases same
      rfl

theorem UnhashedEntry.payload_injective {a b : UnhashedEntry} (same : a.payload = b.payload) :
    a = b := by
  obtain ⟨⟨action, severity, actor, resource, resourceId, metadata, ip, correlation⟩, id, stamp, prev⟩ := a
  simp only [payload, Json.obj.injEq, List.cons.injEq, Prod.mk.injEq, Json.str.injEq, true_and,
    and_true] at same
  obtain ⟨rfl, rfl, sameAction, sameSeverity, rfl, rfl, rfl, rfl, sameIp, sameCorrelation, rfl⟩ := same
  cases AuditAction.text_injective sameAction
  cases AuditSeverity.text_injective sameSeverity
  cases orNull_injective sameIp
  cases orNull_injective sameCorrelation
  rfl

theorem computeEntryHash_injective {sha256 : String → List UInt8}
    (inj : Function.Injective sha256) {a b : UnhashedEntry}
    (same : computeEntryHash sha256 a = computeEntryHash sha256 b) : a = b := by
  apply UnhashedEntry.payload_injective
  apply Json.stringify_injective
  exact sha256Hex_injective inj same

theorem toHex_ne_genesisHash (bytes : List UInt8) : toHex bytes ≠ genesisHash := by
  intro same
  have text := congrArg String.toList same
  cases bytes with
  | nil =>
    exact absurd text (by decide)
  | cons b bs =>
    rw [toHex, String.toList_ofList] at text
    have first : hexChar (b.toNat / 16) = 'G' := (List.cons.inj text).1
    have small : b.toNat / 16 < 16 := by
      have := b.toNat_lt
      omega
    have digit := hexDigit?_hexChar small
    rw [first] at digit
    exact absurd digit (by simp [hexDigit?])

theorem computeEntryHash_ne_genesisHash (sha256 : String → List UInt8) (entry : UnhashedEntry) :
    computeEntryHash sha256 entry ≠ genesisHash :=
  toHex_ne_genesisHash _

end TalentTrust.Audit
