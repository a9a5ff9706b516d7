import TalentTrust.Lib.Json
import Mathlib.Data.List.ReduceOption

/-!
Inbound events: the envelope checks shared by both ingestion paths, and the
contract-event validator built on them.

`validateEventEnvelopePreamble` reports one error per field that fails, in the
order contractId, eventId, sequence, timestamp, payload; a caller that aborts
early keeps the first. `validateEventEnvelopePreamble_eq_nil_iff` says which
values pass, whatever the options, and `validateContractEventPayload_ok_iff`
says which contract events come out of the validator and from which values.
-/

namespace TalentTrust.Events

open TalentTrust.Lib

/-- What the validators ask of the JavaScript host. `dateParse` is
`Date.parse`, with `none` for `NaN`; `toNumber` is `Number(s)`, with `none`
when the result is not finite; `minus` is the rounded difference of two numbers. -/
structure Host where
  dateParse : String → Option Int
  toNumber : String → Option Decimal
  minus : Decimal → Decimal → Decimal

structure FieldError where
  field : String
  message : String
  deriving DecidableEq

inductive TimestampRule where
  | iso
  | numeric
  deriving DecidableEq, Repr

structure EnvelopeValidationOptions where
  rootErrorMessage : String
  messageSuffix : String
  timestampRule : TimestampRule
  abortEarly : Bool
  deriving DecidableEq

/-! ### The checks of one field -/

/-- A property that must be a string with something besides white space in it. -/
def requiredText (value : Json) (property field message : String) : Option FieldError :=
  match value.get? property with
  | some (.str s) => if isBlank s then some ⟨field, message⟩ else none
  | _ => some ⟨field, message⟩

/-- The `sequence` of a value, when it is a non-negative integer. -/
def sequenceOf? (value : Json) : Option Nat :=
  match value.get? "sequence" with
  | some (.num d) => d.toNat?
  | _ => none

/-- A number, or a numeric string, as a finite number. -/
def toFiniteNumber (host : Host) : Option Json → Option Decimal
  | some (.num d) => some d
  | some (.str s) => if isBlank s then none else host.toNumber s
  | _ => none

/-- What each timestamp rule accepts. -/
def timestampAccepted (host : Host) : TimestampRule → Option Json → Bool
  | .iso, some (.str s) => (host.dateParse s).isSome
  | .iso, _ => false
  | .numeric, v => (toFiniteNumber host v).isSome

def timestampMessage : TimestampRule → String
  | .iso => "timestamp must be a valid ISO string"
  | .numeric => "timestamp must be a valid epoch number or numeric string"

variable (options : EnvelopeValidationOptions) (value : Json)

def contractIdError : Option FieldError :=
  requiredText value "contractId" "contractId" ("contractId is required" ++ options.messageSuffix)

def eventIdError : Option FieldError :=
  requiredText value "eventId" "eventId" ("eventId is required" ++ options.messageSuffix)

def sequenceError : Option FieldError :=
  if (sequenceOf? value).isSome then none
  else some ⟨"sequence", "sequence must be a non-negative integer" ++ options.messageSuffix⟩

def timestampError (host : Host) (options : EnvelopeValidationOptions) (value : Json) :
    Option FieldError :=
  if timestampAccepted host options.timestampRule (value.get? "timestamp") then none
  else some ⟨"timestamp", timestampMessage options.timestampRule ++ options.messageSuffix⟩

def payloadError : Option FieldError :=
  if ((value.get? "payload").map Json.isRecord).getD false then none
  else some ⟨"payload", "payload must be an object" ++ options.messageSuffix⟩

/-- The field checks, in the order in which they are made. -/
def fieldErrors (host : Host) (options : EnvelopeValidationOptions) (value : Json) :
    List FieldError :=
  [contractIdError options value, eventIdError options value, sequenceError options value,
    timestampError host options value, payloadError options value].reduceOption

def validateEventEnvelopePreamble (host : Host) (value : Json)
    (options : EnvelopeValidationOptions) : List FieldError :=
  if value.isRecord then
    -- Returning at the first failure is keeping the first of the errors.
    if options.abortEarly then (fieldErrors host options value).take 1
    else fieldErrors host options value
  else [⟨"event", options.rootErrorMessage⟩]

/-! ### What passes the checks -/

/-- A value all of whose envelope fields are well formed under a timestamp rule. -/
structure WellFormed (host : Host) (rule : TimestampRule) (value : Json) : Prop where
  contractId : ∃ s, value.get? "contractId" = some (.str s) ∧ isBlank s = false
  eventId : ∃ s, value.get? "eventId" = some (.str s) ∧ isBlank s = false
  sequence : ∃ n, sequenceOf? value = some n
  timestamp : timestampAccepted host rule (value.get? "timestamp") = true
  payload : ∃ fields, value.get? "payload" = some (.obj fields)

variable {value : Json}

theorem requiredText_eq_none_iff {property field message : String} :
    requiredText value property field message = none ↔
      ∃ s, value.get? property = some (.str s) ∧ isBlank s = false := by
  unfold requiredText
  split
  · rename_i s found
    simp [found]
  · rename_i other
    constructor
    · intro h
      cases h
    · rintro ⟨s, found, _⟩
      exact absurd found (other s)

variable {options : EnvelopeValidationOptions}

theorem payloadError_eq_none_iff :
    payloadError options value = none ↔ ∃ fields, value.get? "payload" = some (.obj fields) := by
  unfold payloadError
  rcases value.get? "payload" with _ | v
  · simp
  · cases v <;> simp [Json.isRecord]

variable {host : Host}

theorem fieldErrors_eq_nil_iff :
    fieldErrors host options value = [] ↔ WellFormed host options.timestampRule value := by
  have split : fieldErrors host options value = [] ↔
      contractIdError options value = none ∧ eventIdError options value = none ∧
        sequenceError options value = none ∧ timestampError host options value = none ∧
          payloadError options value = none := by
    simp [fieldErrors, List.reduceOption]
  rw [split, contractIdError, eventIdError, requiredText_eq_none_iff, requiredText_eq_none_iff,
    payloadError_eq_none_iff]
  constructor
  · rintro ⟨contractId, eventId, sequence, timestamp, payload⟩
    refine ⟨contractId, eventId, ?_, ?_, payload⟩
    · exact Option.ne_none_iff_exists'.mp (by simpa [sequenceError] using sequence)
    · simpa [timestampError] using timestamp
  · intro wf
    refine ⟨wf.contractId, wf.eventId, ?_, ?_, wf.payload⟩
    · simp [sequenceError, Option.isSome_iff_exists.mpr wf.sequence]
    · simp [timestampError, wf.timestamp]

theorem WellFormed.isRecord {rule : TimestampRule} (wf : WellFormed host rule value) :
    value.isRecord = true := by
  obtain ⟨s, found, _⟩ := wf.contractId
  cases value with
  | obj fields => rfl
  | _ => simp [Json.get?] at found

/-- Whatever the options, the values without an error are the well-formed ones. -/
theorem validateEventEnvelopePreamble_eq_nil_iff :
    validateEventEnvelopePreamble host value options = [] ↔
      WellFormed host options.timestampRule value := by
  unfold validateEventEnvelopePreamble
  by_cases record : value.isRecord = true
  · rw [if_pos record, ← fieldErrors_eq_nil_iff]
    cases options.abortEarly with
    | false | true => simp
  · rw [if_neg record]
    exact ⟨fun h => by simp at h, fun wf => absurd wf.isRecord record⟩

/-! ### Contract events -/

inductive EventType where
  | contractCreated
  | contractFunded
  | milestoneReleased
  | contractCompleted
  | contractCancelled
  deriving DecidableEq, Repr

/-- The whitelist `EVENT_TYPES`. -/
def EventType.ofString? : String → Option EventType
  | "CONTRACT_CREATED" => some .contractCreated
  | "CONTRACT_FUNDED" => some .contractFunded
  | "MILESTONE_RELEASED" => some .milestoneReleased
  | "CONTRACT_COMPLETED" => some .contractCompleted
  | "CONTRACT_CANCELLED" => some .contractCancelled
  | _ => none

structure ContractEvent where
  contractId : String
  eventId : String
  sequence : Nat
  timestamp : String
  type : EventType
  payload : Json
  deriving DecidableEq

def contractPreambleOptions : EnvelopeValidationOptions where
  rootErrorMessage := "Payload must be a JSON object"
  messageSuffix := ""
  timestampRule := .iso
  abortEarly := true

def asString : Option Json → String
  | some (.str s) => s
  | _ => ""

def validateContractEventPayload (host : Host) (payload : Json) : Except String ContractEvent :=
  match validateEventEnvelopePreamble host payload contractPreambleOptions with
  | error :: _ => .error error.message
  | [] =>
    match payload.get? "type" with
    | some (.str type) =>
      match EventType.ofString? type with
      | some type => .ok
          { contractId := trim (asString (payload.get? "contractId"))
            eventId := trim (asString (payload.get? "eventId"))
            sequence := (sequenceOf? payload).getD 0
            timestamp := asString (payload.get? "timestamp")
            type := type
            payload := (payload.get? "payload").getD .null }
      | none => .error "type is invalid"
    | _ => .error "type is invalid"

/-- The contract event a value stands for. -/
structure Describes (host : Host) (value : Json) (event : ContractEvent) : Prop where
  contractId : ∃ s, value.get? "contractId" = some (.str s) ∧ isBlank s = false ∧
    event.contractId = trim s
  eventId : ∃ s, value.get? "eventId" = some (.str s) ∧ isBlank s = false ∧ event.eventId = trim s
  sequence : sequenceOf? value = some event.sequence
  timestamp : value.get? "timestamp" = some (.str event.timestamp) ∧
    (host.dateParse event.timestamp).isSome = true
  type : ∃ s, value.get? "type" = some (.str s) ∧ EventType.ofString? s = some event.type
  payload : ∃ fields, value.get? "payload" = some (.obj fields) ∧ event.payload = .obj fields

theorem timestampAccepted_iso {v : Option Json} :
    timestampAccepted host .iso v = true ↔
      ∃ s, v = some (.str s) ∧ (host.dateParse s).isSome = true := by
  rcases v with _ | v
  · simp [timestampAccepted]
  · cases v <;> simp [timestampAccepted]

theorem Describes.wellFormed {event : ContractEvent} (d : Describes host value event) :
    WellFormed host .iso value where
  contractId := let ⟨s, found, text, _⟩ := d.contractId; ⟨s, found, text⟩
  eventId := let ⟨s, found, text, _⟩ := d.eventId; ⟨s, found, text⟩
  sequence := ⟨_, d.sequence⟩
  timestamp := timestampAccepted_iso.mpr ⟨_, d.timestamp⟩
  payload := let ⟨fields, found, _⟩ := d.payload; ⟨fields, found⟩

/-- The validator returns an event exactly when the value describes it. -/
theorem validateContractEventPayload_ok_iff {event : ContractEvent} :
    validateContractEventPayload host value = .ok event ↔ Describes host value event := by
  unfold validateContractEventPayload
  constructor
  · intro h
    split at h
    · cases h
    rename_i passed
    have wf := validateEventEnvelopePreamble_eq_nil_iff.mp passed
    obtain ⟨c, hc, textC⟩ := wf.contractId
    obtain ⟨i, hi, textI⟩ := wf.eventId
    obtain ⟨n, hn⟩ := wf.sequence
    obtain ⟨t, ht, parses⟩ := timestampAccepted_iso.mp wf.timestamp
    obtain ⟨fields, hp⟩ := wf.payload
    split at h
    · rename_i s hs
      split at h
      · rename_i type known
        cases h
        exact
          { contractId := ⟨c, hc, textC, by simp [hc, asString]⟩
            eventId := ⟨i, hi, textI, by simp [hi, asString]⟩
            sequence := by simp [hn]
            timestamp := by simpa [ht, asString] using parses
            type := ⟨s, hs, known⟩
            payload := ⟨fields, hp, by simp [hp]⟩ }
      · cases h
    · cases h
  · intro d
    rw [validateEventEnvelopePreamble_eq_nil_iff.mpr d.wellFormed]
    obtain ⟨c, hc, _, sameC⟩ := d.contractId
    obtain ⟨i, hi, _, sameI⟩ := d.eventId
    obtain ⟨s, hs, known⟩ := d.type
    obtain ⟨fields, hp, sameP⟩ := d.payload
    simp [hs, known, hc, hi, hp, d.sequence, d.timestamp.1, asString, ← sameC, ← sameI, ← sameP]

/-! ### The dedupe key -/

/-- `${contractId}:${eventId}:${sequence}`. -/
def buildEventKey (event : ContractEvent) : String :=
  event.contractId ++ ":" ++ event.eventId ++ ":" ++
    String.ofList (Decimal.ofNat event.sequence).chars

theorem toList_buildEventKey (event : ContractEvent) :
    (buildEventKey event).toList = event.contractId.toList ++ ':' :: (event.eventId.toList ++
      ':' :: (Decimal.ofNat event.sequence).chars) := by
  simp [buildEventKey]

/-- The key determines the sequence, which is what follows its last colon. -/
theorem sequence_eq_of_buildEventKey_eq {a b : ContractEvent}
    (same : buildEventKey a = buildEventKey b) : a.sequence = b.sequence := by
  have texts := congrArg (fun s => s.toList.reverse) same
  simp only [toList_buildEventKey, List.reverse_append, List.reverse_cons, List.append_assoc,
    List.cons_append, List.nil_append] at texts
  have noColon : ∀ n, ∀ c ∈ (Decimal.ofNat n).chars.reverse, c ≠ ':' := by
    rintro n c mem rfl
    have := Json.chars_numberChar _ _ (List.mem_reverse.mp mem)
    simp [Json.numberChar] at this
  have digits := (Decimal.append_inj_of_span (noColon _) (noColon _) (by simp) (by simp) texts).1
  have numbers := Decimal.chars_injective (List.reverse_injective digits)
  have := congrArg Decimal.toNat? numbers
  rwa [Decimal.toNat?_ofNat, Decimal.toNat?_ofNat, Option.some.injEq] at this

/-! ### Concrete payloads -/

def lenientHost : Host where
  dateParse := fun _ => some 0
  toNumber := fun _ => none
  minus := fun a _ => a

def createdPayload (contractId eventId : String) (sequence : Nat) : Json :=
  .obj [("contractId", .str contractId), ("eventId", .str eventId),
    ("sequence", .num (.ofNat sequence)), ("timestamp", .str "2024-01-01T00:00:00.000Z"),
    ("type", .str "CONTRACT_CREATED"), ("payload", .obj [])]

end TalentTrust.Events
