import TalentTrust.Auth.Authorization
import TalentTrust.Lib.OrderedMap

/-!
The routes of a metadata record (`modules/contractMetadata`).

`requireContractAccess` asks for a permission on contracts, and the handlers give the id of the
record to the service. Nothing compares the contract of the path with that of the record, so
every contract's path leads to it (`routes_stay_inside_iff`). A PATCH never gets to its handler:
the check of the path has dropped the body that the next check asks for.
-/

namespace TalentTrust.Metadata

open TalentTrust.Lib TalentTrust.Auth

inductive DataType where
  | string
  | number
  | boolean
  | json
  deriving DecidableEq

structure ContractMetadataResponse where
  id : String
  contractId : String
  key : String
  value : String
  dataType : DataType
  isSensitive : Bool
  createdBy : String
  updatedBy : Option String
  createdAt : String
  updatedAt : String
  deriving DecidableEq

/-- A row of `contract_metadata`, with its times in ISO form. -/
structure ContractMetadata extends ContractMetadataResponse where
  deletedAt : Option String
  deriving DecidableEq

structure UpdateContractMetadataRequest where
  value : Option String := none
  isSensitive : Option Bool := none

abbrev Table := OrderedMap String ContractMetadata

variable (user : User) (now : String) (table : Table) (id : String)

/-! ### Store and service -/

def findMetadataById : Option ContractMetadata := (table.get? id).filter (·.deletedAt.isNone)

/-- The row that an update leaves. -/
def ContractMetadata.merged (existing : ContractMetadata) (updates : UpdateContractMetadataRequest) :
    ContractMetadata :=
  { existing with
    value := updates.value.getD existing.value
    isSensitive := updates.isSensitive.getD existing.isSensitive
    updatedBy := some user.id
    updatedAt := now }

def formatResponse (metadata : ContractMetadata) : ContractMetadataResponse :=
  let shouldMaskValue := metadata.isSensitive && (metadata.createdBy ≠ user.id && user.role ≠ .admin)
  { metadata.toContractMetadataResponse with
    value := if shouldMaskValue then "***REDACTED***" else metadata.value }

/-! ### Routes -/

/-- What `validateParams` leaves of the body. `validateSchema` puts the parts of the parsed data in
the place of those of the request, and the schema of the parameters has no body. -/
def validateParams (_body : Option UpdateContractMetadataRequest) :
    Option UpdateContractMetadataRequest :=
  none

/-- `validateRequest(updateContractMetadataSchema)`, which lets no other field through. -/
def validateRequest : Option UpdateContractMetadataRequest → Except String UpdateContractMetadataRequest
  | none => .error "Request validation failed"
  | some updates => .ok updates

/-- GET comes with the answer to whether `If-None-Match` names the ETag of a response. -/
inductive Request where
  | get (satisfied : ContractMetadataResponse → Bool)
  | patch (body : Option UpdateContractMetadataRequest)
  | delete

inductive Reply where
  | json (body : ContractMetadataResponse)
  | notModified
  | noContent
  | badRequest (error : String)
  deriving DecidableEq

/-- GET, PATCH and DELETE on `/contracts/:contractId/metadata/:id`, with ids of the right form and
access to contracts. -/
def serve : Request → Reply × Table
  | .get satisfied =>
    match findMetadataById table id with
    | none => (.badRequest "Metadata not found", table)
    | some metadata =>
      let result := formatResponse user metadata
      (if satisfied result then .notModified else .json result, table)
  | .patch body =>
    match validateRequest (validateParams body) with
    | .error message => (.badRequest message, table)
    | .ok updates =>
      match findMetadataById table id with
      | none => (.badRequest "Metadata not found", table)
      | some existing =>
        let metadata := existing.merged user now updates
        (.json (formatResponse user metadata), table.set id metadata)
  | .delete =>
    match findMetadataById table id with
    | none => (.noContent, table)
    | some metadata =>
      (.noContent, table.set id { metadata with updatedAt := now, deletedAt := some now })

end TalentTrust.Metadata
