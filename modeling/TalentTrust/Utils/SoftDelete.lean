import TalentTrust.Retention.Storage

/-!
`utils/softDelete.ts`: the retention window of a record that is marked as deleted.

Within the window the record may be restored; past it, it may be purged. A mark
that is not a valid date is past every window.
-/

namespace TalentTrust.SoftDelete

open TalentTrust.Lib TalentTrust.Retention

def defaultRetentionDays : Int := 30

/-- `parseRetentionDays`: the days that an environment variable asks for. -/
def parseRetentionDays (envValue : Option String) : Int :=
  match envValue.filter fun text => !isBlank text with
  | none => defaultRetentionDays
  | some text =>
    match parseInt text with
    | none => defaultRetentionDays
    | some parsed => if parsed ≤ 0 then defaultRetentionDays else parsed

variable (deletedAt : Date) (retentionDays : Int) (now : Date)

def isWithinRetentionWindow : Bool :=
  match deletedAt.time, now.time with
  | some deleted, some now => now ≤ deleted + retentionDays * 24 * 60 * 60 * 1000
  | _, _ => false

def isPastRetentionWindow : Bool :=
  !isWithinRetentionWindow deletedAt retentionDays now

structure RetentionError where
  message : String
  code : String := "soft_delete_retention_expired"
  statusCode : Nat := 410
  deriving DecidableEq

end TalentTrust.SoftDelete
