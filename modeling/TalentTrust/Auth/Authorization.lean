import Mathlib.Tactic

/-!
Roles and permissions: `lib/authorization.ts`, and the middlewares
`requireAuth` and `requirePermission` of `middleware/authorization.ts`.

`permissionMatrix` gives a cell for every resource, action and role of the
platform, and `isAuthorized` evaluates it. The deny-by-default branches for
values outside the matrix are kept for the one action table that has gaps,
`health`.
-/

namespace TalentTrust.Auth

/-! ### The permission matrix -/

inductive Role where
  | admin
  | auditor
  | client
  | freelancer
  deriving DecidableEq, Repr

inductive Resource where
  | users
  | jobs
  | proposals
  | contracts
  | payments
  | reviews
  | reports
  | settings
  | disputes
  | health
  deriving DecidableEq, Repr

inductive Action where
  | create
  | read
  | update
  | delete
  | list
  deriving DecidableEq, Repr

def Role.name : Role → String
  | .admin => "admin"
  | .auditor => "auditor"
  | .client => "client"
  | .freelancer => "freelancer"

def Resource.name : Resource → String
  | .users => "users"
  | .jobs => "jobs"
  | .proposals => "proposals"
  | .contracts => "contracts"
  | .payments => "payments"
  | .reviews => "reviews"
  | .reports => "reports"
  | .settings => "settings"
  | .disputes => "disputes"
  | .health => "health"

def Action.name : Action → String
  | .create => "create"
  | .read => "read"
  | .update => "update"
  | .delete => "delete"
  | .list => "list"

/-- `isValidRole`, as the role that a claim names. -/
def roleOf? : String → Option Role
  | "admin" => some .admin
  | "auditor" => some .auditor
  | "client" => some .client
  | "freelancer" => some .freelancer
  | _ => none

inductive Cell where
  | deny
  | allow
  | own
  deriving DecidableEq, Repr

/-- The cells of one action, in the order of the columns of the source. -/
structure RoleCells where
  admin : Cell
  auditor : Cell
  client : Cell
  freelancer : Cell
  deriving DecidableEq

def RoleCells.cell (cells : RoleCells) : Role → Cell
  | .admin => cells.admin
  | .auditor => cells.auditor
  | .client => cells.client
  | .freelancer => cells.freelancer

def permissionMatrix : Resource → Action → Option RoleCells
  | .users, .create => some ⟨.allow, .deny, .deny, .deny⟩
  | .users, .read => some ⟨.allow, .allow, .deny, .deny⟩
  | .users, .update => some ⟨.allow, .deny, .deny, .deny⟩
  | .users, .delete => some ⟨.allow, .deny, .deny, .deny⟩
  | .users, .list => some ⟨.allow, .allow, .deny, .deny⟩
  | .jobs, .create => some ⟨.allow, .deny, .allow, .deny⟩
  | .jobs, .read => some ⟨.allow, .allow, .allow, .allow⟩
  | .jobs, .update => some ⟨.allow, .deny, .own, .deny⟩
  | .jobs, .delete => some ⟨.allow, .deny, .own, .deny⟩
  | .jobs, .list => some ⟨.allow, .allow, .allow, .allow⟩
  | .proposals, .create => some ⟨.allow, .deny, .deny, .allow⟩
  | .proposals, .read => some ⟨.allow, .allow, .own, .own⟩
  | .proposals, .update => some ⟨.allow, .deny, .deny, .own⟩
  | .proposals, .delete => some ⟨.allow, .deny, .deny, .own⟩
  | .proposals, .list => some ⟨.allow, .allow, .own, .own⟩
  | .contracts, .create => some ⟨.allow, .deny, .allow, .deny⟩
  | .contracts, .read => some ⟨.allow, .allow, .own, .own⟩
  | .contracts, .update => some ⟨.allow, .deny, .own, .own⟩
  | .contracts, .delete => some ⟨.allow, .deny, .deny, .deny⟩
  | .contracts, .list => some ⟨.allow, .allow, .own, .own⟩
  | .payments, .create => some ⟨.allow, .deny, .allow, .deny⟩
  | .payments, .read => some ⟨.allow, .allow, .own, .own⟩
  | .payments, .update => some ⟨.allow, .deny, .deny, .deny⟩
  | .payments, .delete => some ⟨.allow, .deny, .deny, .deny⟩
  | .payments, .list => some ⟨.allow, .allow, .own, .own⟩
  | .reviews, .create => some ⟨.allow, .deny, .allow, .allow⟩
  | .reviews, .read => some ⟨.allow, .allow, .allow, .allow⟩
  | .reviews, .update => some ⟨.allow, .deny, .own, .own⟩
  | .reviews, .delete => some ⟨.allow, .deny, .deny, .deny⟩
  | .reviews, .list => some ⟨.allow, .allow, .allow, .allow⟩
  | .reports, .create => some ⟨.allow, .deny, .deny, .deny⟩
  | .reports, .read => some ⟨.allow, .allow, .deny, .deny⟩
  | .reports, .update => some ⟨.allow, .deny, .deny, .deny⟩
  | .reports, .delete => some ⟨.allow, .deny, .deny, .deny⟩
  | .reports, .list => some ⟨.allow, .allow, .deny, .deny⟩
  | .settings, .create => some ⟨.allow, .deny, .deny, .deny⟩
  | .settings, .read => some ⟨.allow, .allow, .own, .own⟩
  | .settings, .update => some ⟨.allow, .deny, .own, .own⟩
  | .settings, .delete => some ⟨.allow, .deny, .deny, .deny⟩
  | .settings, .list => some ⟨.allow, .allow, .deny, .deny⟩
  | .disputes, .create => some ⟨.allow, .deny, .allow, .allow⟩
  | .disputes, .read => some ⟨.allow, .allow, .own, .own⟩
  | .disputes, .update => some ⟨.allow, .deny, .own, .deny⟩
  | .disputes, .delete => some ⟨.allow, .deny, .deny, .deny⟩
  | .disputes, .list => some ⟨.allow, .allow, .own, .own⟩
  | .health, .read => some ⟨.allow, .allow, .allow, .allow⟩
  | .health, _ => none

/-! ### Evaluating it -/

structure User where
  id : String
  email : String
  role : Role
  deriving DecidableEq

structure AuthorizationResult where
  granted : Bool
  reason : String
  deriving DecidableEq

variable (user : User) (resource : Resource) (action : Action)

def isAuthorized (resourceOwnerId : Option String) : AuthorizationResult :=
  match permissionMatrix resource action with
  | none =>
    ⟨false, "Explicit deny: action '" ++ action.name ++ "' on resource '" ++ resource.name ++
      "' is not registered in the permission matrix."⟩
  | some cells =>
    match cells.cell user.role with
    | .deny =>
      ⟨false, "Role '" ++ user.role.name ++ "' may not '" ++ action.name ++ "' '" ++
        resource.name ++ "'."⟩
    | .allow => ⟨true, "Permission granted."⟩
    | .own =>
      if user.role = .admin then ⟨true, "Admin bypass."⟩
      else match resourceOwnerId with
        | none => ⟨false, "Ownership could not be verified."⟩
        | some owner =>
          if owner ≠ user.id then ⟨false, "Resource is owned by a different user."⟩
          else ⟨true, "Permission granted (owner)."⟩

inductive Permission where
  | granted
  | forbidden
  | notFound
  deriving DecidableEq, Repr

variable (user : User) (resource : Resource) (action : Action)

/-- `requirePermission` without an owner lookup. -/
def requirePermission : Permission :=
  if (isAuthorized user resource action none).granted then .granted else .forbidden

/-- `requirePermission` with an owner lookup, whose result is given: no record means 404. -/
def requireOwnPermission (ownerId : Option String) : Permission :=
  match ownerId with
  | none => .notFound
  | some owner => if (isAuthorized user resource action (some owner)).granted then .granted else .forbidden

/-! ### Who is calling -/

structure JwtPayload where
  sub : Option String
  email : Option String := none
  role : Option String := none
  deriving DecidableEq

inductive JwtError where
  | expired
  | invalid
  deriving DecidableEq, Repr

def extractBearerToken (authorization : Option String) : Option String :=
  match authorization with
  | none => none
  | some header =>
    if "Bearer ".toList.isPrefixOf header.toList then
      let token := String.ofList (header.toList.drop 7)
      if token = "" then none else some token
    else none

/-- `requireAuth`: the user of the request, or the message of the 401 response. -/
def requireAuth (verify : String → Except JwtError JwtPayload) (authorization : Option String) :
    Except String User :=
  match extractBearerToken authorization with
  | none => .error "Missing or malformed Authorization header."
  | some token =>
    match verify token with
    | .error .expired => .error "Token has expired."
    | .error .invalid => .error "Invalid token."
    | .ok payload =>
      match payload.sub.filter (· ≠ ""), payload.email.filter (· ≠ "") with
      | some sub, some email =>
        match payload.role.bind roleOf? with
        | none => .error "Token carries an unrecognised role."
        | some role => .ok ⟨sub, email, role⟩
      | _, _ => .error "Token is missing required claims."

theorem id_ne_empty_of_requireAuth {verify : String → Except JwtError JwtPayload}
    {authorization : Option String} {user : User}
    (authenticated : requireAuth verify authorization = .ok user) : user.id ≠ "" := by
  unfold requireAuth at authenticated
  split at authenticated
  · cases authenticated
  · split at authenticated
    · cases authenticated
    · cases authenticated
    · split at authenticated
      · rename_i sub email hasSub hasEmail
        split at authenticated
        · cases authenticated
        · cases authenticated
          simpa using (Option.filter_eq_some_iff.mp hasSub).2
      · cases authenticated

end TalentTrust.Auth
