/-
  File:      Helpdesk/Admin/Access.lean
  Subject:   Users and roles as administrators change them (apps/api/app/admin:
             `AdminService.set_user_status`, `remove_role` and
             `_require_surviving_administrator`, with their statements).

  Both take the advisory lock of the tenant before they read anything, count the
  other administrators where they take one away, and commit. `CURRENT_TIMESTAMP` is
  the time their transaction started. A refusal is recorded in a transaction of its
  own, after the ROLLBACK.

  Left out: what the audit row says of the change, and the display name.
-/
import Helpdesk.Lib.Transactions
import Helpdesk.Tickets.Database

namespace Helpdesk.Admin

open Helpdesk.Python Helpdesk.Tickets Helpdesk.Transactions
open Helpdesk.Transactions.Procedure

/-! ## 1. Tables -/

/-- identity.app_user -/
structure AppUser where
  userId : Uuid
  tenantId : Uuid
  activeFlag : Bool
  updatedAt : Instant
  deriving DecidableEq, Repr

/-- identity.user_role -/
structure UserRole where
  tenantId : Uuid
  userId : Uuid
  roleCode : String
  validFrom : Instant
  validTo : Option Instant
  activeFlag : Bool
  deriving DecidableEq, Repr

/-- audit.audit_event -/
structure AdminAction where
  tenantId : Uuid
  actorId : Option Uuid
  actionCode : String
  resourceType : String
  resourceId : String
  deriving DecidableEq, Repr

/-- A denied security event. -/
structure Denial where
  eventType : String
  tenantId : Option Uuid
  userId : Option Uuid
  resourceType : String
  resourceId : String
  deriving DecidableEq, Repr

structure Identity where
  users : List AppUser
  roles : List UserRole
  actions : List AdminAction
  denials : List Denial
  clock : Instant

/-- The advisory lock of a tenant, and the row of a user. -/
inductive Lock where
  | tenant (tenantId : Uuid)
  | user (userId : Uuid)
  deriving DecidableEq

/-- An assignment that is effective at a time. -/
def UserRole.validAt (now : Instant) (r : UserRole) : Bool :=
  r.activeFlag && decide (r.validFrom ≤ now) && r.validTo.all fun t => now < t

/-- An assignment of a role to a user of a tenant. -/
def UserRole.isOf (tenantId userId : Uuid) (roleCode : String) (r : UserRole) : Bool :=
  r.tenantId = tenantId ∧ r.userId = userId ∧ r.roleCode = roleCode

inductive Statement where
  | setActive (tenantId userId : Uuid) (active : Bool) (now : Instant)
  | closeAssignments (tenantId userId : Uuid) (roleCode : String) (now : Instant)
  | action (row : AdminAction)
  | denial (row : Denial)

/-- `_SET_USER_ACTIVE`; the trigger sets `updated_at`. -/
def setActive (tenantId userId : Uuid) (active : Bool) (now : Instant) (u : AppUser) : AppUser :=
  if u.tenantId = tenantId ∧ u.userId = userId then
    { u with activeFlag := active, updatedAt := now }
  else u

/-- `_CLOSE_ASSIGNMENTS` -/
def closeAssignment (tenantId userId : Uuid) (roleCode : String) (now : Instant) (r : UserRole) :
    UserRole :=
  if r.isOf tenantId userId roleCode ∧ r.validAt now then
    { r with activeFlag := false, validTo := some now }
  else r

def Identity.change (d : Identity) : Statement → Identity
  | .setActive tenantId userId active now =>
      { d with users := d.users.map (setActive tenantId userId active now) }
  | .closeAssignments tenantId userId roleCode now =>
      { d with roles := d.roles.map (closeAssignment tenantId userId roleCode now) }
  | .action row => { d with actions := d.actions ++ [row] }
  | .denial row => { d with denials := d.denials ++ [row] }

instance : Database Identity Statement where
  change := Identity.change

/-! ## 2. Requests -/

inductive AccessCommand where
  | setUserStatus (userId : Uuid) (active : Bool) (expectedUpdatedAt : Instant)
  | removeRole (userId : Uuid) (roleCode : String)

structure AccessRequest where
  /-- of the context -/
  tenantId : Option Uuid
  actorId : Option Uuid
  command : AccessCommand
  /-- `CURRENT_TIMESTAMP`: when the transaction starts -/
  startedAt : Instant

inductive AccessResponse where
  | status (userId : Uuid) (activeFlag : Bool) (updatedAt : Instant) (changed : Bool)
  | roleAssignment (userId : Uuid) (roleCode : String) (changed : Bool)
  deriving DecidableEq, Repr

abbrev AccessCall := Procedure Identity Lock Statement AppError

/-- `_ADMIN_ROLE_CODE` -/
def adminRoleCode : String := "PLATFORM_ADMIN"

/-- The `ConflictError` of `_require_surviving_administrator`. -/
def lastAdministrator : AppError :=
  .conflict "conflict" ("The tenant must keep at least one active administrator. " ++
    "Grant another administrator first.")

/-- `_ACTIVE_ADMIN_COUNT` -/
def activeAdminCount (now : Instant) (tenantId excludedUserId : Uuid) (d : Identity) : Nat :=
  ((d.roles.filter fun r => r.tenantId = tenantId ∧ r.roleCode = adminRoleCode ∧ r.validAt now ∧
    r.userId ≠ excludedUserId ∧
    d.users.any fun u => u.userId = r.userId ∧ u.tenantId = tenantId ∧ u.activeFlag).map
      (·.userId)).dedup.length

/-- `_record_security_denial` -/
def recordSecurityDenial (request : AccessRequest) (eventType resourceType resourceId : String) :
    AccessCall Unit := do
  write (.denial ⟨eventType, request.tenantId, request.actorId, resourceType, resourceId⟩)
  save

/-- `_forbid_self_mutation` -/
def forbidSelfMutation (request : AccessRequest) (userId : Uuid) (resourceType : String) :
    AccessCall Unit :=
  if request.actorId = some userId then do
    recordSecurityDenial request "ADMIN_SELF_MUTATION_BLOCKED" resourceType (uuidText userId)
    fail (.authorization "Administrators cannot change their own access. Ask another administrator.")
  else pure ()

/-- `_require_surviving_administrator` -/
def requireSurvivingAdministrator (now : Instant) (tenantId excludedUserId : Uuid) :
    AccessCall Unit := do
  let survivors ← query (activeAdminCount now tenantId excludedUserId)
  check (survivors ≠ 0) lastAdministrator

/-- `lock_tenant_identity` and `user_for_update` -/
def lockedUser (tenantId userId : Uuid) : AccessCall AppUser := do
  acquire (.tenant tenantId)
  acquire (.user userId)
  let found ← query fun d => d.users.find? fun u => u.tenantId = tenantId ∧ u.userId = userId
  demand found (.notFound "User not found.")

/-- A user is only deactivated when another administrator is left. -/
def guardStatus (now : Instant) (tenantId userId : Uuid) (active : Bool) : AccessCall Unit :=
  if active then pure () else requireSurvivingAdministrator now tenantId userId

/-- The rest of `set_user_status`, for a user who has the other status. -/
def changeStatus (request : AccessRequest) (tenantId userId : Uuid) (active : Bool) :
    AccessCall AccessResponse := do
  guardStatus request.startedAt tenantId userId active
  write (.setActive tenantId userId active request.startedAt)
  write (.action ⟨tenantId, request.actorId,
    if active then "ADMIN_USER_REACTIVATED" else "ADMIN_USER_DEACTIVATED", "USER", uuidText userId⟩)
  save
  return .status userId active request.startedAt true

/-- The transaction of `set_user_status`. -/
def setUserStatus (request : AccessRequest) (tenantId userId : Uuid) (active : Bool)
    (expectedUpdatedAt : Instant) : AccessCall AccessResponse := do
  let user ← lockedUser tenantId userId
  if user.activeFlag = active then do
    save
    return .status userId user.activeFlag user.updatedAt false
  else do
    check (user.updatedAt = expectedUpdatedAt)
      (.concurrency "The user was modified by someone else. Reload and try again.")
    changeStatus request tenantId userId active

/-- An administrator's role is only taken when another administrator is left. -/
def guardRemoval (now : Instant) (tenantId userId : Uuid) (roleCode : String) : AccessCall Unit :=
  if roleCode = adminRoleCode then do
    let assigned ← query fun d => d.roles.any fun r => r.isOf tenantId userId roleCode ∧ r.validAt now
    if assigned then requireSurvivingAdministrator now tenantId userId else pure ()
  else pure ()

/-- The action is recorded when an assignment was closed. -/
def recordRemoval (request : AccessRequest) (tenantId userId : Uuid) (roleCode : String)
    (changed : Bool) : AccessCall Unit :=
  if changed then
    write (.action ⟨tenantId, request.actorId, "ADMIN_ROLE_REMOVED", "USER_ROLE",
      uuidText userId ++ ":" ++ roleCode⟩)
  else pure ()

/-- The transaction of `remove_role`. -/
def removeRole (request : AccessRequest) (tenantId userId : Uuid) (roleCode : String) :
    AccessCall AccessResponse := do
  let _ ← lockedUser tenantId userId
  guardRemoval request.startedAt tenantId userId roleCode
  let closed ← query fun d => d.roles.countP fun r =>
    r.isOf tenantId userId roleCode ∧ r.validAt request.startedAt
  write (.closeAssignments tenantId userId roleCode request.startedAt)
  recordRemoval request tenantId userId roleCode (closed > 0)
  save
  return .roleAssignment userId roleCode (closed > 0)

/-- `except ConflictError` -/
def recordRefusal (request : AccessRequest) (resourceType : String) (userId : Uuid)
    (error : AppError) : AccessCall AccessResponse :=
  match error with
  | .conflict code detail => do
      recordSecurityDenial request "LAST_ADMIN_PROTECTION_TRIGGERED" resourceType (uuidText userId)
      fail (.conflict code detail)
  | error => fail error

/-- `set_user_status` and `remove_role` -/
def changeAccess (request : AccessRequest) : AccessCall AccessResponse := do
  let tenantId ← demand request.tenantId
    (.authorization "Authenticated administrator identity is required.")
  match request.command with
  | .setUserStatus userId active expectedUpdatedAt => do
      forbidSelfMutation request userId "user"
      (setUserStatus request tenantId userId active expectedUpdatedAt).catchError
        (recordRefusal request "user" userId)
  | .removeRole userId roleCode => do
      forbidSelfMutation request userId "user_role"
      (removeRole request tenantId userId roleCode).catchError
        (recordRefusal request "user_role" userId)

end Helpdesk.Admin
