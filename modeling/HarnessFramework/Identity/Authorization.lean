import HarnessFramework.Library.Checks

/-!
# Principals and actions

`packages/identity`: which actions a role permits, and how a request comes to its principal. Headers
are here as the services read them, trimmed. Tokens of Entra are checked outside the repository, so
what resolves the principal of a calling service is an argument wherever it may be one of them.

## Main definitions

* `PlatformAction`, `roleActions` — the table of roles
* `Principal`, `evaluate` — a principal, and whether it may act
* `resolveServiceToken`, `resolveDelegated` — the principal of a request
* `require` — the guard of a service
-/

namespace HarnessFramework

namespace Identity

open Checks

/-- `PlatformAction`. -/
inductive PlatformAction
  | planRead | planAdmit
  | runRead | runStart | runCancel | runRetry
  | draftRead | draftWrite | draftCompile | draftEvaluate | draftApprove | draftPublish
  | agentRegister
  | capabilityRead | capabilityRegister
  | caseRead | caseWrite | caseReview
  | evidenceRead | evidenceWrite
  | receiptRead | eventRead
  | runtimeStateWrite | envelopeMint
deriving DecidableEq, Repr

/-- `READ_ACTIONS`. -/
def readActions : List PlatformAction :=
  [.planRead, .runRead, .draftRead, .capabilityRead, .caseRead, .evidenceRead, .receiptRead, .eventRead]

/-- `ROLE_ACTIONS`. -/
def roleActions (role : String) : List PlatformAction :=
  match role with
  | "Harness.Reader" => readActions
  | "Harness.Author" => readActions ++
    [.draftWrite, .draftCompile, .draftEvaluate, .agentRegister, .capabilityRegister]
  | "Harness.Approver" => readActions ++ [.draftApprove, .draftPublish]
  | "Harness.Operator" => readActions ++ [.planAdmit, .runStart, .runCancel, .runRetry]
  | "Case.Analyst" => [.caseRead, .caseWrite, .evidenceRead, .evidenceWrite, .runRead]
  | "Case.Reviewer" => [.caseRead, .caseReview, .evidenceRead, .runRead]
  | "Platform.Auditor" => readActions
  | "Control.Api.Access" => [.planRead, .runRead, .runStart, .eventRead, .receiptRead]
  | "Case.Api.Access" => [.caseRead, .caseWrite, .evidenceRead, .evidenceWrite]
  | "Capability.Invoke" => [.capabilityRead]
  | "Runtime.State.Write" => [.runtimeStateWrite, .envelopeMint, .planRead, .runRead]
  | _ => []

/-- The type of a principal. -/
inductive PrincipalType
  | human
  | workload
deriving DecidableEq, Repr

/-- `Principal`. -/
structure Principal where
  subjectId : String
  tenantId : String
  actorType : PrincipalType
  roles : List String
deriving DecidableEq

/-- `actionsForRoles`. -/
def actionsForRoles (roles : List String) : List PlatformAction := roles.flatMap roleActions

/-- `evaluate` for a principal: allowed, or the reason code of the denial. -/
def evaluate (principal : Principal) (action : PlatformAction) (tenantId : Option String) :
    Except String Unit := do
  ensure (action ∈ actionsForRoles principal.roles) "authorization.role_missing"
  ensure (∀ tenant ∈ tenantId, tenant = principal.tenantId) "authorization.tenant_mismatch"

/-- The headers that principals are resolved from. -/
structure RequestHeaders where
  /-- The token of a `Bearer` authorization. -/
  bearer : Option String
  /-- `x-actor-id`. It may be blank. -/
  actorId : Option String
  /-- The roles in `x-actor-roles`. -/
  actorRoles : List String
  /-- `x-tenant-id`, unless it is blank. -/
  tenantId : Option String
deriving DecidableEq

/-- What resolves the principal of a request. -/
abbrev PrincipalResolver : Type := RequestHeaders → Except String Principal

/-- `ServiceTokenGrant`. -/
structure ServiceTokenGrant where
  token : String
  subjectId : String
  roles : List String
  tenantId : String

/-- `ServiceTokenPrincipalResolver.resolve`. -/
def resolveServiceToken (grants : List ServiceTokenGrant) : PrincipalResolver := fun headers => do
  let supplied ← orThrow "authorization.principal_unauthenticated" headers.bearer
  let grant ← orThrow "authorization.service_token_invalid"
    (grants.find? fun candidate => supplied = candidate.token ∧ supplied ≠ "")
  return ⟨grant.subjectId, grant.tenantId, .workload, grant.roles⟩

/-- `EDGE_DELEGATE_ROLE`. -/
def edgeDelegateRole : String := "Edge.Delegate"

/-- `DelegatedPrincipalResolver.resolve`. -/
def resolveDelegated (edge : PrincipalResolver) : PrincipalResolver := fun headers => do
  let edgePrincipal ← edge headers
  ensure (edgeDelegateRole ∈ edgePrincipal.roles) "authorization.delegation_not_permitted"
  let subjectId ← orThrow "authorization.delegated_actor_missing" (headers.actorId.filter (· ≠ ""))
  ensure (headers.actorRoles ≠ []) "authorization.delegated_roles_missing"
  ensure (∀ tenant ∈ headers.tenantId, tenant = edgePrincipal.tenantId)
    "authorization.delegated_tenant_mismatch"
  return ⟨subjectId, edgePrincipal.tenantId, .human, headers.actorRoles⟩

/-- `Guard.require`: the principal of a request that may act. -/
def require (resolver : PrincipalResolver) (headers : RequestHeaders) (action : PlatformAction)
    (tenantId : Option String) : Except String Principal := do
  let principal ← resolver headers
  evaluate principal action tenantId
  return principal

end Identity

end HarnessFramework
