import HarnessFramework.Identity.Authorization
import HarnessFramework.RuntimeCore.Conditions

/-!
# Deployments

`packages/identity`: how the environment of a service decides whom its requests come from. Locally a
caller is known by a shared token, or says who it is. In Azure it is who its token says.

Headers are here as a service receives them. `jwtVerify` checks a token outside the repository, and
`validUrl` says which texts are URLs; both are arguments.

## Main definitions

* `Resolver`, `Resolver.resolve` — what resolves principals, and how
* `createPrincipalResolverFromEnv`, `createWorkloadResolverFromEnv` — which one an environment selects
* `Guard.require` — the guard of a service, with the decisions it records

## Main results

* `resolve_delegated_eq`, `resolve_serviceToken_eq` — the principals of headers that were read
* `createWorkloadResolverFromEnv_azure` — what is selected in Azure
* `guard_require` — what is recorded, and who is let through
* `BelievesTokens.resolve_eq_ok` — whom it resolves there
-/

namespace HarnessFramework

namespace Identity

open Checks

open RuntimeCore (isSpace truthy)

/-! ## Texts -/

/-- `text.trim()`. -/
def trim (text : String) : String :=
  String.ofList ((text.toList.dropWhile isSpace).rdropWhile isSpace)

/-- `text.split(",").map((name) => name.trim()).filter(Boolean)`. -/
def namesIn (text : String) : List String :=
  ((text.toList.splitOn ',').map fun cs => trim (String.ofList cs)).filter (· ≠ "")

/-! ## The environment -/

/-- `NodeJS.ProcessEnv`. -/
abbrev Env : Type := String → Option String

/-- `PlatformMode`. -/
inductive PlatformMode
  | «local»
  | azure
deriving DecidableEq

/-- `platformMode`. -/
def platformMode (env : Env) : Except String PlatformMode :=
  match (env "PLATFORM_MODE").getD "local" with
  | "local" => .ok .local
  | "azure" => .ok .azure
  | value => .error ("platform.mode_unsupported:" ++ value)

/-- `isAzureMode`. -/
def isAzureMode (env : Env) : Except String Bool := do
  let mode ← platformMode env
  return mode = .azure

/-- A variable that is set to something. -/
def setting (env : Env) (name : String) : Option String := (env name).filter (· ≠ "")

/-- `requiredEnv`. -/
def requiredEnv (env : Env) (name : String) : Except String String :=
  orThrow ("identity.config_missing:" ++ name) (setting env name)

/-! ## Decisions -/

/-- `ResourceRef`. -/
structure ResourceRef where
  kind : String
  id : Option String
  tenantId : Option String
deriving DecidableEq

inductive Outcome
  | allowed
  | denied
deriving DecidableEq

/-- `AuthorizationDecision`. An `AuthorizationError` carries one. -/
structure AuthorizationDecision where
  outcome : Outcome
  reasonCode : String
  action : PlatformAction
  subjectId : String
  actorType : String
  tenantId : String
  resourceKind : String
  resourceId : Option String
deriving DecidableEq

/-- `unauthenticated` of `principal.ts` and of `workload.ts`, which differ in the type they give the
caller. -/
def unauthenticated (actorType reasonCode : String) : AuthorizationDecision :=
  ⟨.denied, reasonCode, .planRead, "anonymous", actorType, "unknown", "request", none⟩

/-! ## Requests -/

/-- The headers of a request: a name may have one value or several. -/
abbrev Headers : Type := String → Option (List String)

/-- The first value under a name. -/
def firstValue (headers : Headers) (name : String) : Option String := (headers name).bind List.head?

/-- `header`, and `headerValue` of `workload.ts`. -/
def header (headers : Headers) (name : String) : Option String :=
  ((firstValue headers name).map trim).filter (· ≠ "")

/-- The token of a `Bearer` authorization. -/
def bearerToken (authorization : String) : Option String :=
  if "Bearer ".toList <+: authorization.toList then some (String.ofList (authorization.toList.drop 7))
  else none

/-! ## Tokens -/

/-- What `jwtVerify` is asked to check. -/
structure VerifyOptions where
  jwksUri : String
  issuer : String
  audience : String
  algorithms : List String
  clockTolerance : ℕ

/-- `EntraResolverOptions`. -/
structure EntraOptions where
  tenantId : String
  audience : String
  issuer : String
  jwksUri : String
  resolveTenant : Json → Option String
  allowedClientIds : Option (List String)

/-- A claim that is a text. -/
def textClaim (claims : Json) (name : String) : Option String :=
  match claims.get? name with
  | some (.str text) => some text
  | _ => none

/-- A claim that is truthy. -/
def hasClaim (claims : Json) (name : String) : Bool :=
  ((claims.get? name).map fun value => truthy (.ofJson value)).getD false

/-- The roles in the claims. -/
def roleClaims (claims : Json) : List String :=
  match claims.get? "roles" with
  | some (.arr roles) => roles.filterMap fun role =>
    match role with
    | .str role => some role
    | _ => none
  | _ => []

/-- The application that a token was issued to. -/
def clientId (claims : Json) : Option String := (textClaim claims "azp").or (textClaim claims "appid")

/-- The subject of a token. -/
def subjectClaim (claims : Json) : Option String := (textClaim claims "oid").or (textClaim claims "sub")

/-- The type of a subject. -/
def actorTypeOf (claims : Json) : PrincipalType :=
  if textClaim claims "idtyp" = some "app" ∨ hasClaim claims "name" = false then .workload else .human

/-- The deployment does not restrict its clients, or the client is one of them. -/
def ClientPermitted (options : EntraOptions) (claims : Json) : Prop :=
  ∀ allowed ∈ options.allowedClientIds, allowed = [] ∨ ∃ id ∈ clientId claims, id ≠ "" ∧ id ∈ allowed

instance (options : EntraOptions) (claims : Json) : Decidable (ClientPermitted options claims) :=
  inferInstanceAs (Decidable (∀ allowed ∈ options.allowedClientIds, _ ∨ _))

/-! ## Resolvers -/

/-- What resolves the principal of a request: one of the four classes, with what it was built from. -/
inductive Resolver
  | localHeaders (tenantId : String) (roles : List String)
  | serviceToken (grants : List ServiceTokenGrant)
  | entra (options : EntraOptions)
  | delegated (edge : Resolver)

/-- `source`, which every principal of a resolver carries. -/
def Resolver.source : Resolver → String
  | .localHeaders _ _ | .serviceToken _ => "local"
  | .entra _ => "entra"
  | .delegated edge => edge.source

/-- `LocalHeaderPrincipalResolver.resolve`. -/
def resolveLocalHeaders (tenantId : String) (roles : List String) (headers : Headers) :
    Except AuthorizationDecision Principal := do
  let subjectId ← orThrow (unauthenticated "unknown" "authorization.principal_unauthenticated")
    (header headers "x-actor-id")
  let named := ((header headers "x-actor-roles").map namesIn).getD []
  return ⟨subjectId, (header headers "x-tenant-id").getD tenantId,
    if header headers "x-actor-type" = some "workload" then .workload else .human,
    if named = [] then roles else named⟩

variable (jwtVerify : VerifyOptions → String → Option Json)

/-- `EntraJwtPrincipalResolver.resolve`. -/
def resolveEntra (options : EntraOptions) (headers : Headers) :
    Except AuthorizationDecision Principal := do
  let token ← orThrow (unauthenticated "unknown" "authorization.principal_unauthenticated")
    ((header headers "authorization").bind bearerToken)
  let claims ← orThrow (unauthenticated "unknown" "authorization.token_invalid")
    (jwtVerify ⟨options.jwksUri, options.issuer, options.audience, ["RS256"], 5⟩ token)
  ensure (hasClaim claims "tid" = true → textClaim claims "tid" = some options.tenantId)
    (unauthenticated "unknown" "authorization.token_foreign_tenant")
  ensure (ClientPermitted options claims) (unauthenticated "unknown" "authorization.client_not_permitted")
  let tenantId ← orThrow (unauthenticated "unknown" "authorization.tenant_unassigned")
    ((options.resolveTenant claims).filter (· ≠ ""))
  let subjectId ← orThrow (unauthenticated "unknown" "authorization.subject_missing")
    ((subjectClaim claims).filter (· ≠ ""))
  return ⟨subjectId, tenantId, actorTypeOf claims, roleClaims claims⟩

/-- `resolve`. -/
def Resolver.resolve : Resolver → Headers → Except AuthorizationDecision Principal
  | .localHeaders tenantId roles, headers => resolveLocalHeaders tenantId roles headers
  | .serviceToken grants, headers => do
    let supplied ← orThrow (unauthenticated "workload" "authorization.principal_unauthenticated")
      ((firstValue headers "authorization").bind bearerToken)
    let grant ← orThrow (unauthenticated "workload" "authorization.service_token_invalid")
      (grants.find? fun candidate => supplied = candidate.token ∧ supplied ≠ "")
    return ⟨grant.subjectId, grant.tenantId, .workload, grant.roles⟩
  | .entra options, headers => resolveEntra jwtVerify options headers
  | .delegated edge, headers => do
    let edgePrincipal ← edge.resolve headers
    ensure (edgeDelegateRole ∈ edgePrincipal.roles)
      (unauthenticated "workload" "authorization.delegation_not_permitted")
    let subjectId ← orThrow (unauthenticated "workload" "authorization.delegated_actor_missing")
      (header headers "x-actor-id")
    let roles := ((header headers "x-actor-roles").map namesIn).getD []
    ensure (roles ≠ []) (unauthenticated "workload" "authorization.delegated_roles_missing")
    ensure (∀ tenant ∈ header headers "x-tenant-id", tenant = edgePrincipal.tenantId)
      (unauthenticated "workload" "authorization.delegated_tenant_mismatch")
    return ⟨subjectId, edgePrincipal.tenantId, .human, roles⟩

/-! ## Factories -/

section

variable (validUrl : String → Bool)

/-- The constructor of `EntraJwtPrincipalResolver`, which makes a URL of `jwksUri`. -/
def entraJwtPrincipalResolver (options : EntraOptions) : Except String Resolver := do
  ensure (validUrl options.jwksUri = true) "Invalid URL"
  return .entra options

/-- `https://login.microsoftonline.com/…`. -/
def entraUrl (tenantId path : String) : String :=
  "https://login.microsoftonline.com/" ++ tenantId ++ path

/-- The options of an environment, once its required variables are read. -/
def entraOptions (env : Env) (tenantId platformTenantId audience : String) : EntraOptions where
  tenantId := tenantId
  audience := audience
  issuer := (env "ENTRA_ISSUER").getD (entraUrl tenantId "/v2.0")
  jwksUri := (env "ENTRA_JWKS_URI").getD (entraUrl tenantId "/discovery/v2.0/keys")
  resolveTenant := fun claims =>
    if textClaim claims "tid" = some tenantId then some platformTenantId else none
  allowedClientIds := (setting env "ENTRA_ALLOWED_CLIENT_IDS").map namesIn

/-- The constructor of `LocalHeaderPrincipalResolver`. -/
def localHeaderPrincipalResolver (tenantId : String) (roles : List String) (env : Env) :
    Except String Resolver := do
  let azure ← isAzureMode env
  ensure (azure = false) "identity.local_resolver_forbidden_in_azure_mode"
  return .localHeaders tenantId roles

/-- The provider that an environment names, or that its mode implies. -/
def identityProvider (env : Env) : Except String String :=
  match env "IDENTITY_PROVIDER" with
  | some provider => .ok provider
  | none => (isAzureMode env).map fun azure => if azure then "entra" else "local_headers"

/-- `createPrincipalResolverFromEnv`. -/
def createPrincipalResolverFromEnv (env : Env) : Except String Resolver := do
  match ← identityProvider env with
  | "local_headers" =>
    let azure ← isAzureMode env
    ensure (azure = false) "identity.local_headers_forbidden_in_azure_mode"
    localHeaderPrincipalResolver ((env "LOCAL_DEFAULT_TENANT_ID").getD "tenant_demo")
      (namesIn ((env "LOCAL_DEFAULT_ROLES").getD "Harness.Reader")) env
  | "entra" =>
    let tenantId ← requiredEnv env "ENTRA_TENANT_ID"
    let platformTenantId ← requiredEnv env "PLATFORM_TENANT_ID"
    let audience ← requiredEnv env "ENTRA_API_AUDIENCE"
    entraJwtPrincipalResolver validUrl (entraOptions env tenantId platformTenantId audience)
  | provider => .error ("identity.provider_unsupported:" ++ provider)

/-- The constructor of `ServiceTokenPrincipalResolver`. -/
def serviceTokenPrincipalResolver (grants : List ServiceTokenGrant) (env : Env) :
    Except String Resolver := do
  let azure ← isAzureMode env
  ensure (azure = false) "identity.service_token_forbidden_in_azure_mode"
  ensure (grants ≠ []) "identity.service_token_grants_missing"
  match grants.find? fun grant => (Json.utf16 grant.token).length < 24 with
  | some grant => .error ("identity.service_token_too_short:" ++ grant.subjectId)
  | none => return .serviceToken grants

/-- `createWorkloadResolverFromEnv`. -/
def createWorkloadResolverFromEnv (grants : List ServiceTokenGrant) (env : Env) :
    Except String Resolver := do
  let azure ← isAzureMode env
  if azure then
    match ← createPrincipalResolverFromEnv validUrl env with
    | .entra options => return .entra options
    | _ => .error "identity.workload_resolver_requires_entra_in_azure_mode"
  else serviceTokenPrincipalResolver grants env

end

/-! ## The guard of a service -/

/-- The text of a type. -/
def PrincipalType.text : PrincipalType → String
  | .human => "human"
  | .workload => "workload"

/-- The decision on a principal. -/
def decided (principal : Option Principal) (action : PlatformAction) (resource : ResourceRef)
    (outcome : Outcome) (reasonCode : String) : AuthorizationDecision where
  outcome := outcome
  reasonCode := reasonCode
  action := action
  subjectId := (principal.map (·.subjectId)).getD "anonymous"
  actorType := (principal.map (·.actorType.text)).getD "unknown"
  tenantId := (principal.map (·.tenantId)).getD "unknown"
  resourceKind := resource.kind
  resourceId := resource.id

/-- `evaluate`, with the decision it makes. -/
def decisionOf (principal : Option Principal) (action : PlatformAction) (resource : ResourceRef) :
    AuthorizationDecision :=
  match principal with
  | none => decided none action resource .denied "authorization.principal_unauthenticated"
  | some p =>
    if action ∉ actionsForRoles p.roles then
      decided (some p) action resource .denied "authorization.role_missing"
    else if ∃ tenant ∈ resource.tenantId, tenant ≠ "" ∧ tenant ≠ p.tenantId then
      decided (some p) action resource .denied "authorization.tenant_mismatch"
    else decided (some p) action resource .allowed "authorization.role_granted"

/-- `Guard.require`: the decisions that are recorded, and the principal. -/
def Guard.require (resolver : Resolver) (headers : Headers) (action : PlatformAction)
    (resource : ResourceRef) : List AuthorizationDecision × Except AuthorizationDecision Principal :=
  match resolver.resolve jwtVerify headers with
  | .error decision =>
    ([{ decision with action := action, resourceKind := resource.kind, resourceId := resource.id }],
      .error decision)
  | .ok principal =>
    let decision := decisionOf (some principal) action resource
    ([decision], if decision.outcome = .denied then .error decision else .ok principal)

/-! ## Headers that were read -/

/-- What the services read of the headers. -/
def readHeaders (headers : Headers) : RequestHeaders where
  bearer := (firstValue headers "authorization").bind bearerToken
  actorId := (headers "x-actor-id").map fun values => trim (values.head?.getD "")
  actorRoles := ((header headers "x-actor-roles").map namesIn).getD []
  tenantId := header headers "x-tenant-id"

/-- What a resolver answers, with the reason code of a denial. -/
def reasons {α : Type} (answer : Except AuthorizationDecision α) : Except String α :=
  answer.mapError (·.reasonCode)

section

variable {α β : Type}

theorem reasons_bind (x : Except AuthorizationDecision α) (f : α → Except AuthorizationDecision β) :
    reasons (x >>= f) = reasons x >>= fun a => reasons (f a) := by
  cases x <;> rfl

theorem mapError_eq_ok {ε δ : Type} {x : Except ε α} {f : ε → δ} {a : α} :
    x.mapError f = .ok a ↔ x = .ok a := by
  cases x with
  | error e => exact iff_of_false nofun nofun
  | ok b => simp [Except.mapError]

theorem reasons_orThrow (decision : AuthorizationDecision) (o : Option α) :
    reasons (orThrow decision o) = orThrow decision.reasonCode o := by
  cases o <;> rfl

theorem reasons_ensure (decision : AuthorizationDecision) (p : Prop) [Decidable p] :
    reasons (ensure p decision) = ensure p decision.reasonCode := by
  unfold ensure
  split <;> rfl

end

theorem header_actorId (headers : Headers) :
    header headers "x-actor-id" = (readHeaders headers).actorId.filter (· ≠ "") := by
  have htrim : trim "" = "" := rfl
  rw [header, firstValue, readHeaders]
  cases h : headers "x-actor-id" with
  | none => rfl
  | some values =>
    cases values with
    | nil => simp [htrim, Option.filter]
    | cons value values => rfl

/-- **A shared token makes of the headers what it makes of those that were read.** -/
theorem resolve_serviceToken_eq (grants : List ServiceTokenGrant) (headers : Headers) :
    reasons ((Resolver.serviceToken grants).resolve jwtVerify headers) =
      resolveServiceToken grants (readHeaders headers) := by
  unfold Resolver.resolve resolveServiceToken
  simp only [reasons_bind, reasons_orThrow]
  rfl

/-- **A delegation makes of the headers what it makes of those that were read.** -/
theorem resolve_delegated_eq (edge : Resolver) (headers : Headers) :
    reasons ((Resolver.delegated edge).resolve jwtVerify headers) =
      resolveDelegated (fun _ => reasons (edge.resolve jwtVerify headers)) (readHeaders headers) := by
  rw [Resolver.resolve]
  unfold resolveDelegated
  simp only [reasons_bind, reasons_orThrow, reasons_ensure, header_actorId]
  rfl

theorem decisionOf_names (principal : Principal) (action : PlatformAction) (resource : ResourceRef) :
    (decisionOf (some principal) action resource).action = action ∧
    (decisionOf (some principal) action resource).resourceKind = resource.kind ∧
    (decisionOf (some principal) action resource).resourceId = resource.id := by
  simp only [decisionOf]
  split_ifs <;> exact ⟨rfl, rfl, rfl⟩

/-- The decision on a principal is what `evaluate` says of it. -/
theorem reasons_decisionOf (principal : Principal) (action : PlatformAction) (resource : ResourceRef) :
    reasons (if (decisionOf (some principal) action resource).outcome = .denied then
        .error (decisionOf (some principal) action resource) else .ok principal) =
      evaluate principal action (resource.tenantId.filter (· ≠ "")) >>= fun _ => pure principal := by
  have htenant : (∃ tenant ∈ resource.tenantId, tenant ≠ "" ∧ tenant ≠ principal.tenantId) ↔
      ¬ ∀ tenant ∈ resource.tenantId.filter (· ≠ ""), tenant = principal.tenantId := by
    cases resource.tenantId <;> simp [Option.filter]
  unfold evaluate ensure decisionOf
  by_cases hrole : action ∈ actionsForRoles principal.roles
  · simp only [hrole, not_true_eq_false, if_false, if_true, htenant]
    split_ifs <;> first | rfl | contradiction
  · simp only [hrole, not_false_eq_true, if_true, if_false]
    rfl

/-! ## What a resolver throws -/

/-- What is thrown is a denial that names nobody. -/
def Denies {α : Type} (answer : Except AuthorizationDecision α) : Prop :=
  ∀ decision, answer = .error decision →
    ∃ actorType reasonCode, decision = unauthenticated actorType reasonCode

section

variable {α β : Type}

theorem denies_pure (a : α) : Denies (pure a) := by
  rintro _ ⟨⟩

theorem denies_orThrow (actorType reasonCode : String) (o : Option α) :
    Denies (orThrow (unauthenticated actorType reasonCode) o) := by
  rintro decision h
  cases o with
  | none => exact ⟨_, _, (Except.error.inj h).symm⟩
  | some a => cases h

theorem denies_ensure (actorType reasonCode : String) (p : Prop) [Decidable p] :
    Denies (ensure p (unauthenticated actorType reasonCode)) := by
  rintro decision h
  unfold ensure at h
  split at h
  · cases h
  · exact ⟨_, _, (Except.error.inj h).symm⟩

theorem Denies.bind {x : Except AuthorizationDecision α} {f : α → Except AuthorizationDecision β}
    (hx : Denies x) (hf : ∀ a, Denies (f a)) : Denies (x >>= f) := by
  rintro decision h
  cases x with
  | error d =>
    obtain ⟨actorType, reasonCode, rfl⟩ := hx d rfl
    exact ⟨actorType, reasonCode, (Except.error.inj h).symm⟩
  | ok a => exact hf a decision h

end

theorem denies_resolveEntra (options : EntraOptions) (headers : Headers) :
    Denies (resolveEntra jwtVerify options headers) := by
  refine (denies_orThrow _ _ _).bind fun token => (denies_orThrow _ _ _).bind fun claims => ?_
  refine (denies_ensure _ _ _).bind fun _ => (denies_ensure _ _ _).bind fun _ => ?_
  refine (denies_orThrow _ _ _).bind fun tenantId => ?_
  exact (denies_orThrow _ _ _).bind fun subjectId => denies_pure _

/-- **No resolver throws anything of the request.** -/
theorem denies_resolve (resolver : Resolver) (headers : Headers) :
    Denies (resolver.resolve jwtVerify headers) := by
  induction resolver with
  | localHeaders tenantId roles => exact (denies_orThrow _ _ _).bind fun _ => denies_pure _
  | serviceToken grants =>
    exact (denies_orThrow _ _ _).bind fun _ => (denies_orThrow _ _ _).bind fun _ => denies_pure _
  | entra options => exact denies_resolveEntra jwtVerify options headers
  | delegated edge ih =>
    refine ih.bind fun principal => (denies_ensure _ _ _).bind fun _ => ?_
    refine (denies_orThrow _ _ _).bind fun subjectId => (denies_ensure _ _ _).bind fun _ => ?_
    exact (denies_ensure _ _ _).bind fun _ => denies_pure _

/-- **A guard records one decision for a request**, which says what was asked for and whether it was
allowed, and it lets through whom `require` lets through. -/
theorem guard_require (resolver : Resolver) (headers : Headers) (action : PlatformAction)
    (resource : ResourceRef) :
    (∃ decision, (Guard.require jwtVerify resolver headers action resource).1 = [decision] ∧
      decision.action = action ∧ decision.resourceKind = resource.kind ∧
      decision.resourceId = resource.id ∧
      (decision.outcome = .allowed ↔
        ∃ principal, (Guard.require jwtVerify resolver headers action resource).2 = .ok principal)) ∧
    reasons (Guard.require jwtVerify resolver headers action resource).2 =
      require (fun _ => reasons (resolver.resolve jwtVerify headers)) (readHeaders headers) action
        (resource.tenantId.filter (· ≠ "")) := by
  unfold Guard.require require
  cases h : resolver.resolve jwtVerify headers with
  | error decision =>
    obtain ⟨actorType, reasonCode, rfl⟩ := denies_resolve jwtVerify resolver headers decision h
    exact ⟨⟨_, rfl, rfl, rfl, rfl, by simp [unauthenticated]⟩, rfl⟩
  | ok principal =>
    refine ⟨⟨_, rfl, ?_⟩, reasons_decisionOf principal action resource⟩
    have hnames := decisionOf_names principal action resource
    refine ⟨hnames.1, hnames.2.1, hnames.2.2, ?_⟩
    dsimp only
    cases houtcome : (decisionOf (some principal) action resource).outcome <;> simp

/-- Who is let through may act. -/
theorem guard_require_eq_ok {resolver : Resolver} {headers : Headers} {action : PlatformAction}
    {resource : ResourceRef} {principal : Principal}
    (h : (Guard.require jwtVerify resolver headers action resource).2 = .ok principal) :
    resolver.resolve jwtVerify headers = .ok principal ∧ action ∈ actionsForRoles principal.roles ∧
      ∀ tenant ∈ resource.tenantId, tenant ≠ "" → tenant = principal.tenantId := by
  have hrequire := (guard_require jwtVerify resolver headers action resource).2
  rw [h] at hrequire
  obtain ⟨resolved, hresolved, hrequire⟩ := bind_eq_ok.mp hrequire.symm
  obtain ⟨_, hevaluate, hrequire⟩ := bind_eq_ok.mp hrequire
  obtain rfl := pure_eq_ok.mp hrequire
  unfold evaluate at hevaluate
  simp only [ensure_bind_eq_ok, ensure_eq_ok] at hevaluate
  refine ⟨mapError_eq_ok.mp hresolved, hevaluate.1, ?_⟩
  intro tenant htenant hne
  exact hevaluate.2 tenant (Option.filter_eq_some_iff.mpr ⟨htenant, by simpa using hne⟩)

/-! ## Azure -/

theorem setting_of_requiredEnv {env : Env} {name value : String} (h : requiredEnv env name = .ok value) :
    setting env name = some value :=
  orThrow_eq_ok.mp h

/-- The resolver believes what tokens say that were issued for the deployment. -/
def BelievesTokens (env : Env) (resolver : Resolver) : Prop :=
  ∃ tenantId platformTenantId audience, setting env "ENTRA_TENANT_ID" = some tenantId ∧
    setting env "PLATFORM_TENANT_ID" = some platformTenantId ∧
    setting env "ENTRA_API_AUDIENCE" = some audience ∧
    resolver = .entra (entraOptions env tenantId platformTenantId audience)

/-- **What an environment selects in Azure believes tokens only.** -/
theorem createPrincipalResolverFromEnv_azure {validUrl : String → Bool} {env : Env} {resolver : Resolver}
    (hazure : isAzureMode env = .ok true)
    (h : createPrincipalResolverFromEnv validUrl env = .ok resolver) : BelievesTokens env resolver := by
  unfold createPrincipalResolverFromEnv at h
  obtain ⟨provider, -, h⟩ := bind_eq_ok.mp h
  split at h
  · -- locally only
    rw [hazure] at h
    cases h
  · obtain ⟨tenantId, htenant, h⟩ := bind_eq_ok.mp h
    obtain ⟨platformTenantId, hplatform, h⟩ := bind_eq_ok.mp h
    obtain ⟨audience, haudience, h⟩ := bind_eq_ok.mp h
    rw [entraJwtPrincipalResolver, ensure_bind_eq_ok, pure_eq_ok] at h
    exact ⟨tenantId, platformTenantId, audience, setting_of_requiredEnv htenant,
      setting_of_requiredEnv hplatform, setting_of_requiredEnv haudience, h.2.symm⟩
  · cases h

theorem createWorkloadResolverFromEnv_azure {validUrl : String → Bool} {env : Env}
    {grants : List ServiceTokenGrant} {resolver : Resolver} (hazure : isAzureMode env = .ok true)
    (h : createWorkloadResolverFromEnv validUrl grants env = .ok resolver) :
    BelievesTokens env resolver := by
  rw [createWorkloadResolverFromEnv, hazure, ok_bind, if_pos rfl] at h
  obtain ⟨selected, hselected, h⟩ := bind_eq_ok.mp h
  split at h
  · rw [pure_eq_ok] at h
    rw [← h]
    exact createPrincipalResolverFromEnv_azure hazure hselected
  · cases h

/-- The principal is who a token says that was verified for the deployment. -/
def Vouched (env : Env) (headers : Headers) (principal : Principal) : Prop :=
  ∃ tenantId audience token claims,
    setting env "ENTRA_TENANT_ID" = some tenantId ∧
    setting env "PLATFORM_TENANT_ID" = some principal.tenantId ∧
    setting env "ENTRA_API_AUDIENCE" = some audience ∧
    (header headers "authorization").bind bearerToken = some token ∧
    jwtVerify ⟨(env "ENTRA_JWKS_URI").getD (entraUrl tenantId "/discovery/v2.0/keys"),
      (env "ENTRA_ISSUER").getD (entraUrl tenantId "/v2.0"), audience, ["RS256"], 5⟩ token = some claims ∧
    textClaim claims "tid" = some tenantId ∧
    (∀ allowed ∈ (setting env "ENTRA_ALLOWED_CLIENT_IDS").map namesIn,
      allowed = [] ∨ ∃ id ∈ clientId claims, id ≠ "" ∧ id ∈ allowed) ∧
    subjectClaim claims = some principal.subjectId ∧ principal.subjectId ≠ "" ∧
    principal.roles = roleClaims claims ∧
    (principal.actorType = .human ↔ textClaim claims "idtyp" ≠ some "app" ∧ hasClaim claims "name" = true)

theorem setting_ne_empty {env : Env} {name value : String} (h : setting env name = some value) :
    value ≠ "" := by
  have h := (Option.filter_eq_some_iff.mp h).2
  simpa using h

theorem actorTypeOf_eq_human {claims : Json} :
    actorTypeOf claims = .human ↔
      textClaim claims "idtyp" ≠ some "app" ∧ hasClaim claims "name" = true := by
  unfold actorTypeOf
  split
  · next h =>
    refine iff_of_false nofun ?_
    rintro ⟨happ, hname⟩
    rcases h with h | h
    · exact happ h
    · rw [hname] at h
      cases h
  · next h =>
    obtain ⟨happ, hname⟩ := not_or.mp h
    exact iff_of_true rfl ⟨happ, Bool.eq_true_of_not_eq_false hname⟩

/-- **The principal that a deployment takes from a token.** -/
theorem resolveEntra_entraOptions {env : Env} {tenantId platformTenantId audience : String}
    (htenant : setting env "ENTRA_TENANT_ID" = some tenantId)
    (hplatform : setting env "PLATFORM_TENANT_ID" = some platformTenantId)
    (haudience : setting env "ENTRA_API_AUDIENCE" = some audience) (headers : Headers)
    (principal : Principal) :
    resolveEntra jwtVerify (entraOptions env tenantId platformTenantId audience) headers = .ok principal ↔
      Vouched jwtVerify env headers principal := by
  unfold resolveEntra Vouched
  simp only [orThrow_bind_eq_ok, ensure_bind_eq_ok, pure_eq_ok, Option.filter_eq_some_iff,
    decide_eq_true_eq]
  constructor
  · rintro ⟨token, htoken, claims, hclaims, -, hclient, tenant, ⟨hresolved, -⟩, subjectId,
      ⟨hsubject, hne⟩, rfl⟩
    rw [entraOptions] at hresolved
    dsimp only at hresolved
    split at hresolved
    · next htid =>
      cases hresolved
      refine ⟨tenantId, audience, token, claims, htenant, hplatform, haudience, htoken, hclaims, htid,
        hclient, hsubject, hne, rfl, ?_⟩
      rw [← actorTypeOf_eq_human]
    · cases hresolved
  · rintro ⟨tenantId', audience', token, claims, htenant', hplatform', haudience', htoken, hclaims, htid,
      hclient, hsubject, hne, hroles, htype⟩
    obtain rfl := Option.some.inj (htenant.symm.trans htenant')
    obtain rfl := Option.some.inj (hplatform.symm.trans hplatform')
    obtain rfl := Option.some.inj (haudience.symm.trans haudience')
    refine ⟨token, htoken, claims, hclaims, fun _ => htid, hclient, principal.tenantId,
      ⟨if_pos htid, setting_ne_empty hplatform⟩, principal.subjectId, ⟨hsubject, hne⟩, ?_⟩
    have hactor : actorTypeOf claims = principal.actorType := by
      cases hp : principal.actorType with
      | human => exact actorTypeOf_eq_human.mpr (htype.mp hp)
      | workload =>
        cases hc : actorTypeOf claims with
        | human => rw [htype.mpr (actorTypeOf_eq_human.mp hc)] at hp; cases hp
        | workload => rfl
    rw [hactor, ← hroles]

theorem BelievesTokens.resolve_eq_ok {env : Env} {resolver : Resolver} (h : BelievesTokens env resolver)
    (headers : Headers) (principal : Principal) :
    resolver.resolve jwtVerify headers = .ok principal ↔ Vouched jwtVerify env headers principal := by
  obtain ⟨tenantId, platformTenantId, audience, htenant, hplatform, haudience, rfl⟩ := h
  exact resolveEntra_entraOptions jwtVerify htenant hplatform haudience headers principal

/-- **Nothing but the token counts.** -/
theorem BelievesTokens.resolve_congr {env : Env} {resolver : Resolver} (h : BelievesTokens env resolver)
    {headers headers' : Headers} (hauthorization : headers "authorization" = headers' "authorization") :
    resolver.resolve jwtVerify headers = resolver.resolve jwtVerify headers' := by
  obtain ⟨tenantId, platformTenantId, audience, -, -, -, rfl⟩ := h
  have hheader : header headers "authorization" = header headers' "authorization" := by
    rw [header, header, firstValue, firstValue, hauthorization]
  simp only [Resolver.resolve, resolveEntra, hheader]

end Identity

end HarnessFramework
