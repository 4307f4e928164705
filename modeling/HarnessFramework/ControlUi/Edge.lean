import HarnessFramework.Identity.Deployment

/-!
# The edge

`apps/control-ui`: how a person reaches the services. `proxy` finds out who sent a request to the control
surface and writes that into headers of its own. The pages read these headers and call the services
with them and with a token of the control surface, and the services believe what the headers say because
of the token.

Names of headers are in lower case. What is sent along beside identity, such as an idempotency key,
is left out: no resolver reads it.

## Main definitions

* `proxy` — the headers that go on, or the refusal
* `edgeHeaders` — the headers of a call to a service
* `edgeRequest` — both, one after another

## Main results

* `edgeRequest_principal` — whom a service takes the sender for
* `edgeRequest_congr` — what a sender in Azure can influence by headers
* `edge_identity` — in Azure it is who signed in, with the roles and in the tenant of the token
-/

namespace HarnessFramework

namespace ControlUi

open Checks Identity

open RuntimeCore (isSpace)

/-! ## Header values -/

/-- White space of HTTP. -/
def isHttpSpace (c : Char) : Bool := c = '\t' || c = '\n' || c = '\r' || c = ' '

/-- What is left of a text without the white space around it. -/
def stripHttp (cs : List Char) : List Char := (cs.dropWhile isHttpSpace).rdropWhile isHttpSpace

/-- A character that the value of a header may have. -/
def isValueChar (c : Char) : Bool := c.toNat < 256 && c.toNat ≠ 0 && c ≠ '\n' && c ≠ '\r'

/-- What `Headers.set` keeps of a text. It throws if the text is no value of a header. -/
def headerValue (text : String) : Option String :=
  if (stripHttp text.toList).all isValueChar then
    some (String.ofList (stripHttp text.toList))
  else none

/-! ## The proxy -/

/-- A request to the control surface. A name has one value, which is joined if it was sent twice. -/
structure UiRequest where
  pathname : String
  headers : String → Option String

/-- A response other than that of a page. -/
structure Refusal where
  status : ℕ
  error : String
deriving DecidableEq

/-- What `proxy` answers when something else than an `AuthorizationError` is thrown. -/
def configurationInvalid : Refusal := ⟨503, "authorization.configuration_invalid"⟩

/-- `httpStatus` and `reasonCode` of an `AuthorizationError`. -/
def refusalOf (decision : AuthorizationDecision) : Refusal :=
  ⟨if decision.reasonCode = "authorization.principal_unauthenticated" then 401 else 403,
    decision.reasonCode⟩

/-- `/\/v1\/authoring\/drafts\/[^/]+\/(approve|publish)$/`. -/
def approvalRoute (pathname : String) : Bool :=
  match (pathname.toList.splitOn '/').reverse with
  | action :: draft :: drafts :: authoring :: version :: _ :: _ =>
    (action = "approve".toList || action = "publish".toList) && draft ≠ [] && drafts = "drafts".toList &&
      authoring = "authoring".toList && version = "v1".toList
  | _ => false

/-- `localAutomaticPrincipal`. -/
def localAutomaticPrincipal (env : Env) (request : UiRequest) : Except String (Option Principal) := do
  let azure ← isAzureMode env
  if azure = true ∨ env "CONTROL_UI_LOCAL_AUTOLOGIN" ≠ some "true" then return none
  let useApprover : Bool :=
    approvalRoute request.pathname ∧ env "CONTROL_UI_LOCAL_AUTOMATED_APPROVAL" = some "true"
  let subjectId := if useApprover then (env "CONTROL_UI_APPROVER_ID").getD "local-approver"
    else (env "CONTROL_UI_ACTOR_ID").getD "local-author"
  let roles := if useApprover then (env "CONTROL_UI_APPROVER_ROLES").getD "Harness.Reader,Harness.Approver"
    else (env "CONTROL_UI_ACTOR_ROLES").getD
      "Harness.Reader,Harness.Author,Harness.Operator,Case.Analyst,Case.Reviewer"
  return some ⟨subjectId,
    ((env "LOCAL_DEFAULT_TENANT_ID").or (env "CASE_UI_TENANT_ID")).getD "tenant_demo",
    .human, namesIn roles⟩

section

variable (jwtVerify : VerifyOptions → String → Option Json) (validUrl : String → Bool)

/-- Who sent a request, and the source of that. -/
def edgePrincipal (env : Env) (request : UiRequest) : Except Refusal (Principal × String) := do
  let automatic ← (localAutomaticPrincipal env request).mapError fun _ => configurationInvalid
  match automatic with
  | some principal => return (principal, "local")
  | none =>
    let resolver ← (createPrincipalResolverFromEnv validUrl env).mapError fun _ => configurationInvalid
    let principal ← (resolver.resolve jwtVerify fun name =>
      (request.headers name).map fun value => [value]).mapError refusalOf
    return (principal, resolver.source)

/-- The names in a text with commas, as `roles.join(",")` makes it. -/
def joined (roles : List String) : String := String.ofList ([','].intercalate (roles.map String.toList))

/-- What `proxy` says of a sender. -/
structure EdgeIdentity where
  subject : String
  tenant : String
  roles : String
  source : String

/-- What `proxy` says of a sender, who must be a person. -/
def edgeIdentity (principal : Principal) (source : String) : Except Refusal EdgeIdentity := do
  ensure (principal.actorType = .human) ⟨403, "authorization.interactive_user_required"⟩
  let subject ← orThrow configurationInvalid (headerValue principal.subjectId)
  let tenant ← orThrow configurationInvalid (headerValue principal.tenantId)
  let roles ← orThrow configurationInvalid (headerValue (joined principal.roles))
  let source ← orThrow configurationInvalid (headerValue source)
  return ⟨subject, tenant, roles, source⟩

/-- The headers of a request, with those that `proxy` sets. -/
def forwardedHeaders (identity : EdgeIdentity) (headers : String → Option String) :
    String → Option String := fun name =>
  if name = "x-ehf-authenticated-subject" then some identity.subject
  else if name = "x-ehf-authenticated-tenant" then some identity.tenant
  else if name = "x-ehf-authenticated-roles" then some identity.roles
  else if name = "x-ehf-authenticated-source" then some identity.source
  else headers name

/-- `proxy`: the headers that go on to a page. -/
def proxy (env : Env) (request : UiRequest) : Except Refusal (String → Option String) := do
  let user ← edgePrincipal jwtVerify validUrl env request
  let identity ← edgeIdentity user.1 user.2
  return forwardedHeaders identity request.headers

/-! ## Calls to services -/

variable (accessToken : String → Option String)

/-- `edgeAuthorization`: a shared token, or an access token for a scope. -/
def edgeAuthorization (env : Env) : Except String String := do
  let azure ← isAzureMode env
  if azure then
    let scope ← orThrow "control_ui.edge_token_scope_missing" (setting env "EDGE_TOKEN_SCOPE")
    let token ← orThrow "control_ui.edge_token_unavailable" (accessToken scope)
    return "Bearer " ++ token
  else
    let token ← orThrow "control_ui.edge_service_token_missing" (setting env "EDGE_SERVICE_TOKEN")
    return "Bearer " ++ token

/-- The headers of a call to a service. -/
def serviceHeaders (authorization subjectId roles tenantId : String) : Headers := fun name =>
  if name = "authorization" then some [authorization]
  else if name = "x-actor-id" then some [subjectId]
  else if name = "x-actor-roles" then some [roles]
  else if name = "x-tenant-id" then some [tenantId]
  else none

def contextMissing : String := "control_ui.authenticated_context_missing"

/-- `edgeHeaders`, with what `fetch` keeps of the authorization. -/
def edgeHeaders (env : Env) (incoming : String → Option String) : Except String Headers := do
  let subjectId ← orThrow contextMissing (setting incoming "x-ehf-authenticated-subject")
  let tenantId ← orThrow contextMissing (setting incoming "x-ehf-authenticated-tenant")
  let roles ← orThrow contextMissing (setting incoming "x-ehf-authenticated-roles")
  let authorization ← edgeAuthorization accessToken env
  let authorization ← orThrow "Invalid header value" (headerValue authorization)
  return serviceHeaders authorization subjectId roles tenantId

/-- What a service is sent for a request to the control surface. -/
def edgeRequest (env : Env) (request : UiRequest) : Except Refusal Headers := do
  let forwarded ← proxy jwtVerify validUrl env request
  (edgeHeaders accessToken env forwarded).mapError fun message => ⟨500, message⟩

end

/-! ## White space around texts -/

section

variable {α : Type} {f : List Char → α}

theorem isSpace_of_isHttpSpace {c : Char} (hc : isHttpSpace c = true) : isSpace c = true := by
  simp only [isHttpSpace, Bool.or_eq_true, decide_eq_true_eq] at hc
  rcases hc with ((rfl | rfl) | rfl) | rfl <;> decide

/-- What spaces around a text do not change, taking them away does not change. -/
theorem strip_invariant {p : Char → Bool} (hp : ∀ c, p c = true → isSpace c = true)
    (hcons : ∀ c cs, isSpace c = true → f (c :: cs) = f cs)
    (hsnoc : ∀ c cs, isSpace c = true → f (cs ++ [c]) = f cs) (cs : List Char) :
    f ((cs.dropWhile p).rdropWhile p) = f cs := by
  have hfront : ∀ cs, f (cs.dropWhile p) = f cs := by
    intro cs
    induction cs with
    | nil => rfl
    | cons c cs ih =>
      rw [List.dropWhile_cons]
      split
      · next hc => rw [ih, hcons c cs (hp c hc)]
      · rfl
  have hback : ∀ cs, f (cs.rdropWhile p) = f cs := by
    intro cs
    induction cs using List.reverseRecOn with
    | nil => rfl
    | append_singleton cs c ih =>
      by_cases hc : p c = true
      · rw [List.rdropWhile_concat_pos _ _ _ hc, ih, hsnoc c cs (hp c hc)]
      · rw [List.rdropWhile_concat_neg _ _ _ hc]
  rw [hback, hfront]

end

theorem trim_cons {c : Char} (hc : isSpace c = true) (cs : List Char) :
    trim (String.ofList (c :: cs)) = trim (String.ofList cs) := by
  rw [trim, trim, String.toList_ofList, String.toList_ofList, List.dropWhile_cons_of_pos hc]

theorem trim_snoc {c : Char} (hc : isSpace c = true) (cs : List Char) :
    trim (String.ofList (cs ++ [c])) = trim (String.ofList cs) := by
  rw [trim, trim, String.toList_ofList, String.toList_ofList, List.dropWhile_append]
  split
  · next hall =>
    rw [List.isEmpty_iff] at hall
    rw [hall, List.dropWhile_cons_of_pos hc]
    rfl
  · rw [List.rdropWhile_concat_pos _ _ _ hc]

theorem trim_stripHttp (cs : List Char) :
    trim (String.ofList (stripHttp cs)) = trim (String.ofList cs) :=
  @strip_invariant _ (fun cs => trim (String.ofList cs)) _ (fun _ => isSpace_of_isHttpSpace)
    (fun _ cs hc => trim_cons hc cs) (fun _ cs hc => trim_snoc hc cs) cs

/-! ## Names with commas between them -/

theorem namesIn_append (as bs : List Char) : namesIn (String.ofList (as ++ ',' :: bs)) =
    namesIn (String.ofList as) ++ namesIn (String.ofList bs) := by
  simp only [namesIn, String.toList_ofList, List.splitOn_append_cons_self, List.map_append,
    List.filter_append]

/-- A text without commas. -/
theorem namesIn_of_notMem {cs : List Char} (h : ',' ∉ cs) :
    namesIn (String.ofList cs) = [trim (String.ofList cs)].filter (· ≠ "") := by
  rw [namesIn, String.toList_ofList, List.splitOn_eq_singleton h]
  rfl

theorem comma_ne_space {c : Char} (hc : isSpace c = true) : ',' ≠ c := by
  rintro rfl
  exact absurd hc (by decide)

theorem namesIn_cons {c : Char} (hc : isSpace c = true) (cs : List Char) :
    namesIn (String.ofList (c :: cs)) = namesIn (String.ofList cs) := by
  have hplain : ∀ as : List Char, ',' ∉ as →
      namesIn (String.ofList (c :: as)) = namesIn (String.ofList as) := by
    intro as has
    have hcomma : ',' ∉ c :: as := List.not_mem_cons_of_ne_of_not_mem (comma_ne_space hc) has
    rw [namesIn_of_notMem hcomma, namesIn_of_notMem has, trim_cons hc]
  by_cases hcomma : ',' ∈ cs
  · obtain ⟨as, bs, rfl, has⟩ := List.eq_append_cons_of_mem hcomma
    rw [← List.cons_append, namesIn_append, namesIn_append, hplain as has]
  · exact hplain cs hcomma

theorem namesIn_snoc {c : Char} (hc : isSpace c = true) (cs : List Char) :
    namesIn (String.ofList (cs ++ [c])) = namesIn (String.ofList cs) := by
  have hplain : ∀ as : List Char, ',' ∉ as →
      namesIn (String.ofList (as ++ [c])) = namesIn (String.ofList as) := by
    intro as has
    have hcomma : ',' ∉ as ++ [c] := by
      rw [List.mem_append, List.mem_singleton]
      exact not_or.mpr ⟨has, comma_ne_space hc⟩
    rw [namesIn_of_notMem hcomma, namesIn_of_notMem has, trim_snoc hc]
  by_cases hcomma : ',' ∈ cs
  · -- the piece after the last comma
    obtain ⟨as, bs, hsplit, has⟩ := List.eq_append_cons_of_mem (List.mem_reverse.mpr hcomma)
    have hcs : cs = bs.reverse ++ ',' :: as.reverse := by
      rw [← List.reverse_reverse cs, hsplit, List.reverse_append, List.reverse_cons, List.append_assoc]
      rfl
    rw [hcs, List.append_assoc, List.cons_append, namesIn_append, namesIn_append,
      hplain as.reverse (fun hmem => has (List.mem_reverse.mp hmem))]
  · exact hplain cs hcomma

theorem namesIn_strip {p : Char → Bool} (hp : ∀ c, p c = true → isSpace c = true) (cs : List Char) :
    namesIn (String.ofList ((cs.dropWhile p).rdropWhile p)) = namesIn (String.ofList cs) :=
  @strip_invariant _ (fun cs => namesIn (String.ofList cs)) _ hp (fun _ cs hc => namesIn_cons hc cs)
    (fun _ cs hc => namesIn_snoc hc cs) cs

theorem namesIn_trim (text : String) : namesIn (trim text) = namesIn text := by
  rw [trim, namesIn_strip (fun _ hc => hc), String.ofList_toList]

/-- **The names in joined texts are those in each.** -/
theorem namesIn_joined (roles : List String) : namesIn (joined roles) = roles.flatMap namesIn := by
  have hempty : namesIn (String.ofList []) = [] := by decide
  induction roles with
  | nil => exact hempty
  | cons role roles ih =>
    rw [joined] at ih ⊢
    cases roles with
    | nil =>
      rw [List.map_singleton, List.intercalate_singleton, String.ofList_toList, List.flatMap_singleton]
    | cons next roles =>
      rw [List.map_cons, List.map_cons, List.intercalate_cons_cons, ← List.map_cons, List.append_assoc,
        List.singleton_append, namesIn_append, ih, String.ofList_toList]
      rfl

theorem trim_of_headerValue {text value : String} (h : headerValue text = some value) :
    trim value = trim text := by
  unfold headerValue at h
  split at h
  · rw [← Option.some.inj h, trim_stripHttp, String.ofList_toList]
  · cases h

theorem namesIn_of_headerValue {text value : String} (h : headerValue text = some value) :
    namesIn value = namesIn text := by
  unfold headerValue at h
  split at h
  · rw [← Option.some.inj h, stripHttp, namesIn_strip (fun _ => isSpace_of_isHttpSpace),
      String.ofList_toList]
  · cases h

/-! ## The request that a service gets -/

section

variable (jwtVerify : VerifyOptions → String → Option Json) {validUrl : String → Bool}
  {accessToken : String → Option String} {env : Env} {request request' : UiRequest} {sent : Headers}

/-- What is read of the headers of a request is what `proxy` set, whatever the sender put there. -/
theorem setting_forwarded (identity : EdgeIdentity) (headers : String → Option String) :
    setting (forwardedHeaders identity headers) "x-ehf-authenticated-subject" =
        (some identity.subject).filter (· ≠ "") ∧
      setting (forwardedHeaders identity headers) "x-ehf-authenticated-tenant" =
        (some identity.tenant).filter (· ≠ "") ∧
      setting (forwardedHeaders identity headers) "x-ehf-authenticated-roles" =
        (some identity.roles).filter (· ≠ "") := by
  simp [setting, forwardedHeaders]

/-- What a service is sent. -/
theorem edgeRequest_eq_ok (h : edgeRequest jwtVerify validUrl accessToken env request = .ok sent) :
    ∃ user source subject tenant roles authorization,
      edgePrincipal jwtVerify validUrl env request = .ok (user, source) ∧ user.actorType = .human ∧
      headerValue user.subjectId = some subject ∧ headerValue user.tenantId = some tenant ∧
      headerValue (joined user.roles) = some roles ∧
      sent = serviceHeaders authorization subject roles tenant := by
  unfold edgeRequest at h
  obtain ⟨forwarded, hproxy, h⟩ := bind_eq_ok.mp h
  unfold proxy at hproxy
  obtain ⟨⟨user, source⟩, huser, hproxy⟩ := bind_eq_ok.mp hproxy
  obtain ⟨identity, hidentity, hproxy⟩ := bind_eq_ok.mp hproxy
  obtain rfl := pure_eq_ok.mp hproxy
  unfold edgeIdentity at hidentity
  simp only [ensure_bind_eq_ok, orThrow_bind_eq_ok, pure_eq_ok] at hidentity
  obtain ⟨hhuman, subject, hsubject, tenant, htenant, roles, hroles, sourceValue, -, rfl⟩ := hidentity
  obtain ⟨hgetSubject, hgetTenant, hgetRoles⟩ :=
    setting_forwarded ⟨subject, tenant, roles, sourceValue⟩ request.headers
  rw [mapError_eq_ok] at h
  unfold edgeHeaders at h
  simp only [orThrow_bind_eq_ok, hgetSubject, hgetTenant, hgetRoles, Option.filter_eq_some_iff,
    Option.some.injEq] at h
  obtain ⟨_, ⟨rfl, -⟩, _, ⟨rfl, -⟩, _, ⟨rfl, -⟩, h⟩ := h
  obtain ⟨_, -, h⟩ := bind_eq_ok.mp h
  obtain ⟨authorization, -, h⟩ := orThrow_bind_eq_ok.mp h
  exact ⟨user, source, _, _, _, authorization, huser, hhuman, hsubject, htenant, hroles,
    (pure_eq_ok.mp h).symm⟩

/-- **The service takes the sender for whom the edge took it**, in the tenant of the edge. -/
theorem edgeRequest_principal (hsent : edgeRequest jwtVerify validUrl accessToken env request = .ok sent)
    {workload : Resolver} {principal : Principal}
    (hprincipal : (Resolver.delegated workload).resolve jwtVerify sent = .ok principal) :
    ∃ user source edge, edgePrincipal jwtVerify validUrl env request = .ok (user, source) ∧
      user.actorType = .human ∧ workload.resolve jwtVerify sent = .ok edge ∧
      edgeDelegateRole ∈ edge.roles ∧
      principal = ⟨trim user.subjectId, edge.tenantId, .human, user.roles.flatMap namesIn⟩ ∧
      (trim user.tenantId ≠ "" → trim user.tenantId = edge.tenantId) := by
  obtain ⟨user, source, subject, tenant, roles, authorization, huser, hhuman, hsubject, htenant, hroles,
    rfl⟩ := edgeRequest_eq_ok jwtVerify hsent
  rw [Resolver.resolve] at hprincipal
  obtain ⟨edge, hedge, hprincipal⟩ := bind_eq_ok.mp hprincipal
  have hactor : header (serviceHeaders authorization subject roles tenant) "x-actor-id" =
      (some (trim user.subjectId)).filter (· ≠ "") := by
    rw [← trim_of_headerValue hsubject]
    simp [header, firstValue, serviceHeaders]
  have hnames : header (serviceHeaders authorization subject roles tenant) "x-actor-roles" =
      (some (trim roles)).filter (· ≠ "") := by
    simp [header, firstValue, serviceHeaders]
  have hscope : header (serviceHeaders authorization subject roles tenant) "x-tenant-id" =
      (some (trim user.tenantId)).filter (· ≠ "") := by
    rw [← trim_of_headerValue htenant]
    simp [header, firstValue, serviceHeaders]
  simp only [ensure_bind_eq_ok, orThrow_bind_eq_ok, pure_eq_ok, hactor, hscope, Option.filter_eq_some_iff,
    Option.some.injEq] at hprincipal
  obtain ⟨hdelegate, _, ⟨rfl, -⟩, hnonempty, htenants, rfl⟩ := hprincipal
  refine ⟨user, source, edge, huser, hhuman, hedge, hdelegate, ?_, ?_⟩
  · have hroles : ((header (serviceHeaders authorization subject roles tenant) "x-actor-roles").map
        namesIn).getD [] = user.roles.flatMap namesIn := by
      rw [← namesIn_joined, ← namesIn_of_headerValue hroles, ← namesIn_trim roles, hnames]
      by_cases hblank : trim roles = ""
      · rw [hblank]
        decide
      · simp [Option.filter, hblank]
    rw [hroles]
  · intro hne
    exact htenants _ (by simpa [Option.filter] using hne)

/-! ## In Azure -/

/-- The headers of a request as its resolver reads them. -/
def UiRequest.single (request : UiRequest) : Headers := fun name =>
  (request.headers name).map fun value => [value]

variable (hazure : isAzureMode env = .ok true)
include hazure

theorem localAutomaticPrincipal_azure : localAutomaticPrincipal env request = .ok none := by
  rw [localAutomaticPrincipal, hazure, ok_bind, if_pos (.inl rfl)]
  rfl

/-- Who sent a request in Azure is who its token says. -/
theorem edgePrincipal_azure {user : Principal} {source : String}
    (h : edgePrincipal jwtVerify validUrl env request = .ok (user, source)) :
    Vouched jwtVerify env request.single user := by
  rw [edgePrincipal, localAutomaticPrincipal_azure hazure] at h
  change ((createPrincipalResolverFromEnv validUrl env).mapError _ >>= _) = _ at h
  obtain ⟨resolver, hresolver, h⟩ := bind_eq_ok.mp h
  obtain ⟨principal, hprincipal, h⟩ := bind_eq_ok.mp h
  obtain ⟨rfl, -⟩ := Prod.ext_iff.mp (pure_eq_ok.mp h)
  have hbelieves := createPrincipalResolverFromEnv_azure hazure (mapError_eq_ok.mp hresolver)
  exact (hbelieves.resolve_eq_ok jwtVerify _ _).mp (mapError_eq_ok.mp hprincipal)

theorem edgePrincipal_congr (h : request.headers "authorization" = request'.headers "authorization") :
    edgePrincipal jwtVerify validUrl env request = edgePrincipal jwtVerify validUrl env request' := by
  rw [edgePrincipal, edgePrincipal, localAutomaticPrincipal_azure hazure,
    localAutomaticPrincipal_azure hazure]
  change ((createPrincipalResolverFromEnv validUrl env).mapError _ >>= _) =
    ((createPrincipalResolverFromEnv validUrl env).mapError _ >>= _)
  cases hresolver : createPrincipalResolverFromEnv validUrl env with
  | error message => rfl
  | ok resolver =>
    have hbelieves := createPrincipalResolverFromEnv_azure hazure hresolver
    have hsame : resolver.resolve jwtVerify request.single = resolver.resolve jwtVerify request'.single :=
      hbelieves.resolve_congr jwtVerify (congrArg (Option.map fun value => [value]) h)
    change ((resolver.resolve jwtVerify request.single).mapError refusalOf >>= _) =
      ((resolver.resolve jwtVerify request'.single).mapError refusalOf >>= _)
    rw [hsame]

/-- **A sender in Azure influences what a service is sent by its authorization alone.** -/
theorem edgeRequest_congr (h : request.headers "authorization" = request'.headers "authorization") :
    edgeRequest jwtVerify validUrl accessToken env request =
      edgeRequest jwtVerify validUrl accessToken env request' := by
  have hread : ∀ identity headers, edgeHeaders accessToken env (forwardedHeaders identity headers) =
      edgeHeaders accessToken env (forwardedHeaders identity fun _ => none) := by
    intro identity headers
    obtain ⟨hsubject, htenant, hroles⟩ := setting_forwarded identity headers
    obtain ⟨hsubject', htenant', hroles'⟩ := setting_forwarded identity fun _ => none
    rw [edgeHeaders, edgeHeaders, hsubject, htenant, hroles, hsubject', htenant', hroles']
  rw [edgeRequest, edgeRequest, proxy, proxy, edgePrincipal_congr jwtVerify hazure h]
  cases edgePrincipal jwtVerify validUrl env request' with
  | error refusal => rfl
  | ok user =>
    rw [ok_bind, ok_bind]
    cases edgeIdentity user.1 user.2 with
    | error refusal => rfl
    | ok identity =>
      change (edgeHeaders accessToken env (forwardedHeaders identity request.headers)).mapError _ =
        (edgeHeaders accessToken env (forwardedHeaders identity request'.headers)).mapError _
      rw [hread identity request.headers, hread identity request'.headers]

/-- **Who acts through the edge in Azure is who signed in.** The service takes subject and roles from the
token of the sender, and the tenant from the token of the edge, which must be permitted to delegate;
the tenant of the sender is that one too. The action is one that the roles permit. No other header of the
sender makes a difference. -/
theorem edge_identity {api : Env} (hapi : isAzureMode api = .ok true) {grants : List ServiceTokenGrant}
    {workload : Resolver} (hworkload : createWorkloadResolverFromEnv validUrl grants api = .ok workload)
    (hsent : edgeRequest jwtVerify validUrl accessToken env request = .ok sent) (action : PlatformAction)
    (resource : ResourceRef) :
    (∀ principal, (Guard.require jwtVerify (.delegated workload) sent action resource).2 = .ok principal →
      ∃ user edge, Vouched jwtVerify env request.single user ∧ user.actorType = .human ∧
        Vouched jwtVerify api sent edge ∧ edgeDelegateRole ∈ edge.roles ∧
        principal = ⟨trim user.subjectId, edge.tenantId, .human, user.roles.flatMap namesIn⟩ ∧
        (trim user.tenantId ≠ "" → trim user.tenantId = edge.tenantId) ∧
        action ∈ actionsForRoles principal.roles ∧
        ∀ tenant ∈ resource.tenantId, tenant ≠ "" → tenant = edge.tenantId) ∧
    ∀ request' : UiRequest, request'.headers "authorization" = request.headers "authorization" →
      edgeRequest jwtVerify validUrl accessToken env request' = .ok sent := by
  constructor
  · intro principal hprincipal
    obtain ⟨hresolved, haction, hscope⟩ := guard_require_eq_ok jwtVerify hprincipal
    obtain ⟨user, source, edge, huser, hhuman, hedge, hdelegate, rfl, htenant⟩ :=
      edgeRequest_principal jwtVerify hsent hresolved
    have hbelieves := createWorkloadResolverFromEnv_azure hapi hworkload
    exact ⟨user, edge, edgePrincipal_azure jwtVerify hazure huser, hhuman,
      (hbelieves.resolve_eq_ok jwtVerify sent edge).mp hedge, hdelegate, rfl, htenant, haction, hscope⟩
  · intro request' hauthorization
    rw [edgeRequest_congr jwtVerify hazure hauthorization, hsent]

end

namespace Sample

/-- An environment of Azure. -/
def azureEnv : Env := fun name =>
  match name with
  | "PLATFORM_MODE" => some "azure"
  | "ENTRA_TENANT_ID" => some "entra-tenant"
  | "PLATFORM_TENANT_ID" => some "tenant_demo"
  | "ENTRA_API_AUDIENCE" => some "api://ehf-internal"
  | "EDGE_TOKEN_SCOPE" => some "api://ehf-internal/.default"
  | _ => none

/-- A token of a person and one of the control surface. -/
def verifyJwt (options : VerifyOptions) (token : String) : Option Json :=
  if options.audience = "api://ehf-internal" then
    match token with
    | "person" => some (.obj [("tid", .str "entra-tenant"), ("oid", .str "ada"), ("name", .str "Ada"),
        ("roles", .arr [.str "Harness.Author"])])
    | "edge" => some (.obj [("tid", .str "entra-tenant"), ("oid", .str "control-ui"),
        ("idtyp", .str "app"), ("roles", .arr [.str "Edge.Delegate"])])
    | _ => none
  else none

/-- A request of the person, who claims to be somebody else. -/
def spoofed : UiRequest where
  pathname := "/v1/authoring/drafts"
  headers := fun name =>
    match name with
    | "authorization" => some "Bearer person"
    | "x-ehf-authenticated-subject" => some "grace"
    | "x-actor-roles" => some "Harness.Approver"
    | _ => none

/-- What the control API is sent for it. -/
def sent : Headers := serviceHeaders "Bearer edge" "ada" "Harness.Author" "tenant_demo"

/-- What Azure lets the control API build. -/
def workload : Resolver := .entra (entraOptions azureEnv "entra-tenant" "tenant_demo" "api://ehf-internal")

end Sample

theorem edge_identity_sample :
    (∃ user edge, Vouched Sample.verifyJwt Sample.azureEnv Sample.spoofed.single user ∧
      Vouched Sample.verifyJwt Sample.azureEnv Sample.sent edge ∧ edgeDelegateRole ∈ edge.roles ∧
      (⟨"ada", "tenant_demo", .human, ["Harness.Author"]⟩ : Principal) =
        ⟨trim user.subjectId, edge.tenantId, .human, user.roles.flatMap namesIn⟩) ∧
    edgeRequest Sample.verifyJwt (fun _ => true) (fun _ => some "edge") Sample.azureEnv
      ⟨"/", fun name => if name = "authorization" then some "Bearer person" else none⟩ =
        .ok Sample.sent := by
  have hazure : isAzureMode Sample.azureEnv = .ok true := rfl
  have hworkload : createWorkloadResolverFromEnv (fun _ => true) [] Sample.azureEnv =
    .ok Sample.workload := rfl
  have hsent : edgeRequest Sample.verifyJwt (fun _ => true) (fun _ => some "edge") Sample.azureEnv
    Sample.spoofed = .ok Sample.sent := rfl
  have h := edge_identity Sample.verifyJwt hazure hazure hworkload hsent .draftWrite ⟨"draft", none, none⟩
  obtain ⟨user, edge, huser, -, hedge, hdelegate, hprincipal, -⟩ := h.1 _ rfl
  exact ⟨⟨user, edge, huser, hedge, hdelegate, hprincipal⟩, h.2 _ rfl⟩

end ControlUi

end HarnessFramework
