import HarnessFramework.CaseApi.Requests
import HarnessFramework.CaseStore.Metadata
import HarnessFramework.RuntimeCore.CaseWrites
import HarnessFramework.RuntimeCore.Conditions

/-!
# Evidence of what a node returned

The plan may have `executeCaseWrites` of `packages/runtime-core/src/index.ts` register the output of a
node as evidence: the output is written with `JSON.stringify`, encoded in UTF-8 and in base 64, and sent
in a request that `registerEvidenceRequestSchema` has parsed. Whatever else is registered meanwhile, the
content that is stored with the evidence reads back as the output.

## Main definitions

* `encodeBase64`, `utf8Bytes` — `Buffer.from(text).toString("base64")`
* `captureJson`, `Captures` — the request for a node
* `readContent` — a stored content as a value

## Main results

* `decodeBase64_encode` — base 64 is read back
* `Captures.registrable_iff` — content that was captured is refused only for its length
* `captured_output_kept` — the output is in the store, in every interleaving
-/

namespace HarnessFramework

namespace RuntimeCore

open CaseStore CaseStore.Evidence
open Schema (lastMember_parseFields lastMember_parseFields_none)

/-! ## Base 64 -/

/-- The character of a base 64 digit. -/
def base64Char (n : ℕ) : Char :=
  if n < 26 then Char.ofNat (65 + n) else if n < 52 then Char.ofNat (71 + n)
  else if n < 62 then Char.ofNat (n - 4) else if n = 62 then '+' else '/'

/-- `buffer.toString("base64")`. -/
def encodeBase64 : List UInt8 → List Char
  | a :: b :: c :: rest =>
    base64Char (a.toNat / 4) :: base64Char (a.toNat % 4 * 16 + b.toNat / 16) ::
      base64Char (b.toNat % 16 * 4 + c.toNat / 64) :: base64Char (c.toNat % 64) :: encodeBase64 rest
  | [a, b] => [base64Char (a.toNat / 4), base64Char (a.toNat % 4 * 16 + b.toNat / 16),
      base64Char (b.toNat % 16 * 4), '=']
  | [a] => [base64Char (a.toNat / 4), base64Char (a.toNat % 4 * 16), '=', '=']
  | [] => []

theorem base64Digit_base64Char : ∀ n < 64, base64Digit (base64Char n) = some n := by decide

theorem length_codeUnits_base64Char : ∀ n < 64, (Json.codeUnits (base64Char n)).length = 1 := by decide

theorem base64Digit_pad : base64Digit '=' = none := by decide

/-- The digits of a quantum are in range. -/
theorem digits_lt (a b c : UInt8) : a.toNat / 4 < 64 ∧ a.toNat % 4 * 16 + b.toNat / 16 < 64 ∧
    b.toNat % 16 * 4 + c.toNat / 64 < 64 ∧ c.toNat % 64 < 64 ∧ a.toNat % 4 * 16 < 64 ∧
    b.toNat % 16 * 4 < 64 := by
  have ha := a.toNat_lt
  have hb := b.toNat_lt
  have hc := c.toNat_lt
  omega

theorem uint8_ofNat {a : UInt8} {n : ℕ} (h : n = a.toNat) : UInt8.ofNat n = a := by
  rw [h, UInt8.ofNat_toNat]

/-- **Base 64 is read back.** -/
theorem base64Bytes_encode (bytes : List UInt8) :
    base64Bytes ((encodeBase64 bytes).filterMap base64Digit) = bytes := by
  induction bytes using encodeBase64.induct with
  | case1 a b c rest ih =>
    obtain ⟨h1, h2, h3, h4, -, -⟩ := digits_lt a b c
    simp only [encodeBase64, List.filterMap_cons, base64Digit_base64Char _ h1,
      base64Digit_base64Char _ h2, base64Digit_base64Char _ h3, base64Digit_base64Char _ h4, base64Bytes,
      ih]
    have hb := b.toNat_lt
    have hc := c.toNat_lt
    rw [@uint8_ofNat a _ (by omega), @uint8_ofNat b _ (by omega), @uint8_ofNat c _ (by omega)]
  | case2 a b =>
    obtain ⟨h1, h2, -, -, -, h6⟩ := digits_lt a b 0
    simp only [encodeBase64, List.filterMap_cons, base64Digit_base64Char _ h1,
      base64Digit_base64Char _ h2, base64Digit_base64Char _ h6, base64Digit_pad, List.filterMap_nil,
      base64Bytes]
    have hb := b.toNat_lt
    rw [@uint8_ofNat a _ (by omega), @uint8_ofNat b _ (by omega)]
  | case3 a =>
    obtain ⟨h1, -, -, -, h5, -⟩ := digits_lt a 0 0
    simp only [encodeBase64, List.filterMap_cons, base64Digit_base64Char _ h1,
      base64Digit_base64Char _ h5, base64Digit_pad, List.filterMap_nil, base64Bytes]
    rw [@uint8_ofNat a _ (by omega)]
  | case4 => simp [encodeBase64, base64Bytes]

/-- A text in base 64 is a multiple of four long, and of the form that is asked for. -/
theorem isBase64_encode (bytes : List UInt8) : (encodeBase64 bytes).length % 4 = 0 ∧
    isBase64 (encodeBase64 bytes) = true ∧
    ((encodeBase64 bytes).flatMap Json.codeUnits).length = (encodeBase64 bytes).length := by
  have hpad : (Json.codeUnits '=').length = 1 := by decide
  induction bytes using encodeBase64.induct with
  | case1 a b c rest ih =>
    obtain ⟨h1, h2, h3, h4, -, -⟩ := digits_lt a b c
    obtain ⟨hlength, hbase64, hunits⟩ := ih
    refine ⟨?_, ?_, ?_⟩
    · simp only [encodeBase64, List.length_cons]
      omega
    · simpa [isBase64, encodeBase64, List.dropWhile_cons, base64Digit_base64Char _ h1,
        base64Digit_base64Char _ h2, base64Digit_base64Char _ h3, base64Digit_base64Char _ h4]
        using hbase64
    · simp only [encodeBase64, List.flatMap_cons, List.length_append, List.length_cons, hunits,
        length_codeUnits_base64Char _ h1, length_codeUnits_base64Char _ h2,
        length_codeUnits_base64Char _ h3, length_codeUnits_base64Char _ h4]
      omega
  | case2 a b =>
    obtain ⟨h1, h2, -, -, -, h6⟩ := digits_lt a b 0
    refine ⟨by simp [encodeBase64], ?_, ?_⟩
    · simp [isBase64, encodeBase64, base64Digit_base64Char _ h1, base64Digit_base64Char _ h2,
        base64Digit_base64Char _ h6, base64Digit_pad]
    · simp only [encodeBase64, List.flatMap_cons, List.flatMap_nil, List.length_append, List.length_cons,
        List.length_nil, length_codeUnits_base64Char _ h1, length_codeUnits_base64Char _ h2,
        length_codeUnits_base64Char _ h6, hpad]
  | case3 a =>
    obtain ⟨h1, -, -, -, h5, -⟩ := digits_lt a 0 0
    refine ⟨by simp [encodeBase64], ?_, ?_⟩
    · simp [isBase64, encodeBase64, base64Digit_base64Char _ h1, base64Digit_base64Char _ h5,
        base64Digit_pad]
    · simp only [encodeBase64, List.flatMap_cons, List.flatMap_nil, List.length_append, List.length_cons,
        List.length_nil, length_codeUnits_base64Char _ h1, length_codeUnits_base64Char _ h5, hpad]
  | case4 => simp [encodeBase64, isBase64]

theorem decodeBase64_encode (bytes : List UInt8) :
    decodeBase64 (String.ofList (encodeBase64 bytes)) = bytes := by
  rw [decodeBase64, String.toList_ofList, base64Bytes_encode]

/-! ## Content -/

/-- `Buffer.from(text)`. -/
def utf8Bytes (cs : List Char) : List UInt8 := cs.flatMap String.utf8EncodeChar

/-- The content that is registered for an output. -/
def capturedContent (output : Json) : List UInt8 := utf8Bytes output.stringify

/-- `JSON.parse(content.toString("utf8"))`. -/
def readContent (content : List UInt8) : Option Json :=
  content.toByteArray.utf8Decode?.bind fun chars => (JsonText.parse chars.toList).bind JsonText.toJson?

/-- **The content of an output reads back as the output.** -/
theorem readContent_captured {output : Json} (h : output.Held) :
    readContent (capturedContent output) = some output := by
  have hdecode : (utf8Bytes output.stringify).toByteArray.utf8Decode? = some output.stringify.toArray :=
    List.utf8Decode?_utf8Encode
  rw [readContent, capturedContent, hdecode, Option.bind_some]
  exact Json.parse_stringify h

theorem capturedContent_ne_nil (output : Json) : capturedContent output ≠ [] := by
  obtain ⟨c, cs, hcs, -⟩ := JsonText.exists_toChars (Json.spelled_toText output)
  rw [capturedContent, utf8Bytes, Json.stringify_eq, hcs, List.flatMap_cons]
  intro h
  exact String.utf8EncodeChar_ne_nil (List.append_eq_nil_iff.mp h).1

/-! ## The request -/

section

variable (ctx : RuntimeContext) (node : NodeRun)

/-- The configuration of the capture. -/
def captureConfig : List (String × Json) := membersOf (lastMember "evidenceCapture" (nodeConfig ctx node))

/-- When the output says that it was retrieved. -/
def retrievedAt (output : Json) : String :=
  match lastMember "retrievedAt" (membersOf (some output)) with
  | some (.str text) => text
  | _ => "2026-01-01T00:00:00.000Z"

/-- The capability that the node calls, if its configuration names one. -/
def capabilityMember : Option Json :=
  match lastMember "capabilityId" (nodeConfig ctx node) with
  | some (.str id) => some (.str id)
  | _ => none

/-- The subject of the case, if there is one. -/
def subjectRefs : List String :=
  match lastMember "subjectId" (membersOf node.rootInput) with
  | some id => if truthy (.ofJson id) then [jsString id] else []
  | none => []

/-- Who registers. -/
def captureActor : Json :=
  .obj [("type", .str "AGENT"),
    ("principalId", .str (match lastMember "agentRef" (nodeConfig ctx node) with
      | some (.str agentRef) => agentRef
      | _ => node.nodeId)),
    ("executionId", .str ctx.runId), ("roles", .arr [])]

/-- The request for the output of a node, before it is parsed. -/
def captureJson (output : Json) : Json :=
  let config := captureConfig ctx node
  let caseInput := membersOf node.rootInput
  .obj [("tenantId", .str (writeKey node.rootInput).tenantId),
    ("caseId", .str (writeKey node.rootInput).caseId),
    ("type", .str (textOr (node.nodeId ++ ".output") (lastMember "type" config))),
    ("mediaType", .str "application/json"),
    ("contentBase64", .str (String.ofList (encodeBase64 (capturedContent output)))),
    ("source", .obj <|
      [("type", .str (textOr "DERIVED" (lastMember "sourceType" config)))] ++
      optionalMember "capability" (capabilityMember ctx node) ++
      [("retrievedAt", .str (retrievedAt output))]),
    ("subjectRefs", stringsJson (subjectRefs node)),
    ("trust", .obj [("tier", .str (textOr "POC_PROVIDER" (lastMember "trustTier" config))),
      ("instructionTrust", .str (textOr "UNTRUSTED_DATA" (lastMember "instructionTrust" config)))]),
    ("classification", .str (textOr "CONFIDENTIAL" (lastMember "classification" caseInput))),
    ("retentionClass", .str (textOr "KYC_REGULATED" (lastMember "retentionClass" config))),
    ("residency", .str (textOr "US" ((nullish (lastMember "residency" caseInput)).or
      (lastMember "country" caseInput)))),
    ("createdBy", captureActor ctx node)]

/-- The key under which it is registered. -/
def captureKey : String := ctx.runId ++ ":" ++ toString ctx.runAttempt ++ ":" ++ node.nodeId ++ ":evidence"

/-- The request for the output of a node is parsed. -/
def Captures (output : Json) (request : RegisterEvidenceRequest) : Prop :=
  node.output = some output ∧
    registerEvidenceRequestSchema.parse (captureJson ctx node output) = some request.toJson

end

section

variable {ctx : RuntimeContext} {node : NodeRun} {output : Json} {request : RegisterEvidenceRequest}

/-- The content of the request is that of the output, and no digest is declared. -/
theorem Captures.content (h : Captures ctx node output request) :
    request.contentBase64.val = String.ofList (encodeBase64 (capturedContent output)) ∧
      request.declaredDigest = none := by
  obtain ⟨-, hparse⟩ := h
  obtain ⟨-, hparse⟩ := Option.ite_none_right_eq_some.mp hparse
  obtain ⟨members, hmembers, hparse⟩ := Option.bind_eq_some_iff.mp hparse
  obtain rfl : members = request.members := Json.obj.inj (Option.some_inj.mp hparse)
  constructor
  · obtain ⟨value, hvalue, hlast⟩ := lastMember_parseFields (by decide) hmembers
      ("contentBase64", .required, Schema.atLeast 1) (by simp) rfl
    rw [lastMember_contentBase64] at hlast
    obtain ⟨-, hvalue⟩ := Option.ite_none_right_eq_some.mp hvalue
    exact Json.str.inj (Option.some_inj.mp (hlast.trans hvalue.symm))
  · have hlast := @lastMember_parseFields_none sha256DigestSchema _ _ _ (by decide) hmembers
      "declaredDigest" (by simp) rfl
    rw [lastMember_declaredDigest] at hlast
    cases hdeclared : request.declaredDigest with
    | none => rfl
    | some digest =>
      rw [hdeclared] at hlast
      cases hlast

variable {sha256 : List Char → String} {contentSha256 : List UInt8 → String} {hashtext : String → ℤ}
  {evidenceMaxBytes : ℕ}

theorem Captures.decodeBase64 (h : Captures ctx node output request) :
    decodeBase64 request.contentBase64 = capturedContent output := by
  rw [h.content.1, decodeBase64_encode]

/-- **What is captured is registrable unless it is too long.** -/
theorem Captures.registrable_iff (h : Captures ctx node output request) :
    Registrable contentSha256 evidenceMaxBytes request ↔
      (capturedContent output).length ≤ evidenceMaxBytes := by
  constructor
  · intro hregistrable
    have hlength := hregistrable.length
    rwa [h.decodeBase64] at hlength
  · intro hlength
    obtain ⟨hmod, hbase64, hunits⟩ := isBase64_encode (capturedContent output)
    refine ⟨?_, ?_, ?_, ?_⟩
    · rw [h.content.1, Json.utf16, String.toList_ofList, hunits]
      exact ⟨hmod, hbase64⟩
    · rw [h.decodeBase64]
      exact capturedContent_ne_nil output
    · rw [h.decodeBase64]
      exact hlength
    · rw [h.content.2]
      exact nofun

end

/-! ## The store -/

section

variable {sha256 : List Char → String} {contentSha256 : List UInt8 → String} {hashtext : String → ℤ}
  {evidenceMaxBytes : ℕ} {ι : Type} [DecidableEq ι]
  {s : Inserters ι ℤ Evidence.Call Row Evidence.Failure Evidence.Answer}

/-- **Evidence that was registered has its content in the store**, at every later time. -/
theorem content_kept (hsha : Function.Injective sha256) (hcontent : Function.Injective contentSha256)
    (h : Inserters.Reachable (Evidence.Call.txn sha256 contentSha256 hashtext evidenceMaxBytes) uniqueKeys
      Relayed s) {e : Entry Evidence.Call (List Row) Evidence.Failure Evidence.Answer} (he : e ∈ s.log)
    {env : Env} {request : RegisterEvidenceRequest} {idempotencyKey : String} {evidence : Option Json}
    (hcall : e.call = .registerEvidence env request idempotencyKey)
    (hresult : e.result = .ok (.registered true evidence)) :
    ∃ artifact, .evidence (evidenceRow sha256 contentSha256 env request) ∈ s.rows ∧
      .artifact artifact ∈ s.rows ∧ artifact.tenantId = request.tenantId.val ∧
      artifact.artifactRef = (evidenceRow sha256 contentSha256 env request).artifactRef ∧
      artifact.content = decodeBase64 request.contentBase64 := by
  have hsound := h.sound (contract_valid hsha)
  have hkept : Kept sha256 contentSha256 evidenceMaxBytes s.rows := hsound.invariant
  obtain ⟨stored, -, hafter⟩ := registered_of_meets (hsound.meets e he) hcall hresult
  have hevidence : .evidence (evidenceRow sha256 contentSha256 env request) ∈ s.rows :=
    (hsound.later e he).stays _ (by rw [hafter]; simp) trivial
  obtain ⟨href, artifact, hartifact, htenant, hdigest⟩ := hkept.stored _ hevidence
  obtain ⟨hdigest', -, href'⟩ := hkept.artifacts artifact hartifact
  refine ⟨artifact, hevidence, hartifact, htenant, ?_, hcontent (hdigest'.trans hdigest)⟩
  rw [href', href, htenant, hdigest]

end

namespace Sample

/-- A node that reads a register and captures what it is told. -/
def readingPlan : HarnessPlan :=
  { plan with nodes := [⟨"node", [("capabilityId", .str "registry.read"),
    ("evidenceCapture", .obj [("type", .str "registry.extract"), ("sourceType", .str "TOOL")])]⟩] }

def readingCtx : RuntimeContext := { ctx with plan := readingPlan }

def registryOutput : Json := .obj [("status", .str "active")]

def reading : NodeRun := { node with output := some registryOutput }

theorem registryContent_ne : String.ofList (encodeBase64 (capturedContent registryOutput)) ≠ "" := by
  decide +kernel

theorem tenantId_ne : (writeKey node.rootInput).tenantId ≠ "" := by decide +kernel

theorem caseId_ne : (writeKey node.rootInput).caseId ≠ "" := by decide +kernel

theorem extract_ne : "registry.extract" ≠ "" := by decide

theorem json_ne : "application/json" ≠ "" := by decide

theorem read_ne : "registry.read" ≠ "" := by decide

theorem unsaid_datetime : IsDatetime "2026-01-01T00:00:00.000Z" := by decide +kernel

theorem provider_ne : "POC_PROVIDER" ≠ "" := by decide

theorem confidential_ne : "CONFIDENTIAL" ≠ "" := by decide

theorem regulated_ne : "KYC_REGULATED" ≠ "" := by decide

theorem us_ne : "US" ≠ "" := by decide

theorem node_ne : "node" ≠ "" := by decide

theorem run_ne : "run" ≠ "" := by decide

/-- The request for it. -/
def registryRequest : RegisterEvidenceRequest where
  tenantId := ⟨(writeKey node.rootInput).tenantId, tenantId_ne⟩
  caseId := ⟨(writeKey node.rootInput).caseId, caseId_ne⟩
  type := ⟨"registry.extract", extract_ne⟩
  mediaType := ⟨"application/json", json_ne⟩
  contentBase64 := ⟨String.ofList (encodeBase64 (capturedContent registryOutput)), registryContent_ne⟩
  declaredDigest := none
  source := ⟨.tool, none, none, none, some ⟨"registry.read", read_ne⟩,
    ⟨"2026-01-01T00:00:00.000Z", unsaid_datetime⟩, none⟩
  subjectRefs := []
  trust := ⟨⟨"POC_PROVIDER", provider_ne⟩, .untrustedData⟩
  classification := ⟨"CONFIDENTIAL", confidential_ne⟩
  retentionClass := ⟨"KYC_REGULATED", regulated_ne⟩
  residency := ⟨"US", us_ne⟩
  createdBy := ⟨.agent, ⟨"node", node_ne⟩, some ⟨"run", run_ne⟩, []⟩

theorem captures_registry : Captures readingCtx reading registryOutput registryRequest :=
  ⟨rfl, by decide +kernel⟩

/-- The state after the case is created and the capture is registered. -/
def registryState : Inserters Unit ℤ Evidence.Call Row Evidence.Failure Evidence.Answer :=
  Inserters.serve (Evidence.Call.txn String.ofList sampleHash (fun _ => 0) 100) uniqueKeys
    [.createCase registryRequest.tenantId registryRequest.caseId,
      .registerEvidence (typedEnv "1") registryRequest (captureKey readingCtx reading)] [] []

theorem registered_registry : ∃ e ∈ registryState.log,
    e.call = .registerEvidence (typedEnv "1") registryRequest (captureKey readingCtx reading) ∧
      isRegistered e = true := by
  have hcalls : registryState.log.map Entry.call =
      [.createCase registryRequest.tenantId registryRequest.caseId,
        .registerEvidence (typedEnv "1") registryRequest (captureKey readingCtx reading)] :=
    Inserters.serve_calls _
  have hresults : registryState.log.map isRegistered = [false, true] := by decide +kernel
  obtain ⟨e₁, log, hlog, -, hcalls⟩ := List.map_eq_cons_iff.mp hcalls
  obtain ⟨e₂, rfl, hcall⟩ := List.map_eq_singleton_iff.mp hcalls
  rw [hlog] at hresults ⊢
  simp only [List.map_cons, List.map_nil, List.cons.injEq, and_true] at hresults
  exact ⟨e₂, by simp, hcall, hresults.2⟩

end Sample

/-- **What a node returned is in the store**, once it was captured: whatever else was registered, by
whomever, and relayed and purged meanwhile, the content that is stored with the evidence reads back as
the output. And nothing but its length keeps an output from being registered. -/
theorem captured_output_kept {sha256 : List Char → String} {contentSha256 : List UInt8 → String}
    {hashtext : String → ℤ} {evidenceMaxBytes : ℕ} {ι : Type} [DecidableEq ι]
    (hsha : Function.Injective sha256) (hcontent : Function.Injective contentSha256)
    {ctx : RuntimeContext} {node : NodeRun} {output : Json} {request : RegisterEvidenceRequest}
    (hcaptures : Captures ctx node output request) (hheld : output.Held) :
    (Registrable contentSha256 evidenceMaxBytes request ↔
      (capturedContent output).length ≤ evidenceMaxBytes) ∧
    ∀ s : Inserters ι ℤ Evidence.Call Row Evidence.Failure Evidence.Answer,
      Inserters.Reachable (Evidence.Call.txn sha256 contentSha256 hashtext evidenceMaxBytes) uniqueKeys
        Relayed s →
      ∀ e ∈ s.log, ∀ env evidence, e.call = .registerEvidence env request (captureKey ctx node) →
        e.result = .ok (.registered true evidence) →
        ∃ artifact, .evidence (evidenceRow sha256 contentSha256 env request) ∈ s.rows ∧
          .artifact artifact ∈ s.rows ∧ artifact.tenantId = request.tenantId.val ∧
          artifact.artifactRef = (evidenceRow sha256 contentSha256 env request).artifactRef ∧
          readContent artifact.content = node.output := by
  refine ⟨hcaptures.registrable_iff, fun s h e he env evidence hcall hresult => ?_⟩
  obtain ⟨artifact, hevidence, hartifact, htenant, href, hbytes⟩ :=
    content_kept hsha hcontent h he hcall hresult
  refine ⟨artifact, hevidence, hartifact, htenant, href, ?_⟩
  rw [hbytes, hcaptures.decodeBase64, readContent_captured hheld, hcaptures.1]

open RuntimeCore.Sample in
/-- What a register said is in the store. -/
theorem captured_output_kept_sample :
    ∃ artifact, .artifact artifact ∈ registryState.rows ∧
      readContent artifact.content = some registryOutput := by
  obtain ⟨e, he, hcall, hregistered⟩ := registered_registry
  obtain ⟨evidence, hresult⟩ := result_of_isRegistered hregistered
  obtain ⟨artifact, -, hartifact, -, -, hread⟩ :=
    (captured_output_kept (fun _ _ => String.ofList_injective) sampleHash_injective captures_registry
      ⟨List.pairwise_singleton _ _, trivial, trivial⟩).2 registryState (Inserters.reachable_serve _ .start)
      e he _ _ hcall hresult
  exact ⟨artifact, hartifact, hread⟩

end RuntimeCore

end HarnessFramework
