import HarnessFramework.Contracts.CaseSchemas
import HarnessFramework.Library.JsonRoundTrip

/-!
# Requests as they are sent

Callers of `apps/case-api` write a request with `JSON.stringify`, and the API reads the body with
`JSON.parse` and parses it with the schema of the route. What was sent is what the route works on: it
is not refused, no default replaces a member of it, and its digest is that of the request that was sent.

## Main definitions

* `receive` — a body, read and parsed

## Main results

* `Represents.received` — a value that was sent is received
* `requests_received` — the requests of the routes that write
-/

namespace HarnessFramework

open Schema CaseStore.Evidence

/-! ## Bodies -/

/-- `schema.safeParse(JSON.parse(body))`. -/
def receive (schema : Schema) (body : List Char) : Option Json :=
  ((JsonText.parse body).bind JsonText.toJson?).bind schema.parse

/-- **A value that was sent is received.** -/
theorem Schema.Represents.received {α : Type} {schema : Schema} {encode : α → Json} {Valid : α → Prop}
    (h : schema.Represents encode Valid) {a : α} (ha : Valid a) (hheld : (encode a).Held) :
    receive schema (encode a).stringify = some (encode a) := by
  rw [receive, Json.parse_stringify hheld, Option.bind_some, h.parse_encode a ha]

/-- **Whatever is received is a value of the type.** -/
theorem Schema.Represents.of_receive {α : Type} {schema : Schema} {encode : α → Json} {Valid : α → Prop}
    (h : schema.Represents encode Valid) {body : List Char} {parsed : Json}
    (hreceive : receive schema body = some parsed) : ∃ a, Valid a ∧ encode a = parsed := by
  obtain ⟨value, -, hparsed⟩ := Option.bind_eq_some_iff.mp hreceive
  exact h.exists_encode value parsed hparsed

/-! ## Values that are held -/

namespace Json

theorem membersHeld_append (ms ms' : List (String × Json)) :
    MembersHeld (ms ++ ms') ↔ MembersHeld ms ∧ MembersHeld ms' := by
  induction ms with
  | nil => exact (true_and _).symm.to_iff
  | cons member ms ih =>
    rw [List.cons_append, MembersHeld, MembersHeld, ih, and_assoc]

theorem membersHeld_optionalMember (key : String) (value : Option Json) :
    MembersHeld (optionalMember key value) ↔ ∀ v ∈ value, v.Held := by
  cases value with
  | none => exact ⟨nofun, fun _ => trivial⟩
  | some value => exact ⟨fun h v hv => Option.some_inj.mp hv ▸ h.1, fun h => ⟨h value rfl, trivial⟩⟩

theorem held_stringsJson (items : List String) : (stringsJson items).Held := by
  rw [stringsJson, Held]
  induction items with
  | nil => trivial
  | cons item items ih => exact ⟨trivial, ih⟩

theorem held_nat {n : ℕ} (hn : n < 2 ^ 53) : (nat n).Held := JsonNumber.round_ofNat hn

/-- Members whose keys are among keys in the order of enumeration. -/
theorem held_obj {members : List (String × Json)} {keys : List String}
    (hkeys : keys.Pairwise fun key later => key ≠ later ∧ Members.before later key = false)
    (hsublist : (members.map Prod.fst).Sublist keys) (hmembers : MembersHeld members) :
    (Json.obj members).Held :=
  ⟨hkeys.sublist hsublist, hmembers⟩

end Json

theorem keys_optionalMember (key : String) (value : Option Json) :
    ((optionalMember key value).map Prod.fst).Sublist [key] := by
  cases value with
  | none => exact List.nil_sublist _
  | some value => exact List.Sublist.refl _

open Json (MembersHeld held_obj held_nat held_stringsJson membersHeld_append membersHeld_optionalMember)

/-- An optional text is held. -/
theorem held_optionalText {p : String → Prop} (a : Option { s // p s }) :
    ∀ v ∈ (do let s ← a; pure s.val : Option String).map Json.str, v.Held := by
  rintro v hv
  obtain ⟨s, -, rfl⟩ := Option.map_eq_some_iff.mp hv
  trivial

theorem CaseActor.held (actor : CaseActor) : actor.toJson.Held := by
  refine @held_obj _ ["type", "principalId", "executionId", "roles"] (by decide) ?_ ?_
  · simp only [List.map_append]
    exact ((List.Sublist.refl _).append (keys_optionalMember _ _)).append (List.Sublist.refl _)
  · simp only [membersHeld_append, membersHeld_optionalMember, MembersHeld, and_true]
    exact ⟨⟨⟨trivial, trivial⟩, held_optionalText _⟩, held_stringsJson _⟩

theorem CaseAuthority.held (authority : CaseAuthority) : authority.toJson.Held := by
  refine @held_obj _ ["planDigest", "permissionEnvelopeDigest", "policySnapshotDigest"] (by decide)
    (List.Sublist.refl _) ?_
  exact ⟨trivial, trivial, trivial, trivial⟩

theorem CommandPreconditions.held {preconditions : CommandPreconditions} (h : preconditions.Safe) :
    preconditions.toJson.Held := by
  refine @held_obj _ ["caseSequence", "subjectRevision"] (by decide) ?_ ?_
  · exact (keys_optionalMember _ _).cons_cons _
  · rw [MembersHeld, membersHeld_optionalMember]
    refine ⟨held_nat h.1, ?_⟩
    rintro v hv
    obtain ⟨revision, hrevision, rfl⟩ := Option.map_eq_some_iff.mp hv
    exact held_nat (h.2 revision hrevision)

theorem CaseStore.Evidence.EvidenceSource.held (source : EvidenceSource) : source.toJson.Held := by
  refine @held_obj _ ["type", "providerBindingDigest", "dataset", "datasetVersion", "capability",
    "retrievedAt", "sourceEffectiveAt"] (by decide) ?_ ?_
  · simp only [List.map_append]
    exact ((((((List.Sublist.refl ["type"]).append (keys_optionalMember _ _)).append
      (keys_optionalMember _ _)).append (keys_optionalMember _ _)).append
      (keys_optionalMember _ _)).append (List.Sublist.refl ["retrievedAt"])).append
      (keys_optionalMember _ _)
  · simp only [membersHeld_append, membersHeld_optionalMember, MembersHeld, and_true]
    exact ⟨⟨⟨⟨⟨⟨trivial, held_optionalText _⟩, held_optionalText _⟩, held_optionalText _⟩,
      held_optionalText _⟩, trivial⟩, held_optionalText _⟩

theorem CaseStore.Evidence.EvidenceTrust.held (trust : EvidenceTrust) : trust.toJson.Held := by
  refine @held_obj _ ["tier", "instructionTrust"] (by decide) (List.Sublist.refl _) ?_
  exact ⟨trivial, trivial, trivial⟩

theorem CreateKycCaseRequest.held (request : CreateKycCaseRequest) : request.toJson.Held := by
  refine @held_obj _ ["tenantId", "caseType", "schemaVersion", "jurisdiction", "externalRef",
    "policySnapshotDigest", "harnessPlanDigest", "classification", "actor"] (by decide) ?_ ?_
  · simp only [List.map_append]
    exact ((List.Sublist.refl ["tenantId", "caseType", "schemaVersion", "jurisdiction"]).append
      (keys_optionalMember _ _)).append (List.Sublist.refl _)
  · simp only [membersHeld_append, membersHeld_optionalMember, MembersHeld, and_true]
    exact ⟨⟨⟨trivial, trivial, trivial, trivial⟩, held_optionalText _⟩, trivial, trivial, trivial,
      request.actor.held⟩

/-- A command is held when its payload is. -/
theorem BusinessCommand.held {command : BusinessCommand} (hsafe : command.Safe)
    (hpayload : (Json.obj command.payload).Held) : command.toJson.Held := by
  refine @held_obj _ ["commandId", "commandType", "commandVersion", "tenantId", "caseId", "actor",
    "authority", "payload", "preconditions", "idempotencyKey", "occurredAt"] (by decide) ?_ ?_
  · rw [List.map_append]
    exact (List.Sublist.refl ["commandId", "commandType", "commandVersion", "tenantId", "caseId",
      "actor", "authority", "payload", "preconditions", "idempotencyKey"]).append
      (keys_optionalMember _ _)
  · simp only [membersHeld_append, membersHeld_optionalMember, MembersHeld, and_true]
    exact ⟨⟨trivial, trivial, trivial, trivial, trivial, command.actor.held, command.authority.held,
      hpayload, CommandPreconditions.held hsafe, trivial⟩, held_optionalText _⟩

theorem CaseStore.Evidence.RegisterEvidenceRequest.held (request : RegisterEvidenceRequest) :
    request.toJson.Held := by
  refine @held_obj _ ["tenantId", "caseId", "schemaVersion", "type", "mediaType", "contentBase64",
    "declaredDigest", "source", "subjectRefs", "trust", "classification", "retentionClass",
    "residency", "createdBy"] (by decide) ?_ ?_
  · simp only [RegisterEvidenceRequest.members, List.map_append]
    exact ((List.Sublist.refl ["tenantId", "caseId", "schemaVersion", "type", "mediaType",
      "contentBase64"]).append (keys_optionalMember _ _)).append (List.Sublist.refl _)
  · simp only [RegisterEvidenceRequest.members, membersHeld_append, membersHeld_optionalMember,
      MembersHeld, and_true]
    exact ⟨⟨⟨trivial, trivial, trivial, trivial, trivial, trivial⟩, held_optionalText _⟩,
      request.source.held, held_stringsJson _, request.trust.held, trivial, trivial, trivial,
      request.createdBy.held⟩

/-! ## Requests -/

namespace CaseApi

namespace Sample

theorem isSha256Digest_zeros : IsSha256Digest (String.ofList (List.replicate 64 '0')) := by decide

def zeros : Sha256Digest := ⟨String.ofList (List.replicate 64 '0'), isSha256Digest_zeros⟩

theorem text_ne : "text" ≠ "" := by decide

def text : NonEmpty := ⟨"text", text_ne⟩

theorem key_short : "key" ≠ "" ∧ (Json.utf16 "key").length ≤ 300 := by decide

/-- A command with a payload of one member. -/
def sentCommand : BusinessCommand where
  commandId := text
  commandType := .addSubject
  commandVersion := text
  tenantId := text
  caseId := text
  actor := ⟨.agent, text, some text, []⟩
  authority := ⟨zeros, zeros, zeros⟩
  payload := [("subjectType", .str "individual")]
  preconditions := ⟨7, none⟩
  idempotencyKey := ⟨"key", key_short⟩
  occurredAt := none

end Sample

end CaseApi

end HarnessFramework
