import HarnessFramework.CaseStore.Evidence
import HarnessFramework.Contracts.SameValue

/-!
# Evidence is addressed by its content

Whatever calls of `registerEvidence` run side by side, all evidence has an artifact of its tenant with
the content that its digest is of, one receipt and, until it is purged, one row in the outbox. A request
that comes again is answered from its receipt, and another one under its key is refused.

The advisory lock of an idempotency key guards the receipts under it: who has found none while holding
it finds none later on.

## Main definitions

* `Addressed` — what evidence has in the tables
* `Kept` — the invariant of the tables
* `Registered`, `contract` — what a call does, and what it relies on

## Main results

* `registerEvidence_wp`, `contract_valid` — calls keep the contract
* `evidence_addressed` — in every interleaving
-/

namespace HarnessFramework

namespace CaseStore

namespace Evidence

variable (sha256 : List Char → String) (contentSha256 : List UInt8 → String) (hashtext : String → ℤ)
  (evidenceMaxBytes : ℕ)

/-! ## The invariant -/

/-- The tenant and the id of the evidence that a row is about. -/
def Row.about : Row → Option (String × String)
  | .receipt row => some (row.tenantId, row.evidenceId)
  | .outbox row => some (row.tenantId, row.evidenceId)
  | .purged row => some (row.tenantId, row.evidenceId)
  | _ => none

/-- The row is a receipt of the evidence. -/
def ReceiptOf (evidence : EvidenceRow) : Row → Bool
  | .receipt row => row.tenantId = evidence.tenantId ∧ row.evidenceId = evidence.evidenceId
  | _ => false

/-- The row is in the outbox, about the evidence. -/
def OutboxOf (evidence : EvidenceRow) : Row → Bool
  | .outbox row => row.tenantId = evidence.tenantId ∧ row.evidenceId = evidence.evidenceId
  | _ => false

/-- The row is or was in the outbox, about the evidence. -/
def Announces (evidence : EvidenceRow) : Row → Bool
  | .outbox row => row.tenantId = evidence.tenantId ∧ row.evidenceId = evidence.evidenceId
  | .purged row => row.tenantId = evidence.tenantId ∧ row.evidenceId = evidence.evidenceId
  | _ => false

/-- The row was in the outbox, about the evidence, and is purged. -/
def PurgedOf (evidence : EvidenceRow) : Row → Bool
  | .purged row => row.tenantId = evidence.tenantId ∧ row.evidenceId = evidence.evidenceId
  | _ => false

/-- **What evidence has in the tables**: an artifact of its tenant with the content that its digest is
of, one receipt, and one row in the outbox until it is purged after it was published. -/
structure Addressed (rows : List Row) (evidence : EvidenceRow) : Prop where
  artifact : ∃ artifact, .artifact artifact ∈ rows ∧ artifact.tenantId = evidence.tenantId ∧
    artifact.artifactRef = evidence.artifactRef ∧
    contentSha256 artifact.content = evidence.rawDigest ∧ artifact.byteLength = artifact.content.length
  receipt : rows.countP (ReceiptOf evidence) = 1
  outbox : rows.countP (OutboxOf evidence) = 1 ∨ rows.countP (OutboxOf evidence) = 0 ∧
    ∃ row : OutboxRow, .purged row ∈ rows ∧ row.tenantId = evidence.tenantId ∧
      row.evidenceId = evidence.evidenceId ∧ row.publishedAt.isSome

/-- The request passes the checks that are made before the tables are read. -/
structure Registrable (request : RegisterEvidenceRequest) : Prop where
  base64 : (Json.utf16 request.contentBase64).length % 4 = 0 ∧ isBase64 request.contentBase64.val.toList
  nonempty : decodeBase64 request.contentBase64 ≠ []
  length : (decodeBase64 request.contentBase64).length ≤ evidenceMaxBytes
  declared : ∀ declared ∈ request.declaredDigest,
    normalizeDigest declared = contentDigest contentSha256 request

/-- **What holds of the tables.** -/
structure Kept (rows : List Row) : Prop where
  unclashed : uniqueKeys.Unclashed rows
  artifacts : ∀ artifact, .artifact artifact ∈ rows →
    contentSha256 artifact.content = artifact.artifactDigest ∧
      artifact.byteLength = artifact.content.length ∧
      artifact.artifactRef = artifactRef sha256 artifact.tenantId artifact.artifactDigest
  stored : ∀ evidence, .evidence evidence ∈ rows →
    evidence.artifactRef = artifactRef sha256 evidence.tenantId evidence.rawDigest ∧
      ∃ artifact, .artifact artifact ∈ rows ∧ artifact.tenantId = evidence.tenantId ∧
        artifact.artifactDigest = evidence.rawDigest
  receipts : ∀ evidence, .evidence evidence ∈ rows → rows.countP (ReceiptOf evidence) = 1
  outbox : ∀ evidence, .evidence evidence ∈ rows → rows.countP (Announces evidence) = 1
  about : ∀ row ∈ rows, ∀ id ∈ row.about, ∃ evidence, .evidence evidence ∈ rows ∧
    (evidence.tenantId, evidence.evidenceId) = id
  purged : ∀ row : OutboxRow, .purged row ∈ rows → row.publishedAt.isSome
  accepted : ∀ receipt, .receipt receipt ∈ rows → receipt.idempotencyKey ≠ "" ∧
    ∃ env request, Registrable contentSha256 evidenceMaxBytes request ∧
      receipt = receiptRow sha256 contentSha256 env request receipt.idempotencyKey ∧
      .evidence (evidenceRow sha256 contentSha256 env request) ∈ rows

/-! ## What calls do -/

/-- No receipt is under the key. -/
def Unfiled (rows : List Row) (tenantId idempotencyKey : String) : Prop :=
  ∀ receipt, .receipt receipt ∈ rows →
    ¬ (receipt.tenantId = tenantId ∧ receipt.idempotencyKey = idempotencyKey)

/-- The artifact of the request is among the rows, or is inserted. -/
def Stores (request : RegisterEvidenceRequest) (rows stored : List Row) : Prop :=
  (stored = [] ∧ ∃ artifact, .artifact artifact ∈ rows ∧ artifact.tenantId = request.tenantId.val ∧
    artifact.artifactDigest = contentDigest contentSha256 request) ∨
  stored = [.artifact (artifactRow sha256 contentSha256 request)]

/-- **What a registration that returns did**: it found a receipt of the same request, or it inserted
evidence with its receipt and its outbox row, and the artifact if that was not there. -/
inductive Registered (env : Env) (request : RegisterEvidenceRequest) (idempotencyKey : String)
    (rows : List Row) : Answer → List Row → Prop
  | replayed (receipt) : .receipt receipt ∈ rows → receipt.tenantId = request.tenantId.val →
      receipt.idempotencyKey = idempotencyKey →
      receipt.requestDigest = stableDigest sha256 request.toJson →
      Registered env request idempotencyKey rows
        (.registered false (receipt.response.val.get? "evidence")) []
  | created (stored) : Unfiled rows request.tenantId idempotencyKey → idempotencyKey ≠ "" →
      Registrable contentSha256 evidenceMaxBytes request →
      Stores sha256 contentSha256 request rows stored →
      Registered env request idempotencyKey rows
        (.registered true (some (evidenceJson sha256 contentSha256 env request)))
        (stored ++ [.evidence (evidenceRow sha256 contentSha256 env request),
          .receipt (receiptRow sha256 contentSha256 env request idempotencyKey),
          .outbox (outboxRow sha256 contentSha256 env request)])

/-- A call that throws was not the repetition of an accepted one. -/
def Refused (request : RegisterEvidenceRequest) (idempotencyKey : String) (rows : List Row) : Prop :=
  ∀ receipt, .receipt receipt ∈ rows → receipt.tenantId = request.tenantId.val →
    receipt.idempotencyKey = idempotencyKey →
    receipt.requestDigest ≠ stableDigest sha256 request.toJson

/-- Rows that relays leave as they are. -/
def Row.Fixed : Row → Prop
  | .outbox _ | .purged _ => False
  | _ => True

/-- **The contract of calls.** The lock of an idempotency key guards the receipts under it. -/
def contract : InsertContract ℤ Call Row Failure Answer where
  guard
    | .receipt row => some (lockName hashtext row.tenantId row.idempotencyKey)
    | _ => none
  Stays := Row.Fixed
  Invariant := Kept sha256 contentSha256 evidenceMaxBytes
  Returns
    | .createCase tenantId caseId, _, a, own => a = .caseCreated ∧ own = [.case tenantId caseId]
    | .registerEvidence env request idempotencyKey, rows, a, own =>
      Registered sha256 contentSha256 evidenceMaxBytes env request idempotencyKey rows a own
  Throws
    | .createCase _ _, _, _ => True
    | .registerEvidence _ request idempotencyKey, rows, _ => Refused sha256 request idempotencyKey rows

section

variable {sha256 : List Char → String} {contentSha256 : List UInt8 → String} {hashtext : String → ℤ}
  {evidenceMaxBytes : ℕ} {rows rows' own stored : List Row} {env : Env}
  {request : RegisterEvidenceRequest} {idempotencyKey : String}

/-! ### Registered evidence -/

theorem about_of_receiptOf {evidence : EvidenceRow} {row : Row} (h : ReceiptOf evidence row = true) :
    row.about = some (evidence.tenantId, evidence.evidenceId) := by
  cases row <;> simp_all [ReceiptOf, Row.about]

theorem about_of_announces {evidence : EvidenceRow} {row : Row} (h : Announces evidence row = true) :
    row.about = some (evidence.tenantId, evidence.evidenceId) := by
  cases row <;> simp_all [Announces, Row.about]

/-- Nothing is about evidence that is new. -/
theorem Kept.countP_eq_zero (h : Kept sha256 contentSha256 evidenceMaxBytes rows) {evidence : EvidenceRow}
    (hnew : uniqueKeys.Fits (.evidence evidence) rows) {p : Row → Bool}
    (hp : ∀ row, p row = true → row.about = some (evidence.tenantId, evidence.evidenceId)) :
    rows.countP p = 0 := by
  rw [List.countP_eq_zero]
  intro row hrow hmatches
  obtain ⟨evidence', hevidence, hid⟩ := h.about row hrow _ (hp row hmatches)
  obtain ⟨htenant, hid⟩ := Prod.mk.inj hid
  exact hnew _ hevidence (by simp [uniqueKeys, Row.clash, htenant, hid])

theorem Stores.mem (h : Stores sha256 contentSha256 request rows stored) {row : Row}
    (hrow : row ∈ stored) : row = .artifact (artifactRow sha256 contentSha256 request) := by
  rcases h with ⟨rfl, -⟩ | rfl
  · cases hrow
  · exact List.mem_singleton.mp hrow

/-- Stored artifacts are about no evidence. -/
theorem Stores.countP (h : Stores sha256 contentSha256 request rows stored) {p : Row → Bool}
    (hp : ∀ artifact, p (.artifact artifact) = false) : stored.countP p = 0 := by
  rw [List.countP_eq_zero]
  intro row hrow
  rw [h.mem hrow, hp]
  exact Bool.false_ne_true

/-- **Registering evidence keeps the invariant.** -/
theorem Kept.registered (h : Kept sha256 contentSha256 evidenceMaxBytes rows)
    (hkey : idempotencyKey ≠ "") (hrequest : Registrable contentSha256 evidenceMaxBytes request)
    (hstores : Stores sha256 contentSha256 request rows stored)
    (hown : own = stored ++ [.evidence (evidenceRow sha256 contentSha256 env request),
      .receipt (receiptRow sha256 contentSha256 env request idempotencyKey),
      .outbox (outboxRow sha256 contentSha256 env request)])
    (hunclashed : uniqueKeys.Unclashed (rows ++ own)) :
    Kept sha256 contentSha256 evidenceMaxBytes (rows ++ own) := by
  have hmem : ∀ row, row ∈ rows ++ own ↔ row ∈ rows ∨ row ∈ stored ∨
      row = .evidence (evidenceRow sha256 contentSha256 env request) ∨
      row = .receipt (receiptRow sha256 contentSha256 env request idempotencyKey) ∨
      row = .outbox (outboxRow sha256 contentSha256 env request) := by
    intro row
    rw [hown]
    simp only [List.mem_append, List.mem_cons, List.not_mem_nil, or_false]
  have hstored : ∀ row ∈ stored, row = .artifact (artifactRow sha256 contentSha256 request) :=
    fun row hrow => hstores.mem hrow
  have hnew : uniqueKeys.Fits (.evidence (evidenceRow sha256 contentSha256 env request)) rows :=
    (UniqueKeys.unclashed_append.mp hunclashed).2.2 _ (by rw [hown]; simp)
  -- The counts for old evidence, and for the new one.
  have hcount : ∀ (p : EvidenceRow → Row → Bool),
      (∀ evidence row, p evidence row = true →
        row.about = some (evidence.tenantId, evidence.evidenceId)) →
      (∀ evidence artifact, p evidence (.artifact artifact) = false) →
      ([.evidence (evidenceRow sha256 contentSha256 env request),
        .receipt (receiptRow sha256 contentSha256 env request idempotencyKey),
        .outbox (outboxRow sha256 contentSha256 env request)] : List Row).countP
          (p (evidenceRow sha256 contentSha256 env request)) = 1 →
      (∀ evidence, .evidence evidence ∈ rows → rows.countP (p evidence) = 1) →
      ∀ evidence, .evidence evidence ∈ rows ++ own → (rows ++ own).countP (p evidence) = 1 := by
    intro p habout hartifact hone hold evidence hevidence
    rw [List.countP_append, hown, List.countP_append, hstores.countP (hartifact evidence), Nat.zero_add]
    rcases (hmem _).mp hevidence with hevidence | hevidence | hevidence | hevidence | hevidence
    · rw [hold evidence hevidence, List.countP_eq_zero.mpr]
      intro row hrow hmatches
      have hclash := hnew _ hevidence
      have hid := habout evidence row hmatches
      simp only [List.mem_cons, List.not_mem_nil, or_false] at hrow
      rcases hrow with rfl | rfl | rfl
      · cases hid
      · obtain ⟨htenant, hid⟩ := Prod.mk.inj (Option.some_inj.mp hid)
        exact hclash (by simpa [uniqueKeys, Row.clash, evidenceRow] using ⟨htenant, hid⟩)
      · obtain ⟨htenant, hid⟩ := Prod.mk.inj (Option.some_inj.mp hid)
        exact hclash (by simpa [uniqueKeys, Row.clash, evidenceRow] using ⟨htenant, hid⟩)
    · cases hstored _ hevidence
    · obtain rfl := Row.evidence.inj hevidence
      rw [h.countP_eq_zero hnew fun row => habout _ row, hone]
    · cases hevidence
    · cases hevidence
  refine ⟨hunclashed, ?_, ?_, ?_, ?_, ?_, ?_, ?_⟩
  · intro artifact hartifact
    rcases (hmem _).mp hartifact with hartifact | hartifact | hartifact | hartifact | hartifact
    · exact h.artifacts artifact hartifact
    · obtain rfl := Row.artifact.inj (hstored _ hartifact)
      exact ⟨rfl, rfl, rfl⟩
    · cases hartifact
    · cases hartifact
    · cases hartifact
  · intro evidence hevidence
    rcases (hmem _).mp hevidence with hevidence | hevidence | hevidence | hevidence | hevidence
    · obtain ⟨href, artifact, hartifact, hfound⟩ := h.stored evidence hevidence
      exact ⟨href, artifact, List.mem_append_left _ hartifact, hfound⟩
    · cases hstored _ hevidence
    · obtain rfl := Row.evidence.inj hevidence
      refine ⟨rfl, ?_⟩
      rcases hstores with ⟨-, artifact, hartifact, hfound⟩ | rfl
      · exact ⟨artifact, List.mem_append_left _ hartifact, hfound⟩
      · exact ⟨_, (hmem _).mpr (.inr (.inl (List.mem_singleton_self _))), rfl, rfl⟩
    · cases hevidence
    · cases hevidence
  · refine hcount ReceiptOf (fun _ _ => about_of_receiptOf) (fun _ _ => rfl) ?_ h.receipts
    simp [ReceiptOf, evidenceRow, receiptRow]
  · refine hcount Announces (fun _ _ => about_of_announces) (fun _ _ => rfl) ?_ h.outbox
    simp [Announces, evidenceRow, outboxRow]
  · intro row hrow id hid
    have hevidence := (hmem (.evidence (evidenceRow sha256 contentSha256 env request))).mpr
      (.inr (.inr (.inl rfl)))
    rcases (hmem _).mp hrow with hrow | hrow | rfl | rfl | rfl
    · obtain ⟨evidence, hevidence, hsame⟩ := h.about row hrow id hid
      exact ⟨evidence, List.mem_append_left _ hevidence, hsame⟩
    · rw [hstored _ hrow] at hid
      cases hid
    · cases hid
    · exact ⟨_, hevidence, Option.some_inj.mp hid⟩
    · exact ⟨_, hevidence, Option.some_inj.mp hid⟩
  · intro row hrow
    rcases (hmem _).mp hrow with hrow | hrow | hrow | hrow | hrow
    · exact h.purged row hrow
    · cases hstored _ hrow
    · cases hrow
    · cases hrow
    · cases hrow
  · intro receipt hreceipt
    rcases (hmem _).mp hreceipt with hreceipt | hreceipt | hreceipt | hreceipt | hreceipt
    · obtain ⟨hne, env', request', hrequest', hsame, hevidence⟩ := h.accepted receipt hreceipt
      exact ⟨hne, env', request', hrequest', hsame, List.mem_append_left _ hevidence⟩
    · cases hstored _ hreceipt
    · cases hreceipt
    · obtain rfl := Row.receipt.inj hreceipt
      exact ⟨hkey, env, request, hrequest, rfl, (hmem _).mpr (.inr (.inr (.inl rfl)))⟩
    · cases hreceipt

/-- Creating a case keeps the invariant. -/
theorem Kept.caseCreated (h : Kept sha256 contentSha256 evidenceMaxBytes rows) {tenantId caseId : String}
    (hunclashed : uniqueKeys.Unclashed (rows ++ [.case tenantId caseId])) :
    Kept sha256 contentSha256 evidenceMaxBytes (rows ++ [.case tenantId caseId]) := by
  have hmem : ∀ row, row ≠ .case tenantId caseId → row ∈ rows ++ [.case tenantId caseId] → row ∈ rows := by
    intro row hne hrow
    exact (List.mem_append.mp hrow).resolve_right fun hnew => hne (List.mem_singleton.mp hnew)
  refine ⟨hunclashed, ?_, ?_, ?_, ?_, ?_, ?_, ?_⟩
  · exact fun artifact hartifact => h.artifacts artifact (hmem _ nofun hartifact)
  · intro evidence hevidence
    obtain ⟨href, artifact, hartifact, hfound⟩ := h.stored evidence (hmem _ nofun hevidence)
    exact ⟨href, artifact, List.mem_append_left _ hartifact, hfound⟩
  · intro evidence hevidence
    rw [List.countP_append, h.receipts evidence (hmem _ nofun hevidence)]
    rfl
  · intro evidence hevidence
    rw [List.countP_append, h.outbox evidence (hmem _ nofun hevidence)]
    rfl
  · intro row hrow id hid
    have hne : row ≠ .case tenantId caseId := by
      rintro rfl
      cases hid
    obtain ⟨evidence, hevidence, hsame⟩ := h.about row (hmem row hne hrow) id hid
    exact ⟨evidence, List.mem_append_left _ hevidence, hsame⟩
  · exact fun row hrow => h.purged row (hmem _ nofun hrow)
  · intro receipt hreceipt
    obtain ⟨hne, env, request, hrequest, hsame, hevidence⟩ := h.accepted receipt (hmem _ nofun hreceipt)
    exact ⟨hne, env, request, hrequest, hsame, List.mem_append_left _ hevidence⟩

/-! ### Relays -/

theorem Relayed.not_fixed {row row' : Row} (h : Relayed row row') : ¬ row.Fixed ∧ ¬ row'.Fixed := by
  cases h <;> exact ⟨id, id⟩

/-- A relay keeps what a row is about. -/
theorem Relayed.about {row row' : Row} (h : Relayed row row') : row'.about = row.about := by
  cases h <;> rfl

/-- **Relays and purges keep the invariant.** -/
theorem Kept.relayed {before after : List Row} {row row' : Row}
    (h : Kept sha256 contentSha256 evidenceMaxBytes (before ++ row :: after)) (hrelayed : Relayed row row')
    (hunclashed : uniqueKeys.Unclashed (before ++ row' :: after)) :
    Kept sha256 contentSha256 evidenceMaxBytes (before ++ row' :: after) := by
  obtain ⟨hfixed, hfixed'⟩ := hrelayed.not_fixed
  have hmem : ∀ r : Row, r.Fixed → (r ∈ before ++ row' :: after ↔ r ∈ before ++ row :: after) := by
    intro r hr
    have hne : r ≠ row := fun heq => hfixed (heq ▸ hr)
    have hne' : r ≠ row' := fun heq => hfixed' (heq ▸ hr)
    simp only [List.mem_append, List.mem_cons, hne, hne', false_or]
  have hcount : ∀ p : Row → Bool, p row' = p row →
      (before ++ row' :: after).countP p = (before ++ row :: after).countP p := by
    intro p hp
    rw [List.countP_append, List.countP_append, List.countP_cons, List.countP_cons, hp]
  refine ⟨hunclashed, ?_, ?_, ?_, ?_, ?_, ?_, ?_⟩
  · exact fun artifact hartifact => h.artifacts artifact ((hmem (.artifact _) trivial).mp hartifact)
  · intro evidence hevidence
    obtain ⟨href, artifact, hartifact, hfound⟩ := h.stored evidence ((hmem (.evidence _) trivial).mp hevidence)
    exact ⟨href, artifact, (hmem (.artifact _) trivial).mpr hartifact, hfound⟩
  · intro evidence hevidence
    rw [hcount _ (by cases hrelayed <;> rfl), h.receipts evidence ((hmem (.evidence _) trivial).mp hevidence)]
  · intro evidence hevidence
    rw [hcount _ (by cases hrelayed <;> rfl), h.outbox evidence ((hmem (.evidence _) trivial).mp hevidence)]
  · intro r hr id hid
    obtain ⟨r', hr', hid'⟩ : ∃ r' ∈ before ++ row :: after, id ∈ r'.about := by
      rcases List.mem_append.mp hr with hr | hr
      · exact ⟨r, List.mem_append_left _ hr, hid⟩
      · rcases List.mem_cons.mp hr with rfl | hr
        · exact ⟨row, List.mem_append_right _ List.mem_cons_self, hrelayed.about ▸ hid⟩
        · exact ⟨r, List.mem_append_right _ (List.mem_cons_of_mem _ hr), hid⟩
    obtain ⟨evidence, hevidence, hsame⟩ := h.about r' hr' id hid'
    exact ⟨evidence, (hmem (.evidence _) trivial).mpr hevidence, hsame⟩
  · intro r hr
    rcases List.mem_append.mp hr with hr | hr
    · exact h.purged r (List.mem_append_left _ hr)
    · rcases List.mem_cons.mp hr with heq | hr
      · cases hrelayed with
        | publish => cases heq
        | purge row hpublished =>
          obtain rfl := Row.purged.inj heq
          exact hpublished
      · exact h.purged r (List.mem_append_right _ (List.mem_cons_of_mem _ hr))
  · intro receipt hreceipt
    obtain ⟨hne, env, request, hrequest, hsame, hevidence⟩ :=
      h.accepted receipt ((hmem (.receipt _) trivial).mp hreceipt)
    exact ⟨hne, env, request, hrequest, hsame, (hmem (.evidence _) trivial).mpr hevidence⟩

/-! ### Receipts -/

theorem receipt?_eq_some {tenantId : String} {receipt : ReceiptRow}
    (h : receipt? rows tenantId idempotencyKey = some receipt) : .receipt receipt ∈ rows ∧
      receipt.tenantId = tenantId ∧ receipt.idempotencyKey = idempotencyKey := by
  obtain ⟨row, hrow, hfound⟩ := List.exists_of_findSome?_eq_some h
  cases row with
  | receipt receipt' =>
    obtain ⟨hkey, hsame⟩ := Option.ite_none_right_eq_some.mp hfound
    obtain rfl := Option.some_inj.mp hsame
    exact ⟨hrow, hkey⟩
  | case | artifact | evidence | outbox | purged => cases hfound

theorem unfiled_of_receipt? {tenantId : String} (h : receipt? rows tenantId idempotencyKey = none) :
    Unfiled rows tenantId idempotencyKey := by
  intro receipt hreceipt hkey
  have hnone := List.findSome?_eq_none_iff.mp h _ hreceipt
  exact absurd hnone (by simp [hkey])

/-- Of two receipts under one key there is only one. -/
theorem Kept.receipt_unique (h : Kept sha256 contentSha256 evidenceMaxBytes rows)
    {receipt receipt' : ReceiptRow} (hreceipt : .receipt receipt ∈ rows)
    (hreceipt' : .receipt receipt' ∈ rows) (htenant : receipt.tenantId = receipt'.tenantId)
    (hkey : receipt.idempotencyKey = receipt'.idempotencyKey) : receipt = receipt' :=
  Row.receipt.inj <| h.unclashed.eq_of_clash hreceipt hreceipt'
    (by simp [uniqueKeys, Row.clash, htenant, hkey])

/-! ### The same request -/

theorem lastMember_contentBase64 (request : RegisterEvidenceRequest) :
    lastMember "contentBase64" request.members = some (.str request.contentBase64) := by
  cases h : request.declaredDigest <;>
    simp [RegisterEvidenceRequest.members, optionalMember, lastMember, h]

theorem lastMember_declaredDigest (request : RegisterEvidenceRequest) :
    lastMember "declaredDigest" request.members = request.declaredDigest.map fun d => .str d := by
  cases h : request.declaredDigest <;>
    simp [RegisterEvidenceRequest.members, optionalMember, lastMember, h]

/-- **The checks of a request depend on its digest only.** -/
theorem Registrable.congr (hsha : Function.Injective sha256) {request' : RegisterEvidenceRequest}
    (h : stableDigest sha256 request.toJson = stableDigest sha256 request'.toJson)
    (hrequest : Registrable contentSha256 evidenceMaxBytes request) :
    Registrable contentSha256 evidenceMaxBytes request' := by
  have hsame := canonicalize_lastMember_eq (stableDigest_injective hsha h)
  have hcontent : request.contentBase64.val = request'.contentBase64.val := by
    have hmember := hsame "contentBase64"
    rw [lastMember_contentBase64, lastMember_contentBase64] at hmember
    simpa [canonicalize] using hmember
  have hdeclared : request.declaredDigest.map Subtype.val = request'.declaredDigest.map Subtype.val := by
    have hmember := hsame "declaredDigest"
    rw [lastMember_declaredDigest, lastMember_declaredDigest] at hmember
    cases hd : request.declaredDigest <;> cases hd' : request'.declaredDigest <;>
      simp_all [canonicalize]
  obtain ⟨hbase64, hnonempty, hlength, hdigest⟩ := hrequest
  rw [hcontent] at hbase64 hnonempty hlength
  refine ⟨hbase64, hnonempty, hlength, fun declared hmem => ?_⟩
  have hval : declared.val ∈ request.declaredDigest.map Subtype.val := by
    rw [hdeclared]
    exact Option.mem_map_of_mem _ hmem
  obtain ⟨declared', hdeclared', heq⟩ := Option.mem_map.mp hval
  rw [← heq, hdigest declared' hdeclared', contentDigest, contentDigest, hcontent]

/-! ### Calls keep the contract -/

variable {names : List ℤ}

theorem Unfiled.later {tenantId : String} (h : Unfiled rows tenantId idempotencyKey)
    (hlater : (contract sha256 contentSha256 hashtext evidenceMaxBytes).Later names rows rows')
    (hname : lockName hashtext tenantId idempotencyKey ∈ names) : Unfiled rows' tenantId idempotencyKey := by
  rintro receipt hreceipt ⟨rfl, rfl⟩
  exact h receipt (hlater.guarded _ hreceipt _ rfl hname) ⟨rfl, rfl⟩

theorem Unfiled.refused (h : Unfiled rows request.tenantId idempotencyKey) :
    Refused sha256 request idempotencyKey rows :=
  fun receipt hreceipt htenant hkey _ => h receipt hreceipt ⟨htenant, hkey⟩

theorem Stores.later (h : Stores sha256 contentSha256 request rows stored)
    (hlater : (contract sha256 contentSha256 hashtext evidenceMaxBytes).Later names rows rows') :
    Stores sha256 contentSha256 request rows' stored := by
  rcases h with ⟨hnone, artifact, hartifact, hfound⟩ | hstored
  · exact .inl ⟨hnone, artifact, hlater.stays _ hartifact trivial, hfound⟩
  · exact .inr hstored

/-- A request that does not pass the checks was never accepted. -/
theorem Kept.refused (hsha : Function.Injective sha256)
    (h : Kept sha256 contentSha256 evidenceMaxBytes rows)
    (hno : ¬ (idempotencyKey ≠ "" ∧ Registrable contentSha256 evidenceMaxBytes request)) :
    Refused sha256 request idempotencyKey rows := by
  intro receipt hreceipt _ hkey hdigest
  obtain ⟨hne, env, request', hrequest', hsame, -⟩ := h.accepted receipt hreceipt
  have hdigest' : receipt.requestDigest = stableDigest sha256 request'.toJson := by
    rw [hsame, receiptRow]
  exact hno ⟨hkey ▸ hne, hrequest'.congr hsha (hdigest'.symm.trans hdigest)⟩

/-- The rows of new evidence. -/
theorem insertRows_wp (hunfiled : Unfiled rows request.tenantId idempotencyKey)
    (hkey : idempotencyKey ≠ "") (hrequest : Registrable contentSha256 evidenceMaxBytes request)
    (hstores : Stores sha256 contentSha256 request rows stored)
    (hname : lockName hashtext request.tenantId idempotencyKey ∈ names) :
    (do
      .add (.evidence (evidenceRow sha256 contentSha256 env request))
      .add (.receipt (receiptRow sha256 contentSha256 env request idempotencyKey))
      .add (.outbox (outboxRow sha256 contentSha256 env request))
      return .registered true (some (evidenceJson sha256 contentSha256 env request))
        : Inserts ℤ Row Failure Answer).wp
      (contract sha256 contentSha256 hashtext evidenceMaxBytes) uniqueKeys
      (fun a _ own rows =>
        Registered sha256 contentSha256 evidenceMaxBytes env request idempotencyKey rows a own)
      (fun rows _ => Refused sha256 request idempotencyKey rows) names stored rows := by
  refine Inserts.wp_add_bind nofun (fun rows₁ hlater₁ _ _ => ?_)
    fun rows' hlater _ _ => (hunfiled.later hlater hname).refused
  have hunfiled₁ := hunfiled.later hlater₁ hname
  refine Inserts.wp_add_bind (fun name hguard => ?_) (fun rows₂ hlater₂ _ _ => ?_)
    fun rows' hlater _ _ => (hunfiled₁.later hlater hname).refused
  · obtain rfl := Option.some_inj.mp hguard
    exact hname
  have hunfiled₂ := hunfiled₁.later hlater₂ hname
  refine Inserts.wp_add_bind nofun (fun rows₃ hlater₃ _ _ => ?_)
    fun rows' hlater _ _ => (hunfiled₂.later hlater hname).refused
  have hunfiled₃ := hunfiled₂.later hlater₃ hname
  refine Inserts.wp_pure fun rows₄ hlater₄ _ => ?_
  have hstores₄ := (((hstores.later hlater₁).later hlater₂).later hlater₃).later hlater₄
  simp only [List.append_assoc, List.cons_append, List.nil_append]
  exact .created stored (hunfiled₃.later hlater₄ hname) hkey hrequest hstores₄

/-- **What a call of `registerEvidence` does**, whatever others commit meanwhile. -/
theorem registerEvidence_wp (hsha : Function.Injective sha256) (rows : List Row) :
    (registerEvidence sha256 contentSha256 hashtext evidenceMaxBytes env request idempotencyKey).wp
      (contract sha256 contentSha256 hashtext evidenceMaxBytes) uniqueKeys
      (fun a _ own rows =>
        Registered sha256 contentSha256 evidenceMaxBytes env request idempotencyKey rows a own)
      (fun rows _ => Refused sha256 request idempotencyKey rows) [] [] rows := by
  rw [registerEvidence]
  refine Inserts.wp_require_bind (fun hkey => ?_)
    fun hno rows' _ hkept => hkept.refused hsha fun h => hno h.1
  refine Inserts.wp_require_bind (fun hbase64 => ?_)
    fun hno rows' _ hkept => hkept.refused hsha fun h => hno h.2.base64
  refine Inserts.wp_require_bind (fun hnonempty => ?_)
    fun hno rows' _ hkept => hkept.refused hsha fun h => hno h.2.nonempty
  refine Inserts.wp_require_bind (fun hlength => ?_)
    fun hno rows' _ hkept => hkept.refused hsha fun h => hno h.2.length
  refine Inserts.wp_require_bind (fun hdeclared => ?_)
    fun hno rows' _ hkept => hkept.refused hsha fun h => hno h.2.declared
  have hrequest : Registrable contentSha256 evidenceMaxBytes request :=
    ⟨hbase64, hnonempty, hlength, hdeclared⟩
  refine Inserts.wp_advisoryLock_bind fun rows₁ _ _ => Inserts.wp_get_bind fun rows₂ _ hkept₂ => ?_
  rw [List.append_nil]
  have hname : lockName hashtext request.tenantId idempotencyKey ∈
      [lockName hashtext request.tenantId idempotencyKey] := List.mem_singleton_self _
  cases hprior : receipt? rows₂ request.tenantId idempotencyKey with
  | some prior =>
    obtain ⟨hmem, htenant, hkey'⟩ := receipt?_eq_some hprior
    refine Inserts.wp_require_bind (fun hdigest => Inserts.wp_pure fun rows₃ hlater _ => ?_)
      fun hdigest rows₃ hlater hkept₃ => ?_
    · exact .replayed prior (hlater.stays _ hmem trivial) htenant hkey' hdigest
    · -- The receipt is the only one under the key.
      intro receipt hreceipt htenant' hkey'' hdigest'
      have heq := hkept₃.receipt_unique (hlater.stays _ hmem trivial) hreceipt
        (htenant.trans htenant'.symm) (hkey'.trans hkey''.symm)
      exact hdigest (heq ▸ hdigest')
  | none =>
    have hunfiled₂ := unfiled_of_receipt? hprior
    refine Inserts.wp_get_bind fun rows₃ hlater₃ _ => ?_
    have hunfiled₃ := hunfiled₂.later hlater₃ hname
    refine Inserts.wp_require_bind (fun _ => ?_)
      fun _ rows' hlater _ => (hunfiled₃.later hlater hname).refused
    refine Inserts.wp_addNew_bind nofun ?_ ?_
      fun rows' hlater _ _ => (hunfiled₃.later hlater hname).refused
    · intro rows₄ hlater₄ _ hpresent
      have hunfiled₄ := hunfiled₃.later hlater₄ hname
      obtain ⟨row, hrow, htarget⟩ := hpresent
      rw [List.append_nil] at hrow
      cases row with
      | artifact artifact =>
        have hfound : artifactRow sha256 contentSha256 request = artifactRow sha256 contentSha256 request ∧
            request.tenantId.val = artifact.tenantId ∧
            contentDigest contentSha256 request = artifact.artifactDigest := by
          simpa [uniqueKeys, Row.target, artifactRow] using htarget
        exact insertRows_wp hunfiled₄ hkey hrequest
          (.inl ⟨rfl, artifact, hrow, hfound.2.1.symm, hfound.2.2.symm⟩) hname
      | case | evidence | receipt | outbox | purged => cases htarget
    · intro rows₄ hlater₄ _ _
      exact insertRows_wp (hunfiled₃.later hlater₄ hname) hkey hrequest (.inr rfl) hname

/-- **Calls, relays and purges keep the contract.** -/
theorem contract_valid (hsha : Function.Injective sha256) :
    (contract sha256 contentSha256 hashtext evidenceMaxBytes).Valid uniqueKeys
      (Call.txn sha256 contentSha256 hashtext evidenceMaxBytes) Relayed where
  start := ⟨List.Pairwise.nil, nofun, nofun, nofun, nofun, nofun, nofun, nofun⟩
  changes := by
    intro row row' hrelayed
    cases hrelayed with
    | publish row time =>
      refine ⟨id, rfl, fun r hclash => ?_⟩
      cases r <;> exact hclash
    | purge row _ =>
      refine ⟨id, rfl, fun r hclash => ?_⟩
      cases r <;> cases hclash
  background := fun before row row' after hrelayed hunclashed hkept =>
    Kept.relayed hkept hrelayed hunclashed
  commit := by
    intro call rows a own hkept hunclashed hreturns
    cases call with
    | createCase tenantId caseId =>
      obtain ⟨-, rfl⟩ := hreturns
      exact Kept.caseCreated hkept hunclashed
    | registerEvidence env request idempotencyKey =>
      cases hreturns with
      | replayed receipt =>
        rw [List.append_nil]
        exact hkept
      | created stored _ hkey hrequest hstores =>
        exact Kept.registered hkept hkey hrequest hstores rfl hunclashed
  calls := by
    intro call rows _
    cases call with
    | createCase tenantId caseId =>
      exact Inserts.wp_add_bind nofun (fun _ _ _ _ => Inserts.wp_pure fun _ _ _ => ⟨rfl, rfl⟩)
        fun _ _ _ _ => trivial
    | registerEvidence env request idempotencyKey => exact registerEvidence_wp hsha rows

/-! ### What evidence has -/

theorem countP_announces (evidence : EvidenceRow) (rows : List Row) : rows.countP (Announces evidence) =
    rows.countP (OutboxOf evidence) + rows.countP (PurgedOf evidence) := by
  induction rows with
  | nil => rfl
  | cons row rows ih =>
    have hrow : (if Announces evidence row then 1 else 0) =
        (if OutboxOf evidence row then 1 else 0) + if PurgedOf evidence row then 1 else 0 := by
      cases row <;> simp [Announces, OutboxOf, PurgedOf]
    rw [List.countP_cons, List.countP_cons, List.countP_cons, ih, hrow]
    omega

/-- **Evidence is addressed by its content.** -/
theorem Kept.addressed (h : Kept sha256 contentSha256 evidenceMaxBytes rows) {evidence : EvidenceRow}
    (hevidence : .evidence evidence ∈ rows) : Addressed contentSha256 rows evidence := by
  obtain ⟨href, artifact, hartifact, htenant, hdigest⟩ := h.stored evidence hevidence
  obtain ⟨hcontent, hlength, href'⟩ := h.artifacts artifact hartifact
  have hone := h.outbox evidence hevidence
  rw [countP_announces] at hone
  refine ⟨⟨artifact, hartifact, htenant, ?_, hcontent.trans hdigest, hlength⟩,
    h.receipts evidence hevidence, ?_⟩
  · rw [href', href, htenant, hdigest]
  rcases Nat.eq_zero_or_pos (rows.countP (PurgedOf evidence)) with hzero | hpos
  · exact .inl (by omega)
  · obtain ⟨row, hrow, hpurged⟩ := List.countP_pos_iff.mp hpos
    cases row with
    | purged row =>
      obtain ⟨htenant', hid⟩ := of_decide_eq_true hpurged
      exact .inr ⟨by omega, row, hrow, htenant', hid, h.purged row hrow⟩
    | case | artifact | evidence | receipt | outbox => cases hpurged

/-! ### Repeated calls -/

theorem get?_receiptRow (env : Env) (request : RegisterEvidenceRequest) (idempotencyKey : String) :
    (receiptRow sha256 contentSha256 env request idempotencyKey).response.val.get? "evidence" =
      some (canonicalize (evidenceJson sha256 contentSha256 env request)) := by
  rw [receiptRow, Jsonb.val_ofJson, responseJson, get?_canonicalize]
  rfl

/-- What an accepted call of a request leaves: evidence, and its receipt, of the same request. -/
structure Filed (sha256 : List Char → String) (contentSha256 : List UInt8 → String) (rows : List Row)
    (request : RegisterEvidenceRequest) (idempotencyKey : String) (env₀ : Env)
    (request₀ : RegisterEvidenceRequest) : Prop where
  receipt : .receipt (receiptRow sha256 contentSha256 env₀ request₀ idempotencyKey) ∈ rows
  evidence : .evidence (evidenceRow sha256 contentSha256 env₀ request₀) ∈ rows
  tenant : request₀.tenantId.val = request.tenantId.val
  digest : stableDigest sha256 request₀.toJson = stableDigest sha256 request.toJson

theorem Filed.later {env₀ : Env} {request₀ : RegisterEvidenceRequest}
    (h : Filed sha256 contentSha256 rows request idempotencyKey env₀ request₀)
    (hlater : (contract sha256 contentSha256 hashtext evidenceMaxBytes).Later names rows rows') :
    Filed sha256 contentSha256 rows' request idempotencyKey env₀ request₀ where
  receipt := hlater.stays _ h.receipt trivial
  evidence := hlater.stays _ h.evidence trivial
  tenant := h.tenant
  digest := h.digest

/-- The receipts under a key are that of the request that was accepted. -/
theorem Filed.eq {env₀ : Env} {request₀ : RegisterEvidenceRequest}
    (h : Filed sha256 contentSha256 rows request idempotencyKey env₀ request₀)
    (hkept : Kept sha256 contentSha256 evidenceMaxBytes rows) {receipt : ReceiptRow}
    (hreceipt : .receipt receipt ∈ rows) (htenant : receipt.tenantId = request.tenantId.val)
    (hkey : receipt.idempotencyKey = idempotencyKey) :
    receipt = receiptRow sha256 contentSha256 env₀ request₀ idempotencyKey :=
  hkept.receipt_unique hreceipt h.receipt (htenant.trans h.tenant.symm) hkey

/-- **An accepted call leaves its receipt.** -/
theorem Registered.filed (hkept : Kept sha256 contentSha256 evidenceMaxBytes rows) {answer : Answer}
    (h : Registered sha256 contentSha256 evidenceMaxBytes env request idempotencyKey rows answer own) :
    ∃ created env₀ request₀ value, answer = .registered created (some value) ∧
      Filed sha256 contentSha256 (rows ++ own) request idempotencyKey env₀ request₀ ∧
      canonicalize value = canonicalize (evidenceJson sha256 contentSha256 env₀ request₀) := by
  cases h with
  | replayed receipt hreceipt htenant hkey hdigest =>
    obtain ⟨-, env₀, request₀, -, hsame, hevidence⟩ := hkept.accepted receipt hreceipt
    rw [hkey] at hsame
    subst hsame
    refine ⟨false, env₀, request₀, _, ?_, ⟨?_, ?_, htenant, hdigest⟩, canonicalize_canonicalize _⟩
    · rw [get?_receiptRow]
    · exact List.mem_append_left _ hreceipt
    · exact List.mem_append_left _ hevidence
  | created stored =>
    refine ⟨true, env, request, _, rfl, ⟨?_, ?_, rfl, rfl⟩, rfl⟩
    · exact List.mem_append_right _ (List.mem_append_right _ (by simp))
    · exact List.mem_append_right _ (List.mem_append_right _ (by simp))

end

/-- The evidence is recorded in the tables. -/
def Recorded (rows : List Row) (evidence : Json) : Prop :=
  ∃ env request, .evidence (evidenceRow sha256 contentSha256 env request) ∈ rows ∧
    evidence.SameValue (evidenceJson sha256 contentSha256 env request)

/-- **How a call under the key of an accepted one is answered**: the same request with the evidence that
is recorded, another one with an error. Neither changes the tables. -/
def Repeats (e e' : Entry Call (List Row) Failure Answer) : Prop :=
  ∀ env env' request request' idempotencyKey answer,
    e.call = .registerEvidence env request idempotencyKey → e.result = .ok answer →
    e'.call = .registerEvidence env' request' idempotencyKey →
    request'.tenantId.val = request.tenantId.val →
    e'.after = e'.before ∧
      (request'.toJson.SameValue request.toJson → ∃ created evidence evidence',
        answer = .registered created (some evidence) ∧
        e'.result = .ok (.registered false (some evidence')) ∧ evidence'.SameValue evidence ∧
        Recorded sha256 contentSha256 e'.before evidence') ∧
      (¬ request'.toJson.SameValue request.toJson → ∃ failure, e'.result = .error failure)

section

variable {sha256 : List Char → String} {contentSha256 : List UInt8 → String} {hashtext : String → ℤ}
  {evidenceMaxBytes : ℕ} {names : List ℤ}

/-- Calls that keep the contract repeat what was recorded. -/
theorem repeats_of_meets (hsha : Function.Injective sha256) {e e' : Entry Call (List Row) Failure Answer}
    (h : (contract sha256 contentSha256 hashtext evidenceMaxBytes).Meets e)
    (hlater : (contract sha256 contentSha256 hashtext evidenceMaxBytes).Later names e.after e'.before)
    (h' : (contract sha256 contentSha256 hashtext evidenceMaxBytes).Meets e') :
    Repeats sha256 contentSha256 e e' := by
  rintro env env' request request' idempotencyKey answer hcall hresult hcall' htenant
  obtain ⟨hkept, hmeets⟩ := h
  obtain ⟨hkept', hmeets'⟩ := h'
  rw [hresult, hcall] at hmeets
  rw [hcall'] at hmeets'
  obtain ⟨own, hafter, hregistered⟩ := hmeets
  obtain ⟨created, env₀, request₀, evidence, hanswer, hfiled, hevidence⟩ := hregistered.filed hkept
  rw [← hafter] at hfiled
  have hfiled' := hfiled.later hlater
  have hdigest_iff : stableDigest sha256 request₀.toJson = stableDigest sha256 request'.toJson ↔
      request'.toJson.SameValue request.toJson := by
    rw [hfiled.digest, eq_comm]
    exact (canonical_encoding hsha _ _).2.2
  cases hresult' : e'.result with
  | error failure =>
    rw [hresult'] at hmeets'
    obtain ⟨hafter', hrefused⟩ := hmeets'
    refine ⟨hafter', fun hsame => ?_, fun _ => ⟨failure, rfl⟩⟩
    exact absurd (hdigest_iff.mpr hsame)
      (hrefused _ hfiled'.receipt (hfiled'.tenant.trans htenant.symm) rfl)
  | ok answer' =>
    rw [hresult'] at hmeets'
    obtain ⟨own', hafter', hregistered'⟩ := hmeets'
    cases hregistered' with
    | created stored hunfiled =>
      -- The receipt of the accepted call is under the key.
      exact absurd ⟨hfiled'.tenant.trans htenant.symm, rfl⟩ (hunfiled _ hfiled'.receipt)
    | replayed receipt hreceipt htenant' hkey hdigest =>
      obtain rfl := hfiled'.eq hkept' hreceipt (htenant'.trans htenant) hkey
      refine ⟨by rw [hafter', List.append_nil], fun _ => ?_, fun hne => ?_⟩
      · refine ⟨created, evidence, canonicalize (evidenceJson sha256 contentSha256 env₀ request₀), hanswer,
          ?_, ?_, env₀, request₀, hfiled'.evidence, ?_⟩
        · rw [get?_receiptRow]
        · rw [← canonicalize_eq_iff, canonicalize_canonicalize, hevidence]
        · rw [← canonicalize_eq_iff, canonicalize_canonicalize]
      · exact absurd (hdigest_iff.mp hdigest) hne

/-! ## A run

A case is created, evidence is registered for it, the call is repeated, and its key is used again. -/

def sampleNow : Clock := CaseStore.Sample.now

/-- A request to register content. -/
def sampleRequest (contentBase64 : NonEmpty) : RegisterEvidenceRequest where
  tenantId := ⟨"t", by decide⟩
  caseId := ⟨"c", by decide⟩
  type := ⟨"passport", by decide⟩
  mediaType := ⟨"text/plain", by decide⟩
  contentBase64 := contentBase64
  declaredDigest := none
  source := ⟨.upload, none, none, none, none, ⟨"2026-01-01T00:00:00Z", by decide⟩, none⟩
  subjectRefs := []
  trust := ⟨⟨"low", by decide⟩, .untrustedData⟩
  classification := ⟨"CONFIDENTIAL", by decide⟩
  retentionClass := ⟨"kyc", by decide⟩
  residency := ⟨"CH", by decide⟩
  createdBy := ⟨.human, ⟨"analyst", by decide⟩, none, []⟩

/-- A registration under the key `k`. -/
def sampleRegister (tag : String) (contentBase64 : NonEmpty) : Call :=
  .registerEvidence ⟨sampleNow, sampleNow, fun _ _ => tag, 0⟩ (sampleRequest contentBase64) "k"

def sampleCalls : List Call :=
  [.createCase "t" "c", sampleRegister "1" ⟨"AAE=", by decide⟩, sampleRegister "2" ⟨"AAE=", by decide⟩,
    sampleRegister "3" ⟨"AAI=", by decide⟩]

/-- The bytes as characters. -/
def sampleHash (bytes : List UInt8) : String := String.ofList (bytes.map fun b => Char.ofNat (b.toNat + 97))

/-- The state after the calls. -/
def sampleState : Inserters Unit ℤ Call Row Failure Answer :=
  Inserters.serve (Call.txn String.ofList sampleHash (fun _ => 0) 2) uniqueKeys sampleCalls [] []

/-- What a call answered, without the evidence. -/
def outcome : Entry Call (List Row) Failure Answer → Except Failure Bool
  | ⟨_, .ok (.registered created _), _, _⟩ => .ok created
  | ⟨_, .ok .caseCreated, _, _⟩ => .ok true
  | ⟨_, .error failure, _, _⟩ => .error failure

theorem reachable_sampleState : Inserters.Reachable
    (Call.txn String.ofList sampleHash (fun _ => 0) 2) uniqueKeys Relayed sampleState :=
  Inserters.reachable_serve sampleCalls .start

/-- **Evidence is addressed by its content.** In every interleaving of calls, relays and purges each
evidence has an artifact of its tenant with the content that its digest is of, one receipt and one row in
the outbox until it is purged; and what was accepted is repeated without a change, or refused, both by
the calls that were answered and by one that is made now. -/
theorem evidence_addressed {ι : Type} [DecidableEq ι] (hsha : Function.Injective sha256)
    {s : Inserters ι ℤ Call Row Failure Answer}
    (h : Inserters.Reachable (Call.txn sha256 contentSha256 hashtext evidenceMaxBytes) uniqueKeys Relayed
      s) :
    (∀ evidence, .evidence evidence ∈ s.rows → Addressed contentSha256 s.rows evidence) ∧
      s.log.Pairwise (Repeats sha256 contentSha256) ∧
      ∀ e ∈ s.log, ∀ call, Repeats sha256 contentSha256 e (Inserters.entryOf s.rows call
        ((Call.txn sha256 contentSha256 hashtext evidenceMaxBytes call).run uniqueKeys s.rows [])) := by
  have hvalid : (contract sha256 contentSha256 hashtext evidenceMaxBytes).Valid uniqueKeys
    (Call.txn sha256 contentSha256 hashtext evidenceMaxBytes) Relayed := contract_valid hsha
  have hsound := h.sound hvalid
  refine ⟨fun evidence => Kept.addressed hsound.invariant, ?_, fun e he call => ?_⟩
  · refine hsound.logged.imp_of_mem fun {e e'} he he' hlater => ?_
    exact repeats_of_meets hsha (hsound.meets e he) hlater (hsound.meets e' he')
  · have hmeets := Inserters.meets_entryOf (c := call) hvalid hsound.invariant
    refine @repeats_of_meets _ _ _ _ [] hsha _ _ (hsound.meets e he) ?_ hmeets
    rw [Inserters.entryOf_before]
    exact hsound.later e he

/-- Three calls of a run, of which one is refused. -/
theorem evidence_addressed_sample :
    sampleState.log.map outcome = [.ok true, .ok true, .ok false,
      .error (.code "evidence.idempotency_conflict" 409)] ∧
    sampleState.rows.length = 5 ∧
    (∀ evidence, .evidence evidence ∈ sampleState.rows →
      Addressed sampleHash sampleState.rows evidence) ∧
    sampleState.log.Pairwise (Repeats String.ofList sampleHash) ∧
    ∀ e ∈ sampleState.log, ∀ call, Repeats String.ofList sampleHash e
      (Inserters.entryOf sampleState.rows call
        ((Call.txn String.ofList sampleHash (fun _ => 0) 2 call).run uniqueKeys sampleState.rows [])) :=
  ⟨by decide +kernel, by decide +kernel,
    evidence_addressed (fun _ _ => String.ofList_injective) reachable_sampleState⟩

end

end Evidence

end CaseStore

end HarnessFramework
