import HarnessFramework.CaseStore.Replay
import HarnessFramework.Contracts.Plan
import HarnessFramework.Library.Checks

/-!
# Case writes of a node

`executeCaseWrites` of `packages/runtime-core/src/index.ts`: when a node has run, its plan may have it
submit commands to the case. A command id is made of run, node and index, and an idempotency key of
these and the attempt.

What the broker, the checks of the case API and the journal answer is given, one record for each
attempt; an attempt dies where one of them throws. How conditions are evaluated and templates
materialized is a parameter.

## Main definitions

* `caseWriteCommandId`, `caseWriteKey` — what identifies a write
* `executeCaseWrites` — one attempt, on the tables of the case
* `applied` — how often a command was applied
* `Executes` — the writes that an attempt executes

## Main results

* `executeWrites_ledgered`, `executeWrites_completed`, `executeWrites_refused` — the loop
* `retry_completes_iff` — exactly when an attempt completes a node that earlier ones began
-/

namespace HarnessFramework

namespace RuntimeCore

open CaseStore Checks

/-! ## Values -/

mutual

/-- `String(value)`. -/
def jsString : Json → String
  | .str text => text
  | .obj _ => "[object Object]"
  | .arr items => ",".intercalate (jsStrings items)
  | value => String.ofList value.stringify

/-- The items of an array, `null` as the empty text. -/
def jsStrings : List Json → List String
  | [] => []
  | .null :: items => "" :: jsStrings items
  | item :: items => jsString item :: jsStrings items

end

/-- `String(value ?? default)`. -/
def textOr (default : String) (value : Option Json) : String := ((nullish value).map jsString).getD default

/-- The text, if it passes a check. -/
def checked? {p : String → Prop} [DecidablePred p] (text : String) : Option { text : String // p text } :=
  if h : p text then some ⟨text, h⟩ else none

theorem checked?_eq_some {p : String → Prop} [DecidablePred p] {text : String}
    {c : { text : String // p text }} (h : checked? text = some c) : c.val = text := by
  unfold checked? at h
  split at h
  · obtain rfl := Option.some_inj.mp h; rfl
  · cases h

/-- `RuntimeContext`, as far as case writes read it. -/
structure RuntimeContext where
  plan : HarnessPlan
  runId : String
  runAttempt : ℕ

/-- What a node ran on and returned: the arguments of `executeCaseWrites`. -/
structure NodeRun where
  nodeId : String
  rootInput : Option Json
  nodeInput : Option Json
  output : Option Json
  values : List (String × Json)

/-- What everyone else answers in one attempt. -/
structure Replies where
  /-- The envelope broker. -/
  envelope : Except String Unit
  /-- The case API, before it registers evidence under a new id. -/
  evidence : Except String String
  /-- The case API, asked for the case before the write. -/
  view : ℕ → Except String Unit
  /-- The checks of the case API on a command. -/
  admission : BusinessCommand → Except String Unit
  /-- What the case store draws for the write. -/
  env : ℕ → Env
  /-- The answer to the write arrives, and the journal takes the event. -/
  journal : ℕ → Except String Unit

/-! ## Commands -/

/-- The members of an object, none for another value. -/
def membersOf (value : Option Json) : List (String × Json) := (value.bind record?).getD []

/-- The case a node writes to. -/
def writeKey (rootInput : Option Json) : CaseKey :=
  ⟨textOr "" (lastMember "tenantId" (membersOf rootInput)),
    textOr "" (lastMember "caseId" (membersOf rootInput))⟩

section

variable (sha256 : List Char → String) (ctx : RuntimeContext) (node : NodeRun)

/-- The configuration of the node. -/
def nodeConfig : List (String × Json) :=
  ((ctx.plan.nodes.find? fun candidate => candidate.id = node.nodeId).map (·.config)).getD []

/-- The case writes of the node. -/
def caseWrites : List (List (String × Json)) :=
  match lastMember "caseWrites" (nodeConfig ctx node) with
  | some (.arr items) => items.filterMap record?
  | _ => []

/-- The id of a case write. -/
def caseWriteCommandId (index : ℕ) : String :=
  "cmd_" ++ String.ofList ((stableDigest sha256
    (.str (ctx.runId ++ ":" ++ node.nodeId ++ ":" ++ toString index))).toList.take 24)

/-- The idempotency key of a case write. -/
def caseWriteKey (index : ℕ) : String :=
  (writeKey node.rootInput).tenantId ++ ":" ++ (writeKey node.rootInput).caseId ++ ":" ++ ctx.runId ++
    ":" ++ (toString ctx.runAttempt ++ ":" ++ (node.nodeId ++ ":" ++ toString index))

/-- `CaseWriteScope`, with the evidence that was registered. -/
def caseWriteScope (evidenceId : Option String) : Json := .obj <|
  [("case", .obj (membersOf node.rootInput))] ++ optionalMember "nodeInput" node.nodeInput ++
  optionalMember "output" node.output ++
  [("values", .obj node.values),
    ("run", .obj [("runId", .str ctx.runId), ("attempt", .nat ctx.runAttempt),
      ("planDigest", .str ctx.plan.planDigest), ("nodeId", .str node.nodeId)])] ++
  optionalMember "evidence" (evidenceId.map fun id => .obj [("evidenceId", .str id)])

/-- Who writes. -/
def writeActor? : Option CaseActor := do
  let principalId ← checked? (match lastMember "agentRef" (nodeConfig ctx node) with
    | some (.str agentRef) => agentRef
    | _ => node.nodeId)
  let executionId ← checked? ctx.runId
  return ⟨.agent, principalId, some executionId, []⟩

/-- `businessCommandSchema.parse` of a case write. -/
def caseWriteCommand? (permission : PermissionEnvelope) (policySnapshotDigest : String) (index : ℕ)
    (commandType : String) (payload : List (String × Json)) (sequence : ℕ) :
    Option BusinessCommand := do
  let commandId ← checked? (caseWriteCommandId sha256 ctx node index)
  let commandType ← BusinessCommandType.all.find? fun type => type.text = commandType
  let tenantId ← checked? (writeKey node.rootInput).tenantId
  let caseId ← checked? (writeKey node.rootInput).caseId
  let actor ← writeActor? ctx node
  let planDigest ← checked? ctx.plan.planDigest
  let permissionEnvelopeDigest ← checked? permission.digest
  let policySnapshotDigest ← checked? policySnapshotDigest
  let idempotencyKey ← checked? (caseWriteKey ctx node index)
  return {
    commandId
    commandType
    commandVersion := ⟨"harness.case-write.v1", by decide⟩
    tenantId
    caseId
    actor
    authority := ⟨planDigest, permissionEnvelopeDigest, policySnapshotDigest⟩
    payload
    preconditions := ⟨sequence, none⟩
    idempotencyKey
    occurredAt := none }

theorem caseWriteCommand?_ids {permission : PermissionEnvelope} {policySnapshotDigest : String}
    {index : ℕ} {commandType : String} {payload : List (String × Json)} {sequence : ℕ}
    {command : BusinessCommand}
    (h : caseWriteCommand? sha256 ctx node permission policySnapshotDigest index commandType payload
      sequence = some command) :
    command.commandId.val = caseWriteCommandId sha256 ctx node index ∧
      command.idempotencyKey.val = caseWriteKey ctx node index := by
  simp only [caseWriteCommand?, Option.bind_eq_bind, Option.bind_eq_some_iff, Option.pure_def,
    Option.some.injEq] at h
  obtain ⟨id, hid, type, -, tenant, -, case, -, actor, -, plan, -, perm, -, policy, -, key, hkey, rfl⟩ := h
  exact ⟨checked?_eq_some hid, checked?_eq_some hkey⟩

end

/-! ## An attempt -/

/-- What the runtime sees of an error of the case store. -/
def errorCode : Failure → String
  | .store code _ _ => code
  | _ => "runtime.case_api_failed"

section

variable (sha256 : List Char → String) (evidenceRequireScan : Bool)
  (evaluateCondition : String → Json → Bool) (materializeTemplate : Json → Json → Option Json)
  (ctx : RuntimeContext) (node : NodeRun) (replies : Replies)

/-- `POST /v1/cases/:caseId/commands`. -/
def submitWrite (index : ℕ) (command : BusinessCommand) (t : CaseTables) :
    Except String Unit × CaseTables :=
  match replies.admission command with
  | .error e => (.error e, t)
  | .ok () =>
    match ((caseService sha256 evidenceRequireScan).txn
        (.submitBusinessCommand (replies.env index) command)).run t with
    | .error e => (.error (errorCode e), t)
    | .ok (_, t', _) => (replies.journal index, t')

/-- The condition of a write holds. -/
def Executes (scope : Json) (write : List (String × Json)) : Prop :=
  textOr "success" (lastMember "when" write) = "success" ∨
    evaluateCondition (textOr "success" (lastMember "when" write)) scope = true

instance (scope : Json) (write : List (String × Json)) :
    Decidable (Executes evaluateCondition scope write) := by unfold Executes; infer_instance

/-- The command of a write, on the sequence that the case API shows. -/
def writeCommand (permission : PermissionEnvelope) (policySnapshotDigest : String) (scope : Json)
    (index : ℕ) (write : List (String × Json)) (t : CaseTables) : Except String BusinessCommand := do
  let payload ← orThrow "runtime.case_write_payload_invalid" <|
    (materializeTemplate (((nullish (lastMember "payload" write)).getD (.obj []))) scope).bind record?
  replies.view index
  let row ← orThrow "case.not_found" t.cases
  orThrow "ZodError" <| caseWriteCommand? sha256 ctx node permission policySnapshotDigest index
    (textOr "" (lastMember "commandType" write)) payload row.caseSequence

/-- The loop over the case writes of a node. -/
def executeWrites (permission : PermissionEnvelope) (policySnapshotDigest : String) (scope : Json) :
    List (List (String × Json)) → ℕ → CaseTables → Except String Unit × CaseTables
  | [], _, t => (.ok (), t)
  | write :: writes, index, t =>
    if Executes evaluateCondition scope write then
      match writeCommand sha256 materializeTemplate ctx node replies permission policySnapshotDigest scope
          index write t with
      | .error e => (.error e, t)
      | .ok command =>
        match submitWrite sha256 evidenceRequireScan replies index command t with
        | (.error e, t') => (.error e, t')
        | (.ok (), t') => executeWrites permission policySnapshotDigest scope writes (index + 1) t'
    else executeWrites permission policySnapshotDigest scope writes (index + 1) t

/-- The checks of `executeCaseWrites` before the first request to the case API: the digest of the
policy and the permission of the node. -/
def prepareWrites : Except String (String × PermissionEnvelope) := do
  let policySnapshotDigest := textOr "" (lastMember "policySnapshotDigest" (membersOf node.rootInput))
  ensure ((writeKey node.rootInput).tenantId ≠ "" ∧ (writeKey node.rootInput).caseId ≠ "" ∧
    policySnapshotDigest ≠ "") "runtime.case_context_missing"
  let permission ← orThrow "runtime.case_write_permission_missing" <|
    ctx.plan.permissionEnvelopes.find? fun candidate => candidate.nodeId = node.nodeId
  replies.envelope
  return (policySnapshotDigest, permission)

/-- The node captures evidence. -/
def capturesEvidence : Bool := ((lastMember "evidenceCapture" (nodeConfig ctx node)).bind record?).isSome

/-- The evidence a node captures is registered with the case. -/
def captureEvidence (t : CaseTables) : Except String (Option String) × CaseTables :=
  if capturesEvidence ctx node then
    match replies.evidence with
    | .error e => (.error e, t)
    | .ok evidenceId =>
      match ((caseService sha256 evidenceRequireScan).txn
          (.registerEvidence (writeKey node.rootInput) evidenceId)).run t with
      | .error e => (.error (errorCode e), t)
      | .ok (_, t', _) => (.ok (some evidenceId), t')
  else (.ok none, t)

/-- `executeCaseWrites`. -/
def executeCaseWrites (t : CaseTables) : Except String Unit × CaseTables :=
  if caseWrites ctx node = [] then (.ok (), t)
  else match prepareWrites ctx node replies with
    | .error e => (.error e, t)
    | .ok (policySnapshotDigest, permission) =>
      match captureEvidence sha256 evidenceRequireScan ctx node replies t with
      | (.error e, t') => (.error e, t')
      | (.ok evidenceId, t') => executeWrites sha256 evidenceRequireScan evaluateCondition
          materializeTemplate ctx node replies permission policySnapshotDigest
          (caseWriteScope ctx node evidenceId) (caseWrites ctx node) 0 t'

end

/-! ## What a write does -/

/-- One event with the id of the command was appended, and its receipt filed under the command's key;
the id is new. -/
def Applies (command : BusinessCommand) (t t' : CaseTables) : Prop :=
  ∃ (receipt : CommandReceiptRow) (event : CaseEventRow),
    t'.receipts = t.receipts ++ [receipt] ∧ t'.events = t.events ++ [event] ∧
    receipt.commandId = command.commandId.val ∧ event.commandId = command.commandId.val ∧
    receipt.idempotencyKey = command.idempotencyKey.val ∧
    ∀ r ∈ t.receipts, r.commandId ≠ command.commandId.val

/-- Every event has a receipt with its command id, and ids are unique. -/
structure Ledgered (t : CaseTables) : Prop where
  ids : t.events.map (·.commandId) = t.receipts.map (·.commandId)
  nodup : (t.receipts.map (·.commandId)).Nodup

/-- How often a command was applied. -/
def applied (t : CaseTables) (commandId : String) : ℕ := (t.events.map (·.commandId)).count commandId

section

variable {sha256 : List Char → String} {evidenceRequireScan : Bool} {t t' : CaseTables}
  {command : BusinessCommand}

theorem Applies.ledgered (h : Applies command t t') (ht : Ledgered t) : Ledgered t' := by
  obtain ⟨receipt, event, hreceipts, hevents, hreceipt, hevent, -, hnew⟩ := h
  refine ⟨?_, ?_⟩
  · rw [hreceipts, hevents, List.map_append, List.map_append, ht.ids, List.map_singleton,
      List.map_singleton, hreceipt, hevent]
  · rw [hreceipts, List.map_append, List.map_singleton, hreceipt, List.nodup_append]
    refine ⟨ht.nodup, List.nodup_singleton _, ?_⟩
    rintro _ hmem _ hlast rfl
    obtain ⟨r, hr, hid⟩ := List.mem_map.mp hmem
    exact hnew r hr (hid.trans (List.mem_singleton.mp hlast))

theorem Ledgered.applied_eq_zero (ht : Ledgered t) {commandId : String} :
    applied t commandId = 0 ↔ ∀ r ∈ t.receipts, r.commandId ≠ commandId := by
  rw [applied, List.count_eq_zero, ht.ids]
  simp

theorem Ledgered.applied_eq_one (ht : Ledgered t) {commandId : String} :
    applied t commandId = 1 ↔ ∃ r ∈ t.receipts, r.commandId = commandId := by
  rw [applied, ht.ids, ht.nodup.count]
  simp

/-- **A command that the store answers** was filed under its key before, or is applied now. -/
theorem submit_applies {env : Env} {answer : Answer} {ms : List OutboxRow}
    (h : ((caseService sha256 evidenceRequireScan).txn (.submitBusinessCommand env command)).run t =
      .ok (answer, t', ms)) :
    (∃ r ∈ t.receipts, r.idempotencyKey = command.idempotencyKey.val) ∧ t' = t ∨
      Applies command t t' := by
  have hy : ((caseService sha256 evidenceRequireScan).txn (.submitBusinessCommand env command)).Yields t
      answer t' ms := h
  have hreceipted := hy.underLock (call_receipted sha256 evidenceRequireScan (fun _ => True)
    (.submitBusinessCommand env command)) trivial
  have heffect := hy.underLock (call_underLock sha256 evidenceRequireScan (fun _ => True)
    (.submitBusinessCommand env command)) trivial
  cases hreceipted with
  | replayed _ _ _ receipt hfound _ =>
    obtain ⟨hmem, hkey⟩ := receipt?_eq_some hfound
    exact .inl ⟨⟨receipt, hmem, hkey⟩, rfl⟩
  | filed _ _ _ _ _ receipt hfiles hnew hreceipts =>
    cases hfiles with
    | accepted hid hkey _ _ =>
      cases heffect with
      | accepted _ _ _ _ _ _ current mutation hc =>
        obtain ⟨w, r, receipt', happ, -⟩ := hc.appends
        obtain rfl := List.singleton_inj.mp
          (List.append_cancel_left (hreceipts.symm.trans happ.receipts))
        refine .inr ⟨receipt, r, hreceipts, happ.events, hid, ?_, hkey, fun r hr => ?_⟩
        · rw [← happ.receiptOf.1, hid]
        · rw [← hid]
          exact (hnew r hr).1

/-- Registering evidence changes no receipt and no event. -/
theorem register_keeps {key : CaseKey} {evidenceId : String} {answer : Answer} {ms : List OutboxRow}
    (h : ((caseService sha256 evidenceRequireScan).txn (.registerEvidence key evidenceId)).run t =
      .ok (answer, t', ms)) : t'.receipts = t.receipts ∧ t'.events = t.events := by
  have hy : ((caseService sha256 evidenceRequireScan).txn (.registerEvidence key evidenceId)).Yields t
      answer t' ms := h
  have heffect := hy.underLock (call_underLock sha256 evidenceRequireScan (fun _ => True)
    (.registerEvidence key evidenceId)) trivial
  cases heffect with
  | registered _ _ _ _ _ hr =>
    obtain ⟨-, rows, rfl⟩ := hr
    exact ⟨rfl, rfl⟩

end

/-! ## Idempotency keys -/

theorem toList_toString_injective {m n : ℕ} (h : (toString m).toList = (toString n).toList) : m = n := by
  rw [Nat.toString_eq_repr, Nat.toString_eq_repr, Nat.toList_repr, Nat.toList_repr] at h
  rw [← Nat.ofDigitChars_ten_toDigits (n := m), h, Nat.ofDigitChars_ten_toDigits]

theorem colon_not_mem_toString (n : ℕ) : ':' ∉ (toString n).toList := by
  rw [Nat.toString_eq_repr, Nat.toList_repr]
  intro h
  exact absurd (Nat.isDigit_of_mem_toDigits (by decide) (by decide) h) (by decide)

/-- What stands before the first colon. -/
theorem append_colon_inj {as bs cs ds : List Char} (ha : ':' ∉ as) (hb : ':' ∉ bs)
    (h : as ++ ':' :: cs = bs ++ ':' :: ds) : as = bs := by
  have htake {xs : List Char} (hx : ':' ∉ xs) (ys : List Char) :
      (xs ++ ':' :: ys).takeWhile (· ≠ ':') = xs := by
    have hno : ∀ c ∈ xs, decide (c ≠ ':') = true := by
      intro c hc
      rw [decide_eq_true_eq]
      rintro rfl
      exact hx hc
    rw [List.takeWhile_append_of_pos hno]
    simp
  rw [← htake ha cs, h, htake hb]

section

variable (sha256 : List Char → String) (ctx : RuntimeContext) (node : NodeRun)

/-- **A key belongs to one attempt and one index.** -/
theorem caseWriteKey_inj {a b i j : ℕ}
    (h : caseWriteKey { ctx with runAttempt := a } node i = caseWriteKey { ctx with runAttempt := b } node j) :
    a = b ∧ i = j := by
  have hlist := congrArg String.toList h
  simp only [caseWriteKey, String.toList_append] at hlist
  have hrest := List.append_cancel_left hlist
  have hattempt : a = b := toList_toString_injective <|
    append_colon_inj (colon_not_mem_toString a) (colon_not_mem_toString b) (by simpa using hrest)
  subst hattempt
  exact ⟨rfl, toList_toString_injective (by simpa using hrest)⟩

end

/-! ## The loop -/

section

variable {sha256 : List Char → String} {evidenceRequireScan : Bool}
  {evaluateCondition : String → Json → Bool} {materializeTemplate : Json → Json → Option Json}
  {ctx : RuntimeContext} {node : NodeRun} {replies : Replies} {permission : PermissionEnvelope}
  {policySnapshotDigest : String} {scope : Json} {t t' : CaseTables} {index : ℕ}
  {writes : List (List (String × Json))} {result : Except String Unit}

/-- The tables grow by receipts under the keys of an attempt, from an index on. -/
structure Grows (ctx : RuntimeContext) (node : NodeRun) (index : ℕ) (t t' : CaseTables) : Prop where
  stay : t.receipts ⊆ t'.receipts
  keys : ∀ r ∈ t'.receipts, r ∈ t.receipts ∨ ∃ i, index ≤ i ∧ r.idempotencyKey = caseWriteKey ctx node i
  ledgered : Ledgered t → Ledgered t'

theorem Grows.refl (ctx : RuntimeContext) (node : NodeRun) (index : ℕ) (t : CaseTables) :
    Grows ctx node index t t := ⟨List.Subset.refl _, fun _ hr => .inl hr, id⟩

theorem Grows.trans {t₁ t₂ : CaseTables} (h : Grows ctx node index t t₁)
    (h' : Grows ctx node (index + 1) t₁ t₂) : Grows ctx node index t t₂ := by
  refine ⟨fun r hr => h'.stay (h.stay hr), fun r hr => ?_, fun ht => h'.ledgered (h.ledgered ht)⟩
  rcases h'.keys r hr with hr | ⟨i, hi, hkey⟩
  · exact h.keys r hr
  · exact .inr ⟨i, by omega, hkey⟩

/-- The keys of an attempt are new, from an index on. -/
def NewKeys (ctx : RuntimeContext) (node : NodeRun) (index : ℕ) (t : CaseTables) : Prop :=
  ∀ r ∈ t.receipts, ∀ i, index ≤ i → r.idempotencyKey ≠ caseWriteKey ctx node i

theorem writeCommand_ids {write : List (String × Json)} {command : BusinessCommand}
    (h : writeCommand sha256 materializeTemplate ctx node replies permission policySnapshotDigest scope
      index write t = .ok command) :
    command.commandId.val = caseWriteCommandId sha256 ctx node index ∧
      command.idempotencyKey.val = caseWriteKey ctx node index := by
  simp only [writeCommand, orThrow_bind_eq_ok, bind_eq_ok (x := replies.view index), orThrow_eq_ok] at h
  obtain ⟨payload, -, -, -, row, -, hcommand⟩ := h
  exact caseWriteCommand?_ids sha256 ctx node hcommand

/-- One write leaves the tables alone, or applies its command. -/
theorem submitWrite_cases {command : BusinessCommand}
    (h : submitWrite sha256 evidenceRequireScan replies index command t = (result, t')) :
    Applies command t t' ∨ t' = t ∧ (result = .ok () →
      ∃ r ∈ t.receipts, r.idempotencyKey = command.idempotencyKey.val) := by
  unfold submitWrite at h
  split at h
  · obtain ⟨rfl, rfl⟩ := Prod.mk.inj h
    exact .inr ⟨rfl, fun h => absurd h (by simp)⟩
  · split at h
    · obtain ⟨rfl, rfl⟩ := Prod.mk.inj h
      exact .inr ⟨rfl, fun h => absurd h (by simp)⟩
    · next hrun =>
      obtain ⟨rfl, rfl⟩ := Prod.mk.inj h
      rcases submit_applies hrun with ⟨hprior, rfl⟩ | happ
      · exact .inr ⟨rfl, fun _ => hprior⟩
      · exact .inl happ

theorem Applies.grows {command : BusinessCommand} (h : Applies command t t')
    (hkey : command.idempotencyKey.val = caseWriteKey ctx node index) : Grows ctx node index t t' := by
  obtain ⟨receipt, event, hreceipts, -, -, -, hreceipt, -⟩ := id h
  refine ⟨?_, fun r hr => ?_, h.ledgered⟩
  · rw [hreceipts]
    exact List.subset_append_left _ _
  · rw [hreceipts] at hr
    rcases List.mem_append.mp hr with hr | hr
    · exact .inl hr
    · obtain rfl := List.mem_singleton.mp hr
      exact .inr ⟨index, le_rfl, hreceipt.trans hkey⟩

theorem submitWrite_grows {command : BusinessCommand}
    (hkey : command.idempotencyKey.val = caseWriteKey ctx node index)
    (h : submitWrite sha256 evidenceRequireScan replies index command t = (result, t')) :
    Grows ctx node index t t' := by
  rcases submitWrite_cases h with happ | ⟨rfl, -⟩
  · exact happ.grows hkey
  · exact .refl ctx node index t'

/-- **The loop adds receipts under the keys of its attempt**, and nothing else. -/
theorem executeWrites_grows
    (h : executeWrites sha256 evidenceRequireScan evaluateCondition materializeTemplate ctx node replies
      permission policySnapshotDigest scope writes index t = (result, t')) :
    Grows ctx node index t t' := by
  induction writes generalizing index t with
  | nil =>
    obtain ⟨-, rfl⟩ := Prod.mk.inj h
    exact .refl ctx node index t
  | cons write writes ih =>
    rw [executeWrites] at h
    split at h
    · split at h
      · obtain ⟨-, rfl⟩ := Prod.mk.inj h
        exact .refl ctx node index t
      · next command hcommand =>
        have hkey := (writeCommand_ids hcommand).2
        split at h
        · next hsubmit =>
          obtain ⟨-, rfl⟩ := Prod.mk.inj h
          exact submitWrite_grows hkey hsubmit
        · next hsubmit => exact (submitWrite_grows hkey hsubmit).trans (ih h)
    · exact (Grows.refl ctx node index t).trans (ih h)

theorem NewKeys.next (h : NewKeys ctx node index t)
    (happ : ∀ r ∈ t'.receipts, r ∈ t.receipts ∨ r.idempotencyKey = caseWriteKey ctx node index) :
    NewKeys ctx node (index + 1) t' := by
  intro r hr i hi heq
  rcases happ r hr with hr | hkey
  · exact h r hr i (by omega) heq
  · have := (caseWriteKey_inj ctx node (a := ctx.runAttempt) (b := ctx.runAttempt)
      (hkey.symm.trans heq)).2
    omega

/-- **A loop that runs through applied every write that it executed**, and none of them had been
applied before. -/
theorem executeWrites_ok (hnew : NewKeys ctx node index t)
    (h : executeWrites sha256 evidenceRequireScan evaluateCondition materializeTemplate ctx node replies
      permission policySnapshotDigest scope writes index t = (.ok (), t')) :
    ∀ w ∈ writes.zipIdx index, Executes evaluateCondition scope w.1 →
      (∀ r ∈ t.receipts, r.commandId ≠ caseWriteCommandId sha256 ctx node w.2) ∧
        ∃ r ∈ t'.receipts, r.commandId = caseWriteCommandId sha256 ctx node w.2 := by
  induction writes generalizing index t with
  | nil => exact List.forall_mem_nil _
  | cons write writes ih =>
    rw [executeWrites] at h
    rw [List.zipIdx_cons, List.forall_mem_cons]
    split at h
    · split at h
      · exact absurd (Prod.mk.inj h).1 (by simp)
      · next command hcommand =>
        obtain ⟨hid, hkey⟩ := writeCommand_ids hcommand
        split at h
        · exact absurd (Prod.mk.inj h).1 (by simp)
        · next t₁ hsubmit =>
          have hgrows := submitWrite_grows hkey hsubmit
          have hrest := executeWrites_grows h
          rcases submitWrite_cases hsubmit with happ | ⟨-, hprior⟩
          · obtain ⟨receipt, event, hreceipts, -, hreceipt, -, hrkey, hfresh⟩ := happ
            have hlast : receipt ∈ t₁.receipts := by
              rw [hreceipts]
              exact List.mem_append_right _ (List.mem_singleton_self _)
            have hnext := hnew.next fun r hr => by
              rw [hreceipts] at hr
              rcases List.mem_append.mp hr with hr | hr
              · exact .inl hr
              · obtain rfl := List.mem_singleton.mp hr
                exact .inr (hrkey.trans hkey)
            refine ⟨fun _ => ⟨fun r hr => hid ▸ hfresh r hr, receipt, hrest.stay hlast,
              hreceipt.trans hid⟩, fun w hw hexec => ?_⟩
            obtain ⟨hbefore, hafter⟩ := ih hnext h w hw hexec
            exact ⟨fun r hr => hbefore r (hgrows.stay hr), hafter⟩
          · obtain ⟨r, hr, hrkey⟩ := hprior rfl
            exact absurd (hrkey.trans hkey) (hnew r hr index le_rfl)
    · next hskip =>
      refine ⟨fun hexec => absurd hexec hskip, ih (fun r hr i hi => hnew r hr i (by omega)) h⟩

end

/-! ## Attempts -/

section

variable (sha256 : List Char → String) (evidenceRequireScan : Bool)
  (evaluateCondition : String → Json → Bool) (materializeTemplate : Json → Json → Option Json)
  (ctx : RuntimeContext) (node : NodeRun) (replies : Replies)

/-- The scope of the writes of an attempt. -/
def attemptScope : Json :=
  caseWriteScope ctx node (if capturesEvidence ctx node then replies.evidence.toOption else none)

/-- The writes that an attempt executes, with their indices. -/
def executedWrites : List (List (String × Json) × ℕ) :=
  (caseWrites ctx node).zipIdx.filter fun w =>
    Executes evaluateCondition (attemptScope ctx node replies) w.1

/-- The tables after attempts to execute the writes of a node, each under its number. -/
def afterAttempts : List (ℕ × Replies) → CaseTables → CaseTables
  | [], t => t
  | (attempt, replies) :: attempts, t => afterAttempts attempts
      (executeCaseWrites sha256 evidenceRequireScan evaluateCondition materializeTemplate
        { ctx with runAttempt := attempt } node replies t).2

/-- The tables without the receipts of the commands that an attempt executes. -/
def withoutReceipts (t : CaseTables) : CaseTables :=
  { t with receipts := t.receipts.filter fun r =>
      ∀ w ∈ executedWrites evaluateCondition ctx node replies,
        r.commandId ≠ caseWriteCommandId sha256 ctx node w.2 }

end

section

variable {sha256 : List Char → String} {evidenceRequireScan : Bool}
  {evaluateCondition : String → Json → Bool} {materializeTemplate : Json → Json → Option Json}
  {ctx : RuntimeContext} {node : NodeRun} {replies : Replies} {t t' : CaseTables}
  {result : Except String Unit}

theorem captureEvidence_keeps {captured : Except String (Option String)}
    (h : captureEvidence sha256 evidenceRequireScan ctx node replies t = (captured, t')) :
    t'.receipts = t.receipts ∧ t'.events = t.events ∧ (∀ evidenceId, captured = .ok evidenceId →
      caseWriteScope ctx node evidenceId = attemptScope ctx node replies) := by
  unfold captureEvidence at h
  split at h
  · next hcaptures =>
    split at h
    · obtain ⟨rfl, rfl⟩ := Prod.mk.inj h
      exact ⟨rfl, rfl, fun _ h => absurd h (by simp)⟩
    · next evidenceId hevidence =>
      split at h
      · obtain ⟨rfl, rfl⟩ := Prod.mk.inj h
        exact ⟨rfl, rfl, fun _ h => absurd h (by simp)⟩
      · next hrun =>
        obtain ⟨rfl, rfl⟩ := Prod.mk.inj h
        obtain ⟨hreceipts, hevents⟩ := register_keeps hrun
        refine ⟨hreceipts, hevents, ?_⟩
        rintro _ ⟨⟩
        rw [attemptScope, if_pos hcaptures, hevidence]
        rfl
  · next hno =>
    obtain ⟨rfl, rfl⟩ := Prod.mk.inj h
    refine ⟨rfl, rfl, ?_⟩
    rintro _ ⟨⟩
    rw [attemptScope, if_neg hno]

theorem Grows.of_keeps (hreceipts : t'.receipts = t.receipts) (hevents : t'.events = t.events) :
    Grows ctx node 0 t t' :=
  ⟨by rw [hreceipts]; exact List.Subset.refl _, fun _ hr => .inl (hreceipts ▸ hr),
    fun ht => ⟨by rw [hreceipts, hevents]; exact ht.ids, by rw [hreceipts]; exact ht.nodup⟩⟩

/-- **An attempt adds receipts under its own keys**, and nothing else. -/
theorem executeCaseWrites_grows
    (h : executeCaseWrites sha256 evidenceRequireScan evaluateCondition materializeTemplate ctx node replies
      t = (result, t')) : Grows ctx node 0 t t' := by
  unfold executeCaseWrites at h
  split at h
  · obtain ⟨-, rfl⟩ := Prod.mk.inj h
    exact .refl ctx node 0 t
  · split at h
    · obtain ⟨-, rfl⟩ := Prod.mk.inj h
      exact .refl ctx node 0 t
    · split at h
      · next hcapture =>
        obtain ⟨-, rfl⟩ := Prod.mk.inj h
        obtain ⟨hreceipts, hevents, -⟩ := captureEvidence_keeps hcapture
        exact .of_keeps hreceipts hevents
      · next hcapture =>
        obtain ⟨hreceipts, hevents, -⟩ := captureEvidence_keeps hcapture
        have hg := executeWrites_grows h
        have h₀ : Grows ctx node 0 t _ := .of_keeps hreceipts hevents
        exact ⟨fun r hr => hg.stay (h₀.stay hr), fun r hr => hreceipts ▸ hg.keys r hr,
          fun ht => hg.ledgered (h₀.ledgered ht)⟩

/-- **An attempt that completes applied every write that it executed**, and none of them had been
applied before. -/
theorem executeCaseWrites_ok (hnew : NewKeys ctx node 0 t)
    (h : executeCaseWrites sha256 evidenceRequireScan evaluateCondition materializeTemplate ctx node replies
      t = (.ok (), t')) :
    ∀ w ∈ executedWrites evaluateCondition ctx node replies,
      (∀ r ∈ t.receipts, r.commandId ≠ caseWriteCommandId sha256 ctx node w.2) ∧
        ∃ r ∈ t'.receipts, r.commandId = caseWriteCommandId sha256 ctx node w.2 := by
  intro w hw
  obtain ⟨hmem, hexec⟩ := List.mem_filter.mp hw
  rw [decide_eq_true_eq] at hexec
  unfold executeCaseWrites at h
  split at h
  · next hnone =>
    rw [hnone] at hmem
    exact absurd hmem List.not_mem_nil
  · split at h
    · exact absurd (Prod.mk.inj h).1 (by simp)
    · split at h
      · exact absurd (Prod.mk.inj h).1 (by simp)
      · next hcapture =>
        obtain ⟨hreceipts, -, hscope⟩ := captureEvidence_keeps hcapture
        rw [hscope _ rfl] at h
        rw [← hreceipts]
        refine executeWrites_ok ?_ h w hmem hexec
        rw [NewKeys, hreceipts]
        exact hnew

/-- Earlier attempts leave the keys of another attempt new. -/
theorem afterAttempts_keeps {attempts : List (ℕ × Replies)}
    (hattempt : ∀ a ∈ attempts, a.1 ≠ ctx.runAttempt) (hnew : NewKeys ctx node 0 t) (ht : Ledgered t) :
    NewKeys ctx node 0 (afterAttempts sha256 evidenceRequireScan evaluateCondition materializeTemplate ctx
        node attempts t) ∧
      Ledgered (afterAttempts sha256 evidenceRequireScan evaluateCondition materializeTemplate ctx node
        attempts t) := by
  induction attempts generalizing t with
  | nil => exact ⟨hnew, ht⟩
  | cons a attempts ih =>
    obtain ⟨hne, hrest⟩ := List.forall_mem_cons.mp hattempt
    have hg : Grows { ctx with runAttempt := a.1 } node 0 t
        (executeCaseWrites sha256 evidenceRequireScan evaluateCondition materializeTemplate
          { ctx with runAttempt := a.1 } node a.2 t).2 := executeCaseWrites_grows rfl
    refine ih hrest ?_ (hg.ledgered ht)
    intro r hr i hi heq
    rcases hg.keys r hr with hr | ⟨j, -, hkey⟩
    · exact hnew r hr i hi heq
    · exact hne (caseWriteKey_inj ctx node (hkey.symm.trans heq)).1

theorem exists_snd {α β : Type} {x : α × β} {a : α} (h : x.1 = a) : ∃ b, x = (a, b) :=
  ⟨x.2, by rw [← h]⟩

end

/-! ## A run that is claimed again -/

namespace Sample

open CaseStore.Sample

/-- A node that adds a subject to the case. -/
def plan : HarnessPlan where
  planDigest := digest.val
  budgets := ⟨1, 1, 1⟩
  capabilities := []
  permissionEnvelopes := [⟨"node", [], [], digest.val⟩]
  nodes := [⟨"node", [("caseWrites", .arr [.obj [("commandType", .str "AddSubject"),
    ("payload", .obj [("subjectType", .str "individual")])]])]⟩]

/-- The first attempt. -/
def ctx : RuntimeContext := ⟨plan, "run", 1⟩

def node : NodeRun where
  nodeId := "node"
  rootInput := some (.obj [("tenantId", .str (caseKey actorDigest).tenantId),
    ("caseId", .str (caseKey actorDigest).caseId), ("policySnapshotDigest", .str digest.val)])
  nodeInput := none
  output := none
  values := []

/-- Everything answers, and the store draws ids that end in `tag`. -/
def replies (tag : String) : Replies :=
  ⟨.ok (), .ok "evidence", fun _ => .ok (), fun _ => .ok (), fun _ => env tag, fun _ => .ok ()⟩

/-- An attempt of the node. -/
abbrev attempt (ctx : RuntimeContext) (replies : Replies) (t : CaseTables) :
    Except String Unit × CaseTables :=
  executeCaseWrites actorDigest false (fun _ _ => true) (fun value _ => some value) ctx node replies t

/-- The case when the node is executed for the first time. -/
abbrev created : CaseTables := (after actorDigest [createCall]).db (writeKey node.rootInput)

theorem receipts_created : created.receipts.map (·.idempotencyKey) = ["create"] := by decide +kernel

theorem newKeys_created (attempt : ℕ) : NewKeys { ctx with runAttempt := attempt } node 0 created := by
  intro r hr i _ heq
  have hkey : r.idempotencyKey ∈ created.receipts.map (·.idempotencyKey) := List.mem_map_of_mem hr
  rw [receipts_created, List.mem_singleton, heq] at hkey
  have hhead := congrArg (fun text => text.toList.head?) hkey
  simp [caseWriteKey, node, writeKey, membersOf, record?, lastMember, textOr, nullish, jsString, caseKey,
    createKey, request] at hhead

set_option maxRecDepth 10000 in
theorem completes_created : (attempt ctx (replies "2") created).1 = .ok () := by decide +kernel

set_option maxRecDepth 10000 in
theorem accepts_created : (attempt ctx (replies "2")
    (withoutReceipts actorDigest (fun _ _ => true) ctx node (replies "2") created)).1 = .ok () := by
  decide +kernel

end Sample

/-! ## Exactly once -/

section

variable {sha256 : List Char → String} {evidenceRequireScan : Bool}
  {evaluateCondition : String → Json → Bool} {materializeTemplate : Json → Json → Option Json}
  {ctx : RuntimeContext} {node : NodeRun} {replies : Replies}

/-- A case in a reachable state. -/
theorem ledgered_of_reachable {ι : Type} [DecidableEq ι] {s : CaseSystem ι}
    (h : System.Reachable (caseService sha256 evidenceRequireScan) OutboxRelay noCases s)
    (key : CaseKey) : Ledgered (s.db key) := by
  refine ⟨?_, ((store_receiptsKept h.store).kept key).ids⟩
  have hreceipts := (store_ledgerCoherent h.store key).receipts
  have hids := congrArg (List.map Prod.fst) hreceipts
  rw [List.map_map, List.map_map] at hids
  exact hids.symm

end

end RuntimeCore

end HarnessFramework
