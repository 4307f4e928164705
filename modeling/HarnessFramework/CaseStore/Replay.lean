import HarnessFramework.CaseStore.Ledger

/-!
# Repeated requests

A receipt is filed with every accepted request. A request that comes again finds it, under the row
lock or after the advisory lock of its idempotency key, and is answered from it; a request that
contradicts it is refused. Clients run side by side, and a request may come again before the first
one is through.

## Main definitions

* `Files` — the receipt that an accepted request files
* `Receipted` — what a call does with receipts
* `Kept`, `ReceiptsKept` — receipts stay, and all accepted requests have one
* `Call.Repeats`, `Call.Same`, `Answer.Replays` — a request that comes again, and its answer

## Main results

* `call_receipted` — what every call does with receipts
* `store_receiptsKept` — receipts stay, and keys are unique
* `command_idempotency` — requests that come again, in every interleaving
-/

namespace HarnessFramework

namespace CaseStore

/-! ## Receipts -/

section

variable (sha256 : List Char → String)

/-- The receipt of a request that was answered for the first time. -/
inductive Files (receipt : CommandReceiptRow) : Call → Answer → Prop
  | created {env request idempotencyKey row eventId} : idempotencyKey ≠ "" →
      receipt.idempotencyKey = idempotencyKey →
      receipt.requestDigest = stableDigest sha256 request.toJson →
      receipt.response.val.get? "eventId" = eventId →
      Files receipt (.createKycCase env request idempotencyKey) (.created true row eventId)
  | accepted {env command response} : receipt.commandId = command.commandId →
      receipt.idempotencyKey = command.idempotencyKey.val →
      receipt.requestDigest = stableDigest sha256 command.toJson → receipt.response = .ofJson response →
      Files receipt (.submitBusinessCommand env command) (.response response false)

/-- What a call that returns does with receipts: it answers from one that is, or was already, there, or
files the only one under its id and its idempotency key. -/
inductive Receipted (P : CaseTables → Prop) :
    Call → CaseTables → Answer → CaseTables → List OutboxRow → Prop
  | replayed (env command t receipt) : t.receipt? command.idempotencyKey.val = some receipt →
      receipt.requestDigest = stableDigest sha256 command.toJson →
      Receipted P (.submitBusinessCommand env command) t (.response receipt.response.val true) t []
  | existing (env request idempotencyKey t row past receipt) : P past →
      past.receipt? idempotencyKey = some receipt →
      receipt.requestDigest = stableDigest sha256 request.toJson →
      Receipted P (.createKycCase env request idempotencyKey) t
        (.created false row (receipt.response.val.get? "eventId")) t []
  | filed (call t answer t' ms receipt) : Files sha256 receipt call answer →
      (∀ r ∈ t.receipts, r.commandId ≠ receipt.commandId ∧ r.idempotencyKey ≠ receipt.idempotencyKey) →
      t'.receipts = t.receipts ++ [receipt] → Receipted P call t answer t' ms
  | registered (key evidenceId t t' ms) : t'.receipts = t.receipts →
      Receipted P (.registerEvidence key evidenceId) t (.registered evidenceId) t' ms

end

section

variable {sha256 : List Char → String} {env : Env} {t : CaseTables}

/-- `writeReceipt` files its receipt. -/
theorem writeReceipt_files {commandId commandType idempotencyKey requestDigest : String} {sequence : ℕ}
    {identifiers : List (String × String)} {response : Json} :
    (writeReceipt sha256 commandId commandType idempotencyKey requestDigest sequence identifiers
      response).wp (fun _ t' _ => ∃ receipt : CommandReceiptRow,
        (receipt.commandId = commandId ∧ receipt.idempotencyKey = idempotencyKey ∧
          receipt.requestDigest = requestDigest ∧ receipt.response = .ofJson response) ∧
        (∀ r ∈ t.receipts, r.commandId ≠ commandId ∧ r.idempotencyKey ≠ idempotencyKey) ∧
        t'.receipts = t.receipts ++ [receipt]) t := by
  simp only [writeReceipt, Txn.wp_bind, wp_insertInto, id_eq]
  intro hid hkey
  exact ⟨_, ⟨rfl, rfl, rfl, rfl⟩, fun r hr => ⟨fun h => hid ⟨r, hr, h⟩, fun h => hkey ⟨r, hr, h⟩⟩, rfl⟩

theorem insertCase_files {request : CreateKycCaseRequest} {idempotencyKey commandId : String}
    {P : CaseTables → Prop} (hne : idempotencyKey ≠ "") :
    (insertCase sha256 env request idempotencyKey commandId (stableDigest sha256 request.toJson)).wp
      (fun answer t' ms => Receipted sha256 P (.createKycCase env request idempotencyKey) t answer t' ms)
      t := by
  simp only [insertCase, Txn.wp_bind, wp_column, wp_insertInto]
  intro createdAt _ _
  refine Txn.wp_mono appendCaseEvent_wp ?_
  rintro ref _ _ ⟨r, -, rfl, rfl, rfl⟩
  refine Txn.wp_mono writeReceipt_files ?_
  rintro _ t' _ ⟨receipt, ⟨hid, hkey, hdigest, hresponse⟩, hnew, hreceipts⟩
  refine .filed _ _ _ _ _ receipt (.created hne hkey hdigest ?_) (by rw [hid, hkey]; exact hnew) hreceipts
  rw [hresponse, Jsonb.val_ofJson, get?_canonicalize]
  rfl

theorem acceptCommand_files {evidenceRequireScan : Bool} {command : BusinessCommand}
    {current : CaseRow} {P : CaseTables → Prop} :
    (acceptCommand sha256 env evidenceRequireScan command (stableDigest sha256 command.toJson) current).wp
      (fun answer t' ms => Receipted sha256 P (.submitBusinessCommand env command) t answer t' ms) t := by
  simp only [acceptCommand, Txn.wp_bind, Txn.wp_require, Txn.wp_mapThrow, Txn.wp_get, wp_column,
    Txn.wp_modify]
  intro _ _ _
  refine wp_onObjects (Txn.wp_mono applyMutation_wp ?_)
  rintro mutation objects _ -
  refine Txn.wp_mono appendCaseEvent_wp ?_
  rintro ref _ _ ⟨r, -, rfl, rfl, rfl⟩
  refine wp_onObjects (Txn.wp_mono (insertLineage_wp _ 0) ?_)
  rintro _ _ _ ⟨rfl, edges, rfl⟩ updatedAt _
  refine Txn.wp_mono writeReceipt_files ?_
  rintro _ t' _ ⟨receipt, ⟨hid, hkey, hdigest, hresponse⟩, hnew, hreceipts⟩
  exact .filed _ _ _ _ _ receipt (.accepted hid hkey hdigest hresponse)
    (by rw [hid, hkey]; exact hnew) hreceipts

/-- **What a call does with receipts.** -/
theorem call_receipted (sha256 : List Char → String) (evidenceRequireScan : Bool)
    (P : CaseTables → Prop) (call : Call) :
    ((caseService sha256 evidenceRequireScan).txn call).underLock P (Receipted sha256 P call) := by
  cases call with
  | createKycCase env request idempotencyKey =>
    simp only [caseService, Call.txn, createKycCase, Txn.underLock_require_bind,
      Txn.underLock_mapThrow, Txn.underLock_advisoryLock_bind, Txn.underLock_get_bind]
    intro hne past hpast
    split
    · next receipt hreceipt =>
      simp only [Txn.underLock_require_bind, Txn.underLock_get_bind,
        Txn.underLock_getOrThrow_bind, Txn.underLock_pure]
      intro hdigest _ _ row _ t
      exact .existing env request idempotencyKey t row past receipt hpast hreceipt hdigest
    · rw [Txn.underLock_lockKey_bind]
      exact fun t => insertCase_files hne
  | submitBusinessCommand env command =>
    simp only [caseService, Call.txn, submitBusinessCommand, Txn.underLock_require_bind,
      Txn.underLock_mapThrow, Txn.underLock_lockKey_bind, Txn.underLock_get_bind, Txn.wp_bind,
      Txn.wp_get, Txn.wp_getOrThrow]
    intro _ _ _ t current _
    split
    · next receipt hreceipt =>
      simp only [Txn.wp_bind, Txn.wp_require, Txn.wp_pure]
      exact fun hdigest => .replayed env command t receipt hreceipt hdigest
    · exact acceptCommand_files
  | registerEvidence key evidenceId =>
    simp only [caseService, Call.txn, registerEvidence, Txn.underLock_require_bind,
      Txn.underLock_lockKey_bind, Txn.underLock_get_bind, Txn.wp_bind]
    intro _ _ _ t
    refine wp_onObjects ?_
    simp only [wp_insertInto]
    intro _
    exact .registered key evidenceId t _ _ rfl

end

/-! ## Receipts stay -/

/-- The answer to a request that was not answered before. -/
def Answer.First : Answer → Prop
  | .created isNew _ _ => isNew = true
  | .response _ replayed => replayed = false
  | .registered _ => False

section

variable {sha256 : List Char → String} {P : CaseTables → Prop} {call : Call} {t t' : CaseTables}
  {answer : Answer} {ms : List OutboxRow}

/-- A call adds one receipt at most, under a new id and a new key. -/
theorem Receipted.receipts (h : Receipted sha256 P call t answer t' ms) :
    t'.receipts = t.receipts ∧ ¬ answer.First ∨ ∃ receipt, Files sha256 receipt call answer ∧
      (∀ r ∈ t.receipts, r.commandId ≠ receipt.commandId ∧ r.idempotencyKey ≠ receipt.idempotencyKey) ∧
      t'.receipts = t.receipts ++ [receipt] := by
  cases h with
  | replayed => exact .inl ⟨rfl, nofun⟩
  | existing => exact .inl ⟨rfl, nofun⟩
  | filed call t answer t' ms receipt hfiles hnew hreceipts => exact .inr ⟨receipt, hfiles, hnew, hreceipts⟩
  | registered key evidenceId t t' ms hreceipts => exact .inl ⟨hreceipts, id⟩

theorem Receipted.mem (h : Receipted sha256 P call t answer t' ms) {r : CommandReceiptRow}
    (hr : r ∈ t.receipts) : r ∈ t'.receipts := by
  rcases h.receipts with ⟨heq, -⟩ | ⟨receipt, -, -, heq⟩
  · rwa [heq]
  · rw [heq]
    exact List.mem_append_left _ hr

/-- Receipts have ids and keys of their own, and each was filed for a request. -/
structure Kept (sha256 : List Char → String) (t : CaseTables) : Prop where
  ids : (t.receipts.map (·.commandId)).Nodup
  keys : (t.receipts.map (·.idempotencyKey)).Nodup
  origin : ∀ r ∈ t.receipts, ∃ call answer, Files sha256 r call answer

theorem Kept.receipted (hkept : Kept sha256 t) (h : Receipted sha256 P call t answer t' ms) :
    Kept sha256 t' := by
  rcases h.receipts with ⟨heq, -⟩ | ⟨receipt, hfiles, hnew, heq⟩
  · constructor
    · rw [heq]; exact hkept.ids
    · rw [heq]; exact hkept.keys
    · rw [heq]; exact hkept.origin
  · have hnodup {f : CommandReceiptRow → String} (hf : (t.receipts.map f).Nodup)
        (hne : ∀ r ∈ t.receipts, f r ≠ f receipt) : (t'.receipts.map f).Nodup := by
      rw [heq, List.map_append, List.map_singleton, List.nodup_append]
      refine ⟨hf, List.nodup_singleton _, ?_⟩
      rintro _ hmem _ hnew rfl
      obtain ⟨r, hr, hr'⟩ := List.mem_map.mp hmem
      exact hne r hr (hr'.trans (List.mem_singleton.mp hnew))
    refine ⟨hnodup hkept.ids fun r hr => (hnew r hr).1, hnodup hkept.keys fun r hr => (hnew r hr).2, ?_⟩
    intro r hr
    rw [heq] at hr
    rcases List.mem_append.mp hr with hr | hr
    · exact hkept.origin r hr
    · obtain rfl := List.mem_singleton.mp hr
      exact ⟨call, answer, hfiles⟩

theorem Kept.eq_of_id (hkept : Kept sha256 t) {r r' : CommandReceiptRow} (hr : r ∈ t.receipts)
    (hr' : r' ∈ t.receipts) (h : r.commandId = r'.commandId) : r = r' :=
  List.inj_on_of_nodup_map hkept.ids hr hr' h

theorem Kept.eq_of_key (hkept : Kept sha256 t) {r r' : CommandReceiptRow} (hr : r ∈ t.receipts)
    (hr' : r' ∈ t.receipts) (h : r.idempotencyKey = r'.idempotencyKey) : r = r' :=
  List.inj_on_of_nodup_map hkept.keys hr hr' h

theorem receipt?_eq_some {idempotencyKey : String} {r : CommandReceiptRow}
    (h : t.receipt? idempotencyKey = some r) : r ∈ t.receipts ∧ r.idempotencyKey = idempotencyKey :=
  ⟨List.mem_of_find?_eq_some h, by simpa using List.find?_some h⟩

theorem Kept.receipt?_eq (hkept : Kept sha256 t) {r : CommandReceiptRow} (hr : r ∈ t.receipts) :
    t.receipt? r.idempotencyKey = some r := by
  cases hfind : t.receipt? r.idempotencyKey with
  | none => exact absurd (List.find?_eq_none.mp hfind r hr) (by simp)
  | some r' =>
    obtain ⟨hr', hkey⟩ := receipt?_eq_some hfind
    rw [hkept.eq_of_key hr' hr hkey]

end

section

variable (sha256 : List Char → String) (evidenceRequireScan : Bool)

/-- Receipts stay, and everything that was answered for the first time has one. -/
structure ReceiptsKept (st : Store CaseKey Call CaseTables OutboxRow Failure Answer) : Prop where
  kept : ∀ key, Kept sha256 (st.db key)
  stay : ∀ key t, st.Past (caseService sha256 evidenceRequireScan) key t →
    ∀ r ∈ t.receipts, r ∈ (st.db key).receipts
  filed : ∀ e ∈ st.log, ∀ answer, e.result = .ok answer → answer.First →
    ∃ r ∈ (st.db ((caseService sha256 evidenceRequireScan).key e.call)).receipts,
      Files sha256 r e.call answer

variable {sha256 evidenceRequireScan} {st st' : Store CaseKey Call CaseTables OutboxRow Failure Answer}

/-- A call that ends without a change of the tables and is not a first answer. -/
theorem ReceiptsKept.answer (h : ReceiptsKept sha256 evidenceRequireScan st) {call : Call}
    {result : Except Failure Answer} (hresult : ∀ answer, result = .ok answer → ¬ answer.First) :
    ReceiptsKept sha256 evidenceRequireScan
      (st.answer (caseService sha256 evidenceRequireScan) call result) := by
  refine ⟨h.kept, fun key t hpast => ?_, fun e he answer hok hfirst => ?_⟩
  · rcases hpast with rfl | ⟨e, he, hkey, rfl⟩
    · exact fun r hr => hr
    · rcases List.mem_append.mp he with he | he
      · exact h.stay key _ (.inr ⟨e, he, hkey, rfl⟩)
      · obtain rfl := List.mem_singleton.mp he
        exact fun r hr => hkey ▸ hr
  · rcases List.mem_append.mp he with he | he
    · exact h.filed e he answer hok hfirst
    · obtain rfl := List.mem_singleton.mp he
      exact absurd hfirst (hresult answer hok)

theorem ReceiptsKept.commit (h : ReceiptsKept sha256 evidenceRequireScan st) {call : Call}
    {answer : Answer} {t : CaseTables} {ms : List OutboxRow} {P : CaseTables → Prop}
    (hcall : Receipted sha256 P call (st.db ((caseService sha256 evidenceRequireScan).key call)) answer t ms) :
    ReceiptsKept sha256 evidenceRequireScan
      (st.commit (caseService sha256 evidenceRequireScan) call answer t ms) := by
  set S := caseService sha256 evidenceRequireScan
  have hgrows (key : CaseKey) {r : CommandReceiptRow} (hr : r ∈ (st.db key).receipts) :
      r ∈ ((st.commit S call answer t ms).db key).receipts := by
    by_cases hk : key = S.key call
    · subst hk
      rw [Store.commit_db_self]
      exact hcall.mem hr
    · rwa [Store.commit_db_of_ne hk]
  refine ⟨fun key => ?_, fun key v hpast r hr => ?_, fun e he a hok hfirst => ?_⟩
  · by_cases hk : key = S.key call
    · subst hk
      rw [Store.commit_db_self]
      exact (h.kept _).receipted hcall
    · rw [Store.commit_db_of_ne hk]
      exact h.kept key
  · rcases hpast with rfl | ⟨e, he, hkey, rfl⟩
    · exact hr
    · rw [Store.commit_log] at he
      rcases List.mem_append.mp he with he | he
      · exact hgrows key (h.stay key _ (.inr ⟨e, he, hkey, rfl⟩) r hr)
      · obtain rfl := List.mem_singleton.mp he
        exact hgrows key (hkey ▸ hr)
  · rw [Store.commit_log] at he
    rcases List.mem_append.mp he with he | he
    · obtain ⟨r, hr, hfiles⟩ := h.filed e he a hok hfirst
      exact ⟨r, hgrows _ hr, hfiles⟩
    · obtain rfl := List.mem_singleton.mp he
      obtain rfl := Except.ok.inj hok
      rcases hcall.receipts with ⟨-, hnot⟩ | ⟨r, hfiles, -, heq⟩
      · exact absurd hfirst hnot
      · refine ⟨r, ?_, hfiles⟩
        change r ∈ ((st.commit S call answer t ms).db (S.key call)).receipts
        rw [Store.commit_db_self, heq]
        exact List.mem_append_right _ (List.mem_singleton_self r)

/-- **Receipts stay** in every run. -/
theorem store_receiptsKept
    (h : Store.Reachable (caseService sha256 evidenceRequireScan) OutboxRelay noCases st) :
    ReceiptsKept sha256 evidenceRequireScan st := by
  refine Store.Reachable.invariant (ReceiptsKept sha256 evidenceRequireScan) ?_ ?_ h
  · refine ⟨fun key => ⟨List.nodup_nil, List.nodup_nil, List.forall_mem_nil _⟩, fun key t hpast => ?_,
      List.forall_mem_nil _⟩
    rcases hpast with rfl | ⟨e, he, -⟩
    · exact fun r hr => hr
    · exact absurd he List.not_mem_nil
  · intro st st' ih hstep
    rcases hstep.cases fun call => call_receipted sha256 evidenceRequireScan _ call with
      ⟨call, answer, t, ms, hcall, rfl⟩ | ⟨call, result, rfl⟩ | ⟨out, -, rfl⟩
    · exact ih.commit hcall
    · exact ih.answer fun answer hok => absurd hok (by simp)
    · exact ⟨ih.kept, ih.stay, ih.filed⟩

end

/-! ## Requests that come again -/

/-- A call comes again, or contradicts the one before: it submits a command for the same case under the
same idempotency key or the same id, or creates a case for the same tenant under the same key. -/
def Call.Repeats : Call → Call → Prop
  | .submitBusinessCommand _ command, .submitBusinessCommand _ command' =>
    commandKey command' = commandKey command ∧
      (command'.idempotencyKey = command.idempotencyKey ∨ command'.commandId = command.commandId)
  | .createKycCase _ request idempotencyKey, .createKycCase _ request' idempotencyKey' =>
    request'.tenantId = request.tenantId ∧ idempotencyKey' = idempotencyKey
  | _, _ => False

/-- Both calls have the same content, whatever the order of its members. -/
def Call.Same : Call → Call → Prop
  | .submitBusinessCommand _ command, .submitBusinessCommand _ command' =>
    canonicalize command'.toJson = canonicalize command.toJson
  | .createKycCase _ request _, .createKycCase _ request' _ =>
    canonicalize request'.toJson = canonicalize request.toJson
  | _, _ => False

/-- The first answer, given again: the recorded response, or the recorded event of the case. -/
def Answer.Replays : Answer → Answer → Prop
  | .response recorded _, later => later = .response (canonicalize recorded) true
  | .created _ _ eventId, later => ∃ row, later = .created false row eventId
  | .registered _, _ => False

/-- What the canonical form of a command holds. -/
theorem get?_command (command : BusinessCommand) :
    (canonicalize command.toJson).get? "commandId" = some (.str command.commandId) ∧
      (canonicalize command.toJson).get? "idempotencyKey" = some (.str command.idempotencyKey) := by
  rw [BusinessCommand.toJson, get?_canonicalize, get?_canonicalize]
  cases command.occurredAt <;> simp [lastMember, optionalMember, canonicalize]

theorem ids_of_canonicalize {command command' : BusinessCommand}
    (h : canonicalize command'.toJson = canonicalize command.toJson) :
    command'.commandId.val = command.commandId.val ∧
      command'.idempotencyKey.val = command.idempotencyKey.val := by
  obtain ⟨hid', hkey'⟩ := get?_command command'
  obtain ⟨hid, hkey⟩ := get?_command command
  rw [h, hid] at hid'
  rw [h, hkey] at hkey'
  exact ⟨(Json.str.inj (Option.some.inj hid')).symm, (Json.str.inj (Option.some.inj hkey')).symm⟩

/-- No command is written like a request for a case. -/
theorem canonicalize_command_ne {command : BusinessCommand} {request : CreateKycCaseRequest} :
    canonicalize command.toJson ≠ canonicalize request.toJson := by
  intro h
  have hrequest : (canonicalize request.toJson).get? "commandId" = none := by
    rw [CreateKycCaseRequest.toJson, get?_canonicalize]
    cases request.externalRef <;> simp [lastMember, optionalMember]
  rw [← h, (get?_command command).1] at hrequest
  cases hrequest

section

variable {sha256 : List Char → String} {P : CaseTables → Prop} {first call : Call} {t t' : CaseTables}
  {answer later : Answer} {ms : List OutboxRow}

/-- A receipt under the id of a command has its key, if it has its digest. -/
theorem Kept.commandId_eq (hsha : Function.Injective sha256) (hkept : Kept sha256 t)
    {r : CommandReceiptRow} (hr : r ∈ t.receipts) {command : BusinessCommand}
    (hdigest : r.requestDigest = stableDigest sha256 command.toJson) :
    r.commandId = command.commandId := by
  obtain ⟨call, answer, hfiles⟩ := hkept.origin r hr
  cases hfiles with
  | created _ _ hdigest' _ =>
    exact absurd (stableDigest_injective hsha (hdigest.symm.trans hdigest')) canonicalize_command_ne
  | accepted hid _ hdigest' _ =>
    have hsame := stableDigest_injective hsha (hdigest.symm.trans hdigest')
    exact hid.trans (ids_of_canonicalize hsame).1.symm

/-- **A request that comes again changes nothing**, and is answered only if it is the same, with the
first answer. -/
theorem Receipted.repeats (hsha : Function.Injective sha256) (hkept : Kept sha256 t)
    (hstay : ∀ past, P past → ∀ r ∈ past.receipts, r ∈ t.receipts) {r : CommandReceiptRow}
    (hr : r ∈ t.receipts) (hfiles : Files sha256 r first answer) (hrepeats : first.Repeats call)
    (h : Receipted sha256 P call t later t' ms) :
    t' = t ∧ ms = [] ∧ first.Same call ∧ answer.Replays later := by
  cases h with
  | replayed env command t receipt hfind hdigest =>
    obtain ⟨hreceipt, hkey⟩ := receipt?_eq_some hfind
    cases hfiles with
    | created => exact hrepeats.elim
    | accepted hid₀ hkey₀ hdigest₀ hresponse₀ =>
      have heq : receipt = r := by
        rcases hrepeats.2 with hsame | hsame
        · exact hkept.eq_of_key hreceipt hr (by rw [hkey, hkey₀, hsame])
        · refine hkept.eq_of_id hreceipt hr ?_
          rw [hkept.commandId_eq hsha hreceipt hdigest, hid₀, hsame]
      subst heq
      refine ⟨rfl, rfl, stableDigest_injective hsha (hdigest.symm.trans hdigest₀), ?_⟩
      rw [hresponse₀]
      rfl
  | existing env request idempotencyKey t row past receipt hpast hfind hdigest =>
    obtain ⟨hreceipt, hkey⟩ := receipt?_eq_some hfind
    cases hfiles with
    | accepted => exact hrepeats.elim
    | created _ hkey₀ hdigest₀ hevent₀ =>
      have heq : receipt = r :=
        hkept.eq_of_key (hstay past hpast receipt hreceipt) hr (by rw [hkey, hkey₀, hrepeats.2])
      subst heq
      exact ⟨rfl, rfl, stableDigest_injective hsha (hdigest.symm.trans hdigest₀), row, by rw [hevent₀]⟩
  | filed call t later t' ms receipt hnew hfresh _ =>
    obtain ⟨hneId, hneKey⟩ := hfresh r hr
    cases hfiles with
    | created _ hkey₀ _ _ =>
      cases hnew with
      | created _ hkey _ _ => exact absurd (by rw [hkey₀, hkey, hrepeats.2]) hneKey
      | accepted => exact hrepeats.elim
    | accepted hid₀ hkey₀ _ _ =>
      cases hnew with
      | created => exact hrepeats.elim
      | accepted hid hkey _ _ =>
        rcases hrepeats.2 with hsame | hsame
        · exact absurd (by rw [hkey₀, hkey, hsame]) hneKey
        · exact absurd (by rw [hid₀, hid, hsame]) hneId
  | registered => cases hfiles <;> exact hrepeats.elim

/-- A receipt of the case is there, under the key of a request. -/
structure Answerable (sha256 : List Char → String) (first : Call) (answer : Answer) (t : CaseTables) :
    Prop where
  cases : t.cases.isSome
  kept : Kept sha256 t
  filed : ∃ r ∈ t.receipts, Files sha256 r first answer

theorem stableDigest_congr {a b : Json} (h : canonicalize a = canonicalize b) :
    stableDigest sha256 a = stableDigest sha256 b := by
  rw [stableDigest, stableDigest, canonicalJson, canonicalJson, h]

/-- **The same request, where it has a receipt, is answered from it.** -/
theorem call_returns {evidenceRequireScan : Bool} {r : CommandReceiptRow}
    (hfirst : Files sha256 r first answer) (hrepeats : first.Repeats call) (hsame : first.Same call) :
    ((caseService sha256 evidenceRequireScan).txn call).returns (Answerable sha256 first answer)
      answer.Replays := by
  cases hfirst with
  | created hne _ _ _ =>
    cases call with
    | createKycCase env request idempotencyKey =>
      simp only [caseService, Call.txn, createKycCase, Txn.returns_require_bind, Txn.returns_mapThrow,
        Txn.returns_advisoryLock_bind, Txn.returns_get_bind]
      refine ⟨by rw [hrepeats.2]; exact hne, fun t ht => ?_⟩
      obtain ⟨receipt, hreceipt, hfiles⟩ := ht.filed
      cases hfiles with
      | created _ hkey hdigest hevent =>
        have hfind : t.receipt? idempotencyKey = some receipt := by
          rw [hrepeats.2, ← hkey]
          exact ht.kept.receipt?_eq hreceipt
        rw [hfind]
        simp only [Txn.returns_require_bind, Txn.returns_get_bind, Txn.returns_getOrThrow_bind,
          Txn.returns_pure]
        refine ⟨hdigest.trans (stableDigest_congr hsame).symm, fun u hu => ?_⟩
        obtain ⟨row, hrow⟩ := Option.isSome_iff_exists.mp hu.cases
        exact ⟨row, hrow, row, by rw [hevent]⟩
    | submitBusinessCommand | registerEvidence => exact hrepeats.elim
  | accepted =>
    cases call with
    | submitBusinessCommand env command =>
      simp only [caseService, Call.txn, submitBusinessCommand, Txn.returns_require_bind,
        Txn.returns_mapThrow, Txn.returns_lockKey_bind, Txn.returns_get_bind, Txn.returns_getOrThrow_bind]
      refine fun t ht => ⟨ht.cases, fun u hu => ?_⟩
      obtain ⟨current, hcurrent⟩ := Option.isSome_iff_exists.mp hu.cases
      refine ⟨current, hcurrent, ?_⟩
      obtain ⟨receipt, hreceipt, hfiles⟩ := hu.filed
      cases hfiles with
      | accepted _ hkey hdigest hresponse =>
        have hfind : u.receipt? command.idempotencyKey.val = some receipt := by
          rw [(ids_of_canonicalize hsame).2, ← hkey]
          exact hu.kept.receipt?_eq hreceipt
        rw [hfind]
        simp only [Txn.returns_require_bind, Txn.returns_pure]
        refine ⟨hdigest.trans (stableDigest_congr hsame).symm, ?_⟩
        rw [hresponse]
        rfl
    | createKycCase | registerEvidence => exact hrepeats.elim

end

/-! ## Every run -/

section

variable {sha256 : List Char → String} {evidenceRequireScan : Bool} {ι : Type} [DecidableEq ι]
  {s s' : CaseSystem ι}

/-- A case with a receipt exists. -/
theorem LedgerCoherent.cases_isSome {key : CaseKey} {t : CaseTables} {out : List OutboxRow}
    (h : LedgerCoherent key t out) {r : CommandReceiptRow} (hr : r ∈ t.receipts) : t.cases.isSome := by
  cases hcases : t.cases with
  | some row => rfl
  | none =>
    have hevents := h.sequences
    rw [CaseTables.sequence_of_none hcases, List.range'_zero, List.map_eq_nil_iff] at hevents
    have hreceipts := h.receipts
    rw [hevents, List.map_nil, List.map_eq_nil_iff] at hreceipts
    rw [hreceipts] at hr
    exact absurd hr List.not_mem_nil

/-- What was answered for the first time can be answered again. -/
theorem answerable (h : System.Reachable (caseService sha256 evidenceRequireScan) OutboxRelay noCases s)
    {e : Entry Call CaseTables Failure Answer} (he : e ∈ s.log) {answer : Answer}
    (hanswer : e.result = .ok answer) (hfirst : answer.First) :
    Answerable sha256 e.call answer (s.db ((caseService sha256 evidenceRequireScan).key e.call)) := by
  have hkept := store_receiptsKept h.store
  obtain ⟨r, hr, hfiles⟩ := hkept.filed e he answer hanswer hfirst
  exact ⟨(store_ledgerCoherent h.store _).cases_isSome hr, hkept.kept _, r, hr, hfiles⟩

/-- A request that comes again is about the same case. -/
theorem Call.Repeats.key {first call : Call} (h : first.Repeats call) :
    (caseService sha256 evidenceRequireScan).key call = (caseService sha256 evidenceRequireScan).key first := by
  cases first with
  | createKycCase env₀ request₀ idempotencyKey₀ =>
    cases call with
    | createKycCase env request idempotencyKey =>
      obtain ⟨htenant, rfl⟩ := h
      simp only [caseService, Call.key, createKey, newCaseId, htenant]
    | submitBusinessCommand | registerEvidence => exact h.elim
  | submitBusinessCommand env₀ command₀ =>
    cases call with
    | submitBusinessCommand env command => exact h.1
    | createKycCase | registerEvidence => exact h.elim
  | registerEvidence => exact h.elim

/-- A repeated request changes nothing, and is answered only if it is the same. -/
theorem step_of_repeats (hsha : Function.Injective sha256)
    (h : System.Reachable (caseService sha256 evidenceRequireScan) OutboxRelay noCases s)
    {e : Entry Call CaseTables Failure Answer} (he : e ∈ s.log) {answer : Answer}
    (hanswer : e.result = .ok answer) (hfirst : answer.First) {call : Call} (hrepeats : e.call.Repeats call)
    (hstep : System.Step (caseService sha256 evidenceRequireScan) OutboxRelay s s')
    {result : Except Failure Answer} {before after : CaseTables}
    (hlog : s'.log = s.log ++ [⟨call, result, before, after⟩]) :
    s'.db = s.db ∧ s'.outbox = s.outbox ∧
      ∀ later, result = .ok later → e.call.Same call ∧ answer.Replays later := by
  have hkept := store_receiptsKept h.store
  rcases hstep.store h.coherent with heq | hstore
  · have hsame : s'.log = s.log := congrArg Store.log heq
    rw [hsame] at hlog
    exact absurd hlog.symm (by simp)
  generalize s'.toStore = st' at hstore hlog ⊢
  rcases hstore.cases fun call => call_receipted sha256 evidenceRequireScan _ call with
    ⟨call', later, t, ms, hcall, rfl⟩ | ⟨call', error, rfl⟩ | ⟨out, -, rfl⟩
  · rw [Store.commit_log, List.append_cancel_left_eq, List.cons.injEq, Entry.mk.injEq] at hlog
    obtain ⟨⟨rfl, rfl, -, -⟩, -⟩ := hlog
    obtain ⟨r, hr, hfiles⟩ := hkept.filed e he answer hanswer hfirst
    rw [← hrepeats.key] at hr
    obtain ⟨rfl, rfl, hsame, hreplays⟩ :=
      hcall.repeats hsha (hkept.kept _) (hkept.stay _) hr hfiles hrepeats
    refine ⟨Function.update_eq_self _ _, List.append_nil _, fun later' hlater => ?_⟩
    obtain rfl := Except.ok.inj hlater
    exact ⟨hsame, hreplays⟩
  · rw [Store.answer_log, List.append_cancel_left_eq, List.cons.injEq, Entry.mk.injEq] at hlog
    obtain ⟨⟨rfl, rfl, -, -⟩, -⟩ := hlog
    exact ⟨rfl, rfl, fun later hlater => absurd hlater (by simp)⟩
  · exact absurd hlog.symm (by simp)

/-- The same request, once it was answered, does not come to throw, whatever is done beside it. -/
theorem not_throw_of_same
    (h : System.Reachable (caseService sha256 evidenceRequireScan) OutboxRelay noCases s)
    {e : Entry Call CaseTables Failure Answer} (he : e ∈ s.log) {answer : Answer}
    (hanswer : e.result = .ok answer) (hfirst : answer.First) {call : Call} (hrepeats : e.call.Repeats call)
    (hsame : e.call.Same call) {i : ι} (hidle : s.session i = none)
    (hsteps : Relation.ReflTransGen (System.Step (caseService sha256 evidenceRequireScan) OutboxRelay) s s') :
    ∀ x, s'.session i = some x → x.call = call →
      x.OnlyReads (Answerable sha256 e.call answer) answer.Replays := by
  suffices hall : e ∈ s'.log ∧ System.Reachable (caseService sha256 evidenceRequireScan) OutboxRelay noCases s' ∧
      ∀ x, s'.session i = some x → x.call = call →
        x.OnlyReads (Answerable sha256 e.call answer) answer.Replays from hall.2.2
  induction hsteps with
  | refl => exact ⟨he, h, fun x hx => absurd hx (by rw [hidle]; nofun)⟩
  | tail _ hstep ih =>
    obtain ⟨hlog, hreachable, hreads⟩ := ih
    refine ⟨hstep.mem_log hlog, hreachable.step hstep, hstep.onlyReads (A := fun c => c = call) ?_ hreads⟩
    rintro _ rfl
    have hanswerable := answerable hreachable hlog hanswer hfirst
    obtain ⟨r, -, hfiles⟩ := hanswerable.filed
    rw [hrepeats.key]
    exact ⟨hanswerable, call_returns hfiles hrepeats hsame⟩

/-- **Requests that come again.** Once a request was answered for the first time, a request that comes
again under its key, or a command that comes under its id, leaves every table as it is, and is answered
only if it is the same, with the first answer. The same request is answered: on its own at once, and
beside others it does not come to throw. -/
theorem command_idempotency (hsha : Function.Injective sha256)
    (h : System.Reachable (caseService sha256 evidenceRequireScan) OutboxRelay noCases s)
    {e : Entry Call CaseTables Failure Answer} (he : e ∈ s.log) {answer : Answer}
    (hanswer : e.result = .ok answer) (hfirst : answer.First) {call : Call}
    (hrepeats : e.call.Repeats call) :
    let S := caseService sha256 evidenceRequireScan
    S.key call = S.key e.call ∧
    (∀ s' result before after, System.Step S OutboxRelay s s' →
      s'.log = s.log ++ [⟨call, result, before, after⟩] → s'.db = s.db ∧ s'.outbox = s.outbox ∧
        ∀ later, result = .ok later → e.call.Same call ∧ answer.Replays later) ∧
    (e.call.Same call →
      (∃ later, answer.Replays later ∧
        (S.txn call).run (s.db (S.key call)) = .ok (later, s.db (S.key call), [])) ∧
      ∀ i s' x, s.session i = none → Relation.ReflTransGen (System.Step S OutboxRelay) s s' →
        s'.session i = some x → x.call = call → ∀ error, x.rest ≠ .throw error) := by
  refine ⟨hrepeats.key, ?_, fun hsame => ⟨?_, ?_⟩⟩
  · exact fun s' result before after hstep hlog =>
      step_of_repeats hsha h he hanswer hfirst hrepeats hstep hlog
  · have hanswerable := answerable h he hanswer hfirst
    obtain ⟨r, -, hfiles⟩ := hanswerable.filed
    rw [hrepeats.key]
    exact Txn.run_of_returns (call_returns hfiles hrepeats hsame) hanswerable
  · rintro i s' x hidle hsteps hx hcall error hrest
    have hreads := (not_throw_of_same h he hanswer hfirst hrepeats hsame hidle hsteps x hx hcall).1
    rw [hrest] at hreads
    exact hreads

end

namespace Sample

/-- The same request at another time, with other ids. -/
def againCall : Call := .createKycCase (env "2") request "create"

/-- The case was created. -/
def isCreated : Entry Call CaseTables Failure Answer → Bool
  | ⟨_, .ok (.created true _ _), _, _⟩ => true
  | _ => false

theorem log_createCall : (after String.ofList [createCall]).log.map isCreated = [true] := by
  decide +kernel

end Sample

open Sample in
/-- A case is created again. -/
theorem command_idempotency_sample :
    ∃ e ∈ (after String.ofList [createCall]).log, ∃ answer later, e.result = .ok answer ∧ answer.First ∧
      answer.Replays later ∧
      ((caseService String.ofList false).txn againCall).run
          ((after String.ofList [createCall]).db ((caseService String.ofList false).key againCall)) =
        .ok (later, (after String.ofList [createCall]).db ((caseService String.ofList false).key againCall), []) := by
  have hcalls : (after String.ofList [createCall]).log.map Entry.call = [createCall] :=
    Store.calls_log _ [createCall]
  obtain ⟨e, hlog, hcreated⟩ := List.map_eq_singleton_iff.mp log_createCall
  have he : e ∈ (after String.ofList [createCall]).log := hlog ▸ List.mem_singleton_self e
  have hcall : e.call = createCall := by
    rw [hlog] at hcalls
    exact (List.cons.inj hcalls).1
  unfold isCreated at hcreated
  split at hcreated
  · next call row eventId before after' =>
    obtain rfl : call = createCall := hcall
    have hagain := @command_idempotency String.ofList false Unit _ _ (fun _ _ => String.ofList_injective)
      (reachable_after String.ofList [createCall]) _ he _ rfl rfl againCall ⟨rfl, rfl⟩
    obtain ⟨later, hreplays, hrun⟩ := (hagain.2.2 rfl).1
    exact ⟨_, he, _, later, rfl, rfl, hreplays, hrun⟩
  · cases hcreated

end CaseStore

end HarnessFramework
