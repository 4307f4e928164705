import HarnessFramework.CaseApi.Tenancy
import HarnessFramework.CaseStore.Rows

/-!
# Requests to the case API as calls on the case store

What the requests of any history do to the tables of all tenants is what calls on the case store do to
the rows of each case, with those requests left out that were refused, failed or only read. What holds of
every run of the case store therefore holds of the tables that the API works on.

## Main definitions

* `asked` — the call that a request asks for, if it asks for one

## Main results

* `serve_refines` — a request does to the tables what the call it asks for does to its case, or nothing
* `history_refines` — histories of requests refine runs of the case store
* `history_verifies` — verification accepts the ledgers that requests leave
-/

namespace HarnessFramework

namespace CaseApi

open CaseStore Checks

/-- The call that an operation makes on the case store. -/
def Operation.call? (env : Env) : Operation → Option Call
  | .work (.call call) => some call
  | .register request _ =>
    some (.registerEvidence ⟨request.tenantId, request.caseId⟩ (Evidence.evidenceId env))
  | _ => none

section

variable (S : Server)

/-- The call on the case store that a request asks for. -/
def asked (v : Visit) : Option Call :=
  match operation S v with
  | .ok op => op.call? v.env
  | .error _ => none

end

section

variable {S : Server} {v : Visit} {db : Database} {st : Ledgers}

/-- The routes that work on a case. -/
theorem call_of_operation {call : Call} (h : operation S v = .ok (.work (.call call))) :
    (∃ request idempotencyKey, call = .createKycCase v.env request idempotencyKey) ∨
      ∃ caseId command, v.route = .submitCommand caseId (some command) ∧
        call = .submitBusinessCommand v.env command := by
  rw [operation] at h
  split at h
  · obtain ⟨admission, hadmission, hwork⟩ := bind_eq_ok.mp h
    simp only [createCase, bind_eq_ok (x := authorize _ _ _), bind_eq_ok (x := workloadEnvelope _ _ _ _),
      ensure_bind_eq_ok, orThrow_bind_eq_ok, pure_eq_ok] at hadmission
    obtain ⟨principal, -, envelope, -, request, -, -, rfl⟩ := hadmission
    cases pure_eq_ok.mp hwork
    exact .inl ⟨request, _, rfl⟩
  · simp only [bind_eq_ok (x := Visit.authorize _ _ _), ensure_bind_eq_ok, pure_eq_ok] at h
    obtain ⟨principal, -, -, ⟨⟩⟩ := h
  · simp only [bind_eq_ok (x := Visit.authorize _ _ _), pure_eq_ok] at h
    obtain ⟨principal, -, ⟨⟩⟩ := h
  · next caseId body hroute =>
    obtain ⟨admission, hadmission, hwork⟩ := bind_eq_ok.mp h
    simp only [submitCommand, bind_eq_ok (x := authorize _ _ _), bind_eq_ok (x := workloadEnvelope _ _ _ _),
      bind_eq_ok (x := assertCommandAllowed _ _ _), ensure_bind_eq_ok, orThrow_bind_eq_ok,
      pure_eq_ok] at hadmission
    obtain ⟨principal, -, command, rfl, -, -, envelope, -, -, -, rfl⟩ := hadmission
    cases pure_eq_ok.mp hwork
    exact .inr ⟨caseId, command, hroute, rfl⟩
  · simp only [bind_eq_ok (x := Visit.authorize _ _ _), pure_eq_ok] at h
    obtain ⟨principal, -, ⟨⟩⟩ := h
  · simp only [bind_eq_ok (x := Visit.authorize _ _ _), pure_eq_ok] at h
    obtain ⟨principal, -, ⟨⟩⟩ := h
  · obtain ⟨admission, -, hwork⟩ := bind_eq_ok.mp h
    simp only [orThrow_bind_eq_ok, pure_eq_ok] at hwork
    obtain ⟨request, -, ⟨⟩⟩ := hwork
  · simp only [bind_eq_ok (x := Visit.authorize _ _ _), pure_eq_ok] at h
    obtain ⟨principal, -, ⟨⟩⟩ := h

/-- Evidence is not registered as a piece of work. -/
theorem ne_registerEvidence_of_operation {call : Call} (h : operation S v = .ok (.work (.call call))) :
    ∀ key evidenceId, call ≠ .registerEvidence key evidenceId := by
  rintro key evidenceId rfl
  rcases call_of_operation h with ⟨_, _, ⟨⟩⟩ | ⟨_, _, -, ⟨⟩⟩

theorem canonical_of_asked {call : Call}
    (hcanonical : ∀ caseId command, v.route = .submitCommand caseId (some command) →
      ∀ text ∈ command.occurredAt, ThreeFractionDigits text.val)
    (h : asked S v = some call) : call.Canonical := by
  rw [asked] at h
  cases hop : operation S v with
  | error error =>
    rw [hop] at h
    cases h
  | ok op =>
    rw [hop] at h
    cases op with
    | work work =>
      cases work with
      | call call' =>
        obtain rfl := Option.some_inj.mp h
        rcases call_of_operation hop with ⟨request, idempotencyKey, rfl⟩ | ⟨caseId, command, hroute, rfl⟩
        · trivial
        · exact hcanonical caseId command hroute
      | registered key evidenceId => cases h
    | register request idempotencyKey =>
      obtain rfl := Option.some_inj.mp h
      trivial
    | listCases | getCase | listEvents | verifyLedger | getEvidence => cases h

/-- **A request does to the tables what the call it asks for does to its case, or nothing.** -/
theorem serve_refines (h : db.Refines st) (v : Visit) :
    (serve S db v).2 = db ∨ ∃ call, asked S v = some call ∧
      (serve S db v).2.Refines (st.call (caseService S.sha256 S.evidenceRequireScan) call) := by
  rw [serve, asked]
  cases hop : operation S v with
  | error error => exact .inl rfl
  | ok op =>
    cases op with
    | work work =>
      cases work with
      | call call =>
        cases hcall : db.call S.sha256 S.evidenceRequireScan call with
        | error failure => exact .inl (by simp only [Operation.run, hcall])
        | ok r =>
          refine .inr ⟨call, rfl, ?_⟩
          simp only [Operation.run, hcall]
          exact h.call (ne_registerEvidence_of_operation hop) hcall
      | registered key evidenceId => exact .inl rfl
    | register request idempotencyKey =>
      cases hregister : db.register S.sha256 S.contentSha256 S.hashtext S.evidenceMaxBytes v.env request
          idempotencyKey with
      | error failure => exact .inl (by simp only [Operation.run, hregister])
      | ok r =>
        simp only [Operation.run, hregister]
        rcases h.register S.evidenceRequireScan hregister with hsame | hrefines
        · exact .inl hsame
        · exact .inr ⟨_, rfl, hrefines⟩
    | listCases | getCase | listEvents | verifyLedger | getEvidence => exact .inl rfl

theorem serveAll_refines (h : List Visit) (hrefines : db.Refines st) :
    ∃ calls, calls.Sublist (h.filterMap (asked S)) ∧
      (Noninterference.serveAll (serve S) db h).2.Refines
        (Store.calls (caseService S.sha256 S.evidenceRequireScan) st calls) := by
  induction h generalizing db st with
  | nil => exact ⟨[], .slnil, hrefines⟩
  | cons v h ih =>
    rcases serve_refines hrefines v with hsame | ⟨call, hasked, hcall⟩
    · obtain ⟨calls, hsub, hcalls⟩ := ih hrefines
      refine ⟨calls, ?_, ?_⟩
      · rw [List.filterMap_cons]
        split
        · exact hsub
        · exact hsub.cons _
      · rw [← hsame] at hcalls
        exact hcalls
    · obtain ⟨calls, hsub, hcalls⟩ := ih hcall
      refine ⟨call :: calls, ?_, hcalls⟩
      rw [List.filterMap_cons_some hasked]
      exact hsub.cons_cons _

/-- **Histories of requests refine runs of the case store.** What the requests of a history leave in the
tables are, case by case, the rows that some of the calls they ask for leave in the case store, in the order
of the requests; and the ledger of every case is coherent. -/
theorem history_refines (S : Server) (h : List Visit) :
    (∃ calls, calls.Sublist (h.filterMap (asked S)) ∧
      (history S h).2.Refines
        (Store.calls (caseService S.sha256 S.evidenceRequireScan) ⟨noCases, [], []⟩ calls)) ∧
    ∀ key, LedgerCoherent key ((history S h).2.ofCase key) (history S h).2.outbox := by
  obtain ⟨calls, hsub, hrefines⟩ := serveAll_refines (S := S) h Database.refines_empty
  refine ⟨⟨calls, hsub, hrefines⟩, fun key => ?_⟩
  have hreach := reachable_calls S.sha256 S.evidenceRequireScan calls
  have hcoherent := store_ledgerCoherent hreach.store key
  rw [history, hrefines.rows, hrefines.outbox]
  exact hcoherent

/-- **Verification accepts the ledgers that requests leave**, if every command requested spells the time at
which its event occurred with three fraction digits or leaves it out. -/
theorem history_verifies (S : Server) (h : List Visit)
    (hcanonical : ∀ v ∈ h, ∀ caseId command, v.route = .submitCommand caseId (some command) →
      ∀ text ∈ command.occurredAt, ThreeFractionDigits text.val) (key : CaseKey) :
    (verifyCaseLedger S.sha256 key (rowsOf key (history S h).2.events)).isValid = true := by
  obtain ⟨calls, hsub, hrefines⟩ := serveAll_refines (S := S) h Database.refines_empty
  have hreach := reachable_calls S.sha256 S.evidenceRequireScan calls
  have hlog : ∀ call ∈ calls, call.Canonical := by
    intro call hcall
    obtain ⟨v, hv, hasked⟩ := List.mem_filterMap.mp (hsub.subset hcall)
    exact canonical_of_asked (hcanonical v hv) hasked
  have hevents : rowsOf key (history S h).2.events =
      ((Store.calls (caseService S.sha256 S.evidenceRequireScan) ⟨noCases, [], []⟩ calls).db key).events :=
    congrArg CaseTables.events (hrefines.rows key)
  rw [hevents]
  refine (verify_honest hreach key fun entry hentry _ _ => hlog _ ?_).2
  have hcalls := Store.calls_log (S := caseService S.sha256 S.evidenceRequireScan) ⟨noCases, [], []⟩ calls
  rw [List.map_nil, List.nil_append] at hcalls
  rw [← hcalls]
  exact List.mem_map_of_mem hentry

open Sample in
/-- An analyst of either tenant asks for a case. -/
theorem history_verifies_sample :
    (verifyCaseLedger String.ofList (createKey String.ofList CaseStore.Sample.request "create")
      (rowsOf (createKey String.ofList CaseStore.Sample.request "create")
        (history twoTenants [otherVisit, ownVisit]).2.events)).isValid = true ∧
      (rowsOf (createKey String.ofList CaseStore.Sample.request "create")
        (history twoTenants [otherVisit, ownVisit]).2.events).length = 1 := by
  refine ⟨history_verifies twoTenants [otherVisit, ownVisit] ?_ _, by decide +kernel⟩
  intro v hv caseId command hroute
  simp only [List.mem_cons, List.not_mem_nil, or_false] at hv
  rcases hv with rfl | rfl <;> cases hroute

end

end CaseApi

end HarnessFramework
