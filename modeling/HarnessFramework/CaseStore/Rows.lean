import HarnessFramework.CaseStore.Database
import HarnessFramework.CaseStore.Ledger
import HarnessFramework.CaseStore.Writes

/-!
# The tables, case by case

The tables of all cases are a refinement of the store that keeps the rows of every case under its key:
whatever a call does to the tables, the same call does to the store. What is proved of the store therefore
holds of the rows of every case.

## Main definitions

* `Ledgers` — the store of the cases
* `Database.Refines` — the tables and the store have the same rows of every case

## Main results

* `Database.Refines.call` — a call does the same to both
* `Database.Refines.register` — so does a registration, as far as the case sees it
-/

namespace HarnessFramework

namespace CaseStore

/-- The rows of every case under its key. -/
abbrev Ledgers : Type := Store CaseKey Call CaseTables OutboxRow Failure Answer

/-! ## Rows that are put -/

section

variable {ρ : Type} {key key' : CaseKey} {new : List ρ} {rows : List (WithCase ρ)}

theorem rowsOf_putRows_self : rowsOf key (putRows key new rows) = new := by
  have hold : (rows.filter fun r => r.1 ≠ key).filter (fun r => r.1 = key) = [] := by
    rw [List.filter_filter, List.filter_eq_nil_iff]
    simp
  have hnew : (new.map fun r => (key, r)).filter (fun r => r.1 = key) = new.map fun r => (key, r) := by
    rw [List.filter_eq_self]
    simp
  rw [rowsOf, putRows, List.filter_append, hold, hnew, List.nil_append, List.map_map]
  exact List.map_id _

theorem rowsOf_putRows_of_ne (h : key' ≠ key) : rowsOf key' (putRows key new rows) = rowsOf key' rows := by
  have hnew : (new.map fun r => (key, r)).filter (fun r => r.1 = key') = [] := by
    rw [List.filter_eq_nil_iff]
    simp [h.symm]
  rw [rowsOf, putRows, List.filter_append, hnew, List.append_nil, List.filter_filter, rowsOf]
  refine congrArg _ (List.filter_congr fun r _ => ?_)
  by_cases hr : r.1 = key'
  · simp [hr, h]
  · simp [hr]

end

namespace Database

variable {db db' : Database} {key key' : CaseKey} {t : CaseTables}

/-- The rows of the case are the rows that were put. -/
theorem ofCase_put_self (h : t.objects.evidenceObjects = (db.ofCase key).objects.evidenceObjects) :
    (db.put key t).ofCase key = t := by
  obtain ⟨cases, events, head, receipts, objects⟩ := t
  have hcases : cases.toList.head? = cases := by cases cases <;> rfl
  have hhead : head.toList.head? = head := by cases head <;> rfl
  rw [ofCase]
  simp only [put, rowsOf_putRows_self, hcases, hhead]
  exact congrArg _ (congrArg (fun rows => { objects with evidenceObjects := rows }) h.symm)

/-- The rows of the other cases are as they were. -/
theorem ofCase_put_of_ne (h : key' ≠ key) : (db.put key t).ofCase key' = db.ofCase key' := by
  rw [ofCase, ofCase]
  simp only [put, rowsOf_putRows_of_ne h]
  rfl

end Database

/-! ## Evidence is not written by commands -/

section

variable {sha256 : List Char → String} {evidenceRequireScan : Bool}

/-- A call that is no registration leaves the evidence objects as they are. -/
theorem evidenceObjects_of_yields {call : Call} (hcall : ∀ key evidenceId, call ≠ .registerEvidence key evidenceId)
    {t t' : CaseTables} {answer : Answer} {sent : List OutboxRow}
    (hy : (call.txn sha256 evidenceRequireScan).Yields t answer t' sent) :
    t'.objects.evidenceObjects = t.objects.evidenceObjects := by
  have heffect := hy.underLock (call_underLock sha256 evidenceRequireScan (fun _ => True) call) trivial
  have hwritten := hy.underLock (call_written sha256 evidenceRequireScan (fun _ => True) call) trivial
  cases heffect with
  | replayed | existing => rfl
  | created _ _ _ _ _ _ _ _ hc => rw [hc.objects]
  | accepted =>
    cases hwritten with
    | accepted _ _ _ _ _ _ _ _ _ hwrites hobjects =>
      rw [hobjects]
      exact hwrites.evidenceObjects
    | other _ _ _ _ _ _ hanswer => exact absurd rfl (hanswer _)
  | registered key evidenceId => exact absurd rfl (hcall key evidenceId)

/-- A new id is registered in a case that there is. -/
theorem registerEvidence_yields {t : CaseTables} {evidenceId : String} (hcase : t.cases.isSome)
    (hnew : ¬ ∃ r ∈ t.objects.evidenceObjects, r.evidenceId = evidenceId) :
    (registerEvidence evidenceId).Yields t (.registered evidenceId)
      { t with objects := { t.objects with
        evidenceObjects := t.objects.evidenceObjects ++ [⟨evidenceId, .digestVerified, .pocNotScanned⟩] } }
      [] := by
  simp only [registerEvidence, Txn.yields_bind, Txn.yields_get, Txn.yields_require, Txn.yields_pure,
    yields_onObjects, yields_insertInto]
  refine ⟨t, t, [], [], ⟨rfl, rfl, rfl⟩, ?_, rfl⟩
  refine ⟨(), t, [], [], ⟨hcase, rfl, rfl⟩, ?_, rfl⟩
  refine ⟨(), t, [], [], Txn.yields_lock.mpr (Txn.yields_ret.mpr ⟨rfl, rfl, rfl⟩), ?_, rfl⟩
  exact ⟨(), _, [], [], ⟨_, ⟨hnew, rfl, rfl⟩, rfl⟩, ⟨trivial, rfl, rfl⟩, rfl⟩

end

/-! ## Refinement -/

/-- The tables and the store have the same rows of every case, and the same outbox. The evidence store has
no rows of `cases` of its own. -/
structure Database.Refines (db : Database) (st : Ledgers) : Prop where
  rows : ∀ key, db.ofCase key = st.db key
  outbox : db.outbox = st.outbox
  evidence : ∀ tenantId caseId, .case tenantId caseId ∉ db.evidence

section

variable {sha256 : List Char → String} {evidenceRequireScan : Bool} {db db' : Database} {st : Ledgers}

theorem Database.refines_empty : Database.empty.Refines ⟨noCases, [], []⟩ :=
  ⟨fun _ => rfl, rfl, fun _ _ => List.not_mem_nil⟩

/-- **A call does the same to the tables and to the store.** -/
theorem Database.Refines.call (h : db.Refines st) {call : Call}
    (hcall : ∀ key evidenceId, call ≠ .registerEvidence key evidenceId) {answer : Answer}
    (hok : db.call sha256 evidenceRequireScan call = .ok (answer, db')) :
    db'.Refines (st.call (caseService sha256 evidenceRequireScan) call) := by
  rw [Database.call] at hok
  split at hok
  · cases hok
  · next answer' after sent hrun =>
    split at hok
    · cases hok
    · cases hok
      have hkeep := evidenceObjects_of_yields hcall hrun
      have hstore : st.call (caseService sha256 evidenceRequireScan) call =
          st.commit (caseService sha256 evidenceRequireScan) call answer after sent := by
        have hrun' : ((caseService sha256 evidenceRequireScan).txn call).run
            (st.db ((caseService sha256 evidenceRequireScan).key call)) = .ok (answer, after, sent) := by
          rw [← h.rows]
          exact hrun
        rw [Store.call, hrun']
      rw [hstore]
      refine ⟨fun key => ?_, by rw [Store.commit_outbox, ← h.outbox]; rfl, h.evidence⟩
      by_cases hkey : key = call.key sha256
      · subst hkey
        exact (Database.ofCase_put_self hkeep).trans
          (Store.commit_db_self (S := caseService sha256 evidenceRequireScan)).symm
      · refine (Database.ofCase_put_of_ne hkey).trans ((h.rows key).trans ?_)
        exact (Store.commit_db_of_ne (S := caseService sha256 evidenceRequireScan) hkey).symm

end

/-! ## Registrations -/

section

variable {sha256 : List Char → String} {contentSha256 : List UInt8 → String} {hashtext : String → ℤ}
  {evidenceMaxBytes : ℕ} {env : Env} {request : Evidence.RegisterEvidenceRequest}
  {idempotencyKey : String}

open Evidence in
/-- What a registration that returns inserts: nothing, or the rows of new evidence of a case. -/
theorem registerEvidence_run {rows own : List Evidence.Row} {answer : Evidence.Answer}
    (h : (Evidence.registerEvidence sha256 contentSha256 hashtext evidenceMaxBytes env request
      idempotencyKey).run uniqueKeys rows [] = .ok (answer, own)) :
    own = [] ∨ ∃ artifacts, (∀ row ∈ artifacts, row = .artifact (artifactRow sha256 contentSha256 request)) ∧
      own = artifacts ++ [.evidence (evidenceRow sha256 contentSha256 env request),
        .receipt (receiptRow sha256 contentSha256 env request idempotencyKey),
        .outbox (outboxRow sha256 contentSha256 env request)] ∧
      .case request.tenantId request.caseId ∈ rows ∧
      uniqueKeys.Fits (.evidence (evidenceRow sha256 contentSha256 env request)) rows := by
  have hadds {own₀ : List Evidence.Row} {f : Unit → Inserts ℤ Evidence.Row Evidence.Failure Evidence.Answer}
      (hf : ∀ own₁, (f ()).run uniqueKeys rows own₁ = .ok (answer, own) → own₁ = own)
      (hadd : (Inserts.add (.evidence (evidenceRow sha256 contentSha256 env request)) >>= fun _ =>
        Inserts.add (.receipt (receiptRow sha256 contentSha256 env request idempotencyKey)) >>= fun _ =>
        Inserts.add (.outbox (outboxRow sha256 contentSha256 env request)) >>= f).run uniqueKeys rows own₀ =
          .ok (answer, own)) :
      uniqueKeys.Fits (.evidence (evidenceRow sha256 contentSha256 env request)) (rows ++ own₀) ∧
        own = own₀ ++ [.evidence (evidenceRow sha256 contentSha256 env request),
          .receipt (receiptRow sha256 contentSha256 env request idempotencyKey),
          .outbox (outboxRow sha256 contentSha256 env request)] := by
    obtain ⟨hfits, hadd⟩ := Inserts.run_add_bind_eq_ok.mp hadd
    obtain ⟨-, hadd⟩ := Inserts.run_add_bind_eq_ok.mp hadd
    obtain ⟨-, hadd⟩ := Inserts.run_add_bind_eq_ok.mp hadd
    exact ⟨hfits, by simpa using (hf _ hadd).symm⟩
  have hret {answer' : Evidence.Answer} (own₁ : List Evidence.Row)
      (hpure : (pure answer' : Inserts ℤ Evidence.Row Evidence.Failure Evidence.Answer).run uniqueKeys
        rows own₁ = .ok (answer, own)) : own₁ = own := by
    cases hpure
    rfl
  rw [Evidence.registerEvidence] at h
  obtain ⟨-, h⟩ := Inserts.run_require_bind_eq_ok.mp h
  obtain ⟨-, h⟩ := Inserts.run_require_bind_eq_ok.mp h
  obtain ⟨-, h⟩ := Inserts.run_require_bind_eq_ok.mp h
  obtain ⟨-, h⟩ := Inserts.run_require_bind_eq_ok.mp h
  obtain ⟨-, h⟩ := Inserts.run_require_bind_eq_ok.mp h
  rw [Inserts.run_advisoryLock_bind, Inserts.run_get_bind] at h
  split at h
  · obtain ⟨-, h⟩ := Inserts.run_require_bind_eq_ok.mp h
    exact .inl (hret _ h).symm
  · rw [Inserts.run_get_bind] at h
    obtain ⟨hcase, h⟩ := Inserts.run_require_bind_eq_ok.mp h
    rw [List.append_nil] at hcase
    rcases Inserts.run_addNew_bind_eq_ok h with h | h
    · obtain ⟨hfits, hown⟩ := hadds (fun own₁ => hret own₁) h
      exact .inr ⟨[], by simp, hown, hcase, by simpa using hfits⟩
    · obtain ⟨hfits, hown⟩ := hadds (fun own₁ => hret own₁) h
      exact .inr ⟨_, by simp, hown, hcase, fun row hrow => hfits row (List.mem_append_left _ hrow)⟩

theorem Database.evidenceOf_append {db : Database} {rows rows' : List Evidence.Row} {key : CaseKey} :
    Database.evidenceOf { db with evidence := rows ++ rows' } key =
      Database.evidenceOf { db with evidence := rows } key ++
        Database.evidenceOf { db with evidence := rows' } key := List.filterMap_append

open Evidence in
/-- The evidence among the rows of a registration. -/
theorem Database.evidenceOf_registered {db : Database} {artifacts : List Evidence.Row}
    (hartifacts : ∀ row ∈ artifacts, row = .artifact (artifactRow sha256 contentSha256 request))
    (key : CaseKey) :
    Database.evidenceOf { db with evidence :=
        artifacts ++ [.evidence (evidenceRow sha256 contentSha256 env request),
          .receipt (receiptRow sha256 contentSha256 env request idempotencyKey),
          .outbox (outboxRow sha256 contentSha256 env request)] } key =
      if key = ⟨request.tenantId, request.caseId⟩ then
        [evidenceRow sha256 contentSha256 env request] else [] := by
  have hnone : Database.evidenceOf { db with evidence := artifacts } key = [] := by
    rw [Database.evidenceOf, List.filterMap_eq_nil_iff]
    intro row hrow
    rw [hartifacts row hrow]
  rw [Database.evidenceOf_append, hnone, List.nil_append]
  obtain ⟨tenantId, caseId⟩ := key
  by_cases hkey : request.tenantId.val = tenantId ∧ request.caseId.val = caseId
  · obtain ⟨rfl, rfl⟩ := hkey
    simp [Database.evidenceOf, evidenceRow]
  · have hne : ¬ (CaseKey.mk tenantId caseId = ⟨request.tenantId, request.caseId⟩) := by
      rintro ⟨⟩
      exact hkey ⟨rfl, rfl⟩
    rw [if_neg hne]
    simp [Database.evidenceOf, evidenceRow, hkey]

/-- The rows of a case are those with evidence of the case added. -/
theorem Database.ofCase_evidence {db : Database} {rows : List Evidence.Row} {key : CaseKey} :
    Database.ofCase { db with evidence := db.evidence ++ rows } key =
      { db.ofCase key with objects := { (db.ofCase key).objects with
        evidenceObjects := (db.ofCase key).objects.evidenceObjects ++
          (Database.evidenceOf { db with evidence := rows } key).map fun row =>
            ⟨row.evidenceId, row.verificationStatus, row.scanStatus⟩ } } := by
  have happend : (Database.evidenceOf { db with evidence := db.evidence ++ rows } key) =
      db.evidenceOf key ++ Database.evidenceOf { db with evidence := rows } key :=
    Database.evidenceOf_append
  rw [Database.ofCase, happend, List.map_append]
  rfl

theorem Database.mem_evidence_of_evidenceOf {db : Database} {key : CaseKey} {row : Evidence.EvidenceRow}
    (h : row ∈ db.evidenceOf key) : .evidence row ∈ db.evidence ∧ row.tenantId = key.tenantId := by
  obtain ⟨r, hr, hrow⟩ := List.mem_filterMap.mp h
  cases r with
  | evidence row' =>
    obtain ⟨⟨htenant, -⟩, rfl⟩ : (row'.tenantId = key.tenantId ∧ row'.caseId = key.caseId) ∧
      row' = row := by simpa using hrow
    exact ⟨hr, htenant⟩
  | _ => cases hrow

/-- **A registration does the same to the tables and to the store**, as far as cases see it. -/
theorem Database.Refines.register {db db' : Database} {st : Ledgers} (h : db.Refines st)
    (evidenceRequireScan : Bool) {answer : Evidence.Answer}
    (hok : db.register sha256 contentSha256 hashtext evidenceMaxBytes env request idempotencyKey =
      .ok (answer, db')) :
    db' = db ∨ db'.Refines (st.call (caseService sha256 evidenceRequireScan)
      (.registerEvidence ⟨request.tenantId, request.caseId⟩ (Evidence.evidenceId env))) := by
  rw [Database.register] at hok
  cases hrun : (Evidence.registerEvidence sha256 contentSha256 hashtext evidenceMaxBytes env request
      idempotencyKey).run Evidence.uniqueKeys db.evidenceRows [] with
  | error e =>
    rw [hrun] at hok
    cases hok
  | ok r =>
    obtain ⟨answer', own⟩ := r
    rw [hrun] at hok
    cases hok
    rcases registerEvidence_run hrun with rfl | ⟨artifacts, hartifacts, rfl, hcase, hfits⟩
    · exact .inl (by simp)
    · have hpresent : (db.ofCase ⟨request.tenantId, request.caseId⟩).cases.isSome := by
        rcases List.mem_append.mp hcase with hcase | hcase
        · obtain ⟨r, hr, heq⟩ := List.mem_map.mp hcase
          have hkey : r.1 = ⟨request.tenantId, request.caseId⟩ := by
            injection heq with htenant hid
            rw [← htenant, ← hid]
          have hrow : r.2 ∈ rowsOf ⟨request.tenantId, request.caseId⟩ db.cases :=
            List.mem_map.mpr ⟨r, List.mem_filter.mpr ⟨hr, by simpa using hkey⟩, rfl⟩
          exact List.isSome_head?.mpr (List.ne_nil_of_mem hrow)
        · exact absurd hcase (h.evidence _ _)
      have hnew : ¬ ∃ r ∈ (db.ofCase ⟨request.tenantId, request.caseId⟩).objects.evidenceObjects,
          r.evidenceId = Evidence.evidenceId env := by
        rintro ⟨_, hr, hid⟩
        obtain ⟨row, hrow, rfl⟩ := List.mem_map.mp hr
        obtain ⟨hmem, htenant⟩ := Database.mem_evidence_of_evidenceOf hrow
        refine hfits _ (List.mem_append_right _ hmem) ?_
        exact decide_eq_true ⟨htenant.symm, hid.symm⟩
      have hyields := registerEvidence_yields hpresent hnew
      rw [h.rows] at hyields
      have hstore : st.call (caseService sha256 evidenceRequireScan)
          (.registerEvidence ⟨request.tenantId, request.caseId⟩ (Evidence.evidenceId env)) =
            st.commit (caseService sha256 evidenceRequireScan) _ _ _ [] := Store.call_of_yields hyields
      rw [hstore]
      refine .inr ⟨fun key => ?_, ?_, ?_⟩
      · rw [Database.ofCase_evidence, Database.evidenceOf_registered hartifacts]
        by_cases hkey : key = ⟨request.tenantId, request.caseId⟩
        · subst hkey
          rw [if_pos rfl, h.rows]
          exact (Store.commit_db_self (S := caseService sha256 evidenceRequireScan)).symm
        · rw [if_neg hkey, List.map_nil, List.append_nil]
          refine (h.rows key).trans ?_
          exact (Store.commit_db_of_ne (S := caseService sha256 evidenceRequireScan) hkey).symm
      · rw [Store.commit_outbox, List.append_nil]
        exact h.outbox
      · intro tenantId caseId hmem
        rcases List.mem_append.mp hmem with hmem | hmem
        · exact h.evidence _ _ hmem
        · rcases List.mem_append.mp hmem with hmem | hmem
          · cases hartifacts _ hmem
          · simp at hmem

end

end CaseStore

end HarnessFramework
