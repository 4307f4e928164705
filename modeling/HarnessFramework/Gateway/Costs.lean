import HarnessFramework.Gateway.ExactlyOnce
import Mathlib.Tactic.Linarith
import Mathlib.Tactic.Positivity

/-!
# The costs of a run

A result is stored by one statement, and its cost is added to the run by a second one, in another
table. In between, and for good when the process dies there, the run does not know of the cost. A run
that knows of all costs has them as the column of its sum stores them, with eight decimals. The books
of a run keep both: what is pending, and what was rounded.

## Main definitions

* `usageCost`, `State.completedCost` — what the receipts of a run say that it cost
* `Recording`, `Books` — the statements that added a cost, and what they rounded
* `Books.pendingCost`, `Books.rounded`, `Books.lag` — what a run does not know of

## Main results

* `Audited.completedCost` — the receipts of a run cost what the run knows of, and the lag
* `cost_accounting` — a run is exact, and its budget is, where the lag allows it
* `cost_accounting_lags` — it does not always
-/

namespace HarnessFramework

namespace Gateway

open Persistence Execution

/-! ## The costs of receipts -/

/-- `usage.costUsd` of a stored result. -/
def usageCost (result : Jsonb) : Option ℚ :=
  match result.val with
  | .obj members => match lastMember "usage" members with
    | some (.obj usage) => match lastMember "costUsd" usage with
      | some (.num costUsd) => some costUsd.toRat
      | _ => none
    | _ => none
  | _ => none

/-- The cost of a receipt, once it is completed. -/
def ReceiptRow.costUsd (row : ReceiptRow) : Option ℚ := row.result.bind usageCost

/-- The costs of receipts, those that are not known left out. -/
def sumCosts (rows : List ReceiptRow) : ℚ := (rows.map fun row => row.costUsd.getD 0).sum

/-- The completed receipts of a run. -/
def State.completedReceipts (s : State) (runId : String) : List ReceiptRow :=
  s.receipts.filter fun row => row.runId = runId ∧ row.result.isSome

/-- **What the completed receipts of a run cost.** -/
def State.completedCost (s : State) (runId : String) : ℚ := sumCosts (s.completedReceipts runId)

/-- The cost in a stored result is the one that the provider reported. -/
theorem usageCost_ofJson (sha256 : List Char → String) (result : CapabilityResult) :
    usageCost (.ofJson (result.toJson sha256)) = result.response.usage.costUsd.map JsonNumber.toRat := by
  have husage : lastMember "usage" (result.unsigned ++
      [("receiptDigest", .str (result.receiptDigest sha256))]) = some result.response.usage.toJson := by
    simp [CapabilityResult.unsigned, lastMember]
  have hresult : (Jsonb.ofJson (result.toJson sha256)).val = .obj (canonicalizeMembers
      (result.unsigned ++ [("receiptDigest", .str (result.receiptDigest sha256))])) := by
    simp only [Jsonb.val_ofJson, CapabilityResult.toJson, canonicalize]
  simp only [usageCost, hresult, lastMember_canonicalizeMembers, husage, Option.map_some,
    CapabilityUsage.toJson, canonicalize]
  cases result.response.usage.costUsd with
  | none => simp [lastMember, nullableJson, canonicalize]
  | some costUsd => simp [lastMember, nullableJson, canonicalize]

/-! ## The column of the sum -/

theorem abs_toNumeric_sub_le (x : ℚ) : |toNumeric x - x| ≤ 1 / 2 / 10 ^ 8 := by
  have hfloor := Int.floor_le (|x| * 10 ^ 8 + 1 / 2)
  have hlt := Int.lt_floor_add_one (|x| * 10 ^ 8 + 1 / 2)
  rw [toNumeric, abs_le]
  split
  · next hneg =>
    rw [abs_of_neg hneg] at hfloor hlt ⊢
    constructor <;> linarith
  · next hpos =>
    rw [abs_of_nonneg (not_lt.mp hpos)] at hfloor hlt ⊢
    constructor <;> linarith

/-- A value with at most eight decimals. -/
def EightDecimals (x : ℚ) : Prop := ∃ k : ℤ, x = k / 10 ^ 8

theorem EightDecimals.add {x y : ℚ} (hx : EightDecimals x) (hy : EightDecimals y) :
    EightDecimals (x + y) := by
  obtain ⟨k, rfl⟩ := hx
  obtain ⟨l, rfl⟩ := hy
  exact ⟨k + l, by push_cast; ring⟩

theorem eightDecimals_toNumeric (x : ℚ) : EightDecimals (toNumeric x) := by
  rw [toNumeric]
  split
  · exact ⟨-⌊|x| * 10 ^ 8 + 1 / 2⌋, by push_cast; ring⟩
  · exact ⟨⌊|x| * 10 ^ 8 + 1 / 2⌋, by ring⟩

/-- A value with at most eight decimals is stored as it is. -/
theorem EightDecimals.toNumeric {x : ℚ} (h : EightDecimals x) : Gateway.toNumeric x = x := by
  obtain ⟨k, hk⟩ := h
  obtain ⟨l, hl⟩ := eightDecimals_toNumeric x
  have hsub := abs_toNumeric_sub_le x
  -- Two multiples of the last decimal that are less than one apart.
  have hcast : ((l - k : ℤ) : ℚ) = (Gateway.toNumeric x - x) * 10 ^ 8 := by
    rw [hl, hk]
    push_cast
    ring
  have habs : |l - k| < 1 := by
    have hlt : |((l - k : ℤ) : ℚ)| < 1 := by
      rw [hcast, abs_mul, abs_of_pos (by positivity : (0 : ℚ) < 10 ^ 8)]
      linarith
    exact_mod_cast hlt
  have heq : l = k := by rw [Int.abs_lt_one_iff] at habs; omega
  rw [hl, hk, heq]

/-! ## The books -/

/-- A cost was added to a run: the request, the run, the cost, and what the column added to it. -/
structure Recording where
  id : ℕ
  runId : String
  costUsd : Option ℚ
  rounding : ℚ
deriving DecidableEq

/-- What the column of a run adds to a cost. -/
def roundingOf (runId : String) (costUsd : Option ℚ) (rows : List RunRow) : ℚ :=
  match rows.find? fun r => r.runId = runId with
  | some r => toNumeric (r.costUsd + costUsd.getD 0) - (r.costUsd + costUsd.getD 0)
  | none => 0

/-- What an event of a request adds to the books. -/
def Request.recordings (id : ℕ) (q : Request) (runs : List RunRow) : Event → List Recording
  | .recordCost => match q.phase with
    | .completed result =>
      let costUsd := result.response.usage.costUsd.map JsonNumber.toRat
      if CostOverflows q.claims.runId costUsd runs then []
      else [⟨id, q.claims.runId, costUsd, roundingOf q.claims.runId costUsd runs⟩]
    | _ => []
  | _ => []

/-- What an action adds to the books. -/
def State.recordings (s : State) : Action → List Recording
  | .request id event => match s.requests id with
    | some q => q.recordings id s.runs event
    | none => []
  | _ => []

/-- A state, and what was recorded on the way to it. -/
structure Books extends State where
  recordings : List Recording

namespace Books

/-- What the recorded costs of a run were rounded by. -/
def rounded (b : Books) (runId : String) : ℚ :=
  ((b.recordings.filter fun ρ => ρ.runId = runId).map (·.rounding)).sum

/-- The cost of a receipt is recorded. -/
def Recorded (b : Books) (row : ReceiptRow) : Prop := ∃ ρ ∈ b.recordings, ρ.id = row.reservedBy

instance (b : Books) : DecidablePred b.Recorded := fun row => by unfold Recorded; infer_instance

/-- The costs of completed receipts of a run that are not recorded. -/
def pendingCost (b : Books) (runId : String) : ℚ :=
  sumCosts ((b.completedReceipts runId).filter fun row => ¬ b.Recorded row)

/-- **What a run does not know of**: the costs that are pending, less what rounding has added. -/
def lag (b : Books) (runId : String) : ℚ := b.pendingCost runId - b.rounded runId

section

variable (plans : List HarnessPlan) (sha256 : List Char → String) (ttl : Option ℤ)

/-- The books after an action, if it can happen. -/
def act (b : Books) (action : Action) : Option Books :=
  (b.toState.act plans sha256 ttl action).map fun s => ⟨s, b.recordings ++ b.toState.recordings action⟩

/-- Something happens. -/
def Step (b b' : Books) : Prop := ∃ action, b.act plans sha256 ttl action = some b'

/-- Books without a run and without a request. -/
def start (clock : Time) : Books := ⟨State.start clock, []⟩

/-- The books that steps reach. -/
def Reachable (b : Books) : Prop :=
  ∃ clock, Relation.ReflTransGen (Step plans sha256 ttl) (start clock) b

/-- A step that reserves a receipt for a run. -/
def Reserves (b : Books) (runId : String) (b' : Books) : Prop :=
  Step plans sha256 ttl b b' ∧ ∃ ρ : Reservation, b'.reservations = b.reservations ++ [ρ] ∧ ρ.runId = runId

end

end Books

/-! ## What an event does to the books -/

section

variable {plans : List HarnessPlan} {sha256 : List Char → String} {now : Time} {id : ℕ} {q : Request}
  {t t' : Tables} {event : Event} {phase : Phase}

/-- A request that was answered does nothing more. -/
theorem Progress.not_answered (h : Progress plans sha256 now id q t event phase t') (response : Response) :
    q.phase ≠ .answered response := by
  intro hphase
  cases h with
  | refuse _ _ _ hreading => rw [hphase] at hreading; exact hreading
  | throw _ hq => rcases hq with hq | hq <;> rw [hphase] at hq <;> cases hq
  | crash hlive => rw [hphase] at hlive; exact hlive
  | fence hq | plan _ _ hq | run _ _ hq | reserve _ _ _ hq | conflict _ _ hq | invoke hq | «return» _ hq
  | complete _ _ _ hq | overflow _ _ hq | recordCost _ _ _ hq | abandon _ _ hq =>
    rw [hphase] at hq
    cases hq

/-- A request completes its own receipt. -/
theorem Progress.completed (h : Progress plans sha256 now id q t event phase t')
    {result : CapabilityResult} (hphase : phase = .completed result) :
    q.phase.Holding ∧ result.invocationId = q.invocation.invocationId ∧
      t'.receipts = completeGatewayReceipt sha256 now q.claims.runId result t.receipts := by
  cases h with
  | complete latencyMs response result' hq hresult =>
    cases hphase
    exact ⟨by rw [hq]; trivial, by rw [hresult]; rfl, rfl⟩
  | _ => cases hphase

/-- **An event records the cost of a result, and adds it to the run, or does neither.** -/
theorem Request.step_recordings (h : q.step plans sha256 now id t event = some (phase, t')) :
    (q.recordings id t.runs event = [] ∧
      ∀ r' ∈ t'.runs, ∃ r ∈ t.runs, r'.runId = r.runId ∧ r'.costUsd = r.costUsd) ∨
    ∃ result response costUsd, q.phase = .completed result ∧ phase = .answered response ∧
      costUsd = result.response.usage.costUsd.map JsonNumber.toRat ∧
      q.recordings id t.runs event =
        [⟨id, q.claims.runId, costUsd, roundingOf q.claims.runId costUsd t.runs⟩] ∧
      t'.runs = recordCapabilityCost now q.claims.runId costUsd t.runs := by
  have hsame : ∀ r' ∈ t.runs, ∃ r ∈ t.runs, r'.runId = r.runId ∧ r'.costUsd = r.costUsd :=
    fun r' hr' => ⟨r', hr', rfl, rfl⟩
  by_cases hevent : event = .recordCost
  · subst hevent
    simp only [Request.step] at h
    split at h
    · next result hphase =>
      split at h
      · next hover =>
        cases h
        exact .inl ⟨by simp [Request.recordings, hphase, hover], hsame⟩
      · next hover =>
        cases h
        exact .inr ⟨result, _, _, hphase, rfl, rfl, by simp [Request.recordings, hphase, hover], rfl⟩
    · cases h
  · have hnone : q.recordings id t.runs event = [] := by
      cases event <;> first | rfl | exact absurd rfl hevent
    refine .inl ⟨hnone, ?_⟩
    cases Request.step_progress h with
    | reserve plan capability t' hphase hres =>
      rw [hres.runs]
      intro r' hr'
      obtain ⟨r, hr, ⟨-, rfl⟩ | ⟨-, rfl⟩⟩ := mem_updateWhere.mp hr'
      · exact ⟨r, hr, rfl, rfl⟩
      · exact hsame _ hr
    | recordCost => exact absurd rfl hevent
    | overflow => exact absurd rfl hevent
    | _ => exact hsame

/-- Statements on runs leave the cost alone. -/
theorem cost_of_change {issued : List Lease} {r r' : RunRow} (h : RunChange issued now r r') :
    r'.runId = r.runId ∧ r'.costUsd = r.costUsd := by
  cases h <;> exact ⟨rfl, rfl⟩

end

/-! ## The audit -/

/-- What was recorded for a run. -/
def recordedSum (recordings : List Recording) (runId : String) : ℚ :=
  ((recordings.filter fun ρ => ρ.runId = runId).map fun ρ => ρ.costUsd.getD 0 + ρ.rounding).sum

theorem recordedSum_append (recordings : List Recording) (ρ : Recording) (runId : String) :
    recordedSum (recordings ++ [ρ]) runId = recordedSum recordings runId +
      if ρ.runId = runId then ρ.costUsd.getD 0 + ρ.rounding else 0 := by
  rw [recordedSum, List.filter_append, List.map_append, List.sum_append]
  split
  · next hrun => simp [recordedSum, hrun]
  · next hrun => simp [recordedSum, hrun]

/-- The books agree with the runs and with the receipts. -/
structure Audited (sha256 : List Char → String) (b : Books) : Prop where
  costs : ∀ r ∈ b.runs, r.costUsd = recordedSum b.recordings r.runId
  runs : ∀ ρ ∈ b.recordings, ∃ r ∈ b.runs, r.runId = ρ.runId
  once : (b.recordings.map (·.id)).Nodup
  /-- Costs with at most eight decimals are not rounded. -/
  decimals : ∀ r ∈ b.runs, EightDecimals r.costUsd
  rounding : ∀ ρ ∈ b.recordings, EightDecimals (ρ.costUsd.getD 0) → ρ.rounding = 0
  /-- A cost is recorded by the request that stored the result, which is answered. -/
  answered : ∀ ρ ∈ b.recordings, ∃ q response, b.requests ρ.id = some q ∧ q.phase = .answered response
  receipts : ∀ ρ ∈ b.recordings, ∃ row ∈ b.receipts, row.reservedBy = ρ.id ∧ row.runId = ρ.runId ∧
    row.result.isSome ∧ row.costUsd = ρ.costUsd
  /-- Before it records the cost, its result is stored. -/
  completed : ∀ id q, b.requests id = some q → ∀ result, q.phase = .completed result →
    ∃ row ∈ b.receipts, row.reservedBy = id ∧ row.runId = q.claims.runId ∧
      row.result = some (.ofJson (result.toJson sha256))

section

variable {plans : List HarnessPlan} {sha256 : List Char → String} {ttl : Option ℤ} {b b' : Books}
  {id : ℕ} {q : Request}

theorem Audited.progress (h : Audited sha256 b) (hs : Sound plans b.toState)
    (ho : Owned sha256 b.toState) (hq : b.requests id = some q) {event : Event} {phase : Phase} {t : Tables}
    (hstep : q.step plans sha256 b.clock id ⟨b.runs, b.receipts⟩ event = some (phase, t)) :
    Audited sha256 ⟨b.toState.progress id q event phase t,
      b.recordings ++ q.recordings id b.runs event⟩ := by
  have hprogress := Request.step_progress hstep
  have hstays {row : ReceiptRow} (hrow : row ∈ b.receipts) (hresult : row.result.isSome) :
      row ∈ t.receipts := by
    have hmove : Moves plans sha256 none b.toState (b.toState.progress id q event phase t) :=
      .request id q event phase t hq hprogress
    exact ho.stays hmove hrow hresult
  have hruns {runId : String} (hrun : ∃ r ∈ b.runs, r.runId = runId) : ∃ r ∈ t.runs, r.runId = runId := by
    obtain ⟨r, hr, hid⟩ := hrun
    obtain ⟨r', hr', hcarry⟩ := hprogress.evolves.forward r hr
    exact ⟨r', hr', hcarry.runId.trans hid⟩
  have hother : ∀ ρ ∈ b.recordings, ρ.id ≠ id := by
    intro ρ hρ hid
    obtain ⟨q', response, hq', hphase⟩ := h.answered ρ hρ
    rw [hid, hq] at hq'
    obtain rfl := Option.some_inj.mp hq'
    exact hprogress.not_answered response hphase
  have hanswered : ∀ ρ ∈ b.recordings, ∃ q' response,
      (b.toState.progress id q event phase t).requests ρ.id = some q' ∧
        q'.phase = .answered response := by
    intro ρ hρ
    obtain ⟨q', response, hq', hphase⟩ := h.answered ρ hρ
    exact ⟨q', response, (Function.update_of_ne (hother ρ hρ) _ _).trans hq', hphase⟩
  have hreceipts : ∀ ρ ∈ b.recordings, ∃ row ∈ t.receipts, row.reservedBy = ρ.id ∧
      row.runId = ρ.runId ∧ row.result.isSome ∧ row.costUsd = ρ.costUsd := by
    intro ρ hρ
    obtain ⟨row, hrow, hby, hrun, hresult, hcost⟩ := h.receipts ρ hρ
    exact ⟨row, hstays hrow hresult, hby, hrun, hresult, hcost⟩
  have hcompleted : ∀ i q', (b.toState.progress id q event phase t).requests i = some q' →
      ∀ result, q'.phase = .completed result → ∃ row ∈ t.receipts, row.reservedBy = i ∧
        row.runId = q'.claims.runId ∧ row.result = some (.ofJson (result.toJson sha256)) := by
    refine forall_update_some (fun i q' hq' _ result hphase => ?_) fun result hphase => ?_
    · obtain ⟨row, hrow, hby, hrun, hresult⟩ := h.completed i q' hq' result hphase
      exact ⟨row, hstays hrow (by rw [hresult]; rfl), hby, hrun, hresult⟩
    · obtain ⟨hholding, hid, hcomplete⟩ := hprogress.completed hphase
      obtain ⟨row, hrow, hby, -⟩ := ho.owner id q hq hholding
      obtain ⟨q', hq', hid', hrun, -⟩ := ho.origin row hrow
      rw [hby, hq] at hq'
      obtain rfl := Option.some_inj.mp hq'
      refine ⟨row.complete sha256 b.clock result, ?_, hby, hrun, rfl⟩
      rw [hcomplete]
      exact mem_updateWhere.mpr ⟨row, hrow, .inl ⟨⟨hid'.trans hid.symm, hrun⟩, rfl⟩⟩
  rcases Request.step_recordings hstep with ⟨hnone, hsame⟩ |
    ⟨result, response, costUsd, hphase, hphase', hcost, hnew, hadd⟩
  · rw [hnone, List.append_nil]
    refine ⟨fun r' hr' => ?_, fun ρ hρ => hruns (h.runs ρ hρ), h.once, fun r' hr' => ?_, h.rounding,
      hanswered, hreceipts, hcompleted⟩
    · obtain ⟨r, hr, hid, hcost⟩ := hsame r' hr'
      rw [hcost, hid]
      exact h.costs r hr
    · obtain ⟨r, hr, -, hcost⟩ := hsame r' hr'
      rw [hcost]
      exact h.decimals r hr
  · rw [hnew]
    refine ⟨fun r' hr' => ?_, List.forall_mem_append.mpr ⟨fun ρ hρ => hruns (h.runs ρ hρ),
      List.forall_mem_singleton.mpr ?_⟩, ?_, fun r' hr' => ?_, List.forall_mem_append.mpr ⟨h.rounding,
      List.forall_mem_singleton.mpr fun hdecimals => ?_⟩, List.forall_mem_append.mpr ⟨hanswered,
      List.forall_mem_singleton.mpr ⟨_, response, Function.update_self _ _ _, hphase'⟩⟩,
      List.forall_mem_append.mpr ⟨hreceipts, List.forall_mem_singleton.mpr ?_⟩, hcompleted⟩
    · change r' ∈ t.runs at hr'
      rw [hadd] at hr'
      obtain ⟨r, hr, ⟨hid, rfl⟩ | ⟨hid, rfl⟩⟩ := mem_updateWhere.mp hr'
      · -- What the column adds is what it stores less what it was given.
        have hfind : b.runs.find? (fun r => r.runId = q.claims.runId) = some r := by
          rw [← hid]
          exact find?_eq_some_of_nodup hs.ids hr
        rw [recordedSum_append]
        simp only [addCost, roundingOf, hfind, hid, if_true]
        rw [← hid, ← h.costs r hr]
        ring
      · rw [recordedSum_append, if_neg (Ne.symm hid), add_zero]
        exact h.costs _ hr
    · obtain ⟨r, hr, hid, -⟩ := hs.envelopes _ (hs.claims id q hq)
      exact hruns ⟨r, hr, hid⟩
    · rw [List.map_append, List.nodup_append]
      refine ⟨h.once, List.nodup_singleton _, ?_⟩
      rintro i hi _ hi' rfl
      obtain ⟨ρ, hρ, rfl⟩ := List.mem_map.mp hi
      rw [List.map_singleton, List.mem_singleton] at hi'
      exact hother ρ hρ hi'
    · change r' ∈ t.runs at hr'
      rw [hadd] at hr'
      obtain ⟨r, hr, ⟨-, rfl⟩ | ⟨-, rfl⟩⟩ := mem_updateWhere.mp hr'
      · exact eightDecimals_toNumeric _
      · exact h.decimals _ hr
    · change roundingOf q.claims.runId costUsd b.runs = 0
      rw [roundingOf]
      split
      · next r hfind =>
        have hsum : EightDecimals (r.costUsd + costUsd.getD 0) :=
          (h.decimals r (List.mem_of_find?_eq_some hfind)).add hdecimals
        rw [hsum.toNumeric, sub_self]
      · rfl
    · obtain ⟨row, hrow, hby, hrun, hresult⟩ := h.completed id q hq result hphase
      refine ⟨row, hstays hrow (by rw [hresult]; rfl), hby, hrun, by rw [hresult]; rfl, ?_⟩
      rw [ReceiptRow.costUsd, hresult, hcost]
      exact usageCost_ofJson sha256 result

/-- **The audit holds in every state that steps reach.** -/
theorem Audited.step (h : Audited sha256 b) (hs : Sound plans b.toState) (ho : Owned sha256 b.toState)
    (hstep : Books.Step plans sha256 ttl b b') : Audited sha256 b' := by
  obtain ⟨action, hact⟩ := hstep
  obtain ⟨s, hs', rfl⟩ := Option.map_eq_some_iff.mp hact
  cases action with
  | request id event =>
    simp only [State.act] at hs'
    split at hs'
    · cases hs'
    · next q hq =>
      obtain ⟨⟨phase, t⟩, hnext, rfl⟩ := Option.map_eq_some_iff.mp hs'
      have hrecordings : b.toState.recordings (.request id event) = q.recordings id b.runs event := by
        simp only [State.recordings, hq]
      rw [hrecordings]
      exact h.progress hs ho hq hnext
  | run op now =>
    simp only [State.act] at hs'
    split at hs'
    · next hop =>
      cases hs'
      have hev : Evolves (RunChange b.issued now) (Created sha256 now b.runs) b.runs
          (op.exec sha256 now b.runs) := op.exec_evolves hs.ids hop.2
      have hnothing : b.toState.recordings (.run op now) = [] := rfl
      rw [hnothing, List.append_nil]
      refine ⟨hev.forall (P := fun r => r.costUsd = recordedSum b.recordings r.runId) ?_ ?_ h.costs,
        fun ρ hρ => ?_, h.once, hev.forall (P := fun r => EightDecimals r.costUsd) ?_ ?_ h.decimals,
        h.rounding, h.answered, h.receipts, h.completed⟩
      · rintro _ ⟨⟨runId, input, rfl⟩, hfresh⟩
        -- Nothing was recorded for a run that was not there.
        have hnone : b.recordings.filter (fun ρ => ρ.runId = (newRun sha256 now runId input).runId) = [] := by
          refine List.filter_eq_nil_iff.mpr fun ρ hρ hid => ?_
          obtain ⟨r, hr, hrun⟩ := h.runs ρ hρ
          exact hfresh r hr (hrun.trans (of_decide_eq_true hid))
        rw [recordedSum, hnone]
        rfl
      · intro r r' hr hchange
        obtain ⟨hid, hcost⟩ := cost_of_change hchange
        rw [hcost, hid]
        exact hr
      · obtain ⟨r, hr, hid⟩ := h.runs ρ hρ
        obtain ⟨r', hr', hchange⟩ := hev.forward r hr
        exact ⟨r', hr', (cost_of_change hchange).1.trans hid⟩
      · rintro _ ⟨⟨runId, input, rfl⟩, -⟩
        exact ⟨0, by simp [newRun]⟩
      · intro r r' hr hchange
        rw [(cost_of_change hchange).2]
        exact hr
    · cases hs'
  | advance clock =>
    simp only [State.act] at hs'
    split at hs' <;> cases hs'
    have hnothing : b.toState.recordings (.advance clock) = [] := rfl
    rw [hnothing, List.append_nil]
    exact { h with }
  | issue grant request =>
    simp only [State.act] at hs'
    split at hs' <;> cases hs'
    have hnothing : b.toState.recordings (.issue grant request) = [] := rfl
    rw [hnothing, List.append_nil]
    exact { h with }
  | receive id claims invocation =>
    simp only [State.act] at hs'
    split at hs'
    · next hreceive =>
      cases hs'
      have hnothing : b.toState.recordings (.receive id claims invocation) = [] := rfl
      rw [hnothing, List.append_nil]
      refine ⟨h.costs, h.runs, h.once, h.decimals, h.rounding, fun ρ hρ => ?_, h.receipts,
        forall_update_some (fun i q hq _ => h.completed i q hq) fun result hphase => ?_⟩
      · obtain ⟨q, response, hq, hphase⟩ := h.answered ρ hρ
        have hne : ρ.id ≠ id := by
          intro hid
          rw [hid, hreceive.1] at hq
          cases hq
        exact ⟨q, response, (Function.update_of_ne hne _ _).trans hq, hphase⟩
      · rcases arrival_cases claims invocation with ha | ⟨code, ha⟩ <;> rw [ha] at hphase <;>
          cases hphase
    · cases hs'

/-- Books keep the states that steps reach. -/
theorem Books.Reachable.audited (h : Books.Reachable plans sha256 ttl b) :
    State.Reachable plans sha256 ttl b.toState ∧ Audited sha256 b := by
  obtain ⟨clock, hsteps⟩ := h
  induction hsteps with
  | refl => exact ⟨⟨clock, .refl⟩, by constructor <;> simp [Books.start, State.start, RunSystem.start]⟩
  | tail _ hstep ih =>
    obtain ⟨hs, ho, -⟩ := ih.1.counted
    refine ⟨?_, ih.2.step hs ho hstep⟩
    obtain ⟨clock', hreach⟩ := ih.1
    obtain ⟨action, hact⟩ := hstep
    obtain ⟨s, hs', rfl⟩ := Option.map_eq_some_iff.mp hact
    exact ⟨clock', hreach.tail ⟨action, hs'⟩⟩

/-- The books of a state that steps reach. -/
theorem Books.exists_of_steps {s s' : State} (h : State.Steps plans sha256 ttl s s') (b : Books)
    (hb : b.toState = s) :
    ∃ b', Relation.ReflTransGen (Books.Step plans sha256 ttl) b b' ∧ b'.toState = s' := by
  induction h with
  | refl => exact ⟨b, .refl, hb⟩
  | tail _ hstep ih =>
    obtain ⟨b', hsteps, rfl⟩ := ih
    obtain ⟨action, hact⟩ := hstep
    exact ⟨_, hsteps.tail ⟨action, by rw [Books.act, hact]; rfl⟩, rfl⟩

theorem Books.exists_of_reachable {s : State} (h : State.Reachable plans sha256 ttl s) :
    ∃ b, Books.Reachable plans sha256 ttl b ∧ b.toState = s := by
  obtain ⟨clock, hsteps⟩ := h
  obtain ⟨b, hb, hs⟩ := Books.exists_of_steps hsteps (Books.start clock) rfl
  exact ⟨b, ⟨clock, hb⟩, hs⟩

/-! ## What a run does not know of -/

/-- No two receipts were reserved by one request. -/
theorem Owned.nodup_reservedBy {s : State} (h : Owned sha256 s) :
    (s.receipts.map (·.reservedBy)).Nodup := by
  refine (List.Nodup.of_map _ h.ids).map_on fun row hrow row' hrow' hby => ?_
  obtain ⟨q, hq, hid, -⟩ := h.origin row hrow
  obtain ⟨q', hq', hid', -⟩ := h.origin row' hrow'
  rw [hby, hq'] at hq
  obtain rfl := Option.some_inj.mp hq
  exact List.inj_on_of_nodup_map h.ids hrow hrow' (hid.trans hid'.symm)

/-- The recorded receipts of a run cost what was recorded for it. -/
theorem Audited.recordedCost (h : Audited sha256 b) (ho : Owned sha256 b.toState) (runId : String) :
    sumCosts ((b.completedReceipts runId).filter fun row => b.Recorded row) =
      ((b.recordings.filter fun ρ => ρ.runId = runId).map fun ρ => ρ.costUsd.getD 0).sum := by
  have hreservers := ho.nodup_reservedBy
  refine sum_map_eq_of_join (fun row : ReceiptRow => row.reservedBy) (fun ρ : Recording => ρ.id)
    ?_ ?_ (fun row hrow => ?_) fun ρ hρ => ?_
  · exact ((List.filter_sublist.trans List.filter_sublist).map _).nodup hreservers
  · exact (List.filter_sublist.map _).nodup h.once
  · obtain ⟨hcompleted, hrecorded⟩ := List.mem_filter.mp hrow
    obtain ⟨hmem, hrun⟩ := List.mem_filter.mp hcompleted
    obtain ⟨ρ, hρ, hid⟩ := of_decide_eq_true hrecorded
    -- The receipt that the recording is about is this one.
    obtain ⟨row', hrow', hby, hrun', -, hcost⟩ := h.receipts ρ hρ
    obtain rfl := List.inj_on_of_nodup_map hreservers hrow' hmem (hby.trans hid)
    have hsame : ρ.runId = runId := hrun'.symm.trans (of_decide_eq_true hrun).1
    exact ⟨ρ, List.mem_filter.mpr ⟨hρ, decide_eq_true hsame⟩, hid, by rw [hcost]⟩
  · obtain ⟨hmem, hrun⟩ := List.mem_filter.mp hρ
    obtain ⟨row, hrow, hby, hrun', hresult, -⟩ := h.receipts ρ hmem
    have hsame : row.runId = runId := hrun'.trans (of_decide_eq_true hrun)
    exact ⟨row, List.mem_filter.mpr ⟨List.mem_filter.mpr ⟨hrow, decide_eq_true ⟨hsame, hresult⟩⟩,
      decide_eq_true ⟨ρ, hmem, hby.symm⟩⟩, hby⟩

/-- **The receipts of a run cost what the run knows of, and the lag.** -/
theorem Audited.completedCost (h : Audited sha256 b) (ho : Owned sha256 b.toState) {r : RunRow}
    (hr : r ∈ b.runs) : b.completedCost r.runId = r.costUsd + b.lag r.runId := by
  have hsplit : sumCosts ((b.completedReceipts r.runId).filter fun row => b.Recorded row) +
      b.pendingCost r.runId = b.completedCost r.runId :=
    sum_map_filter_add b.Recorded (fun row => row.costUsd.getD 0) (b.completedReceipts r.runId)
  have hcosts : r.costUsd = ((b.recordings.filter fun ρ => ρ.runId = r.runId).map fun ρ =>
      ρ.costUsd.getD 0).sum + b.rounded r.runId := by
    rw [h.costs r hr, recordedSum, List.sum_map_add]
    rfl
  rw [← hsplit, h.recordedCost ho, hcosts, Books.lag]
  ring

/-- **A run whose costs are all recorded, with at most eight decimals, has no lag.** -/
theorem Audited.lag_eq_zero (h : Audited sha256 b) {runId : String}
    (hsettled : ∀ row ∈ b.completedReceipts runId, b.Recorded row ∧ EightDecimals (row.costUsd.getD 0)) :
    b.lag runId = 0 := by
  have hpending : (b.completedReceipts runId).filter (fun row => ¬ b.Recorded row) = [] :=
    List.filter_eq_nil_iff.mpr fun row hrow => by simpa using (hsettled row hrow).1
  have hrounded : b.rounded runId = 0 := by
    refine List.sum_eq_zero fun x hx => ?_
    obtain ⟨ρ, hρ, rfl⟩ := List.mem_map.mp hx
    obtain ⟨hmem, hrun⟩ := List.mem_filter.mp hρ
    obtain ⟨row, hrow, -, hrun', hresult, hcost⟩ := h.receipts ρ hmem
    have hsame : row.runId = runId := hrun'.trans (of_decide_eq_true hrun)
    refine h.rounding ρ hmem ?_
    rw [← hcost]
    exact (hsettled row (List.mem_filter.mpr ⟨hrow, decide_eq_true ⟨hsame, hresult⟩⟩)).2
  rw [Books.lag, Books.pendingCost, hpending, hrounded, sub_zero]
  rfl

/-- A receipt is reserved while the cost of its run, as the run knows it, is within the budget. -/
theorem Books.Reserves.costUsd_lt {runId : String} (h : b.Reserves plans sha256 ttl runId b')
    (hs : Sound plans b.toState) {r : RunRow} (hr : r ∈ b.runs) (hid : r.runId = runId)
    {plan : HarnessPlan} (hplan : getPlan plans r.planDigest = some plan) :
    r.costUsd < plan.budgets.maxCostUsd := by
  obtain ⟨⟨action, hact⟩, ρ, hnew, hrun⟩ := h
  obtain ⟨s, hs', rfl⟩ := Option.map_eq_some_iff.mp hact
  have hmove : Moves plans sha256 ttl b.toState s := State.Step.moves ⟨action, hs'⟩
  have hnone {ρs : List Reservation} (hsame : ρs = ρs ++ [ρ]) : False := by
    have hlength := congrArg List.length hsame
    rw [List.length_append, List.length_singleton] at hlength
    omega
  cases hmove with
  | request id q event phase t hq hprogress =>
    have hreservation : b.toState.reservation id q phase = [ρ] := List.append_cancel_left hnew
    cases hprogress with
    | reserve plan' capability t hphase hres =>
      simp only [State.reservation, hphase, List.cons.injEq, and_true] at hreservation
      have hown : r.runId = q.claims.runId := by rw [hid, ← hrun, ← hreservation]
      obtain ⟨r', hr', hallows⟩ := hres.allowed
      obtain rfl := List.inj_on_of_nodup_map hs.ids hr hr' (hown.trans hallows.1.symm)
      -- The plan of the envelope is the plan of the run.
      obtain ⟨r', hr', hid', hdigest, -⟩ := hs.envelopes _ (hs.claims id q hq)
      obtain rfl := List.inj_on_of_nodup_map hs.ids hr hr' (hown.trans hid'.symm)
      have hread := hs.plan id q hq plan' (by rw [hphase]; rfl)
      rw [← hdigest, hplan] at hread
      obtain rfl := Option.some_inj.mp hread
      exact hallows.2.2.2
    | _ =>
      rw [State.reservation_eq_nil (by rintro ⟨⟩)] at hreservation
      cases hreservation
  | _ => exact (hnone hnew).elim

end

/-! ## The accounts -/

section

variable (plans : List HarnessPlan) (sha256 : List Char → String) (ttl : Option ℤ)

/-- A run that counts its cost as complete costs what its completed receipts cost, and no receipt is
reserved once they cost what the plan allows. -/
structure Books.Exact (b : Books) : Prop where
  costs : ∀ r ∈ b.runs, r.costComplete = true → r.costUsd = b.completedCost r.runId
  budget : ∀ r ∈ b.runs, ∀ plan, getPlan plans r.planDigest = some plan →
    ∀ b', b.Reserves plans sha256 ttl r.runId b' → b.completedCost r.runId < plan.budgets.maxCostUsd

/-- No run that counts its cost as complete lags behind, and none that reserves a receipt by as much
as its budget has left. -/
structure Books.Level (b : Books) : Prop where
  costs : ∀ r ∈ b.runs, r.costComplete = true → b.lag r.runId = 0
  budget : ∀ r ∈ b.runs, ∀ plan, getPlan plans r.planDigest = some plan →
    ∀ b', b.Reserves plans sha256 ttl r.runId b' → b.lag r.runId < plan.budgets.maxCostUsd - r.costUsd

/-- The costs of all completed receipts are recorded, and have at most eight decimals. -/
def Books.Settled (b : Books) : Prop :=
  ∀ row ∈ b.receipts, row.result.isSome → b.Recorded row ∧ EightDecimals (row.costUsd.getD 0)

end

namespace Sample

/-- A provider reports a cost above the budget. -/
def costly : AdapterResponse := ⟨.null, "simulator", "recorded", none, ⟨none, none, some (.ofNat 12)⟩⟩

/-- The process dies before it adds the cost to the run, and the next invocation comes in. -/
def unrecorded : List Action := undisturbed ++
  [.request 0 (.return costly), .request 0 (.complete 5), .request 0 .crash,
    .issue ⟨"RUN-1", 1, "worker", "plan", 1⟩ ⟨"RUN-1", "node", 1, "INV-2"⟩,
    .receive 1 { claims with jti := "INV-2" } ⟨"INV-2", "lookup", .read, none⟩,
    .request 1 .readEpoch, .request 1 .readPlan, .request 1 .readRun]

/-- The reservation of the next invocation. -/
def nextReservation : Reservation := ⟨1, "RUN-1", 1, false, some (.running, 1), false⟩

/-- The run does not know of the cost, and the next invocation can be reserved. -/
def Unrecorded (s : State) : Prop :=
  (∃ r ∈ s.runs, (r.runId = "RUN-1" ∧ r.planDigest = "plan") ∧ r.costComplete = true ∧ r.costUsd = 0 ∧
    s.completedCost r.runId = 12) ∧
  (s.act plans String.ofList none (.request 1 .reserve)).map (·.reservations) =
    some (s.reservations ++ [nextReservation])

instance : DecidablePred Unrecorded := fun s => by unfold Unrecorded; infer_instance

theorem runAll_unrecorded : ((State.start 0).runAll plans String.ofList none unrecorded).map
    (fun s => decide (Unrecorded s)) = some true := by decide +kernel

/-- Books of that run. -/
theorem exists_unrecorded : ∃ b, Books.Reachable plans String.ofList none b ∧ Unrecorded b.toState := by
  obtain ⟨s, hrun, hs⟩ := Option.map_eq_some_iff.mp runAll_unrecorded
  obtain ⟨b, hb, rfl⟩ := Books.exists_of_reachable (State.reachable_runAll hrun)
  exact ⟨b, hb, of_decide_eq_true hs⟩

end Sample

section

variable {plans : List HarnessPlan} {sha256 : List Char → String} {ttl : Option ℤ} {b : Books}

/-- **The accounts of a run are exact as far as it does not lag behind**, in every state that
invocations, failures of providers and crashes lead to; it does not when all costs are recorded. -/
theorem cost_accounting (h : Books.Reachable plans sha256 ttl b) :
    (b.Exact plans sha256 ttl ↔ b.Level plans sha256 ttl) ∧
      (b.Settled → b.Exact plans sha256 ttl) := by
  obtain ⟨hreach, haudited⟩ := h.audited
  obtain ⟨hs, ho, -⟩ := hreach.counted
  have hiff : b.Exact plans sha256 ttl ↔ b.Level plans sha256 ttl := by
    constructor
    · intro hexact
      refine ⟨fun r hr hcomplete => ?_, fun r hr plan hplan b' hreserves => ?_⟩
      · have hcost := hexact.costs r hr hcomplete
        rw [haudited.completedCost ho hr] at hcost
        linarith
      · have hbudget := hexact.budget r hr plan hplan b' hreserves
        rw [haudited.completedCost ho hr] at hbudget
        linarith
    · intro hlevel
      refine ⟨fun r hr hcomplete => ?_, fun r hr plan hplan b' hreserves => ?_⟩
      · rw [haudited.completedCost ho hr, hlevel.costs r hr hcomplete, add_zero]
      · have hbudget := hlevel.budget r hr plan hplan b' hreserves
        rw [haudited.completedCost ho hr]
        linarith
  refine ⟨hiff, fun hsettled => hiff.mpr ?_⟩
  have hlag (runId : String) : b.lag runId = 0 := by
    refine haudited.lag_eq_zero fun row hrow => ?_
    obtain ⟨hmem, hcompleted⟩ := List.mem_filter.mp hrow
    exact hsettled row hmem (of_decide_eq_true hcompleted).2
  refine ⟨fun r _ _ => hlag r.runId, fun r hr plan hplan b' hreserves => ?_⟩
  rw [hlag]
  have hlt := hreserves.costUsd_lt hs hr rfl hplan
  linarith

/-- A run of which the cost of one invocation was lost. -/
theorem cost_accounting_sample : ∃ b, Books.Reachable Sample.plans String.ofList none b ∧
    Sample.Unrecorded b.toState ∧
    (b.Exact Sample.plans String.ofList none ↔ b.Level Sample.plans String.ofList none) ∧
    (b.Settled → b.Exact Sample.plans String.ofList none) := by
  obtain ⟨b, hb, hunrecorded⟩ := Sample.exists_unrecorded
  exact ⟨b, hb, hunrecorded, cost_accounting hb⟩

/-- **A run that counts its cost as complete does not know of an invocation**, and the next one is
reserved above the budget. -/
theorem cost_lost : ∃ b, Books.Reachable Sample.plans String.ofList none b ∧
    ∃ r ∈ b.runs, r.costComplete = true ∧ r.costUsd ≠ b.completedCost r.runId ∧
      ∃ plan, getPlan Sample.plans r.planDigest = some plan ∧
        (∃ b', b.Reserves Sample.plans String.ofList none r.runId b') ∧
        plan.budgets.maxCostUsd ≤ b.completedCost r.runId := by
  obtain ⟨b, hb, ⟨r, hr, ⟨hid, hdigest⟩, hcomplete, hcost, hcompleted⟩, hreserve⟩ :=
    Sample.exists_unrecorded
  obtain ⟨s', hact, hnew⟩ := Option.map_eq_some_iff.mp hreserve
  refine ⟨b, hb, r, hr, hcomplete, ?_, Sample.plans.head (by simp [Sample.plans]), ?_, ?_, ?_⟩
  · rw [hcost, hcompleted]
    norm_num
  · rw [hdigest]
    rfl
  · refine ⟨⟨s', b.recordings ++ b.toState.recordings (.request 1 .reserve)⟩, ⟨.request 1 .reserve, ?_⟩,
      Sample.nextReservation, hnew, hid.symm⟩
    rw [Books.act, hact]
    rfl
  · rw [hcompleted]
    norm_num [Sample.plans]

end

end Gateway

end HarnessFramework
