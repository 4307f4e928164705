import HarnessFramework.Contracts.SameValue
import HarnessFramework.Persistence.RunLifecycle

/-!
# Creating runs

Clients call `createRun` while workers, operators and sweepers issue the other statements on the run
table. A run keeps what it was requested with, and the digest of a request stands for its plan digest and
its input, so a call under a key that is taken is told which of the two it repeats.

The random ids that calls draw are new.

## Main definitions

* `CreateCall`, `Creating` — calls, with the table before and after them
* `Creating.Step`, `Creating.Reachable` — calls among the other statements
* `CreateCall.Answered` — what a call does and returns

## Main results

* `RunOp.map_request` — the other statements keep what runs were requested with
* `createRun_answered` — one call
* `createRun_idempotent` — every run of the system
-/

namespace HarnessFramework

namespace Persistence

/-! ## Calls -/

/-- A call of `createRun`, and the table before and after it. -/
structure CreateCall where
  uuid : String
  input : CreateRunInput
  result : Except RunFailure (Bool × RunRow)
  before : List RunRow
  after : List RunRow

/-- The run is under the tenant and the key of the input. -/
def CreateRunInput.Names (input : CreateRunInput) (r : RunRow) : Prop :=
  r.tenantId = input.tenantId ∧ r.idempotencyKey = input.idempotencyKey

instance (input : CreateRunInput) : DecidablePred input.Names := fun r => by
  unfold CreateRunInput.Names; infer_instance

/-- The input repeats the plan digest and the input of the run. -/
def CreateRunInput.Repeats (input : CreateRunInput) (r : RunRow) : Prop :=
  r.planDigest = input.planDigest ∧ r.input.val.SameValue input.runInput

/-- **What a call does and returns**: under a key that is taken it returns the run if it repeats its
request, and is refused otherwise, changing nothing; under a new key it creates the run. -/
structure CreateCall.Answered (call : CreateCall) : Prop where
  taken : ∀ r ∈ call.before, call.input.Names r → call.after = call.before ∧
    (call.input.Repeats r → call.result = .ok (false, r)) ∧
    (¬ call.input.Repeats r → call.result = .error (.code "run.idempotency_conflict"))
  new : (∀ r ∈ call.before, ¬ call.input.Names r) → ∃ r, call.result = .ok (true, r) ∧
    call.after = call.before ++ [r] ∧ call.input.Names r ∧ call.input.Repeats r ∧ r.status = .queued

/-- The client was told that the call created a run. -/
def CreateCall.toldCreated (call : CreateCall) : Bool :=
  match call.result with
  | .ok (created, _) => created
  | .error _ => false

/-- How many clients were told that they created a run under the key. -/
def createdCount (calls : List CreateCall) (tenantId idempotencyKey : String) : ℕ :=
  calls.countP fun call => call.input.tenantId = tenantId ∧ call.input.idempotencyKey = idempotencyKey ∧
    call.toldCreated

/-! ## The system -/

/-- The run table, and the calls so far. -/
structure Creating where
  system : RunSystem
  calls : List CreateCall

section

variable (sha256 : List Char → String)

/-- The call of `createRun` on a table. -/
def createCall (now : Time) (uuid : String) (input : CreateRunInput) (rows : List RunRow) : CreateCall where
  uuid
  input
  result := (createRun sha256 now uuid input rows).1
  before := rows
  after := (createRun sha256 now uuid input rows).2

namespace Creating

/-- No run and no call, at some time. -/
def start (clock : Time) : Creating := ⟨RunSystem.start clock, []⟩

/-- The state after a call. -/
def create (now : Time) (uuid : String) (input : CreateRunInput) (s : Creating) : Creating where
  system := s.system.after sha256 now (.createRun uuid input)
  calls := s.calls ++ [createCall sha256 now uuid input s.system.runs]

/-- The state after another statement. -/
def after (now : Time) (op : RunOp) (s : Creating) : Creating :=
  { s with system := s.system.after sha256 now op }

/-- A call that draws a new id, another statement, or an advance of the clock. -/
inductive Step : Creating → Creating → Prop
  | create (s) (uuid input now) : now ≤ s.system.clock → (∀ call ∈ s.calls, call.uuid ≠ uuid) →
      Step s (s.create sha256 now uuid input)
  | other (s) (op : RunOp) (now) : now ≤ s.system.clock → (∀ l ∈ op.lease?, l ∈ s.system.issued) →
      (∀ uuid input, op ≠ .createRun uuid input) → Step s (s.after sha256 now op)
  | advance (s) (clock : Time) : s.system.clock ≤ clock →
      Step s { s with system := { s.system with clock } }

/-- The states that steps reach. -/
def Reachable (s : Creating) : Prop := ∃ clock, Relation.ReflTransGen (Step sha256) (start clock) s

end Creating

end

section

variable {sha256 : List Char → String} {now : Time} {rows : List RunRow}

/-! ## What a run was requested with -/

/-- What a run was requested with. -/
structure RunRequest where
  runId : String
  tenantId : String
  idempotencyKey : String
  planDigest : String
  requestDigest : String
  input : Jsonb

/-- The request of a run. -/
def RunRow.request (r : RunRow) : RunRequest :=
  ⟨r.runId, r.tenantId, r.idempotencyKey, r.planDigest, r.requestDigest, r.input⟩

/-- **The other statements keep what runs were requested with.** -/
theorem RunOp.map_request {op : RunOp} (h : ∀ uuid input, op ≠ .createRun uuid input) :
    (op.exec sha256 now rows).map RunRow.request = rows.map RunRow.request := by
  cases op with
  | createRun uuid input => exact absurd rfl (h uuid input)
  | claimRun workerId leaseSeconds locked =>
    simp only [exec, Persistence.claimRun]
    split
    · rfl
    · exact map_updateWhere fun _ _ => rfl
  | requestRunCancellation runId tenantId reason =>
    simp only [exec, Persistence.requestRunCancellation]
    split
    · rfl
    · split
      · rfl
      · exact map_updateWhere fun _ _ => rfl
  | _ => exact map_updateWhere fun _ _ => rfl

/-- The digest of a request is that of the run's plan digest and input. -/
def RunRequest.Digested (sha256 : List Char → String) (r : RunRequest) : Prop :=
  r.requestDigest = stableDigest sha256 (.obj [("planDigest", .str r.planDigest), ("input", r.input.val)])

/-- **The digest of a request separates plan digests and inputs.** -/
theorem RunRequest.Digested.eq_iff (hsha : Function.Injective sha256) {r : RunRow}
    (h : r.request.Digested sha256) (input : CreateRunInput) :
    r.requestDigest = input.requestDigest sha256 ↔ input.Repeats r := by
  have hdigest : r.requestDigest = _ := h
  rw [hdigest, CreateRunInput.requestDigest, (canonical_encoding hsha _ _).2.2, ← canonicalize_eq_iff]
  constructor
  · intro hsame
    have hplan := canonicalize_lastMember_eq hsame "planDigest"
    have hinput := canonicalize_lastMember_eq hsame "input"
    simp only [lastMember, String.reduceEq, if_true, if_false, Option.none_or, Option.or_none,
      Option.map_some, Option.some.injEq, canonicalize, Json.str.injEq] at hplan hinput
    exact ⟨hplan, canonicalize_eq_iff.mp hinput⟩
  · rintro ⟨hplan, hinput⟩
    refine canonicalize_obj_congr (.cons ⟨rfl, ?_⟩ (.cons ⟨rfl, ?_⟩ .nil))
    · exact congrArg (fun plan => canonicalize (.str plan)) hplan
    · exact canonicalize_eq_iff.mpr hinput

theorem digested_newRun (runId : String) (input : CreateRunInput) :
    (newRun sha256 now runId input).request.Digested sha256 := by
  show stableDigest sha256 _ = stableDigest sha256 _
  rw [stableDigest, stableDigest, canonicalJson, canonicalJson]
  congr 2
  exact canonicalize_obj_congr (.cons ⟨rfl, rfl⟩ (.cons ⟨rfl, (canonicalize_canonicalize _).symm⟩ .nil))

/-! ## One call -/

/-- What holds of the runs in the table. -/
structure Requested (sha256 : List Char → String) (rows : List RunRow) : Prop where
  /-- There is one run per tenant and key. -/
  keys : (rows.map fun r => (r.tenantId, r.idempotencyKey)).Nodup
  digests : ∀ r ∈ rows, r.request.Digested sha256

theorem Requested.unique (h : Requested sha256 rows) {input : CreateRunInput} {r r' : RunRow}
    (hr : r ∈ rows) (hr' : r' ∈ rows) (hn : input.Names r) (hn' : input.Names r') : r = r' :=
  List.inj_on_of_nodup_map h.keys hr hr'
    (Prod.ext (hn.1.trans hn'.1.symm) (hn.2.trans hn'.2.symm))

theorem find?_names (input : CreateRunInput) : (rows.find? fun r => r.tenantId = input.tenantId ∧
    r.idempotencyKey = input.idempotencyKey) = rows.find? fun r => input.Names r := rfl

/-- **What a call of `createRun` does and returns**, if it draws an id that no run has. -/
theorem createRun_answered (hsha : Function.Injective sha256) (h : Requested sha256 rows) {uuid : String}
    {input : CreateRunInput} (hfresh : ∀ r ∈ rows, r.runId ≠ "RUN-" ++ uuid) :
    (createCall sha256 now uuid input rows).Answered where
  taken := by
    intro r hr hnames
    have hfind : (rows.find? fun r => input.Names r) = some r := by
      cases hfind : rows.find? fun r => input.Names r with
      | none => exact absurd (decide_eq_true hnames) (List.find?_eq_none.mp hfind r hr)
      | some r' =>
        have hnames' : input.Names r' := by simpa using List.find?_some hfind
        rw [h.unique (List.mem_of_find?_eq_some hfind) hr hnames' hnames]
    have hdigest := (h.digests r hr).eq_iff hsha input
    simp only [createCall, createRun, find?_names, hfind]
    by_cases hrepeats : input.Repeats r
    · rw [if_pos (hdigest.mpr hrepeats)]
      exact ⟨rfl, fun _ => by simp [hfresh r hr], fun hno => absurd hrepeats hno⟩
    · rw [if_neg (mt hdigest.mp hrepeats)]
      exact ⟨rfl, fun hyes => absurd hyes hrepeats, fun _ => rfl⟩
  new := by
    intro hnew
    have hfind : (rows.find? fun r => input.Names r) = none :=
      List.find?_eq_none.mpr fun r hr hnames => hnew r hr (of_decide_eq_true hnames)
    have hno : ¬ ∃ r ∈ rows, r.runId = "RUN-" ++ uuid := by
      rintro ⟨r, hr, hid⟩
      exact hfresh r hr hid
    simp only [createCall, createRun, find?_names, hfind, if_neg hno]
    refine ⟨_, rfl, rfl, ⟨rfl, rfl⟩, ⟨rfl, ?_⟩, rfl⟩
    exact canonicalize_eq_iff.mp (canonicalize_canonicalize _)

/-- A call keeps what holds of the runs. -/
theorem Requested.create (h : Requested sha256 rows) (uuid : String) (input : CreateRunInput) :
    Requested sha256 (createRun sha256 now uuid input rows).2 := by
  rw [createRun, find?_names]
  split
  · split <;> exact h
  · next hfind =>
    split
    · exact h
    · refine ⟨?_, fun r hr => ?_⟩
      · rw [List.map_append, List.nodup_append]
        refine ⟨h.keys, List.nodup_singleton _, ?_⟩
        rintro _ hr _ hr' rfl
        obtain ⟨r, hr, hkey⟩ := List.mem_map.mp hr
        rw [List.map_singleton, List.mem_singleton] at hr'
        obtain ⟨htenant, hkey⟩ := Prod.ext_iff.mp (hkey.trans hr')
        have hnames : input.Names r := ⟨htenant, hkey⟩
        exact List.find?_eq_none.mp hfind r hr (decide_eq_true hnames)
      · rcases List.mem_append.mp hr with hr | hr
        · exact h.digests r hr
        · rw [List.mem_singleton.mp hr]
          exact digested_newRun _ _

/-- What holds of the runs depends on what they were requested with only. -/
theorem Requested.congr {rows' : List RunRow} (h : Requested sha256 rows)
    (hsame : rows'.map RunRow.request = rows.map RunRow.request) : Requested sha256 rows' where
  keys := by
    have hkeys := congrArg (List.map fun q : RunRequest => (q.tenantId, q.idempotencyKey)) hsame
    rw [List.map_map, List.map_map] at hkeys
    exact hkeys ▸ h.keys
  digests := by
    intro r hr
    obtain ⟨r', hr', heq⟩ := List.mem_map.mp (hsame ▸ List.mem_map_of_mem hr)
    exact heq ▸ h.digests r' hr'

/-! ## Every run of the system -/

/-- What holds of the runs and the calls. -/
structure Creating.Valid (sha256 : List Char → String) (s : Creating) : Prop where
  requested : Requested sha256 s.system.runs
  drawn : ∀ r ∈ s.system.runs, ∃ call ∈ s.calls, r.runId = "RUN-" ++ call.uuid
  answered : ∀ call ∈ s.calls, call.Answered
  known : ∀ call ∈ s.calls, ∃ r ∈ s.system.runs, call.input.Names r
  told : ∀ r ∈ s.system.runs, createdCount s.calls r.tenantId r.idempotencyKey = 1

variable {s s' : Creating}

theorem createdCount_append (calls : List CreateCall) (call : CreateCall) (tenantId idempotencyKey : String) :
    createdCount (calls ++ [call]) tenantId idempotencyKey = createdCount calls tenantId idempotencyKey +
      if call.input.tenantId = tenantId ∧ call.input.idempotencyKey = idempotencyKey ∧ call.toldCreated then 1
      else 0 := by
  rw [createdCount, createdCount, List.countP_append, List.countP_singleton]
  simp only [decide_eq_true_eq]

theorem Creating.calls_create (uuid : String) (input : CreateRunInput) :
    (s.create sha256 now uuid input).calls =
      s.calls ++ [createCall sha256 now uuid input s.system.runs] := rfl

/-- **A call keeps what holds.** -/
theorem Creating.Valid.create (hsha : Function.Injective sha256) (h : s.Valid sha256) {uuid : String}
    (hfresh : ∀ call ∈ s.calls, call.uuid ≠ uuid) (input : CreateRunInput) :
    (s.create sha256 now uuid input).Valid sha256 := by
  have hids : ∀ r ∈ s.system.runs, r.runId ≠ "RUN-" ++ uuid := by
    intro r hr hid
    obtain ⟨call, hcall, hdrawn⟩ := h.drawn r hr
    exact hfresh call hcall ((String.append_right_inj _).mp (hdrawn.symm.trans hid))
  have hanswered : (createCall sha256 now uuid input s.system.runs).Answered :=
    createRun_answered hsha h.requested hids
  have hlast : createCall sha256 now uuid input s.system.runs ∈
      s.calls ++ [createCall sha256 now uuid input s.system.runs] :=
    List.mem_append_right _ (List.mem_singleton_self _)
  have hcalls : ∀ call ∈ s.calls ++ [createCall sha256 now uuid input s.system.runs], call.Answered := by
    intro call hcall
    rcases List.mem_append.mp hcall with hcall | hcall
    · exact h.answered call hcall
    · exact List.mem_singleton.mp hcall ▸ hanswered
  have hruns : (s.create sha256 now uuid input).system.runs =
      (createCall sha256 now uuid input s.system.runs).after := rfl
  by_cases htaken : ∃ r ∈ s.system.runs, input.Names r
  · obtain ⟨r, hr, hnames⟩ := htaken
    obtain ⟨hafter, hrepeats, hother⟩ := hanswered.taken r hr hnames
    have htold : (createCall sha256 now uuid input s.system.runs).toldCreated = false := by
      rw [CreateCall.toldCreated]
      by_cases hsame : input.Repeats r
      · rw [hrepeats hsame]
      · rw [hother hsame]
    rw [hafter] at hruns
    change _ = s.system.runs at hruns
    refine ⟨hruns ▸ h.requested, ?_, hcalls, ?_, ?_⟩
    · intro r' hr'
      obtain ⟨call, hcall, hdrawn⟩ := h.drawn r' (hruns ▸ hr')
      exact ⟨call, List.mem_append_left _ hcall, hdrawn⟩
    · intro call hcall
      rw [hruns]
      rcases List.mem_append.mp hcall with hcall | hcall
      · exact h.known call hcall
      · exact ⟨r, hr, List.mem_singleton.mp hcall ▸ hnames⟩
    · intro r' hr'
      rw [Creating.calls_create, createdCount_append, h.told r' (hruns ▸ hr'), htold]
      simp
  · have hnew : ∀ r ∈ s.system.runs, ¬ input.Names r := fun r hr hnames => htaken ⟨r, hr, hnames⟩
    obtain ⟨r, hresult, hafter, hnames, -, -⟩ := hanswered.new hnew
    have htold : (createCall sha256 now uuid input s.system.runs).toldCreated = true := by
      rw [CreateCall.toldCreated, hresult]
    have hid : r.runId = "RUN-" ++ uuid := by
      have hfind : (s.system.runs.find? fun r => input.Names r) = none :=
        List.find?_eq_none.mpr fun r hr hnames => hnew r hr (of_decide_eq_true hnames)
      have hno : ¬ ∃ r ∈ s.system.runs, r.runId = "RUN-" ++ uuid := fun ⟨r, hr, hid⟩ => hids r hr hid
      simp only [createCall, createRun, find?_names, hfind, if_neg hno, Except.ok.injEq, Prod.mk.injEq,
        true_and] at hresult
      rw [← hresult, newRun]
    have hruns : (s.create sha256 now uuid input).system.runs = s.system.runs ++ [r] :=
      hruns.trans hafter
    refine ⟨?_, ?_, hcalls, ?_, ?_⟩
    · exact h.requested.create uuid input
    · intro r' hr'
      rcases List.mem_append.mp (hruns ▸ hr') with hr' | hr'
      · obtain ⟨call, hcall, hdrawn⟩ := h.drawn r' hr'
        exact ⟨call, List.mem_append_left _ hcall, hdrawn⟩
      · exact ⟨_, hlast, List.mem_singleton.mp hr' ▸ hid⟩
    · intro call hcall
      rw [hruns]
      rcases List.mem_append.mp hcall with hcall | hcall
      · obtain ⟨r', hr', hnames'⟩ := h.known call hcall
        exact ⟨r', List.mem_append_left _ hr', hnames'⟩
      · exact ⟨r, List.mem_append_right _ (List.mem_singleton_self _), List.mem_singleton.mp hcall ▸ hnames⟩
    · intro r' hr'
      rw [Creating.calls_create, createdCount_append, htold]
      rcases List.mem_append.mp (hruns ▸ hr') with hr' | hr'
      · have hother := hnew r' hr'
        rw [h.told r' hr', if_neg]
        rintro ⟨htenant, hkey, -⟩
        exact hother ⟨htenant.symm, hkey.symm⟩
      · obtain rfl := List.mem_singleton.mp hr'
        -- Calls under the key would have left a run under it.
        have hzero : createdCount s.calls r'.tenantId r'.idempotencyKey = 0 := by
          refine List.countP_eq_zero.mpr fun call hcall hcounts => ?_
          obtain ⟨htenant, hkey, -⟩ := of_decide_eq_true hcounts
          obtain ⟨r'', hr'', hnames''⟩ := h.known call hcall
          refine hnew r'' hr'' ⟨?_, ?_⟩
          · rw [hnames''.1, htenant, hnames.1]
            rfl
          · rw [hnames''.2, hkey, hnames.2]
            rfl
        rw [hzero, if_pos ⟨hnames.1.symm, hnames.2.symm, rfl⟩]

/-- Statements that keep what runs were requested with keep what holds. -/
theorem Creating.Valid.congr (h : s.Valid sha256) {system : RunSystem}
    (hsame : system.runs.map RunRow.request = s.system.runs.map RunRow.request) :
    Creating.Valid sha256 { s with system } := by
  have hback : ∀ r ∈ system.runs, ∃ r' ∈ s.system.runs, r'.request = r.request := fun r hr =>
    List.mem_map.mp (hsame ▸ List.mem_map_of_mem hr)
  have hforth : ∀ r ∈ s.system.runs, ∃ r' ∈ system.runs, r'.request = r.request := fun r hr =>
    List.mem_map.mp (hsame ▸ List.mem_map_of_mem hr)
  refine ⟨h.requested.congr hsame, ?_, h.answered, ?_, ?_⟩
  · intro r hr
    obtain ⟨r', hr', heq⟩ := hback r hr
    obtain ⟨call, hcall, hdrawn⟩ := h.drawn r' hr'
    exact ⟨call, hcall, (congrArg RunRequest.runId heq).symm.trans hdrawn⟩
  · intro call hcall
    obtain ⟨r, hr, hnames⟩ := h.known call hcall
    obtain ⟨r', hr', heq⟩ := hforth r hr
    exact ⟨r', hr', (congrArg RunRequest.tenantId heq).trans hnames.1,
      (congrArg RunRequest.idempotencyKey heq).trans hnames.2⟩
  · intro r hr
    obtain ⟨r', hr', heq⟩ := hback r hr
    have htenant : r'.tenantId = r.tenantId := congrArg RunRequest.tenantId heq
    have hkey : r'.idempotencyKey = r.idempotencyKey := congrArg RunRequest.idempotencyKey heq
    rw [← htenant, ← hkey]
    exact h.told r' hr'

theorem Creating.Valid.step (hsha : Function.Injective sha256) (h : s.Valid sha256)
    (hstep : Creating.Step sha256 s s') : s'.Valid sha256 := by
  cases hstep with
  | create uuid input now _ hfresh => exact h.create hsha hfresh input
  | other op now _ _ hop => exact h.congr (RunOp.map_request hop)
  | advance => exact h.congr rfl

theorem Creating.start_valid (clock : Time) : (Creating.start clock).Valid sha256 where
  requested := ⟨by simp [start, RunSystem.start], by simp [start, RunSystem.start]⟩
  drawn := by simp [start, RunSystem.start]
  answered := by simp [start]
  known := by simp [start]
  told := by simp [start, RunSystem.start]

theorem Creating.Reachable.valid (hsha : Function.Injective sha256) (h : Creating.Reachable sha256 s) :
    s.Valid sha256 := by
  obtain ⟨clock, hsteps⟩ := h
  induction hsteps with
  | refl => exact Creating.start_valid clock
  | tail _ hstep ih => exact ih.step hsha hstep

/-- An input under the key. -/
def sampleInput (n : ℕ) : CreateRunInput := ⟨"plan", .nat n, "key", "tenant"⟩

/-- A run is created and claimed; its request is repeated, and its key is used for another input. -/
def sampleCreating : Creating :=
  ((((Creating.start 0).create String.ofList 0 "1" (sampleInput 1)).after String.ofList 0
    (.claimRun "worker" 1 [])).create String.ofList 0 "2" (sampleInput 1)).create String.ofList 0 "3"
      (sampleInput 2)

theorem reachable_sampleCreating : Creating.Reachable String.ofList sampleCreating := by
  refine ⟨0, .tail (.tail (.tail (.tail .refl (.create _ "1" (sampleInput 1) 0 le_rfl ?_))
    (.other _ (.claimRun "worker" 1 []) 0 le_rfl ?_ ?_)) (.create _ "2" (sampleInput 1) 0 le_rfl ?_))
    (.create _ "3" (sampleInput 2) 0 le_rfl ?_)⟩
  · simp [Creating.start]
  · simp [RunOp.lease?]
  · rintro _ _ ⟨⟩
  · simp [Creating.start, Creating.create, Creating.after, createCall]
  · simp [Creating.start, Creating.create, Creating.after, createCall]

/-- **`createRun` is idempotent.** In every state that clients, workers, operators and sweepers reach
there is one run per tenant and key, every call was answered from the run under its key as it was at that
moment, and exactly one of the calls under the key of a call was told that it created the run. -/
theorem createRun_idempotent (hsha : Function.Injective sha256) (h : Creating.Reachable sha256 s) :
    (s.system.runs.map fun r => (r.tenantId, r.idempotencyKey)).Nodup ∧
      (∀ call ∈ s.calls, call.Answered) ∧
      ∀ call ∈ s.calls, createdCount s.calls call.input.tenantId call.input.idempotencyKey = 1 := by
  have hvalid := h.valid hsha
  refine ⟨hvalid.requested.keys, hvalid.answered, fun call hcall => ?_⟩
  obtain ⟨r, hr, htenant, hkey⟩ := hvalid.known call hcall
  rw [← htenant, ← hkey]
  exact hvalid.told r hr

/-- The second call repeats the first, and the third is refused. -/
theorem createRun_idempotent_sample :
    sampleCreating.calls.map CreateCall.toldCreated = [true, false, false] ∧
      (sampleCreating.system.runs.map fun r => (r.tenantId, r.idempotencyKey)).Nodup ∧
      (∀ call ∈ sampleCreating.calls, call.Answered) ∧
      ∀ call ∈ sampleCreating.calls,
        createdCount sampleCreating.calls call.input.tenantId call.input.idempotencyKey = 1 :=
  ⟨by decide +kernel, createRun_idempotent (fun _ _ => String.ofList_injective) reachable_sampleCreating⟩

end

end Persistence

end HarnessFramework
