import HarnessFramework.HarnessCompiler.Compile

/-!
# The digest of a plan

The compiler digests the canonical text of a plan without its id and digest; `verifyPlanDigest` of
`packages/contracts/src/index.ts` reads the written plan, takes the two off and digests what
JavaScript's canonical form writes.

## Main definitions

* `planContent`, `verifyPlanDigest` — what TypeScript digests of a plan, and its check
* `DigestsAgree` — both languages digest the same text, and the check accepts the plan

## Main results

* `canonicalize_planContent` — what is left of a written plan is the content of the compiler
* `digests_agree_iff` — the digests agree exactly when the content is written alike
-/

namespace HarnessFramework

namespace HarnessCompiler

open Json (arrayIndex?)

/-! ## The check -/

/-- `const { planDigest: _ignored, planId: _id, ...content } = plan`. -/
def planContent : Json → Json
  | .obj members => .obj (members.filter fun m => m.1 ≠ "planDigest" ∧ m.1 ≠ "planId")
  | plan => plan

/-- `verifyPlanDigest`. -/
def verifyPlanDigest (sha256 : List Char → String) (plan : Json) : Bool :=
  plan.get? "planDigest" = some (.str (stableDigest sha256 (planContent plan)))

/-- Of the plan as it is written, TypeScript digests the text that the compiler digested, and accepts
the plan. -/
def DigestsAgree (sha256 : List Char → String) (spell : JsonNumber → List Char) (plan : CompiledPlan) :
    Prop :=
  let written := (plan.document sha256 spell).val.toJs
  canonicalJson (planContent written) = canonicalText spell plan.content.val ∧
    verifyPlanDigest sha256 written = true

/-! ## What is left of a written plan -/

/-- Members in another order have the same canonical form. -/
theorem canonicalizeMembers_congr {members members' : List (String × Json)}
    (hkeys : (members.map Prod.fst).Nodup) (h : members.Perm members') :
    canonicalizeMembers members = canonicalizeMembers members' := by
  have hkeys' : (members'.map Prod.fst).Nodup := (h.map Prod.fst).nodup_iff.mp hkeys
  refine List.Perm.eq_of_pairwise (fun a b _ _ hab hba => absurd hba hab.asymm)
    (sortedMembers_canonicalizeMembers members) (sortedMembers_canonicalizeMembers members') ?_
  exact ((canonicalizeMembers_perm hkeys).trans (h.map _)).trans (canonicalizeMembers_perm hkeys').symm

section

variable (sha256 : List Char → String) (spell : JsonNumber → List Char) (plan : CompiledPlan)

/-- The members of the content, as JavaScript reads them. -/
def contentToJs : List (String × Json) := plan.contentMembers.map fun m => (m.1, m.2.val.toJs)

theorem content_keys : ((contentToJs plan).map Prod.fst).Nodup := by
  simp [contentToJs, CompiledPlan.contentMembers]

theorem content_toJs : plan.content.val.toJs = .obj (enumerate (contentToJs plan)) := by
  rw [CompiledPlan.content, Document.object, Value.toJs, membersToJs_eq_map, List.map_map]
  rfl

theorem document_toJs : (plan.document sha256 spell).val.toJs =
    .obj (enumerate (contentToJs plan ++ [("planId", .str (plan.planId sha256 spell)),
      ("planDigest", .str (plan.planDigest sha256 spell))])) := by
  rw [CompiledPlan.document, Document.object, Value.toJs, membersToJs_eq_map, List.map_map,
    List.map_append]
  rfl

/-- **What is left of a written plan is the content of the compiler.** -/
theorem canonicalize_planContent :
    canonicalize (planContent (plan.document sha256 spell).val.toJs)
      = canonicalize plan.content.val.toJs := by
  rw [document_toJs, content_toJs, planContent, canonicalize, canonicalize, Json.obj.injEq]
  refine (canonicalizeMembers_congr ?_ ?_).symm
  · exact ((enumerate_perm _).map Prod.fst).nodup_iff.mpr (content_keys plan)
  · refine (enumerate_perm _).trans ?_
    refine .trans ?_ ((enumerate_perm _).filter _).symm
    rw [List.filter_append, List.filter_eq_self.mpr, List.filter_eq_nil_iff.mpr, List.append_nil]
    · simp
    · simp [contentToJs, CompiledPlan.contentMembers]

theorem get?_planDigest : (plan.document sha256 spell).val.toJs.get? "planDigest" =
    some (.str (plan.planDigest sha256 spell)) := by
  have hindex : ∀ m ∈ contentToJs plan ++ [("planId", .str (plan.planId sha256 spell)),
      ("planDigest", .str (plan.planDigest sha256 spell))], arrayIndex? m.1 = none := by
    simp only [contentToJs, CompiledPlan.contentMembers, List.map_cons, List.map_nil, List.cons_append,
      List.nil_append, List.forall_mem_cons, List.not_mem_nil, false_implies, implies_true, and_true]
    decide
  rw [document_toJs, enumerate, List.filter_eq_nil_iff.mpr, List.filter_eq_self.mpr]
  · simp [Json.get?, contentToJs, CompiledPlan.contentMembers]
  · intro m hm
    simp [hindex m hm]
  · intro m hm
    simp [hindex m hm]

end

section

variable {sha256 : List Char → String} {spell : JsonNumber → List Char} {plan : CompiledPlan}

/-- The texts are the same exactly for content that is written alike. -/
theorem text_planContent_iff (hspell : Spells spell) :
    canonicalJson (planContent (plan.document sha256 spell).val.toJs)
      = canonicalText spell plan.content.val ↔ plan.content.val.Alike spell := by
  rw [← text_canonical_iff hspell plan.content.2, canonicalJson, canonicalize_planContent,
    canonicalJson]

/-- A plan whose text is the same is accepted. -/
theorem verifyPlanDigest_of_text (h : canonicalJson (planContent (plan.document sha256 spell).val.toJs)
    = canonicalText spell plan.content.val) :
    verifyPlanDigest sha256 (plan.document sha256 spell).val.toJs = true := by
  rw [verifyPlanDigest, get?_planDigest, CompiledPlan.planDigest, digest, stableDigest, h]
  simp

end

/-- **The digests agree exactly when the content of the plan is written alike.** -/
theorem digests_agree_iff {sha256 : List Char → String} {spell : JsonNumber → List Char}
    (hspell : Spells spell) (plan : CompiledPlan) :
    DigestsAgree sha256 spell plan ↔ plan.content.val.Alike spell := by
  rw [← @text_planContent_iff sha256 spell plan hspell]
  exact and_iff_left_of_imp verifyPlanDigest_of_text

open Sample in
set_option maxRecDepth 10000 in
theorem digests_agree_sample : ∃ plan : CompiledPlan, plan.nodes.length = 1 ∧
    compile String.ofList JsonNumber.toChars
      (sources [capability "read" "read"] "read" "read" ["taxId"] (by simp)) = .ok plan ∧
    DigestsAgree String.ofList JsonNumber.toChars plan :=
  ⟨_, by rfl, rfl, (digests_agree_iff spells_toChars _).mpr (by decide +kernel)⟩

open Sample in
/-- JavaScript puts the key `9` before the key `10`, the compiler after it. -/
theorem digests_disagree :
    ¬ ∀ (sha256 : List Char → String) (spell : JsonNumber → List Char) (sources : Sources)
      (plan : CompiledPlan), Spells spell → compile sha256 spell sources = .ok plan →
      DigestsAgree sha256 spell plan := by
  intro h
  have hagree := h String.ofList JsonNumber.toChars
    (sources [capability "read" "read"] "read" "read" ["10", "9"] (by simp)) _ spells_toChars rfl
  exact absurd ((text_planContent_iff spells_toChars).mp hagree.1) (by decide +kernel)

end HarnessCompiler

end HarnessFramework
