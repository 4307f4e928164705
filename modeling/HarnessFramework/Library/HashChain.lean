import Mathlib.Data.List.Basic
import Mathlib.Data.List.Induction
import Mathlib.Tactic.Common

/-!
# Hash chains

A chain of entries in which every entry names the digest of the one before it. When no two entries
of interest share a digest, the digest of the last entry determines the whole chain.

## Main definitions

* `Linked` — every entry names the digest of the one before it
* `headDigest` — the digest of the last entry

## Main results

* `linked_append`, `linked_concat` — composing chains
* `Linked.ext` — chains with the same head digest are equal
* `Linked.take_eq_take` — chains that share a digest agree up to it
-/

namespace HarnessFramework

variable {C D : Type} (digest : C → D) (previous : C → Option D)

/-- Every entry names the digest of the one before it, the first one `p`. -/
def Linked : Option D → List C → Prop
  | _, [] => True
  | p, c :: cs => previous c = p ∧ Linked (some (digest c)) cs

/-- The digest of the last entry, or `p`. -/
def headDigest : Option D → List C → Option D
  | p, [] => p
  | _, c :: cs => headDigest (some (digest c)) cs

@[simp] theorem headDigest_nil (p : Option D) : headDigest digest p [] = p := rfl

theorem headDigest_append (p : Option D) (as bs : List C) :
    headDigest digest p (as ++ bs) = headDigest digest (headDigest digest p as) bs := by
  induction as generalizing p with
  | nil => rfl
  | cons a as ih => exact ih _

theorem headDigest_concat (p : Option D) (cs : List C) (c : C) :
    headDigest digest p (cs ++ [c]) = some (digest c) := by
  rw [headDigest_append]; rfl

theorem headDigest_eq_getLast? (p : Option D) (cs : List C) :
    headDigest digest p cs = (cs.getLast?.map digest).or p := by
  induction cs using List.reverseRecOn with
  | nil => rfl
  | append_singleton cs c _ => rw [headDigest_concat]; simp

theorem linked_append {p : Option D} {as bs : List C} :
    Linked digest previous p (as ++ bs) ↔
      Linked digest previous p as ∧ Linked digest previous (headDigest digest p as) bs := by
  induction as generalizing p with
  | nil => simp [Linked]
  | cons a as ih => simp [Linked, headDigest, ih, and_assoc]

theorem linked_concat {p : Option D} {cs : List C} {c : C} :
    Linked digest previous p (cs ++ [c]) ↔
      Linked digest previous p cs ∧ previous c = headDigest digest p cs := by
  simp [linked_append, Linked]

variable {digest previous}

theorem Linked.take {p : Option D} {cs : List C} (h : Linked digest previous p cs) (n : ℕ) :
    Linked digest previous p (cs.take n) := by
  rw [← List.take_append_drop n cs, linked_append] at h
  exact h.1

/-- **Chains with the same head digest are equal.** -/
theorem Linked.ext {as bs : List C} (ha : Linked digest previous none as)
    (hb : Linked digest previous none bs)
    (hinj : ∀ a ∈ as, ∀ b ∈ bs, digest a = digest b → a = b)
    (h : headDigest digest none as = headDigest digest none bs) : as = bs := by
  induction as using List.reverseRecOn generalizing bs with
  | nil =>
    rcases List.eq_nil_or_concat bs with rfl | ⟨bs, b, rfl⟩
    · rfl
    · rw [List.concat_eq_append, headDigest_concat] at h; cases h
  | append_singleton as a ih =>
    rcases List.eq_nil_or_concat bs with rfl | ⟨bs, b, rfl⟩
    · rw [headDigest_concat] at h; cases h
    · rw [List.concat_eq_append] at *
      rw [headDigest_concat, headDigest_concat, Option.some.injEq] at h
      obtain rfl := hinj a (by simp) b (by simp) h
      rw [linked_concat] at ha hb
      rw [ih ha.1 hb.1 (fun a ha b hb => hinj a (by simp [ha]) b (by simp [hb]))
        (ha.2.symm.trans hb.2)]

/-- **Chains that share a digest agree up to it.** -/
theorem Linked.take_eq_take {as bs : List C} (ha : Linked digest previous none as)
    (hb : Linked digest previous none bs)
    (hinj : ∀ a ∈ as, ∀ b ∈ bs, digest a = digest b → a = b) {i j : ℕ} (hi : i < as.length)
    (hj : j < bs.length) (h : digest as[i] = digest bs[j]) :
    as.take (i + 1) = bs.take (j + 1) := by
  refine (ha.take (i + 1)).ext (hb.take (j + 1))
    (fun a ha b hb => hinj a (List.mem_of_mem_take ha) b (List.mem_of_mem_take hb)) ?_
  rw [List.take_succ_eq_append_getElem hi, List.take_succ_eq_append_getElem hj, headDigest_concat,
    headDigest_concat, h]

end HarnessFramework
