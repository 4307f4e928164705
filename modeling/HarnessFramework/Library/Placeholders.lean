import Mathlib.Data.List.TakeWhile
import Mathlib.Tactic.Common

/-!
# Texts with placeholders

A placeholder is a name in double braces. Replacing all of them goes through the text once, from left to
right: where a placeholder begins, what stands for its name is put out and the text goes on after it. What is
put out is not looked at again.

## Main definitions

* `Token`, `printAll` — a text in pieces, and the text
* `Splits` — the pieces of a text: leftmost placeholders, that do not overlap
* `replaceAll` — the loop

## Main results

* `exists_splits`, `Splits.unique` — every text has one way to be split
* `Splits.replaceAll` — the loop replaces the placeholders that the text is split into
-/

namespace HarnessFramework

namespace Placeholders

/-! ## Pieces -/

/-- A character, or a placeholder. -/
inductive Token
  | char (c : Char)
  | hole (name : List Char)
deriving DecidableEq, Repr

/-- A placeholder has a name, without closing braces. -/
def IsName (name : List Char) : Prop := name ≠ [] ∧ '}' ∉ name

instance (name : List Char) : Decidable (IsName name) := by unfold IsName; infer_instance

/-- A placeholder as it is written. -/
def written (name : List Char) : List Char := '{' :: '{' :: (name ++ ['}', '}'])

/-- A piece with the placeholders replaced. -/
def Token.render (f : List Char → List Char) : Token → List Char
  | char c => [c]
  | hole name => f name

/-- The text of pieces. -/
def printAll (tokens : List Token) : List Char := tokens.flatMap (Token.render written)

/-- The name of the placeholder that a text begins with, if it begins with one. -/
def hole? : List Char → Option (List Char)
  | '{' :: '{' :: cs =>
    if IsName (cs.takeWhile (· ≠ '}')) ∧ (cs.dropWhile (· ≠ '}')).take 2 = ['}', '}'] then
      some (cs.takeWhile (· ≠ '}'))
    else none
  | _ => none

/-- A name ends where its placeholder is closed. -/
theorem span_name {name : List Char} (h : '}' ∉ name) (rest : List Char) :
    (name ++ '}' :: rest).takeWhile (· ≠ '}') = name ∧
      (name ++ '}' :: rest).dropWhile (· ≠ '}') = '}' :: rest := by
  have hname : ∀ c ∈ name, decide (c ≠ '}') = true := by
    intro c hc
    exact decide_eq_true fun heq => h (heq ▸ hc)
  rw [List.takeWhile_append_of_pos hname, List.dropWhile_append_of_pos hname, List.takeWhile_cons_of_neg,
    List.dropWhile_cons_of_neg, List.append_nil]
  · exact ⟨rfl, rfl⟩
  · simp
  · simp

/-- **What a text that begins with a placeholder looks like.** -/
theorem hole?_eq_some {cs name : List Char} :
    hole? cs = some name ↔ IsName name ∧ ∃ rest, cs = written name ++ rest := by
  constructor
  · intro h
    unfold hole? at h
    split at h
    · next cs =>
      split at h
      · next hname =>
        obtain rfl := Option.some_inj.mp h
        refine ⟨hname.1, (cs.dropWhile (· ≠ '}')).drop 2, ?_⟩
        have hrest := List.take_append_drop 2 (cs.dropWhile (· ≠ '}'))
        rw [hname.2] at hrest
        rw [written, List.cons_append, List.cons_append, List.append_assoc, hrest,
          List.takeWhile_append_dropWhile]
      · cases h
    · cases h
  · rintro ⟨hname, rest, rfl⟩
    obtain ⟨htake, hdrop⟩ := span_name hname.2 ('}' :: rest)
    rw [written, List.cons_append, List.cons_append, List.append_assoc, List.cons_append,
      List.cons_append, List.nil_append, hole?, htake, hdrop]
    exact if_pos ⟨hname, rfl⟩

/-! ## The loop -/

section

variable (f : List Char → List Char)

/-- Replace the placeholders of a text, after some characters that belong to the last one. -/
def replaceFrom : ℕ → List Char → List Char
  | _, [] => []
  | skip + 1, _ :: cs => replaceFrom skip cs
  | 0, c :: cs =>
    match hole? (c :: cs) with
    | some name => f name ++ replaceFrom (name.length + 3) cs
    | none => c :: replaceFrom 0 cs

/-- Replace all placeholders. -/
def replaceAll (cs : List Char) : List Char := replaceFrom f 0 cs

variable {f}

theorem replaceFrom_eq (skip : ℕ) (cs : List Char) : replaceFrom f skip cs = replaceAll f (cs.drop skip) := by
  induction cs generalizing skip with
  | nil => cases skip <;> rfl
  | cons c cs ih =>
    cases skip with
    | zero => rfl
    | succ skip => exact ih skip

theorem replaceAll_written {name : List Char} (h : IsName name) (cs : List Char) :
    replaceAll f (written name ++ cs) = f name ++ replaceAll f cs := by
  have hhole : hole? (written name ++ cs) = some name := hole?_eq_some.mpr ⟨h, cs, rfl⟩
  have hskip : ('{' :: (name ++ ['}', '}']) ++ cs).drop (name.length + 3) = cs :=
    List.drop_left' (by simp)
  rw [written, List.cons_append] at hhole ⊢
  rw [replaceAll, replaceFrom, hhole]
  dsimp only
  rw [replaceFrom_eq, hskip]

theorem replaceAll_cons {c : Char} {cs : List Char} (h : hole? (c :: cs) = none) :
    replaceAll f (c :: cs) = c :: replaceAll f cs := by
  rw [replaceAll, replaceFrom, h]
  rfl

end

/-! ## Splitting -/

/-- The pieces of a text: a placeholder wherever one begins that is not part of the one before. -/
inductive Splits : List Token → List Char → Prop
  | nil : Splits [] []
  | hole (name tokens cs) : IsName name → Splits tokens cs →
      Splits (.hole name :: tokens) (written name ++ cs)
  | char (c tokens cs) : (∀ name rest, IsName name → c :: cs ≠ written name ++ rest) → Splits tokens cs →
      Splits (.char c :: tokens) (c :: cs)

theorem hole?_eq_none {cs : List Char} :
    hole? cs = none ↔ ∀ name rest, IsName name → cs ≠ written name ++ rest := by
  rw [Option.eq_none_iff_forall_ne_some]
  refine ⟨fun h name rest hname heq => h name (hole?_eq_some.mpr ⟨hname, rest, heq⟩), fun h name hname => ?_⟩
  obtain ⟨hname, rest, heq⟩ := hole?_eq_some.mp hname
  exact h name rest hname heq

/-- **Every text can be split.** -/
theorem exists_splits (cs : List Char) : ∃ tokens, Splits tokens cs := by
  induction hlength : cs.length using Nat.strongRecOn generalizing cs with
  | ind n ih =>
    cases cs with
    | nil => exact ⟨[], .nil⟩
    | cons c cs =>
      cases hhole : hole? (c :: cs) with
      | none =>
        obtain ⟨tokens, htokens⟩ := ih cs.length (by rw [← hlength, List.length_cons]; omega) cs rfl
        exact ⟨_, .char c tokens cs (hole?_eq_none.mp hhole) htokens⟩
      | some name =>
        obtain ⟨hname, rest, heq⟩ := hole?_eq_some.mp hhole
        obtain ⟨tokens, htokens⟩ := ih rest.length (by
          rw [← hlength, heq, List.length_append, written]
          simp only [List.length_cons]
          omega) rest rfl
        exact ⟨.hole name :: tokens, heq ▸ Splits.hole name tokens rest hname htokens⟩

/-- **The loop replaces the placeholders that the text is split into**, each once, and nothing else. -/
theorem Splits.replaceAll {f : List Char → List Char} {tokens : List Token} {cs : List Char}
    (h : Splits tokens cs) : replaceAll f cs = tokens.flatMap (Token.render f) := by
  induction h with
  | nil => rfl
  | hole name tokens cs hname _ ih =>
    rw [replaceAll_written hname, ih, List.flatMap_cons]
    rfl
  | char c tokens cs hnone _ ih =>
    rw [replaceAll_cons (hole?_eq_none.mpr hnone), ih, List.flatMap_cons]
    rfl

theorem Splits.printAll {tokens : List Token} {cs : List Char} (h : Splits tokens cs) :
    printAll tokens = cs := by
  induction h with
  | nil => rfl
  | hole name tokens cs _ _ ih =>
    rw [Placeholders.printAll, List.flatMap_cons, ← Placeholders.printAll, ih]
    rfl
  | char c tokens cs _ _ ih =>
    rw [Placeholders.printAll, List.flatMap_cons, ← Placeholders.printAll, ih]
    rfl

/-- A text that begins with a placeholder. -/
theorem Splits.of_written {tokens : List Token} {name cs : List Char} (hname : IsName name)
    (h : Splits tokens (written name ++ cs)) :
    ∃ tokens', tokens = .hole name :: tokens' ∧ Splits tokens' cs := by
  have hhole : hole? (written name ++ cs) = some name := hole?_eq_some.mpr ⟨hname, cs, rfl⟩
  generalize htext : written name ++ cs = text at h hhole
  cases h with
  | nil => cases hhole
  | hole name' tokens' cs' hname' h' =>
    have hhole' : hole? (written name' ++ cs') = some name' := hole?_eq_some.mpr ⟨hname', cs', rfl⟩
    obtain rfl : name' = name := Option.some_inj.mp (hhole'.symm.trans hhole)
    exact ⟨tokens', rfl, List.append_cancel_left htext ▸ h'⟩
  | char c tokens' cs' hnone => exact absurd htext.symm (hnone name cs hname)

/-- **A text can be split in one way.** -/
theorem Splits.unique {tokens tokens' : List Token} {cs : List Char} (h : Splits tokens cs)
    (h' : Splits tokens' cs) : tokens = tokens' := by
  induction h generalizing tokens' with
  | nil =>
    cases h' with
    | nil => rfl
  | hole name tokens cs hname _ ih =>
    obtain ⟨rest, rfl, hrest⟩ := h'.of_written hname
    rw [ih hrest]
  | char c tokens cs hnone _ ih =>
    generalize htext : c :: cs = text at h'
    cases h' with
    | nil => cases htext
    | hole name' tokens' cs' hname' _ => exact absurd htext (hnone name' cs' hname')
    | char c' tokens' cs' _ h' =>
      obtain ⟨rfl, rfl⟩ := List.cons.inj htext
      rw [ih h']

end Placeholders

end HarnessFramework
