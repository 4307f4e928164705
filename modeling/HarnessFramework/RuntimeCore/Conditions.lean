import HarnessFramework.Contracts.SameValue
import HarnessFramework.Library.JsonParse
import HarnessFramework.RuntimeCore.Values

/-!
# Conditions

`evaluateCondition` of `packages/runtime-core/src/index.ts`. A condition compares what is at a path with
a literal or an unquoted text, or it is a path to something truthy. The comparison is `===`, and what
`JSON.parse` returns for an array or an object is a new object, which is `===` to nothing.

## Main definitions

* `evaluateCondition`
* `comparison` — the text of a comparison
* `EqualsLiteral` — the value at a path equals a literal as a JSON value

## Main results

* `splitCondition_comparison` — a comparison is read as it was written
* `evaluateCondition_comparison` — what it evaluates to
* `comparison_correct_iff` — when that is what the literal says
-/

namespace HarnessFramework

namespace RuntimeCore

/-! ## Reading a condition -/

/-- `\s` of a regular expression. -/
def isSpace (c : Char) : Bool :=
  c.toNat ∈ [9, 10, 11, 12, 13, 32, 0xA0, 0x1680, 0x2028, 0x2029, 0x202F, 0x205F, 0x3000, 0xFEFF] ||
    0x2000 ≤ c.toNat && c.toNat ≤ 0x200A

/-- What `.` of a regular expression leaves out. -/
def isLineBreak (c : Char) : Bool := c.toNat ∈ [10, 13, 0x2028, 0x2029]

/-- `[\w./$-]` of a regular expression. -/
def isPathChar (c : Char) : Bool :=
  'a' ≤ c && c ≤ 'z' || 'A' ≤ c && c ≤ 'Z' || '0' ≤ c && c ≤ '9' || c = '_' || c = '.' || c = '/' ||
    c = '$' || c = '-'

/-- What `\s*(.+)$` captures. It leaves the last character to the group if there are spaces only. -/
def captured (cs : List Char) : Option (List Char) :=
  let raw := if cs.dropWhile isSpace = [] then cs.drop (cs.length - 1) else cs.dropWhile isSpace
  if raw = [] ∨ raw.any isLineBreak then none else some raw

/-- `/^([\w./$-]+)\s*(==|!=)\s*(.+)$/`: the path, whether the operator is `==`, and the rest. -/
def splitCondition (cs : List Char) : Option (List Char × Bool × List Char) :=
  if cs.takeWhile isPathChar = [] then none
  else match (cs.dropWhile isPathChar).dropWhile isSpace with
    | '=' :: '=' :: r => (captured r).map fun raw => (cs.takeWhile isPathChar, true, raw)
    | '!' :: '=' :: r => (captured r).map fun raw => (cs.takeWhile isPathChar, false, raw)
    | _ => none

def isQuote (c : Char) : Bool := c = '\'' || c = '"'

/-- `raw.replace(/^['"]|['"]$/g, "")`. -/
def unquoted (raw : List Char) : List Char :=
  let raw := if (raw.head?.map isQuote).getD false then raw.tail else raw
  if (raw.getLast?.map isQuote).getD false then raw.dropLast else raw

/-! ## Evaluating a condition -/

/-- `Boolean(value)`. -/
def truthy : JsValue → Bool
  | .undefined | .null => false
  | .bool b => b
  | .num n => n ≠ .ofNat 0
  | .str s => s ≠ ""
  | .arr _ | .obj _ => true

/-- `actual === expected`, of a value that was just parsed. -/
def strictlyEquals : JsValue → Json → Bool
  | .null, .null => true
  | .bool b, .bool b' => b = b'
  | .num n, .num n' => n = n'
  | .str s, .str s' => s = s'
  | _, _ => false

/-- `actual === expected`, where `expected` is what the text stands for. A number that is infinite is
equal to no value. -/
def equalsRaw (actual : JsValue) (raw : List Char) : Bool :=
  match JsonText.parse raw with
  | some text => text.toJson?.any (strictlyEquals actual)
  | none => strictlyEquals actual (.str (String.ofList (unquoted raw)))

/-- `evaluateCondition`. -/
def evaluateCondition (expression : Option String) (state : List (String × JsValue)) : Bool :=
  match expression with
  | none => true
  | some text =>
    if text = "" ∨ text = "always" then true
    else match splitCondition text.toList with
      | none => truthy (getPath (.obj state) (some text))
      | some (path, equal, raw) =>
        let same := equalsRaw (getPath (.obj state) (some (String.ofList path))) raw
        if equal then same else !same

/-- The path that a condition reads, if it reads one. -/
def conditionPath (expression : Option String) : Option String :=
  match expression with
  | none => none
  | some text =>
    if text = "" ∨ text = "always" then none
    else match splitCondition text.toList with
      | none => some text
      | some (path, _, _) => some (String.ofList path)

/-- A condition holds in one state as in another that has the same at its path. -/
theorem evaluateCondition_congr {expression : Option String} {state state' : List (String × JsValue)}
    (h : ∀ path, conditionPath expression = some path →
      getPath (.obj state) (some path) = getPath (.obj state') (some path)) :
    evaluateCondition expression state = evaluateCondition expression state' := by
  match expression with
  | none => rfl
  | some text =>
    simp only [conditionPath] at h
    simp only [evaluateCondition]
    split
    · rfl
    · next hnot =>
      simp only [if_neg hnot] at h
      split
      · next hsplit => rw [hsplit] at h; rw [h text rfl]
      · next path equal raw hsplit => rw [hsplit] at h; rw [h _ rfl]

/-! ## Comparisons -/

/-- A path of the condition language. -/
def IsPath (path : List Char) : Prop := path ≠ [] ∧ ∀ c ∈ path, isPathChar c = true

/-- The text of a comparison, with space around its operator. -/
def comparison (path before : List Char) (equal : Bool) (after literal : List Char) : List Char :=
  path ++ (before ++ ((if equal then ['=', '='] else ['!', '=']) ++ (after ++ literal)))

/-- The value at the path is the JSON value of the literal. -/
def EqualsLiteral (state : List (String × JsValue)) (path : List Char) (literal : JsonText) : Prop :=
  ∃ value actual, literal.toJson? = some value ∧
    (getPath (.obj state) (some (String.ofList path))).toJson = some actual ∧ actual.SameValue value

/-- The literal is an array or an object. -/
def IsContainer : JsonText → Prop
  | .arr _ | .obj _ => True
  | _ => False

section

variable {path before after literal : List Char} {equal : Bool} {text : JsonText}
  {state : List (String × JsValue)}

/-! ### The spaces of a literal -/

theorem isSpace_of_isSpace {c : Char} (h : JsonText.isSpace c = true) : isSpace c = true := by
  simp only [JsonText.isSpace, Bool.or_eq_true, decide_eq_true_eq] at h
  rcases h with ((rfl | rfl) | rfl) | rfl <;> decide

theorem isSpace_of_isDigit {c : Char} (h : c.isDigit = true) : isSpace c = false := by
  have hc : 48 ≤ c.toNat ∧ c.toNat ≤ 57 := by
    rw [Char.isDigit, Bool.and_eq_true, decide_eq_true_eq, decide_eq_true_eq] at h
    exact ⟨UInt32.le_iff_toNat_le.mp h.1, UInt32.le_iff_toNat_le.mp h.2⟩
  simp only [isSpace, Bool.or_eq_false_iff, Bool.and_eq_false_iff, decide_eq_false_iff_not,
    List.mem_cons, List.not_mem_nil, or_false]
  omega

theorem readDigits_head {cs : List Char} {read : List Char × List Char}
    (h : JsonText.readDigits cs = some read) : ∃ c r, cs = c :: r ∧ isSpace c = false := by
  rw [JsonText.readDigits] at h
  split at h
  · cases h
  · next hne =>
    cases cs with
    | nil => exact absurd rfl hne
    | cons c r =>
      refine ⟨c, r, rfl, isSpace_of_isDigit ?_⟩
      by_contra hc
      exact hne (List.takeWhile_cons_of_neg hc)

theorem readNumber_head {cs : List Char} {read : List Char × List Char}
    (h : JsonText.readNumber cs = some read) : ∃ c r, cs = c :: r ∧ isSpace c = false := by
  have hmagnitude {cs : List Char} {read : List Char × List Char}
      (h : JsonText.readMagnitude cs = some read) : ∃ c r, cs = c :: r ∧ isSpace c = false := by
    obtain ⟨digits, hdigits, -⟩ := Option.bind_eq_some_iff.mp h
    exact readDigits_head hdigits
  rw [JsonText.readNumber.eq_def] at h
  split at h
  · next r => exact ⟨'-', r, rfl, by decide⟩
  · exact hmagnitude h

/-- The first character of a value is no space. -/
theorem readValue_head {fuel : ℕ} {cs : List Char} {read : JsonText × List Char}
    (h : JsonText.readValue fuel cs = some read) : ∃ c r, cs = c :: r ∧ isSpace c = false := by
  cases fuel with
  | zero => cases h
  | succ fuel =>
    rw [JsonText.readValue.eq_def] at h
    simp only at h
    split at h
    · exact ⟨_, _, rfl, by decide⟩
    · exact ⟨_, _, rfl, by decide⟩
    · exact ⟨_, _, rfl, by decide⟩
    · exact ⟨_, _, rfl, by decide⟩
    · exact ⟨_, _, rfl, by decide⟩
    · exact ⟨_, _, rfl, by decide⟩
    · obtain ⟨number, hnumber, -⟩ := Option.map_eq_some_iff.mp h
      exact readNumber_head hnumber

/-- A literal starts where its spaces end, also those that are no white space of JSON. -/
theorem dropWhile_isSpace_of_parse (h : JsonText.parse literal = some text) :
    literal.dropWhile isSpace = JsonText.skipSpace literal ∧ literal.dropWhile isSpace ≠ [] := by
  obtain ⟨c, r, hhead, hc⟩ : ∃ c r, JsonText.skipSpace literal = c :: r ∧ isSpace c = false := by
    rw [JsonText.parse] at h
    split at h
    · next read hread => exact readValue_head hread
    · cases h
  have hsplit : literal = literal.takeWhile JsonText.isSpace ++ c :: r := by
    rw [← hhead]
    exact List.takeWhile_append_dropWhile.symm
  have hspaces : ∀ d ∈ literal.takeWhile JsonText.isSpace, isSpace d = true := fun d hd =>
    isSpace_of_isSpace (List.mem_takeWhile_imp hd)
  have hdrop : literal.dropWhile isSpace = c :: r := by
    rw [hsplit, List.dropWhile_append_of_pos hspaces, List.dropWhile_cons_of_neg (by simp [hc])]
  rw [hdrop, hhead]
  exact ⟨rfl, List.cons_ne_nil _ _⟩

/-- The text that a group captures is the literal without leading spaces. -/
theorem captured_literal (h : JsonText.parse literal = some text) (hafter : ∀ c ∈ after, isSpace c = true)
    (hbreaks : ∀ c ∈ literal, isLineBreak c = false) :
    captured (after ++ literal) = some (JsonText.skipSpace literal) := by
  obtain ⟨hdrop, hne⟩ := dropWhile_isSpace_of_parse h
  have hraw : (after ++ literal).dropWhile isSpace = JsonText.skipSpace literal := by
    rw [List.dropWhile_append_of_pos hafter, hdrop]
  have hany : (JsonText.skipSpace literal).any isLineBreak = false := by
    rw [List.any_eq_false]
    intro c hc
    rw [hbreaks c (List.dropWhile_subset _ hc)]
    exact Bool.false_ne_true
  have hne' : JsonText.skipSpace literal ≠ [] := fun hnil => hne (hdrop.trans hnil)
  simp only [captured, hraw, if_neg hne']
  rw [if_neg]
  rintro (hnil | hbreak)
  · exact hne' hnil
  · rw [hany] at hbreak
    cases hbreak

theorem parse_skipSpace (cs : List Char) : JsonText.parse (JsonText.skipSpace cs) = JsonText.parse cs := by
  have hskip : JsonText.skipSpace (JsonText.skipSpace cs) = JsonText.skipSpace cs :=
    List.dropWhile_idempotent _ _
  rw [JsonText.parse, JsonText.parse, hskip]

/-! ### Reading a comparison -/

theorem isPathChar_range {c : Char} (h : isPathChar c = true) : 33 ≤ c.toNat ∧ c.toNat ≤ 122 := by
  have hrange {a b : Char} (ha : 33 ≤ a.toNat) (hb : b.toNat ≤ 122) (hac : a ≤ c) (hcb : c ≤ b) :
      33 ≤ c.toNat ∧ c.toNat ≤ 122 :=
    ⟨ha.trans (UInt32.le_iff_toNat_le.mp hac), (UInt32.le_iff_toNat_le.mp hcb).trans hb⟩
  simp only [isPathChar, Bool.or_eq_true, Bool.and_eq_true, decide_eq_true_eq] at h
  rcases h with ((((((h | h) | h) | rfl) | rfl) | rfl) | rfl) | rfl
  · exact hrange (by decide) (by decide) h.1 h.2
  · exact hrange (by decide) (by decide) h.1 h.2
  · exact hrange (by decide) (by decide) h.1 h.2
  all_goals decide

theorem not_isPathChar_of_isSpace {c : Char} (h : isSpace c = true) : isPathChar c = false := by
  by_contra hpath
  have hrange := isPathChar_range (Bool.of_not_eq_false hpath)
  simp only [isSpace, Bool.or_eq_true, Bool.and_eq_true, decide_eq_true_eq, List.mem_cons,
    List.not_mem_nil, or_false] at h
  omega

/-- **A comparison is read as it was written.** -/
theorem splitCondition_comparison (hpath : IsPath path) (hbefore : ∀ c ∈ before, isSpace c = true)
    (hafter : ∀ c ∈ after, isSpace c = true) (h : JsonText.parse literal = some text)
    (hbreaks : ∀ c ∈ literal, isLineBreak c = false) :
    splitCondition (comparison path before equal after literal) =
      some (path, equal, JsonText.skipSpace literal) := by
  obtain ⟨o, rest, hrest, ho⟩ : ∃ o rest, before ++ ((if equal then ['=', '='] else ['!', '=']) ++
      (after ++ literal)) = o :: rest ∧ isPathChar o = false := by
    cases before with
    | nil => cases equal <;> exact ⟨_, _, rfl, by decide⟩
    | cons c before => exact ⟨c, _, rfl, not_isPathChar_of_isSpace (hbefore c List.mem_cons_self)⟩
  have htake : (comparison path before equal after literal).takeWhile isPathChar = path := by
    rw [comparison, List.takeWhile_append_of_pos hpath.2, hrest, List.takeWhile_cons_of_neg (by simp [ho]),
      List.append_nil]
  have hdrop : ((comparison path before equal after literal).dropWhile isPathChar).dropWhile isSpace =
      (if equal then ['=', '='] else ['!', '=']) ++ (after ++ literal) := by
    rw [comparison, List.dropWhile_append_of_pos hpath.2, hrest, List.dropWhile_cons_of_neg (by simp [ho]),
      ← hrest, List.dropWhile_append_of_pos hbefore]
    cases equal <;> exact List.dropWhile_cons_of_neg (by decide)
  rw [splitCondition, htake, if_neg hpath.1, hdrop]
  cases equal <;> simp [captured_literal h hafter hbreaks]

/-! ## What a comparison evaluates to -/

/-- **A comparison compares what is at its path with its literal.** -/
theorem evaluateCondition_comparison (hpath : IsPath path) (hbefore : ∀ c ∈ before, isSpace c = true)
    (hafter : ∀ c ∈ after, isSpace c = true) (h : JsonText.parse literal = some text)
    (hbreaks : ∀ c ∈ literal, isLineBreak c = false) :
    evaluateCondition (some (String.ofList (comparison path before equal after literal))) state =
      (text.toJson?.any (strictlyEquals (getPath (.obj state) (some (String.ofList path)))) == equal) := by
  have hoperator : '=' ∈ comparison path before equal after literal := by
    cases equal <;> simp [comparison]
  have hspecial : ¬ (String.ofList (comparison path before equal after literal) = "" ∨
      String.ofList (comparison path before equal after literal) = "always") := by
    rintro (heq | heq)
    · have hlist := congrArg String.toList heq
      rw [String.toList_ofList] at hlist
      rw [hlist] at hoperator
      exact absurd hoperator (by decide)
    · have hlist := congrArg String.toList heq
      rw [String.toList_ofList] at hlist
      rw [hlist] at hoperator
      exact absurd hoperator (by decide)
  simp only [evaluateCondition, if_neg hspecial, String.toList_ofList,
    splitCondition_comparison hpath hbefore hafter h hbreaks, equalsRaw, parse_skipSpace, h]
  cases equal <;> simp

theorem strictlyEquals_iff {actual : JsValue} {value : Json} (hscalar : ∀ items, value ≠ .arr items)
    (hscalar' : ∀ members, value ≠ .obj members) :
    strictlyEquals actual value = true ↔ ∃ json, actual.toJson = some json ∧ json.SameValue value := by
  constructor
  · intro h
    cases actual <;> cases value <;> simp only [strictlyEquals, decide_eq_true_eq, Bool.false_eq_true] at h
    · exact ⟨_, rfl, .null⟩
    · exact ⟨_, rfl, h ▸ .bool _⟩
    · exact ⟨_, rfl, h ▸ .num _⟩
    · exact ⟨_, rfl, h ▸ .str _⟩
  · rintro ⟨json, hjson, hsame⟩
    cases hsame with
    | arr xs ys => exact absurd rfl (hscalar ys)
    | obj as bs => exact absurd rfl (hscalar' bs)
    | null | bool | num | str => cases actual <;> simp_all [JsValue.toJson, strictlyEquals]

/-- The comparison `==` of a literal that is no array and no object. -/
theorem any_strictlyEquals_iff (hscalar : ¬ IsContainer text) :
    text.toJson?.any (strictlyEquals (getPath (.obj state) (some (String.ofList path)))) = true ↔
      EqualsLiteral state path text := by
  have hvalue : ∀ value, text.toJson? = some value → (∀ items, value ≠ .arr items) ∧
      ∀ members, value ≠ .obj members := by
    intro value hvalue
    cases text <;> simp_all [JsonText.toJson?, IsContainer]
    all_goals grind
  rw [Option.any_eq_true, EqualsLiteral]
  constructor
  · rintro ⟨value, hsome, hequals⟩
    obtain ⟨harr, hobj⟩ := hvalue value hsome
    obtain ⟨json, hjson, hsame⟩ := (strictlyEquals_iff harr hobj).mp hequals
    exact ⟨value, json, hsome, hjson, hsame⟩
  · rintro ⟨value, json, hsome, hjson, hsame⟩
    obtain ⟨harr, hobj⟩ := hvalue value hsome
    exact ⟨value, hsome, (strictlyEquals_iff harr hobj).mpr ⟨json, hjson, hsame⟩⟩

/-- An array or an object is `===` to nothing that was there before. -/
theorem any_strictlyEquals_container (h : IsContainer text) (actual : JsValue) :
    text.toJson?.any (strictlyEquals actual) = false := by
  cases text with
  | null | bool | num | str => exact h.elim
  | arr items =>
    cases hitems : JsonText.itemsJson? items with
    | none => simp [JsonText.toJson?, hitems]
    | some values => cases actual <;> simp [JsonText.toJson?, hitems, strictlyEquals]
  | obj members =>
    cases hmembers : JsonText.membersJson? members with
    | none => simp [JsonText.toJson?, hmembers]
    | some values => cases actual <;> simp [JsonText.toJson?, hmembers, strictlyEquals]

/-- **A comparison says whether the value at the path is that of the literal** exactly when the literal is
no array and no object, or another value is at the path. -/
theorem comparison_correct_iff (hpath : IsPath path) (hbefore : ∀ c ∈ before, isSpace c = true)
    (hafter : ∀ c ∈ after, isSpace c = true) (h : JsonText.parse literal = some text)
    (hbreaks : ∀ c ∈ literal, isLineBreak c = false) :
    ((evaluateCondition (some (String.ofList (comparison path before true after literal))) state = true ↔
          EqualsLiteral state path text) ∧
        evaluateCondition (some (String.ofList (comparison path before false after literal))) state =
          !evaluateCondition (some (String.ofList (comparison path before true after literal))) state) ↔
      ¬ (IsContainer text ∧ EqualsLiteral state path text) := by
  rw [evaluateCondition_comparison hpath hbefore hafter h hbreaks,
    evaluateCondition_comparison hpath hbefore hafter h hbreaks]
  by_cases hcontainer : IsContainer text
  · rw [any_strictlyEquals_container hcontainer]
    simp [hcontainer]
  · simp only [hcontainer, false_and, not_false_iff, iff_true]
    constructor
    · rw [beq_true]
      exact any_strictlyEquals_iff hcontainer
    · rw [beq_true, beq_false]

/-- `risk == "high"`, of a risk that is high. -/
theorem comparison_correct_iff_sample :
    let state : List (String × JsValue) := [("risk", .str "high")]
    let condition (equal : Bool) : Option String :=
      some (String.ofList (comparison "risk".toList [' '] equal [' '] "\"high\"".toList))
    ((evaluateCondition (condition true) state = true ↔ EqualsLiteral state "risk".toList (.str "high")) ∧
        evaluateCondition (condition false) state = !evaluateCondition (condition true) state) ↔
      ¬ (IsContainer (.str "high") ∧ EqualsLiteral state "risk".toList (.str "high")) := by
  have hbreaks : ("\"high\"".toList.all fun c => !isLineBreak c) = true := by decide
  exact comparison_correct_iff ⟨by decide, List.all_eq_true.mp (by decide)⟩ (List.all_eq_true.mp (by decide))
    (List.all_eq_true.mp (by decide)) rfl fun c hc => by simpa using List.all_eq_true.mp hbreaks c hc

/-- `risks == []`, of risks that are empty. -/
theorem comparison_fails : JsonText.parse "[]".toList = some (.arr []) ∧
    EqualsLiteral [("risks", .arr [])] "risks".toList (.arr []) ∧
    evaluateCondition (some "risks == []") [("risks", .arr [])] = false :=
  ⟨rfl, ⟨.arr [], .arr [], rfl, rfl, canonicalize_eq_iff.mp rfl⟩, by decide +kernel⟩

end

end RuntimeCore

end HarnessFramework
