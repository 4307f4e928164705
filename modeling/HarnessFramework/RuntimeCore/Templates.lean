import HarnessFramework.Library.Placeholders
import HarnessFramework.RuntimeCore.CaseWrites
import HarnessFramework.RuntimeCore.Conditions

/-!
# Templates

`renderTemplate` and `materializeTemplate` of `packages/runtime-core/src/index.ts`. The prompts and the
payloads of case writes are templates: a placeholder names a path, and the value at the path takes its place.
A text that is one placeholder becomes the value itself, and elsewhere a placeholder becomes the value's text.

## Main definitions

* `renderTemplate`, `materializeTemplate`
* `Template`, `Template.print`, `Template.denote` — what a payload says, apart from how it is written
* `templateNames` — the paths that a payload names

## Main results

* `renderTemplate_splits` — the text of a value is put in once, and is not a template in turn
* `materializeTemplate_denotes` — a payload says what to put where, whatever the values are
* `materializeTemplate_congr` — of the values only those at paths that it names go into a payload
* `writeCommand_congr` — so it is with the commands that a node writes
-/

namespace HarnessFramework

namespace RuntimeCore

open Placeholders

/-! ## Rendering -/

/-- `text.trim()`. -/
def trim (cs : List Char) : List Char := (cs.dropWhile isSpace).rdropWhile isSpace

/-- The path that a placeholder names. -/
def namedPath (name : List Char) : String := String.ofList (trim name)

/-- The value at the path that a placeholder names. -/
def namedValue (values : List (String × JsValue)) (name : List Char) : JsValue :=
  getPath (.obj values) (some (namedPath name))

/-- What a value is in a text: `JSON.stringify(value ?? null)`, of texts the text. -/
def templateText : JsValue → List Char
  | .str text => text.toList
  | value => (value.toJson.getD .null).stringify

/-- `renderTemplate`. -/
def renderTemplate (template : String) (values : List (String × JsValue)) : String :=
  String.ofList (replaceAll (fun name => templateText (namedValue values name)) template.toList)

/-! ## Materializing -/

/-- `/^\{\{\s*([^}]+)\s*\}\}$/`: the name, if a text is one placeholder. -/
def exactName? (cs : List Char) : Option (List Char) :=
  (hole? cs).filter fun name => cs.length = name.length + 4

section

variable (values : List (String × JsValue))

mutual

/-- `materializeTemplate`. -/
def materializeTemplate : JsValue → JsValue
  | .str text =>
    match exactName? text.toList with
    | some name => namedValue values name
    | none => .str (renderTemplate text values)
  | .arr items => .arr (materializeItems items)
  | .obj members => .obj (Members.fromEntries (materializeMembers members))
  | value => value

/-- The items of an array. -/
def materializeItems : List JsValue → List JsValue
  | [] => []
  | item :: items => materializeTemplate item :: materializeItems items

/-- The members of an object. -/
def materializeMembers : List (String × JsValue) → List (String × JsValue)
  | [] => []
  | (key, value) :: members => (key, materializeTemplate value) :: materializeMembers members

end

end

/-! ## What a payload says -/

/-- A payload: a text is one placeholder, or pieces. -/
inductive Template where
  | undefined
  | null
  | bool (b : Bool)
  | num (n : JsonNumber)
  | reference (name : List Char)
  | text (tokens : List Token)
  | arr (items : List Template)
  | obj (members : List (String × Template))

namespace Template

mutual

/-- The payload as it is written. -/
def print : Template → JsValue
  | undefined => .undefined
  | null => .null
  | bool b => .bool b
  | num n => .num n
  | reference name => .str (String.ofList (written name))
  | text tokens => .str (String.ofList (printAll tokens))
  | arr items => .arr (printItems items)
  | obj members => .obj (printMembers members)

/-- The items of an array. -/
def printItems : List Template → List JsValue
  | [] => []
  | item :: items => item.print :: printItems items

/-- The members of an object. -/
def printMembers : List (String × Template) → List (String × JsValue)
  | [] => []
  | (key, value) :: members => (key, value.print) :: printMembers members

end

section

variable (values : List (String × JsValue))

mutual

/-- The payload with values put in. -/
def denote : Template → JsValue
  | undefined => .undefined
  | null => .null
  | bool b => .bool b
  | num n => .num n
  | reference name => namedValue values name
  | text tokens =>
    .str (String.ofList (tokens.flatMap (Token.render fun name => templateText (namedValue values name))))
  | arr items => .arr (denoteItems items)
  | obj members => .obj (Members.fromEntries (denoteMembers members))

/-- The items of an array. -/
def denoteItems : List Template → List JsValue
  | [] => []
  | item :: items => item.denote :: denoteItems items

/-- The members of an object. -/
def denoteMembers : List (String × Template) → List (String × JsValue)
  | [] => []
  | (key, value) :: members => (key, value.denote) :: denoteMembers members

end

end

end Template

/-- **The text of a value is put in once, and is not a template in turn.** The pieces of a template do not
depend on the values. -/
theorem renderTemplate_splits (template : String) : ∃ tokens, Splits tokens template.toList ∧
    ∀ values, renderTemplate template values = String.ofList
      (tokens.flatMap (Token.render fun name => templateText (namedValue values name))) := by
  obtain ⟨tokens, htokens⟩ := exists_splits template.toList
  refine ⟨tokens, htokens, fun values => ?_⟩
  rw [renderTemplate, htokens.replaceAll]

/-- A text that is one placeholder. -/
theorem exactName?_eq_some {cs name : List Char} :
    exactName? cs = some name ↔ IsName name ∧ cs = written name := by
  rw [exactName?, Option.filter_eq_some_iff, hole?_eq_some, decide_eq_true_eq]
  constructor
  · rintro ⟨⟨hname, rest, rfl⟩, hlength⟩
    have hrest : rest = [] := by
      rw [List.length_append, written] at hlength
      simp only [List.length_cons, List.length_append, List.length_nil] at hlength
      exact List.length_eq_zero_iff.mp (by omega)
    exact ⟨hname, by rw [hrest, List.append_nil]⟩
  · rintro ⟨hname, rfl⟩
    refine ⟨⟨hname, [], (List.append_nil _).symm⟩, ?_⟩
    rw [written]
    simp only [List.length_cons, List.length_append, List.length_nil]

/-- The template of a text. -/
theorem exists_template_str (text : String) : ∃ t : Template, t.print = .str text ∧
    ∀ values, materializeTemplate values (.str text) = t.denote values := by
  cases hexact : exactName? text.toList with
  | some name =>
    obtain ⟨-, htext⟩ := exactName?_eq_some.mp hexact
    refine ⟨.reference name, ?_, fun values => ?_⟩
    · rw [Template.print, ← htext, String.ofList_toList]
    · rw [materializeTemplate, hexact, Template.denote]
  | none =>
    obtain ⟨tokens, htokens, hrender⟩ := renderTemplate_splits text
    refine ⟨.text tokens, ?_, fun values => ?_⟩
    · rw [Template.print, htokens.printAll, String.ofList_toList]
    · rw [materializeTemplate, hexact, hrender, Template.denote]

mutual

/-- **A payload says what to put where, whatever the values are.** Every value is put in once, at the
placeholders of the payload. -/
theorem materializeTemplate_denotes : ∀ payload : JsValue, ∃ t : Template, t.print = payload ∧
    ∀ values, materializeTemplate values payload = t.denote values
  | .undefined => ⟨.undefined, rfl, fun _ => rfl⟩
  | .null => ⟨.null, rfl, fun _ => rfl⟩
  | .bool b => ⟨.bool b, rfl, fun _ => rfl⟩
  | .num n => ⟨.num n, rfl, fun _ => rfl⟩
  | .str text => exists_template_str text
  | .arr items => by
    obtain ⟨ts, hprint, hdenote⟩ := exists_templates items
    refine ⟨.arr ts, ?_, fun values => ?_⟩
    · rw [Template.print, hprint]
    · rw [materializeTemplate, hdenote, Template.denote]
  | .obj members => by
    obtain ⟨ts, hprint, hdenote⟩ := exists_memberTemplates members
    refine ⟨.obj ts, ?_, fun values => ?_⟩
    · rw [Template.print, hprint]
    · rw [materializeTemplate, hdenote, Template.denote]

theorem exists_templates : ∀ items : List JsValue, ∃ ts, Template.printItems ts = items ∧
    ∀ values, materializeItems values items = Template.denoteItems values ts
  | [] => ⟨[], rfl, fun _ => rfl⟩
  | item :: items => by
    obtain ⟨t, hprint, hdenote⟩ := materializeTemplate_denotes item
    obtain ⟨ts, hprints, hdenotes⟩ := exists_templates items
    refine ⟨t :: ts, ?_, fun values => ?_⟩
    · rw [Template.printItems, hprint, hprints]
    · rw [materializeItems, hdenote, hdenotes, Template.denoteItems]

theorem exists_memberTemplates : ∀ members : List (String × JsValue), ∃ ts,
    Template.printMembers ts = members ∧
      ∀ values, materializeMembers values members = Template.denoteMembers values ts
  | [] => ⟨[], rfl, fun _ => rfl⟩
  | (key, value) :: members => by
    obtain ⟨t, hprint, hdenote⟩ := materializeTemplate_denotes value
    obtain ⟨ts, hprints, hdenotes⟩ := exists_memberTemplates members
    refine ⟨(key, t) :: ts, ?_, fun values => ?_⟩
    · rw [Template.printMembers, hprint, hprints]
    · rw [materializeMembers, hdenote, hdenotes, Template.denoteMembers]

end

/-! ## What goes into a payload -/

/-- The text has a placeholder with the name. -/
def NamedIn (name cs : List Char) : Prop := ∃ tokens, Splits tokens cs ∧ .hole name ∈ tokens

mutual

/-- A text of the payload has a placeholder with the name. -/
def Names (name : List Char) : JsValue → Prop
  | .str text => NamedIn name text.toList
  | .arr items => NamesItem name items
  | .obj members => NamesMember name members
  | _ => False

/-- So has a text of one of the items. -/
def NamesItem (name : List Char) : List JsValue → Prop
  | [] => False
  | item :: items => Names name item ∨ NamesItem name items

/-- So has a text of one of the members. -/
def NamesMember (name : List Char) : List (String × JsValue) → Prop
  | [] => False
  | (_, value) :: members => Names name value ∨ NamesMember name members

end

section

variable {values values' : List (String × JsValue)}

/-- Of the values only those at named paths go into a text. -/
theorem renderTemplate_congr {template : String}
    (h : ∀ name, NamedIn name template.toList → namedValue values name = namedValue values' name) :
    renderTemplate template values = renderTemplate template values' := by
  obtain ⟨tokens, htokens, hrender⟩ := renderTemplate_splits template
  rw [hrender, hrender]
  refine congrArg _ (List.flatMap_congr fun token htoken => ?_)
  cases token with
  | char c => rfl
  | hole name =>
    show templateText (namedValue values name) = templateText (namedValue values' name)
    rw [h name ⟨tokens, htokens, htoken⟩]

theorem materializeTemplate_str_congr {text : String}
    (h : ∀ name, NamedIn name text.toList → namedValue values name = namedValue values' name) :
    materializeTemplate values (.str text) = materializeTemplate values' (.str text) := by
  rw [materializeTemplate, materializeTemplate]
  cases hexact : exactName? text.toList with
  | none => exact congrArg JsValue.str (renderTemplate_congr h)
  | some name =>
    obtain ⟨hname, htext⟩ := exactName?_eq_some.mp hexact
    have hsplits : Splits [.hole name] text.toList := by
      rw [htext, ← List.append_nil (written name)]
      exact .hole name [] [] hname .nil
    exact h name ⟨_, hsplits, List.mem_singleton_self _⟩

mutual

/-- **Of the values only those at paths that it names go into a payload.** -/
theorem materializeTemplate_congr : ∀ payload : JsValue,
    (∀ name, Names name payload → namedValue values name = namedValue values' name) →
      materializeTemplate values payload = materializeTemplate values' payload
  | .undefined, _ | .null, _ | .bool _, _ | .num _, _ => rfl
  | .str _, h => materializeTemplate_str_congr h
  | .arr items, h => congrArg JsValue.arr (materializeItems_congr items h)
  | .obj members, h => congrArg (fun members => JsValue.obj (Members.fromEntries members))
    (materializeMembers_congr members h)

theorem materializeItems_congr : ∀ items : List JsValue,
    (∀ name, NamesItem name items → namedValue values name = namedValue values' name) →
      materializeItems values items = materializeItems values' items
  | [], _ => rfl
  | item :: items, h => by
    rw [materializeItems, materializeItems, materializeTemplate_congr item fun name hn => h name (.inl hn),
      materializeItems_congr items fun name hn => h name (.inr hn)]

theorem materializeMembers_congr : ∀ members : List (String × JsValue),
    (∀ name, NamesMember name members → namedValue values name = namedValue values' name) →
      materializeMembers values members = materializeMembers values' members
  | [], _ => rfl
  | (key, value) :: members, h => by
    rw [materializeMembers, materializeMembers,
      materializeTemplate_congr value fun name hn => h name (.inl hn),
      materializeMembers_congr members fun name hn => h name (.inr hn)]

end

end

/-! ## Commands that a node writes -/

/-- `materializeTemplate`, of a payload and a scope as they are written in JSON. -/
def materializeJson (payload scope : Json) : Option Json :=
  (materializeTemplate (JsValue.ofMembers (membersOf (some scope))) (.ofJson payload)).toJson

/-- The payload of a case write, as the plan has it. -/
def payloadTemplate (write : List (String × Json)) : Json :=
  (CaseStore.nullish (lastMember "payload" write)).getD (.obj [])

section

variable {sha256 : List Char → String} {ctx : RuntimeContext} {node node' : NodeRun} {replies : Replies}
  {permission : PermissionEnvelope} {policySnapshotDigest : String} {scope scope' : Json} {index : ℕ}
  {write : List (String × Json)} {t : CaseStore.CaseTables}

/-- **What a node ran on and returned goes into a command at the paths that the plan names, and nowhere
else**: two runs of a node on one case, that have the same values there, write the same command. -/
theorem writeCommand_congr (hid : node'.nodeId = node.nodeId) (hroot : node'.rootInput = node.rootInput)
    (hnamed : ∀ name, Names name (.ofJson (payloadTemplate write)) →
      namedValue (JsValue.ofMembers (membersOf (some scope))) name =
        namedValue (JsValue.ofMembers (membersOf (some scope'))) name) :
    writeCommand sha256 materializeJson ctx node replies permission policySnapshotDigest scope index write t =
      writeCommand sha256 materializeJson ctx node' replies permission policySnapshotDigest scope' index
        write t := by
  obtain ⟨nodeId, rootInput, nodeInput, output, values⟩ := node
  obtain ⟨nodeId', rootInput', nodeInput', output', values'⟩ := node'
  obtain rfl : nodeId' = nodeId := hid
  obtain rfl : rootInput' = rootInput := hroot
  have hpayload : materializeJson (payloadTemplate write) scope =
      materializeJson (payloadTemplate write) scope' :=
    congrArg JsValue.toJson (materializeTemplate_congr _ hnamed)
  rw [payloadTemplate] at hpayload
  rw [writeCommand, writeCommand, hpayload]
  rfl

end

namespace Sample

/-- A subject of the kind that the node is given. -/
def kindWrite : List (String × Json) :=
  [("commandType", .str "AddSubject"), ("payload", .obj [("subjectType", .str "\x7b\x7b nodeInput.kind \x7d\x7d")])]

/-- A node that returns a text. -/
def returning (output : String) : NodeRun :=
  { node with nodeInput := some (.obj [("kind", .str "individual")]), output := some (.str output) }

/-- The payload names one path. -/
theorem eq_of_names {name : List Char} (h : Names name (.ofJson (payloadTemplate kindWrite))) :
    name = " nodeInput.kind ".toList := by
  have hsplits : Splits [.hole " nodeInput.kind ".toList] "\x7b\x7b nodeInput.kind \x7d\x7d".toList :=
    .hole _ [] [] (by decide) .nil
  have hpayload : JsValue.ofJson (payloadTemplate kindWrite) =
      .obj [("subjectType", .str "\x7b\x7b nodeInput.kind \x7d\x7d")] := rfl
  rw [hpayload, Names, NamesMember, NamesMember, Names] at h
  rcases h with ⟨tokens, htokens, hmem⟩ | h
  · rw [htokens.unique hsplits, List.mem_singleton] at hmem
    exact Token.hole.inj hmem
  · exact h.elim

end Sample

open Sample in
set_option maxRecDepth 10000 in
/-- What the node returns is not named, and the kind is. -/
theorem writeCommand_congr_sample :
    writeCommand CaseStore.Sample.actorDigest materializeJson ctx (returning "a") (replies "1")
        ⟨"node", [], [], ctx.plan.planDigest⟩ ctx.plan.planDigest (caseWriteScope ctx (returning "a") none) 0
        kindWrite created =
      writeCommand CaseStore.Sample.actorDigest materializeJson ctx (returning "b") (replies "1")
        ⟨"node", [], [], ctx.plan.planDigest⟩ ctx.plan.planDigest (caseWriteScope ctx (returning "b") none) 0
        kindWrite created ∧
    (writeCommand CaseStore.Sample.actorDigest materializeJson ctx (returning "b") (replies "1")
        ⟨"node", [], [], ctx.plan.planDigest⟩ ctx.plan.planDigest (caseWriteScope ctx (returning "b") none) 0
        kindWrite created).map (fun command =>
          command.payload.map fun member => (member.1, jsString member.2)) =
      .ok [("subjectType", "individual")] := by
  refine ⟨writeCommand_congr rfl rfl fun name hname => ?_, by decide +kernel⟩
  rw [eq_of_names hname]
  rfl

end RuntimeCore

end HarnessFramework
