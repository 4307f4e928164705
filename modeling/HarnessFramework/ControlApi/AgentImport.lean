import HarnessFramework.Contracts.Canonical
import HarnessFramework.Contracts.Schemas
import HarnessFramework.ControlApi.AuthoringAgents
import HarnessFramework.Library.JsonParse
import HarnessFramework.Library.Table
import HarnessFramework.Persistence.RunTable
import Mathlib.Data.List.Sort

/-!
# Importing agents and skills

`buildAgentBundleFromFiles` of `apps/control-api/src/agent-import.ts` makes an agent and its skills of the
files of a repository, and the route that imports them registers them under their ids. The id of a skill
is made of the owner and the name of the repository and of the name of the skill, each of them lowered,
with other characters than `[a-z0-9._-]` replaced, and cut.

The YAML library is a parameter.

## Main definitions

* `slug`, `skillId` — ids
* `buildAgentBundleFromFiles` — the agent and the skills of a repository
* `registerAuthoringSkill` — the statement, on the registry
* `KeepIdentity` — skills of different files have different ids, and none overwrites another
* `Clash` — what ids do not tell apart

## Main results

* `id_eq_iff` — exactly which ids are the same
* `registeredSkill_registerAll` — what is registered under different ids is found again
* `keepIdentity_iff` — exactly when imported skills keep their identity
-/

namespace HarnessFramework

namespace ControlApi

open Checks Persistence

/-! ## Texts -/

/-- `text.toLowerCase()`, as far as it yields letters without accents. -/
def lower (cs : List Char) : List Char := cs.flatMap lowerChar

/-- `text.replace(/[^a-z0-9._-]+/g, "-")`, after a character that was replaced or not. -/
def dashedId : Bool → List Char → List Char
  | _, [] => []
  | replaced, c :: cs =>
    if Schema.idCharacter c then c :: dashedId false cs
    else if replaced then dashedId true cs
    else '-' :: dashedId true cs

/-- `slug`. -/
def slug (value : List Char) : List Char :=
  let trimmed := ((dashedId false (lower value)).dropWhile (· = '-')).rdropWhile (· = '-')
  if trimmed.take 90 = [] then "imported".toList else trimmed.take 90

/-- The texts before and after the first occurrence of a marker. -/
def splitFirst (marker : List Char) : List Char → Option (List Char × List Char)
  | [] => none
  | c :: cs =>
    if marker <+: c :: cs then some ([], (c :: cs).drop marker.length)
    else (splitFirst marker cs).map fun parts => (c :: parts.1, parts.2)

/-- A letter without an accent in lower case, as a regular expression with the flag `i` reads it. -/
def fold (c : Char) : Char := if 'A' ≤ c ∧ c ≤ 'Z' then Char.ofNat (c.toNat + 32) else c

/-- A pattern holds at the start of a text or after a `/`. -/
def atSegment (matches? : List Char → Bool) : Bool → List Char → Bool
  | start, [] => start && matches? []
  | start, c :: cs => start && matches? (c :: cs) || atSegment matches? (c = '/') cs

/-- `/(^|\/)skills\/.*\.md$/i.test(path)` -/
def underSkills (path : List Char) : Bool :=
  atSegment (fun cs => "skills/".toList <+: cs && ".md".toList <:+ cs.drop 7 &&
    !((cs.drop 7).rdrop 3).any RuntimeCore.isLineBreak) true (path.map fold)

/-- `/(^|\/)(agent|assistant|manifest)\.(ya?ml|json)$/.test(path)` -/
def isManifest (path : List Char) : Bool :=
  atSegment (fun cs => ["agent", "assistant", "manifest"].any fun name =>
    [".yaml", ".yml", ".json"].any fun extension => cs = (name ++ extension).toList) true path

/-- `/(system[_-]?prompt|agents\.md|claude\.md)/.test(path)` -/
def isPrompt (path : List Char) : Bool :=
  ["system_prompt", "system-prompt", "systemprompt", "agents.md", "claude.md"].any fun name =>
    name.toList <:+: path

/-- `/(^|\/)(skills|agents|prompts)\//.test(path) && /\.(md|ya?ml|json)$/.test(path)` -/
def isSupporting (path : List Char) : Bool :=
  atSegment (fun cs => ["skills/", "agents/", "prompts/"].any fun name => name.toList <+: cs) true path &&
    [".md", ".yaml", ".yml", ".json"].any fun extension => extension.toList <:+ path

/-- `candidateScore`. -/
def candidateScore (path : List Char) : ℕ :=
  let lowered := lower path
  if "skill.md".toList <:+ lowered then 100
  else if isManifest lowered then 98
  else if isPrompt lowered then 92
  else if isSupporting lowered then 80
  else 0

/-! ## Repositories -/

structure RepoRef where
  owner : String
  repo : String
deriving DecidableEq

structure RepoFile where
  path : String
  content : String
deriving DecidableEq

/-- `authoringSourceSchema`. -/
structure AuthoringSource where
  type : String
  url : Option String
  path : Option String
  revision : Option String
deriving DecidableEq

/-- `skillRegistrationSchema`. -/
structure ImportedSkill extends SkillRegistration where
  source : AuthoringSource
  status : String

/-- `agentRegistrationSchema`. -/
structure ImportedAgent extends AgentRegistration where
  source : AuthoringSource
  status : String

/-- Why a repository is not imported. -/
inductive ImportError
  /-- What the YAML library throws. -/
  | yaml (message : String)
  /-- The members that a schema does not accept. -/
  | invalid (members : List String)
deriving DecidableEq

/-- The members that fail their checks. -/
def failing (checks : List (String × Bool)) : List String :=
  (checks.filter fun check => !check.2).map Prod.fst

/-- The first of some members that is neither missing nor `null`. -/
def given (members : List (String × Json)) : List String → Option Json
  | [] => none
  | key :: keys =>
    match Members.lookup key members with
    | none | some .null => given members keys
    | some value => some value

/-- `String(value ?? default)`. -/
def stringOf (default : List Char) (value : Option Json) : String :=
  String.ofList ((value.map Json.toJsString).getD default)

/-- The segments of a path. -/
def segments (path : String) : List (List Char) := path.toList.splitOn '/'

/-- The directory of a file, or its name without its extension when it is in none. -/
def pathName (path : String) : List Char :=
  match (segments path).reverse with
  | _ :: directory :: _ => directory
  | [file] => if ".md".toList <:+ file.map fold then file.rdrop 3 else file
  | [] => "Imported skill".toList

structure Frontmatter where
  attributes : List (String × Json)
  body : List Char

section

variable (parseYaml : String → Except String Json)

/-- `splitFrontmatter`. -/
def splitFrontmatter (content : String) : Except ImportError Frontmatter :=
  if "---\n".toList <+: content.toList then
    match splitFirst "\n---".toList (content.toList.drop 4) with
    | none => .ok ⟨[], trim content.toList⟩
    | some (header, rest) => do
      let parsed ← (parseYaml (String.ofList header)).mapError .yaml
      pure ⟨membersOf (some parsed), trim rest⟩
  else .ok ⟨[], trim content.toList⟩

/-- The name of a skill. -/
def skillName (attributes : List (String × Json)) (path : String) : String :=
  stringOf (pathName path) (given attributes ["name"])

/-- The id of a skill. -/
def skillId (repo : RepoRef) (name : String) : String := String.ofList <|
  "skill.".toList ++ slug repo.owner.toList ++ '.' :: (slug repo.repo.toList ++ '.' ::
    (slug name.toList ++ ".v1".toList))

def RepoRef.url (repo : RepoRef) : String := "https://github.com/" ++ repo.owner ++ "/" ++ repo.repo

/-- The description of a skill that has none: its first line that is neither blank nor a heading. -/
def bodyLine (body : List Char) : Option (List Char) :=
  (body.splitOn '\n').find? fun line => trim line ≠ [] ∧ line.head? ≠ some '#'

/-- The skill of a file. -/
def importSkill (repo : RepoRef) (revision : String) (file : RepoFile) :
    Except ImportError ImportedSkill := do
  let ⟨attributes, body⟩ ← splitFrontmatter parseYaml file.content
  let name := skillName attributes file.path
  let description := stringOf ((bodyLine body).getD ("Imported from ".toList ++ file.path.toList))
    (given attributes ["description"])
  let skill : ImportedSkill :=
    { id := skillId repo name
      name
      description
      instructions := if body = [] then description else String.ofList body
      allowedCapabilityIds := (itemsOf (given attributes ["allowedCapabilityIds", "capabilities"])).filterMap
        fun item => textOf (some item)
      version := stringOf "0.1.0".toList (given attributes ["version"])
      source := ⟨"github", some repo.url, some file.path, some revision⟩
      status := "active" }
  let invalid := failing [("name", skill.name ≠ ""), ("description", skill.description ≠ ""),
    ("instructions", skill.instructions ≠ ""), ("allowedCapabilityIds", "" ∉ skill.allowedCapabilityIds),
    ("source", file.path ≠ "" && revision ≠ ""), ("version", skill.version ≠ "")]
  ensure (invalid = []) (.invalid invalid)
  pure skill

/-- `parseManifest`. -/
def parseManifest : Option RepoFile → List (String × Json)
  | none => []
  | some file => membersOf <|
    if ".json".toList <:+ file.path.toList then (JsonText.parse file.content.toList).bind JsonText.toJson?
    else (parseYaml file.content).toOption

/-- The files that skills are made of. -/
def skillFiles (files : List RepoFile) : List RepoFile := files.filter fun file =>
  "skill.md".toList <:+ lower file.path.toList || underSkills file.path.toList

/-- An object, or the schema of any object. -/
def schemaOf : Option Json → List (String × Json)
  | some (.obj members) => members
  | _ => [("type", .str "object")]

/-- The agent of a repository, with its skills. -/
def importAgent (repo : RepoRef) (revision : String) (files : List RepoFile) (skillIds : List String) :
    Except ImportError ImportedAgent :=
  let sorted := files.insertionSort fun a b => candidateScore b.path.toList ≤ candidateScore a.path.toList
  let manifestFile := sorted.find? fun file => isManifest (file.path.toList.map fold)
  let manifest := parseManifest parseYaml manifestFile
  let promptFile := files.find? fun file => isPrompt (file.path.toList.map fold)
  let prompt := trim (stringOf (match promptFile with
    | some file => file.content.toList
    | none => ("Act as the " ++ repo.repo ++ " domain agent.").toList)
    (given manifest ["prompt", "instructions", "system_prompt"])).toList
  let rawModelProfile := stringOf "model.standard.v1".toList
    (given manifest ["modelProfileId", "model_profile_id"])
  let runtimeValue := stringOf "local_http".toList
    (given manifest ["runtimeTarget", "runtime_target", "runtime"])
  let name := stringOf (spaced false repo.repo.toList) (given manifest ["name"])
  let primaryCapabilityId := textOf (given manifest ["primaryCapabilityId", "capabilityId", "capability_id"])
  let caseWritesValue := (given manifest ["caseWrites", "case_writes"]).or
    ((object? ((given manifest ["config"]).getD .null)).bind fun config => Members.lookup "caseWrites" config)
  let id := stringOf ("agent.".toList ++ slug repo.owner.toList ++ '.' :: slug repo.repo.toList ++
    ".v1".toList) (given manifest ["id"])
  let description := stringOf ("Imported from " ++ repo.owner ++ "/" ++ repo.repo).toList
    (given manifest ["description"])
  let role := stringOf (name ++ " agent").toList (given manifest ["role", "persona", "description"])
  let version := stringOf "0.1.0".toList (given manifest ["version"])
  let caseWrites := (itemsOf caseWritesValue).map caseWriteContractSchema.parse
  let invalid := failing [("id", (Schema.idText.parse (.str id)).isSome), ("name", name ≠ ""),
    ("description", description ≠ ""), ("role", role ≠ ""), ("prompt", prompt ≠ []),
    ("skillIds", "" ∉ skillIds), ("caseWrites", caseWrites.all Option.isSome),
    ("primaryCapabilityId", primaryCapabilityId ≠ some ""), ("source", revision ≠ ""),
    ("version", version ≠ "")]
  if hid : id ≠ "" ∧ invalid = [] then .ok
    { id
      name
      description
      role
      prompt := String.ofList prompt
      modelProfileId :=
        if "model.".toList <+: rawModelProfile.toList then rawModelProfile else "model.standard.v1"
      runtimeTarget := if runtimeValue = "azure_foundry" then "azure_foundry" else "local_http"
      skillIds
      caseWrites := caseWrites.filterMap fun write => write
      primaryCapabilityId
      inputSchema := schemaOf (given manifest ["inputSchema", "input_schema"])
      outputSchema := schemaOf (given manifest ["outputSchema", "output_schema"])
      version
      id_ne := hid.1
      source := ⟨"github", some repo.url, manifestFile.map (·.path), some revision⟩
      status := "active" }
  else .error (.invalid invalid)
where
  /-- `text.replace(/[-_]+/g, " ")`, after a character that was replaced or not. -/
  spaced : Bool → List Char → List Char
    | _, [] => []
    | replaced, c :: cs =>
      if c ≠ '-' ∧ c ≠ '_' then c :: spaced false cs
      else if replaced then spaced true cs
      else ' ' :: spaced true cs

structure Bundle where
  agent : ImportedAgent
  skills : List ImportedSkill

/-- `buildAgentBundleFromFiles`. -/
def buildAgentBundleFromFiles (repo : RepoRef) (revision : String) (files : List RepoFile) :
    Except ImportError Bundle := do
  let skills ← (skillFiles files).mapM (importSkill parseYaml repo revision)
  let agent ← importAgent parseYaml repo revision files (skills.map (·.id))
  pure ⟨agent, skills⟩

end

/-! ## The registry -/

/-- A row of `skill_registry`. -/
structure SkillRegistryRow where
  skillId : String
  definition : ImportedSkill
  definitionDigest : String
  status : String
  sourceType : String
  sourceUrl : Option String
  createdAt : Time
  updatedAt : Time

/-- The source of a skill. -/
def AuthoringSource.toJson (source : AuthoringSource) : Json := .obj <|
  ("type", .str source.type) :: (source.url.map fun url => ("url", Json.str url)).toList ++
    (source.path.map fun path => ("path", Json.str path)).toList ++
    (source.revision.map fun revision => ("revision", Json.str revision)).toList

def ImportedSkill.toJson (skill : ImportedSkill) : Json := .obj
  [("id", .str skill.id), ("name", .str skill.name), ("description", .str skill.description),
    ("instructions", .str skill.instructions),
    ("allowedCapabilityIds", texts skill.allowedCapabilityIds), ("source", skill.source.toJson),
    ("version", .str skill.version), ("status", .str skill.status)]

section

variable (sha256 : List Char → String)

/-- The columns of a skill. -/
def SkillRegistryRow.define (skill : ImportedSkill) (now : Time) (r : SkillRegistryRow) :
    SkillRegistryRow :=
  { r with
    definition := skill
    definitionDigest := stableDigest sha256 skill.toJson
    status := skill.status
    sourceType := skill.source.type
    sourceUrl := skill.source.url
    updatedAt := now }

/-- `registerAuthoringSkill`: whether the skill is new, and the table. -/
def registerAuthoringSkill (now : Time) (skill : ImportedSkill) (rows : List SkillRegistryRow) :
    Bool × List SkillRegistryRow :=
  if ∃ r ∈ rows, r.skillId = skill.id then
    (false, updateWhere (fun r => r.skillId = skill.id) (SkillRegistryRow.define sha256 skill now) rows)
  else (true, rows ++ [SkillRegistryRow.define sha256 skill now
    ⟨skill.id, skill, "", skill.status, "", none, now, now⟩])

/-- Register skills, at some times and in some order. -/
def registerAll (order : List (Time × ImportedSkill)) (rows : List SkillRegistryRow) :
    List SkillRegistryRow :=
  order.foldl (fun rows s => (registerAuthoringSkill sha256 s.1 s.2 rows).2) rows

end

/-- The skill that is registered under an id. -/
def registeredSkill (id : String) (rows : List SkillRegistryRow) : Option ImportedSkill :=
  (rows.find? fun r => r.skillId = id).map (·.definition)

section

variable {sha256 : List Char → String}

theorem registeredSkill_register (now : Time) (skill : ImportedSkill) (rows : List SkillRegistryRow)
    (id : String) : registeredSkill id (registerAuthoringSkill sha256 now skill rows).2 =
      if skill.id = id then some skill else registeredSkill id rows := by
  rw [registerAuthoringSkill, registeredSkill, registeredSkill]
  by_cases hrow : ∃ r ∈ rows, r.skillId = skill.id
  · have hset : ∀ r : SkillRegistryRow, (r.define sha256 skill now).skillId = r.skillId := fun _ => rfl
    rw [if_pos hrow]
    dsimp only
    rw [find?_updateWhere_key hset, Option.map_map]
    by_cases hid : skill.id = id
    · obtain ⟨r, hr⟩ : ∃ r, rows.find? (fun r => r.skillId = id) = some r := by
        rw [← Option.isSome_iff_exists, List.find?_isSome]
        simpa [← hid] using hrow
      simp [hr, hid, SkillRegistryRow.define]
    · simp only [hid, if_false, Ne.symm hid]
      rfl
  · rw [if_neg hrow, List.find?_append]
    by_cases hid : skill.id = id
    · have hnone : rows.find? (fun r => r.skillId = id) = none := by
        rw [List.find?_eq_none]
        exact fun r hr hid' => hrow ⟨r, hr, (of_decide_eq_true hid').trans hid.symm⟩
      simp [hnone, hid, SkillRegistryRow.define]
    · simp [hid, SkillRegistryRow.define]

theorem registeredSkill_registerAll_of_notMem {id : String} {order : List (Time × ImportedSkill)}
    (h : ∀ s ∈ order, s.2.id ≠ id) (rows : List SkillRegistryRow) :
    registeredSkill id (registerAll sha256 order rows) = registeredSkill id rows := by
  induction order generalizing rows with
  | nil => rfl
  | cons s order ih =>
    rw [registerAll, List.foldl_cons]
    refine (ih (fun s' hs => h s' (List.mem_cons_of_mem _ hs)) _).trans ?_
    rw [registeredSkill_register, if_neg (h s (List.mem_cons_self ..))]

/-- **What is registered under different ids is found again**, whatever the order is. -/
theorem registeredSkill_registerAll {order : List (Time × ImportedSkill)}
    (hids : (order.map fun s => s.2.id).Nodup) (rows : List SkillRegistryRow) (s : Time × ImportedSkill)
    (hs : s ∈ order) : registeredSkill s.2.id (registerAll sha256 order rows) = some s.2 := by
  induction order generalizing rows with
  | nil => cases hs
  | cons s' order ih =>
    rw [List.map_cons, List.nodup_cons] at hids
    rw [registerAll, List.foldl_cons]
    rcases List.mem_cons.mp hs with rfl | hs
    · have hothers : ∀ s' ∈ order, s'.2.id ≠ s.2.id := by
        rintro s' hs' hid
        exact hids.1 (List.mem_map.mpr ⟨s', hs', hid⟩)
      refine (registeredSkill_registerAll_of_notMem hothers _).trans ?_
      rw [registeredSkill_register, if_pos rfl]
    · exact ih hids.2 _ hs

end

/-! ## Which ids are the same -/

/-- Two texts with a dot are the same, cut at a dot each. -/
def SameCut (a b c d : List Char) : Prop :=
  a = c ∧ b = d ∨ (∃ t, a = c ++ '.' :: t ∧ d = t ++ '.' :: b) ∨ ∃ t, c = a ++ '.' :: t ∧ b = t ++ '.' :: d

theorem dotted_eq_iff {a b c d : List Char} : a ++ '.' :: b = c ++ '.' :: d ↔ SameCut a b c d := by
  rw [List.append_eq_append_iff, SameCut]
  constructor
  · rintro (⟨t, rfl, h⟩ | ⟨t, rfl, h⟩)
    · cases t with
      | nil => exact .inl ⟨by simp, by simpa using h⟩
      | cons x t =>
        obtain ⟨rfl, rfl⟩ := List.cons.inj h
        exact .inr (.inr ⟨t, rfl, rfl⟩)
    · cases t with
      | nil => exact .inl ⟨by simp, by simpa using h.symm⟩
      | cons x t =>
        obtain ⟨rfl, rfl⟩ := List.cons.inj h
        exact .inr (.inl ⟨t, rfl, rfl⟩)
  · rintro (⟨rfl, rfl⟩ | ⟨t, rfl, rfl⟩ | ⟨t, rfl, rfl⟩)
    · exact .inl ⟨[], by simp, rfl⟩
    · exact .inr ⟨'.' :: t, rfl, rfl⟩
    · exact .inl ⟨'.' :: t, rfl, rfl⟩

/-- What the id of a skill is made of. -/
structure SkillSlugs where
  owner : List Char
  repo : List Char
  name : List Char

/-- The slugs in one text, each after a dot. -/
def SkillSlugs.dotted (s : SkillSlugs) : List Char := s.owner ++ '.' :: (s.repo ++ '.' :: s.name)

/-- Two skills are not told apart: their slugs are the same one by one, or one text cut at other dots. -/
def Clash (s t : SkillSlugs) : Prop :=
  s.owner = t.owner ∧ SameCut s.repo s.name t.repo t.name ∨
    (∃ cs, s.owner = t.owner ++ '.' :: cs ∧ SameCut t.repo t.name cs (s.repo ++ '.' :: s.name)) ∨
    ∃ cs, t.owner = s.owner ++ '.' :: cs ∧ SameCut s.repo s.name cs (t.repo ++ '.' :: t.name)

theorem dotted_eq_iff_clash {s t : SkillSlugs} : s.dotted = t.dotted ↔ Clash s t := by
  rw [SkillSlugs.dotted, SkillSlugs.dotted, dotted_eq_iff, Clash, SameCut]
  simp only [dotted_eq_iff]

/-- The slugs of a skill. -/
def skillSlugs (repo : RepoRef) (name : String) : SkillSlugs :=
  ⟨slug repo.owner.toList, slug repo.repo.toList, slug name.toList⟩

/-- The id of a skill, from its slugs. -/
def SkillSlugs.id (s : SkillSlugs) : String :=
  String.ofList ("skill.".toList ++ (s.dotted ++ ".v1".toList))

theorem skillId_eq (repo : RepoRef) (name : String) : skillId repo name = (skillSlugs repo name).id := by
  unfold skillId SkillSlugs.id SkillSlugs.dotted skillSlugs
  generalize "skill.".toList = before
  generalize ".v1".toList = after
  simp only [List.append_assoc, List.cons_append]

theorem framed_eq_iff {before after as bs : List Char} :
    String.ofList (before ++ (as ++ after)) = String.ofList (before ++ (bs ++ after)) ↔ as = bs := by
  rw [String.ofList_inj, List.append_right_inj, List.append_left_inj]

/-- **Exactly which ids are the same.** -/
theorem id_eq_iff {s t : SkillSlugs} : s.id = t.id ↔ Clash s t :=
  framed_eq_iff.trans dotted_eq_iff_clash

/-! ## Imports -/

/-- A repository at a revision, with its files. -/
structure RepoImport where
  repo : RepoRef
  revision : String
  files : List RepoFile

section

variable (parseYaml : String → Except String Json) (sha256 : List Char → String)

/-- The agent and the skills of an import. -/
def RepoImport.bundle (i : RepoImport) : Except ImportError Bundle :=
  buildAgentBundleFromFiles parseYaml i.repo i.revision i.files

/-- The name of the skill of a file. -/
def fileName (file : RepoFile) : String :=
  match splitFrontmatter parseYaml file.content with
  | .ok frontmatter => skillName frontmatter.attributes file.path
  | .error _ => ""

/-- The slugs of the skills of an import, file by file. -/
def RepoImport.slugs (i : RepoImport) : List SkillSlugs :=
  (skillFiles i.files).map fun file => skillSlugs i.repo (fileName parseYaml file)

/-- **Imported skills keep their identity**: skills of different files have different ids; when all are
registered, at whatever times and in whatever order, each is there under its id; and an agent names the
skills of its own bundle. -/
structure KeepIdentity (bundles : List Bundle) : Prop where
  ids : ((bundles.flatMap (·.skills)).map (·.id)).Nodup
  registered : ∀ rows order, (order.map Prod.snd).Perm (bundles.flatMap (·.skills)) →
    ∀ b ∈ bundles, ∀ skill ∈ b.skills, registeredSkill skill.id (registerAll sha256 order rows) = some skill
  skillIds : ∀ b ∈ bundles, b.agent.skillIds = b.skills.map (·.id)

end

section

variable {parseYaml : String → Except String Json} {sha256 : List Char → String}

/-- The id of the skill of a file. -/
theorem importSkill_id {repo : RepoRef} {revision : String} {file : RepoFile} {skill : ImportedSkill}
    (h : importSkill parseYaml repo revision file = .ok skill) :
    skill.id = (skillSlugs repo (fileName parseYaml file)).id := by
  rw [importSkill, bind_eq_ok] at h
  obtain ⟨frontmatter, hfrontmatter, h⟩ := h
  obtain ⟨-, rfl⟩ := (ensure_bind_eq_ok.mp h).imp id pure_eq_ok.mp
  rw [fileName, hfrontmatter]
  exact skillId_eq _ _

/-- The agent names the skills of its bundle. -/
theorem importAgent_skillIds {repo : RepoRef} {revision : String} {files : List RepoFile}
    {skillIds : List String} {agent : ImportedAgent}
    (h : importAgent parseYaml repo revision files skillIds = .ok agent) : agent.skillIds = skillIds := by
  unfold importAgent at h
  extract_lets at h
  split at h
  · rw [← Except.ok.inj h]
  · cases h

theorem map_eq_of_forall₂ {α β γ : Type} {f : α → γ} {g : β → γ} {as : List α} {bs : List β}
    (h : List.Forall₂ (fun a b => f a = g b) as bs) : as.map f = bs.map g := by
  induction h with
  | nil => rfl
  | cons hab _ ih => rw [List.map_cons, List.map_cons, hab, ih]

theorem exists_of_forall₂ {α β : Type} {R : α → β → Prop} {as : List α} {bs : List β}
    (h : List.Forall₂ R as bs) {b : β} (hb : b ∈ bs) : ∃ a ∈ as, R a b := by
  induction h with
  | nil => cases hb
  | @cons a b' as bs hab _ ih =>
    rcases List.mem_cons.mp hb with rfl | hb
    · exact ⟨a, List.mem_cons_self .., hab⟩
    · obtain ⟨a', ha', hab'⟩ := ih hb
      exact ⟨a', List.mem_cons_of_mem _ ha', hab'⟩

theorem bundle_eq_ok {i : RepoImport} {b : Bundle} (h : i.bundle parseYaml = .ok b) :
    b.skills.map (·.id) = (i.slugs parseYaml).map SkillSlugs.id ∧
      b.agent.skillIds = b.skills.map (·.id) := by
  rw [RepoImport.bundle, buildAgentBundleFromFiles, bind_eq_ok] at h
  obtain ⟨skills, hskills, h⟩ := h
  rw [bind_eq_ok] at h
  obtain ⟨agent, hagent, h⟩ := h
  obtain rfl := pure_eq_ok.mp h
  refine ⟨?_, importAgent_skillIds hagent⟩
  rw [RepoImport.slugs, List.map_map]
  have hids : List.Forall₂ (fun file skill => (skillSlugs i.repo (fileName parseYaml file)).id = skill.id)
      (skillFiles i.files) skills := (mapM_eq_ok.mp hskills).imp fun _ _ h => (importSkill_id h).symm
  exact (map_eq_of_forall₂ hids).symm

/-- The ids of some imports. -/
theorem ids_eq {imports : List RepoImport} {bundles : List Bundle}
    (h : List.Forall₂ (fun i b => i.bundle parseYaml = .ok b) imports bundles) :
    (bundles.flatMap (·.skills)).map (·.id) =
      (imports.flatMap (RepoImport.slugs parseYaml)).map SkillSlugs.id := by
  induction h with
  | nil => rfl
  | cons hb _ ih =>
    rw [List.flatMap_cons, List.flatMap_cons, List.map_append, List.map_append, ih, (bundle_eq_ok hb).1]

end

namespace Sample

/-- A library that reads nothing. -/
def noYaml (_ : String) : Except String Json := .error "YAMLParseError"

/-- A repository with a file without frontmatter for each path. -/
def importOf (repo : String) (paths : List String) : RepoImport :=
  ⟨⟨"acme", repo⟩, "main", paths.map fun path => ⟨path, "Check the evidence."⟩⟩

/-- Skills in one directory. -/
def flat : RepoImport := importOf "kyc" ["skills/a.md", "skills/b.md"]

/-- Skills in a directory each, of two repositories. -/
def nested : List RepoImport :=
  [importOf "kyc" ["skills/screening/SKILL.md", "skills/review/SKILL.md"],
    importOf "review" ["skills/screening/SKILL.md"]]

theorem bundle_isOk : ∀ i ∈ flat :: nested, (i.bundle noYaml).isOk = true := by decide +kernel

theorem slugs_flat : (flat.slugs noYaml).map SkillSlugs.id =
    ["skill.acme.kyc.skills.v1", "skill.acme.kyc.skills.v1"] := by
  decide +kernel

theorem slugs_nested : ((nested.flatMap (RepoImport.slugs noYaml)).map SkillSlugs.id).Nodup := by
  decide +kernel

theorem exists_bundle {i : RepoImport} (hi : i ∈ flat :: nested) : ∃ b, i.bundle noYaml = .ok b := by
  have hok := bundle_isOk i hi
  revert hok
  cases i.bundle noYaml with
  | ok b => exact fun _ => ⟨b, rfl⟩
  | error e => exact nofun

end Sample

/-- **Exactly when imported skills keep their identity**: no two skill files of the imports clash. -/
theorem keepIdentity_iff {imports : List RepoImport} {bundles : List Bundle}
    (h : List.Forall₂ (fun i b => i.bundle parseYaml = .ok b) imports bundles) :
    KeepIdentity sha256 bundles ↔
      (imports.flatMap (RepoImport.slugs parseYaml)).Pairwise fun s t => ¬ Clash s t := by
  have hids : ((bundles.flatMap (·.skills)).map (·.id)).Nodup ↔
      (imports.flatMap (RepoImport.slugs parseYaml)).Pairwise fun s t => ¬ Clash s t := by
    rw [ids_eq h, List.Nodup, List.pairwise_map]
    simp only [Ne, id_eq_iff]
  rw [← hids]
  refine ⟨KeepIdentity.ids, fun hnodup => ⟨hnodup, fun rows order horder b hb skill hskill => ?_, ?_⟩⟩
  · have hmem : skill ∈ order.map Prod.snd :=
      horder.mem_iff.mpr (List.mem_flatMap.mpr ⟨b, hb, hskill⟩)
    obtain ⟨s, hs, rfl⟩ := List.mem_map.mp hmem
    have hnodup' : (order.map fun s => s.2.id).Nodup := by
      rw [← (horder.map (·.id)).nodup_iff, List.map_map] at hnodup
      exact hnodup
    exact registeredSkill_registerAll hnodup' rows s hs
  · intro b hb
    obtain ⟨i, -, hi⟩ := exists_of_forall₂ h hb
    exact (bundle_eq_ok hi).2

theorem keepIdentity_iff_sample : ∃ bundles : List Bundle, bundles.length = 2 ∧
    List.Forall₂ (fun i b => i.bundle Sample.noYaml = .ok b) Sample.nested bundles ∧
    KeepIdentity (fun _ => "") bundles := by
  obtain ⟨b, hb⟩ := Sample.exists_bundle (i := Sample.nested[0]) (by simp)
  obtain ⟨b', hb'⟩ := Sample.exists_bundle (i := Sample.nested[1]) (by simp)
  have h : List.Forall₂ (fun i b => i.bundle Sample.noYaml = .ok b) Sample.nested [b, b'] :=
    .cons hb (.cons hb' .nil)
  refine ⟨[b, b'], rfl, h, (keepIdentity_iff h).mpr ?_⟩
  have hnodup := Sample.slugs_nested
  rw [List.Nodup, List.pairwise_map] at hnodup
  exact hnodup.imp fun hne hclash => hne (id_eq_iff.mpr hclash)

/-- **Imported skills need not keep their identity**: two files of one directory, in one repository. -/
theorem identity_lost : ∃ b, Sample.flat.bundle Sample.noYaml = .ok b ∧ b.skills.length = 2 ∧
    ¬ KeepIdentity (fun _ => "") [b] := by
  obtain ⟨b, hb⟩ := Sample.exists_bundle (i := Sample.flat) (by simp)
  have hids : ([b].flatMap (·.skills)).map (·.id) =
      ["skill.acme.kyc.skills.v1", "skill.acme.kyc.skills.v1"] := by
    rw [@ids_eq _ [Sample.flat] [b] (.cons hb .nil)]
    exact (congrArg _ (List.append_nil _)).trans Sample.slugs_flat
  refine ⟨b, hb, ?_, fun hkeep => ?_⟩
  · simpa using congrArg List.length hids
  · have hnodup := hkeep.ids
    rw [hids] at hnodup
    exact absurd hnodup (by decide)

end ControlApi

end HarnessFramework
