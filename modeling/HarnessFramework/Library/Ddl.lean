import HarnessFramework.Library.Checks
import HarnessFramework.Library.Json
import Mathlib.Data.List.Nodup
import Mathlib.Data.List.Sort
import Mathlib.Data.String.Basic

/-!
# Scripts that define tables

A script is a list of statements that create and alter tables, in one transaction. What a statement does
to the catalog, and what it asks of the rows, follows from the catalog alone: `Statement.step`. Then come
the effects on the rows, in order. A constraint that refers to another table depends on a key of that
table, which cannot be dropped as long as it does.

## Main definitions

* `Catalog`, `Database` — tables with their constraints, and the rows in them
* `Statement`, `Statement.exec` — statements
* `runFile`, `migrate` — scripts, and a list of them, each in a transaction
* `steps` — what a script does to the catalog and asks of the rows
* `Consistent`, `Database.Writes` — the rows satisfy the constraints, and writes that keep them so

## Main results

* `runFile_of_steps`, `runFile_of_inert`, `runFile_error` — scripts by their effects
* `migrate_empty` — scripts on tables without rows
* `Consistent.satisfies` — a constraint that is there already is satisfied
-/

namespace HarnessFramework

namespace Ddl

open Checks

/-! ## Rows -/

/-- A table of a schema. -/
structure TableName where
  schema : String
  name : String
deriving DecidableEq

inductive Value
  | null
  | text (s : String)
  | number (x : ℚ)
  | boolean (b : Bool)
  | time (t : ℚ)
  | json (value : Json)
deriving DecidableEq

/-- The values of a row, by their columns. -/
abbrev Row : Type := String → Value

/-- The rows of the tables. -/
abbrev Rows : Type := TableName → List Row

/-- The values of a row in some columns. -/
def Row.key (row : Row) (columns : List String) : List Value := columns.map row

/-! ## Catalogs -/

inductive ColumnType
  | text
  | char (length : ℕ)
  | integer
  | bigint
  | smallint
  | numeric (digits scale : ℕ)
  | boolean
  | timestamptz
  | jsonb
deriving DecidableEq

inductive Default
  | value (v : Value)
  | now
deriving DecidableEq

structure Column where
  name : String
  type : ColumnType
  notNull : Bool
  default : Option Default
deriving DecidableEq

/-- A check of one column. -/
inductive Check
  /-- So many characters, all of them of an alphabet. -/
  | charsIn (column : String) (alphabet : List Char) (length : ℕ)
  | oneOf (column : String) (texts : List String)
deriving DecidableEq

def Check.column : Check → String
  | charsIn column _ _ | oneOf column _ => column

/-- The check is not known to fail. -/
def Check.Holds : Check → Row → Prop
  | charsIn column alphabet length, row => ∀ s, row column = .text s →
      s.toList.length = length ∧ ∀ c ∈ s.toList, c ∈ alphabet
  | oneOf column texts, row => ∀ s, row column = .text s → s ∈ texts

instance (check : Check) (row : Row) : Decidable (check.Holds row) :=
  match check with
  | .charsIn column _ _ | .oneOf column _ =>
    match h : row column with
    | .text s =>
      have (alphabet : List Char) : Decidable (∀ c ∈ s.toList, c ∈ alphabet) := List.decidableBAll _ _
      decidable_of_iff _
        ⟨fun hs s' h' => Value.text.inj (h.symm.trans h') ▸ hs, fun hs => hs s h⟩
    | .null | .number _ | .boolean _ | .time _ | .json _ => .isTrue (by simp [Check.Holds, h])

inductive ConstraintBody
  | primaryKey (columns : List String)
  | unique (columns : List String)
  | check (condition : Check)
  | foreignKey (columns : List String) (target : TableName) (targetColumns : List String) (cascade : Bool)
deriving DecidableEq

namespace ConstraintBody

/-- The columns that a constraint is about. -/
def columns : ConstraintBody → List String
  | primaryKey columns | unique columns | foreignKey columns _ _ _ => columns
  | check condition => [condition.column]

/-- The columns of a key, which has an index of its name. -/
def key? : ConstraintBody → Option (List String)
  | primaryKey columns | unique columns => some columns
  | check _ | foreignKey _ _ _ _ => none

/-- The name of a constraint that is not given one. -/
def defaultName (table : String) : ConstraintBody → String
  | primaryKey _ => table ++ "_pkey"
  | unique columns => table ++ "_" ++ "_".intercalate columns ++ "_key"
  | check condition => table ++ "_" ++ condition.column ++ "_check"
  | foreignKey columns _ _ _ => table ++ "_" ++ "_".intercalate columns ++ "_fkey"

/-- The rows satisfy the constraint of a table. -/
def Holds (rows : Rows) (table : TableName) : ConstraintBody → Prop
  | primaryKey columns => (∀ row ∈ rows table, .null ∉ row.key columns) ∧
      ((rows table).map (Row.key · columns)).Nodup
  | unique columns => (((rows table).map (Row.key · columns)).filter (.null ∉ ·)).Nodup
  | check condition => ∀ row ∈ rows table, condition.Holds row
  | foreignKey columns target targetColumns _ => ∀ row ∈ rows table, .null ∉ row.key columns →
      ∃ row' ∈ rows target, row'.key targetColumns = row.key columns

instance (rows : Rows) (table : TableName) : DecidablePred (Holds rows table) := fun body => by
  cases body <;> unfold Holds <;> infer_instance

end ConstraintBody

/-- A constraint, and the key of another table that it depends on. -/
structure Constraint where
  name : String
  body : ConstraintBody
  uses : Option (TableName × String)
deriving DecidableEq

structure Table where
  name : TableName
  columns : List Column
  /-- By name. -/
  constraints : List Constraint
deriving DecidableEq

/-- An index, with its columns and which of them descend. -/
structure Index where
  schema : String
  name : String
  table : String
  keys : List (String × Bool)
  condition : Option Check
deriving DecidableEq

structure Catalog where
  schemas : List String
  tables : List Table
  /-- By name. -/
  indexes : List Index
deriving DecidableEq

/-- Why a statement fails. -/
inductive SqlError
  | undefinedSchema (name : String)
  | undefinedTable (name : TableName)
  | undefinedColumn (columns : List String)
  | undefinedKey (columns : List String)
  | duplicate (name : String)
  | dependent (name : String) (dependents : List String)
  | notNull (column : String)
  | violated (constraint : String)
deriving DecidableEq

namespace Catalog

def empty : Catalog := ⟨[], [], []⟩

def table? (c : Catalog) (t : TableName) : Option Table := c.tables.find? fun table => table.name = t

theorem table?_eq_some {c : Catalog} {t : TableName} {table : Table} (h : c.table? t = some table) :
    table ∈ c.tables ∧ table.name = t :=
  ⟨List.mem_of_find?_eq_some h, by simpa using List.find?_some h⟩

/-- Change a table. -/
def modify (c : Catalog) (t : TableName) (f : Table → Table) : Catalog :=
  { c with tables := c.tables.map fun table => if table.name = t then f table else table }

/-- A table, an index or a key has this name in the schema. -/
def HasRelation (c : Catalog) (schema name : String) : Prop :=
  (∃ table ∈ c.tables, table.name.schema = schema ∧ (table.name.name = name ∨
    ∃ k ∈ table.constraints, k.name = name ∧ k.body.key? ≠ none)) ∨
  ∃ index ∈ c.indexes, index.schema = schema ∧ index.name = name

instance (c : Catalog) (schema name : String) : Decidable (c.HasRelation schema name) := by
  unfold HasRelation; infer_instance

/-- The constraints that depend on a key of a table. -/
def dependents (c : Catalog) (t : TableName) (key : String) : List String :=
  c.tables.flatMap fun table =>
    (table.constraints.filter fun k => k.uses = some (t, key)).map (·.name)

/-- The key that a constraint depends on: one of the columns that it refers to. -/
def resolve (c : Catalog) : ConstraintBody → Except SqlError (Option (TableName × String))
  | .foreignKey _ target targetColumns _ => do
    let table ← orThrow (.undefinedTable target) (c.table? target)
    let key ← orThrow (.undefinedKey targetColumns) <| table.constraints.find? fun k =>
      ∃ columns ∈ k.body.key?, columns.isPerm targetColumns
    pure (some (target, key.name))
  | .primaryKey _ | .unique _ | .check _ => pure none

end Catalog

namespace Table

def column? (table : Table) (name : String) : Option Column := table.columns.find? fun c => c.name = name

/-- Change a column. -/
def modifyColumn (table : Table) (name : String) (f : Column → Column) : Table :=
  { table with columns := table.columns.map fun c => if c.name = name then f c else c }

/-- Add a constraint. The columns of a primary key are not null. -/
def addConstraint (table : Table) (k : Constraint) : Table :=
  { table with
    columns := match k.body with
      | .primaryKey columns => table.columns.map fun c => { c with notNull := c.notNull || c.name ∈ columns }
      | .unique _ | .check _ | .foreignKey _ _ _ _ => table.columns
    constraints := table.constraints.orderedInsert (fun a b => a.name ≤ b.name) k }

end Table

/-! ## Effects on rows -/

/-- What a statement asks of the rows. -/
inductive RowEffect
  | satisfy (table : TableName) (constraint : Constraint)
  | notNull (table : TableName) (column : String)
  | addColumn (table : TableName) (column : Column)
  /-- Where the column is null, it becomes the text before another column. -/
  | fillText (table : TableName) (column text source : String)
  /-- Where the column is null, it becomes a column of the row of another table with the same key. -/
  | fillFrom (table : TableName) (column : String) (source : TableName) (key sourceColumn : String)
deriving DecidableEq

/-- Text concatenation, with null for null. -/
def concat (text : String) : Value → Value
  | .text s => .text (text ++ s)
  | .null | .number _ | .boolean _ | .time _ | .json _ => .null

/-- What a new column holds. -/
def Column.initial (column : Column) (now : ℚ) : Value :=
  match column.default with
  | none => .null
  | some (.value v) => v
  | some .now => .time now

/-- Change the rows of a table. -/
def Rows.update (rows : Rows) (table : TableName) (f : Row → Row) : Rows := fun t =>
  if t = table then (rows t).map f else rows t

def RowEffect.apply (now : ℚ) (rows : Rows) : RowEffect → Except SqlError Rows
  | satisfy table k => do
    ensure (k.body.Holds rows table) (.violated k.name)
    pure rows
  | notNull table column => do
    ensure (∀ row ∈ rows table, row column ≠ .null) (.notNull column)
    pure rows
  | addColumn table column => do
    ensure (column.notNull → ∀ _row ∈ rows table, column.initial now ≠ .null) (.notNull column.name)
    pure (rows.update table fun row => Function.update row column.name (column.initial now))
  | fillText table column text source => pure <| rows.update table fun row =>
      if row column = .null then Function.update row column (concat text (row source)) else row
  | fillFrom table column source key sourceColumn => pure <| rows.update table fun row =>
      match (rows source).find? fun row' => row' key = row key ∧ row key ≠ .null with
      | some row' => if row column = .null then Function.update row column (row' sourceColumn) else row
      | none => row

/-! ## Statements -/

/-- A constraint as it is written, with a name or without. -/
structure ConstraintDef where
  name : Option String
  body : ConstraintBody

/-- What `alter table` does. -/
inductive Alteration
  /-- `add column if not exists` -/
  | addColumn (column : Column)
  | dropDefault (column : String)
  | setNotNull (column : String)
  /-- `drop constraint if exists` -/
  | dropConstraint (name : String)
  | addConstraint (constraint : ConstraintDef)

inductive Statement
  /-- `create schema if not exists` -/
  | createSchema (name : String)
  /-- `create table if not exists` -/
  | createTable (table : TableName) (columns : List Column) (constraints : List ConstraintDef)
  /-- `create index if not exists` -/
  | createIndex (index : Index)
  /-- `drop index if exists` -/
  | dropIndex (schema name : String)
  | alterTable (table : TableName) (alterations : List Alteration)
  /-- `update` of what is null -/
  | fillText (table : TableName) (column text source : String)
  | fillFrom (table : TableName) (column : String) (source : TableName) (key sourceColumn : String)

/-- A change of the catalog, with its effects on the rows. -/
abbrev Step : Type := Except SqlError (Catalog × List RowEffect)

/-- One step after the other. -/
def Step.andThen (x : Step) (f : Catalog → Step) : Step := do
  let r ← x
  let r' ← f r.1
  pure (r'.1, r.2 ++ r'.2)

def addConstraint (t : TableName) (d : ConstraintDef) (c : Catalog) : Step := do
  let table ← orThrow (.undefinedTable t) (c.table? t)
  let name := d.name.getD (d.body.defaultName t.name)
  ensure (∀ column ∈ d.body.columns, table.column? column ≠ none) (.undefinedColumn d.body.columns)
  ensure (¬ (∃ k ∈ table.constraints, k.name = name) ∧
    (d.body.key? ≠ none → ¬ c.HasRelation t.schema name)) (.duplicate name)
  let uses ← c.resolve d.body
  let k : Constraint := ⟨name, d.body, uses⟩
  pure (c.modify t (·.addConstraint k), [.satisfy t k])

def Alteration.step (t : TableName) (alteration : Alteration) (c : Catalog) : Step := do
  let table ← orThrow (.undefinedTable t) (c.table? t)
  match alteration with
  | addColumn column =>
    if table.column? column.name ≠ none then pure (c, []) else
      pure (c.modify t fun table => { table with columns := table.columns ++ [column] },
        [.addColumn t column])
  | dropDefault column =>
    ensure (table.column? column ≠ none) (.undefinedColumn [column])
    pure (c.modify t (·.modifyColumn column fun k => { k with default := none }), [])
  | setNotNull column =>
    ensure (table.column? column ≠ none) (.undefinedColumn [column])
    pure (c.modify t (·.modifyColumn column fun k => { k with notNull := true }), [.notNull t column])
  | dropConstraint name =>
    if ∃ k ∈ table.constraints, k.name = name then
      ensure (c.dependents t name = []) (.dependent name (c.dependents t name))
      pure (c.modify t fun table =>
        { table with constraints := table.constraints.filter fun k => k.name ≠ name }, [])
    else pure (c, [])
  | addConstraint d => Ddl.addConstraint t d c

def Statement.step (c : Catalog) : Statement → Step
  | createSchema name => pure (if name ∈ c.schemas then c else { c with schemas := c.schemas ++ [name] }, [])
  | createTable t columns constraints =>
    if c.HasRelation t.schema t.name then pure (c, []) else do
      ensure (t.schema ∈ c.schemas) (.undefinedSchema t.schema)
      constraints.foldl (fun x d => Step.andThen x (addConstraint t d))
        (pure ({ c with tables := c.tables ++ [⟨t, columns, []⟩] }, []))
  | createIndex index =>
    if c.HasRelation index.schema index.name then pure (c, []) else do
      let t : TableName := ⟨index.schema, index.table⟩
      let table ← orThrow (.undefinedTable t) (c.table? t)
      ensure (∀ key ∈ index.keys, table.column? key.1 ≠ none) (.undefinedColumn (index.keys.map Prod.fst))
      pure ({ c with indexes := c.indexes.orderedInsert (fun a b => a.name ≤ b.name) index }, [])
  | dropIndex schema name => do
    ensure (∀ table ∈ c.tables, table.name.schema = schema →
      ∀ k ∈ table.constraints, k.name = name → k.body.key? = none) (.dependent name [name])
    pure ({ c with indexes := c.indexes.filter fun i => ¬ (i.schema = schema ∧ i.name = name) }, [])
  | alterTable t alterations => alterations.foldl (fun x a => Step.andThen x (a.step t)) (pure (c, []))
  | fillText t column text source => do
    let table ← orThrow (.undefinedTable t) (c.table? t)
    ensure (∀ name ∈ [column, source], table.column? name ≠ none) (.undefinedColumn [column, source])
    pure (c, [.fillText t column text source])
  | fillFrom t column source key sourceColumn => do
    let table ← orThrow (.undefinedTable t) (c.table? t)
    let other ← orThrow (.undefinedTable source) (c.table? source)
    ensure (∀ name ∈ [column, key], table.column? name ≠ none) (.undefinedColumn [column, key])
    ensure (∀ name ∈ [key, sourceColumn], other.column? name ≠ none) (.undefinedColumn [key, sourceColumn])
    pure (c, [.fillFrom t column source key sourceColumn])

/-! ## Scripts -/

/-- Tables, and the rows in them. -/
structure Database where
  catalog : Catalog
  rows : Rows

/-- A database without tables. -/
def Database.empty : Database := ⟨.empty, fun _ => []⟩

section

variable (now : ℚ)

/-- Execute a statement. -/
def Statement.exec (db : Database) (s : Statement) : Except SqlError Database := do
  let r ← s.step db.catalog
  let rows ← r.2.foldlM (RowEffect.apply now) db.rows
  pure ⟨r.1, rows⟩

/-- Execute a script. It is a transaction. -/
def runFile (file : List Statement) (db : Database) : Except SqlError Database :=
  file.foldlM (Statement.exec now) db

/-- Execute scripts one after the other, up to one that fails. -/
def migrate : List (String × List Statement) → Database → Except (String × SqlError) Unit × Database
  | [], db => (.ok (), db)
  | (name, file) :: files, db =>
    match runFile now file db with
    | .ok db' => migrate files db'
    | .error e => (.error (name, e), db)

end

/-- What a script does to the catalog, and what it asks of the rows. -/
def steps : List Statement → Catalog → Step
  | [], c => pure (c, [])
  | s :: file, c => Step.andThen (s.step c) (steps file)

/-- What scripts do to the catalog. -/
def catalogAfter (files : List (String × List Statement)) (c : Catalog) : Except SqlError Catalog :=
  files.foldlM (fun c file => (steps file.2 c).map Prod.fst) c

section

variable {now : ℚ} {file : List Statement} {db : Database} {c : Catalog} {effects : List RowEffect}

@[simp] theorem runFile_nil : runFile now [] db = .ok db := rfl

theorem runFile_cons (s : Statement) :
    runFile now (s :: file) db = s.exec now db >>= runFile now file := rfl

theorem andThen_eq_ok {x : Step} {f : Catalog → Step} :
    Step.andThen x f = .ok (c, effects) ↔
      ∃ c' es, x = .ok (c', es) ∧ ∃ es', f c' = .ok (c, es') ∧ effects = es ++ es' := by
  simp only [Step.andThen, bind_eq_ok, pure_eq_ok, Prod.exists, Prod.mk.injEq]
  constructor
  · rintro ⟨c', es, hx, c'', es', hf, rfl, rfl⟩
    exact ⟨c', es, hx, es', hf, rfl⟩
  · rintro ⟨c', es, hx, es', hf, rfl⟩
    exact ⟨c', es, hx, c, es', hf, rfl, rfl⟩

/-- **A script is what it does to the catalog and then to the rows.** -/
theorem runFile_of_steps (h : steps file db.catalog = .ok (c, effects)) :
    runFile now file db =
      (effects.foldlM (RowEffect.apply now) db.rows).map fun rows => ⟨c, rows⟩ := by
  induction file generalizing db effects with
  | nil =>
    obtain ⟨rfl, rfl⟩ : db.catalog = c ∧ [] = effects := by simpa [steps] using h
    rfl
  | cons s file ih =>
    obtain ⟨c', es, hs, es', hfile, rfl⟩ := andThen_eq_ok.mp h
    rw [runFile_cons, Statement.exec, hs, List.foldlM_append]
    change ((es.foldlM (RowEffect.apply now) db.rows >>= fun rows => pure ⟨c', rows⟩) >>=
      runFile now file) = _
    cases hrows : es.foldlM (RowEffect.apply now) db.rows with
    | error e => rfl
    | ok rows => exact @ih ⟨c', rows⟩ es' hfile

/-- A script that asks only what the rows satisfy, and leaves the catalog, changes nothing. -/
theorem runFile_of_inert (h : steps file db.catalog = .ok (db.catalog, effects))
    (heffects : effects.foldlM (RowEffect.apply now) db.rows = .ok db.rows) :
    runFile now file db = .ok db := by
  rw [runFile_of_steps h, heffects]
  rfl

/-- A script that fails at a statement, after others without an effect. -/
theorem runFile_error {before : List Statement} {s : Statement} {e : SqlError}
    (hbefore : steps before db.catalog = .ok (db.catalog, [])) (hs : s.step db.catalog = .error e) :
    runFile now (before ++ s :: file) db = .error e := by
  have hinert : runFile now before db = .ok db := runFile_of_inert hbefore rfl
  rw [runFile, List.foldlM_append]
  change runFile now before db >>= runFile now (s :: file) = _
  rw [hinert, ok_bind, runFile_cons, Statement.exec, hs]
  rfl

/-- Scripts that change nothing. -/
theorem migrate_append_of_inert {files rest : List (String × List Statement)}
    (h : ∀ file ∈ files, runFile now file.2 db = .ok db) :
    migrate now (files ++ rest) db = migrate now rest db := by
  induction files with
  | nil => rfl
  | cons file files ih =>
    rw [List.cons_append, migrate, h file (List.mem_cons_self ..)]
    exact ih fun file' hfile => h file' (List.mem_cons_of_mem _ hfile)

/-! ### Statements that change nothing -/

/-- What a statement alters is as it asks already. -/
def Alteration.Settled (table : Table) : Alteration → Prop
  | addColumn column => table.column? column.name ≠ none
  | dropDefault column => table.column? column ≠ none ∧
      ∀ k ∈ table.columns, k.name = column → k.default = none
  | setNotNull _ | addConstraint _ => False
  | dropConstraint name => ¬ ∃ k ∈ table.constraints, k.name = name

/-- What a statement asks for is there already. -/
def Statement.Settled (c : Catalog) : Statement → Prop
  | createSchema name => name ∈ c.schemas
  | createTable t _ _ => c.HasRelation t.schema t.name
  | createIndex index => c.HasRelation index.schema index.name
  | alterTable t alterations => ∃ table ∈ c.table? t, ∀ a ∈ alterations, a.Settled table
  | dropIndex _ _ | fillText _ _ _ _ | fillFrom _ _ _ _ _ => False

instance (table : Table) : DecidablePred (Alteration.Settled table) := fun a => by
  cases a <;> unfold Alteration.Settled <;> infer_instance

instance (c : Catalog) : DecidablePred (Statement.Settled c) := fun s => by
  cases s <;> unfold Statement.Settled <;> infer_instance

theorem Catalog.modify_of_forall {t : TableName} {f : Table → Table}
    (h : ∀ table ∈ c.tables, table.name = t → f table = table) : c.modify t f = c := by
  have hmap : c.tables.map (fun table => if table.name = t then f table else table) = c.tables := by
    refine (List.map_congr_left fun table htable => ?_).trans (List.map_id _)
    split
    · exact h table htable ‹_›
    · rfl
  rw [Catalog.modify, hmap]

/-- Names of tables are unique. -/
def Catalog.UniqueTables (c : Catalog) : Prop :=
  ∀ table ∈ c.tables, c.table? table.name = some table

@[simp] theorem andThen_nil {f : Catalog → Step} : Step.andThen (.ok (c, [])) f = f c := by
  rw [Step.andThen, ok_bind]
  cases f c <;> rfl

theorem Alteration.step_of_settled (hc : c.UniqueTables) {t : TableName} {table : Table}
    (htable : c.table? t = some table) {a : Alteration} (ha : a.Settled table) :
    a.step t c = .ok (c, []) := by
  cases a with
  | addColumn column =>
    rw [Alteration.step, htable]
    exact if_pos ha
  | dropDefault column =>
    have hsame : c.modify t (·.modifyColumn column fun k => { k with default := none }) = c := by
      refine Catalog.modify_of_forall fun table' htable' hname => ?_
      obtain rfl : table = table' := Option.some_inj.mp (htable.symm.trans (hname ▸ hc table' htable'))
      have hcolumns : table.columns.map (fun k => if k.name = column then { k with default := none } else k)
          = table.columns := by
        refine (List.map_congr_left fun k hk => ?_).trans (List.map_id _)
        split
        · next hk' => rw [← ha.2 k hk hk']; rfl
        · rfl
      rw [Table.modifyColumn, hcolumns]
    rw [Alteration.step, htable]
    change (ensure _ _ >>= fun _ => pure (c.modify t _, [])) = _
    rw [ensure_pos ha.1, hsame]
    rfl
  | setNotNull | addConstraint => exact ha.elim
  | dropConstraint name =>
    rw [Alteration.step, htable]
    exact if_neg ha

/-- **A statement whose result is there already changes nothing**, and asks nothing of the rows. -/
theorem Statement.step_of_settled (hc : c.UniqueTables) {s : Statement} (h : s.Settled c) :
    s.step c = .ok (c, []) := by
  cases s with
  | createSchema name =>
    rw [Statement.step, if_pos (show name ∈ c.schemas from h)]
    rfl
  | createTable t columns constraints => exact if_pos h
  | createIndex index => exact if_pos h
  | alterTable t alterations =>
    obtain ⟨table, htable, hall⟩ := h
    rw [Statement.step]
    induction alterations with
    | nil => rfl
    | cons a alterations ih =>
      rw [List.foldl_cons]
      change List.foldl _ (Step.andThen (.ok (c, [])) (a.step t)) alterations = _
      rw [andThen_nil, a.step_of_settled hc htable (hall a (List.mem_cons_self ..))]
      exact ih fun a' ha' => hall a' (List.mem_cons_of_mem _ ha')
  | dropIndex | fillText | fillFrom => exact h.elim

theorem steps_append (before : List Statement) :
    steps (before ++ file) c = Step.andThen (steps before c) (steps file) := by
  induction before generalizing c with
  | nil => exact andThen_nil.symm
  | cons s before ih =>
    rw [List.cons_append, steps, steps]
    simp only [ih, Step.andThen, bind_assoc, pure_bind, List.append_assoc]

theorem steps_of_settled (hc : c.UniqueTables) (h : ∀ s ∈ file, s.Settled c) :
    steps file c = .ok (c, []) := by
  induction file with
  | nil => rfl
  | cons s file ih =>
    rw [steps, Statement.step_of_settled hc (h s (List.mem_cons_self ..)), andThen_nil]
    exact ih fun s' hs => h s' (List.mem_cons_of_mem _ hs)

/-! ### Statements that replace something by itself -/

/-- What has one of the names in increasing order is inserted where it was taken out. -/
theorem orderedInsert_filter {α : Type} (name : α → String) {as : List α} {a : α}
    (has : as.Pairwise fun x y => name x < name y) (ha : a ∈ as) :
    (as.filter fun x => name x ≠ name a).orderedInsert (fun x y => name x ≤ name y) a = as := by
  induction as with
  | nil => cases ha
  | cons x as ih =>
    obtain ⟨hx, has⟩ := List.pairwise_cons.mp has
    rcases List.mem_cons.mp ha with rfl | ha
    · have hrest : as.filter (fun x => name x ≠ name a) = as :=
        List.filter_eq_self.mpr fun y hy => decide_eq_true (hx y hy).ne'
      have hself : ¬ decide (name a ≠ name a) = true := by simp
      rw [List.filter_cons, if_neg hself, hrest]
      cases as with
      | nil => rfl
      | cons y as => exact List.orderedInsert_cons_of_le _ _ (hx y (List.mem_cons_self ..)).le
    · have hlt := hx a ha
      have hother : decide (name x ≠ name a) = true := decide_eq_true hlt.ne
      rw [List.filter_cons, if_pos hother, List.orderedInsert_cons, if_neg hlt.not_ge, ih has ha]

/-- Names in increasing order are unique. -/
theorem eq_of_pairwise_name {α : Type} {name : α → String} {as : List α} {a b : α}
    (has : as.Pairwise fun x y => name x < name y) (ha : a ∈ as) (hb : b ∈ as)
    (hname : name a = name b) : a = b := by
  have hnodup : (as.map name).Nodup := List.pairwise_map.mpr (has.imp fun hlt => hlt.ne)
  exact List.inj_on_of_nodup_map hnodup ha hb hname

/-- An index is replaced by itself. -/
theorem steps_replaceIndex {i : Index} {table : Table}
    (hsorted : c.indexes.Pairwise fun x y => x.name < y.name) (hi : i ∈ c.indexes)
    (htable : c.table? ⟨i.schema, i.table⟩ = some table)
    (hkeys : ∀ key ∈ i.keys, table.column? key.1 ≠ none)
    (hfree : ¬ Catalog.HasRelation { c with indexes := [] } i.schema i.name) :
    steps [.dropIndex i.schema i.name, .createIndex i] c = .ok (c, []) := by
  have hothers : c.indexes.filter (fun x => ¬ (x.schema = i.schema ∧ x.name = i.name)) =
      c.indexes.filter fun x => x.name ≠ i.name := by
    refine List.filter_congr fun x hx => decide_eq_decide.mpr (not_congr ⟨And.right, fun hname => ?_⟩)
    rw [eq_of_pairwise_name hsorted hx hi hname]
    exact ⟨rfl, rfl⟩
  have hdrop : Statement.step c (.dropIndex i.schema i.name) =
      .ok ({ c with indexes := c.indexes.filter fun x => x.name ≠ i.name }, []) := by
    rw [Statement.step, ensure_pos, hothers]
    · rfl
    · intro table htable hschema k hk hname
      by_contra hkey
      exact hfree (.inl ⟨table, htable, hschema, .inr ⟨k, hk, hname, hkey⟩⟩)
  have hcreate : Statement.step { c with indexes := c.indexes.filter fun x => x.name ≠ i.name }
      (.createIndex i) = .ok (c, []) := by
    have hrelation : ¬ Catalog.HasRelation
        { c with indexes := c.indexes.filter fun x => x.name ≠ i.name } i.schema i.name := by
      rintro (h | ⟨x, hx, -, hname⟩)
      · exact hfree (.inl h)
      · exact of_decide_eq_true (List.mem_filter.mp hx).2 hname
    rw [Statement.step, if_neg hrelation]
    change (orThrow _ (c.table? ⟨i.schema, i.table⟩) >>= _) = _
    rw [htable]
    change (ensure (∀ key ∈ i.keys, table.column? key.1 ≠ none) _ >>= _) = _
    rw [ensure_pos hkeys, ok_bind, orderedInsert_filter Index.name hsorted hi]
    rfl
  rw [steps, hdrop, andThen_nil, steps, hcreate, andThen_nil, steps]
  rfl

theorem Catalog.table?_modify {t : TableName} {f : Table → Table}
    (hf : ∀ table, (f table).name = table.name) : (c.modify t f).table? t = (c.table? t).map f := by
  rw [Catalog.table?, Catalog.table?, Catalog.modify]
  induction c.tables with
  | nil => rfl
  | cons table tables ih =>
    rw [List.map_cons, List.find?_cons, List.find?_cons]
    by_cases hname : table.name = t
    · simp [hname, hf]
    · simpa [hname] using ih

theorem Catalog.modify_modify {t : TableName} {f g : Table → Table}
    (hf : ∀ table, (f table).name = table.name) :
    (c.modify t f).modify t g = c.modify t fun table => g (f table) := by
  simp only [Catalog.modify, List.map_map]
  congr 1
  refine List.map_congr_left fun table _ => ?_
  by_cases hname : table.name = t <;> simp [hname, hf]

/-- A check is replaced by itself. -/
theorem steps_replaceCheck {t : TableName} {table : Table} {name : String} {check : Check}
    (hc : c.UniqueTables) (htable : c.table? t = some table)
    (hsorted : table.constraints.Pairwise fun x y => x.name < y.name)
    (hk : ⟨name, .check check, none⟩ ∈ table.constraints) (hfree : c.dependents t name = [])
    (hcolumn : table.column? check.column ≠ none) :
    steps [.alterTable t [.dropConstraint name],
      .alterTable t [.addConstraint ⟨some name, .check check⟩]] c =
        .ok (c, [.satisfy t ⟨name, .check check, none⟩]) := by
  let drop (table : Table) : Table :=
    { table with constraints := table.constraints.filter fun k => k.name ≠ name }
  have hnames : ∀ table, (drop table).name = table.name := fun _ => rfl
  have hdrop : Statement.step c (.alterTable t [.dropConstraint name]) = .ok (c.modify t drop, []) := by
    rw [Statement.step, List.foldl_cons, List.foldl_nil]
    change Step.andThen (.ok (c, [])) _ = _
    rw [andThen_nil, Alteration.step, htable]
    refine (if_pos ⟨_, hk, rfl⟩).trans ?_
    rw [ensure_pos hfree]
    rfl
  have hadd : Statement.step (c.modify t drop) (.alterTable t [.addConstraint ⟨some name, .check check⟩]) =
      .ok (c, [.satisfy t ⟨name, .check check, none⟩]) := by
    have htable' : (c.modify t drop).table? t = some (drop table) := by
      rw [Catalog.table?_modify hnames, htable]
      rfl
    have hsame : (c.modify t drop).modify t (·.addConstraint ⟨name, .check check, none⟩) = c := by
      rw [Catalog.modify_modify hnames]
      refine Catalog.modify_of_forall fun table' htable' hname => ?_
      obtain rfl : table = table' := Option.some_inj.mp (htable.symm.trans (hname ▸ hc table' htable'))
      have hinsert := orderedInsert_filter Constraint.name hsorted hk
      exact congrArg (fun constraints => { table with constraints }) hinsert
    rw [Statement.step, List.foldl_cons, List.foldl_nil]
    change Step.andThen (.ok (c.modify t drop, [])) _ = _
    rw [andThen_nil, Alteration.step, htable']
    change Ddl.addConstraint t ⟨some name, .check check⟩ (c.modify t drop) = _
    rw [Ddl.addConstraint, htable']
    change (ensure (∀ column ∈ [check.column], (drop table).column? column ≠ none) _ >>= _) = _
    have hcolumns : ∀ column ∈ [check.column], (drop table).column? column ≠ none :=
      List.forall_mem_singleton.mpr hcolumn
    rw [ensure_pos hcolumns, ok_bind, ensure_pos, ok_bind]
    · change Except.ok ((c.modify t drop).modify t (·.addConstraint ⟨name, .check check, none⟩), _) = _
      rw [hsame]
      rfl
    · refine ⟨?_, fun hkey => absurd rfl hkey⟩
      rintro ⟨k, hk', hname⟩
      exact of_decide_eq_true (List.mem_filter.mp hk').2 hname
  rw [steps, hdrop, andThen_nil, steps, hadd]
  rfl

/-! ### Tables without rows -/

/-- Tables without rows satisfy everything that is asked of them. -/
theorem apply_empty (e : RowEffect) : e.apply now (fun _ => []) = .ok fun _ => [] := by
  have hupdate : ∀ (t : TableName) (f : Row → Row), Rows.update (fun _ => []) t f = fun _ => [] := by
    intro t f
    funext t'
    simp [Rows.update]
  cases e with
  | satisfy t k =>
    have hholds : k.body.Holds (fun _ => []) t := by
      cases k.body <;> simp [ConstraintBody.Holds]
    rw [RowEffect.apply, ensure_pos hholds]
    rfl
  | notNull t column =>
    rw [RowEffect.apply, ensure_pos (by simp)]
    rfl
  | addColumn t column =>
    rw [RowEffect.apply, ensure_pos (by simp), hupdate]
    rfl
  | fillText t column text source => simp [RowEffect.apply, hupdate]
  | fillFrom t column source key sourceColumn => simp [RowEffect.apply, hupdate]

theorem foldlM_apply_empty (effects : List RowEffect) :
    effects.foldlM (RowEffect.apply now) (fun _ => []) = .ok fun _ => [] := by
  induction effects with
  | nil => rfl
  | cons e effects ih => rw [List.foldlM_cons, apply_empty, ok_bind, ih]

/-- **Scripts on tables without rows** fail only for the catalog. -/
theorem migrate_empty {files : List (String × List Statement)} {before after : Catalog}
    (h : catalogAfter files before = .ok after) :
    migrate now files ⟨before, fun _ => []⟩ = (.ok (), ⟨after, fun _ => []⟩) := by
  induction files generalizing before with
  | nil =>
    obtain rfl : before = after := by simpa [catalogAfter] using h
    rfl
  | cons file files ih =>
    rw [catalogAfter, List.foldlM_cons, bind_eq_ok] at h
    obtain ⟨c, hc, h⟩ := h
    cases hsteps : steps file.2 before with
    | error e => rw [hsteps] at hc; cases hc
    | ok r =>
      rw [hsteps] at hc
      obtain rfl : r.1 = c := Except.ok.inj hc
      have hrun : runFile now file.2 ⟨before, fun _ => []⟩ = .ok ⟨r.1, fun _ => []⟩ := by
        rw [runFile_of_steps hsteps, foldlM_apply_empty]
        rfl
      rw [migrate, hrun]
      exact ih h

/-! ### Rows that satisfy the constraints -/

/-- The rows are in tables of the catalog and satisfy its constraints. -/
structure Consistent (db : Database) : Prop where
  rows : ∀ t, db.catalog.table? t = none → db.rows t = []
  notNull : ∀ table ∈ db.catalog.tables, ∀ column ∈ table.columns, column.notNull = true →
    ∀ row ∈ db.rows table.name, row column.name ≠ .null
  constraints : ∀ table ∈ db.catalog.tables, ∀ k ∈ table.constraints, k.body.Holds db.rows table.name

/-- Writes change rows, and no row comes to violate a constraint. -/
structure Database.Writes (db db' : Database) : Prop where
  catalog : db'.catalog = db.catalog
  consistent : Consistent db'

theorem consistent_of_empty (c : Catalog) : Consistent ⟨c, fun _ => []⟩ := by
  refine ⟨fun _ _ => rfl, by simp, fun table _ k _ => ?_⟩
  cases k.body <;> simp [ConstraintBody.Holds]

/-- **A constraint that is there already is satisfied.** -/
theorem Consistent.satisfies (h : Consistent db) {t : TableName} {k : Constraint}
    (hk : ∃ table ∈ db.catalog.table? t, k ∈ table.constraints) :
    RowEffect.apply now db.rows (.satisfy t k) = .ok db.rows := by
  obtain ⟨table, htable, hk⟩ := hk
  obtain ⟨hmem, rfl⟩ := Catalog.table?_eq_some htable
  rw [RowEffect.apply, ensure_pos (h.constraints table hmem k hk)]
  rfl

end

end Ddl

end HarnessFramework
