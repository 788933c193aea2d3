import PluginAudit.Proofs.DatabaseSteps

/-!
The script of a migration, statement by statement. It is executed in a transaction: a statement
that fails takes back those before it.
-/

namespace PluginAudit.Database

/-- The database as statements see it. -/
structure Schema where
  readOnly : Bool
  tables : List OptionTable
  /-- The rows of the table of temporary namespaces, if there is one. -/
  registered : Option (List String)
  /-- The rows of the table of versions, if there is one. -/
  versions : Option (List Nat)

inductive Statement where
  | makeVersions
  | makeOptions (base : String)
  | makeRegistry
  | noteVersion

def script (base : String) : List Statement :=
  [.makeVersions, .makeOptions base, .makeRegistry, .noteVersion]

def versionsName : String := "schema_version"

namespace Schema

def ofDatabase (d : Database) : Schema where
  readOnly := d.readOnly
  tables := d.tables
  registered := if d.migrated then some d.registered else none
  versions := if d.migrated then some [1] else none

/-- The greatest version that has been noted. -/
def version (s : Schema) : Nat := (s.versions.getD []).foldl max 0

/-- A table that is there is not made again. -/
def execute : Statement → Schema → Except SqlError Schema
  | .makeVersions, s =>
    if s.versions.isSome then .ok s
    else if s.readOnly then .error .readOnly
    else .ok { s with versions := some [] }
  | .makeOptions base, s =>
    (createTableIfMissing (tableName base) ⟨base, s.readOnly, false, s.tables, []⟩).map fun d =>
      { s with tables := d.tables }
  | .makeRegistry, s =>
    if s.registered.isSome then .ok s
    else if s.readOnly then .error .readOnly
    else .ok { s with registered := some [] }
  | .noteVersion, s =>
    match s.versions with
    | none => .error (.noTable versionsName)
    | some versions =>
      if versions.contains 1 then .error (.notUnique (versionsName ++ ".version"))
      else if s.readOnly then .error .readOnly
      else .ok { s with versions := some (1 :: versions) }

/-- What the statements have made of a database when they are done or one has failed. -/
def executeAll : List Statement → Schema → Except SqlError Unit × Schema
  | [], s => (.ok (), s)
  | statement :: rest, s =>
    match execute statement s with
    | .ok t => executeAll rest t
    | .error e => (.error e, s)

def transaction (statements : List Statement) (s : Schema) : Except SqlError Unit × Schema :=
  match executeAll statements s with
  | (.ok (), t) => (.ok (), t)
  | (.error e, _) => (.error e, s)

def migrate (base : String) (s : Schema) : Except HostRefusal Unit × Schema :=
  match Namespace.check base with
  | .error e => (.error e, s)
  | .ok () =>
    if 1 ≤ s.version then (.ok (), s)
    else
      let (result, t) := transaction (script base) s
      (result.mapError SqlError.toHost, t)

variable {d : Database} {base : String}

theorem version_migrated (migrated : d.migrated = true) : (ofDatabase d).version = 1 := by
  simp [version, ofDatabase, migrated]

theorem version_unmigrated (unready : d.migrated = false) : (ofDatabase d).version = 0 := by
  simp [version, ofDatabase, unready]

/-- Making a table depends on the tables and on whether they can be written, and adds to them. -/
theorem createTableIfMissing_alike {c : Database} {table : String} (tables : c.tables = d.tables)
    (readOnly : c.readOnly = d.readOnly) : createTableIfMissing table c =
      (createTableIfMissing table d).map fun e => { c with tables := e.tables } := by
  obtain ⟨_, _, _, _, _⟩ := c
  subst tables readOnly
  have found (base : String) (migrated : Bool) (registered : List String) :
      find? ⟨base, d.readOnly, migrated, d.tables, registered⟩ table = d.find? table := rfl
  simp only [createTableIfMissing, createTable, found]
  cases checkToken table with
  | error e => rfl
  | ok _ =>
    by_cases there : (d.find? table).isSome
    · simp only [there, if_true]
      rfl
    · by_cases reserved : isReserved table
      · simp only [there, reserved, if_true]
        rfl
      · cases writable : d.readOnly with
        | true =>
          simp only [there, reserved]
          rfl
        | false =>
          simp only [there, reserved]
          rfl

theorem createTableIfMissing_ok {e : Database} {table : String}
    (made : createTableIfMissing table d = .ok e) : e = { d with tables := e.tables } := by
  have alike : createTableIfMissing table d =
      (createTableIfMissing table d).map fun e => { d with tables := e.tables } :=
    createTableIfMissing_alike rfl rfl
  rw [made] at alike
  exact Except.ok.inj alike

theorem executeAll_writable (unready : d.migrated = false) (nothing : d.registered = [])
    (writable : d.readOnly = false) : executeAll (script base) (ofDatabase d) =
      match createTableIfMissing (tableName base) d with
      | .ok e => (.ok (), ofDatabase { e with migrated := true })
      | .error e => (.error e, { ofDatabase d with versions := some [] }) := by
  have same : createTableIfMissing (tableName base) ⟨base, false, false, d.tables, []⟩ =
      (createTableIfMissing (tableName base) d).map fun e => ⟨base, false, false, e.tables, []⟩ :=
    createTableIfMissing_alike rfl writable.symm
  cases made : createTableIfMissing (tableName base) d with
  | error e =>
    rw [made] at same
    simp [script, executeAll, execute, ofDatabase, unready, writable, same, Except.map]
  | ok e =>
    rw [made] at same
    have changed := createTableIfMissing_ok made
    have registered : e.registered = [] := by
      rw [changed]
      exact nothing
    have readOnly : e.readOnly = false := by
      rw [changed]
      exact writable
    simp [script, executeAll, execute, ofDatabase, unready, writable, same, Except.map, registered,
      readOnly]

theorem transaction_unmigrated (unready : d.migrated = false) (nothing : d.registered = []) :
    transaction (script base) (ofDatabase d) =
      if d.readOnly then (.error .readOnly, ofDatabase d)
      else
        match createTableIfMissing (tableName base) d with
        | .ok e => (.ok (), ofDatabase { e with migrated := true })
        | .error e => (.error e, ofDatabase d) := by
  cases writable : d.readOnly with
  | true =>
    have refused : executeAll (script base) (ofDatabase d) = (.error .readOnly, ofDatabase d) := by
      simp [script, executeAll, execute, ofDatabase, unready, writable]
    simp only [transaction, refused, if_true]
  | false =>
    simp only [transaction, executeAll_writable unready nothing writable, Bool.false_eq_true,
      if_false]
    cases createTableIfMissing (tableName base) d <;> rfl

/-- The script makes of the database what the migration does, or it leaves it as it was. -/
theorem migrate_ofDatabase (nothing : d.migrated = false → d.registered = []) :
    (ofDatabase d).migrate base =
      match d.migrate base with
      | .ok e => (.ok (), ofDatabase e)
      | .error cause => (.error cause, ofDatabase d) := by
  unfold migrate Database.migrate
  cases valid : Namespace.check base with
  | error e => rfl
  | ok _ =>
    cases ready : d.migrated with
    | true =>
      rw [version_migrated ready]
      rfl
    | false =>
      rw [version_unmigrated ready, transaction_unmigrated ready (nothing ready)]
      cases writable : d.readOnly with
      | true => rfl
      | false =>
        simp only [Bool.false_eq_true, if_false]
        cases createTableIfMissing (tableName base) d <;> rfl

/-- A statement that fails comes after others that have not. -/
example : (executeAll (script "9wp_") (ofDatabase (.empty "wp_"))).2.versions = some [] := rfl

end Schema

end PluginAudit.Database
