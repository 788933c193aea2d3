import PluginAudit.Proofs.DatabaseCalls

/-!
Which namespaces a database can hold. The name of a namespace begins that of its table, and a table
whose name begins with a digit, or as those that the database keeps for itself, cannot be made. A
valid name may do both.
-/

namespace PluginAudit

namespace Namespace

open Text Database

/-- The name can begin that of a table. -/
structure BeginsTable (name : String) : Prop where
  noDigit : name.toList.head?.any Char.isDigit = false
  unreserved : ¬"sqlite_".toList <+: asciiLower name.toList

instance (name : String) : Decidable (BeginsTable name) :=
  decidable_of_iff (name.toList.head?.any Char.isDigit = false ∧
      ¬"sqlite_".toList <+: asciiLower name.toList)
    ⟨fun ⟨noDigit, unreserved⟩ => ⟨noDigit, unreserved⟩, fun h => ⟨h.noDigit, h.unreserved⟩⟩

theorem checkToken_tableName {name : String} :
    checkToken (tableName name) = .ok () ↔ name.toList.head?.any Char.isDigit = false := by
  have first : (tableName name).toList.head?.any Char.isDigit =
      name.toList.head?.any Char.isDigit := by
    rw [tableName, String.toList_append]
    cases name.toList with
    | nil => decide
    | cons c rest => rfl
  rw [← first]
  unfold checkToken
  split <;> simp_all

theorem isReserved_tableName {name : String} :
    isReserved (tableName name) = false ↔ ¬"sqlite_".toList <+: asciiLower name.toList := by
  have begins : isReserved (tableName name) = true ↔
      "sqlite_".toList <+: asciiLower name.toList ++ "options".toList := by
    have lowered : asciiLower (tableName name).toList =
        asciiLower name.toList ++ "options".toList := by
      simp [tableName, asciiLower]
    rw [← lowered]
    exact startsWith_iff
  rw [← Bool.not_eq_true, begins]
  refine not_congr ⟨fun reserved => ?_, fun reserved => reserved.trans (List.prefix_append _ _)⟩
  rcases Nat.lt_or_ge (asciiLower name.toList).length "sqlite_".toList.length with short | long
  · -- The `o` after the name would be a letter of the reserved beginning.
    have here := reserved.getElem short
    rw [List.getElem_append_right (Nat.le_refl _)] at here
    have letter : 'o' ∈ "sqlite_".toList := by
      rw [List.mem_iff_getElem]
      exact ⟨_, short, here.trans (by simp)⟩
    exact absurd letter (by decide)
  · exact List.prefix_of_prefix_length_le reserved (List.prefix_append _ _) long

theorem beginsTable_iff {name : String} : BeginsTable name ↔
    checkToken (tableName name) = .ok () ∧ isReserved (tableName name) = false := by
  rw [checkToken_tableName, isReserved_tableName]
  exact ⟨fun h => ⟨h.noDigit, h.unreserved⟩, fun ⟨noDigit, unreserved⟩ => ⟨noDigit, unreserved⟩⟩

end Namespace

namespace Database

open Namespace Text

variable {d : Database} {w : World Database} {i : Nat} {name : String}

theorem has_of_missing (missing : d.find? (tableName name) = none) : d.has name = false := by
  refine Bool.eq_false_iff.mpr fun there => ?_
  obtain ⟨t, member, named⟩ := List.any_eq_true.mp there
  refine List.find?_eq_none.mp missing t member ?_
  rw [beq_iff_eq.mp named]
  exact sameIgnoringCase_iff.mpr rfl

/-- Where no table is in the way, a namespace is created if its name can begin that of a table. A
row that another spelling has left behind is in the way as well. -/
theorem create_iff (valid : Namespace.check name = .ok ()) (migrated : d.migrated = true)
    (missing : d.find? (tableName name) = none) :
    (∃ e, d.create name = .ok e) ↔
      BeginsTable name ∧ d.readOnly = false ∧ name ∉ d.registered := by
  rw [beginsTable_iff]
  constructor
  · rintro ⟨e, made⟩
    obtain ⟨-, -, ⟨token, free, -, writable⟩, -, unlisted, -⟩ := create_eq_ok.mp made
    exact ⟨⟨token, free⟩, writable, unlisted⟩
  · rintro ⟨⟨token, free⟩, writable, unlisted⟩
    exact ⟨_, create_eq_ok.mpr ⟨valid, has_of_missing missing, ⟨token, free, missing, writable⟩,
      migrated, unlisted, rfl⟩⟩

theorem createTableIfMissing_of_missing {table : String} (missing : d.find? table = none) :
    createTableIfMissing table d = createTable table d := by
  unfold createTableIfMissing
  cases token : checkToken table with
  | error e => simp [createTable, token, bind, Except.bind]
  | ok _ =>
    rw [missing]
    rfl

theorem migrate_iff (valid : Namespace.check name = .ok ()) (unready : d.migrated = false)
    (missing : d.find? (tableName name) = none) :
    (∃ e, d.migrate name = .ok e) ↔ BeginsTable name ∧ d.readOnly = false := by
  rw [beginsTable_iff]
  constructor
  · rintro ⟨e, migrated⟩
    obtain ⟨_, -, migrated⟩ := bind_eq_ok.mp migrated
    rw [unready, if_neg Bool.false_ne_true, createTableIfMissing_of_missing missing] at migrated
    split at migrated
    · cases migrated
    · split at migrated
      · rename_i t creation
        obtain ⟨token, free, -, writable, -⟩ := createTable_eq_ok.mp creation
        exact ⟨⟨token, free⟩, writable⟩
      · cases migrated
  · rintro ⟨⟨token, free⟩, writable⟩
    have creation := createTable_eq_ok.mpr ⟨token, free, missing, writable, rfl⟩
    rw [migrate, valid, unready, writable, createTableIfMissing_of_missing missing, creation]
    exact ⟨_, rfl⟩

theorem ask_create_eq_ok : (World.ask storage i (.createNamespace name) w).1 = .ok () ↔
    ∃ e, w.store.create name = .ok e := by
  simp only [World.ask, storage]
  cases w.store.create name <;> simp

/-- A namespace that has been created can be entered, and there is nothing in it. -/
theorem created_empty {store : Database} (made : w.store.create name = .ok store)
    (bound : i < w.sessions.length) :
    let switched := World.ask storage i (.switchTo name) { w with store }
    switched.1 = .ok () ∧ ∀ key, (World.ask storage i (.option key) switched.2).1 =
      .ok ((w.session i).overrides.get? key) := by
  obtain ⟨valid, -, token, missing, -, -, rfl⟩ := create_ok made
  let store : Database := { w.store with
    tables := w.store.tables ++ [⟨tableName name, []⟩]
    registered := insertSorted name w.store.registered }
  have enters : storage.enter name store = .ok () := by
    have there : store.has name = true := by simp [store, has]
    exact enter_eq_ok.mpr ⟨valid, there⟩
  have found : store.find? (tableName name) = some ⟨tableName name, []⟩ := by
    rw [find?_added missing, if_pos (sameIgnoringCase_iff.mpr rfl)]
  have blank (key : String) : storage.read name key store = .ok none := read_found token found
  intro switched
  have moved : switched = (.ok (), World.setSession { w with store } i
      { w.session i with current := name }) := World.ask_switchTo storage i enters
  rw [moved]
  refine ⟨rfl, fun key => ?_⟩
  rw [World.ask_option, World.session_setSession (w := { w with store }) i bound]
  cases (w.session i).overrides.get? key with
  | some value => rfl
  | none => exact blank key

/-- In a database that is prepared, a session creates a namespace whose table is missing exactly if
its name can begin that of a table, the database can be written and the name is not listed. It can
then enter the namespace, where it reads nothing but its overrides. Of a database without tables a
migration makes one with a base namespace of this name exactly if the name can begin that of a
table. -/
theorem create_opens_iff {w : World Database} {i : Nat} {name : String}
    (bound : i < w.sessions.length) (valid : Namespace.check name = .ok ())
    (migrated : w.store.migrated = true) (missing : w.store.find? (tableName name) = none) :
    let created := World.ask storage i (.createNamespace name) w
    let switched := World.ask storage i (.switchTo name) created.2
    (created.1 = .ok () ↔
        BeginsTable name ∧ w.store.readOnly = false ∧ name ∉ w.store.registered) ∧
      (created.1 = .ok () → switched.1 = .ok () ∧
        ∀ key, (World.ask storage i (.option key) switched.2).1 =
          .ok ((w.session i).overrides.get? key)) ∧
      ∀ base, (∃ e, (Database.empty base).migrate name = .ok e) ↔ BeginsTable name := by
  intro created switched
  refine ⟨ask_create_eq_ok.trans (create_iff valid migrated missing), fun made => ?_, fun base => ?_⟩
  · have answered : created = (.ok (), created.2) := Prod.ext made rfl
    obtain ⟨store, creation, stored⟩ := World.ask_createNamespace_ok storage i answered
    have opened := created_empty creation bound
    rwa [← stored] at opened
  · exact (migrate_iff valid rfl rfl).trans (and_iff_left rfl)

/-- A database with its base namespace, and a session. -/
def newSite : World Database := after [.migrate "wp_", .connect] (blank "wp_" false ⟨[], []⟩)

/-- Two valid names that no namespace of a database can have, and one that is free. -/
theorem create_opens_iff_names :
    (World.ask storage 0 (.createNamespace "1run_") newSite).1 ≠ .ok () ∧
      (World.ask storage 0 (.createNamespace "SQLite_run_") newSite).1 ≠ .ok () ∧
      (¬∃ e, (Database.empty "wp_").migrate "1run_" = .ok e) ∧
      (World.ask storage 0 (.createNamespace "run1_") newSite).1 = .ok () := by
  have session : 0 < newSite.sessions.length := by decide +kernel
  obtain ⟨digit, -, migration⟩ := @create_opens_iff newSite 0 "1run_" session
    (by decide) rfl (by decide +kernel)
  obtain ⟨reserved, -⟩ := @create_opens_iff newSite 0 "SQLite_run_" session
    (by decide) rfl (by decide +kernel)
  obtain ⟨free, -⟩ := @create_opens_iff newSite 0 "run1_" session
    (by decide) rfl (by decide +kernel)
  refine ⟨fun made => ?_, fun made => ?_, fun made => ?_, free.mpr ?_⟩
  · exact absurd (digit.mp made).1 (by decide)
  · exact absurd (reserved.mp made).1 (by decide)
  · exact absurd ((migration "wp_").mp made) (by decide)
  · decide +kernel

end Database

end PluginAudit
