import PluginAudit.Host.Database

/-!
What the statements of a database do to its tables, and when the calls of a store are answered.
-/

namespace PluginAudit.Database

variable {d e : Database} {current name table key : String} {value : Json}

theorem bind_eq_ok {ε α β : Type} {x : Except ε α} {f : α → Except ε β} {b : β} :
    (x >>= f) = .ok b ↔ ∃ a, x = .ok a ∧ f a = .ok b := by
  cases x <;> simp [bind, Except.bind]

theorem mapped_eq_ok {x : Except SqlError Database} :
    (match x with
      | .ok d => return d
      | .error cause => throw cause.toHost : Except HostRefusal Database) = .ok e ↔ x = .ok e := by
  cases x <;> simp [pure, Except.pure, throw, throwThe, MonadExceptOf.throw]

theorem createTable_eq_ok : d.createTable table = .ok e ↔ checkToken table = .ok () ∧
    isReserved table = false ∧ d.find? table = none ∧ d.readOnly = false ∧
      e = { d with tables := d.tables ++ [⟨table, []⟩] } := by
  unfold createTable
  rw [bind_eq_ok]
  constructor
  · rintro ⟨_, token, h⟩
    split at h
    · cases h
    · rename_i free
      split at h
      · cases h
      · rename_i missing
        split at h
        · cases h
        · rename_i writable
          cases h
          exact ⟨token, by simpa using free, by simpa using missing, by simpa using writable, rfl⟩
  · rintro ⟨token, free, missing, writable, rfl⟩
    refine ⟨(), token, ?_⟩
    rw [free, missing, writable]
    rfl

theorem register_eq_ok : d.register name = .ok e ↔
    d.migrated = true ∧ name ∉ d.registered ∧
      e = { d with registered := insertSorted name d.registered } := by
  unfold register
  cases migrated : d.migrated with
  | false => simp
  | true =>
    by_cases listed : name ∈ d.registered
    · simp [listed]
    · simp [listed, eq_comm]

theorem unregister_eq_ok : d.unregister name = .ok e ↔
    d.migrated = true ∧ e = { d with registered := d.registered.filter (· != name) } := by
  unfold unregister
  split
  · rename_i migrated
    simp only [migrated, Except.ok.injEq, true_and, eq_comm]
  · rename_i unready
    simp only [unready, reduceCtorEq, false_and]

theorem dropTable_eq_ok : d.dropTable table = .ok e ↔ checkToken table = .ok () ∧
    e = { d with tables := d.tables.filter (!·.name.sameIgnoringCase table) } := by
  unfold dropTable
  rw [bind_eq_ok]
  constructor
  · rintro ⟨_, token, h⟩
    cases h
    exact ⟨token, rfl⟩
  · rintro ⟨token, rfl⟩
    exact ⟨(), token, rfl⟩

theorem create_eq_ok : d.create name = .ok e ↔
    Namespace.check name = .ok () ∧ d.has name = false ∧
      (checkToken (tableName name) = .ok () ∧ isReserved (tableName name) = false ∧
        d.find? (tableName name) = none ∧ d.readOnly = false) ∧
      d.migrated = true ∧ name ∉ d.registered ∧
      e = { d with
        tables := d.tables ++ [⟨tableName name, []⟩]
        registered := insertSorted name d.registered } := by
  unfold create
  rw [bind_eq_ok]
  constructor
  · rintro ⟨_, valid, h⟩
    split at h
    · cases h
    · rename_i new
      obtain ⟨made, creation, registration⟩ := bind_eq_ok.mp (mapped_eq_ok.mp h)
      obtain ⟨token, free, missing, writable, rfl⟩ := createTable_eq_ok.mp creation
      obtain ⟨migrated, unlisted, rfl⟩ := register_eq_ok.mp registration
      exact ⟨valid, by simpa using new, ⟨token, free, missing, writable⟩, migrated, unlisted, rfl⟩
  · rintro ⟨valid, new, ⟨token, free, missing, writable⟩, migrated, unlisted, rfl⟩
    refine ⟨(), valid, ?_⟩
    rw [new, if_neg Bool.false_ne_true]
    refine mapped_eq_ok.mpr (bind_eq_ok.mpr ?_)
    exact ⟨_, createTable_eq_ok.mpr ⟨token, free, missing, writable, rfl⟩,
      register_eq_ok.mpr ⟨migrated, unlisted, rfl⟩⟩

theorem create_ok (h : d.create name = .ok e) :
    Namespace.check name = .ok () ∧ d.has name = false ∧ checkToken (tableName name) = .ok () ∧
      d.find? (tableName name) = none ∧ d.migrated = true ∧ name ∉ d.registered ∧
      e = { d with
        tables := d.tables ++ [⟨tableName name, []⟩]
        registered := insertSorted name d.registered } := by
  obtain ⟨valid, new, ⟨token, -, missing, -⟩, registration⟩ := create_eq_ok.mp h
  exact ⟨valid, new, token, missing, registration⟩

theorem enter_eq_ok : d.enter name = .ok () ↔
    Namespace.check name = .ok () ∧ d.has name = true := by
  unfold enter
  rw [bind_eq_ok]
  constructor
  · rintro ⟨_, valid, h⟩
    split at h
    · exact ⟨valid, ‹_›⟩
    · cases h
  · rintro ⟨valid, there⟩
    exact ⟨(), valid, if_pos there⟩

theorem drop_eq_ok : d.drop current name = .ok e ↔
    Namespace.check name = .ok () ∧ name ≠ d.base ∧ current ≠ name ∧
      checkToken (tableName name) = .ok () ∧ d.migrated = true ∧
      e = { d with
        tables := d.tables.filter (!·.name.sameIgnoringCase (tableName name))
        registered := d.registered.filter (· != name) } := by
  unfold drop
  rw [bind_eq_ok]
  constructor
  · rintro ⟨_, valid, h⟩
    split at h
    · cases h
    · split at h
      · cases h
      · rename_i notBase notCurrent
        obtain ⟨left, dropped, removed⟩ := bind_eq_ok.mp (mapped_eq_ok.mp h)
        obtain ⟨token, rfl⟩ := dropTable_eq_ok.mp dropped
        obtain ⟨migrated, rfl⟩ := unregister_eq_ok.mp removed
        exact ⟨valid, notBase, notCurrent, token, migrated, rfl⟩
  · rintro ⟨valid, notBase, notCurrent, token, migrated, rfl⟩
    refine ⟨(), valid, ?_⟩
    rw [if_neg notBase, if_neg notCurrent]
    refine mapped_eq_ok.mpr (bind_eq_ok.mpr ?_)
    exact ⟨_, dropTable_eq_ok.mpr ⟨token, rfl⟩, unregister_eq_ok.mpr ⟨migrated, rfl⟩⟩

theorem select_eq_ok {t : OptionTable} :
    d.select table = .ok t ↔ checkToken table = .ok () ∧ d.find? table = some t := by
  unfold select
  rw [bind_eq_ok]
  constructor
  · rintro ⟨_, token, h⟩
    split at h
    · rename_i found
      cases h
      exact ⟨token, found⟩
    · cases h
  · rintro ⟨token, found⟩
    refine ⟨(), token, ?_⟩
    rw [found]
    rfl

theorem read_found {t : OptionTable} (token : checkToken (tableName current) = .ok ())
    (found : d.find? (tableName current) = some t) :
    d.read current key = .ok ((t.rows.lookup key).map decode) := by
  have selected := select_eq_ok.mpr ⟨token, found⟩
  simp only [Database.read, selected]

theorem update_eq_ok : d.update name key value = .ok e ↔
    Namespace.check name = .ok () ∧ ∃ t, checkToken (tableName name) = .ok () ∧
      d.find? (tableName name) = some t ∧
      e = { d with tables := d.tables.map fun u =>
        if u.name = t.name then { u with rows := Entries.put key value.compact u.rows } else u } := by
  unfold update
  rw [bind_eq_ok]
  constructor
  · rintro ⟨_, valid, h⟩
    unfold writeText at h
    split at h
    · rename_i t selected
      obtain ⟨token, found⟩ := select_eq_ok.mp selected
      cases h
      exact ⟨valid, t, token, found, rfl⟩
    · cases h
  · rintro ⟨valid, t, token, found, rfl⟩
    refine ⟨(), valid, ?_⟩
    unfold writeText
    rw [select_eq_ok.mpr ⟨token, found⟩]

theorem migrate_ok {base : String} (h : d.migrate base = .ok e) :
    e = d ∧ d.migrated = true ∨
      Namespace.check base = .ok () ∧ checkToken (tableName base) = .ok () ∧
        d.readOnly = false ∧ d.migrated = false ∧
        ((d.find? (tableName base)).isSome = true ∧ e = { d with migrated := true } ∨
          d.find? (tableName base) = none ∧
            e = { d with tables := d.tables ++ [⟨tableName base, []⟩], migrated := true }) := by
  obtain ⟨_, valid, h⟩ := bind_eq_ok.mp h
  split at h
  · rename_i migrated
    cases h
    exact .inl ⟨rfl, migrated⟩
  · rename_i unready
    split at h
    · cases h
    · rename_i writable
      refine .inr ⟨valid, ?_⟩
      split at h
      · rename_i made creation
        cases h
        obtain ⟨_, token, creation⟩ := bind_eq_ok.mp creation
        refine ⟨token, by simpa using writable, by simpa using unready, ?_⟩
        split at creation
        · rename_i there
          cases creation
          exact .inl ⟨there, rfl⟩
        · obtain ⟨-, -, missing, -, rfl⟩ := createTable_eq_ok.mp creation
          exact .inr ⟨missing, rfl⟩
      · cases h

theorem drop_gone (h : d.drop current name = .ok e) : e.has name = false := by
  obtain ⟨-, -, -, -, -, rfl⟩ := drop_eq_ok.mp h
  refine Bool.eq_false_iff.mpr fun there => ?_
  simp only [has, List.any_filter, List.any_eq_true, Bool.and_eq_true, beq_iff_eq] at there
  obtain ⟨t, -, apart, same⟩ := there
  rw [same] at apart
  simp [String.sameIgnoringCase, Text.sameIgnoringCase] at apart

end PluginAudit.Database
