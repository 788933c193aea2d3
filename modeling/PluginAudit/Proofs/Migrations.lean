import PluginAudit.Proofs.MigrationScript
import PluginAudit.Proofs.Registry

/-!
Migrations of one database for several base namespaces. A migration keeps all options; it prepares
the database for a base namespace only if it is the first one, or if that namespace is there.
-/

namespace PluginAudit.Database

variable {d e : Database} {p q : String}

/-- The database with a base namespace. -/
def based (base : String) (d : Database) : Database := { d with base }

/-- Does what is called for on a host with a base namespace of its own. -/
def answerFor (base : String) (call : Call) (w : World Database) :
    Option HostRefusal × World Database :=
  answer call { w with store := w.store.based base }

/-- Calls of several hosts that share a database, each with the base namespace of its host. -/
def afterAll (calls : List (String × Call)) (w : World Database) : World Database :=
  calls.foldl (fun w c => (answerFor c.1 c.2 w).2) w

/-- There are no two tables that a database takes for the same. -/
def Apart (tables : List OptionTable) : Prop :=
  tables.Pairwise fun t u => t.name.sameIgnoringCase u.name = false

/-- A table is found by its exact name, since no other one is a spelling of it. -/
theorem Apart.find?_exact {tables : List OptionTable} (apart : Apart tables) {t : OptionTable}
    (member : t ∈ tables) : tables.find? (·.name.sameIgnoringCase t.name) = some t := by
  induction tables with
  | nil => cases member
  | cons u rest ih =>
    obtain ⟨others, later⟩ := List.pairwise_cons.mp apart
    rcases List.mem_cons.mp member with rfl | there
    · rw [List.find?_cons, Text.sameIgnoringCase_iff.mpr rfl]
    · rw [List.find?_cons, others t there]
      exact ih later there

/-- What holds of every database that hosts have used. -/
structure Used (d : Database) : Prop where
  sound : Sound d
  apart : Apart d.tables
  unlisted : d.migrated = false → d.registered = []

theorem Apart.added (apart : Apart d.tables) {name : String} (missing : d.find? name = none) :
    Apart (d.tables ++ [⟨name, []⟩]) := by
  refine List.pairwise_append.mpr ⟨apart, List.pairwise_singleton _ _, fun t member u last => ?_⟩
  rw [List.mem_singleton.mp last]
  exact Bool.eq_false_iff.mpr (List.find?_eq_none.mp missing t member)

theorem Change.used {call : Call} (change : Change d call e) (used : Used d) : Used e := by
  refine ⟨change.sound used.sound, ?_, ?_⟩
  · cases change with
    | migrated h =>
      rcases migrate_ok h with ⟨rfl, -⟩ | ⟨-, -, -, -, ⟨-, rfl⟩ | ⟨missing, rfl⟩⟩
      · exact used.apart
      · exact used.apart
      · exact used.apart.added missing
    | created h =>
      obtain ⟨-, -, -, missing, -, -, rfl⟩ := create_ok h
      exact used.apart.added missing
    | dropped h =>
      obtain ⟨-, -, -, -, -, rfl⟩ := drop_eq_ok.mp h
      exact used.apart.filter _
    | updated h =>
      obtain ⟨-, t, -, -, rfl⟩ := update_eq_ok.mp h
      refine List.pairwise_map.mpr (used.apart.imp fun {u v} different => ?_)
      split <;> split <;> exact different
    | notUpdated h => exact used.apart
    | none h => exact used.apart
  · cases change with
    | migrated h =>
      rcases migrate_ok h with ⟨rfl, -⟩ | ⟨-, -, -, -, ⟨-, rfl⟩ | ⟨-, rfl⟩⟩
      · exact used.unlisted
      · exact fun unready => by cases unready
      · exact fun unready => by cases unready
    | created h =>
      obtain ⟨-, -, -, -, migrated, -, rfl⟩ := create_ok h
      exact fun unready => absurd (migrated.symm.trans unready) (by decide)
    | dropped h =>
      obtain ⟨-, -, -, -, migrated, rfl⟩ := drop_eq_ok.mp h
      exact fun unready => absurd (migrated.symm.trans unready) (by decide)
    | updated h =>
      obtain ⟨-, -, -, -, rfl⟩ := update_eq_ok.mp h
      exact used.unlisted
    | notUpdated h => exact used.unlisted
    | none h => exact used.unlisted

theorem Used.based (used : Used d) (base : String) : Used (d.based base) :=
  ⟨⟨used.sound.named, used.sound.migrated⟩, used.apart, used.unlisted⟩

theorem afterAll_used (calls : List (String × Call)) {w : World Database} (used : Used w.store) :
    Used (afterAll calls w).store := by
  induction calls generalizing w with
  | nil => exact used
  | cons c rest ih =>
    exact ih ((answer_change c.2 { w with store := w.store.based c.1 }).used (used.based c.1))

theorem blank_used (base : String) (readOnly : Bool) (loader : Loader) :
    Used (blank base readOnly loader).store :=
  ⟨⟨fun _ member => absurd member List.not_mem_nil, fun some => absurd rfl some⟩,
    .nil, fun _ => rfl⟩

namespace Used

theorem named_exactly (used : Used d) (there : d.has p = true) :
    ∃ t, d.find? (tableName p) = some t ∧ t.name = tableName p ∧
      checkToken (tableName p) = .ok () := by
  obtain ⟨t, member, same⟩ := List.any_eq_true.mp there
  have named : t.name = tableName p := beq_iff_eq.mp same
  obtain ⟨name, spelled, -, token⟩ := used.sound.named t member
  have exact' : name = p := tableName_injective (spelled.symm.trans named)
  exact ⟨t, named ▸ used.apart.find?_exact member, named, exact' ▸ token⟩

theorem tables_unmigrated (used : Used d) (unready : d.migrated = false) : d.tables = [] := by
  by_contra some
  exact Bool.false_ne_true (unready.symm.trans (used.sound.migrated some))

end Used

/-- A host with this base namespace opens a session, which reads what is stored there. -/
def Opens (base : String) (w : World Database) : Prop :=
  ∃ i opened t, storage.host.connect { w with store := w.store.based base } = (.ok i, opened) ∧
    w.store.find? (tableName base) = some t ∧ t.name = tableName base ∧
      ∀ key, (storage.host.ask i (.option key) opened).1 = .ok ((t.rows.lookup key).map decode)

theorem connect_based (w : World Database) :
    storage.host.connect { w with store := w.store.based p } =
      if w.store.has p then
        (.ok w.sessions.length,
          { w with store := w.store.based p, sessions := w.sessions ++ [⟨p, .empty⟩] })
      else
        (.error (.connection ("base namespace " ++ p ++ " is missing, run migrations first")),
          { w with store := w.store.based p }) := by
  have opening : storage.ready (w.store.based p) = if w.store.has p then .ok () else
      .error (.connection ("base namespace " ++ p ++ " is missing, run migrations first")) := rfl
  simp only [Storage.host, World.connect, opening]
  cases w.store.has p <;> rfl

theorem opens_iff {w : World Database} (used : Used w.store) :
    Opens p w ↔ w.store.has p = true := by
  constructor
  · rintro ⟨i, opened, t, connected, -⟩
    rw [connect_based] at connected
    split at connected
    · assumption
    · cases connected
  · intro there
    obtain ⟨t, found, named, token⟩ := used.named_exactly there
    refine ⟨_, _, t, (connect_based w).trans (if_pos there), found, named, fun key => ?_⟩
    have session : World.session
        { w with store := w.store.based p, sessions := w.sessions ++ [⟨p, .empty⟩] }
        w.sessions.length = ⟨p, .empty⟩ := by
      simp [World.session]
    have value : (w.store.based p).read p key = .ok ((t.rows.lookup key).map decode) :=
      read_found token found
    simp only [Storage.host, World.ask, session]
    exact value

/-- After a migration that succeeds there is the base namespace, unless the database had been
migrated before for others only. -/
theorem has_migrated (used : Used d) (migrated : d.migrate p = .ok e) :
    e.has p = true ↔ (d.migrated = true → d.has p = true) := by
  rcases migrate_ok migrated with ⟨rfl, ready⟩ | ⟨-, -, -, unready, made⟩
  · exact ⟨fun there _ => there, fun there => there ready⟩
  · have empty := used.tables_unmigrated unready
    have missing : d.find? (tableName p) = none := by simp [find?, empty]
    obtain ⟨there, -⟩ | ⟨-, rfl⟩ := made
    · rw [missing] at there
      cases there
    · simp [has, unready]

theorem migrate_keeps (migrated : d.migrate p = .ok e) :
    e.registered = d.registered ∧
      ∀ q t, d.find? (tableName q) = some t → e.find? (tableName q) = some t := by
  rcases migrate_ok migrated with ⟨rfl, -⟩ | ⟨-, -, -, -, ⟨-, rfl⟩ | ⟨-, rfl⟩⟩
  · exact ⟨rfl, fun _ _ found => found⟩
  · exact ⟨rfl, fun _ _ found => found⟩
  · refine ⟨rfl, fun q t found => ?_⟩
    unfold find? at found ⊢
    rw [List.find?_append, found]
    rfl

/-- On a database that any hosts have used, a migration keeps every option of every namespace, and
a statement that fails leaves everything as it was. Afterwards a host can open sessions in the base
namespace exactly if the database had not been migrated before or that namespace was there. -/
theorem migrate_opens_iff (calls : List (String × Call)) (base : String) (readOnly : Bool)
    (loader : Loader) (p : String) :
    let w := afterAll calls (blank base readOnly loader)
    (∀ e, w.store.migrate p = .ok e →
      e.registered = w.store.registered ∧
        (∀ q t, w.store.find? (tableName q) = some t → e.find? (tableName q) = some t) ∧
          (Opens p { w with store := e } ↔ (w.store.migrated = true → w.store.has p = true))) ∧
      (Schema.ofDatabase w.store).migrate p =
        match w.store.migrate p with
        | .ok e => (.ok (), .ofDatabase e)
        | .error cause => (.error cause, .ofDatabase w.store) := by
  intro w
  have used : Used w.store := afterAll_used calls (blank_used base readOnly loader)
  refine ⟨fun e migrated => ?_, Schema.migrate_ofDatabase used.unlisted⟩
  obtain ⟨registered, kept⟩ := migrate_keeps migrated
  have usedAfter : Used e := (Change.migrated migrated).used used
  have opens : Opens p { w with store := e } ↔ e.has p = true := opens_iff usedAfter
  exact ⟨registered, kept, opens.trans (has_migrated used migrated)⟩

/-- A migration for a second base namespace succeeds, and no host can open a session there. -/
theorem migrate_opens_first_only :
    let w := afterAll [("shop_", .migrate "wp_")] (blank "shop_" false ⟨[], []⟩)
    ∃ e, w.store.migrate "shop_" = .ok e ∧ ¬Opens "shop_" { w with store := e } := by
  intro w
  have migrated : w.store.migrate "shop_" = .ok w.store := rfl
  obtain ⟨opening, -⟩ :=
    migrate_opens_iff [("shop_", .migrate "wp_")] "shop_" false ⟨[], []⟩ "shop_"
  obtain ⟨-, -, opens⟩ := opening w.store migrated
  have absent : w.store.has "shop_" = false := by decide +kernel
  refine ⟨w.store, migrated, fun opened => ?_⟩
  exact Bool.false_ne_true (absent.symm.trans (opens.mp opened rfl))

end PluginAudit.Database
