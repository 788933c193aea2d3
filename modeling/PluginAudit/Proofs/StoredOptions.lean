import PluginAudit.Proofs.JsonRoundTrip
import PluginAudit.Proofs.Registry

/-!
The options that are stored in a database. Whatever is done with the database and in its sessions,
under each key of a namespace stands what has been written there last.
-/

namespace PluginAudit.Database

variable {d e : Database} {name key : String} {call : Call}

/-- The text under a key of a namespace. -/
def text? (name key : String) (d : Database) : Option String :=
  (d.find? (tableName name)).bind (·.rows.lookup key)

/-- The value that a call writes under a key of a namespace. The case of the namespace's name does
not matter. -/
def Call.written? (name key : String) : Call → Option Json
  | .update n k value => if n.sameIgnoringCase name ∧ k = key then some value else none
  | _ => none

/-- The value that calls have written last under a key of a namespace. With the table of the
namespace all its options are gone. -/
def lastWritten (name key : String) : List Call → World Database → Option Json → Option Json
  | [], _, value => value
  | call :: rest, w, value =>
    let next := (answer call w).2
    lastWritten name key rest next
      (if (next.store.find? (tableName name)).isSome then (call.written? name key).or value
      else none)

theorem text?_eq_none (missing : d.find? (tableName name) = none) : text? name key d = none := by
  rw [text?, missing]
  rfl

theorem update_find? {n k : String} {v : Json} (updated : d.update n k v = .ok e) :
    e.find? (tableName name) = (d.find? (tableName name)).map fun u =>
      if n.sameIgnoringCase name then { u with rows := Entries.put k v.compact u.rows } else u := by
  obtain ⟨-, t, -, found, rfl⟩ := update_eq_ok.mp updated
  refine (find?_map_tables (fun u => by split <;> rfl) _).trans ?_
  cases there : d.find? (tableName name) with
  | none => rfl
  | some u =>
    -- The table that is written is the one found for the name, or it has no spelling of the name.
    have mine : u.name = t.name ↔ n.sameIgnoringCase name := by
      constructor
      · intro same
        have written := (find?_spec found).2
        have looked := (find?_spec there).2
        rw [same] at looked
        rw [Text.sameIgnoringCase_iff] at written looked
        rw [← same_tableName, Text.sameIgnoringCase_iff, ← written, looked]
      · intro spelled
        rw [find?_respelled d spelled] at found
        exact congrArg OptionTable.name (Option.some.inj (there.symm.trans found))
    rw [Option.map_some, Option.map_some]
    by_cases same : n.sameIgnoringCase name <;> simp [mine, same]

theorem update_text? {n k : String} {v : Json} (updated : d.update n k v = .ok e) :
    text? name key e =
      if n.sameIgnoringCase name ∧ k = key then
        (d.find? (tableName name)).map fun _ => v.compact
      else text? name key d := by
  rw [text?, update_find? updated, text?]
  cases d.find? (tableName name) with
  | none => simp
  | some u =>
    by_cases spelled : n.sameIgnoringCase name
    · simp only [Option.map_some, Option.bind_some, spelled, if_true, true_and,
        Entries.lookup_put, eq_comm (a := key)]
    · simp [spelled]

/-- An update of a namespace that is there is not refused. -/
theorem updates (sound : Sound d) (there : (d.find? (tableName name)).isSome) (key : String)
    (value : Json) : ∃ e, d.update name key value = .ok e := by
  obtain ⟨valid, token, -⟩ := sound.valid_of_found there
  obtain ⟨t, found⟩ := Option.isSome_iff_exists.mp there
  exact ⟨_, update_eq_ok.mpr ⟨valid, t, token, found, rfl⟩⟩

theorem read_text? (sound : Sound d) (there : (d.find? (tableName name)).isSome) (key : String) :
    d.read name key = .ok ((text? name key d).map decode) := by
  obtain ⟨-, token, -⟩ := sound.valid_of_found there
  obtain ⟨t, found⟩ := Option.isSome_iff_exists.mp there
  rw [read_found token found, text?, found]
  rfl

/-- A call that writes nothing under the key keeps the text there, as long as there is a table. -/
theorem text?_of_idle (idle : call.written? name key = none)
    (kept : (e.find? (tableName name)).isSome → text? name key e = text? name key d) :
    text? name key e = if (e.find? (tableName name)).isSome then
      ((call.written? name key).map Json.compact).or (text? name key d) else none := by
  rw [idle]
  split
  · next there => exact kept there
  · next missing => exact text?_eq_none (Option.not_isSome_iff_eq_none.mp missing)

/-- A table that is new holds no options. -/
theorem text?_added {n : String} (missing : d.find? (tableName n) = none)
    (added : e.find? (tableName name) =
      if n.sameIgnoringCase name then some ⟨tableName n, []⟩ else d.find? (tableName name)) :
    text? name key e = text? name key d := by
  rw [text?, added, text?]
  split
  · next spelled =>
    rw [← find?_respelled d spelled, missing]
    rfl
  · rfl

theorem text?_after (change : Change d call e) (sound : Sound d) :
    text? name key e = if (e.find? (tableName name)).isSome then
      ((call.written? name key).map Json.compact).or (text? name key d) else none := by
  cases change with
  | migrated h =>
    refine text?_of_idle rfl fun _ => ?_
    rcases migrate_ok h with ⟨rfl, -⟩ | ⟨-, -, -, -, ⟨-, rfl⟩ | ⟨missing, rfl⟩⟩
    · rfl
    · rfl
    · exact text?_added missing (find?_added missing d.registered name)
  | created h =>
    refine text?_of_idle rfl fun _ => ?_
    obtain ⟨-, -, -, missing, -, -, rfl⟩ := create_ok h
    exact text?_added missing (find?_added missing _ name)
  | dropped h =>
    refine text?_of_idle rfl fun there => ?_
    rw [drop_find? h] at there
    split at there
    · cases there
    · next apart => rw [text?, drop_find? h, if_neg apart, text?]
  | @updated n k v _ h =>
    rw [update_text? h, update_find? h, Option.isSome_map, Call.written?]
    cases found : d.find? (tableName name) with
    | none => simp [text?_eq_none found]
    | some t => split <;> simp
  | @notUpdated n k v cause h =>
    -- A refusal tells that there is no table of the name.
    by_cases there : (d.find? (tableName name)).isSome
    · refine text?_of_idle ?_ fun _ => rfl
      rw [Call.written?, if_neg]
      rintro ⟨spelled, -⟩
      rw [← find?_respelled d spelled] at there
      obtain ⟨f, updated⟩ := updates sound there k v
      cases updated.symm.trans h
    · rw [if_neg there]
      exact text?_eq_none (Option.not_isSome_iff_eq_none.mp there)
  | none idle =>
    refine text?_of_idle ?_ fun _ => rfl
    cases call with
    | update n k v => exact absurd rfl (idle n k v)
    | migrate base => rfl
    | connect => rfl
    | ask i c => rfl

theorem text?_lastWritten (calls : List Call) {w : World Database} (sound : Sound w.store)
    {value : Option Json} (stands : text? name key w.store = value.map Json.compact) :
    text? name key (after calls w).store =
      (lastWritten name key calls w value).map Json.compact := by
  induction calls generalizing w value with
  | nil => exact stands
  | cons call rest ih =>
    have change := answer_change call w
    refine ih (change.sound sound) ?_
    rw [text?_after change sound, stands]
    split
    · rw [Option.map_or]
    · rfl

theorem decode_compact {written : Option Json}
    (whole : ∀ v ∈ written, v.Exact ∧ v.depth < Json.nestingLimit) :
    (written.map Json.compact).map decode = written := by
  cases written with
  | none => rfl
  | some v =>
    obtain ⟨exact', shallow⟩ := whole v rfl
    rw [Option.map_some, Option.map_some, decode, Json.read?_compact exact' shallow]
    rfl

/-- Whatever has been done with a database and in its sessions, a session whose namespace is there
reads of every key its override or else what has been written last in that namespace, and what is
stored is the same with and without an override. Such a namespace can be written. -/
theorem option_last_written (base : String) (readOnly : Bool) (loader : Loader)
    (calls : List Call) (i : Nat) (key : String) :
    let w := after calls (blank base readOnly loader)
    let here := (w.session i).current
    let written := lastWritten here key calls (blank base readOnly loader) none
    (w.store.find? (tableName here)).isSome →
      (∀ v ∈ written, v.Exact ∧ v.depth < Json.nestingLimit) →
      (World.ask storage i (.option key) w).1 =
          .ok (((w.session i).overrides.get? key).or written) ∧
        w.store.stored here key = .ok written ∧
        ∀ k v, (answer (.update here k v) w).1 = none := by
  intro w here written there whole
  have blankSound : Sound (blank base readOnly loader).store :=
    ⟨fun t member => absurd member List.not_mem_nil, fun some => absurd rfl some⟩
  have sound : Sound w.store := after_sound calls blankSound
  have stands : text? here key w.store = written.map Json.compact :=
    text?_lastWritten calls blankSound rfl
  have read : w.store.read here key = .ok written := by
    rw [read_text? sound there, stands, decode_compact whole]
  refine ⟨?_, ?_, fun k v => ?_⟩
  · rw [World.ask_option]
    cases (w.session i).overrides.get? key with
    | some value => rfl
    | none => exact read
  · obtain ⟨valid, -⟩ := sound.valid_of_found there
    rw [stored, valid]
    exact read
  · obtain ⟨e, updated⟩ := updates sound there k v
    simp only [answer, updated]

/-- A namespace is left for another, both are written, and an option is overridden. -/
def writtenSite : List Call :=
  [.migrate "wp_", .connect, .update "wp_" "template" (.str "twentytwenty"),
    .ask 0 (.createNamespace "wppc_a_"), .ask 0 (.switchTo "wppc_a_"),
    .update "wppc_a_" "template" (.num (.int (-0x8000000000000000))),
    .update "WPPC_A_" "template" (.obj [("a", .arr [.null, .num (.int 0xFFFFFFFFFFFFFFFF)]),
      ("b", .str "\"\\\n")]),
    .update "wp_" "template" (.str "astra"), .update "wppc_a_" "stylesheet" (.bool true),
    .ask 0 (.addOverride "stylesheet" (.str "x"))]

theorem option_last_written_site :
    let w := after writtenSite (blank "wp_" false ⟨[], []⟩)
    (World.ask storage 0 (.option "template") w).1 =
        .ok (some (.obj [("a", .arr [.null, .num (.int 0xFFFFFFFFFFFFFFFF)]),
          ("b", .str "\"\\\n")])) ∧
      (World.ask storage 0 (.option "stylesheet") w).1 = .ok (some (.str "x")) ∧
      w.store.stored "wppc_a_" "stylesheet" = .ok (some (.bool true)) := by
  have nested : Json.Exact (.obj [("a", .arr [.null, .num (.int 0xFFFFFFFFFFFFFFFF)]),
      ("b", .str "\"\\\n")]) := by
    refine ⟨List.pairwise_pair.mpr ?_, ⟨True.intro, ⟨?_, ?_⟩, True.intro⟩, True.intro, True.intro⟩
    · decide +kernel
    · decide
    · decide
  obtain ⟨template, -⟩ := option_last_written "wp_" false ⟨[], []⟩ writtenSite 0 "template"
    (by decide +kernel) (by
      rintro v ⟨⟩
      exact ⟨nested, by decide⟩)
  obtain ⟨stylesheet, stored, -⟩ := option_last_written "wp_" false ⟨[], []⟩ writtenSite 0
    "stylesheet" (by decide +kernel) (by
      rintro v ⟨⟩
      exact ⟨True.intro, by decide⟩)
  exact ⟨template, stylesheet, stored⟩

end PluginAudit.Database
