import PluginAudit.Proofs.IsolationExchanges

/-!
Snapshots where reading changes nothing: what is captured, and later compared with it, are the
values that the watched options have at that time.
-/

namespace PluginAudit

theorem Program.exchanges_answered {I : Interface} {α σ : Type}
    (answer : (c : I.Call) → σ → I.Answer c × σ) {p : Program I α} {s : σ}
    (still : p.Avoids fun c => (answer c s).2 ≠ s) :
    ∀ x ∈ p.exchanges answer s, (answer x.call s).1 = x.answer := by
  induction p with
  | done a => nofun
  | ask c next ih =>
    have same : (answer c s).2 = s := Classical.not_not.mp still.1
    intro x member
    rcases List.mem_cons.mp member with rfl | later
    · rfl
    · rw [same] at later
      exact ih _ (still.2 _) x later

variable {σ : Type} {ask : (c : HostCall) → σ → c.Answer × σ} {s : σ}

namespace Readings

variable {keys : List String} {log : List (Exchange hostCalls)}
  {read : Except HostRefusal (List (String × Option Json))}

/-- If all keys can be read, they have been, each with its value. -/
theorem eq_ok (h : Readings keys log read)
    (answered : ∀ x ∈ log, (ask x.call s).1 = x.answer) {value : String → Option Json}
    (readable : ∀ key ∈ keys, (ask (.option key) s).1 = .ok (value key)) :
    read = .ok (keys.map fun key => (key, value key)) := by
  cases h with
  | all found keyed =>
    subst keyed
    have each : ∀ e ∈ found, (e.1, value e.1) = e := by
      intro e member
      have here : (ask (.option e.1) s).1 = .ok e.2 := answered _ (List.mem_map_of_mem member)
      have there := readable e.1 (List.mem_map_of_mem member)
      exact Prod.ext rfl (Except.ok.inj (there.symm.trans here))
    rw [List.map_map]
    exact congrArg Except.ok ((List.map_congr_left each).trans (List.map_id found)).symm
  | broken found key rest cause order =>
    have refused : (ask (.option key) s).1 = .error cause :=
      answered ⟨.option key, .error cause⟩ (by simp)
    have there := readable key (by simp [order])
    cases refused.symm.trans there

/-- Some key cannot be read, or all have been read with values of theirs. -/
theorem cases_answered (h : Readings keys log read)
    (answered : ∀ x ∈ log, (ask x.call s).1 = x.answer) (distinct : keys.Nodup) :
    (∃ key ∈ keys, ∃ cause, (ask (.option key) s).1 = .error cause ∧ read = .error cause) ∨
      ∃ value : String → Option Json,
        ∀ key ∈ keys, (ask (.option key) s).1 = .ok (value key) := by
  cases h with
  | all found keyed =>
    subst keyed
    refine .inr ⟨fun key => (found.lookup key).join, fun key member => ?_⟩
    obtain ⟨e, there, rfl⟩ := List.mem_map.mp member
    have here : found.lookup e.1 = some e.2 := Entries.lookup_of_mem distinct there
    simp only [here, Option.join_some]
    exact answered _ (List.mem_map_of_mem there)
  | broken found key rest cause order =>
    have refused := answered ⟨.option key, .error cause⟩ (by simp)
    exact .inl ⟨key, by simp [order], cause, refused, rfl⟩

end Readings

namespace Isolation

/-- The watched options can be read, and these are their values. -/
def WatchedAs (ask : (c : HostCall) → σ → c.Answer × σ) (s : σ) (value : String → Option Json) :
    Prop :=
  ∀ key ∈ watchedKeys, (ask (.option key) s).1 = .ok (value key)

theorem WatchedAs.eq_read {value : String → Option Json} (h : WatchedAs ask s value) :
    ∀ key ∈ watchedKeys, value key = (ask (.option key) s).1.toOption.join := by
  intro key member
  rw [h key member]
  rfl

/-- The keys whose values differ, in the order in which they are told. -/
def changedKeys (before after : String → Option Json) : List String :=
  comparedKeys.filter fun key => !Json.sameOption (after key) (before key)

theorem changedKeys_eq_nil {before after : String → Option Json} :
    changedKeys before after = [] ↔
      ∀ key ∈ watchedKeys, Json.sameOption (after key) (before key) = true := by
  simp [changedKeys, comparedKeys_perm.mem_iff]

theorem changedKeys_congr {before after was is : String → Option Json}
    (first : ∀ key ∈ watchedKeys, before key = was key)
    (last : ∀ key ∈ watchedKeys, after key = is key) :
    changedKeys before after = changedKeys was is := by
  refine List.filter_congr fun key member => ?_
  have watched : key ∈ watchedKeys := comparedKeys_perm.mem_iff.mp member
  rw [first key watched, last key watched]

theorem keys_valued (keys : List String) (value : String → Option Json) :
    (keys.map fun key => (key, value key)).map Prod.fst = keys :=
  List.map_map.trans (List.map_id keys)

/-- The snapshot of these values. -/
def snapshotOf (value : String → Option Json) : Snapshot :=
  ⟨Entries.ofList (watchedKeys.map fun key => (key, value key))⟩

theorem changed_snapshot (before after : String → Option Json) :
    Snapshot.changed (watchedKeys.map fun key => (key, before key))
      (comparedKeys.map fun key => (key, after key)) = changedKeys before after := by
  have captured : ∀ key ∈ comparedKeys,
      (watchedKeys.map fun key => (key, before key)).lookup key = some (before key) := by
    intro key member
    refine Entries.lookup_of_mem ((keys_valued _ _).symm ▸ watchedKeys_nodup) ?_
    exact List.mem_map_of_mem (comparedKeys_perm.mem_iff.mp member)
  rw [Snapshot.changed, List.filter_map, List.map_map]
  refine Eq.trans (List.map_id' _) (List.filter_congr fun key member => ?_)
  simp only [Function.comp_apply, captured key member, Option.join_some]

theorem capture_ok (still : ∀ c : HostCall, c.Reads → (ask c s).2 = s) {snapshot : Snapshot}
    (captured : ((Snapshot.capture watchedKeys).run ask s).1 = .ok snapshot) :
    ∃ value, WatchedAs ask s value ∧ snapshot = snapshotOf value := by
  obtain ⟨read, readings, result⟩ := Snapshot.capture_exchanges ask watchedKeys s
  have answered := Program.exchanges_answered ask
    ((Snapshot.captureFrom_reads [] watchedKeys).mono fun c moved reads => moved (still c reads))
  rcases readings.cases_answered answered watchedKeys_nodup with
    ⟨key, -, cause, -, rfl⟩ | ⟨value, readable⟩
  · cases captured.symm.trans result
  · refine ⟨value, readable, ?_⟩
    rw [result, readings.eq_ok answered readable] at captured
    exact (Except.ok.inj captured).symm

/-- What a verification of a snapshot of these values can tell. -/
inductive Verified (ask : (c : HostCall) → σ → c.Answer × σ) (s : σ)
    (before : String → Option Json) : List String → Prop
  | restored (after : String → Option Json) (read : WatchedAs ask s after)
      (same : changedKeys before after = []) : Verified ask s before []
  | changed (after : String → Option Json) (read : WatchedAs ask s after)
      (some : changedKeys before after ≠ []) :
      Verified ask s before ["configuration not restored for keys: " ++
        String.intercalate ", " (changedKeys before after)]
  | unread (key : String) (member : key ∈ watchedKeys) (cause : HostRefusal)
      (refused : (ask (.option key) s).1 = .error cause) :
      Verified ask s before ["could not verify configuration: " ++ cause.message]

theorem verify_cases (still : ∀ c : HostCall, c.Reads → (ask c s).2 = s)
    (before : String → Option Json) :
    Verified ask s before ((verify (snapshotOf before)).run ask s).1 := by
  obtain ⟨read, readings, told⟩ := verify_exchanges ask
    (keys_valued watchedKeys before) s
  have answered := Program.exchanges_answered ask
    ((verify_reads (snapshotOf before)).mono fun c moved reads => moved (still c reads))
  rw [snapshotOf, told]
  rcases readings.cases_answered answered comparedKeys_nodup with
    ⟨key, member, cause, refused, rfl⟩ | ⟨after, readable⟩
  · exact .unread key (comparedKeys_perm.mem_iff.mp member) cause refused
  · rw [readings.eq_ok answered readable, differences, changed_snapshot]
    have watched : WatchedAs ask s after :=
      fun key member => readable key (comparedKeys_perm.mem_iff.mpr member)
    cases changed : changedKeys before after with
    | nil => exact .restored after watched changed
    | cons key rest =>
      have some : changedKeys before after ≠ [] := by simp [changed]
      have all := Verified.changed after watched some
      rwa [changed] at all

end Isolation

end PluginAudit
