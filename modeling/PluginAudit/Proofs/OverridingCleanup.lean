import PluginAudit.Proofs.IsolationExchanges
import PluginAudit.Proofs.OverrideCalls

/-!
The cleanup of a preparation that overrides options. Whatever is added and removed in the session
while the preparation is in force, the cleanup asks for all of its overrides to be removed, leaves
all others as they are, and tells how many of its own were no longer there.
-/

namespace PluginAudit

/-- The call of a session by which its overrides are changed. -/
def OverrideCall.hostCall : OverrideCall → HostCall
  | .add key value => .addOverride key value
  | .remove id => .removeOverride id

namespace Overrides

/-- An override that is there stays until it is removed. -/
theorem holds_after {o : Overrides} {v : Override} (there : v ∈ o.live) (old : v.id < o.nextId)
    (calls : List OverrideCall) :
    (o.after calls).holds v.id = !calls.any (·.removes v.id) := by
  rw [Bool.eq_iff_iff, Bool.not_eq_true', ← Bool.not_eq_true, OverrideCall.any_removes, holds_iff]
  constructor
  · rintro ⟨w, member, same⟩ removed
    exact removed_after old removed w member same
  · intro kept
    refine ⟨v, ?_, rfl⟩
    rw [after_live]
    refine List.mem_append_left _ (List.mem_filter.mpr ⟨there, ?_⟩)
    rwa [Bool.not_eq_true', ← Bool.not_eq_true, OverrideCall.any_removes]

theorem holds_remove (o : Overrides) {id other : Nat} (apart : other ≠ id) :
    (o.remove id).holds other = o.holds other := by
  rw [Bool.eq_iff_iff, holds_iff, holds_iff]
  refine exists_congr fun v => ?_
  rw [remove, List.mem_filter]
  constructor
  · rintro ⟨⟨there, -⟩, same⟩
    exact ⟨there, same⟩
  · rintro ⟨there, rfl⟩
    exact ⟨⟨there, by simpa using apart⟩, rfl⟩

/-- Overrides that are added together, with the numbers that they are given. -/
def numberedFrom (id : Nat) (values : List (String × Json)) : List Override :=
  List.zipWith (fun e id => ⟨id, e.1, e.2⟩) values (List.range' id values.length)

theorem addAll_live_eq (o : Overrides) (values : List (String × Json)) :
    (o.addAll values).live = o.live ++ numberedFrom o.nextId values := by
  induction values generalizing o with
  | nil => simp [addAll, numberedFrom]
  | cons e rest ih =>
    change ((o.add e.1 e.2).addAll rest).live = _
    rw [ih]
    simp [add, numberedFrom, List.range'_succ]

theorem numberedFrom_ids (id : Nat) (values : List (String × Json)) :
    (numberedFrom id values).map Override.id = List.range' id values.length := by
  induction values generalizing id with
  | nil => rfl
  | cons e rest ih => exact congrArg (id :: ·) (ih (id + 1))

/-- Of the overrides that have been added together those are missing later that have been removed. -/
theorem missing_after {o : Overrides} (numbered : o.Numbered) (values : List (String × Json))
    (calls : List OverrideCall) :
    ((List.range' o.nextId values.length).countP fun id =>
        !((o.addAll values).after calls).holds id) =
      (List.range' o.nextId values.length).countP fun id => calls.any (·.removes id) := by
  refine List.countP_congr fun id member => ?_
  rw [← numberedFrom_ids] at member
  obtain ⟨v, new, rfl⟩ := List.mem_map.mp member
  have there : v ∈ (o.addAll values).live := by
    rw [addAll_live_eq]
    exact List.mem_append_right _ new
  rw [holds_after there (addAll_numbered numbered values v there), Bool.not_not]

end Overrides

namespace Preparation

variable {σ α : Type} (host : Host σ) (session : Nat)

/-- A step asks the host what its program asks. -/
theorem exchanges_inStep (p : Program hostCalls α) (s : Run.Scene σ) :
    (p.inStep.exchanges (Run.answerStep host session) s).map Exchange.call =
      (p.exchanges (host.ask session) s.1).map fun e => StepCall.host e.call := by
  induction p generalizing s with
  | done a => rfl
  | ask c next ih => exact congrArg (_ :: ·) (ih _ _)

end Preparation

namespace World

variable {σ : Type} (storage : Storage σ) (i : Nat)

/-- The world after calls in a session that change its overrides. -/
def changed (w : World σ) (calls : List OverrideCall) : World σ :=
  calls.foldl (fun w c => (ask storage i c.hostCall w).2) w

/-- The world with other overrides in the session. -/
def override (w : World σ) (o : Overrides) : World σ :=
  w.setSession i { w.session i with overrides := o }

variable {storage i} {w : World σ} (bound : i < w.sessions.length)
include bound

theorem session_override (o : Overrides) :
    (w.override i o).session i = { w.session i with overrides := o } :=
  session_setSession i bound _

theorem override_override (o p : Overrides) : (w.override i o).override i p = w.override i p := by
  rw [override, session_override bound, override, setSession_setSession]
  rfl

theorem changed_eq (calls : List OverrideCall) :
    w.changed storage i calls = w.override i ((w.session i).overrides.after calls) := by
  induction calls generalizing w with
  | nil => exact (setSession_session i bound).symm
  | cons c later ih =>
    have step : (ask storage i c.hostCall w).2 = w.override i ((w.session i).overrides.apply c) := by
      cases c <;> rfl
    have opened : i < (w.override i ((w.session i).overrides.apply c)).sessions.length := by
      simpa [override] using bound
    change changed storage i (ask storage i c.hostCall w).2 later = _
    rw [step, ih opened, session_override bound, override_override bound]
    rfl

/-- Removing overrides counts those that are missing and leaves the others. -/
theorem run_removeAll_eq {ids : List Nat} (distinct : ids.Nodup) :
    (Preparation.removeAll ids).run (ask storage i) w =
      (ids.countP fun id => !(w.session i).overrides.holds id,
        w.override i { (w.session i).overrides with
          live := Overrides.without ids (w.session i).overrides.live }) := by
  induction ids generalizing w with
  | nil =>
    rw [Overrides.without_nil]
    exact congrArg (Prod.mk 0) (setSession_session i bound).symm
  | cons id rest ih =>
    obtain ⟨new, others⟩ := List.nodup_cons.mp distinct
    have opened : i < (w.override i ((w.session i).overrides.remove id)).sessions.length := by
      simpa [override] using bound
    have unmoved : (rest.countP fun other => !((w.session i).overrides.remove id).holds other) =
        rest.countP fun other => !(w.session i).overrides.holds other := by
      refine List.countP_congr fun other member => ?_
      have apart : other ≠ id := by
        rintro rfl
        exact new member
      rw [Overrides.holds_remove _ apart]
    have later := ih opened others
    rw [session_override bound, override_override bound, unmoved, Overrides.remove_live] at later
    have first : ask storage i (.removeOverride id) w =
        ((w.session i).overrides.holds id,
          w.override i ((w.session i).overrides.remove id)) := rfl
    simp only [Preparation.removeAll, Program.run_ask, Program.run_bind, Program.run_pure, first,
      later, List.countP_cons]
    cases (w.session i).overrides.holds id <;> rfl

end World

namespace Preparation

open World

variable {σ : Type} (storage : Storage σ) {i : Nat}

/-- What the removal of overrides tells, from the number of those that were missing. -/
def removalVerdict (missing : Nat) : Except String Unit :=
  if missing = 0 then .ok () else .error (missing.repr ++ " override(s) already removed")

/-- The cleanup by which the overrides `ids` are removed. -/
def removing (name : String) (ids : List Nat) : Cleanup where
  name
  undo := Program.inStep do return removalVerdict (← removeAll ids)

theorem overriding_setup {s : Run.Scene (World σ)} (opened : i < s.1.sessions.length)
    (name : String) (values : List (String × Json)) :
    ∃ prepared, (overriding name values).setup.run (Run.answerStep storage.host i) s =
        (.ok (removing name (List.range' (s.1.session i).overrides.nextId values.length)),
          prepared) ∧
      prepared.1 = s.1.override i ((s.1.session i).overrides.addAll values) := by
  have set : (overriding name values).setup = Program.inStep do
    let ids ← addAll values
    return .ok (removing name ids) := rfl
  obtain ⟨result, world⟩ := run_inStep storage.host i (do
    let ids ← addAll values
    return .ok (removing name ids) : Program hostCalls (Except HostRefusal Cleanup)) s
  have adding : (addAll values).run (storage.host.ask i) s.1 = _ :=
    run_addAll storage i opened values
  rw [Program.run_bind, adding] at result world
  exact ⟨_, Prod.ext (set ▸ result) rfl, world⟩

theorem removing_undo {w : World σ} (opened : i < w.sessions.length) (name : String)
    {ids : List Nat} (distinct : ids.Nodup) (trace : List Event) :
    let undone := (removing name ids).undo.run (Run.answerStep storage.host i) (w, trace)
    ((removing name ids).undo.exchanges (Run.answerStep storage.host i) (w, trace)).map
        Exchange.call = ids.map (fun id => StepCall.host (.removeOverride id)) ∧
      undone.1 = removalVerdict (ids.countP fun id => !(w.session i).overrides.holds id) ∧
      undone.2.1 = w.override i { (w.session i).overrides with
        live := Overrides.without ids (w.session i).overrides.live } := by
  intro undone
  have removed : (removeAll ids).run (storage.host.ask i) w = _ := run_removeAll_eq opened distinct
  obtain ⟨result, world⟩ := run_inStep storage.host i
    (do return removalVerdict (← removeAll ids) : Program hostCalls (Except String Unit)) (w, trace)
  rw [Program.run_bind, removed] at result world
  refine ⟨?_, result, world⟩
  have calls := congrArg (List.map StepCall.host) (removeAll_calls (storage.host.ask i) ids w)
  rw [List.map_map, List.map_map] at calls
  rw [removing, exchanges_inStep, Program.exchanges_bind, Program.exchanges_pure, List.append_nil]
  exact calls

/-- A preparation that overrides options, and its cleanup after any calls in the same session that
add and remove overrides: it asks for all its overrides, leaves what is there but for them, and
counts those of its own that had been removed. -/
theorem overriding_framed {s : Run.Scene (World σ)} (opened : i < s.1.sessions.length)
    {earlier : List OverrideCall}
    (layer : (s.1.session i).overrides = Overrides.empty.after earlier) (name : String)
    (values : List (String × Json)) :
    let ids := List.range' (s.1.session i).overrides.nextId values.length
    ∃ c prepared,
      (overriding name values).setup.run (Run.answerStep storage.host i) s = (.ok c, prepared) ∧
        c.name = name ∧
        (prepared.1.session i).overrides.live = (s.1.session i).overrides.live ++
          Overrides.numberedFrom (s.1.session i).overrides.nextId values ∧
        ∀ (between : List OverrideCall) (trace : List Event),
          let met := prepared.1.changed storage i between
          let undone := c.undo.run (Run.answerStep storage.host i) (met, trace)
          let missing := ids.countP fun id => between.any (·.removes id)
          (c.undo.exchanges (Run.answerStep storage.host i) (met, trace)).map Exchange.call =
              ids.map (fun id => StepCall.host (.removeOverride id)) ∧
            undone.2.1 = met.override i { (met.session i).overrides with
              live := (met.session i).overrides.live.filter fun v => !ids.contains v.id } ∧
            undone.1 = if missing = 0 then .ok ()
              else .error (missing.repr ++ " override(s) already removed") := by
  intro ids
  have numbered : (s.1.session i).overrides.Numbered := by
    rw [layer]
    exact Overrides.after_numbered Overrides.empty_numbered earlier
  obtain ⟨prepared, set, world⟩ := overriding_setup storage opened name values
  refine ⟨_, prepared, set, rfl, ?_, fun between trace => ?_⟩
  · rw [world, session_override opened, Overrides.addAll_live_eq]
  · intro met undone missing
    have ready : i < prepared.1.sessions.length := by
      rw [world]
      simpa [World.override] using opened
    have reached : met = prepared.1.override i ((prepared.1.session i).overrides.after between) :=
      changed_eq ready between
    have open' : i < met.sessions.length := by
      rw [reached]
      simpa [World.override] using ready
    have layered : (met.session i).overrides =
        ((s.1.session i).overrides.addAll values).after between := by
      rw [reached, session_override ready, world, session_override opened]
    obtain ⟨calls, result, left⟩ := removing_undo storage open' name
      (List.nodup_range' : ids.Nodup) trace
    refine ⟨calls, left, result.trans ?_⟩
    rw [layered, Overrides.missing_after numbered values between]
    rfl

/-- A site with a session that has overridden an option. -/
def themedSite : World MemoryStore :=
  ⟨.initial false false, [⟨"wp_", Overrides.empty.after [.add "template" (.str "child")]⟩], ⟨[], []⟩⟩

/-- Of two overrides of one option the first is removed by others, who add one of their own. -/
theorem overriding_framed_meddled :
    0 < themedSite.sessions.length ∧
      (themedSite.session 0).overrides = Overrides.empty.after [.add "template" (.str "child")] ∧
      ∃ c prepared, (overriding "themes" [("template", .str "a"), ("template", .str "b")]).setup.run
          (Run.answerStep MemoryStore.storage.host 0) (themedSite, []) = (.ok c, prepared) ∧
        let met := prepared.1.changed MemoryStore.storage 0
          [.remove 1, .add "template" (.str "c"), .remove 7]
        let undone := c.undo.run (Run.answerStep MemoryStore.storage.host 0) (met, prepared.2)
        undone.1 = .error "1 override(s) already removed" ∧
          (undone.2.1.session 0).overrides.live =
            [⟨0, "template", .str "child"⟩, ⟨3, "template", .str "c"⟩] := by
  have layer : (themedSite.session 0).overrides =
      Overrides.empty.after [.add "template" (.str "child")] := rfl
  obtain ⟨c, prepared, set, -, -, framed⟩ := overriding_framed MemoryStore.storage
    (s := (themedSite, [])) (i := 0) (by decide) layer "themes"
    [("template", .str "a"), ("template", .str "b")]
  refine ⟨by decide, layer, c, prepared, set, ?_⟩
  obtain ⟨-, left, result⟩ := framed [.remove 1, .add "template" (.str "c"), .remove 7] prepared.2
  cases set
  exact ⟨result.trans (by decide +kernel), congrArg (fun w => (w.session 0).overrides.live) left⟩

end Preparation

end PluginAudit
