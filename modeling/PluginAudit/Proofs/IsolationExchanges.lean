import PluginAudit.Host.Memory
import PluginAudit.Proofs.IsolationSteps
import PluginAudit.Proofs.Maps
import PluginAudit.Proofs.Naming

/-!
What is asked and answered while the isolation is set up and undone, for any way in which its calls
are answered. A setup that fails has overridden nothing and has tried to drop what it created; an
undoing makes its calls in a fixed order and tells what went wrong.
-/

namespace PluginAudit

/-- A call and what it was answered. -/
structure Exchange (I : Interface) where
  call : I.Call
  answer : I.Answer call

namespace Program

variable {I : Interface} {α β σ : Type} (answer : (c : I.Call) → σ → I.Answer c × σ)

/-- What is asked and answered while a program runs, in order. -/
def exchanges : Program I α → σ → List (Exchange I)
  | .done _, _ => []
  | .ask c next, s => ⟨c, (answer c s).1⟩ :: (next (answer c s).1).exchanges (answer c s).2

@[simp] theorem exchanges_pure (a : α) (s : σ) :
    (pure a : Program I α).exchanges answer s = [] := rfl

@[simp] theorem exchanges_ask (c : I.Call) (next : I.Answer c → Program I α) (s : σ) :
    (Program.ask c next).exchanges answer s =
      ⟨c, (answer c s).1⟩ :: (next (answer c s).1).exchanges answer (answer c s).2 := rfl

@[simp] theorem exchanges_bind (p : Program I α) (f : α → Program I β) (s : σ) :
    (p >>= f).exchanges answer s =
      p.exchanges answer s ++ (f (p.run answer s).1).exchanges answer (p.run answer s).2 := by
  induction p generalizing s with
  | done a => rfl
  | ask c next ih => exact congrArg (_ :: ·) (ih _ _)

end Program

/-- An option is read. -/
def Exchange.reading (e : String × Option Json) : Exchange hostCalls := ⟨.option e.1, .ok e.2⟩

/-- Options are read one after another, up to the first that cannot be read. -/
inductive Readings (keys : List String) :
    List (Exchange hostCalls) → Except HostRefusal (List (String × Option Json)) → Prop
  | all (found : List (String × Option Json)) (keyed : found.map Prod.fst = keys) :
      Readings keys (found.map .reading) (.ok found)
  | broken (found : List (String × Option Json)) (key : String) (rest : List String)
      (cause : HostRefusal) (order : keys = found.map Prod.fst ++ key :: rest) :
      Readings keys (found.map .reading ++ [⟨.option key, .error cause⟩]) (.error cause)

theorem Readings.cons {keys : List String} {log : List (Exchange hostCalls)}
    {read : Except HostRefusal (List (String × Option Json))} (h : Readings keys log read)
    (e : String × Option Json) :
    Readings (e.1 :: keys) (.reading e :: log) (read.map (e :: ·)) := by
  cases h with
  | all found keyed => exact .all (e :: found) (congrArg (e.1 :: ·) keyed)
  | broken found key rest cause order =>
    exact .broken (e :: found) key rest cause (congrArg (e.1 :: ·) order)

@[simp] theorem reading_mem {log : List (String × Option Json)} {key : String}
    {value : Option Json} :
    (⟨.option key, .ok value⟩ : Exchange hostCalls) ∈ log.map .reading ↔ (key, value) ∈ log := by
  constructor
  · intro member
    obtain ⟨⟨k, v⟩, there, same⟩ := List.mem_map.mp member
    simp only [Exchange.reading, Exchange.mk.injEq, HostCall.option.injEq] at same
    obtain ⟨rfl, same⟩ := same
    cases eq_of_heq same
    exact there
  · exact fun member => List.mem_map_of_mem (f := Exchange.reading) member

/-- All keys have been read, and each as it should be, if each has a reading that is so. -/
theorem Readings.ok_iff {keys : List String} {log : List (Exchange hostCalls)}
    {read : Except HostRefusal (List (String × Option Json))} (h : Readings keys log read)
    (distinct : keys.Nodup) (good : String → Option Json → Prop) :
    (∃ found, read = .ok found ∧ ∀ e ∈ found, good e.1 e.2) ↔
      ∀ key ∈ keys, ∃ value, ⟨.option key, .ok value⟩ ∈ log ∧ good key value := by
  cases h with
  | all found keyed =>
    subst keyed
    simp only [Except.ok.injEq, exists_eq_left', reading_mem, List.forall_mem_map]
    constructor
    · exact fun all e member => ⟨e.2, member, all e member⟩
    · intro all e member
      obtain ⟨value, there, fine⟩ := all e member
      have same : some value = some e.2 :=
        (Entries.lookup_of_mem distinct there).symm.trans (Entries.lookup_of_mem distinct member)
      exact Option.some.inj same ▸ fine
  | broken found key rest cause order =>
    subst order
    simp only [reduceCtorEq, false_and, exists_false, false_iff]
    intro all
    obtain ⟨value, there, -⟩ := all key (by simp)
    rcases List.mem_append.mp there with earlier | last
    · have before : key ∈ found.map Prod.fst := List.mem_map_of_mem (reading_mem.mp earlier)
      exact (List.nodup_append.mp distinct).2.2 key before key List.mem_cons_self rfl
    · simp at last

theorem Readings.mem {keys : List String} {log : List (Exchange hostCalls)}
    {read : Except HostRefusal (List (String × Option Json))} (h : Readings keys log read)
    {x : Exchange hostCalls} (member : x ∈ log) : ∃ key, x.call = .option key := by
  cases h with
  | all found keyed =>
    obtain ⟨e, -, rfl⟩ := List.mem_map.mp member
    exact ⟨e.1, rfl⟩
  | broken found key rest cause order =>
    rcases List.mem_append.mp member with earlier | last
    · obtain ⟨e, -, rfl⟩ := List.mem_map.mp earlier
      exact ⟨e.1, rfl⟩
    · exact ⟨key, List.mem_singleton.mp last ▸ rfl⟩

/-- The keys that are found with other values than before. -/
def Snapshot.changed (before found : List (String × Option Json)) : List String :=
  (found.filter fun e => !Json.sameOption e.2 (before.lookup e.1).join).map Prod.fst

namespace Snapshot

variable {σ : Type} (ask : (c : HostCall) → σ → c.Answer × σ)

theorem changed_eq_nil {before found : List (String × Option Json)} :
    changed before found = [] ↔
      ∀ e ∈ found, Json.sameOption e.2 (before.lookup e.1).join = true := by
  simp [changed]

theorem captureFrom_exchanges (taken : List (String × Option Json)) (keys : List String) (s : σ) :
    ∃ read, Readings keys ((captureFrom taken keys).exchanges ask s) read ∧
      ((captureFrom taken keys).run ask s).1 =
        read.map fun found => ⟨found.foldl (fun m e => Entries.put e.1 e.2 m) taken⟩ := by
  induction keys generalizing taken s with
  | nil => exact ⟨.ok [], .all [] rfl, rfl⟩
  | cons key rest ih =>
    simp only [captureFrom, Program.exchanges_ask, Program.run_ask]
    cases answer : ask (.option key) s with
    | mk result t =>
      cases result with
      | error cause => exact ⟨.error cause, .broken [] key rest cause rfl, rfl⟩
      | ok value =>
        obtain ⟨read, readings, result⟩ := ih (Entries.put key value taken) t
        refine ⟨read.map ((key, value) :: ·), readings.cons (key, value), result.trans ?_⟩
        cases read <;> rfl

theorem capture_exchanges (keys : List String) (s : σ) :
    ∃ read, Readings keys ((capture keys).exchanges ask s) read ∧
      ((capture keys).run ask s).1 = read.map fun found => ⟨Entries.ofList found⟩ :=
  captureFrom_exchanges ask [] keys s

theorem divergingFrom_exchanges (before : List (String × Option Json))
    {values : List (String × Option Json)}
    (part : ∀ e ∈ values, before.lookup e.1 = some e.2) (s : σ) :
    ∃ read, Readings (values.map Prod.fst) ((divergingFrom values).exchanges ask s) read ∧
      ((divergingFrom values).run ask s).1 = read.map (changed before) := by
  induction values generalizing s with
  | nil => exact ⟨.ok [], .all [] rfl, rfl⟩
  | cons entry rest ih =>
    obtain ⟨key, expected⟩ := entry
    have here : before.lookup key = some expected := part _ List.mem_cons_self
    simp only [divergingFrom, Program.exchanges_ask, Program.run_ask]
    cases answer : ask (.option key) s with
    | mk result t =>
      cases result with
      | error cause => exact ⟨.error cause, .broken [] key _ cause rfl, rfl⟩
      | ok value =>
        obtain ⟨read, readings, result⟩ :=
          ih (fun e member => part e (List.mem_cons_of_mem _ member)) t
        simp only [Program.exchanges_bind, Program.run_bind, result]
        refine ⟨read.map ((key, value) :: ·), ?_, ?_⟩
        · have more := readings.cons (key, value)
          cases read with
          | error cause => simpa [Except.map, Exchange.reading] using more
          | ok found => simpa [Except.map, Exchange.reading] using more
        · cases read with
          | error cause => rfl
          | ok found =>
            simp only [Except.map, Program.run_pure, changed, List.filter_cons, here,
              Option.join_some]
            by_cases same : Json.sameOption value expected <;> simp [same]

/-- A snapshot compares its keys in ascending order, whatever order they were read in. -/
theorem diverging_exchanges {captured : List (String × Option Json)}
    (distinct : (captured.map Prod.fst).Nodup) (s : σ) :
    ∃ read, Readings ((Entries.ofList captured).map Prod.fst)
        ((diverging ⟨Entries.ofList captured⟩).exchanges ask s) read ∧
      ((diverging ⟨Entries.ofList captured⟩).run ask s).1 = read.map (changed captured) := by
  refine divergingFrom_exchanges ask captured (fun e member => ?_) s
  exact Entries.lookup_of_mem distinct ((Entries.ofList_perm distinct).mem_iff.mp member)

end Snapshot

namespace Preparation

variable {σ : Type} (ask : (c : HostCall) → σ → c.Answer × σ)

theorem addAll_exchanges (values : List (String × Json)) (s : σ) :
    (addAll values).exchanges ask s =
        List.zipWith (fun e id => ⟨.addOverride e.1 e.2, id⟩) values ((addAll values).run ask s).1 ∧
      ((addAll values).run ask s).1.length = values.length := by
  induction values generalizing s with
  | nil => exact ⟨rfl, rfl⟩
  | cons e rest ih =>
    obtain ⟨later, count⟩ := ih (ask (.addOverride e.1 e.2) s).2
    simp only [addAll, Program.exchanges_ask, Program.run_ask, Program.exchanges_bind,
      Program.run_bind, Program.exchanges_pure, Program.run_pure, later, List.append_nil,
      List.zipWith_cons_cons, List.length_cons, count, and_self]

theorem removeAll_calls (ids : List Nat) (s : σ) :
    ((removeAll ids).exchanges ask s).map Exchange.call = ids.map HostCall.removeOverride := by
  induction ids generalizing s with
  | nil => rfl
  | cons id rest ih =>
    simp only [removeAll, Program.exchanges_ask, Program.exchanges_bind, Program.exchanges_pure,
      List.append_nil, List.map_cons, ih]

end Preparation

namespace Isolation

variable {σ : Type} (ask : (c : HostCall) → σ → c.Answer × σ)

/-- The watched keys in ascending order. -/
def comparedKeys : List String :=
  (Entries.ofList (watchedKeys.map fun key => (key, ()))).map Prod.fst

theorem watchedKeys_nodup : watchedKeys.Nodup := by decide

theorem comparedKeys_perm : comparedKeys.Perm watchedKeys := by
  have keys : (watchedKeys.map fun key => (key, ())).map Prod.fst = watchedKeys := rfl
  have perm := (Entries.ofList_perm (keys ▸ watchedKeys_nodup)).map Prod.fst
  rwa [keys] at perm

example : comparedKeys = ["active_plugins", "current_theme", "stylesheet", "stylesheet_root",
    "template", "template_root"] := by decide +kernel

theorem comparedKeys_nodup : comparedKeys.Nodup := comparedKeys_perm.nodup_iff.mpr watchedKeys_nodup

theorem keys_ofList {captured : List (String × Option Json)}
    (keyed : captured.map Prod.fst = watchedKeys) :
    (Entries.ofList captured).map Prod.fst = comparedKeys := by
  rw [Entries.keys_ofList, comparedKeys, ← keyed, List.map_map]
  rfl

/-- How the run's namespace is entered. -/
inductive Enters (name : String) : List (Exchange hostCalls) → Except HostRefusal Unit → Prop
  | uncreated (e : HostRefusal) : Enters name [⟨.createNamespace name, .error e⟩] (.error e)
  | unswitched (e : HostRefusal) (dropped : Except HostRefusal Unit) :
      Enters name [⟨.createNamespace name, .ok ()⟩, ⟨.switchTo name, .error e⟩,
        ⟨.dropNamespace name, dropped⟩] (.error e)
  | entered : Enters name [⟨.createNamespace name, .ok ()⟩, ⟨.switchTo name, .ok ()⟩] (.ok ())

theorem enter_exchanges (name : String) (s : σ) :
    Enters name ((enter name).exchanges ask s) ((enter name).run ask s).1 := by
  simp only [enter, Program.exchanges_ask, Program.run_ask]
  cases (ask (.createNamespace name) s) with
  | mk created t =>
    cases created with
    | error e => exact .uncreated e
    | ok _ =>
      simp only [Program.exchanges_ask, Program.run_ask]
      cases (ask (.switchTo name) t) with
      | mk switched u =>
        cases switched with
        | error e => exact .unswitched e _
        | ok _ => exact .entered

/-- How the run's namespace is left, and the problems with that. It is dropped only after the host
has switched back to the former one. -/
inductive Leaves (former name : String) : List (Exchange hostCalls) → List String → Prop
  | stuck (e : HostRefusal) :
      Leaves former name [⟨.switchTo former, .error e⟩]
        ["could not switch back to " ++ former ++ ", namespace " ++ name ++ " left active: " ++
          e.message]
  | leftBehind (e : HostRefusal) :
      Leaves former name [⟨.switchTo former, .ok ()⟩, ⟨.dropNamespace name, .error e⟩]
        ["namespace " ++ name ++ " left behind: " ++ e.message]
  | left :
      Leaves former name [⟨.switchTo former, .ok ()⟩, ⟨.dropNamespace name, .ok ()⟩] []

theorem leave_exchanges (former name : String) (s : σ) :
    Leaves former name ((leave former name).exchanges ask s) ((leave former name).run ask s).1 := by
  simp only [leave, Program.exchanges_ask, Program.run_ask]
  cases (ask (.switchTo former) s) with
  | mk switched t =>
    cases switched with
    | error e => exact .stuck e
    | ok _ =>
      simp only [Program.exchanges_ask, Program.run_ask]
      cases (ask (.dropNamespace name) t) with
      | mk dropped u =>
        cases dropped with
        | error e => exact .leftBehind e
        | ok _ => exact .left

/-- What the verification tells, from what the compared keys have been read as. -/
def differences (captured : List (String × Option Json)) :
    Except HostRefusal (List (String × Option Json)) → List String
  | .error e => ["could not verify configuration: " ++ e.message]
  | .ok found =>
    match Snapshot.changed captured found with
    | [] => []
    | keys => ["configuration not restored for keys: " ++ String.intercalate ", " keys]

theorem verify_exchanges {captured : List (String × Option Json)}
    (keyed : captured.map Prod.fst = watchedKeys) (s : σ) :
    ∃ read, Readings comparedKeys ((verify ⟨Entries.ofList captured⟩).exchanges ask s) read ∧
      ((verify ⟨Entries.ofList captured⟩).run ask s).1 = differences captured read := by
  obtain ⟨read, readings, result⟩ :=
    Snapshot.diverging_exchanges ask (keyed ▸ watchedKeys_nodup) s
  rw [keys_ofList keyed] at readings
  refine ⟨read, ?_, ?_⟩
  · simp only [verify, Program.exchanges_bind, result]
    cases read with
    | error e => simpa [Except.map] using readings
    | ok found =>
      simp only [Except.map]
      split <;> simpa using readings
  · simp only [verify, Program.run_bind, result]
    cases read with
    | error e => rfl
    | ok found =>
      simp only [Except.map, differences]
      cases Snapshot.changed captured found <;> rfl

/-- What an undoing of the isolation asks, is answered and comes to. The overrides are removed
first, then the namespace is left, and in any case options are read again. -/
inductive Undone (ids : List Nat) (former name : String) (captured : List (String × Option Json)) :
    List (Exchange hostCalls) → Except String Unit → Prop
  | intro (removing leaving verifying : List (Exchange hostCalls)) (problems : List String)
      (read : Except HostRefusal (List (String × Option Json)))
      (removed : removing.map Exchange.call = ids.map HostCall.removeOverride)
      (leaves : Leaves former name leaving problems)
      (readings : Readings comparedKeys verifying read) :
      Undone ids former name captured (removing ++ leaving ++ verifying)
        (verdict (problems ++ differences captured read))

theorem undo_exchanges (ids : List Nat) (former name : String)
    {captured : List (String × Option Json)} (keyed : captured.map Prod.fst = watchedKeys)
    (s : σ) :
    Undone ids former name captured
      ((undo ids former name ⟨Entries.ofList captured⟩).exchanges ask s)
      ((undo ids former name ⟨Entries.ofList captured⟩).run ask s).1 := by
  obtain ⟨read, readings, verified⟩ := verify_exchanges ask keyed
    ((leave former name).run ask ((Preparation.removeAll ids).run ask s).2).2
  rw [run_undo]
  simp only [verified]
  simp only [undo, Program.exchanges_bind, Program.exchanges_pure, List.append_nil,
    ← List.append_assoc]
  exact .intro _ _ _ _ _ (Preparation.removeAll_calls ask ids s)
    (leave_exchanges ask former name _) readings

theorem verdict_eq_ok {problems : List String} : verdict problems = .ok () ↔ problems = [] := by
  cases problems with
  | nil => exact ⟨fun _ => rfl, fun _ => rfl⟩
  | cons p rest => exact ⟨fun h => by simp [verdict] at h, fun h => absurd h (by simp)⟩

theorem differences_eq_nil {captured : List (String × Option Json)}
    {read : Except HostRefusal (List (String × Option Json))} :
    differences captured read = [] ↔
      ∃ found, read = .ok found ∧ Snapshot.changed captured found = [] := by
  cases read with
  | error e => simp [differences]
  | ok found =>
    simp only [differences, Except.ok.injEq, exists_eq_left']
    split
    · rename_i same
      simp [same]
    · rename_i some
      simpa using some

/-- An undoing comes to a good end if the host has switched back, has dropped the namespace and has
read every compared key as it was captured. -/
theorem Undone.ok_iff {ids : List Nat} {former name : String}
    {captured : List (String × Option Json)} {told : List (Exchange hostCalls)}
    {result : Except String Unit} (h : Undone ids former name captured told result) :
    result = .ok () ↔
      ⟨.switchTo former, .ok ()⟩ ∈ told ∧ ⟨.dropNamespace name, .ok ()⟩ ∈ told ∧
        ∀ key ∈ comparedKeys, ∃ value, ⟨.option key, .ok value⟩ ∈ told ∧
          Json.sameOption value (captured.lookup key).join = true := by
  obtain ⟨removing, leaving, verifying, problems, read, removed, leaves, readings⟩ := h
  -- Each part of the undoing has its own kind of calls.
  have removals : ∀ x ∈ removing, ∃ id, x.call = .removeOverride id := fun x member => by
    have called : x.call ∈ ids.map HostCall.removeOverride := removed ▸ List.mem_map_of_mem member
    obtain ⟨id, -, same⟩ := List.mem_map.mp called
    exact ⟨id, same.symm⟩
  have moves : ∀ x ∈ leaving, ∀ key, x.call ≠ .option key := by
    intro x member key
    cases leaves <;> simp only [List.mem_cons, List.not_mem_nil, or_false] at member
    · simp [member]
    all_goals rcases member with rfl | rfl <;> simp
  have among {x : Exchange hostCalls} (other : ∀ id, x.call ≠ .removeOverride id) :
      x ∈ removing ++ leaving ++ verifying ↔ x ∈ leaving ∨ x ∈ verifying := by
    simp only [List.mem_append, or_assoc, or_iff_right_iff_imp]
    intro there
    obtain ⟨id, same⟩ := removals x there
    exact absurd same (other id)
  have moved {x : Exchange hostCalls} (other : ∀ id, x.call ≠ .removeOverride id)
      (more : ∀ key, x.call ≠ .option key) :
      x ∈ removing ++ leaving ++ verifying ↔ x ∈ leaving := by
    simp only [among other, or_iff_left_iff_imp]
    intro there
    obtain ⟨key, same⟩ := readings.mem there
    exact absurd same (more key)
  have seen (key : String) (value : Option Json) :
      ⟨.option key, .ok value⟩ ∈ removing ++ leaving ++ verifying ↔
        ⟨.option key, .ok value⟩ ∈ verifying := by
    simp only [among (x := ⟨.option key, .ok value⟩) (by simp), or_iff_right_iff_imp]
    exact fun there => absurd rfl (moves _ there key)
  have clean : problems = [] ↔
      ⟨.switchTo former, .ok ()⟩ ∈ leaving ∧ ⟨.dropNamespace name, .ok ()⟩ ∈ leaving := by
    cases leaves <;> simp
  have unchanged := readings.ok_iff comparedKeys_nodup fun key value =>
    Json.sameOption value (captured.lookup key).join = true
  rw [verdict_eq_ok, List.append_eq_nil_iff, clean, differences_eq_nil, moved (by simp) (by simp),
    moved (by simp) (by simp), and_assoc]
  simp only [seen, Snapshot.changed_eq_nil, unchanged]

/-- What a setup that fails has asked: nothing was overridden, and a namespace that was created has
been given to the host to drop. -/
def Abandoned (name : String) (e : HostRefusal) (told : List (Exchange hostCalls)) : Prop :=
  (∀ x ∈ told, ∀ key value, x.call ≠ .addOverride key value) ∧
    (⟨.createNamespace name, .ok ()⟩ ∉ told ∨ ∃ before dropped, told = before ++
      [⟨.createNamespace name, .ok ()⟩, ⟨.switchTo name, .error e⟩,
        ⟨.dropNamespace name, dropped⟩])

theorem abandoned_of_readings {keys : List String} {log more : List (Exchange hostCalls)}
    {read : Except HostRefusal (List (String × Option Json))} {name : String} {e : HostRefusal}
    (readings : Readings keys log read) (after : Abandoned name e more) :
    Abandoned name e (log ++ more) := by
  obtain ⟨clean, ended⟩ := after
  refine ⟨fun x member key value added => ?_, ?_⟩
  · rcases List.mem_append.mp member with earlier | later
    · obtain ⟨k, same⟩ := readings.mem earlier
      cases same.symm.trans added
    · exact clean x later key value added
  · rcases ended with absent | ⟨before, dropped, rfl⟩
    · refine .inl fun member => ?_
      rcases List.mem_append.mp member with earlier | later
      · obtain ⟨k, same⟩ := readings.mem earlier
        cases same
      · exact absent later
    · exact .inr ⟨log ++ before, dropped, (List.append_assoc _ _ _).symm⟩

/-- What a setup that succeeds has asked, and the cleanup it leaves behind. -/
def Established (basename name theme : String) (captured : List (String × Option Json))
    (former : String) (ids : List Nat) (told : List (Exchange hostCalls)) (c : Cleanup) : Prop :=
  captured.map Prod.fst = watchedKeys ∧
    ids.length = watchedKeys.length ∧
    told = captured.map .reading ++
      [⟨.currentNamespace, .ok former⟩, ⟨.createNamespace name, .ok ()⟩,
        ⟨.switchTo name, .ok ()⟩] ++
      List.zipWith (fun e id => ⟨.addOverride e.1 e.2, id⟩) (overrides basename theme) ids ∧
    c = cleanup ids former name ⟨Entries.ofList captured⟩

theorem setup_exchanges (basename name theme : String) (start : σ) :
    match ((setup basename name theme).run ask start).1 with
    | .error e => Abandoned name e ((setup basename name theme).exchanges ask start)
    | .ok c => ∃ captured former ids, Established basename name theme captured former ids
        ((setup basename name theme).exchanges ask start) c := by
  obtain ⟨read, readings, captured⟩ := Snapshot.capture_exchanges ask watchedKeys start
  cases read with
  | error e =>
    simp only [setup, Program.run_bind, Program.exchanges_bind, captured, Except.map,
      Program.run_pure, Program.exchanges_pure]
    exact abandoned_of_readings readings ⟨by simp, .inl (by simp)⟩
  | ok found =>
    simp only [setup, Program.run_bind, Program.exchanges_bind, captured, Except.map,
      Program.run_ask, Program.exchanges_ask]
    cases (ask .currentNamespace ((Snapshot.capture watchedKeys).run ask start).2) with
    | mk current t =>
      cases current with
      | error e =>
        simp only [Program.run_pure, Program.exchanges_pure]
        exact abandoned_of_readings readings ⟨by simp, .inl (by simp)⟩
      | ok former =>
        have entering := enter_exchanges ask name t
        simp only [Program.run_bind, Program.exchanges_bind]
        generalize (enter name).exchanges ask t = told at entering ⊢
        generalize (enter name).run ask t = entered at entering ⊢
        obtain ⟨result, u⟩ := entered
        cases entering with
        | uncreated e =>
          simp only [Program.run_pure, Program.exchanges_pure]
          exact abandoned_of_readings readings ⟨by simp, .inl (by simp)⟩
        | unswitched e dropped =>
          simp only [Program.run_pure, Program.exchanges_pure]
          exact abandoned_of_readings readings
            ⟨by simp, .inr ⟨[⟨.currentNamespace, .ok former⟩], dropped, by simp⟩⟩
        | entered =>
          generalize (Snapshot.capture watchedKeys).exchanges ask start = log at readings ⊢
          cases readings with
          | all _ keyed =>
            obtain ⟨added, count⟩ :=
              Preparation.addAll_exchanges ask (overrides basename theme) u
            simp only [Program.run_bind, Program.exchanges_bind, added, Program.run_pure,
              Program.exchanges_pure, List.append_nil]
            exact ⟨found, former, _, keyed, count, by simp, rfl⟩

/-- Whatever the calls are answered, a setup that fails has overridden nothing, and it tries to drop
the namespace that it has created and cannot switch to. A setup that succeeds leaves an undoing
behind that removes the overrides first, drops the namespace only when the host has switched back,
reads the compared keys in any case and tells every problem on the way. -/
theorem setup_undo_answered (basename name theme : String) (start : σ) :
    match ((setup basename name theme).run ask start).1 with
    | .error e => Abandoned name e ((setup basename name theme).exchanges ask start)
    | .ok c => ∃ captured former ids,
        Established basename name theme captured former ids
          ((setup basename name theme).exchanges ask start) c ∧
        ∀ later : σ,
          let undoing := undo ids former name ⟨Entries.ofList captured⟩
          Undone ids former name captured (undoing.exchanges ask later)
              (undoing.run ask later).1 ∧
            ((undoing.run ask later).1 = .ok () ↔
              ⟨.switchTo former, .ok ()⟩ ∈ undoing.exchanges ask later ∧
              ⟨.dropNamespace name, .ok ()⟩ ∈ undoing.exchanges ask later ∧
              ∀ key ∈ comparedKeys, ∃ value,
                ⟨.option key, .ok value⟩ ∈ undoing.exchanges ask later ∧
                Json.sameOption value (captured.lookup key).join = true) := by
  have shape := setup_exchanges ask basename name theme start
  cases result : ((setup basename name theme).run ask start).1 with
  | error e => rwa [result] at shape
  | ok c =>
    rw [result] at shape
    obtain ⟨captured, former, ids, established⟩ := shape
    refine ⟨captured, former, ids, established, fun later => ?_⟩
    have undone := undo_exchanges ask ids former name established.1 later
    exact ⟨undone, undone.ok_iff⟩

/-- A site that does not let the session back to its namespace. A check has left an override and has
dropped the namespace of the run. -/
def strandedSite : Cleanup × World MemoryStore :=
  let ask := (MemoryStore.storage.host.refusing ["wp_"]).ask 0
  let site : World MemoryStore := ⟨.initial false false, [⟨"wp_", .empty⟩], ⟨[], []⟩⟩
  let prepared := (setup "p/p.php" "wppc_run1_" "t").run ask site
  let strayed := (ask (.addOverride "active_plugins" (.str "rogue")) prepared.2).2
  (prepared.1.toOption.getD ⟨"", pure (.ok ()), 0⟩, (ask (.dropNamespace "wppc_run1_") strayed).2)

/-- A key that has been found to differ is not told where a later one cannot be read. -/
theorem strandedSite_difference_untold :
    let ask := (MemoryStore.storage.host.refusing ["wp_"]).ask 0
    ∃ captured, strandedSite.1 = cleanup [0, 1, 2, 3, 4, 5] "wp_" "wppc_run1_" captured ∧
      Json.sameOption (some (.str "rogue")) (captured.values.lookup "active_plugins").join =
        false ∧
      let undoing := undo [0, 1, 2, 3, 4, 5] "wp_" "wppc_run1_" captured
      ⟨.option "active_plugins", .ok (some (.str "rogue"))⟩ ∈
          undoing.exchanges ask strandedSite.2 ∧
        ∃ reason, (undoing.run ask strandedSite.2).1 = .error reason ∧
          ¬Names "active_plugins" reason := by
  refine ⟨⟨[("active_plugins", some (.arr [.str "akismet/akismet.php", .str "hello.php"])),
    ("current_theme", some (.str "Twenty Twenty Child")),
    ("stylesheet", some (.str "twentytwenty-child")), ("stylesheet_root", none),
    ("template", some (.str "twentytwenty")), ("template_root", none)]⟩, ?_, ?_, ?_, ?_⟩
  · rfl
  · rfl
  · exact List.mem_of_getElem? (i := 7) rfl
  · refine ⟨_, rfl, ?_⟩
    decide +kernel

end Isolation

end PluginAudit
