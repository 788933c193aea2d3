import PluginAudit.Check.Bundled
import PluginAudit.Proofs.FindingOrder
import PluginAudit.Proofs.ReadmeRules
import PluginAudit.Proofs.RunAccount

/-!
Static checks under different schedules. Whatever the order in which the checks proceed, the record
holds at each place what every check has found there, in the order of that check. If no two checks
have findings at one place, the order makes no difference, and so it is with the bundled checks.
-/

namespace PluginAudit

/-- A list is made of one part for each task, and each part stands in it in its own order. -/
def Interleaves (tasks : List StaticTask) (part : StaticTask → List Finding)
    (whole : List Finding) : Prop :=
  ∃ tagged : List (Nat × Finding), tagged.map Prod.snd = whole ∧
    (∀ e ∈ tagged, e.1 ∈ tasks.map StaticTask.place) ∧
    ∀ t ∈ tasks, (tagged.filter (·.1 == t.place)).map Prod.snd = part t

/-- No two tasks have findings at one place. -/
def Apart (tasks : List StaticTask) : Prop :=
  tasks.Pairwise fun t u => ∀ f ∈ t.found, ∀ g ∈ u.found, f.place ≠ g.place

namespace Interleaves

variable {tasks : List StaticTask} {part : StaticTask → List Finding} {whole other : List Finding}

/-- At every place the parts of the tasks are interleaved if the tasks are. -/
theorem filter (h : Interleaves tasks part whole) (q : Finding → Bool) :
    Interleaves tasks (fun t => (part t).filter q) (whole.filter q) := by
  obtain ⟨tagged, rfl, known, own⟩ := h
  refine ⟨tagged.filter fun e => q e.2, ?_, fun e member => known e (List.mem_filter.mp member).1,
    fun t member => ?_⟩
  · rw [List.filter_map]
    rfl
  · show _ = (part t).filter q
    rw [← own t member, List.filter_map, List.filter_filter, List.filter_filter]
    exact congrArg _ (List.filter_congr fun e _ => Bool.and_comm _ _)

theorem eq_part (h : Interleaves tasks part whole) {t : StaticTask} (member : t ∈ tasks)
    (only : ∀ u ∈ tasks, part u ≠ [] → u.place = t.place) : whole = part t := by
  obtain ⟨tagged, rfl, known, own⟩ := h
  have same : ∀ e ∈ tagged, e.1 = t.place := by
    intro e inside
    obtain ⟨u, there, place⟩ := List.mem_map.mp (known e inside)
    rw [← place]
    apply only u there
    rw [← own u there]
    intro empty
    have inside' : e.2 ∈ (tagged.filter (·.1 == u.place)).map Prod.snd :=
      List.mem_map_of_mem (List.mem_filter.mpr ⟨inside, by simp [place]⟩)
    rw [empty] at inside'
    cases inside'
  rw [← own t member, List.filter_eq_self.mpr fun e inside => by simp [same e inside]]

/-- If only one part is not empty, the whole is known. -/
theorem unique (h : Interleaves tasks part whole) (h' : Interleaves tasks part other)
    (exclusive : ∀ t ∈ tasks, ∀ u ∈ tasks, part t ≠ [] → part u ≠ [] → t.place = u.place) :
    whole = other := by
  by_cases some : ∃ t ∈ tasks, part t ≠ []
  · obtain ⟨t, member, nonempty⟩ := some
    have only : ∀ u ∈ tasks, part u ≠ [] → u.place = t.place :=
      fun u there nonempty' => exclusive u there t member nonempty' nonempty
    rw [h.eq_part member only, h'.eq_part member only]
  · have empty : ∀ t ∈ tasks, part t = [] := fun t member => by
      by_contra nonempty
      exact some ⟨t, member, nonempty⟩
    have nothing {whole : List Finding} (h : Interleaves tasks part whole) : whole = [] := by
      obtain ⟨tagged, rfl, known, own⟩ := h
      cases tagged with
      | nil => rfl
      | cons e rest =>
        obtain ⟨t, member, place⟩ := List.mem_map.mp (known e List.mem_cons_self)
        have first := own t member
        rw [empty t member, List.filter_cons_of_pos (by simp [place])] at first
        cases first
    rw [nothing h, nothing h']

end Interleaves

theorem CheckRecord.files_close (r : CheckRecord) (slug : String) (ending : Ending) :
    (r.close slug ending).files = r.files := by
  unfold close
  split <;> rfl

namespace Pool

/-- The findings of one check that are still to come. -/
def due (tasks : List StaticTask) (place : Nat) : List Finding :=
  (tasks.filter (·.place == place)).flatMap StaticTask.found

theorem due_append (first last : List StaticTask) (place : Nat) :
    due (first ++ last) place = due first place ++ due last place := by
  simp [due]

theorem due_cons (t : StaticTask) (rest : List StaticTask) (place : Nat) :
    due (t :: rest) place = if t.place = place then t.found ++ due rest place else due rest place := by
  by_cases same : t.place = place <;> simp [due, same]

theorem due_absent {tasks : List StaticTask} {place : Nat}
    (absent : place ∉ tasks.map StaticTask.place) : due tasks place = [] := by
  have none : tasks.filter (·.place == place) = [] := by
    refine List.filter_eq_nil_iff.mpr fun t member same => absent ?_
    rw [← eq_of_beq same]
    exact List.mem_map_of_mem member
  rw [due, none, List.flatMap_nil]

/-- What has been emitted so far, with the places of the checks it is from. -/
structure Emitted (tasks collected : List StaticTask) (emitted : List (Nat × Finding)) (p : Pool) :
    Prop where
  account : Accounts tasks collected p
  files : p.record.files = (CheckRecord.empty.addAll (emitted.map Prod.snd)).files
  known : ∀ e ∈ emitted, e.1 ∈ tasks.map StaticTask.place
  own : ∀ t ∈ tasks,
    (emitted.filter (·.1 == t.place)).map Prod.snd ++ due (p.running ++ p.waiting) t.place = t.found

variable {limit : Nat} {tasks collected : List StaticTask} {emitted : List (Nat × Finding)}
  {p q : Pool}

theorem due_of_mem {tasks : List StaticTask} (nodup : (tasks.map StaticTask.place).Nodup)
    {t : StaticTask} (member : t ∈ tasks) : due tasks t.place = t.found := by
  obtain ⟨before, after, rfl⟩ := List.append_of_mem member
  rw [List.map_append, List.map_cons] at nodup
  have apart := (List.nodup_middle.mp nodup).notMem
  rw [List.mem_append, not_or] at apart
  rw [due_append, due_cons, if_pos rfl, due_absent apart.1, due_absent apart.2, List.nil_append,
    List.append_nil]

theorem Emitted.initial (nodup : (tasks.map StaticTask.place).Nodup) :
    Emitted tasks [] [] (.ofTasks tasks) where
  account := .initial tasks
  files := rfl
  known := by simp
  own t member := by simpa [ofTasks] using due_of_mem nodup member

/-- A finding that a check emits is the next one of that check. -/
theorem Emitted.step (h : Emitted tasks collected emitted p)
    (nodup : (tasks.map StaticTask.place).Nodup) (step : Step limit p q) :
    ∃ more emitted, Emitted tasks (collected ++ more) emitted q := by
  have distinct := (h.account.distinct nodup).running
  have present : ∀ t ∈ p.running, t.place ∈ tasks.map StaticTask.place := by
    intro t member
    apply h.account.places.subset
    exact List.mem_map_of_mem (by simp [Pool.present, member])
  obtain ⟨more, account⟩ := h.account.step step
  obtain ⟨-, files, known, own⟩ := h
  refine ⟨more, ?_⟩
  cases step with
  | start t waiting running ended record trace free =>
    exact ⟨emitted, account, files, known, by simpa using own⟩
  | emit t f steps waiting before after ended record trace next =>
    refine ⟨emitted ++ [(t.place, f)], account, ?_, ?_, ?_⟩
    · show record.files.add f = _
      rw [show record.files = _ from files, List.map_append, CheckRecord.addAll,
        CheckRecord.addAll, List.foldl_append]
      rfl
    · intro e member
      rcases List.mem_append.mp member with member | member
      · exact known e member
      · rw [List.mem_singleton.mp member]
        exact present t (by simp)
    · intro u member
      have first : t.place ∉ before.map StaticTask.place := by
        simp only [List.map_append, List.map_cons] at distinct
        have apart := (List.nodup_middle.mp distinct).notMem
        exact fun inside => apart (List.mem_append_left _ inside)
      rw [← own u member]
      simp only [due_append, due_cons, found_emit next, List.filter_append, List.map_append]
      by_cases same : t.place = u.place
      · simp [same, due_absent (same ▸ first)]
      · simp [same]
  | note t text steps waiting before after ended record trace next =>
    refine ⟨emitted, account, files, known, fun u member => ?_⟩
    rw [← own u member]
    simp only [due_append, due_cons, found_note next]
  | finish t waiting before after ended record trace spent =>
    refine ⟨emitted, account, files, known, fun u member => ?_⟩
    rw [← own u member]
    simp only [due_append, due_cons, found_spent spent, List.nil_append, ite_self]
  | collect t waiting running before after record trace =>
    refine ⟨emitted, account, ?_, known, own⟩
    rw [CheckRecord.files_close]
    exact files

/-- When nothing is left in the pool, everything has been emitted. -/
theorem Emitted.settled (h : Emitted tasks collected emitted p) (empty : p.present = []) :
    Interleaves tasks StaticTask.found (emitted.map Prod.snd) := by
  refine ⟨emitted, rfl, h.known, fun t member => ?_⟩
  simp only [present, List.append_eq_nil_iff] at empty
  obtain ⟨⟨-, running⟩, waiting⟩ := empty
  rw [← h.own t member, running, waiting]
  simp [due]

end Pool

namespace Run

variable {settings settings' : RunSettings} {conditions conditions' : RunConditions}

/-- The findings of static checks that are not stopped have been added in some interleaving. -/
theorem staticPhase_emitted {context : Context} {tree : FileTree} {checks : List Check}
    (finished : (staticPhase settings conditions context tree checks).1 = none) :
    ∃ emitted, Interleaves (staticTasks context tree checks) StaticTask.found emitted ∧
      (staticPhase settings conditions context tree checks).2.2.record.files =
        (CheckRecord.empty.addAll emitted).files := by
  have nodup := places_nodup context tree checks
  obtain ⟨⟨collected, emitted, account⟩, empty⟩ := Pool.supervise_keeps settings.maxParallel
    (I := fun p => ∃ collected emitted,
      Pool.Emitted (staticTasks context tree checks) collected emitted p)
    (fun _ ⟨_, _, h⟩ => h.account.distinct nodup)
    (fun _ _ ⟨_, _, h⟩ step => (h.step nodup step).elim fun _ later => ⟨_, later⟩)
    ⟨[], [], .initial nodup⟩ (conditions.watch settings) conditions.moves 0
  exact ⟨emitted.map Prod.snd, account.settled (empty finished), account.files⟩

end Run

namespace ReadmeCheck

/-- The findings are not about lines. -/
def Unplaced (fs : List Finding) : Prop := ∀ f ∈ fs, f.line = 0

theorem FromRules.unplaced {fs : List Finding} (rules : FromRules fs) : Unplaced fs := by
  intro f member
  obtain ⟨code, -, message, file, rfl | rfl⟩ := rules f member
  · rfl
  · rfl

/-- The check of the readme gives no lines. -/
theorem run_unplaced (settings : Settings) (context : Context) (tree : FileTree) :
    Unplaced (run settings context tree).findings := by
  obtain ⟨cause, ran⟩ | ⟨rules, ruled, ⟨e, -, ran⟩ | ⟨readme, file, ran⟩⟩ :=
    run_cases settings.versions context tree
  · rw [ran settings.ignored]
    exact nofun
  · rw [ran settings.ignored, StaticResult.findings_emitting]
    exact ruled.unplaced
  · rw [ran settings.ignored, StaticResult.findings_ofFindings]
    intro f member
    rcases List.mem_append.mp member with rule | warning
    · exact ruled.unplaced f rule
    · obtain ⟨g, told, rfl⟩ := List.mem_map.mp warning
      obtain ⟨w, -, rfl⟩ := List.mem_map.mp told
      rfl

end ReadmeCheck

namespace ImageCheck

theorem findingsFrom_line (file : String) (line : Nat) (lines : List (List Char)) :
    ∀ f ∈ findingsFrom file line lines, line ≤ f.line := by
  induction lines generalizing line with
  | nil => simp [findingsFrom]
  | cons l rest ih =>
    intro f member
    rcases List.mem_append.mp member with here | later
    · obtain ⟨column, -, rfl⟩ := List.mem_map.mp here
      exact Nat.le_refl line
    · exact Nat.le_of_succ_le (ih (line + 1) f later)

theorem scan_line (context : Context) (tree : FileTree) (paths : List Path) :
    ∀ f ∈ (scan context tree paths).1, 0 < f.line := by
  induction paths with
  | nil => simp [scan]
  | cons path rest ih =>
    intro f member
    unfold scan at member
    split at member
    · cases member
    · rcases List.mem_append.mp member with here | later
      · exact findingsFrom_line _ 1 _ f here
      · exact ih f later

/-- The check for image tags gives the line of each. -/
theorem run_line (context : Context) (tree : FileTree) :
    ∀ f ∈ (run context tree).findings, 0 < f.line := by
  intro f member
  have same : (run context tree).findings =
      (scan context tree (context.withExtension "php")).1 :=
    StaticResult.findings_emitting _ _
  rw [same] at member
  exact scan_line _ _ _ f member

end ImageCheck

namespace Registry

theorem bundled_perm (settings : CheckSettings) :
    (bundled settings).all.Perm (bundledChecks settings) := by
  have distinct : (((bundledChecks settings).map fun c => (c.slug, c)).map Prod.fst).Nodup := by
    simp [bundledChecks]
  have perm := (Entries.ofList_perm distinct).map Prod.snd
  rw [List.map_map] at perm
  exact perm.trans (.of_eq (List.map_id _))

theorem select_sublist {r : Registry} {s : Selection} {checks : List Check}
    (selected : r.select s = .ok checks) : checks.Sublist r.all := by
  unfold select at selected
  split at selected
  · cases selected
    exact List.filter_sublist
  · cases selected

theorem bundled_slugs {settings : CheckSettings} {checks : List Check}
    (sublist : checks.Sublist (bundled settings).all) (context : Context) (tree : FileTree) :
    ((Run.staticTasks context tree checks).map StaticTask.slug).Nodup := by
  have all : ((bundledChecks settings).map Check.slug).Nodup := by
    simp [bundledChecks]
  have slugs : (checks.map Check.slug).Nodup :=
    (((bundled_perm settings).map Check.slug).nodup_iff.mpr all).sublist (sublist.map Check.slug)
  have parts := (Run.selection_perm context tree checks).map Prod.snd
  have whole : (checks.zipIdx.map fun e => (e.2, e.1.slug)).map Prod.snd = checks.map Check.slug := by
    have same := congrArg (List.map Check.slug) (List.zipIdx_map_fst 0 checks)
    rw [List.map_map] at same ⊢
    exact same
  rw [whole, List.map_append, List.map_map] at parts
  exact (parts.nodup_iff.mpr slugs).of_append_left

/-- The bundled static checks: one gives no lines, the other one does. -/
theorem bundled_static {settings : CheckSettings} {checks : List Check}
    (sublist : checks.Sublist (bundled settings).all) {context : Context} {tree : FileTree}
    {t : StaticTask} (member : t ∈ Run.staticTasks context tree checks) :
    (t.slug = "plugin_readme" ∧ ∀ f ∈ t.found, f.line = 0) ∨
      (t.slug = "image_functions" ∧ ∀ f ∈ t.found, 0 < f.line) := by
  obtain ⟨⟨c, place⟩, inside, task⟩ := List.mem_filterMap.mp member
  have known : c ∈ bundledChecks settings :=
    (bundled_perm settings).subset (sublist.subset (List.fst_mem_of_mem_zipIdx inside))
  simp only [bundledChecks, List.mem_cons, List.not_mem_nil, or_false] at known
  rcases known with rfl | rfl | rfl | rfl
  · cases task
    exact .inl ⟨rfl, ReadmeCheck.run_unplaced settings.readme context tree⟩
  · cases task
    exact .inr ⟨rfl, ImageCheck.run_line context tree⟩
  · cases task
  · cases task

/-- The bundled static checks never have findings at one place. -/
theorem bundled_apart {settings : CheckSettings} {s : Selection} {checks : List Check}
    (selected : (bundled settings).select s = .ok checks) (context : Context) (tree : FileTree) :
    Apart (Run.staticTasks context tree checks) := by
  have sublist := select_sublist selected
  have slugs := List.pairwise_map.mp (bundled_slugs sublist context tree)
  refine slugs.imp_of_mem fun {t u} member member' different f inside g inside' same => ?_
  have sameLine : f.line = g.line := congrArg (·.2.1) same
  rcases bundled_static sublist member with ⟨slug, lines⟩ | ⟨slug, lines⟩
  · rcases bundled_static sublist member' with ⟨slug', lines'⟩ | ⟨slug', lines'⟩
    · exact different (slug.trans slug'.symm)
    · have above := lines' g inside'
      rw [← sameLine, lines f inside] at above
      exact Nat.lt_irrefl 0 above
  · rcases bundled_static sublist member' with ⟨slug', lines'⟩ | ⟨slug', lines'⟩
    · have above := lines f inside
      rw [sameLine, lines' g inside'] at above
      exact Nat.lt_irrefl 0 above
    · exact different (slug.trans slug'.symm)

end Registry

namespace Run

variable {settings settings' : RunSettings} {conditions conditions' : RunConditions}

/-- What the record holds at each place, and all that is in it, when the checks are over. -/
theorem staticPhase_buckets {context : Context} {tree : FileTree} {checks : List Check}
    (finished : (staticPhase settings conditions context tree checks).1 = none) :
    let record := (staticPhase settings conditions context tree checks).2.2.record
    (∀ place, Interleaves (staticTasks context tree checks)
      (fun t => t.found.filter (·.place = place)) (record.files.bucket place)) ∧
      record.files.Proper := by
  obtain ⟨emitted, interleaved, same⟩ := staticPhase_emitted finished
  obtain ⟨proper, buckets⟩ := CheckRecord.bucket_addAll emitted
  rw [← same] at proper buckets
  exact ⟨fun place => buckets place ▸ interleaved.filter _, proper⟩

theorem exclusive_of_apart {tasks : List StaticTask} (apart : Apart tasks)
    (place : Finding.Place) :
    ∀ t ∈ tasks, ∀ u ∈ tasks, t.found.filter (·.place = place) ≠ [] →
      u.found.filter (·.place = place) ≠ [] → t.place = u.place := by
  let Exclusive (t u : StaticTask) : Prop := t.found.filter (·.place = place) ≠ [] →
    u.found.filter (·.place = place) ≠ [] → t.place = u.place
  have exclusive : tasks.Pairwise Exclusive := by
    refine apart.imp fun {t u} never some some' => ?_
    obtain ⟨f, inside⟩ := List.exists_mem_of_ne_nil _ some
    obtain ⟨g, inside'⟩ := List.exists_mem_of_ne_nil _ some'
    obtain ⟨inside, here⟩ := List.mem_filter.mp inside
    obtain ⟨inside', here'⟩ := List.mem_filter.mp inside'
    exact absurd ((of_decide_eq_true here).trans (of_decide_eq_true here').symm)
      (never f inside g inside')
  have symmetric : Std.Symm Exclusive := ⟨fun _ _ h some some' => (h some' some).symm⟩
  intro t member u member'
  exact List.Pairwise.forall_of_forall (fun _ _ _ _ => rfl) exclusive member member'

/-- Two records hold the same findings of static checks, but for the order in which different checks
have come to the same place. -/
structure SameButOrder (tasks : List StaticTask) (record other : CheckRecord) : Prop where
  errors : record.errorCount = other.errorCount
  warnings : record.warningCount = other.warningCount
  buckets : ∀ place, Interleaves tasks (fun t => t.found.filter (·.place = place))
    (record.files.bucket place)
  buckets' : ∀ place, Interleaves tasks (fun t => t.found.filter (·.place = place))
    (other.files.bucket place)
  findings : Apart tasks → record.findings = other.findings

/-- Static checks that are not stopped have the same findings under all schedules. The bundled
checks, on any plugin and however they are set, never come to the same place. -/
theorem findings_unscheduled {context : Context} {tree : FileTree} {checks : List Check}
    (finished : (staticPhase settings conditions context tree checks).1 = none)
    (finished' : (staticPhase settings' conditions' context tree checks).1 = none) :
    SameButOrder (staticTasks context tree checks)
        (staticPhase settings conditions context tree checks).2.2.record
        (staticPhase settings' conditions' context tree checks).2.2.record ∧
      ∀ bundled selection, (Registry.bundled bundled).select selection = .ok checks →
        Apart (staticTasks context tree checks) := by
  obtain ⟨-, findings, -, -⟩ := staticPhase_settled finished
  obtain ⟨-, findings', -, -⟩ := staticPhase_settled finished'
  obtain ⟨buckets, proper⟩ := staticPhase_buckets finished
  obtain ⟨buckets', proper'⟩ := staticPhase_buckets finished'
  have perm := findings.trans findings'.symm
  constructor
  · refine ⟨perm.countP_eq _, perm.countP_eq _, buckets, buckets', fun apart => ?_⟩
    apply Finding.eq_of_places proper.toList_sorted proper'.toList_sorted
    intro place
    rw [proper.filter_toList, proper'.filter_toList]
    exact (buckets place).unique (buckets' place) (exclusive_of_apart apart place)
  · exact fun bundled selection selected => Registry.bundled_apart selected context tree

/-- Two checks that come to the same place, and one of them fails. -/
def crossing : List Check := [
  ⟨"first", [], .static fun _ _ => ⟨[.emit (.error "a" ""), .emit (.warning "b" "")], .passed⟩⟩,
  ⟨"second", [], .static fun _ _ => ⟨[.emit (.error "c" "")], .failed (.failed "obstacle")⟩⟩]

/-- The state after the checks at the same place, one after another or with the second one in
between. -/
def crossed (maxParallel : Nat) (moves : List PoolMove) : Option Stop × Nat × Pool :=
  staticPhase { RunSettings.initial with maxParallel } ⟨"run1", moves, none, false⟩ .sample
    ⟨.directory [], []⟩ crossing

theorem findings_unscheduled_crossing :
    SameButOrder (staticTasks .sample ⟨.directory [], []⟩ crossing) (crossed 0 []).2.2.record
        (crossed 2 [.start, .start, .step 0, .step 1, .step 0]).2.2.record ∧
      (crossed 0 []).2.2.record.findings ≠
        (crossed 2 [.start, .start, .step 0, .step 1, .step 0]).2.2.record.findings :=
  ⟨(findings_unscheduled (by decide +kernel) (by decide +kernel)).1, by decide +kernel⟩

end Run

end PluginAudit
