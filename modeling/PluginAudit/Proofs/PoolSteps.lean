import PluginAudit.Run.Supervision
import Mathlib.Data.List.Nodup

/-!
What a single move can do in the pool of static checks, and that the moves left to do, done in
order, leave nothing behind.
-/

namespace PluginAudit.Pool

/-- The checks that are in the pool. Their places tell them apart. -/
def present (p : Pool) : List StaticTask := p.ended ++ p.running ++ p.waiting

def Distinct (p : Pool) : Prop := (p.present.map StaticTask.place).Nodup

/-- What a move does where it does anything. -/
inductive Step (limit : Nat) : Pool → Pool → Prop
  | start (t : StaticTask) (waiting running ended : List StaticTask) (record : CheckRecord)
      (trace : List Event) (free : running.length < room limit) :
      Step limit ⟨t :: waiting, running, ended, record, trace⟩
        ⟨waiting, running ++ [t], ended, record, .started t.place :: trace⟩
  | emit (t : StaticTask) (f : Finding) (steps : List StaticStep)
      (waiting before after ended : List StaticTask) (record : CheckRecord) (trace : List Event)
      (next : t.steps = .emit f :: steps) :
      Step limit ⟨waiting, before ++ t :: after, ended, record, trace⟩
        ⟨waiting, before ++ { t with steps } :: after, ended, record.add f, trace⟩
  | note (t : StaticTask) (text : String) (steps : List StaticStep)
      (waiting before after ended : List StaticTask) (record : CheckRecord) (trace : List Event)
      (next : t.steps = .note text :: steps) :
      Step limit ⟨waiting, before ++ t :: after, ended, record, trace⟩
        ⟨waiting, before ++ { t with steps } :: after, ended, record, .note text :: trace⟩
  | finish (t : StaticTask) (waiting before after ended : List StaticTask) (record : CheckRecord)
      (trace : List Event) (spent : t.steps = []) :
      Step limit ⟨waiting, before ++ t :: after, ended, record, trace⟩
        ⟨waiting, before ++ after, ended ++ [t], record, .ended t.place :: trace⟩
  | collect (t : StaticTask) (waiting running before after : List StaticTask)
      (record : CheckRecord) (trace : List Event) :
      Step limit ⟨waiting, running, before ++ t :: after, record, trace⟩
        ⟨waiting, running, before ++ after, record.close t.slug t.ending, trace⟩

theorem split_of_find {tasks : List StaticTask} {place : Nat} {t : StaticTask}
    (distinct : (tasks.map StaticTask.place).Nodup)
    (found : tasks.find? (·.place == place) = some t) :
    t.place = place ∧ ∃ before after, tasks = before ++ t :: after ∧
      (∀ u ∈ before ++ after, u.place ≠ place) := by
  obtain ⟨same, before, after, rfl, _⟩ := List.find?_eq_some_iff_append.mp found
  have same : t.place = place := by simpa using same
  refine ⟨same, before, after, rfl, ?_⟩
  intro u member equal
  simp only [List.map_append, List.map_cons] at distinct
  have apart : t.place ∉ before.map StaticTask.place ++ after.map StaticTask.place :=
    (List.nodup_middle.mp distinct).notMem
  apply apart
  rw [← List.map_append, same, ← equal]
  exact List.mem_map_of_mem member

theorem filter_split {before after : List StaticTask} {t : StaticTask} {place : Nat}
    (same : t.place = place) (others : ∀ u ∈ before ++ after, u.place ≠ place) :
    (before ++ t :: after).filter (·.place != place) = before ++ after := by
  rw [List.filter_append, List.filter_cons_of_neg (by simp [same]), ← List.filter_append,
    List.filter_eq_self]
  intro u member
  simpa using others u member

theorem setTask_split {before after : List StaticTask} {t u : StaticTask}
    (same : t.place = u.place) (others : ∀ v ∈ before ++ after, v.place ≠ u.place) :
    setTask u (before ++ t :: after) = before ++ u :: after := by
  have unchanged (tasks : List StaticTask) (apart : ∀ v ∈ tasks, v.place ≠ u.place) :
      setTask u tasks = tasks := by
    unfold setTask
    rw [List.map_congr_left (g := id) (fun v member => by simp [apart v member]), List.map_id]
  have first := unchanged before fun v member => others v (List.mem_append_left _ member)
  have last := unchanged after fun v member => others v (List.mem_append_right _ member)
  unfold setTask at first last ⊢
  rw [List.map_append, List.map_cons, first, last, if_pos same]

theorem Distinct.running {p : Pool} (h : p.Distinct) :
    (p.running.map StaticTask.place).Nodup := by
  unfold Distinct present at h
  simp only [List.map_append] at h
  exact h.of_append_left.of_append_right

theorem Distinct.ended {p : Pool} (h : p.Distinct) : (p.ended.map StaticTask.place).Nodup := by
  unfold Distinct present at h
  simp only [List.map_append] at h
  exact h.of_append_left.of_append_left

/-- A move does nothing or is a step. -/
theorem move_cases (limit : Nat) {p : Pool} (distinct : p.Distinct) (m : PoolMove) :
    p.move limit m = p ∨ Step limit p (p.move limit m) := by
  obtain ⟨waiting, running, ended, record, trace⟩ := p
  cases m with
  | start =>
    cases waiting with
    | nil => exact .inl rfl
    | cons t rest =>
      by_cases free : running.length < room limit
      · right
        simpa [move, move?, free] using Step.start t rest running ended record trace free
      · left
        simp [move, move?, free]
  | step place =>
    cases found : running.find? (·.place == place) with
    | none => exact .inl (by simp [move, move?, found])
    | some t =>
      obtain ⟨same, before, after, rfl, others⟩ := split_of_find distinct.running found
      cases next : t.steps with
      | nil => exact .inl (by simp [move, move?, found, next])
      | cons s steps =>
        right
        have set : setTask { t with steps } (before ++ t :: after) =
            before ++ { t with steps } :: after :=
          setTask_split rfl fun v member => by simpa [same] using others v member
        cases s with
        | emit f =>
          simpa [move, move?, found, next, perform, set] using
            Step.emit t f steps waiting before after ended record trace next
        | note text =>
          simpa [move, move?, found, next, perform, set] using
            Step.note t text steps waiting before after ended record trace next
  | finish place =>
    cases found : running.find? (·.place == place) with
    | none => exact .inl (by simp [move, move?, found])
    | some t =>
      obtain ⟨same, before, after, rfl, others⟩ := split_of_find distinct.running found
      cases spent : t.steps with
      | cons s steps => exact .inl (by simp [move, move?, found, spent])
      | nil =>
        right
        have step : Step limit _ _ :=
          Step.finish t waiting before after ended record trace spent
        rw [same] at step
        simpa [move, move?, found, spent, filter_split same others] using step
  | collect place =>
    cases found : ended.find? (·.place == place) with
    | none => exact .inl (by simp [move, move?, found])
    | some t =>
      obtain ⟨same, before, after, rfl, others⟩ := split_of_find distinct.ended found
      right
      simpa [move, move?, found, filter_split same others] using
        Step.collect t waiting running before after record trace
  | wait ms => exact .inl rfl
  | heed => exact .inl rfl

theorem Step.distinct {limit : Nat} {p q : Pool} (step : Step limit p q) (distinct : p.Distinct) :
    q.Distinct := by
  unfold Distinct present at distinct ⊢
  cases step with
  | start t waiting running ended record trace free => simpa using distinct
  | emit t f steps waiting before after ended record trace next => simpa using distinct
  | note t text steps waiting before after ended record trace next => simpa using distinct
  | finish t waiting before after ended record trace spent =>
    have same : (ended ++ [t] ++ (before ++ after) ++ waiting).Perm
        (ended ++ (before ++ t :: after) ++ waiting) := by
      have middle : (before ++ t :: (after ++ waiting)).Perm (t :: (before ++ (after ++ waiting))) :=
        List.perm_middle
      simpa using middle.symm.append_left ended
    exact (same.map StaticTask.place).nodup_iff.mpr distinct
  | collect t waiting running before after record trace =>
    have fewer : (before ++ after ++ running ++ waiting).Sublist
        (before ++ t :: after ++ running ++ waiting) := by
      simp
    exact distinct.sublist (fewer.map StaticTask.place)

theorem move_distinct (limit : Nat) {p : Pool} (distinct : p.Distinct) (m : PoolMove) :
    (p.move limit m).Distinct := by
  rcases move_cases limit distinct m with same | step
  · rw [same]
    exact distinct
  · exact step.distinct distinct

theorem moves_distinct (limit : Nat) (moves : List PoolMove) {p : Pool} (distinct : p.Distinct) :
    (moves.foldl (move limit) p).Distinct := by
  induction moves generalizing p with
  | nil => exact distinct
  | cons m rest ih => exact ih (move_distinct limit distinct m)

theorem collects_leave (limit : Nat) (waiting running ended : List StaticTask)
    (record : CheckRecord) (trace : List Event) (distinct : (ended.map StaticTask.place).Nodup) :
    ∃ record' trace', (ended.map fun t => PoolMove.collect t.place).foldl (move limit)
      ⟨waiting, running, ended, record, trace⟩ = ⟨waiting, running, [], record', trace'⟩ := by
  induction ended generalizing record with
  | nil => exact ⟨record, trace, rfl⟩
  | cons t rest ih =>
    rw [List.map_cons, List.nodup_cons] at distinct
    have others : ∀ u ∈ [] ++ rest, u.place ≠ t.place := by
      intro u member same
      exact distinct.1 (same ▸ List.mem_map_of_mem member)
    have first : move limit ⟨waiting, running, t :: rest, record, trace⟩ (.collect t.place) =
        ⟨waiting, running, rest, record.close t.slug t.ending, trace⟩ := by
      have kept : (t :: rest).filter (·.place != t.place) = rest := filter_split rfl others
      simp [move, move?, kept]
    rw [List.map_cons, List.foldl_cons, first]
    exact ih _ distinct.2

theorem completion_leaves (limit : Nat) (t : StaticTask) (waiting rest : List StaticTask)
    (record : CheckRecord) (trace : List Event)
    (others : ∀ u ∈ rest, u.place ≠ t.place) :
    ∃ record' trace', (completion t).foldl (move limit) ⟨waiting, t :: rest, [], record, trace⟩ =
      ⟨waiting, rest, [], record', trace'⟩ := by
  obtain ⟨place, slug, steps, ending⟩ := t
  induction steps generalizing record trace with
  | nil =>
    have kept : ((⟨place, slug, [], ending⟩ : StaticTask) :: rest).filter (·.place != place) =
        rest := by
      have apart : ∀ u ∈ [] ++ rest, u.place ≠ place := by simpa using others
      exact filter_split (t := ⟨place, slug, [], ending⟩) rfl apart
    refine ⟨record.close slug ending, .ended place :: trace, ?_⟩
    simp [completion, move, move?, kept]
  | cons s steps ih =>
    have set : setTask ⟨place, slug, steps, ending⟩ (⟨place, slug, s :: steps, ending⟩ :: rest) =
        ⟨place, slug, steps, ending⟩ :: rest := by
      have apart : ∀ v ∈ [] ++ rest, v.place ≠ place := by simpa using others
      exact setTask_split (t := ⟨place, slug, s :: steps, ending⟩)
        (u := ⟨place, slug, steps, ending⟩) rfl apart
    have next : ∃ record' trace',
        move limit ⟨waiting, ⟨place, slug, s :: steps, ending⟩ :: rest, [], record, trace⟩
          (.step place) = ⟨waiting, ⟨place, slug, steps, ending⟩ :: rest, [], record', trace'⟩ := by
      cases s with
      | emit f => exact ⟨record.add f, trace, by simp [move, move?, perform, set]⟩
      | note text => exact ⟨record, .note text :: trace, by simp [move, move?, perform, set]⟩
    obtain ⟨record', trace', next⟩ := next
    have rest' := ih record' trace' others
    simpa [completion, List.replicate_succ, next] using rest'

theorem completions_leave (limit : Nat) (waiting running : List StaticTask)
    (record : CheckRecord) (trace : List Event)
    (distinct : (running.map StaticTask.place).Nodup) :
    ∃ record' trace', (running.flatMap completion).foldl (move limit)
      ⟨waiting, running, [], record, trace⟩ = ⟨waiting, [], [], record', trace'⟩ := by
  induction running generalizing record trace with
  | nil => exact ⟨record, trace, rfl⟩
  | cons t rest ih =>
    rw [List.map_cons, List.nodup_cons] at distinct
    have others : ∀ u ∈ rest, u.place ≠ t.place := by
      intro u member same
      exact distinct.1 (same ▸ List.mem_map_of_mem member)
    obtain ⟨record', trace', first⟩ := completion_leaves limit t waiting rest record trace others
    rw [List.flatMap_cons, List.foldl_append, first]
    exact ih record' trace' distinct.2

theorem starts_leave (limit : Nat) (waiting : List StaticTask) (record : CheckRecord)
    (trace : List Event) :
    ∃ record' trace', (waiting.flatMap fun t => .start :: completion t).foldl (move limit)
      ⟨waiting, [], [], record, trace⟩ = ⟨[], [], [], record', trace'⟩ := by
  induction waiting generalizing record trace with
  | nil => exact ⟨record, trace, rfl⟩
  | cons t rest ih =>
    have free : 0 < room limit := Nat.lt_of_lt_of_le Nat.one_pos (Nat.le_max_right limit 1)
    have start : move limit ⟨t :: rest, [], [], record, trace⟩ .start =
        ⟨rest, [t], [], record, .started t.place :: trace⟩ := by
      simp [move, move?, free]
    obtain ⟨record', trace', first⟩ :=
      completion_leaves limit t rest [] record (.started t.place :: trace) (by simp)
    rw [List.flatMap_cons, List.cons_append, List.foldl_cons, start, List.foldl_append, first]
    exact ih record' trace'

/-- Whatever moves come first, in the end nothing is left in the pool. -/
theorem complete_leaves_nothing (limit : Nat) (moves : List PoolMove) {p : Pool}
    (distinct : p.Distinct) : (p.complete limit moves).present = [] := by
  have reached := moves_distinct limit moves distinct
  unfold complete
  generalize moves.foldl (move limit) p = q at reached
  obtain ⟨waiting, running, ended, record, trace⟩ := q
  obtain ⟨r1, t1, h1⟩ := collects_leave limit waiting running ended record trace reached.ended
  obtain ⟨r2, t2, h2⟩ := completions_leave limit waiting running r1 t1 reached.running
  obtain ⟨r3, t3, h3⟩ := starts_leave limit waiting r2 t2
  simp only [remaining, List.foldl_append, h1, h2, h3]
  rfl

section Runs

variable {I : Pool → Prop} (limit : Nat) {p : Pool}

/-- What every step keeps is kept by any moves. -/
theorem moves_keep (distinct : ∀ p, I p → p.Distinct)
    (keeps : ∀ p q, I p → Step limit p q → I q) (h : I p) (moves : List PoolMove) :
    I (moves.foldl (move limit) p) := by
  induction moves generalizing p with
  | nil => exact h
  | cons m rest ih =>
    rw [List.foldl_cons]
    apply ih
    rcases move_cases limit (distinct p h) m with same | step
    · rw [same]
      exact h
    · exact keeps _ _ h step

/-- It is kept under supervision as well, and if nothing stops the moves, nothing is left. -/
theorem supervise_keeps (distinct : ∀ p, I p → p.Distinct)
    (keeps : ∀ p q, I p → Step limit p q → I q) (h : I p) (watch : Watch)
    (moves : List PoolMove) (clock : Nat) :
    I (supervise watch limit moves clock p).2.2 ∧
      ((supervise watch limit moves clock p).1 = none →
        (supervise watch limit moves clock p).2.2.present = []) := by
  induction moves generalizing p clock with
  | nil =>
    refine ⟨?_, fun _ => complete_leaves_nothing limit [] (distinct p h)⟩
    exact moves_keep limit distinct keeps (moves_keep limit distinct keeps h []) _
  | cons m rest ih =>
    have moved := ih (moves_keep limit distinct keeps h [m]) clock
    cases m with
    | start => exact moved
    | step place => exact moved
    | finish place => exact moved
    | collect place => exact moved
    | wait ms =>
      simp only [supervise]
      split
      · rename_i done
        refine ⟨h, fun _ => ?_⟩
        simpa [isDone, present, and_assoc, and_comm, and_left_comm] using done
      · cases stopped : watch.stop? false clock ms with
        | some s => exact ⟨h, by simp⟩
        | none => exact ih h (clock + ms)
    | heed =>
      simp only [supervise]
      split
      · exact ⟨h, by simp⟩
      · exact ih h clock

end Runs

end PluginAudit.Pool
