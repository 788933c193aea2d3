import PluginAudit.Proofs.Findings
import PluginAudit.Proofs.PoolSteps
import PluginAudit.Proofs.Trace

/-!
The account of the static checks. Whatever the moves are, every check is waiting, running, ended or
collected, its findings are still to come or in the record, and its failure is recorded when it is
collected. When nothing is left to do, everything is in the record.
-/

namespace PluginAudit

namespace StaticTask

/-- The task when it has nothing more to do. -/
def spent (t : StaticTask) : StaticTask := { t with steps := [] }

/-- The findings that are still to come. -/
def found (t : StaticTask) : List Finding := (StaticResult.mk t.steps t.ending).findings

def failure? (t : StaticTask) : Option Failure := CheckRecord.failureOf? t.slug t.ending

end StaticTask

namespace Pool

/-- How the tasks stand to a pool from which some have been collected. -/
structure Accounts (tasks collected : List StaticTask) (p : Pool) : Prop where
  whole : (collected ++ p.ended ++ (p.running ++ p.waiting).map StaticTask.spent).Perm
    (tasks.map StaticTask.spent)
  failures : p.record.failures = collected.filterMap StaticTask.failure?
  findings : (p.record.findings ++ (p.running ++ p.waiting).flatMap StaticTask.found).Perm
    (tasks.flatMap StaticTask.found)
  starts : (p.trace.filterMap Event.started?).Perm
    ((collected ++ p.ended ++ p.running).map StaticTask.place)
  ends : (p.trace.filterMap Event.ended?).Perm ((collected ++ p.ended).map StaticTask.place)
  kind : ∀ e ∈ p.trace, e.OfChecks ∧ e.asksHost = false

theorem Accounts.initial (tasks : List StaticTask) : Accounts tasks [] (.ofTasks tasks) where
  whole := by simp [ofTasks]
  failures := rfl
  findings := by simp [ofTasks, CheckRecord.empty, CheckRecord.findings, Files.toList]
  starts := by simp [ofTasks]
  ends := by simp [ofTasks]
  kind := by simp [ofTasks]

theorem Accounts.places {tasks collected : List StaticTask} {p : Pool}
    (h : Accounts tasks collected p) :
    ((collected ++ p.present).map StaticTask.place).Perm (tasks.map StaticTask.place) := by
  have perm := h.whole.map StaticTask.place
  have same (l : List StaticTask) :
      (l.map StaticTask.spent).map StaticTask.place = l.map StaticTask.place := by
    rw [List.map_map]
    rfl
  simpa only [List.map_append, same, present, List.append_assoc] using perm

theorem Accounts.distinct {tasks collected : List StaticTask} {p : Pool}
    (h : Accounts tasks collected p) (nodup : (tasks.map StaticTask.place).Nodup) :
    p.Distinct := by
  have all := h.places.nodup_iff.mpr nodup
  rw [List.map_append] at all
  exact all.of_append_right

theorem perm_taken {α : Type} (kept before after : List α) (a : α) :
    (kept ++ [a] ++ (before ++ after)).Perm (kept ++ (before ++ a :: after)) := by
  simpa using (List.perm_middle.symm.append_left kept : (kept ++ a :: (before ++ after)).Perm _)

theorem found_emit {t : StaticTask} {f : Finding} {steps : List StaticStep}
    (next : t.steps = .emit f :: steps) : t.found = f :: StaticTask.found { t with steps } := by
  simp [StaticTask.found, StaticResult.findings, next]

theorem found_note {t : StaticTask} {text : String} {steps : List StaticStep}
    (next : t.steps = .note text :: steps) : t.found = StaticTask.found { t with steps } := by
  simp [StaticTask.found, StaticResult.findings, next]

theorem found_spent {t : StaticTask} (spent : t.steps = []) : t.found = [] := by
  simp [StaticTask.found, StaticResult.findings, spent]

theorem spent_of_steps {t : StaticTask} (spent : t.steps = []) : t.spent = t := by
  cases t
  simp_all [StaticTask.spent]

/-- The account stays right with every step; a step that collects a check adds it at the end. -/
theorem Accounts.step {limit : Nat} {tasks collected : List StaticTask} {p q : Pool}
    (h : Accounts tasks collected p) (step : Step limit p q) :
    ∃ more, Accounts tasks (collected ++ more) q := by
  obtain ⟨whole, failures, findings, starts, ends, kind⟩ := h
  -- In each case two or three of the six parts change, by one task, finding or event.
  cases step with
  | start t waiting running ended record trace free =>
    refine ⟨[], ⟨?_, ?_, ?_, ?_, ?_, ?_⟩⟩
    · simpa using whole
    · simpa using failures
    · simpa using findings
    · simp only [List.append_nil, List.filterMap_cons, Event.started?]
      have moved := (starts.cons t.place).trans (List.perm_append_singleton t.place _).symm
      simpa using moved
    · simpa [List.filterMap_cons, Event.ended?] using ends
    · intro e member
      rcases List.mem_cons.mp member with rfl | member
      · exact ⟨⟨rfl, rfl⟩, rfl⟩
      · exact kind e member
  | emit t f steps waiting before after ended record trace next =>
    refine ⟨[], ⟨?_, ?_, ?_, ?_, ?_, ?_⟩⟩
    · simpa [StaticTask.spent] using whole
    · simpa using failures
    · refine List.Perm.trans ?_ findings
      simp only [List.flatMap_append, List.flatMap_cons, found_emit next]
      refine ((record.findings_add_perm f).append_right _).trans ?_
      rw [List.cons_append]
      refine List.perm_middle.symm.trans ?_
      refine List.Perm.append_left _ ?_
      simp only [List.append_assoc, List.cons_append]
      exact List.perm_middle.symm
    · simpa using starts
    · simpa using ends
    · exact kind
  | note t text steps waiting before after ended record trace next =>
    refine ⟨[], ⟨?_, ?_, ?_, ?_, ?_, ?_⟩⟩
    · simpa [StaticTask.spent] using whole
    · simpa using failures
    · simpa [found_note next] using findings
    · simpa [List.filterMap_cons, Event.started?] using starts
    · simpa [List.filterMap_cons, Event.ended?] using ends
    · intro e member
      rcases List.mem_cons.mp member with rfl | member
      · exact ⟨⟨rfl, rfl⟩, rfl⟩
      · exact kind e member
  | finish t waiting before after ended record trace spent =>
    refine ⟨[], ⟨?_, ?_, ?_, ?_, ?_, ?_⟩⟩
    · have moved := perm_taken (collected ++ ended) (before.map StaticTask.spent)
        ((after ++ waiting).map StaticTask.spent) t
      rw [← spent_of_steps spent] at moved
      refine List.Perm.trans ?_ whole
      simpa [spent_of_steps spent] using moved
    · simpa using failures
    · simpa [found_spent spent] using findings
    · refine starts.trans ?_
      have moved := (perm_taken (collected ++ ended) before after t).map StaticTask.place
      simpa using moved.symm
    · simp only [List.append_nil, List.filterMap_cons, Event.ended?]
      have moved := (ends.cons t.place).trans (List.perm_append_singleton t.place _).symm
      simpa using moved
    · intro e member
      rcases List.mem_cons.mp member with rfl | member
      · exact ⟨⟨rfl, rfl⟩, rfl⟩
      · exact kind e member
  | collect t waiting running before after record trace =>
    refine ⟨[t], ⟨?_, ?_, ?_, ?_, ?_, ?_⟩⟩
    · refine List.Perm.trans ?_ whole
      exact (perm_taken collected before after t).append_right _
    · simp only [CheckRecord.failures_close, List.filterMap_append]
      rw [failures]
      cases entry : CheckRecord.failureOf? t.slug t.ending <;> simp [StaticTask.failure?, entry]
    · simpa using findings
    · refine starts.trans ?_
      exact ((perm_taken collected before after t).symm.append_right _).map StaticTask.place
    · refine ends.trans ?_
      exact (perm_taken collected before after t).symm.map StaticTask.place
    · exact kind

section Runs

variable {tasks collected : List StaticTask} {p : Pool} (limit : Nat)

theorem Accounts.supervise (h : Accounts tasks collected p)
    (nodup : (tasks.map StaticTask.place).Nodup) (watch : Watch) (moves : List PoolMove)
    (clock : Nat) :
    ∃ collected, Accounts tasks collected (supervise watch limit moves clock p).2.2 ∧
      ((supervise watch limit moves clock p).1 = none →
        (supervise watch limit moves clock p).2.2.present = []) := by
  have kept := supervise_keeps limit (I := fun p => ∃ collected, Accounts tasks collected p)
    (fun _ ⟨_, h⟩ => h.distinct nodup)
    (fun _ _ ⟨_, h⟩ step => (h.step step).imp' _ fun _ later => later) ⟨collected, h⟩ watch moves
    clock
  obtain ⟨⟨all, account⟩, empty⟩ := kept
  exact ⟨all, account, empty⟩

theorem Accounts.settled (h : Accounts tasks collected p) (empty : p.present = []) :
    collected.Perm (tasks.map StaticTask.spent) ∧
      p.record.failures = collected.filterMap StaticTask.failure? ∧
      p.record.findings.Perm (tasks.flatMap StaticTask.found) ∧
      (p.trace.filterMap Event.started?).Perm (tasks.map StaticTask.place) ∧
      (p.trace.filterMap Event.ended?).Perm (tasks.map StaticTask.place) := by
  have places := h.places
  obtain ⟨whole, failures, findings, starts, ends, -⟩ := h
  simp only [present, List.append_eq_nil_iff] at empty
  obtain ⟨⟨ended, running⟩, waiting⟩ := empty
  simp only [present, ended, running, waiting, List.append_nil, List.map_nil, List.flatMap_nil] at *
  exact ⟨whole, failures, findings, starts.trans places, ends.trans places⟩

end Runs

end Pool

end PluginAudit
