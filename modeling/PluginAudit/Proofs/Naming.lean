import PluginAudit.Run.Basic

/-!
Texts that name something. An error names what its failures name, and one that only tells that a
run has been stopped names no namespace of a run.
-/

namespace PluginAudit

/-- The name occurs in the text. -/
def Names (name text : String) : Prop := name.toList <:+: text.toList

instance (name text : String) : Decidable (Names name text) :=
  inferInstanceAs (Decidable (name.toList <:+: text.toList))

namespace Names

variable {name text : String}

theorem self (name : String) : Names name name := List.infix_rfl

theorem before (h : Names name text) (later : String) : Names name (text ++ later) := by
  rw [Names, String.toList_append]
  exact List.infix_append_of_infix_left h

theorem after (h : Names name text) (earlier : String) : Names name (earlier ++ text) := by
  rw [Names, String.toList_append]
  exact List.infix_append_of_infix_right h

theorem intercalate {texts : List String} (h : Names name text) (member : text ∈ texts)
    (separator : String) : Names name (String.intercalate separator texts) := by
  induction texts with
  | nil => cases member
  | cons first rest ih =>
    cases rest with
    | nil =>
      obtain rfl := List.mem_singleton.mp member
      rw [String.intercalate_singleton]
      exact h
    | cons second others =>
      rw [String.intercalate_cons_cons]
      cases List.mem_cons.mp member with
      | inl here =>
        subst here
        exact (h.before separator).before _
      | inr later => exact (ih later).after _

end Names

/-- A failure that names something. -/
def UndoFailure.Tells (name : String) (failures : List UndoFailure) : Prop :=
  ∃ f ∈ failures, Names name f.reason

theorem UndoFailure.Tells.joined {name : String} {failures : List UndoFailure}
    (h : UndoFailure.Tells name failures) : Names name (UndoFailure.joined failures) := by
  obtain ⟨f, member, named⟩ := h
  have told : Names name f.message := named.after (f.step ++ ": ")
  exact told.intercalate (List.mem_map_of_mem member) "; "

namespace RunError

variable {name : String} {failures : List UndoFailure}

theorem cleanup_names (h : UndoFailure.Tells name failures) :
    Names name (RunError.cleanup failures).message := by
  have told : Names name (UndoFailure.summary failures) :=
    h.joined.after (failures.length.repr ++ " cleanup step(s) failed: ")
  exact told.after "Cleanup failed: "

theorem setup_names (h : UndoFailure.Tells name failures) (preparation : String)
    (cause : HostRefusal) :
    Names name (RunError.setup ⟨preparation, cause, failures⟩).message := by
  have some : failures.isEmpty = false := by
    obtain ⟨f, member, -⟩ := h
    exact List.isEmpty_eq_false_iff.mpr (List.ne_nil_of_mem member)
  have told : Names name (" (rollback incomplete: " ++ UndoFailure.joined failures ++ ")") :=
    (h.joined.after " (rollback incomplete: ").before ")"
  have whole : Names name (SetupFailure.message ⟨preparation, cause, failures⟩) := by
    unfold SetupFailure.message
    rw [if_neg (Bool.eq_false_iff.mp some)]
    exact told.after _
  exact whole.after "Setup failed: "

/-- The cause of a failed setup is told as it is. -/
theorem setup_names_cause {cause : HostRefusal} (h : Names name cause.message)
    (preparation : String) (failures : List UndoFailure) :
    Names name (RunError.setup ⟨preparation, cause, failures⟩).message := by
  have whole : Names name (SetupFailure.message ⟨preparation, cause, failures⟩) := by
    unfold SetupFailure.message
    exact (h.after _).before _
  exact whole.after "Setup failed: "

theorem stopped_underscore (stop : Stop) : '_' ∉ (RunError.stopped stop).message.toList := by
  cases stop with
  | timedOut ms =>
    change '_' ∉ ("Run timed out after " ++ ms.repr ++ "ms").toList
    simp only [String.toList_append, List.mem_append, Nat.toList_repr,
      Nat.underscore_not_in_toDigits]
    decide +kernel
  | cancelled => decide +kernel

/-- The namespace of a run ends with an underscore, and there is none in what is said of a run that
has been stopped. -/
theorem stopped_names_nothing (settings : RunSettings) (id : String) (stop : Stop) :
    ¬Names (settings.namespaceName id) (RunError.stopped stop).message := by
  intro named
  refine stopped_underscore stop (named.subset ?_)
  rw [RunSettings.namespaceName, String.toList_append]
  exact List.mem_append_right _ (by decide)

end RunError

end PluginAudit
