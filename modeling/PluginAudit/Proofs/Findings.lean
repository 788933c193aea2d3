import PluginAudit.Check.Basic

/-!
What a record holds: no finding that is added gets lost or is kept twice, and the failures are
kept in the order in which they are recorded.
-/

namespace PluginAudit

namespace Entries

variable {κ α β : Type} [DecidableEq κ]

/-- If a changed value shows one thing more than the value before, so do the entries. -/
theorem update_perm (less : κ → κ → Bool) (key : κ) (change : Option α → α) (view : α → List β)
    (b : β) (fresh : view (change none) = [b]) (grown : ∀ v, (view (change (some v))).Perm (b :: view v))
    (entries : List (κ × α)) :
    ((update less key change entries).flatMap fun e => view e.2).Perm
      (b :: entries.flatMap fun e => view e.2) := by
  induction entries with
  | nil => simp [update, fresh]
  | cons entry rest ih =>
    obtain ⟨k, v⟩ := entry
    simp only [update]
    split
    · simp [fresh]
    · split
      · simpa using (grown v).append_right _
      · simp only [List.flatMap_cons]
        exact (ih.append_left _).trans List.perm_middle

end Entries

namespace Files

def inColumns (f : Finding) (found : Option (List Finding)) : List Finding := found.getD [] ++ [f]

def inLines (f : Finding) (columns : Option Columns) : Columns :=
  Entries.update Entries.natLess f.column (inColumns f) (columns.getD [])

def inFiles (f : Finding) (lines : Option Lines) : Lines :=
  Entries.update Entries.natLess f.line (inLines f) (lines.getD [])

theorem add_eq (files : Files) (f : Finding) :
    files.add f = Entries.update Entries.textLess f.file (inFiles f) files := rfl

theorem toList_add_perm (files : Files) (f : Finding) :
    (files.add f).toList.Perm (f :: files.toList) := by
  have columns (c : Columns) : ((inLines f (some c)).flatMap fun e => e.2).Perm
      (f :: c.flatMap fun e => e.2) :=
    Entries.update_perm _ _ (inColumns f) id f rfl (fun found => by simp [inColumns]) c
  have lines (l : Lines) : ((inFiles f (some l)).flatMap fun e => e.2.flatMap fun e => e.2).Perm
      (f :: l.flatMap fun e => e.2.flatMap fun e => e.2) :=
    Entries.update_perm _ _ (inLines f) (fun c : Columns => c.flatMap fun e => e.2) f rfl
      columns l
  rw [add_eq]
  exact Entries.update_perm _ _ (inFiles f)
    (fun l : Lines => l.flatMap fun e => e.2.flatMap fun e => e.2) f rfl lines files

end Files

namespace CheckRecord

theorem findings_add_perm (r : CheckRecord) (f : Finding) :
    (r.add f).findings.Perm (f :: r.findings) := r.files.toList_add_perm f

@[simp] theorem failures_add (r : CheckRecord) (f : Finding) : (r.add f).failures = r.failures :=
  rfl

/-- The entry of a check that has ended in some way, if it is to have one. -/
def failureOf? (slug : String) : Ending → Option Failure
  | .passed => none
  | .failed cause => some ⟨slug, cause.message⟩
  | .broken how => some ⟨slug, "check panicked: " ++ how.message⟩

@[simp] theorem findings_close (r : CheckRecord) (slug : String) (ending : Ending) :
    (r.close slug ending).findings = r.findings := by
  unfold close
  split <;> rfl

@[simp] theorem failures_close (r : CheckRecord) (slug : String) (ending : Ending) :
    (r.close slug ending).failures = r.failures ++ (failureOf? slug ending).toList := by
  cases ending with
  | passed => simp [close, Ending.failure?, failureOf?]
  | failed cause => simp [close, Ending.failure?, failureOf?, fail]
  | broken how => simp [close, Ending.failure?, failureOf?, fail]

end CheckRecord

end PluginAudit
