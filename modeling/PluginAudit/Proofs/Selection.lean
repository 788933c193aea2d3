import PluginAudit.Run.Basic
import Mathlib.Data.List.Nodup

/-!
The selection of a run falls into static checks and runtime checks, each with its own place.
-/

namespace PluginAudit.Run

theorem split_perm (context : Context) (tree : FileTree) (placed : List (Check × Nat)) :
    ((placed.filterMap (staticTask? context tree)).map (fun t => (t.place, t.slug)) ++
      (placed.filterMap runtimeCheck?).map fun r => (r.1, r.2.1)).Perm
        (placed.map fun e => (e.2, e.1.slug)) := by
  induction placed with
  | nil => exact .nil
  | cons entry rest ih =>
    obtain ⟨⟨slug, categories, kind⟩, place⟩ := entry
    cases kind with
    | static check =>
      simpa [List.filterMap_cons, staticTask?, runtimeCheck?] using ih
    | runtime check =>
      simp only [List.filterMap_cons, staticTask?, runtimeCheck?, List.map_cons]
      exact List.perm_middle.trans (ih.cons _)

theorem selection_perm (context : Context) (tree : FileTree) (checks : List Check) :
    ((staticTasks context tree checks).map (fun t => (t.place, t.slug)) ++
      (runtimeChecks checks).map fun r => (r.1, r.2.1)).Perm
        (checks.zipIdx.map fun e => (e.2, e.1.slug)) := split_perm context tree checks.zipIdx

theorem places_perm (context : Context) (tree : FileTree) (checks : List Check) :
    ((staticTasks context tree checks).map StaticTask.place ++
      (runtimeChecks checks).map Prod.fst).Perm (List.range checks.length) := by
  have perm := (selection_perm context tree checks).map Prod.fst
  have places : (checks.zipIdx.map fun e => (e.2, e.1.slug)).map Prod.fst =
      List.range checks.length := by
    rw [List.map_map, List.range_eq_range', ← List.zipIdx_map_snd 0 checks]
    rfl
  rw [places, List.map_append, List.map_map, List.map_map] at perm
  exact perm

theorem places_nodup (context : Context) (tree : FileTree) (checks : List Check) :
    ((staticTasks context tree checks).map StaticTask.place).Nodup :=
  ((places_perm context tree checks).nodup_iff.mpr List.nodup_range).of_append_left

theorem places_disjoint (context : Context) (tree : FileTree) (checks : List Check) :
    ((staticTasks context tree checks).map StaticTask.place).Disjoint
      ((runtimeChecks checks).map Prod.fst) :=
  List.disjoint_of_nodup_append
    ((places_perm context tree checks).nodup_iff.mpr List.nodup_range)

theorem runtime_places_sorted (checks : List Check) :
    ((runtimeChecks checks).map Prod.fst).Pairwise (· < ·) := by
  have same (placed : List (Check × Nat)) :
      ((placed.filterMap runtimeCheck?).map Prod.fst).Sublist (placed.map Prod.snd) := by
    induction placed with
    | nil => exact .slnil
    | cons entry rest ih =>
      obtain ⟨⟨slug, categories, kind⟩, place⟩ := entry
      cases kind with
      | static check => exact ih.cons place
      | runtime check => exact ih.cons_cons place
  have places : checks.zipIdx.map Prod.snd = List.range' 0 checks.length :=
    List.zipIdx_map_snd 0 checks
  have sorted : (checks.zipIdx.map Prod.snd).Pairwise (· < ·) := by
    rw [places]
    exact List.pairwise_lt_range'
  exact sorted.sublist (same checks.zipIdx)

end PluginAudit.Run
