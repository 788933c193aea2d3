import PluginAudit.Proofs.ContextFiles
import PluginAudit.Proofs.PathSteps

/-!
Paths as a plugin's root sees them. Below the root the text of the components that are left leads
there again. Elsewhere all components are joined, the root among them: its text is a separator, and
so is what joins it to the next one.
-/

namespace PluginAudit

namespace Path

variable {p base : Path} {rest : List Component}

/-- The spelling of an absolute path with one separator before each component, and no other. -/
def neat (p : Path) : String := "/" ++ ofComponents p.components.tail

theorem components_neat (absolute : p.isAbsolute = true) :
    (Path.mk p.neat).components = p.components := by
  obtain ⟨body, spelled⟩ := isAbsolute_iff.mp absolute
  have written : (Path.mk p.neat).text.toList = '/' :: (ofComponents (steps body)).toList := by
    rw [neat, components_of_absolute spelled, String.toList_append]
    rfl
  rw [components_of_absolute written, components_of_absolute spelled,
    steps_ofComponents fun c => isStep_of_mem_steps]

theorem doubled_ne (text : String) : "/" ++ text ≠ text := by
  intro same
  have longer := congrArg String.length same
  rw [String.length_append] at longer
  have one : "/".length = 1 := rfl
  omega

/-- The components of two absolute paths, one below the other, differ by components that have a
text of their own. -/
theorem isStep_below (above : base.isAbsolute = true) (absolute : p.isAbsolute = true)
    (below : p.components = base.components ++ rest) : ∀ c ∈ rest, c.IsStep := by
  obtain ⟨upper, spelled⟩ := isAbsolute_iff.mp above
  obtain ⟨body, spelled'⟩ := isAbsolute_iff.mp absolute
  rw [components_of_absolute spelled, components_of_absolute spelled', List.cons_append,
    List.cons.injEq] at below
  intro c member
  exact isStep_of_mem_steps (below.2 ▸ List.mem_append_right _ member)

theorem not_absolute_relativeTo (above : base.isAbsolute = true) (absolute : p.isAbsolute = true)
    (under : p.isUnder base = true) : (p.relativeTo base).toList.head? ≠ some '/' := by
  obtain ⟨rest, below⟩ := isUnder_iff.mp under
  rw [relativeTo_append below.symm]
  exact not_absolute_ofComponents (isStep_below above absolute below.symm)

theorem components_join_relativeTo (above : base.isAbsolute = true)
    (absolute : p.isAbsolute = true) (under : p.isUnder base = true) :
    (base.join ⟨p.relativeTo base⟩).components = p.components := by
  obtain ⟨rest, below⟩ := isUnder_iff.mp under
  have seen : p.relativeTo base = ofComponents rest := relativeTo_append below.symm
  have relative : (Path.mk (p.relativeTo base)).isAbsolute = false := by
    simpa [isAbsolute] using not_absolute_relativeTo above absolute under
  rw [components_join above _ relative]
  simp only [seen]
  rw [steps_ofComponents (isStep_below above absolute below.symm), below]

/-- The separator that the root stands for is there beside the one that joins it. -/
theorem ofComponents_root (c : Component) (cs : List Component) :
    ofComponents (.root :: c :: cs) = "/" ++ ("/" ++ ofComponents (c :: cs)) := by
  apply String.toList_injective
  rw [String.toList_append, String.toList_append, toList_ofComponents, toList_ofComponents]
  rfl

theorem relativeTo_elsewhere (absolute : p.isAbsolute = true) (elsewhere : p.isUnder base = false) :
    p.relativeTo base = if p.components = [.root] then "/" else "/" ++ p.neat := by
  obtain ⟨body, spelled⟩ := isAbsolute_iff.mp absolute
  rw [relativeTo_outside elsewhere, neat, components_of_absolute spelled, List.tail_cons]
  -- Alone the root has nothing to be joined to.
  cases steps body with
  | nil => rfl
  | cons c cs =>
    rw [if_neg (by simp)]
    exact ofComponents_root c cs

end Path

namespace Context

open PluginAudit.Path

variable {p : Path} {context : Context}

theorem rootOf_eq_ok_iff {main root : Path} :
    rootOf main = .ok root ↔ main.isAbsolute = true ∧ main.parent = some root := by
  unfold rootOf
  cases main.isAbsolute <;> cases main.parent <;> simp

/-- What every context is about: an absolute path of a file, in a directory that is the root. -/
theorem Formed.main_below (formed : context.Formed) :
    context.root.isAbsolute = true ∧ context.mainFile.isAbsolute = true ∧
      ∃ name, context.mainFile.components = context.root.components ++ [.name name] := by
  obtain ⟨above, ⟨name, named⟩⟩ : rootOf context.mainFile = .ok context.root ∧
      ∃ name, nameOf context.mainFile = .ok name := by
    cases formed with
    | directory made =>
      obtain ⟨above, named, rfl, -⟩ := ofDirectory_spec made
      exact ⟨above, named⟩
    | file made =>
      obtain ⟨above, named, rfl, -⟩ := ofFile_spec made
      exact ⟨above, named⟩
  obtain ⟨absolute, parent⟩ := rootOf_eq_ok_iff.mp above
  obtain ⟨rooted, last, below⟩ := components_parent absolute parent
  refine ⟨rooted, absolute, ?_⟩
  cases given : context.mainFile.fileName with
  | none => simp [nameOf, given] at named
  | some n =>
    obtain ⟨earlier, ended⟩ := fileName_eq_some_iff.mp given
    obtain ⟨-, same⟩ := List.append_inj' (below.symm.trans ended) rfl
    exact ⟨n, below.trans (by rw [same])⟩

/-- Below the root a path is seen by a text that leads from the root to it. Elsewhere, where its own
text was to be kept, all but the topmost path get a separator too many. -/
theorem relative_exact (formed : context.Formed) (absolute : p.isAbsolute = true) :
    (p.isUnder context.root = true →
      (context.relative p).toList.head? ≠ some '/' ∧
      (context.root.join ⟨context.relative p⟩).same p = true) ∧
    (p.isUnder context.root = false →
      context.relative p = (if p.components = [.root] then "/" else "/" ++ p.neat) ∧
      (p.text = p.neat → (context.relative p = p.text ↔ p.text = "/"))) := by
  obtain ⟨rooted, -⟩ := formed.main_below
  refine ⟨fun under => ⟨?_, ?_⟩, fun elsewhere => ?_⟩
  · exact not_absolute_relativeTo rooted absolute under
  · rw [same, beq_iff_eq]
    exact components_join_relativeTo rooted absolute under
  · have seen : context.relative p = if p.components = [.root] then "/" else "/" ++ p.neat :=
      relativeTo_elsewhere absolute elsewhere
    refine ⟨seen, fun tidy => ⟨fun unchanged => ?_, fun top => ?_⟩⟩
    · rw [seen] at unchanged
      split at unchanged
      · exact unchanged.symm
      · exact absurd (unchanged.trans tidy) (doubled_ne p.neat)
    · have only : p.components = [.root] := components_of_absolute (congrArg String.toList top)
      rw [seen, if_pos only, top]

/-- A plugin in a directory that other plugins have theirs beside. -/
def hello : Context where
  mainFile := ⟨"/wp/plugins/hello/hello.php"⟩
  root := ⟨"/wp/plugins/hello"⟩
  slug := "hello"
  basename := "hello/hello.php"
  files := [⟨"/wp/plugins/hello/hello.php"⟩]
  singleFile := false

theorem hello_formed : hello.Formed :=
  @Formed.directory ⟨"/wp/plugins/hello/hello.php"⟩ [] hello (by rfl)

theorem relative_exact_hello :
    (hello.root.join ⟨hello.relative ⟨"/wp//plugins/hello/./inc/a.php"⟩⟩).same
        ⟨"/wp//plugins/hello/./inc/a.php"⟩ = true ∧
      (Path.mk "/wp/x.php").text = (Path.mk "/wp/x.php").neat ∧
      hello.relative ⟨"/wp/x.php"⟩ = "//wp/x.php" := by
  obtain ⟨inside, -⟩ :=
    relative_exact (p := ⟨"/wp//plugins/hello/./inc/a.php"⟩) hello_formed (by rfl)
  obtain ⟨-, outside⟩ := relative_exact (p := ⟨"/wp/x.php"⟩) hello_formed (by rfl)
  obtain ⟨seen, -⟩ := outside (by decide +kernel)
  refine ⟨(inside (by decide +kernel)).2, by decide +kernel, ?_⟩
  rw [seen]
  decide +kernel

end Context

end PluginAudit
