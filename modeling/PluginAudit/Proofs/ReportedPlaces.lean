import PluginAudit.Proofs.RelativePaths

/-!
What a host's reports of files are taken for. Whether a path is the plugin's is decided by the
components it begins with. This tells where it leads only if no dots lead out of the root again, and
whose file it is only if the plugin has its directory to itself.
-/

namespace PluginAudit

namespace Path

variable {p base : Path} {inner outer names : List String} {rest : List Component}

/-- Where a component leads to, from a place given by its names, the innermost first. -/
def Component.go (place : List String) : Component → List String
  | .root => []
  | .here => place
  | .up => place.tail
  | .name s => s :: place

/-- The names that lead from the root to what an absolute path denotes. -/
def resolved (p : Path) : List String := (p.components.foldl Component.go []).reverse

/-- Whether components never lead out of a directory, from `depth` levels below it. -/
def staysBelow : (depth : Nat) → List Component → Bool
  | _, [] => true
  | depth, .name _ :: rest => staysBelow (depth + 1) rest
  | depth, .here :: rest => staysBelow depth rest
  | depth + 1, .up :: rest => staysBelow depth rest
  | 0, .up :: _ => false
  | _, .root :: _ => false

theorem foldl_go_names (names place : List String) :
    (names.map .name).foldl Component.go place = names.reverse ++ place := by
  induction names generalizing place with
  | nil => rfl
  | cons name more ih =>
    rw [List.map_cons, List.foldl_cons, ih, List.reverse_cons, List.append_assoc]
    rfl

theorem foldl_go_staysBelow (stays : staysBelow inner.length rest = true) :
    ∃ later, rest.foldl Component.go (inner ++ outer) = later ++ outer := by
  -- `inner` is what has been entered below `outer` and not been left again.
  induction rest generalizing inner with
  | nil => exact ⟨inner, rfl⟩
  | cons c more ih =>
    cases c with
    | root => simp [staysBelow] at stays
    | here => exact ih (by simpa [staysBelow] using stays)
    | name s => exact @ih (s :: inner) (by simpa [staysBelow] using stays)
    | up =>
      cases inner with
      | nil => simp [staysBelow] at stays
      | cons s deeper => exact ih (by simpa [staysBelow] using stays)

theorem resolved_append (below : p.components = base.components ++ rest) :
    p.resolved = (rest.foldl Component.go base.resolved.reverse).reverse := by
  rw [resolved, below, List.foldl_append, resolved, List.reverse_reverse]

theorem resolved_names (below : p.components = base.components ++ names.map .name) :
    p.resolved = base.resolved ++ names := by
  rw [resolved_append below, foldl_go_names, List.reverse_append, List.reverse_reverse,
    List.reverse_reverse]

theorem resolved_staysBelow (below : p.components = base.components ++ rest)
    (stays : staysBelow 0 rest = true) : base.resolved <+: p.resolved := by
  obtain ⟨later, reached⟩ := @foldl_go_staysBelow [] base.resolved.reverse rest stays
  rw [resolved_append below, ← List.nil_append base.resolved.reverse, reached,
    List.reverse_append, List.reverse_reverse]
  exact List.prefix_append _ _

theorem Component.IsStep.eq_name {c : Component} (step : c.IsStep) (plain : c ≠ .up) :
    c = .name c.text := by
  obtain ⟨separate, counts, -⟩ := step
  cases c with
  | root => exact absurd (List.mem_singleton.mpr rfl) separate
  | here => cases counts
  | up => exact absurd rfl plain
  | name s => rfl

/-- An absolute path without double dots is the root and names. -/
theorem components_plain (absolute : p.isAbsolute = true) (plain : .up ∉ p.components) :
    p.components = .root :: p.resolved.map .name := by
  obtain ⟨body, spelled⟩ := isAbsolute_iff.mp absolute
  have parts := components_of_absolute spelled
  have named : (steps body).map (Component.name ·.text) = steps body := by
    refine (List.map_congr_left fun c member => ?_).trans (List.map_id _)
    have other : c ≠ .up := by
      rintro rfl
      exact plain (parts ▸ List.mem_cons_of_mem _ member)
    exact ((isStep_of_mem_steps member).eq_name other).symm
  have whole : p.components = .root :: ((steps body).map Component.text).map .name := by
    rw [parts, List.map_map]
    exact congrArg _ named.symm
  have reached : p.resolved = (steps body).map Component.text := by
    rw [resolved, whole, List.foldl_cons, foldl_go_names, Component.go, List.append_nil,
      List.reverse_reverse]
  rw [reached, whole]

/-- What is not below a directory by its components is not there at all, if no dots are in use. -/
theorem isUnder_of_resolved (absolute : p.isAbsolute = true) (plain : .up ∉ p.components)
    (above : base.isAbsolute = true) (plain' : .up ∉ base.components)
    (inside : base.resolved <+: p.resolved) : p.isUnder base = true := by
  rw [isUnder_iff, components_plain absolute plain, components_plain above plain',
    List.prefix_cons_inj]
  exact inside.map _

end Path

namespace Context

open PluginAudit.Path

variable {p : Path} {context : Context} {name : String} {names : List String}
  {rest : List Component}

/-- Whether a path denotes a file of the plugin: the only one there is, or one in its directory. -/
def Means (context : Context) (p : Path) : Prop :=
  if context.singleFile then p.resolved = context.mainFile.resolved
  else context.root.resolved <+: p.resolved ∧ p.resolved ≠ context.root.resolved

theorem owns_iff : context.owns (some p) = true ↔
    ∃ rest, p.components = context.root.components ++ rest :=
  isUnder_iff.trans (exists_congr fun _ => eq_comm)

theorem place_below (below : p.components = context.root.components ++ rest) (line : Nat) :
    context.place (some p) line = (ofComponents rest, line) := by
  have owned : p.isUnder context.root = true := owns_iff.mpr ⟨rest, below⟩
  rw [place, if_pos owned, relative, relativeTo_append below]

theorem relative_main
    (main : context.mainFile.components = context.root.components ++ [.name name]) :
    context.relative context.mainFile = name := by
  rw [relative, relativeTo_append main]
  rfl

theorem place_elsewhere
    (main : context.mainFile.components = context.root.components ++ [.name name])
    {file : Option Path} (foreign : context.owns file = false) (line : Nat) :
    context.place file line = (name, 0) := by
  cases file with
  | none => rw [place, relative_main main]
  | some p =>
    have elsewhere : ¬p.isUnder context.root = true := Bool.eq_false_iff.mp foreign
    rw [place, if_neg elsewhere, relative_main main]

/-- What names lead to from the root is the plugin's, unless that is one file and this another. -/
theorem means_names_iff
    (main : context.mainFile.components = context.root.components ++ [.name name])
    (below : p.components = context.root.components ++ names.map .name) :
    context.Means p ↔ if context.singleFile then names = [name] else names ≠ [] := by
  have single : context.mainFile.resolved = context.root.resolved ++ [name] :=
    @resolved_names _ _ [name] main
  rw [Means, resolved_names below, single]
  cases context.singleFile <;> simp

theorem means_of_staysBelow (directory : context.singleFile = false)
    (below : p.components = context.root.components ++ rest) (stays : staysBelow 0 rest = true)
    (other : p.resolved ≠ context.root.resolved) : context.Means p := by
  rw [Means, directory]
  exact ⟨resolved_staysBelow below stays, other⟩

/-- A directory beside the root is reached through the root too, and what it holds is not the
plugin's. -/
theorem not_means_beside
    (main : context.mainFile.components = context.root.components ++ [.name name])
    {above : List String} {dir other : String} (root : context.root.resolved = above ++ [dir])
    (beside : other ≠ dir)
    (below : p.components = context.root.components ++ .up :: .name other :: names.map .name) :
    ¬context.Means p := by
  have single : context.mainFile.resolved = context.root.resolved ++ [name] :=
    @resolved_names _ _ [name] main
  have reached : p.resolved = above ++ other :: names := by
    rw [resolved_append below, root]
    simp [Component.go, foldl_go_names]
  rw [Means, single, reached, root]
  split
  · simp [beside]
  · simp [beside.symm]

theorem owns_of_means (formed : context.Formed) (absolute : p.isAbsolute = true)
    (plain : .up ∉ p.components) (plain' : .up ∉ context.mainFile.components)
    (meant : context.Means p) : context.owns (some p) = true := by
  obtain ⟨above, absolute', name, main⟩ := formed.main_below
  have plainRoot : .up ∉ context.root.components := fun member =>
    plain' (main ▸ List.mem_append_left _ member)
  refine isUnder_of_resolved absolute plain above plainRoot ?_
  -- Either way the path leads to something below the root, and without dots it is written so.
  rw [Means] at meant
  split at meant
  · rw [meant, @resolved_names _ _ [name] main]
    exact List.prefix_append _ _
  · exact meant.1

/-- A path is taken for the plugin's exactly if it begins with the components of the root, and all
else is laid to the main file. What is taken so is the plugin's where the plugin has a directory and
no dots lead out of it. A file beside a plugin that is one file is taken for the plugin's, and so is
one that is reached out of the root; neither is. -/
theorem place_exact (formed : context.Formed) (absolute : p.isAbsolute = true) (line : Nat) :
    ∃ name, context.mainFile.fileName = some name ∧
      (context.owns none = false ∧ context.place none line = (name, 0)) ∧
      (context.owns (some p) = true ↔ ∃ rest, p.components = context.root.components ++ rest) ∧
      (context.owns (some p) = false → context.place (some p) line = (name, 0)) ∧
      (∀ rest, p.components = context.root.components ++ rest →
        context.place (some p) line = (ofComponents rest, line) ∧
        (context.singleFile = false → staysBelow 0 rest = true →
          p.resolved ≠ context.root.resolved → context.Means p) ∧
        (∀ names : List String, rest = names.map .name →
          (context.Means p ↔ if context.singleFile then names = [name] else names ≠ [])) ∧
        (∀ (above names : List String) (dir other : String),
          context.root.resolved = above ++ [dir] → other ≠ dir →
          rest = .up :: .name other :: names.map .name → ¬context.Means p)) ∧
      (.up ∉ p.components → .up ∉ context.mainFile.components → context.Means p →
        context.owns (some p) = true) := by
  obtain ⟨-, -, name, main⟩ := formed.main_below
  have named : context.mainFile.fileName = some name := fileName_eq_some_iff.mpr ⟨_, main⟩
  refine ⟨name, named, ⟨rfl, place_elsewhere main rfl line⟩, owns_iff,
    fun foreign => place_elsewhere main foreign line, fun rest below => ⟨?_, ?_, ?_, ?_⟩, ?_⟩
  · exact place_below below line
  · exact fun directory stays other => means_of_staysBelow directory below stays other
  · rintro names rfl
    exact means_names_iff main below
  · rintro above names dir other root beside rfl
    exact not_means_beside main root beside below
  · exact fun plain plain' meant => owns_of_means formed absolute plain plain' meant

/-- A plugin that is one file, in the directory of all plugins. -/
def solo : Context where
  mainFile := ⟨"/wp/plugins/solo.php"⟩
  root := ⟨"/wp/plugins"⟩
  slug := "solo"
  basename := "solo.php"
  files := [⟨"/wp/plugins/solo.php"⟩]
  singleFile := true

theorem solo_formed : solo.Formed := @Formed.file ⟨"/wp/plugins/solo.php"⟩ solo (by rfl)

theorem place_exact_beside :
    (solo.place (some ⟨"/wp/plugins/other.php"⟩) 7 = ("other.php", 7) ∧
      ¬solo.Means ⟨"/wp/plugins/other.php"⟩) ∧
    (hello.place (some ⟨"/wp/plugins/hello/../other/x.php"⟩) 7 = ("../other/x.php", 7) ∧
      ¬hello.Means ⟨"/wp/plugins/hello/../other/x.php"⟩) := by
  obtain ⟨n, named, -, -, -, below, -⟩ :=
    place_exact (p := ⟨"/wp/plugins/other.php"⟩) solo_formed (by rfl) 7
  obtain ⟨placed, -, meant, -⟩ := below [.name "other.php"] (by decide +kernel)
  obtain rfl : n = "solo.php" := Option.some.inj (named.symm.trans (by decide +kernel))
  have foreign : ¬solo.Means ⟨"/wp/plugins/other.php"⟩ := fun its =>
    absurd ((meant ["other.php"] rfl).mp its) (by decide)
  obtain ⟨_, -, -, -, -, below', -⟩ :=
    place_exact (p := ⟨"/wp/plugins/hello/../other/x.php"⟩) hello_formed (by rfl) 7
  obtain ⟨placed', -, -, left⟩ := below' [.up, .name "other", .name "x.php"] (by decide +kernel)
  have foreign' := left ["wp", "plugins"] ["x.php"] "hello" "other" (by decide +kernel)
    (by decide) rfl
  exact ⟨⟨placed, foreign⟩, ⟨placed', foreign'⟩⟩

end Context

end PluginAudit
