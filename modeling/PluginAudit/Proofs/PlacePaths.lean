import PluginAudit.FileTree
import PluginAudit.Proofs.PathSteps

/-!
The paths of places in a tree of files. If the names on the way are names that files can have, the
components of the path are the root and these names, and paths are compared as the lists of names.
-/

namespace PluginAudit

open Text

/-- Whether there can be a file of this name. -/
def FileTree.IsName (name : String) : Prop :=
  name ∉ ["", ".", ".."] ∧ '/' ∉ name.toList ∧ '\x00' ∉ name.toList ∧
    byteSize name.toList ≤ nameLimit

instance : DecidablePred FileTree.IsName := fun _ => inferInstanceAs (Decidable (_ ∧ _ ∧ _ ∧ _))

namespace FileTree

variable {name : String} {location other : Location}

theorem toList_pathOf (location : Location) :
    (pathOf location).text.toList = '/' :: joinWith ['/'] (location.map String.toList) := by
  rw [pathOf, String.toList_append, toList_intercalate]
  rfl

theorem isAbsolute_pathOf (location : Location) : (pathOf location).isAbsolute = true := by
  rw [Path.isAbsolute, toList_pathOf]
  rfl

/-- Names that lead to a place, each of which a file can have. -/
abbrev Named (location : Location) : Prop := ∀ name ∈ location, IsName name

theorem IsName.part_ne (valid : IsName name) :
    name.toList ≠ [] ∧ name.toList ≠ ['.'] ∧ name.toList ≠ ['.', '.'] := by
  have other (text : String) (listed : text ∈ ["", ".", ".."]) : name.toList ≠ text.toList :=
    fun same => valid.1 (String.toList_injective same ▸ listed)
  exact ⟨other "" (by simp), other "." (by simp), other ".." (by simp)⟩

theorem IsName.not_filler (valid : IsName name) : Path.isFiller name.toList = false := by
  obtain ⟨some, dot, -⟩ := valid.part_ne
  simp [Path.isFiller, some, dot]

theorem IsName.ofPart (valid : IsName name) : Path.ofPart name.toList = .name name := by
  rw [Path.ofPart, if_neg valid.part_ne.2.2, String.ofList_toList]

theorem IsName.isStep (valid : IsName name) : (Path.Component.name name).IsStep :=
  ⟨valid.2.1, valid.not_filler, valid.ofPart⟩

theorem mem_joinWith {mark : List Char} {parts : List (List Char)} {c : Char}
    (member : c ∈ joinWith mark parts) : c ∈ mark ∨ ∃ part ∈ parts, c ∈ part := by
  induction parts with
  | nil => cases member
  | cons part rest ih =>
    cases rest with
    | nil => exact .inr ⟨part, List.mem_cons_self, member⟩
    | cons next others =>
      simp only [joinWith, List.append_assoc, List.mem_append] at member
      rcases member with here | between | later
      · exact .inr ⟨part, List.mem_cons_self, here⟩
      · exact .inl between
      · rcases ih later with between | ⟨q, listed, there⟩
        · exact .inl between
        · exact .inr ⟨q, List.mem_cons_of_mem _ listed, there⟩

/-- What a path of a place is split into. The root has one part, which is empty. -/
theorem splitAt_names (named : Named location) :
    splitAt '/' (joinWith ['/'] (location.map String.toList)) =
      if location = [] then [[]] else location.map String.toList := by
  split
  · rename_i root
    rw [root]
    rfl
  · rename_i inner
    refine splitAt_joinWith (by simpa using inner) fun part member => ?_
    obtain ⟨name, there, rfl⟩ := List.mem_map.mp member
    exact (named name there).2.1

theorem components_pathOf (named : Named location) :
    (pathOf location).components = .root :: location.map .name := by
  have texts : (location.map Path.Component.name).map Path.Component.text = location := by
    rw [List.map_map]
    exact List.map_id location
  have written : (pathOf location).text.toList =
      '/' :: (Path.ofComponents (location.map .name)).toList := by
    rw [Path.ofComponents, texts, pathOf, String.toList_append]
    rfl
  have valid : ∀ c ∈ location.map Path.Component.name, c.IsStep := by
    intro c member
    obtain ⟨name, there, rfl⟩ := List.mem_map.mp member
    exact (named name there).isStep
  rw [Path.components_of_absolute written, Path.steps_ofComponents valid]

theorem same_pathOf (named : Named location) (named' : Named other) :
    (pathOf location).same (pathOf other) = decide (location = other) := by
  rw [Path.same, components_pathOf named, components_pathOf named', Bool.eq_iff_iff]
  have injective : Function.Injective (List.map Path.Component.name) :=
    List.map_injective_iff.mpr fun _ _ same => Path.Component.name.inj same
  simpa using injective.eq_iff

theorem lessComponents_names (names others : List String) :
    Path.lessComponents (names.map .name) (others.map .name) = decide (names < others) := by
  induction names generalizing others with
  | nil => cases others <;> simp [Path.lessComponents]
  | cons name rest ih =>
    cases others with
    | nil => simp [Path.lessComponents]
    | cons first later =>
      rw [Bool.eq_iff_iff]
      simp only [List.map_cons, Path.lessComponents, ih, Path.Component.less, Bool.or_eq_true,
        Bool.and_eq_true, beq_iff_eq, decide_eq_true_eq, Path.Component.name.injEq,
        List.cons_lt_cons_iff]

theorem less_pathOf (named : Named location) (named' : Named other) :
    (pathOf location).less (pathOf other) = decide (location < other) := by
  rw [Path.less, components_pathOf named, components_pathOf named', ← lessComponents_names]
  simp [Path.lessComponents, Path.Component.less, Path.Component.rank]

theorem isUnder_pathOf {above below : Location} (named : Named (above ++ below)) :
    (pathOf (above ++ below)).isUnder (pathOf above) = true := by
  have upper : Named above := fun name member => named name (List.mem_append_left _ member)
  rw [Path.isUnder_iff, components_pathOf named, components_pathOf upper, List.map_append,
    ← List.cons_append]
  exact List.prefix_append _ _

theorem dropWhile_isFiller (named : Named location) :
    (location.map String.toList).reverse.dropWhile Path.isFiller =
      (location.map String.toList).reverse := by
  cases shape : (location.map String.toList).reverse with
  | nil => rfl
  | cons part rest =>
    have member : part ∈ location.map String.toList := by
      rw [← List.mem_reverse, shape]
      exact List.mem_cons_self
    obtain ⟨n, there, rfl⟩ := List.mem_map.mp member
    rw [List.dropWhile_cons_of_neg (by simp [(named n there).not_filler])]

theorem parent_pathOf (named : Named (location ++ [name])) :
    (pathOf (location ++ [name])).parent = some (pathOf location) := by
  have valid : IsName name := named name (by simp)
  have upper : Named location := fun n member => named n (List.mem_append_left _ member)
  have parts : (splitAt '/' (joinWith ['/'] ((location ++ [name]).map String.toList))).reverse =
      name.toList :: (location.map String.toList).reverse := by
    rw [splitAt_names named, if_neg (by simp)]
    simp
  have front (body : List Char) :
      ('/' :: body).take (('/' :: body).length - body.length) = ['/'] := by
    simp
  have text : Path.mk (.ofList (['/'] ++ joinWith ['/'] (location.map String.toList))) =
      pathOf location := by
    have written := congrArg String.ofList (toList_pathOf location)
    rw [String.ofList_toList] at written
    exact congrArg Path.mk written.symm
  have last : (name.toList :: (location.map String.toList).reverse).dropWhile Path.isFiller =
      name.toList :: (location.map String.toList).reverse :=
    List.dropWhile_cons_of_neg (by simp [valid.not_filler])
  simp only [Path.parent, toList_pathOf, Path.lead, parts, last, dropWhile_isFiller upper,
    List.reverse_reverse, front, text]

theorem fileName_pathOf (named : Named (location ++ [name])) :
    (pathOf (location ++ [name])).fileName = some name := by
  rw [Path.fileName_eq_some_iff, components_pathOf named, List.map_append, ← List.cons_append]
  exact ⟨_, rfl⟩

end FileTree

end PluginAudit
