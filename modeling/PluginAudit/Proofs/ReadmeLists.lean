import PluginAudit.Proofs.ReadmeLines
import PluginAudit.Proofs.VersionText
import PluginAudit.Readme.Reader

/-!
Lists in the headers of a readme, as they are written: the parts between commas are read again.
-/

namespace PluginAudit.Readme

open Text

variable {parts : List (List Char)}

/-- White space before a list counts for nothing. -/
theorem map_trim_splitAt_blank (cs : List Char) :
    (splitAt ',' (' ' :: cs)).map trim = (splitAt ',' cs).map trim := by
  have blank (part : List Char) : trim (' ' :: part) = trim part := by
    rw [trim, trimStart, List.dropWhile_cons_of_pos (by decide)]
    rfl
  rw [splitAt, if_neg (by decide)]
  cases split : splitAt ',' cs with
  | nil => exact absurd split (splitAt_ne_nil ',' cs)
  | cons part others => simp [blank]

/-- The parts of a list, of which an empty one has one that is empty. -/
theorem map_trim_splitAt (plain : ∀ part ∈ parts, ',' ∉ part ∧ trim part = part) :
    (splitAt ',' (joinWith ", ".toList parts)).map trim = if parts = [] then [[]] else parts := by
  induction parts with
  | nil => rfl
  | cons part rest ih =>
    obtain ⟨line, trimmed⟩ := plain part List.mem_cons_self
    have later := ih fun q member => plain q (List.mem_cons_of_mem _ member)
    cases rest with
    | nil =>
      have single : joinWith ", ".toList [part] = part := rfl
      rw [single, splitAt_line line, List.map_singleton, trimmed, if_neg (List.cons_ne_nil _ _)]
    | cons next others =>
      have joined : joinWith ", ".toList (part :: next :: others) =
          part ++ ',' :: ' ' :: joinWith ", ".toList (next :: others) := by
        simp [joinWith]
      rw [joined, splitAt_append line, List.map_cons, map_trim_splitAt_blank, later, trimmed]
      simp

theorem listed_joined {names : List String}
    (plain : ∀ name ∈ names, ',' ∉ name.toList ∧ trim name.toList = name.toList)
    (some : ∀ name ∈ names, name ≠ "") :
    listed (", ".intercalate names) = names.map String.toList := by
  have parts : ∀ part ∈ names.map String.toList, ',' ∉ part ∧ trim part = part := by
    intro part member
    obtain ⟨name, there, rfl⟩ := List.mem_map.mp member
    exact plain name there
  rw [listed, toList_intercalate, map_trim_splitAt parts]
  split
  · rename_i none
    rw [none]
    rfl
  · refine List.filter_eq_self.mpr fun part member => ?_
    obtain ⟨name, there, rfl⟩ := List.mem_map.mp member
    simpa using some name there

theorem tagNames_joined {tags : List String}
    (plain : ∀ tag ∈ tags, ',' ∉ tag.toList ∧ trim tag.toList = tag.toList) :
    ((splitAt ',' (", ".intercalate tags).toList).map fun t => lower (trim t)).filter
      (!·.isEmpty) = (tags.map fun tag => lower tag.toList).filter (!·.isEmpty) := by
  have parts : ∀ part ∈ tags.map String.toList, ',' ∉ part ∧ trim part = part := by
    intro part member
    obtain ⟨tag, there, rfl⟩ := List.mem_map.mp member
    exact plain tag there
  have split := congrArg (List.map lower) (map_trim_splitAt parts)
  rw [List.map_map] at split
  rw [toList_intercalate]
  refine (congrArg (List.filter (!·.isEmpty)) split).trans ?_
  split
  · rename_i none
    rw [List.map_eq_nil_iff.mp none]
    rfl
  · rw [List.map_map]
    rfl

/-- Tags that are few and useful are read in small letters, without a warning. -/
theorem tagsOf_joined {tags : List String}
    (plain : ∀ tag ∈ tags, ',' ∉ tag.toList ∧ trim tag.toList = tag.toList)
    (few : tags.length ≤ tagLimit) (useful : ∀ tag ∈ tags, lower tag.toList ∉ uselessTags) :
    tagsOf (", ".intercalate tags) =
      ((tags.map fun tag => lower tag.toList).filter (!·.isEmpty), []) := by
  have kept : ∀ t ∈ (tags.map fun tag => lower tag.toList).filter (!·.isEmpty),
      uselessTags.contains t = false := by
    intro t member
    obtain ⟨tag, there, rfl⟩ := List.mem_map.mp (List.mem_filter.mp member).1
    simpa using useful tag there
  have short : ((tags.map fun tag => lower tag.toList).filter (!·.isEmpty)).length ≤ tagLimit := by
    have fewer := List.length_filter_le (!·.isEmpty) (tags.map fun tag => lower tag.toList)
    rw [List.length_map] at fewer
    omega
  have none : ((tags.map fun tag => lower tag.toList).filter (!·.isEmpty)).filter
      uselessTags.contains = [] :=
    List.filter_eq_nil_iff.mpr fun t member => by simp only [kept t member, Bool.false_eq_true,
      not_false_eq_true]
  have all : ((tags.map fun tag => lower tag.toList).filter (!·.isEmpty)).filter
      (!uselessTags.contains ·) = (tags.map fun tag => lower tag.toList).filter (!·.isEmpty) :=
    List.filter_eq_self.mpr fun t member => by rw [kept t member]; rfl
  simp only [tagsOf, tagNames_joined plain, none, all, List.take_of_length_le short, Nat.not_lt.mpr short,
    if_false, List.isEmpty_nil, if_true, List.append_nil]

theorem isUsername_plain {name : List Char} (valid : isUsername name = true) :
    name ≠ [] ∧ ',' ∉ name ∧ trim name = name := by
  obtain ⟨some, chars⟩ := Bool.and_eq_true_iff.mp valid
  have char := List.all_eq_true.mp chars
  refine ⟨by simpa using some, fun member => absurd (char _ member) (by decide), ?_⟩
  refine trim_solid fun c member => ?_
  have kind := char c member
  simp only [isUsernameChar, Bool.or_eq_true, beq_iff_eq] at kind
  rcases kind with ((((letter | digit) | rfl) | rfl) | rfl) | rfl
  · exact isBlank_of_isAlpha (Bool.or_eq_true_iff.mpr (.inr letter))
  · exact isBlank_digit digit
  all_goals decide

/-- Usernames are read as they are listed, and none of them is refused. -/
theorem listed_usernames {names : List String}
    (valid : ∀ name ∈ names, isUsername name.toList = true) :
    (listed (", ".intercalate names)).filter isUsername = names.map String.toList ∧
      (listed (", ".intercalate names)).filter (!isUsername ·) = [] := by
  have read : listed (", ".intercalate names) = names.map String.toList :=
    listed_joined (fun name member => (isUsername_plain (valid name member)).2) fun name member =>
      by simpa using (isUsername_plain (valid name member)).1
  have all : ∀ part ∈ names.map String.toList, isUsername part = true := by
    intro part member
    obtain ⟨name, there, rfl⟩ := List.mem_map.mp member
    exact valid name there
  rw [read]
  refine ⟨List.filter_eq_self.mpr all, List.filter_eq_nil_iff.mpr fun part member => ?_⟩
  simp [all part member]

end PluginAudit.Readme
