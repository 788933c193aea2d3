import PluginAudit.Proofs.ReadmeRules
import PluginAudit.Proofs.RecordedFindings

/-!
Warnings of a readme that are ignored. What the check of a readme finds when some keys are ignored
is what it finds when none is, without the warnings of these keys; the findings of its rules stay,
also where a rule and the reader object to the same text.
-/

namespace PluginAudit

namespace Finding

/-- Sorting by places and leaving findings out can be done in either order. -/
theorem mergeSort_filter (fs : List Finding) (keep : Finding → Bool) :
    (fs.filter keep).mergeSort upto = (fs.mergeSort upto).filter keep := by
  have sorted (fs : List Finding) :
      (fs.mergeSort upto).Pairwise fun f g => f.place.Upto g.place :=
    (List.pairwise_mergeSort upto_trans upto_total fs).imp upto_iff.mp
  have swap (fs : List Finding) (place : Place) : (fs.filter keep).filter (·.place = place) =
      (fs.filter (·.place = place)).filter keep := by
    rw [List.filter_filter, List.filter_filter]
    simp only [Bool.and_comm]
  -- Both lists are sorted, so it is enough to look at one place, where sorting moves nothing.
  refine eq_of_places (sorted _) ((sorted fs).filter keep) fun place => ?_
  rw [filter_mergeSort, swap, swap, filter_mergeSort]

end Finding

namespace ReadmeCheck

section Keys

variable {keys : List String}

/-- No rule has the code of a warning of the reader. -/
theorem ruleCode_ne {code : String} (listed : code ∈ ruleCodes) (key : String) :
    code ≠ "readme_parser_warnings_" ++ key := by
  have foreign : ∀ code ∈ ruleCodes, ¬"readme_parser_warnings_".toList <+: code.toList := by
    decide +kernel
  rintro rfl
  exact foreign _ listed ⟨key.toList, (String.toList_append).symm⟩

theorem FromRules.filter {fs : List Finding} (rules : FromRules fs) :
    fs.filter (fun f => ∀ key ∈ keys, f.code ≠ "readme_parser_warnings_" ++ key) = fs := by
  refine List.filter_eq_self.mpr fun f member => decide_eq_true fun key _ => ?_
  obtain ⟨code, listed, message, file, rfl | rfl⟩ := rules f member
  · exact ruleCode_ne listed key
  · exact ruleCode_ne listed key

theorem warningFindings_filter (readme : Readme) (defaults : List String) (file : String) :
    (warningFindings readme ⟨defaults, some keys⟩).map (·.within file) =
      ((warningFindings readme ⟨defaults, some []⟩).map (·.within file)).filter
        fun f => ∀ key ∈ keys, f.code ≠ "readme_parser_warnings_" ++ key := by
  have all : readme.warnings.filter (fun w => !IgnoredCodes.ignores ⟨defaults, some []⟩ w.key) =
      readme.warnings := List.filter_eq_self.mpr fun _ _ => rfl
  have told (key : String) : (!IgnoredCodes.ignores ⟨defaults, some keys⟩ key) =
      decide (∀ other ∈ keys, "readme_parser_warnings_" ++ key ≠
        "readme_parser_warnings_" ++ other) := by
    rw [IgnoredCodes.ignores, Option.getD_some, List.contains_eq_mem, ← decide_not]
    refine decide_eq_decide.mpr ⟨fun shown other member same => ?_, fun shown member => ?_⟩
    · rw [String.append_right_inj] at same
      exact shown (same ▸ member)
    · exact shown key member rfl
  simp only [warningFindings, all, told, List.filter_map, List.map_map]
  rfl

end Keys

section Runs

variable (versions : ReleaseInfo) (context : Context) (tree : FileTree)

theorem findings_ignoring (keys : List String) :
    (run ⟨versions, some keys⟩ context tree).findings =
      (run ⟨versions, some []⟩ context tree).findings.filter
        fun f => ∀ key ∈ keys, f.code ≠ "readme_parser_warnings_" ++ key := by
  obtain ⟨cause, ran⟩ | ⟨rules, ruled, ⟨e, -, ran⟩ | ⟨readme, file, ran⟩⟩ :=
    run_cases versions context tree
  · rw [ran, ran]
    rfl
  · rw [ran, ran, StaticResult.findings_emitting, ruled.filter]
  · rw [ran, ran, StaticResult.findings_ofFindings, StaticResult.findings_ofFindings,
      List.filter_append, ruled.filter, warningFindings_filter]

theorem ending_ignoring (ignored ignored' : Option (List String)) :
    (run ⟨versions, ignored⟩ context tree).ending =
      (run ⟨versions, ignored'⟩ context tree).ending := by
  obtain ⟨cause, ran⟩ | ⟨rules, -, ⟨e, -, ran⟩ | ⟨readme, file, ran⟩⟩ :=
    run_cases versions context tree
  · rw [ran, ran]
  · rw [ran, ran]
  · rw [ran, ran]
    rfl

theorem steps_of_failed (ignored : Option (List String)) :
    (run ⟨versions, ignored⟩ context tree).ending = .passed ∨
      (run ⟨versions, ignored⟩ context tree).ending = .broken .overflow ∨
      (run ⟨versions, ignored⟩ context tree).steps = [] := by
  obtain ⟨cause, ran⟩ | ⟨rules, -, ⟨e, rfl | rfl, ran⟩ | ⟨readme, file, ran⟩⟩ :=
    run_cases versions context tree
  · exact .inr (.inr (congrArg StaticResult.steps (ran ignored)))
  · exact .inl (congrArg StaticResult.ending (ran ignored))
  · exact .inr (.inl (congrArg StaticResult.ending (ran ignored)))
  · exact .inl (congrArg StaticResult.ending (ran ignored))

/-- Ignoring warnings leaves their findings out, as they are made and as they are recorded, and
changes nothing else. -/
theorem run_ignoring (keys : List String) :
    let all := run ⟨versions, some []⟩ context tree
    let told := run ⟨versions, some keys⟩ context tree
    let kept (f : Finding) : Bool := ∀ key ∈ keys, f.code ≠ "readme_parser_warnings_" ++ key
    told.findings = all.findings.filter kept ∧
      (CheckRecord.empty.addAll told.findings).findings =
        (CheckRecord.empty.addAll all.findings).findings.filter kept ∧
      run ⟨versions, none⟩ context tree =
        run ⟨versions, some ["contributor_ignored"]⟩ context tree ∧
      ∀ ignored, (run ⟨versions, ignored⟩ context tree).ending = all.ending ∧
        ((run ⟨versions, ignored⟩ context tree).ending = .passed ∨
          (run ⟨versions, ignored⟩ context tree).ending = .broken .overflow ∨
          (run ⟨versions, ignored⟩ context tree).steps = []) := by
  intro all told kept
  have found : told.findings = all.findings.filter kept :=
    findings_ignoring versions context tree keys
  refine ⟨found, ?_, rfl, fun ignored => ⟨ending_ignoring versions context tree ignored (some []),
    steps_of_failed versions context tree ignored⟩⟩
  rw [found, CheckRecord.findings_addAll, CheckRecord.findings_addAll, Finding.mergeSort_filter]

end Runs

end ReadmeCheck

end PluginAudit
