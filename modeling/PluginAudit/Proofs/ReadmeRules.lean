import PluginAudit.Check.Readme
import PluginAudit.Proofs.VersionText

/-!
Where the findings of the readme check come from. The rules of the check have codes of their own;
behind their findings stand the warnings of the reader, which are all that the ignored keys bear on.
-/

namespace PluginAudit

theorem StaticResult.findings_emitting (fs : List Finding) (e : Ending) :
    (emitting fs e).findings = fs := by
  induction fs with
  | nil => rfl
  | cons f rest ih => exact congrArg (f :: ·) ih

theorem StaticResult.findings_ofFindings (fs : List Finding) : (ofFindings fs).findings = fs :=
  findings_emitting fs .passed

namespace ReadmeCheck

def ruleCodes : List String := [
  "no_plugin_readme", "empty_plugin_name", "invalid_plugin_name", "mismatched_plugin_name",
  "default_readme_text", "readme_restricted_contributors", "readme_reserved_contributors",
  "readme_invalid_contributors", "readme_invalid_donate_link", "no_stable_tag", "trunk_stable_tag",
  "stable_tag_mismatch", "no_license", "invalid_license", "license_mismatch",
  "outdated_tested_upto_header", "nonexistent_tested_upto_header"]

/-- Findings of rules: they have codes of rules and are about a file as a whole. -/
def FromRules (fs : List Finding) : Prop :=
  ∀ f ∈ fs, ∃ code ∈ ruleCodes, ∃ message file,
    f = (Finding.error code message).within file ∨ f = (Finding.warning code message).within file

namespace FromRules

variable {fs gs : List Finding} {code message : String}

theorem nil : FromRules [] := nofun

theorem error (listed : code ∈ ruleCodes) : FromRules [.error code message] :=
  List.forall_mem_singleton.mpr ⟨code, listed, message, "", .inl rfl⟩

theorem warning (listed : code ∈ ruleCodes) : FromRules [.warning code message] :=
  List.forall_mem_singleton.mpr ⟨code, listed, message, "", .inr rfl⟩

theorem append (first : FromRules fs) (last : FromRules gs) : FromRules (fs ++ gs) :=
  List.forall_mem_append.mpr ⟨first, last⟩

theorem ite {c : Prop} [Decidable c] (yes : FromRules fs) (no : FromRules gs) :
    FromRules (if c then fs else gs) := by
  split <;> assumption

theorem within (rules : FromRules fs) (file : String) : FromRules (fs.map (·.within file)) := by
  intro f member
  obtain ⟨g, there, rfl⟩ := List.mem_map.mp member
  obtain ⟨code, listed, message, _, rfl | rfl⟩ := rules g there
  · exact ⟨code, listed, message, file, .inl rfl⟩
  · exact ⟨code, listed, message, file, .inr rfl⟩

end FromRules

section Rules

variable (readme : Readme) (headers : HeaderBlock)

theorem nameFindings_fromRules : FromRules (nameFindings readme headers) := by
  refine .ite (.error (by decide)) (.ite (.error (by decide)) ?_)
  split
  · exact .ite .nil (.warning (by decide))
  · exact .nil

theorem placeholderFindings_fromRules : FromRules (placeholderFindings readme) :=
  .ite (.error (by decide)) .nil

theorem contributorFindings_fromRules : FromRules (contributorFindings readme) :=
  .append (.append (.ite .nil (.error (by decide))) (.ite .nil (.warning (by decide))))
    (.ite .nil (.warning (by decide)))

theorem donateFindings_fromRules : FromRules (donateFindings readme) := by
  unfold donateFindings
  split
  · exact .ite .nil (.warning (by decide))
  · exact .nil

theorem stableTagFindings_fromRules : FromRules (stableTagFindings readme headers) := by
  unfold stableTagFindings
  split
  · exact .error (by decide)
  · refine .ite (.error (by decide)) ?_
    split
    · exact .ite .nil (.error (by decide))
    · exact .nil

theorem licenseFindings_fromRules : FromRules (licenseFindings readme headers) := by
  unfold licenseFindings
  split
  · exact .error (by decide)
  · refine .append (.ite .nil (.error (by decide))) ?_
    split
    · exact .ite .nil (.error (by decide))
    · exact .nil

theorem earlierFindings_fromRules : FromRules (earlierFindings readme headers) :=
  .append (.append (.append (.append (.append (nameFindings_fromRules readme headers)
    (placeholderFindings_fromRules readme)) (contributorFindings_fromRules readme))
    (donateFindings_fromRules readme)) (stableTagFindings_fromRules readme headers))
    (licenseFindings_fromRules readme headers)

theorem testedFindings_cases (versions : ReleaseInfo) :
    testedFindings readme versions = .error .overflow ∨
      ∃ found, testedFindings readme versions = .ok found ∧ FromRules found := by
  unfold testedFindings
  split
  · exact .inr ⟨[], rfl, .nil⟩
  · split
    · split
      · exact .inr ⟨_, rfl, .error (by decide)⟩
      · split
        · exact .inl rfl
        · exact .inr ⟨_, rfl, .ite (.error (by decide)) .nil⟩
    · exact .inr ⟨[], rfl, .nil⟩

/-- If there is a release after the latest one, the check does not break down. -/
theorem testedFindings_passed {versions : ReleaseInfo}
    (more : ∀ release, versions.latest.bind (fun v => Version.pair? v.toList) = some release →
      ¬Version.IsLast release) : ∃ found, testedFindings readme versions = .ok found := by
  unfold testedFindings
  split
  · exact ⟨[], rfl⟩
  · split
    · rename_i latest _ known
      obtain ⟨version, -, pair⟩ := Option.bind_eq_some_iff.mp known
      rw [(Version.next?_eq_some_iff (Version.pair?_lt pair).1).mpr ⟨more latest known, rfl⟩]
      split <;> exact ⟨_, rfl⟩
    · exact ⟨[], rfl⟩

/-- A readme that has been tested with the latest release is up to date, unless that is the last one. -/
theorem testedFindings_current {versions : ReleaseInfo} {tested : String} {release : Nat × Nat}
    (given : readme.tested = some tested) (reads : Version.pair? tested.toList = some release)
    (known : versions.latest.bind (fun v => Version.pair? v.toList) = some release)
    (more : ¬Version.IsLast release) : testedFindings readme versions = .ok [] := by
  have old := Version.lessPair_self release
  have new := Version.not_lessPair_following release
  have next := (Version.next?_eq_some_iff (Version.pair?_lt reads).1).mpr ⟨more, rfl⟩
  simp only [testedFindings, given, reads, known, old, next, new, Bool.false_eq_true, if_false]

/-- The findings of the rules come first and depend on nothing that is ignored. Warnings follow
unless the check breaks down. -/
theorem findings_rules (versions : ReleaseInfo) : ∃ rules, FromRules rules ∧
    ((∀ ignored, findings ⟨versions, ignored⟩ readme headers = rules ∧
        ending ⟨versions, ignored⟩ readme = .broken .overflow) ∨
      ∀ ignored, findings ⟨versions, ignored⟩ readme headers =
          rules ++ warningFindings readme ⟨defaultIgnored, ignored⟩ ∧
        ending ⟨versions, ignored⟩ readme = .passed) := by
  have earlier := earlierFindings_fromRules readme headers
  rcases testedFindings_cases readme versions with broken | ⟨found, passed, ruled⟩
  · refine ⟨_, earlier, .inl fun ignored => ⟨?_, ?_⟩⟩
    · simp only [findings, broken, List.append_nil]
    · simp only [ending, broken]
  · refine ⟨_, earlier.append ruled, .inr fun ignored => ⟨?_, ?_⟩⟩
    · simp only [findings, passed, List.append_assoc]
      rfl
    · simp only [ending, passed]

end Rules

/-- What the check comes to, whatever is ignored: it fails before anything has been found, or it
breaks down or passes with the findings of its rules alone, or the warnings of a readme follow
these. -/
theorem run_cases (versions : ReleaseInfo) (context : Context) (tree : FileTree) :
    (∃ cause, ∀ ignored, run ⟨versions, ignored⟩ context tree = ⟨[], .failed cause⟩) ∨
    ∃ rules, FromRules rules ∧
      ((∃ e, (e = .passed ∨ e = .broken .overflow) ∧
          ∀ ignored, run ⟨versions, ignored⟩ context tree = .emitting rules e) ∨
        ∃ readme file, ∀ ignored, run ⟨versions, ignored⟩ context tree = .ofFindings (rules ++
          (warningFindings readme ⟨defaultIgnored, ignored⟩).map (·.within file))) := by
  unfold run
  split
  · exact .inr ⟨[], .nil, .inl ⟨.passed, .inl rfl, fun _ => rfl⟩⟩
  · split
    · exact .inr ⟨_, FromRules.within (.error (by decide)) "readme.txt",
        .inl ⟨.passed, .inl rfl, fun _ => rfl⟩⟩
    · rename_i path _
      split
      · exact .inl ⟨_, fun _ => rfl⟩
      · exact .inl ⟨_, fun _ => rfl⟩
      · rename_i source main _ _
        let readme := Readme.ofChars source (versions.stable?.getD "trunk") versions.php
        obtain ⟨rules, ruled, came⟩ := findings_rules readme (.ofChars main) versions
        refine .inr ⟨_, ruled.within (context.relative path), ?_⟩
        rcases came with broken | passed
        · refine .inl ⟨.broken .overflow, .inr rfl, fun ignored => ?_⟩
          dsimp only
          rw [(broken ignored).1, (broken ignored).2]
        · refine .inr ⟨readme, context.relative path, fun ignored => ?_⟩
          dsimp only
          rw [(passed ignored).1, (passed ignored).2, List.map_append]
          rfl

end ReadmeCheck

end PluginAudit
