import PluginAudit.Proofs.DocBlock
import PluginAudit.Proofs.ReadmeLists
import PluginAudit.Proofs.ReadmeManuscript
import PluginAudit.Proofs.ReadmeRules
import PluginAudit.Proofs.TreePlaces
import PluginAudit.Proofs.VersionText

/-!
The check of a readme in its canonical form against a main file that declares its name, version
and licence. Nothing is found but where two of the values disagree, or where a value of the readme
is not accepted for itself.
-/

namespace PluginAudit

open Text

namespace Readme

open ReadmeCheck

/-- A readme with this stable tag and this licence that is beyond reproach otherwise, but for its
name. -/
structure Manuscript.Sound (m : Manuscript) (versions : ReleaseInfo) (stableTag license : String) :
    Prop where
  tagged : m.entries.lookup "stable tag" = some stableTag
  licensed : m.entries.lookup "license" = some license
  stated : stableTag ≠ "" ∧ license ≠ ""
  /-- It has been tested with the latest release, after which there can be others. -/
  tested : ∃ latest release, versions.latest = some latest ∧
    Version.pair? latest.toList = some release ∧ release.1 + 1 < Version.numberBound ∧
    m.entries.lookup "tested up to" = some (Version.pairText release)
  contributors : ∃ names, m.entries.lookup "contributors" = some (", ".intercalate names) ∧
    ∀ name ∈ names, isUsername name.toList = true ∧
      ∀ other ∈ templateNames ++ reservedNames, other.sameIgnoringCase name = false
  tags : ∃ tags, m.entries.lookup "tags" = some (", ".intercalate tags) ∧
    tags.length ≤ tagLimit ∧ ∀ tag ∈ tags, ',' ∉ tag.toList ∧ trim tag.toList = tag.toList ∧
      lower tag.toList ∉ ["tag1".toList, "plugin".toList, "wordpress".toList]
  undonated : m.entries.lookup "donate link" = none
  unbound : m.entries.lookup "requires at least" = none ∧ m.entries.lookup "requires php" = none
  own : containsText placeholderDescription (.ofList m.description.text) = false
  brief : m.parts = []

theorem readTitle_source (m : Manuscript) (closed : Bool) :
    readTitle (linesOf (m.source closed)) = (m.title.text, m.headerLines ++ [] ::
      m.description.text ::
        linesOfParts ([] :: (m.parts.flatMap Part.lines ++ Manuscript.ending closed))) := by
  rw [m.linesOf_source closed, readTitle, if_pos (isTitle_headline _),
    markedText_headline m.title.nonempty m.title.trimmed]

theorem lookup_header (m : Manuscript) (closed : Bool) (stableVersion recommendedPhp key : String) :
    (ofChars (m.source closed) stableVersion recommendedPhp).headers.lookup key =
      m.entries.lookup key := by
  obtain ⟨-, headers, -⟩ :=
    ofChars_parts (readTitle_source m closed) (m.readOpening _) stableVersion recommendedPhp
  rw [headers]
  exact Entries.lookup_ofList m.entries_distinct key

theorem header?_source (m : Manuscript) (closed : Bool) (stableVersion recommendedPhp : String)
    {key : String} (small : key.asciiLowered = key) :
    (ofChars (m.source closed) stableVersion recommendedPhp).header? key =
      (m.entries.lookup key).filter (!·.isEmpty) := by
  rw [header?, small, lookup_header]

theorem shortDescription_source (m : Manuscript) (closed : Bool)
    (stableVersion recommendedPhp : String) :
    (ofChars (m.source closed) stableVersion recommendedPhp).shortDescription =
      .ofList m.description.text := by
  obtain ⟨-, -, description, -⟩ :=
    ofChars_parts (readTitle_source m closed) (m.readOpening _) stableVersion recommendedPhp
  rw [description]
  exact congrArg String.ofList (List.take_of_length_le m.short)

theorem tagWarnings_source (m : Manuscript) (closed : Bool)
    (stableVersion recommendedPhp : String) {value : String}
    (tagging : m.entries.lookup "tags" = some value) :
    (tagsOf value).2 ⊆ (ofChars (m.source closed) stableVersion recommendedPhp).warnings := by
  have lookup := Entries.lookup_ofList m.entries_distinct "tags"
  intro warning listed
  simp only [ofChars, readTitle_source m closed, m.readOpening, lookup, tagging, List.mem_append]
  simp [listed]

/-- Nothing is left out of such a readme, so there is nothing to warn of. -/
theorem ofChars_sound {m : Manuscript} {versions : ReleaseInfo} {stableTag license : String}
    (sound : m.Sound versions stableTag license) (closed : Bool)
    (stableVersion recommendedPhp : String) :
    ∃ names tags release,
      (∀ name ∈ names, ∀ other ∈ templateNames ++ reservedNames,
        other.sameIgnoringCase name = false) ∧ "tag1" ∉ tags ∧
      versions.latest.bind (fun v => Version.pair? v.toList) = some release ∧
      release.1 + 1 < Version.numberBound ∧
      ofChars (m.source closed) stableVersion recommendedPhp = {
        name := .ofList m.title.text
        headers := Entries.ofList m.entries
        shortDescription := .ofList m.description.text
        tags
        contributors := names
        invalidContributors := []
        requires := none
        tested := some (Version.pairText release)
        requiresPhp := none
        sections := []
        warnings := [] } := by
  obtain ⟨latest, release, known, pair, major, tested⟩ := sound.tested
  obtain ⟨names, listing, valid⟩ := sound.contributors
  obtain ⟨tags, tagging, few, useful⟩ := sound.tags
  obtain ⟨unbound, unbound'⟩ := sound.unbound
  have title := readTitle_source m closed
  have opened := m.readOpening (m.parts.flatMap Part.lines ++ Manuscript.ending closed)
  rw [sound.brief, List.flatMap_nil, List.nil_append] at title opened
  have lookup := Entries.lookup_ofList m.entries_distinct
  obtain ⟨accepted, refused⟩ := listed_usernames fun name member => (valid name member).1
  have whole : (names.map String.toList).map String.ofList = names := by
    simp [Function.comp_def]
  have labels := tagsOf_joined (fun tag member => ⟨(useful tag member).1, (useful tag member).2.1⟩)
    few fun tag member listed => (useful tag member).2.2 (List.mem_cons_of_mem _ listed)
  have version : isVersion (Version.pairText release).toList = true :=
    Version.isVersion_pairText release
  -- Without sections nothing is left but the empty lines at the end.
  have sections : sectionsFrom none 0 (linesOfParts (Manuscript.ending closed)) = [] := by
    cases closed <;> rfl
  have short : ¬descriptionLimit < m.description.text.length := Nat.not_lt.mpr m.short
  refine ⟨names, ((tags.map fun tag => lower tag.toList).filter (!·.isEmpty)).map .ofList, release,
    fun name member => (valid name member).2, ?_, by simp [known, pair], major, ?_⟩
  · intro member
    obtain ⟨t, there, same⟩ := List.mem_map.mp member
    obtain ⟨tag, listed, rfl⟩ := List.mem_map.mp (List.mem_filter.mp there).1
    refine (useful tag listed).2.2 (List.mem_cons.mpr (.inl ?_))
    rw [← same, String.toList_ofList]
  · simp only [ofChars, title, opened, lookup, listing, tagging, tested, unbound, unbound', labels,
      Option.elim_some, accepted, refused, whole, readVersion, version, if_true,
      Option.bind_none, List.flatMap_nil, sections, List.map_nil,
      joinWith, List.take_of_length_le m.short, short, if_false, List.isEmpty_nil, List.append_nil]

end Readme

namespace ReadmeCheck

section Silent

variable {readme : Readme}

theorem placeholderFindings_eq_nil
    (own : containsText placeholderDescription readme.shortDescription = false)
    (tags : "tag1" ∉ readme.tags) (undonated : readme.donateLink? = none) :
    placeholderFindings readme = [] := by
  have unused : usesPlaceholders readme = false := by
    simp [usesPlaceholders, own, tags, undonated]
  rw [placeholderFindings, unused]
  rfl

theorem contributorFindings_eq_nil (allowed : ∀ name ∈ readme.contributors,
      ∀ other ∈ templateNames ++ reservedNames, other.sameIgnoringCase name = false)
    (valid : readme.invalidContributors = []) : contributorFindings readme = [] := by
  have absent {names : List String} (listed : ∀ n ∈ names, n ∈ templateNames ++ reservedNames) :
      namedIn names readme = [] := by
    refine List.filter_eq_nil_iff.mpr fun name member => ?_
    simpa using fun other there => allowed name member other (listed other there)
  have templates := absent fun n there => List.mem_append_left reservedNames there
  have reserved := absent fun n there => List.mem_append_right templateNames there
  simp [contributorFindings, templates, reserved, valid]

end Silent

section Found

variable {settings : Settings} {readme : Readme} {headers : HeaderBlock}

theorem code_of_warning {warning : Readme.Warning} (listed : warning ∈ readme.warnings)
    (told : settings.ignoreList.ignores warning.key = false)
    {found : List Finding} (passed : testedFindings readme settings.versions = .ok found) :
    "readme_parser_warnings_" ++ warning.key ∈
      (findings settings readme headers).map Finding.code := by
  have kept : warning ∈ readme.warnings.filter (!settings.ignoreList.ignores ·.key) :=
    List.mem_filter.mpr ⟨listed, by rw [told]; rfl⟩
  rw [findings, passed]
  exact List.mem_map.mpr ⟨_, List.mem_append_right _
    (List.mem_append_right _ (List.mem_map.mpr ⟨_, kept, rfl⟩)), rfl⟩

theorem code_of_untagged (untagged : readme.stableTag? = none) :
    "no_stable_tag" ∈ (findings settings readme headers).map Finding.code := by
  simp [findings, earlierFindings, stableTagFindings, untagged, Finding.error]

theorem code_of_unlicensed (unlicensed : readme.license? = none) :
    "no_license" ∈ (findings settings readme headers).map Finding.code := by
  simp [findings, earlierFindings, licenseFindings, unlicensed, Finding.error]

theorem code_of_template
    (quoted : containsText placeholderDescription readme.shortDescription = true) :
    "default_readme_text" ∈ (findings settings readme headers).map Finding.code := by
  simp [findings, earlierFindings, placeholderFindings, usesPlaceholders, quoted, Finding.error]

theorem code_of_untitled (untitled : readme.name = "") :
    "empty_plugin_name" ∈ (findings settings readme headers).map Finding.code := by
  simp [findings, earlierFindings, nameFindings, untitled, Finding.error]

end Found

/-- What is found when the name of the readme is compared with the declared one. -/
def nameCodes (declared told : String) : List String :=
  if told = placeholderName then ["invalid_plugin_name"]
  else if declared = told then [] else ["mismatched_plugin_name"]

/-- What is found when the stable tag is compared with the declared version. -/
def tagCodes (version tag : String) : List String :=
  if tag.sameIgnoringCase "trunk" then ["trunk_stable_tag"]
  else if version = tag then [] else ["stable_tag_mismatch"]

/-- What is found when the licence of the readme is looked at and compared with the declared one. -/
def licenseCodes (declared told : String) : List String :=
  (if acceptsLicense told then [] else ["invalid_license"]) ++
    if License.token declared = License.token told then [] else ["license_mismatch"]

theorem nameFindings_code {readme : Readme} {headers : HeaderBlock} {declared : String}
    (name : headers.name? = some declared) (some : readme.name ≠ "") :
    (nameFindings readme headers).map Finding.code = nameCodes declared readme.name := by
  have nonempty : readme.name.isEmpty = false := by simpa using some
  simp only [nameFindings, nonempty, name, nameCodes, Bool.false_eq_true, if_false]
  split
  · rfl
  · split <;> rfl

theorem stableTagFindings_code {readme : Readme} {headers : HeaderBlock} {version tag : String}
    (declared : headers.version? = some version) (told : readme.stableTag? = some tag) :
    (stableTagFindings readme headers).map Finding.code = tagCodes version tag := by
  simp only [stableTagFindings, told, declared, tagCodes]
  split
  · rfl
  · split <;> rfl

theorem licenseFindings_code {readme : Readme} {headers : HeaderBlock} {license told : String}
    (declared : headers.license? = some license) (stated : readme.license? = some told) :
    (licenseFindings readme headers).map Finding.code = licenseCodes license told := by
  simp only [licenseFindings, stated, declared, licenseCodes, List.map_append]
  by_cases accepted : acceptsLicense told = true <;>
    by_cases same : License.token license = License.token told <;>
      simp only [accepted, same, if_true, if_false, Bool.false_eq_true] <;> rfl

/-- The one file directly in the plugin's root that is named as a readme. -/
structure IsReadme (context : Context) (path : Path) : Prop where
  listed : path ∈ context.files
  inRoot : path.parent.any (·.same context.root) = true
  named : path.fileName = some "readme.txt"
  only : ∀ other ∈ context.files, other.parent.any (·.same context.root) = true →
    other.fileName.any (·.sameIgnoringCase "readme.txt") = true → other = path

theorem IsReadme.found {context : Context} {path : Path} (readme : IsReadme context path) :
    readmeOf? context = some path := by
  have first : context.files.find? (fun f => f.parent.any (·.same context.root) &&
      f.fileName.any (·.sameIgnoringCase "readme.txt")) = some path := by
    cases found : context.files.find? (fun f => f.parent.any (·.same context.root) &&
        f.fileName.any (·.sameIgnoringCase "readme.txt")) with
    | none =>
      have refused := List.find?_eq_none.mp found path readme.listed
      rw [readme.inRoot, readme.named] at refused
      exact absurd (by decide) refused
    | some other =>
      have accepted := List.find?_some found
      obtain ⟨inRoot, named⟩ := Bool.and_eq_true_iff.mp accepted
      rw [readme.only other (List.mem_of_find?_eq_some found) inRoot named]
  rw [readmeOf?, candidateNames, List.findSome?_cons, first]

section Sources

variable {settings : Settings} {context : Context} {tree : FileTree} {path : Path}
  {source main : List Char}

theorem run_of_read (directory : context.singleFile = false)
    (found : readmeOf? context = some path) (read : tree.readText path = .ok source)
    (readMain : tree.readText context.mainFile = .ok main) :
    let readme := Readme.ofChars source (settings.versions.stable?.getD "trunk")
      settings.versions.php
    run settings context tree =
      .emitting ((findings settings readme (.ofChars main)).map (·.within (context.relative path)))
        (ending settings readme) := by
  simp only [run, directory, found, read, readMain, Bool.false_eq_true, if_false]

theorem run_of_unreadable {e : FileError} (directory : context.singleFile = false)
    (found : readmeOf? context = some path) (read : tree.readText path = .ok source)
    (failed : tree.readText context.mainFile = .error e) :
    run settings context tree = ⟨[], .failed (.file context.mainFile e)⟩ := by
  simp only [run, directory, found, read, failed, Bool.false_eq_true, if_false]

end Sources

open Readme
open HeaderBlock (IsValue Declares scanLimit)

/-- A plugin in a directory of its own, with a readme in canonical form and a main file that
declares a name, a version and a licence. -/
structure Declared (context : Context) (tree : FileTree) (m : Manuscript)
    (name version license : List Char) : Prop where
  directory : context.singleFile = false
  readme : ∃ path closed, IsReadme context path ∧ tree.readText path = .ok (m.source closed)
  main : ∃ source, tree.readText context.mainFile = .ok source ∧
    Declares source "Plugin Name" name ∧ Declares source "Version" version ∧
    Declares source "License" license
  valid : IsValue name ∧ IsValue version ∧ IsValue license

theorem Declared.codes {context : Context} {tree : FileTree} {m : Manuscript}
    {name version license : List Char} (declared : Declared context tree m name version license)
    (settings : Settings) :
    ∃ closed headers, HeaderBlock.name? headers = some (.ofList name) ∧
      headers.version? = some (.ofList version) ∧ headers.license? = some (.ofList license) ∧
        let readme := ofChars (m.source closed) (settings.versions.stable?.getD "trunk")
          settings.versions.php
        (run settings context tree).ending = ending settings readme ∧
        (run settings context tree).findings.map Finding.code =
          (findings settings readme headers).map Finding.code := by
  obtain ⟨directory, ⟨path, closed, readme, read⟩, ⟨source, main, named, versioned, licensed⟩,
    validName, validVersion, validLicense⟩ := declared
  have ran := @run_of_read settings _ _ _ _ _ directory readme.found read main
  refine ⟨closed, .ofChars source, HeaderBlock.get?_of_declares (by decide) validName named,
    HeaderBlock.get?_of_declares (by decide) validVersion versioned,
    HeaderBlock.get?_of_declares (by decide) validLicense licensed, by rw [ran]; rfl, ?_⟩
  rw [ran, StaticResult.findings_emitting, List.map_map]
  rfl

theorem findings_sound {settings : Settings} {m : Manuscript} {stableTag told : String}
    (sound : m.Sound settings.versions stableTag told) (closed : Bool) (stable php : String)
    {headers : HeaderBlock} {name version license : String} (named : headers.name? = some name)
    (versioned : headers.version? = some version) (licensed : headers.license? = some license) :
    ending settings (ofChars (m.source closed) stable php) = .passed ∧
    (findings settings (ofChars (m.source closed) stable php) headers).map Finding.code =
      nameCodes name (.ofList m.title.text) ++ tagCodes version stableTag ++
        licenseCodes license told := by
  obtain ⟨names, tags, release, allowed, useful, known, major, read⟩ :=
    ofChars_sound sound closed stable php
  have undonated := header?_source m closed stable php (by decide : "donate link".asciiLowered = _)
  have tag := header?_source m closed stable php (by decide : "stable tag".asciiLowered = _)
  have licence := header?_source m closed stable php (by decide : "license".asciiLowered = _)
  rw [sound.undonated] at undonated
  rw [sound.tagged, Option.filter_some, if_pos (by simpa using sound.stated.1)] at tag
  rw [sound.licensed, Option.filter_some, if_pos (by simpa using sound.stated.2)] at licence
  generalize ofChars (m.source closed) stable php = readme at read undonated tag licence
  have title : readme.name ≠ "" := by
    rw [read]
    simpa using m.title.nonempty
  have nameCode := nameFindings_code named title
  have placeholder : placeholderFindings readme = [] :=
    placeholderFindings_eq_nil (by rw [read]; exact sound.own) (by rw [read]; exact useful)
      undonated
  have contributors : contributorFindings readme = [] :=
    contributorFindings_eq_nil (by rw [read]; exact allowed) (by rw [read])
  have more : ¬Version.IsLast release := fun last => Nat.ne_of_lt major last.1
  have reads : Version.pair? (Version.pairText release).toList = some release := by
    obtain ⟨latest, -, pair⟩ := Option.bind_eq_some_iff.mp known
    exact Version.pair?_pairText (Version.pair?_lt pair).1 (Version.pair?_lt pair).2
  have tested := testedFindings_current readme (by rw [read]) reads known more
  have donate : donateFindings readme = [] := by rw [donateFindings, donateLink?, undonated]; rfl
  have warnings : warningFindings readme settings.ignoreList = [] := by
    rw [warningFindings, read]
    rfl
  refine ⟨by rw [ending, tested], ?_⟩
  rw [findings, earlierFindings, placeholder, contributors, donate, tested, warnings]
  simp only [List.append_nil, List.map_append, nameCode, stableTagFindings_code versioned tag,
    licenseFindings_code licensed licence]
  rw [read]

/-- Two readers find the same values, so nothing is found but where they differ. -/
theorem run_declared {settings : Settings} {context : Context} {tree : FileTree} {m : Manuscript}
    {name version license : List Char} {stableTag told : String}
    (declared : Declared context tree m name version license)
    (sound : m.Sound settings.versions stableTag told) :
    let result := run settings context tree
    result.ending = .passed ∧
      result.findings.map Finding.code = nameCodes (.ofList name) (.ofList m.title.text) ++
        tagCodes (.ofList version) stableTag ++ licenseCodes (.ofList license) told ∧
      (name = m.title.text → String.ofList name ≠ placeholderName →
        String.ofList version = stableTag → stableTag.sameIgnoringCase "trunk" = false →
        String.ofList license = told → acceptsLicense told = true → result.findings = []) := by
  obtain ⟨closed, headers, named, versioned, licensed, ends, ran⟩ := declared.codes settings
  obtain ⟨passed, found⟩ := findings_sound sound closed _ _ named versioned licensed
  have codes := ran.trans found
  refine ⟨ends.trans passed, codes, ?_⟩
  intro sameName own sameVersion other sameLicense accepted
  rw [← sameName, ← sameVersion, ← sameLicense] at codes
  rw [← sameVersion] at other
  rw [← sameLicense] at accepted
  rw [nameCodes, tagCodes, licenseCodes, if_neg own, if_pos rfl, other, accepted] at codes
  exact List.map_eq_nil_iff.mp (codes.trans (by simp))

namespace Demo

open FileTree

def name : Caption := ⟨⟨"Demo".toList, by decide, by decide⟩, by decide⟩
def version : Phrase := ⟨"1.0".toList, by decide, by decide⟩
def license : Phrase := ⟨"MIT".toList, by decide, by decide⟩
def labels : Phrase := ⟨"testing".toList, by decide, by decide⟩
def nothing : Phrase := ⟨"".toList, by decide, by decide⟩

def key (name : String) (chars : name.toList.all isKeyChar = true)
    (ends : (name.toList.head?.any Char.isAlpha && name.toList.getLast?.any Char.isAlpha) = true) :
    HeaderKey where
  text := name.toList
  chars := List.all_eq_true.mp chars
  first := (Bool.and_eq_true_iff.mp ends).1
  last := (Bool.and_eq_true_iff.mp ends).2

/-- A readme with these values of three of its headers. -/
def manuscript (tags stableTag license : Phrase) : Manuscript where
  title := name
  headers := [
    (key "Contributors" (by decide) (by decide), ⟨"author".toList, by decide, by decide⟩),
    (key "Tags" (by decide) (by decide), tags),
    (key "Tested up to" (by decide) (by decide), ⟨"6.7".toList, by decide, by decide⟩),
    (key "Stable tag" (by decide) (by decide), stableTag),
    (key "License" (by decide) (by decide), license)]
  headed := List.cons_ne_nil _ _
  distinct := (by decide : (["Contributors", "Tags", "Tested up to", "Stable tag", "License"].map
    fun key => asciiLower key.toList).Nodup)
  description := ⟨⟨"Checks plugins.".toList, by decide, by decide⟩, by decide⟩
  short := by decide
  unmarked := by decide
  plain := by decide
  parts := []

def headed (name : String) (value : List Char) : List Char :=
  " * ".toList ++ name.toList ++ ':' :: ' ' :: value

def mainLines : List (List Char) := ["<?php".toList, "/**".toList, headed "Plugin Name" name.text,
  headed "Version" version.text, headed "License" license.text, " */".toList]

def main : List Char := joinWith ['\n'] (mainLines ++ [[]])

def settings : Settings := ⟨.ofLatest "6.7.1", none⟩

/-- A plugin in a directory of its own, with other files before the two that are read. -/
def tree (others : List (String × Bytes)) (main readme : Bytes) : FileTree :=
  ⟨.directory [("demo", .directory ((others ++ [("demo.php", main), ("readme.txt", readme)]).map
    fun file => (file.1, .file file.2)))], []⟩

def context (others : List String) : Context where
  mainFile := pathOf ["demo", "demo.php"]
  root := pathOf ["demo"]
  slug := "demo"
  basename := "demo/demo.php"
  files := (others ++ ["demo.php", "readme.txt"]).map fun file => pathOf ["demo", file]
  singleFile := false

theorem read_tree {others : List (String × Bytes)} {main readme data : Bytes} {file : String}
    (named : Named ["demo", file])
    (found : (tree others main readme).root.find? ["demo", file] = some (.file data))
    (short : byteSize (pathOf ["demo", file]).text.toList < pathLimit) :
    (tree others main readme).read (pathOf ["demo", file]) = .ok data :=
  read_pathOf _ named found (List.cons_ne_nil _ _) short

theorem writes (name : String) (value : List Char) :
    HeaderBlock.Writes name value (headed name value) := by
  have blank : ∀ c ∈ [' '], isBlank c := List.all_eq_true.mp (by decide)
  refine ⟨" * ".toList, name.toList, [' '], [], ?_, List.all_eq_true.mp (by decide), ?_, blank,
    by simp⟩
  · simp only [headed, List.append_nil, List.singleton_append]
  · simp [sameIgnoringCase]

theorem declares : Declares main "Plugin Name" name.text ∧ Declares main "Version" version.text ∧
    Declares main "License" license.text := by
  have first : lines (takeBytes scanLimit main) = "<?php".toList :: "/**".toList ::
      headed "Plugin Name" name.text :: headed "Version" version.text ::
        headed "License" license.text :: [" */".toList] := by decide +kernel
  refine ⟨⟨["<?php".toList, "/**".toList], _, _, first, ?_, writes _ _⟩,
    ⟨["<?php".toList, "/**".toList, headed "Plugin Name" name.text], _, _, first, ?_, writes _ _⟩,
    ⟨["<?php".toList, "/**".toList, headed "Plugin Name" name.text,
      headed "Version" version.text], _, _, first, ?_, writes _ _⟩⟩
  all_goals decide +kernel

def plugin (m : Manuscript) : FileTree := tree [] (encode main) (encode (m.source true))

theorem declared (m : Manuscript) :
    Declared (context []) (plugin m) m name.text version.text license.text where
  directory := rfl
  readme := ⟨pathOf ["demo", "readme.txt"], true,
    ⟨by decide, by decide, by decide, by decide⟩,
    readText_of_read (read_tree (by decide) rfl (by decide))⟩
  main := ⟨main, readText_of_read (read_tree (by decide) rfl (by decide)), declares⟩
  valid :=
    ⟨⟨name.nonempty, name.trimmed, name.oneLine, by decide +kernel, by decide +kernel⟩,
      ⟨by decide, version.trimmed, version.oneLine, by decide +kernel, by decide +kernel⟩,
      ⟨by decide, license.trimmed, license.oneLine, by decide +kernel, by decide +kernel⟩⟩

theorem sound : (manuscript labels version license).Sound settings.versions "1.0" "MIT" where
  tagged := by decide
  licensed := by decide
  stated := by decide
  tested := ⟨"6.7.1", (6, 7), rfl, by decide, by decide, by decide⟩
  contributors := ⟨["author"], by decide, by decide⟩
  tags := ⟨["testing"], by decide, by decide, by decide⟩
  undonated := by decide
  unbound := by decide
  own := by decide
  brief := rfl

theorem run_declared_demo :
    let result := run settings (context []) (plugin (manuscript labels version license))
    result.ending = .passed ∧ result.findings = [] := by
  obtain ⟨passed, -, silent⟩ := run_declared (declared _) sound
  exact ⟨passed, silent rfl (by decide) String.ofList_toList (by decide) String.ofList_toList
    (by decide +kernel)⟩

def quotation : List Char := (placeholderDescription ++ " Yes.").toList

theorem quotation_plain : trim quotation = quotation ∧ '\n' ∉ quotation ∧ quotation ≠ [] ∧
    quotation.length ≤ descriptionLimit ∧ quotation.head? ≠ some '\uFEFF' ∧
      isHeading quotation = false := by
  decide +kernel

/-- A readme with the template's sentence in its description. -/
def template : Manuscript := { manuscript labels version license with
  description := ⟨⟨quotation, quotation_plain.1, quotation_plain.2.1⟩, quotation_plain.2.2.1⟩
  short := quotation_plain.2.2.2.1
  unmarked := quotation_plain.2.2.2.2.1
  plain := quotation_plain.2.2.2.2.2 }

/-- More is found, or nothing is read, if a tag is useless in another case, a value is empty, the
description goes on after the template's sentence, another file has the readme's name in capitals,
or the main file is no text. -/
theorem run_beyond :
    let capital := manuscript ⟨"Plugin".toList, by decide, by decide⟩ version license
    let untagged := manuscript labels nothing license
    let unlicensed := manuscript labels version nothing
    let readme := encode ((manuscript labels version license).source true)
    let codes others tree := (run settings (context others) tree).findings.map Finding.code
    (∀ m, Declared (context []) (plugin m) m name.text version.text license.text) ∧
      "readme_parser_warnings_ignored_tags" ∈ codes [] (plugin capital) ∧
      "no_stable_tag" ∈ codes [] (plugin untagged) ∧
      "no_license" ∈ codes [] (plugin unlicensed) ∧
      "default_readme_text" ∈ codes [] (plugin template) ∧
      "empty_plugin_name" ∈
        codes ["README.TXT"] (tree [("README.TXT", [])] (encode main) readme) ∧
      (run settings (context []) (tree [] (encode main ++ [0xFF]) readme)).ending =
        .failed (.file (pathOf ["demo", "demo.php"]) .notText) := by
  intro capital untagged unlicensed readme codes
  have more (readme : Readme) : ∃ found, testedFindings readme settings.versions = .ok found := by
    refine testedFindings_passed readme fun release known last => ?_
    obtain rfl : (6, 7) = release := Option.some.inj known
    exact absurd last.1 (by decide)
  have mem_codes {m : Manuscript} {code : String} (listed : ∀ closed stable php headers,
      code ∈ (findings settings (ofChars (m.source closed) stable php) headers).map Finding.code) :
      code ∈ codes [] (plugin m) := by
    obtain ⟨closed, headers, -, -, -, -, ran⟩ := (declared m).codes settings
    simp only [codes, ran]
    exact listed closed _ _ headers
  refine ⟨declared, mem_codes ?_, mem_codes ?_, mem_codes ?_, mem_codes ?_, ?_, ?_⟩
  · intro closed stable php headers
    have warned : tagsWarning ["plugin".toList] ∈ (tagsOf "Plugin").2 := by decide +kernel
    obtain ⟨found, passed⟩ := more (ofChars (capital.source closed) stable php)
    exact code_of_warning (tagWarnings_source capital closed stable php (by decide) warned)
      (by decide) passed
  · intro closed stable php headers
    refine code_of_untagged ?_
    rw [stableTag?, header?_source untagged closed stable php (by decide),
      (by decide : untagged.entries.lookup "stable tag" = some "")]
    rfl
  · intro closed stable php headers
    refine code_of_unlicensed ?_
    rw [Readme.license?, header?_source unlicensed closed stable php (by decide),
      (by decide : unlicensed.entries.lookup "license" = some "")]
    rfl
  · intro closed stable php headers
    have quoted : containsText placeholderDescription (.ofList quotation) = true := by
      rw [containsText, String.toList_ofList, quotation, String.toList_append]
      exact contains_append _ _
    refine code_of_template ?_
    exact (congrArg _ (shortDescription_source template closed stable php)).trans quoted
  · have found : readmeOf? (context ["README.TXT"]) = some (pathOf ["demo", "README.TXT"]) := by
      decide
    simp only [codes]
    rw [run_of_read rfl found
      (@readText_of_read _ _ [] (read_tree (by decide) rfl (by decide)))
      (@readText_of_read _ _ main (read_tree (by decide) rfl (by decide))),
      StaticResult.findings_emitting, List.map_map]
    exact code_of_untitled rfl
  · have broken : decode? (encode main ++ [0xFF]) = none := by
      rw [decode?_append]
      decide
    have failed : (tree [] (encode main ++ [0xFF]) readme).readText
        (pathOf ["demo", "demo.php"]) = .error .notText := by
      rw [FileTree.readText, read_tree (by decide) rfl (by decide)]
      simp only [broken]
    have found : readmeOf? (context []) = some (pathOf ["demo", "readme.txt"]) := by decide
    rw [run_of_unreadable rfl found (readText_of_read (read_tree (by decide) rfl (by decide)))
      failed]
    rfl

end Demo

end ReadmeCheck

end PluginAudit
