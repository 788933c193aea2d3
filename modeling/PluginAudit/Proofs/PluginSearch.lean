import Mathlib.Data.List.Lex
import Mathlib.Data.List.Sort
import Mathlib.Data.String.Basic
import PluginAudit.Discovery
import PluginAudit.Proofs.Listings
import PluginAudit.Proofs.Spelling

/-!
Finding the plugin in a directory. The files of its context are the regular files that are not
skipped, in the order of their places; its main file is the first one directly in the directory
that is a source and declares a name.
-/

namespace PluginAudit

open Text FileTree

namespace Context

variable {locations : List Location} {location root : Location}

theorem insertPath_pathOf (named : ∀ l ∈ locations, Named l) (named' : Named location) :
    insertPath (pathOf location) (locations.map pathOf) =
      (locations.orderedInsert (· ≤ ·) location).map pathOf := by
  induction locations with
  | nil => rfl
  | cons first rest ih =>
    have later := ih fun l member => named l (List.mem_cons_of_mem _ member)
    rw [List.map_cons, insertPath, less_pathOf (named first List.mem_cons_self) named', later,
      List.orderedInsert_cons]
    by_cases below : first < location
    · rw [if_pos (decide_eq_true below), if_neg (not_le.mpr below)]
      rfl
    · rw [if_neg (by simpa only [decide_eq_true_eq] using below), if_pos (not_lt.mp below)]
      rfl

theorem sortPaths_pathOf (named : ∀ l ∈ locations, Named l) :
    sortPaths (locations.map pathOf) = (locations.insertionSort (· ≤ ·)).map pathOf := by
  induction locations with
  | nil => rfl
  | cons first rest ih =>
    have later := ih fun l member => named l (List.mem_cons_of_mem _ member)
    have sorted : ∀ l ∈ rest.insertionSort (· ≤ ·), Named l := fun l member =>
      named l (List.mem_cons_of_mem _ ((List.perm_insertionSort _ rest).mem_iff.mp member))
    rw [List.map_cons, List.insertionSort_cons, ← insertPath_pathOf sorted
      (named first List.mem_cons_self), ← later]
    rfl

theorem dropRepeats_pathOf (named : ∀ l ∈ locations, Named l) (distinct : locations.Nodup) :
    dropRepeats (locations.map pathOf) = locations.map pathOf := by
  induction locations with
  | nil => rfl
  | cons first rest ih =>
    obtain ⟨new, apart⟩ := List.nodup_cons.mp distinct
    have later := ih (fun l member => named l (List.mem_cons_of_mem _ member)) apart
    cases rest with
    | nil => rfl
    | cons second others =>
      have other : first ≠ second := fun same => new (same ▸ List.mem_cons_self)
      have unlike : (pathOf first).same (pathOf second) = false := by
        rw [same_pathOf (named first List.mem_cons_self)
          (named second (List.mem_cons_of_mem _ List.mem_cons_self))]
        exact decide_eq_false other
      simp only [List.map_cons] at later ⊢
      rw [dropRepeats, unlike, later]
      rfl

/-- Files that are all below the root, in order and each once, are kept as they are. -/
theorem pluginFiles_pathOf (named : ∀ l ∈ locations, Named l) (sorted : locations.Pairwise (· < ·))
    (below : ∀ l ∈ locations, root <+: l) (main : location ∈ locations) :
    pluginFiles (pathOf root) (pathOf location) (locations.map pathOf) = locations.map pathOf := by
  have inside : (locations.map pathOf).filter (·.isUnder (pathOf root)) = locations.map pathOf := by
    refine List.filter_eq_self.mpr fun p member => ?_
    obtain ⟨l, there, rfl⟩ := List.mem_map.mp member
    obtain ⟨rest, rfl⟩ := below l there
    exact isUnder_pathOf (named _ there)
  have found : (locations.map pathOf).any (·.same (pathOf location)) = true := by
    refine List.any_eq_true.mpr ⟨pathOf location, List.mem_map_of_mem main, ?_⟩
    exact beq_self_eq_true _
  have order : locations.insertionSort (· ≤ ·) = locations :=
    (sorted.imp fun {_ _} => le_of_lt).insertionSort_eq
  simp only [pluginFiles, inside, found, if_true]
  rw [sortPaths_pathOf named, order,
    dropRepeats_pathOf named (sorted.imp fun {_ _} => ne_of_lt)]

end Context

namespace Discovery

/-- A name with a dot and "php" at its end, in any case, and something before them. -/
def IsSourceName (name : String) : Prop :=
  ∃ stem extension, stem ≠ "" ∧ name = stem ++ "." ++ extension ∧
    extension.sameIgnoringCase "php" = true

/-- A regular file directly in a directory that is a source and declares a plugin's name. -/
def IsMain (n : Node) (name : String) : Prop :=
  IsSourceName name ∧ ∃ data, n.child? name = some (.file data) ∧ declaresPlugin data = true

theorem noDot_of_same {extension : String} (same : extension.sameIgnoringCase "php" = true) :
    '.' ∉ extension.toList := by
  intro member
  have lower : '.'.toLower ∈ asciiLower extension.toList := List.mem_map_of_mem member
  rw [sameIgnoringCase_iff.mp same] at lower
  exact absurd lower (by decide)

theorem isSource_iff {p : Path} {name : String} (named : p.fileName = some name) :
    isSource p = true ↔ IsSourceName name := by
  have read : p.extension = (Path.splitName name).2 := by
    rw [Path.extension, named]
    rfl
  rw [isSource, Path.hasExtension, read, Path.splitName]
  constructor
  · intro source
    split at source
    · rename_i ext found
      split at found
      · rename_i after before parts
        split at found
        · cases found
        · rename_i some
          cases found
          obtain ⟨written, -⟩ := splitOnce_eq_some_iff.mp parts
          refine ⟨.ofList before.reverse, .ofList after.reverse, ?_, ?_, source⟩
          · intro empty
            have none := congrArg String.toList empty
            simp_all
          · apply String.toList_injective
            have forward := congrArg List.reverse written
            simpa using forward
      · cases found
    · cases source
  · rintro ⟨stem, ext, some, rfl, same⟩
    have parts : splitOnce '.' (stem ++ "." ++ ext).toList.reverse =
        .some (ext.toList.reverse, stem.toList.reverse) := by
      refine splitOnce_eq_some_iff.mpr ⟨by simp, ?_⟩
      rw [List.mem_reverse]
      exact noDot_of_same same
    have inner : stem.toList.reverse.isEmpty = false := by
      simpa using some
    simp only [parts, inner, Bool.false_eq_true, if_false, List.reverse_reverse,
      String.ofList_toList, same]

/-- Whether a file lies directly in the root, is a source and declares a plugin's name. -/
def offers (tree : FileTree) (root p : Path) : Bool :=
  p.parent.any (·.same root) && isSource p && (tree.read p).toOption.any declaresPlugin

theorem mainFile_eq {tree : FileTree} {root : Path} {paths : List Path}
    (reads : ∀ p ∈ paths, ∃ data, tree.read p = .ok data) :
    mainFile tree root paths = (paths.find? (offers tree root)).elim
      (.error (.noMainFile root)) .ok := by
  induction paths with
  | nil => rfl
  | cons p rest ih =>
    have later := ih fun q member => reads q (List.mem_cons_of_mem _ member)
    obtain ⟨data, read⟩ := reads p List.mem_cons_self
    rw [mainFile, List.find?_cons, read, later]
    by_cases source : (p.parent.any (·.same root) && isSource p) = true
    · cases declared : declaresPlugin data <;>
        simp [offers, source, read, Except.toOption, declared]
    · simp [offers, source]

section Directory

/-- A directory in a tree whose names are sound, and the regular files below it, whose paths are
short enough for them to be read. -/
structure Readable (tree : FileTree) (root : Location) (entries : List (String × Node)) :
    Prop where
  sound : tree.root.WellNamed
  found : tree.root.find? root = some (.directory entries)
  short : ∀ below data, (Node.directory entries).find? below = some (.file data) →
    byteSize (pathOf (root ++ below)).text.toList < pathLimit

variable {tree : FileTree} {root : Location} {entries : List (String × Node)}

/-- The places of the files that are not skipped, in their order. -/
def kept (root : Location) (n : Node) : List Location :=
  (n.files skipped.contains root).insertionSort (· ≤ ·)

theorem kept_sorted {n : Node} (sound : n.WellNamed) (root : Location) :
    (kept root n).Pairwise (· < ·) := by
  have order := List.pairwise_insertionSort (· ≤ ·) (n.files skipped.contains root)
  have distinct : (kept root n).Nodup :=
    (List.perm_insertionSort _ _).nodup_iff.mpr (Node.nodup_files n root sound)
  exact (order.and distinct).imp fun {_ _} both => lt_of_le_of_ne both.1 both.2

theorem mem_kept {n : Node} (sound : n.WellNamed) (root l : Location) :
    l ∈ kept root n ↔ ∃ below, l = root ++ below ∧ n.Lists skipped.contains below := by
  rw [kept, (List.perm_insertionSort _ _).mem_iff, Node.mem_files n root l sound]

theorem Readable.node_sound (readable : Readable tree root entries) :
    (Node.directory entries).WellNamed := (readable.sound.find? readable.found).2

theorem Readable.named (readable : Readable tree root entries) {l : Location}
    (member : l ∈ kept root (.directory entries)) : Named l := by
  obtain ⟨below, rfl, ⟨data, there⟩, -⟩ := (mem_kept readable.node_sound root l).mp member
  have found := tree.root.find?_append root below
  rw [readable.found, Option.bind_some, there] at found
  exact (readable.sound.find? found).1

theorem Readable.read (readable : Readable tree root entries) {below : Location} {data : Bytes}
    (there : (Node.directory entries).find? below = some (.file data)) :
    tree.read (pathOf (root ++ below)) = .ok data := by
  have found := tree.root.find?_append root below
  rw [readable.found, Option.bind_some, there] at found
  refine tree.read_pathOf (readable.sound.find? found).1 found ?_ (readable.short below data there)
  intro top
  obtain ⟨rfl, rfl⟩ := List.append_eq_nil_iff.mp top
  cases there

theorem sources_eq (readable : Readable tree root entries) :
    sources root (.directory entries) = (kept root (.directory entries)).map pathOf := by
  refine Context.sortPaths_pathOf fun l member => readable.named ?_
  exact (List.perm_insertionSort _ _).mem_iff.mpr member

theorem offers_pathOf (readable : Readable tree root entries) {l : Location}
    (member : l ∈ kept root (.directory entries)) :
    offers tree (pathOf root) (pathOf l) = true ↔
      ∃ name, l = root ++ [name] ∧ IsMain (.directory entries) name := by
  have named := readable.named member
  obtain ⟨below, rfl, ⟨data, there⟩, -⟩ := (mem_kept readable.node_sound root _).mp member
  have read := readable.read there
  rcases List.eq_nil_or_concat below with rfl | ⟨first, name, rfl⟩
  · cases there
  · rw [List.concat_eq_append] at *
    rw [← List.append_assoc] at named read
    have upper : Named (root ++ first) := fun n inside => named n (List.mem_append_left _ inside)
    have top : Named root := fun n inside => upper n (List.mem_append_left _ inside)
    rw [← List.append_assoc, offers, parent_pathOf named, read]
    simp only [Option.any_some, same_pathOf upper top, Bool.and_eq_true, decide_eq_true_eq,
      isSource_iff (fileName_pathOf named), Except.toOption, List.append_right_eq_self]
    constructor
    · rintro ⟨⟨rfl, source⟩, declared⟩
      refine ⟨name, by rw [List.append_nil], source, data, ?_, declared⟩
      simpa [Node.find?] using there
    · rintro ⟨name', same, source, data', child, declared⟩
      obtain ⟨rfl, rfl⟩ : first = [] ∧ name = name' := by
        have rests : first ++ [name] = [] ++ [name'] :=
          List.append_cancel_left (by rw [← List.append_assoc, same]; rfl)
        simpa using List.append_inj' rests rfl
      have same : data = data' := by
        simpa [Node.find?, child] using there.symm
      exact ⟨⟨rfl, source⟩, same ▸ declared⟩

theorem IsMain.kept (readable : Readable tree root entries) {name : String}
    (main : IsMain (.directory entries) name) :
    root ++ [name] ∈ kept root (.directory entries) := by
  obtain ⟨-, data, child, -⟩ := main
  refine (mem_kept readable.node_sound root _).mpr ⟨[name], rfl, ⟨data, ?_⟩, by simp⟩
  simpa [Node.find?] using child

theorem append_lt_append {name other : String} (below : other < name) (root : Location) :
    root ++ [other] < root ++ [name] :=
  List.append_left_lt (List.cons_lt_cons_iff.mpr (.inl below))

/-- The file that is found first is the least by its name. -/
theorem find?_offers (readable : Readable tree root entries) {p : Path}
    (found : (sources root (.directory entries)).find? (offers tree (pathOf root)) = some p) :
    ∃ name, p = pathOf (root ++ [name]) ∧ IsMain (.directory entries) name ∧
      ∀ other, IsMain (.directory entries) other → name ≤ other := by
  rw [sources_eq readable, List.find?_map, Option.map_eq_some_iff] at found
  obtain ⟨l, first, rfl⟩ := found
  obtain ⟨offered, earlier, later, split, unoffered⟩ := List.find?_eq_some_iff_append.mp first
  have member : l ∈ kept root (.directory entries) := by
    rw [split]
    simp
  obtain ⟨name, rfl, main⟩ := (offers_pathOf readable member).mp offered
  refine ⟨name, rfl, main, fun other candidate => not_lt.mp fun below => ?_⟩
  have listed := candidate.kept readable
  have sorted := kept_sorted readable.node_sound root
  rw [split] at sorted listed
  rcases List.mem_append.mp listed with before | after
  · -- A smaller name is listed earlier, and would have been taken.
    have refused := unoffered _ before
    have accepted := (offers_pathOf readable (candidate.kept readable)).mpr ⟨other, rfl, candidate⟩
    simp [accepted] at refused
  · rcases List.mem_cons.mp after with same | behind
    · obtain rfl : other = name := by simpa using same
      exact lt_irrefl _ below
    · have above := List.rel_of_pairwise_cons (List.pairwise_append.mp sorted).2.1 behind
      exact lt_asymm above (append_lt_append below root)

theorem find?_offers_none (readable : Readable tree root entries) :
    (sources root (.directory entries)).find? (offers tree (pathOf root)) = none ↔
      ∀ name, ¬IsMain (.directory entries) name := by
  rw [sources_eq readable, List.find?_eq_none]
  constructor
  · intro none name main
    have member := main.kept readable
    exact none _ (List.mem_map_of_mem member)
      ((offers_pathOf readable member).mpr ⟨name, rfl, main⟩)
  · intro none p member offered
    obtain ⟨l, there, rfl⟩ := List.mem_map.mp member
    obtain ⟨name, -, main⟩ := (offers_pathOf readable there).mp offered
    exact none name main

theorem mainFile_sources (readable : Readable tree root entries) :
    mainFile tree (pathOf root) (sources root (.directory entries)) =
      ((sources root (.directory entries)).find? (offers tree (pathOf root))).elim
        (.error (.noMainFile (pathOf root))) .ok := by
  refine mainFile_eq fun p listed => ?_
  rw [sources_eq readable] at listed
  obtain ⟨l, there, rfl⟩ := List.mem_map.mp listed
  obtain ⟨below, rfl, ⟨data, found⟩, -⟩ := (mem_kept readable.node_sound _ l).mp there
  exact ⟨data, readable.read found⟩

/-- The context of a plugin in a directory, whose main file has this name. -/
def contextFor (above : Location) (slug name : String) (n : Node) : Context where
  mainFile := pathOf (above ++ [slug] ++ [name])
  root := pathOf (above ++ [slug])
  slug := slug
  basename := slug ++ "/" ++ name
  files := (kept (above ++ [slug]) n).map pathOf
  singleFile := false

variable {above : Location} {slug : String}

theorem ofDirectory_pathOf (readable : Readable tree (above ++ [slug]) entries) {name : String}
    (main : IsMain (.directory entries) name) :
    Context.ofDirectory (pathOf (above ++ [slug] ++ [name]))
        (sources (above ++ [slug]) (.directory entries)) =
      .ok (contextFor above slug name (.directory entries)) := by
  have member := main.kept readable
  have named := readable.named member
  have top : Named (above ++ [slug]) := fun n inside => named n (List.mem_append_left _ inside)
  have root : Context.rootOf (pathOf (above ++ [slug] ++ [name])) =
      .ok (pathOf (above ++ [slug])) := by
    simp only [Context.rootOf, isAbsolute_pathOf, parent_pathOf named, Bool.not_true,
      Bool.false_eq_true, if_false]
  have below : ∀ l ∈ kept (above ++ [slug]) (.directory entries), above ++ [slug] <+: l := by
    intro l listed
    obtain ⟨rest, rfl, -⟩ := (mem_kept readable.node_sound _ l).mp listed
    exact List.prefix_append _ _
  have files := Context.pluginFiles_pathOf (fun l => readable.named)
    (kept_sorted readable.node_sound _) below member
  rw [Context.ofDirectory, root, sources_eq readable]
  simp only [Context.nameOf, fileName_pathOf top, fileName_pathOf named, files, bind, Except.bind,
    pure, Except.pure]
  rfl

theorem inDirectory_cases (readable : Readable tree (above ++ [slug]) entries) :
    (∃ name, IsMain (.directory entries) name ∧
      (∀ other, IsMain (.directory entries) other → name ≤ other) ∧
      inDirectory tree (above ++ [slug]) (.directory entries) =
        .ok (contextFor above slug name (.directory entries))) ∨
    (∀ name, ¬IsMain (.directory entries) name) ∧
      inDirectory tree (above ++ [slug]) (.directory entries) =
        .error (.noMainFile (pathOf (above ++ [slug]))) := by
  rw [inDirectory, mainFile_sources readable]
  cases found : (sources (above ++ [slug]) (.directory entries)).find?
    (offers tree (pathOf (above ++ [slug]))) with
  | none => exact .inr ⟨(find?_offers_none readable).mp found, rfl⟩
  | some p =>
    obtain ⟨name, rfl, main, least⟩ := find?_offers readable found
    refine .inl ⟨name, main, least, ?_⟩
    simp only [Option.elim_some, ofDirectory_pathOf readable main]
    rfl

theorem discover_eq {path : Path} (readable : Readable tree root entries)
    (leads : tree.follow path = .ok root) :
    discover tree path = inDirectory tree root (.directory entries) := by
  simp only [discover, leads, readable.found]

/-- The top of all directories has no name that a plugin in it could have. -/
theorem discover_top {path : Path} (readable : Readable tree [] entries)
    (leads : tree.follow path = .ok []) (context : Context) :
    discover tree path ≠ .ok context := by
  rw [discover_eq readable leads, inDirectory, mainFile_sources readable]
  cases found : (sources [] (.directory entries)).find? (offers tree (pathOf [])) with
  | none => simp
  | some p =>
    obtain ⟨name, rfl, main, -⟩ := find?_offers readable found
    have named : Named ([] ++ [name]) := readable.named (main.kept readable)
    have parent := parent_pathOf named
    rw [List.nil_append] at parent
    have root : Context.rootOf (pathOf [name]) = .ok (pathOf []) := by
      simp only [Context.rootOf, isAbsolute_pathOf, parent, Bool.not_true, Bool.false_eq_true,
        if_false]
    have nameless : (pathOf []).fileName = none := by decide
    have refused : Context.ofDirectory (pathOf [name]) (sources [] (.directory entries)) =
        .error (.invalidContext ("no file name: " ++ (pathOf []).text)) := by
      rw [Context.ofDirectory, root]
      simp only [Context.nameOf, nameless, bind, Except.bind]
    simp only [Option.elim_some, List.nil_append, refused]
    simp [Except.mapError]

section Agreeing

variable {n m : Node} (agree : n.Agree m)

include agree

theorem lists_agree (skips : String → Bool) (below : Location) :
    n.Lists skips below ↔ m.Lists skips below := by
  refine and_congr_left fun _ => ⟨?_, ?_⟩
  · rintro ⟨data, found⟩
    exact ⟨data, agree.file found⟩
  · rintro ⟨data, found⟩
    exact ⟨data, agree.symm.file found⟩

theorem kept_agree (sound : n.WellNamed) (sound' : m.WellNamed) (root : Location) :
    kept root n = kept root m := by
  refine (kept_sorted sound root).eq_of_mem_iff (kept_sorted sound' root) fun l => ?_
  simp only [mem_kept sound, mem_kept sound', lists_agree agree]

theorem isMain_agree (name : String) : IsMain n name ↔ IsMain m name := by
  have child (c : Node) : c.child? name = c.find? [name] := by
    simp [Node.find?]
  refine and_congr_right fun _ => ⟨?_, ?_⟩
  · rintro ⟨data, found, declared⟩
    rw [child] at found
    exact ⟨data, (child m).trans (agree.file found), declared⟩
  · rintro ⟨data, found, declared⟩
    rw [child] at found
    exact ⟨data, (child n).trans (agree.symm.file found), declared⟩

end Agreeing

theorem Readable.agree (readable : Readable tree root entries) {other : Node}
    (sound : other.WellNamed) (agree : tree.root.Agree other) :
    ∃ others, (Node.directory entries).Agree (.directory others) ∧
      Readable ⟨other, tree.current⟩ root others := by
  obtain ⟨others, there⟩ := agree.directory readable.found
  have inside := agree.below readable.found there
  exact ⟨others, inside, sound, there, fun below data found =>
    readable.short below data (inside.symm.file found)⟩

/-- What is found in a directory that has a name, for every tree and for every order of listing. -/
theorem discover_directory {path : Path} (readable : Readable tree (above ++ [slug]) entries)
    (leads : tree.follow path = .ok (above ++ [slug])) :
    ((∃ context, discover tree path = .ok context) ↔ ∃ name, IsMain (.directory entries) name) ∧
    (∀ context, discover tree path = .ok context →
      (∃ name, IsMain (.directory entries) name ∧
        (∀ other, IsMain (.directory entries) other → name ≤ other) ∧
        context.mainFile = pathOf (above ++ [slug] ++ [name])) ∧
      ∃ places : List Location, context.files = places.map pathOf ∧ places.Pairwise (· < ·) ∧
        ∀ l, l ∈ places ↔ ∃ below, l = above ++ [slug] ++ below ∧
          (Node.directory entries).Lists skipped.contains below) ∧
    ∀ other, other.WellNamed → tree.root.Agree other →
      discover ⟨other, tree.current⟩ path = discover tree path := by
  rw [discover_eq readable leads]
  refine ⟨?_, ?_, ?_⟩
  · rcases inDirectory_cases readable with ⟨name, main, -, found⟩ | ⟨none, refused⟩
    · exact ⟨fun _ => ⟨name, main⟩, fun _ => ⟨_, found⟩⟩
    · rw [refused]
      exact ⟨fun ⟨_, found⟩ => absurd found (by simp), fun ⟨name, main⟩ => absurd main (none name)⟩
  · intro context result
    rcases inDirectory_cases readable with ⟨name, main, least, found⟩ | ⟨-, refused⟩
    · rw [found] at result
      cases result
      exact ⟨⟨name, main, least, rfl⟩, _, rfl, kept_sorted readable.node_sound _,
        mem_kept readable.node_sound _⟩
    · rw [refused] at result
      cases result
  · intro other sound agree
    obtain ⟨others, inside, readable'⟩ := readable.agree sound agree
    rw [discover_eq readable' ((follow_agree agree path).trans leads)]
    rcases inDirectory_cases readable with ⟨name, main, least, found⟩ | ⟨none, refused⟩
    · rcases inDirectory_cases readable' with ⟨name', main', least', found'⟩ | ⟨none', -⟩
      · have same : name = name' := le_antisymm
          (least _ ((isMain_agree inside name').mpr main'))
          (least' _ ((isMain_agree inside name).mp main))
        rw [found, found', same, contextFor, contextFor,
          kept_agree inside readable.node_sound readable'.node_sound]
      · exact absurd ((isMain_agree inside name).mp main) (none' name)
    · rcases inDirectory_cases readable' with ⟨name', main', -⟩ | ⟨-, refused'⟩
      · exact absurd ((isMain_agree inside name').mpr main') (none name')
      · rw [refused, refused']

end Directory

/-- Two files that declare names, a file and a link that do not count, and directories that are
skipped. -/
def shelf : List (String × Node) := [
  ("z.php", .file (encode "Plugin Name: Z".toList)),
  ("b.PHP", .file (encode "Plugin Name: B".toList)),
  ("a.php", .file []),
  ("vendor", .directory [("c.php", .file [])]),
  ("lib", .directory [("vendor", .file []), (".git", .directory [("d", .file [])])]),
  ("link.php", .link "b.PHP")]

def shelved (entries : List (String × Node)) : FileTree :=
  ⟨.directory [("demo", .directory entries)], []⟩

theorem shelf_readable : Readable (shelved shelf) ["demo"] shelf := by
  have sound : (shelved shelf).root.WellNamed := by
    simp only [shelved, shelf, Node.WellNamed, Node.AllWellNamed]
    decide
  refine ⟨sound, rfl, fun below data found => ?_⟩
  have listed : below ∈ (Node.directory shelf).files (fun _ => false) [] :=
    (Node.mem_files _ _ _ sound.2.2.1).mpr ⟨below, rfl, ⟨data, found⟩, fun _ _ => rfl⟩
  have short : ∀ l ∈ (Node.directory shelf).files (fun _ => false) [],
      byteSize (pathOf (["demo"] ++ l)).text.toList < pathLimit := by decide +kernel
  exact short below listed

theorem discover_directory_shelf :
    (∃ context, discover (shelved shelf) ⟨"/demo"⟩ = .ok context) ∧
      discover (shelved shelf.reverse) ⟨"/demo"⟩ = discover (shelved shelf) ⟨"/demo"⟩ := by
  have leads : (shelved shelf).follow (pathOf ["demo"]) = .ok ["demo"] :=
    follow_pathOf _ (n := .directory shelf) (by decide) rfl (by simp) (by simp)
  obtain ⟨found, -, same⟩ := @discover_directory (shelved shelf) shelf [] "demo" (pathOf ["demo"])
    shelf_readable leads
  have reversed : (shelved shelf.reverse).root.WellNamed := by
    simp only [shelved, shelf, List.reverse, List.reverseAux, Node.WellNamed, Node.AllWellNamed]
    decide
  refine ⟨found.mpr ⟨"b.PHP", ⟨"b", "PHP", by decide, by decide, by decide⟩, _, rfl, ?_⟩,
    same _ reversed ?_⟩
  · decide +kernel
  · exact Node.agree_of_entry (Node.agree_of_perm (by decide) (List.reverse_perm _).symm) _ [] []

/-- A file that declares a name, at the top of a tree. -/
def topmost : List (String × Node) := [("x.php", .file (encode "Plugin Name: X".toList))]

/-- The topmost directory has no name, and no plugin is found in it. -/
theorem topmost_refused :
    IsMain (.directory topmost) "x.php" ∧
      ∀ context, discover ⟨.directory topmost, []⟩ ⟨"/"⟩ ≠ .ok context := by
  have sound : (Node.directory topmost).WellNamed := by
    simp only [topmost, Node.WellNamed, Node.AllWellNamed]
    decide
  refine ⟨⟨⟨"x", "php", by decide, by decide, by decide⟩, _, rfl, by decide +kernel⟩, ?_⟩
  have readable : Readable ⟨.directory topmost, []⟩ [] topmost := by
    refine ⟨sound, rfl, fun below data found => ?_⟩
    have listed : below ∈ (Node.directory topmost).files (fun _ => false) [] :=
      (Node.mem_files _ _ _ sound).mpr ⟨below, rfl, ⟨data, found⟩, fun _ _ => rfl⟩
    have short : ∀ l ∈ (Node.directory topmost).files (fun _ => false) [],
        byteSize (pathOf ([] ++ l)).text.toList < pathLimit := by decide +kernel
    exact short below listed
  have walked : walk (.directory topmost) linkLimit [] [[], []] = .ok [] := by
    rw [walk, walk, walk]
    rfl
  have leads : FileTree.follow ⟨.directory topmost, []⟩ ⟨"/"⟩ = .ok [] := by
    have plain : "/".toList.contains '\x00' = false := by decide
    have some : "/".toList.isEmpty = false := by decide
    have rooted : Path.isAbsolute ⟨"/"⟩ = true := by decide
    have parts : splitAt '/' "/".toList = [[], []] := by decide
    simp only [follow, walkFrom, plain, some, rooted, parts, Bool.false_eq_true, if_false, if_true,
      walked]
  exact discover_top readable leads

end Discovery

end PluginAudit
