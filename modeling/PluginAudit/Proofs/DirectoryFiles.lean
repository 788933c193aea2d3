import Mathlib.Logic.Relation
import PluginAudit.Proofs.RelativePaths

/-!
The files of a plugin with a directory of its own. They are the candidates below the root and the
main file, each once whatever it is spelled like and however often it is given, and what the plugin's
root sees of them tells them apart.
-/

namespace PluginAudit

namespace Path

variable {p q : Path} {base : Path} {paths : List Path}

theorem same_iff : p.same q = true ↔ p.components = q.components := by
  rw [same, beq_iff_eq]

/-- The second spelling of an absolute path has a part more than the first, which stands for
nothing: it is empty or a dot. -/
inductive Stretched : Path → Path → Prop
  | between {front back filler : List Char} (absolute : (front ++ ['/']).head? = some '/')
      (counts : isFiller filler = true) :
      Stretched ⟨.ofList (front ++ '/' :: back)⟩ ⟨.ofList (front ++ '/' :: (filler ++ '/' :: back))⟩
  | behind {front filler : List Char} (counts : isFiller filler = true) :
      Stretched ⟨.ofList ('/' :: front)⟩ ⟨.ofList ('/' :: (front ++ '/' :: filler))⟩

/-- Spellings of one path: separators and dots that stand for nothing are added or left out. -/
def Respelled : Path → Path → Prop := Relation.EqvGen Stretched

theorem steps_filler {filler : List Char} (counts : isFiller filler = true) : steps filler = [] := by
  rw [isFiller, Bool.or_eq_true, List.isEmpty_iff, beq_iff_eq] at counts
  rcases counts with rfl | rfl <;> rfl

theorem components_ofList (body : List Char) :
    (Path.mk (.ofList ('/' :: body))).components = .root :: steps body :=
  components_of_absolute String.toList_ofList

theorem Stretched.components_eq (stretched : Stretched p q) : p.components = q.components := by
  cases stretched with
  | @between front back filler absolute counts =>
    cases front with
    | nil =>
      rw [List.nil_append, List.nil_append, components_ofList, components_ofList, steps_append,
        steps_filler counts, List.nil_append]
    | cons c front =>
      obtain rfl : c = '/' := Option.some.inj absolute
      rw [List.cons_append, List.cons_append, components_ofList, components_ofList, steps_append,
        steps_append, steps_append, steps_filler counts, List.nil_append]
  | behind counts =>
    rw [components_ofList, components_ofList, steps_append, steps_filler counts, List.append_nil]

theorem Respelled.components_eq (respelled : p.Respelled q) : p.components = q.components := by
  induction respelled with
  | rel p q stretched => exact stretched.components_eq
  | refl p => rfl
  | symm p q _ ih => exact ih.symm
  | trans p q r _ _ ih ih' => exact ih.trans ih'

theorem ofPart_ne_root (part : List Char) : ofPart part ≠ .root := by
  unfold ofPart
  split <;> simp

/-- The root is the first component of absolute paths only. -/
theorem isAbsolute_of_root (root : .root ∈ p.components) : p.isAbsolute = true := by
  rw [components] at root
  rcases List.mem_append.mp root with leads | follows
  · split at leads
    · rename_i spelled
      exact isAbsolute_iff.mpr ⟨_, spelled⟩
    · simp at leads
    · simp at leads
    · cases leads
  · obtain ⟨part, -, stands⟩ := List.mem_map.mp follows
    exact absurd stands (ofPart_ne_root part)

theorem isAbsolute_of_below (above : base.isAbsolute = true)
    (below : base.components <+: p.components) : p.isAbsolute = true := by
  obtain ⟨upper, spelled⟩ := isAbsolute_iff.mp above
  rw [components_of_absolute spelled] at below
  exact isAbsolute_of_root (below.subset List.mem_cons_self)

end Path

namespace Context

open PluginAudit.Path

variable {p q : Path} {paths candidates others : List Path} {root main : Path} {context : Context}

/-- A path is put before the first one that is not less than it, and so before its other
spellings. -/
theorem find?_insertPath (p q : Path) (paths : List Path) :
    (insertPath p paths).find? (·.same q) = (p :: paths).find? (·.same q) := by
  induction paths with
  | nil => rfl
  | cons r rest ih =>
    rw [insertPath]
    split
    · rename_i before
      have apart : r.same q = true → p.same q = false := by
        intro same
        rw [Bool.eq_false_iff]
        intro same'
        have equal : r.order = p.order :=
          (order_eq_iff.mpr same).trans (order_eq_iff.mpr same').symm
        exact absurd (less_iff.mp before) (equal ▸ lt_irrefl _)
      rw [List.find?_cons, ih, List.find?_cons, List.find?_cons]
      cases here : r.same q with
      | true => rw [apart here]; simp [here]
      | false => cases p.same q <;> simp [here]
    · rfl

theorem find?_sortPaths (q : Path) (paths : List Path) :
    (sortPaths paths).find? (·.same q) = paths.find? (·.same q) := by
  induction paths with
  | nil => rfl
  | cons p rest ih =>
    have sorted : sortPaths (p :: rest) = insertPath p (sortPaths rest) := rfl
    rw [sorted, find?_insertPath, List.find?_cons, List.find?_cons, ih]

theorem find?_dropRepeats (q : Path) (paths : List Path) :
    (dropRepeats paths).find? (·.same q) = paths.find? (·.same q) := by
  induction paths with
  | nil => rfl
  | cons p rest ih =>
    cases rest with
    | nil => rfl
    | cons r more =>
      obtain ⟨later, kept, -⟩ := dropRepeats_cons r more
      rw [kept] at ih
      rw [dropRepeats, kept, List.find?_cons (a := p), ← ih]
      split
      · rename_i same
        -- What is dropped would be found only where the path before it has been found.
        have alike : p.same q = r.same q := by
          rw [Path.same, Path.same, same_iff.mp same]
        rw [List.find?_cons, List.find?_cons, alike]
        cases r.same q <;> rfl
      · rw [List.find?_cons]

/-- Of the spellings of a path the first one is a file of the plugin; the main file comes last. -/
theorem find?_pluginFiles (root main q : Path) (candidates : List Path) :
    (pluginFiles root main candidates).find? (·.same q) =
      (candidates.filter (·.isUnder root) ++ [main]).find? (·.same q) := by
  rw [pluginFiles, find?_dropRepeats, find?_sortPaths]
  split
  · rename_i there
    obtain ⟨m, member, same⟩ := List.any_eq_true.mp there
    rw [List.find?_append]
    cases found : (candidates.filter (·.isUnder root)).find? (·.same q) with
    | some file => rfl
    | none =>
      -- Another spelling of the main file is among the candidates, and it is not the one sought.
      have other : main.same q = false := by
        have absent := List.find?_eq_none.mp found m member
        rw [Path.same, ← same_iff.mp same]
        exact Bool.eq_false_iff.mpr absent
      simp [other]
  · rfl

theorem order_ascending (made : ofDirectory main candidates = .ok context) :
    (context.files.map Path.order).Pairwise (· < ·) :=
  List.pairwise_map.mpr ((Formed.directory made).files_ascending.imp less_iff.mp)

theorem eq_of_same (made : ofDirectory main candidates = .ok context) (member : p ∈ context.files)
    (member' : q ∈ context.files) (same : p.same q = true) : p = q :=
  List.inj_on_of_nodup_map ((order_ascending made).imp ne_of_lt) member member'
    (order_eq_iff.mpr same)

/-- What the files of a plugin are gathered from. -/
def Offers (root main : Path) (candidates : List Path) (p : Path) : Prop :=
  p = main ∨ p ∈ candidates ∧ root.components <+: p.components

theorem offers_iff :
    Offers root main candidates p ↔ p ∈ candidates.filter (·.isUnder root) ++ [main] := by
  rw [List.mem_append, List.mem_filter, List.mem_singleton, isUnder_iff, Offers, or_comm]

theorem mem_files_iff (made : ofDirectory main candidates = .ok context) :
    p ∈ context.files ↔
      (candidates.filter (·.isUnder context.root) ++ [main]).find? (·.same p) = some p := by
  obtain ⟨-, -, -, -, files⟩ := ofDirectory_spec made
  rw [← find?_pluginFiles, ← files]
  refine ⟨fun member => ?_, List.mem_of_find?_eq_some⟩
  have some : (context.files.find? (·.same p)).isSome = true := by
    rw [List.find?_isSome]
    exact ⟨p, member, same_iff.mpr rfl⟩
  obtain ⟨file, found⟩ := Option.isSome_iff_exists.mp some
  have same : file.same p = true := List.find?_some (p := fun file : Path => file.same p) found
  rw [found, eq_of_same made (List.mem_of_find?_eq_some found) member same]

theorem offered_of_mem (made : ofDirectory main candidates = .ok context)
    (member : p ∈ context.files) : Offers context.root main candidates p :=
  offers_iff.mpr (List.mem_of_find?_eq_some ((mem_files_iff made).mp member))

theorem exists_file (made : ofDirectory main candidates = .ok context)
    (offered : Offers context.root main candidates p) : ∃ file ∈ context.files, file.same p := by
  obtain ⟨-, -, -, -, files⟩ := ofDirectory_spec made
  have some : (context.files.find? (·.same p)).isSome = true := by
    rw [files, find?_pluginFiles, List.find?_isSome]
    exact ⟨p, offers_iff.mp offered, same_iff.mpr rfl⟩
  rwa [List.find?_isSome] at some

/-- Every candidate has another spelling among the others. -/
def Covered (candidates others : List Path) : Prop := ∀ c ∈ candidates, ∃ d ∈ others, c.same d

theorem offers_covered (covered : Covered candidates others)
    (offered : Offers root main candidates p) :
    ∃ q, Offers root main others q ∧ p.components = q.components := by
  rcases offered with rfl | ⟨listed, below⟩
  · exact ⟨p, .inl rfl, rfl⟩
  · obtain ⟨q, member, same⟩ := covered p listed
    have equal := same_iff.mp same
    exact ⟨q, .inr ⟨member, equal ▸ below⟩, equal⟩

theorem order_covered {context' : Context} (made : ofDirectory main candidates = .ok context)
    (made' : ofDirectory main others = .ok context') (root : context'.root = context.root)
    (covered : Covered candidates others) {key : List (Nat ×ₗ String)}
    (listed : key ∈ context.files.map Path.order) : key ∈ context'.files.map Path.order := by
  obtain ⟨p, member, rfl⟩ := List.mem_map.mp listed
  obtain ⟨q, offered, equal⟩ := offers_covered covered (offered_of_mem made member)
  rw [← root] at offered
  obtain ⟨file, inside, same⟩ := exists_file made' offered
  refine List.mem_map.mpr ⟨file, inside, order_eq_iff.mpr (same_iff.mpr ?_)⟩
  exact (same_iff.mp same).trans equal.symm

/-- The files are known from what the candidates are, whatever their spelling, order and number. -/
theorem files_covered (made : ofDirectory main candidates = .ok context)
    (covered : Covered candidates others) (covered' : Covered others candidates) :
    ∃ context', ofDirectory main others = .ok context' ∧
      context'.files.map Path.components = context.files.map Path.components := by
  obtain ⟨root, slug, name, above, slugged, named, rfl⟩ := ofDirectory_eq_ok.mp made
  have made' := ofDirectory_eq_ok.mpr ⟨root, slug, name, above, slugged, named, Eq.refl
    (Context.mk main root slug (slug ++ "/" ++ name) (pluginFiles root main others) false)⟩
  refine ⟨_, made', ?_⟩
  have keys := (order_ascending made').eq_of_mem_iff (order_ascending made) fun key =>
    ⟨order_covered made' made rfl covered', order_covered made made' rfl covered⟩
  refine List.map_injective_iff.mpr (List.map_injective_iff.mpr Component.key_injective) ?_
  rw [List.map_map, List.map_map]
  exact keys

/-- Below the root no two paths are seen alike. -/
theorem relative_inj (formed : context.Formed) (below : context.root.components <+: p.components)
    (below' : context.root.components <+: q.components)
    (seen : context.relative p = context.relative q) : p.components = q.components := by
  obtain ⟨above, -⟩ := formed.main_below
  obtain ⟨rest, left⟩ := below
  obtain ⟨rest', left'⟩ := below'
  have absolute : p.isAbsolute = true := isAbsolute_of_below above ⟨rest, left⟩
  have absolute' : q.isAbsolute = true := isAbsolute_of_below above ⟨rest', left'⟩
  rw [relative, relative, relativeTo_append left.symm, relativeTo_append left'.symm] at seen
  have same : rest = rest' := by
    rw [← steps_ofComponents (isStep_below above absolute left.symm), seen,
      steps_ofComponents (isStep_below above absolute' left'.symm)]
  rw [← left, ← left', same]

/-- The files of a plugin with a directory ascend. They are the candidates below the root and the
main file, one file for all spellings of a path. However the candidates are ordered, repeated and
spelled, the files are the same but for their spelling, and no two of them have one relative path. -/
theorem ofDirectory_files (made : ofDirectory main candidates = .ok context) :
    (main.isAbsolute = true ∧ main.parent = some context.root) ∧
    (∀ p ∈ context.files, Offers context.root main candidates p) ∧
    (∀ p, Offers context.root main candidates p →
      ∃! file, file ∈ context.files ∧ file.same p = true) ∧
    context.files.Pairwise (fun p q => p.less q = true ∧ p.same q = false) ∧
    (∀ p q : Path, p.Respelled q → p.same q = true) ∧
    (∀ others, Covered candidates others → Covered others candidates →
      ∃ context', ofDirectory main others = .ok context' ∧
        context'.files.map Path.components = context.files.map Path.components) ∧
    (∀ p ∈ context.files, ∀ q ∈ context.files, p ≠ q →
      context.relative p ≠ context.relative q) := by
  have formed : context.Formed := .directory made
  obtain ⟨above, -, rfl, -⟩ := ofDirectory_spec made
  refine ⟨rootOf_eq_ok_iff.mp above, fun p => offered_of_mem made, fun p offered => ?_, ?_,
    fun p q respelled => same_iff.mpr respelled.components_eq,
    fun others covered covered' => files_covered made covered covered',
    fun p member q member' other seen => other ?_⟩
  · obtain ⟨file, member, same⟩ := exists_file made offered
    refine ⟨file, ⟨member, same⟩, fun twin ⟨member', same'⟩ => eq_of_same made member' member ?_⟩
    exact same_iff.mpr ((same_iff.mp same').trans (same_iff.mp same).symm)
  · refine formed.files_ascending.imp fun {p q} before => ⟨before, Bool.eq_false_iff.mpr ?_⟩
    exact fun same => (less_iff.mp before).ne (order_eq_iff.mpr same)
  · have below {p : Path} (member : p ∈ context.files) :
        context.root.components <+: p.components := by
      obtain rfl | ⟨-, below⟩ := offered_of_mem made member
      · obtain ⟨-, -, name, main⟩ := formed.main_below
        exact ⟨_, main.symm⟩
      · exact below
    exact eq_of_same made member member'
      (same_iff.mpr (relative_inj formed (below member) (below member') seen))

end Context

end PluginAudit
