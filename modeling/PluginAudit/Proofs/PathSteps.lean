import Mathlib.Data.List.DropRight
import PluginAudit.Path
import PluginAudit.Proofs.TextLines

/-!
The components of absolute paths. After the root each stands for a part between separators, so what
follows a separator is read on its own: joining adds components, and the parent lacks only the last.
-/

namespace PluginAudit.Path

open Text

variable {p q base root : Path} {c : Component} {cs rest : List Component} {part : List Char}

/-- The components that the text behind a separator stands for. -/
def steps (body : List Char) : List Component :=
  ((splitAt '/' body).filter (!isFiller ·)).map ofPart

theorem isAbsolute_iff : p.isAbsolute = true ↔ ∃ body, p.text.toList = '/' :: body := by
  rw [isAbsolute, beq_iff_eq, List.head?_eq_some_iff]

theorem components_of_absolute {body : List Char} (spelled : p.text.toList = '/' :: body) :
    p.components = .root :: steps body := by
  rw [components, spelled]
  rfl

@[simp] theorem steps_nil : steps [] = [] := rfl

theorem steps_append (first later : List Char) :
    steps (first ++ '/' :: later) = steps first ++ steps later := by
  rw [steps, splitAt_marked, List.filter_append, List.map_append]
  rfl

theorem steps_joinWith {parts : List (List Char)} (separate : ∀ part ∈ parts, '/' ∉ part) :
    steps (joinWith ['/'] parts) = (parts.filter (!isFiller ·)).map ofPart := by
  by_cases none : parts = []
  · rw [none]
    rfl
  · rw [steps, splitAt_joinWith none separate]

/-- What a component behind a separator is: its text is one part, and stands for it. -/
def Component.IsStep (c : Component) : Prop :=
  '/' ∉ c.text.toList ∧ isFiller c.text.toList = false ∧ ofPart c.text.toList = c

theorem text_ofPart (part : List Char) : (ofPart part).text.toList = part := by
  unfold ofPart
  split
  · rename_i dots
    rw [dots]
    rfl
  · exact String.toList_ofList

theorem isStep_ofPart (separate : '/' ∉ part) (counts : isFiller part = false) :
    (ofPart part).IsStep := by
  rw [Component.IsStep, text_ofPart]
  exact ⟨separate, counts, rfl⟩

theorem isStep_of_mem_steps {body : List Char} (member : c ∈ steps body) : c.IsStep := by
  obtain ⟨part, kept, rfl⟩ := List.mem_map.mp member
  obtain ⟨listed, counts⟩ := List.mem_filter.mp kept
  exact isStep_ofPart (not_mem_of_mem_splitAt listed) (by simpa using counts)

theorem toList_ofComponents (cs : List Component) :
    (ofComponents cs).toList = joinWith ['/'] (cs.map (·.text.toList)) := by
  rw [ofComponents, toList_intercalate, List.map_map]
  rfl

/-- Components are read again from their text. -/
theorem steps_ofComponents (valid : ∀ c ∈ cs, c.IsStep) : steps (ofComponents cs).toList = cs := by
  have parts : ∀ part ∈ cs.map (·.text.toList), '/' ∉ part ∧ isFiller part = false := by
    intro part member
    obtain ⟨c, listed, rfl⟩ := List.mem_map.mp member
    exact ⟨(valid c listed).1, (valid c listed).2.1⟩
  have counted : (cs.map (·.text.toList)).filter (!isFiller ·) = cs.map (·.text.toList) :=
    List.filter_eq_self.mpr fun part member => by simp [(parts part member).2]
  rw [toList_ofComponents, steps_joinWith fun part member => (parts part member).1, counted,
    List.map_map]
  exact (List.map_congr_left fun c member => (valid c member).2.2).trans (List.map_id cs)

theorem not_absolute_ofComponents (valid : ∀ c ∈ cs, c.IsStep) :
    (ofComponents cs).toList.head? ≠ some '/' := by
  rw [toList_ofComponents]
  cases cs with
  | nil => simp [joinWith]
  | cons c more =>
    obtain ⟨separate, counts, -⟩ := valid c List.mem_cons_self
    cases part : c.text.toList with
    | nil => simp [part, isFiller] at counts
    | cons first others =>
      have other : first ≠ '/' := fun same => separate (by simp [part, same])
      rw [List.map_cons, part, joinWith_cons]
      simpa using other

theorem stripComponents_append (base rest : List Component) :
    stripComponents base (base ++ rest) = some rest := by
  induction base with
  | nil => cases rest <;> rfl
  | cons c more ih => simp [stripComponents, ih]

theorem stripComponents_eq_some_iff {base path : List Component} :
    stripComponents base path = some rest ↔ path = base ++ rest := by
  refine ⟨fun found => ?_, fun written => written ▸ stripComponents_append base rest⟩
  induction base generalizing path with
  | nil =>
    rw [stripComponents] at found
    exact Option.some.inj found
  | cons b more ih =>
    cases path with
    | nil => cases found
    | cons c others =>
      rw [stripComponents] at found
      split at found
      · rename_i same
        rw [same, ih found, List.cons_append]
      · cases found

theorem isUnder_iff : p.isUnder base = true ↔ base.components <+: p.components := by
  rw [isUnder, Option.isSome_iff_exists]
  exact exists_congr fun rest => stripComponents_eq_some_iff.trans eq_comm

theorem relativeTo_append (below : p.components = base.components ++ rest) :
    p.relativeTo base = ofComponents rest := by
  rw [relativeTo, stripComponents_eq_some_iff.mpr below]

theorem relativeTo_outside (outside : p.isUnder base = false) :
    p.relativeTo base = ofComponents p.components := by
  rw [isUnder, Option.isSome_eq_false_iff, Option.isNone_iff_eq_none] at outside
  rw [relativeTo, outside]

/-- A trailing separator adds no component. -/
theorem steps_trailing (body : List Char) (ended : ('/' :: body).getLast? = some '/')
    (more : List Char) : steps (body ++ more) = steps body ++ steps more := by
  cases shape : body.reverse with
  | nil =>
    rw [List.reverse_eq_nil_iff.mp shape]
    rfl
  | cons last earlier =>
    obtain rfl : body = earlier.reverse ++ [last] := by
      rw [← List.reverse_cons, ← shape, List.reverse_reverse]
    rw [← List.cons_append, List.getLast?_concat] at ended
    obtain rfl := Option.some.inj ended
    rw [List.append_assoc, List.singleton_append, steps_append, steps_append, steps_nil,
      List.append_nil]

theorem components_join (absolute : base.isAbsolute = true) (q : Path)
    (relative : q.isAbsolute = false) :
    (base.join q).components = base.components ++ steps q.text.toList := by
  obtain ⟨body, spelled⟩ := isAbsolute_iff.mp absolute
  have written : base.text.isEmpty = false := by
    rw [String.isEmpty_eq_false_iff]
    rintro none
    simp [none] at spelled
  rw [components_of_absolute spelled, join, relative, written, spelled, List.cons_append]
  simp only [Bool.false_eq_true, if_false, Bool.false_or, beq_iff_eq]
  split
  · rename_i ended
    rw [← steps_trailing body ended]
    exact components_of_absolute (by rw [String.toList_append, spelled, List.cons_append])
  · rw [← steps_append]
    refine components_of_absolute ?_
    rw [String.toList_append, String.toList_append, spelled, List.append_assoc, List.cons_append]
    rfl

theorem fileName_eq_some_iff {name : String} :
    p.fileName = some name ↔ ∃ earlier, p.components = earlier ++ [.name name] := by
  rw [fileName, ← List.getLast?_eq_some_iff]
  cases p.components.getLast? with
  | none => simp
  | some last => cases last <;> simp

theorem filter_dropWhile (parts : List (List Char)) :
    (parts.dropWhile isFiller).filter (!isFiller ·) = parts.filter (!isFiller ·) := by
  induction parts with
  | nil => rfl
  | cons part more ih =>
    by_cases filler : isFiller part = true
    · rw [List.dropWhile_cons_of_pos filler, ih, List.filter_cons_of_neg (by simp [filler])]
    · rw [List.dropWhile_cons_of_neg filler]

/-- The last part that counts, and the parts that count before it. -/
theorem filter_of_dropWhile {parts earlier : List (List Char)}
    (shape : parts.reverse.dropWhile isFiller = part :: earlier) :
    parts.filter (!isFiller ·) =
      (earlier.dropWhile isFiller).reverse.filter (!isFiller ·) ++ [part] := by
  have counts : isFiller part = false := by
    have first := List.head?_dropWhile_not isFiller parts.reverse
    rwa [shape] at first
  rw [← List.reverse_inj, ← List.filter_reverse, ← filter_dropWhile, shape, List.reverse_append,
    ← List.filter_reverse, List.reverse_reverse, filter_dropWhile,
    List.filter_cons_of_pos (by simp [counts])]
  rfl

/-- The parent of an absolute path has all its components but the last. -/
theorem components_parent (absolute : p.isAbsolute = true) (above : p.parent = some root) :
    root.isAbsolute = true ∧ ∃ last, p.components = root.components ++ [last] := by
  obtain ⟨body, spelled⟩ := isAbsolute_iff.mp absolute
  have front : ('/' :: body).take (('/' :: body).length - body.length) = ['/'] := by simp
  simp only [parent, spelled, lead, front] at above
  cases shape : (splitAt '/' body).reverse.dropWhile isFiller with
  | nil => simp [shape] at above
  | cons last earlier =>
    rw [shape] at above
    obtain rfl := Option.some.inj above
    -- What is kept of the parts is joined to the text of the parent, which is split at the same
    -- places again.
    have separate : ∀ part ∈ (earlier.dropWhile isFiller).reverse, '/' ∉ part := by
      intro part member
      have listed : part ∈ last :: earlier :=
        List.mem_cons_of_mem _ ((List.dropWhile_sublist _).subset (List.mem_reverse.mp member))
      rw [← shape] at listed
      exact not_mem_of_mem_splitAt (List.mem_reverse.mp ((List.dropWhile_sublist _).subset listed))
    have upper : (Path.mk (.ofList (['/'] ++ joinWith ['/'] (earlier.dropWhile isFiller).reverse))
        ).text.toList = '/' :: joinWith ['/'] (earlier.dropWhile isFiller).reverse :=
      String.toList_ofList
    refine ⟨isAbsolute_iff.mpr ⟨_, upper⟩, ofPart last, ?_⟩
    rw [components_of_absolute spelled, components_of_absolute upper, steps_joinWith separate,
      steps, filter_of_dropWhile shape, List.map_append, List.map_singleton, List.cons_append]

end PluginAudit.Path
