import Mathlib.Data.List.Lex
import Mathlib.Data.List.Sort
import Mathlib.Data.Prod.Lex
import Mathlib.Data.String.Basic
import PluginAudit.Context

/-!
The files of a context. Paths are in the order of their components, which is a linear order of what
they are compared by, and in this order the files of a plugin ascend.
-/

namespace PluginAudit

namespace Path

variable {p q : Path} {paths : List Path}

namespace Component

/-- What decides between two components: their kinds, and between two names the names. -/
def key (c : Component) : Nat ×ₗ String := toLex (c.rank, c.text)

theorem key_injective : Function.Injective key := by
  intro a b same
  obtain ⟨kind, text⟩ := Prod.mk.inj (toLex.injective same)
  cases a <;> cases b <;> simp_all [rank, Component.text]

theorem less_iff (a b : Component) : a.less b = true ↔ a.key < b.key := by
  rw [key, key, Prod.Lex.toLex_lt_toLex]
  cases a <;> cases b <;> simp [less, rank, text]

end Component

/-- The keys of the components of a path, from the root on. -/
def order (p : Path) : List (Nat ×ₗ String) := p.components.map Component.key

theorem lessComponents_iff (as bs : List Component) :
    lessComponents as bs = true ↔ as.map Component.key < bs.map Component.key := by
  induction as generalizing bs with
  | nil => cases bs <;> simp [lessComponents]
  | cons a as ih =>
    cases bs with
    | nil => simp [lessComponents]
    | cons b bs =>
      simp only [lessComponents, List.map_cons, List.cons_lt_cons_iff, Bool.or_eq_true,
        Bool.and_eq_true, beq_iff_eq, Component.less_iff, ih, Component.key_injective.eq_iff]

theorem less_iff : p.less q = true ↔ p.order < q.order := lessComponents_iff _ _

theorem order_eq_iff : p.order = q.order ↔ p.same q = true := by
  rw [order, order, (List.map_injective_iff.mpr Component.key_injective).eq_iff, same, beq_iff_eq]

end Path

namespace Context

open PluginAudit.Path

variable {p : Path} {paths candidates : List Path} {main : Path} {context : Context}

theorem insertPath_eq (p : Path) (paths : List Path) :
    insertPath p paths = paths.orderedInsert (·.order ≤ ·.order) p := by
  induction paths with
  | nil => rfl
  | cons q rest ih =>
    rw [insertPath, List.orderedInsert_cons, ih]
    by_cases before : q.order < p.order
    · rw [if_pos (less_iff.mpr before), if_neg (not_le.mpr before)]
    · rw [if_neg (mt less_iff.mp before), if_pos (not_lt.mp before)]

theorem sortPaths_ordered (paths : List Path) :
    (sortPaths paths).Pairwise (·.order ≤ ·.order) := by
  have total : Std.Total fun p q : Path => p.order ≤ q.order := ⟨fun _ _ => le_total _ _⟩
  have trans : IsTrans Path fun p q => p.order ≤ q.order := ⟨fun _ _ _ => le_trans⟩
  have sorted : sortPaths paths = paths.insertionSort (·.order ≤ ·.order) := by
    induction paths with
    | nil => rfl
    | cons p rest ih => rw [List.insertionSort_cons, ← ih, ← insertPath_eq, sortPaths, sortPaths,
        List.foldr_cons]
  rw [sorted]
  exact List.pairwise_insertionSort _ paths

theorem dropRepeats_cons (p : Path) (paths : List Path) :
    ∃ later, dropRepeats (p :: paths) = p :: later ∧ later.Sublist paths := by
  induction paths generalizing p with
  | nil => exact ⟨[], rfl, List.Sublist.slnil⟩
  | cons q rest ih =>
    obtain ⟨later, kept, part⟩ := ih q
    rw [dropRepeats, kept]
    split
    · exact ⟨later, rfl, part.cons q⟩
    · exact ⟨q :: later, rfl, part.cons_cons q⟩

/-- Of paths in order, those that are left when repetitions are dropped ascend. -/
theorem dropRepeats_ascending (ordered : paths.Pairwise (·.order ≤ ·.order)) :
    (dropRepeats paths).Pairwise (·.order < ·.order) := by
  induction paths with
  | nil => exact List.Pairwise.nil
  | cons p rest ih =>
    obtain ⟨first, others⟩ := List.pairwise_cons.mp ordered
    cases rest with
    | nil => exact List.pairwise_singleton _ _
    | cons q more =>
      obtain ⟨later, kept, part⟩ := dropRepeats_cons q more
      have ascending := ih others
      rw [kept] at ascending
      rw [dropRepeats, kept]
      split
      · rename_i same
        -- The first of the two takes the place of the second, which counts for the same.
        rw [List.pairwise_cons, ← order_eq_iff.mpr same] at ascending
        exact List.pairwise_cons.mpr ascending
      · rename_i other
        have below : p.order < q.order :=
          lt_of_le_of_ne (first q List.mem_cons_self) (mt order_eq_iff.mp other)
        refine List.pairwise_cons.mpr ⟨fun r member => ?_, ascending⟩
        rcases List.mem_cons.mp member with rfl | deeper
        · exact below
        · exact below.trans ((List.pairwise_cons.mp ascending).1 r deeper)

theorem pluginFiles_ascending (root main : Path) (candidates : List Path) :
    (pluginFiles root main candidates).Pairwise (·.less ·) :=
  (dropRepeats_ascending (sortPaths_ordered _)).imp less_iff.mpr

/-- The contexts there are: those of plugins with a directory, and of plugins that are a file. -/
inductive Formed : Context → Prop
  | directory {main : Path} {candidates : List Path} {context : Context}
      (made : ofDirectory main candidates = .ok context) : Formed context
  | file {main : Path} {context : Context} (made : ofFile main = .ok context) : Formed context

/-- Whether there is a context, and all of it but the files, is decided by the main file. -/
theorem ofDirectory_eq_ok : ofDirectory main candidates = .ok context ↔
    ∃ root slug name, rootOf main = .ok root ∧ nameOf root = .ok slug ∧ nameOf main = .ok name ∧
      context = ⟨main, root, slug, slug ++ "/" ++ name, pluginFiles root main candidates, false⟩ := by
  unfold ofDirectory
  cases root : rootOf main with
  | error e => simp [bind, Except.bind]
  | ok r =>
    cases slug : nameOf r with
    | error e => simp [slug, bind, Except.bind]
    | ok s =>
      cases name : nameOf main with
      | error e => simp [slug, bind, Except.bind]
      | ok n => simp [slug, bind, Except.bind, pure, Except.pure, eq_comm]

theorem ofDirectory_spec (made : ofDirectory main candidates = .ok context) :
    rootOf main = .ok context.root ∧ (∃ name, nameOf main = .ok name) ∧
      context.mainFile = main ∧ context.singleFile = false ∧
      context.files = pluginFiles context.root main candidates := by
  obtain ⟨root, slug, name, above, -, named, rfl⟩ := ofDirectory_eq_ok.mp made
  exact ⟨above, ⟨name, named⟩, rfl, rfl, rfl⟩

theorem ofFile_spec (made : ofFile main = .ok context) :
    rootOf main = .ok context.root ∧ (∃ name, nameOf main = .ok name) ∧
      context.mainFile = main ∧ context.singleFile = true ∧ context.files = [main] := by
  unfold ofFile at made
  cases root : rootOf main with
  | error e => simp [root, bind, Except.bind] at made
  | ok r =>
    cases name : nameOf main with
    | error e => simp [root, name, bind, Except.bind] at made
    | ok n =>
      cases stem : main.stem with
      | none =>
        simp [root, name, stem, bind, Except.bind, throw, throwThe, MonadExceptOf.throw] at made
      | some s =>
        simp only [root, name, stem, bind, Except.bind, pure, Except.pure] at made
        obtain rfl := Except.ok.inj made
        exact ⟨rfl, ⟨n, rfl⟩, rfl, rfl, rfl⟩

theorem Formed.files_ascending (formed : context.Formed) :
    context.files.Pairwise (·.less ·) := by
  cases formed with
  | directory made =>
    obtain ⟨-, -, -, -, files⟩ := ofDirectory_spec made
    rw [files]
    exact pluginFiles_ascending _ _ _
  | file made =>
    obtain ⟨-, -, -, -, files⟩ := ofFile_spec made
    rw [files]
    exact List.pairwise_singleton _ _

end Context

end PluginAudit
