import PluginAudit.Proofs.Findings
import PluginAudit.Proofs.Maps
import Mathlib.Data.List.Pairwise

/-!
The order of the findings in a record. They stand in the order of their places, and those of one
place in the order in which they were added. So two records are the same if the same was added to
them in the same order at every place.
-/

namespace PluginAudit

namespace Entries

variable {κ α β : Type} {less : κ → κ → Bool} {Proper : κ → α → Prop} {entries : List (κ × α)}

/-- A strict order of all keys. -/
structure Orders (less : κ → κ → Bool) : Prop where
  irrefl : ∀ a, less a a = false
  trans : ∀ {a b c}, less a b = true → less b c = true → less a c = true
  total : ∀ {a b}, less a b = false → a ≠ b → less b a = true

theorem natLess_orders : Orders natLess where
  irrefl a := by simp [natLess]
  trans h h' := by
    simp only [natLess, decide_eq_true_eq] at h h' ⊢
    exact Nat.lt_trans h h'
  total h other := by
    simp only [natLess, decide_eq_true_eq, decide_eq_false_iff_not] at h ⊢
    omega

theorem textLess_orders : Orders textLess where
  irrefl a := by simp [textLess]
  trans h h' := by
    simp only [textLess, decide_eq_true_eq] at h h' ⊢
    exact String.lt_trans h h'
  total h other := by
    simpa [textLess] using above_of_not_textLess (by simpa using h) other

/-- The keys ascend, and each value is proper for its key. -/
structure Sorted (less : κ → κ → Bool) (Proper : κ → α → Prop) (entries : List (κ × α)) : Prop where
  ascending : entries.Pairwise fun e f => less e.1 f.1 = true
  proper : ∀ e ∈ entries, Proper e.1 e.2

theorem Sorted.nil : Sorted less Proper [] := ⟨.nil, by simp⟩

theorem Sorted.cons {k : κ} {v : α} (above : ∀ e ∈ entries, less k e.1 = true) (here : Proper k v)
    (later : Sorted less Proper entries) : Sorted less Proper ((k, v) :: entries) where
  ascending := List.pairwise_cons.mpr ⟨above, later.ascending⟩
  proper := List.forall_mem_cons.mpr ⟨here, later.proper⟩

theorem Sorted.uncons {k : κ} {v : α} (sorted : Sorted less Proper ((k, v) :: entries)) :
    (∀ e ∈ entries, less k e.1 = true) ∧ Proper k v ∧ Sorted less Proper entries := by
  obtain ⟨ascending, proper⟩ := sorted
  obtain ⟨above, ascending⟩ := List.pairwise_cons.mp ascending
  obtain ⟨here, later⟩ := List.forall_mem_cons.mp proper
  exact ⟨above, here, ascending, later⟩

variable [DecidableEq κ] (orders : Orders less) {key k : κ} {change : Option α → α}
include orders

theorem Sorted.update (sorted : Sorted less Proper entries) (fresh : Proper key (change none))
    (changed : ∀ v, Proper key v → Proper key (change (some v))) :
    Sorted less Proper (update less key change entries) := by
  induction entries with
  | nil => exact .cons (by simp) fresh .nil
  | cons entry rest ih =>
    obtain ⟨k, v⟩ := entry
    obtain ⟨above, here, later⟩ := sorted.uncons
    simp only [Entries.update]
    split
    · rename_i before
      refine .cons (fun e member => ?_) fresh sorted
      rcases List.mem_cons.mp member with rfl | member
      · exact before
      · exact orders.trans before (above e member)
    · rename_i notBefore
      split
      · rename_i same
        subst same
        exact .cons above (changed v here) later
      · rename_i other
        refine .cons (fun e member => ?_) here (ih later)
        rcases mem_update member with same | member
        · rw [same]
          exact orders.total (Bool.eq_false_iff.mpr notBefore) other
        · exact above e member

omit orders in
theorem Sorted.lookup_getD (sorted : Sorted less Proper entries) {v : α} (otherwise : Proper k v) :
    Proper k ((entries.lookup k).getD v) := by
  cases found : entries.lookup k with
  | none => exact otherwise
  | some there =>
    obtain ⟨before, after, rfl, -⟩ := List.lookup_eq_some_iff.mp found
    exact sorted.proper (k, there) (by simp)

theorem lookup_above (above : ∀ e ∈ entries, less k e.1 = true) : entries.lookup k = none := by
  refine List.lookup_eq_none_iff.mpr fun e member => ?_
  rw [bne_iff_ne]
  rintro rfl
  have less := above e member
  rw [orders.irrefl] at less
  cases less

theorem Sorted.lookup_update (sorted : Sorted less Proper entries) :
    (Entries.update less key change entries).lookup k =
      if k = key then some (change (entries.lookup key)) else entries.lookup k := by
  induction entries with
  | nil => exact lookup_cons k key _ []
  | cons entry rest ih =>
    obtain ⟨j, v⟩ := entry
    obtain ⟨above, -, later⟩ := sorted.uncons
    simp only [Entries.update]
    split
    · rename_i before
      have absent : ((j, v) :: rest).lookup key = none := by
        refine lookup_above orders fun e member => ?_
        rcases List.mem_cons.mp member with rfl | member
        · exact before
        · exact orders.trans before (above e member)
      rw [lookup_cons, absent]
    · split
      · rename_i same
        subst same
        simp only [lookup_cons, if_true]
        split <;> rfl
      · rename_i other
        simp only [lookup_cons, ih later, if_neg other]
        by_cases same : k = key
        · rw [if_pos same, if_pos same, if_neg (same ▸ other)]
        · rw [if_neg same, if_neg same]

omit orders

section Shown

variable {view : α → List β} (keyOf : β → κ)
  (keyed : ∀ k v, Proper k v → ∀ b ∈ view v, keyOf b = k)
include keyed

/-- What belongs to a key is found at that key. -/
theorem Sorted.filter_flatMap (orders : Orders less) (sorted : Sorted less Proper entries)
    {v : α} (empty : view v = []) (q : β → Bool) :
    (entries.flatMap fun e => view e.2).filter (fun b => keyOf b = k && q b) =
      (view ((entries.lookup k).getD v)).filter q := by
  induction entries with
  | nil => simp [empty]
  | cons entry rest ih =>
    obtain ⟨j, u⟩ := entry
    obtain ⟨above, here, later⟩ := sorted.uncons
    rw [List.flatMap_cons, List.filter_append, ih later, lookup_cons]
    by_cases same : k = j
    · subst same
      have all : (view u).filter (fun b => keyOf b = k && q b) = (view u).filter q := by
        refine List.filter_congr fun b member => ?_
        simp [keyed k u here b member]
      rw [all, lookup_above orders above, if_pos rfl]
      simp [empty]
    · have none : (view u).filter (fun b => keyOf b = k && q b) = [] := by
        refine List.filter_eq_nil_iff.mpr fun b member => ?_
        simp [keyed j u here b member, Ne.symm same]
      rw [none, if_neg same, List.nil_append]

omit [DecidableEq κ] in
/-- What is shown stands in the order of the keys. -/
theorem Sorted.pairwise_flatMap (sorted : Sorted less Proper entries) {R : β → β → Prop}
    (within : ∀ k v, Proper k v → (view v).Pairwise R)
    (across : ∀ a b, less (keyOf a) (keyOf b) = true → R a b) :
    (entries.flatMap fun e => view e.2).Pairwise R := by
  refine List.pairwise_flatMap.mpr ⟨fun e member => within e.1 e.2 (sorted.proper e member), ?_⟩
  refine sorted.ascending.imp_of_mem fun {e f} member member' less a inside b inside' => ?_
  apply across
  rw [keyed _ _ (sorted.proper e member) a inside, keyed _ _ (sorted.proper f member') b inside']
  exact less

end Shown

end Entries

namespace Finding

/-- File, line and column. -/
abbrev Place := String × Nat × Nat

def place (f : Finding) : Place := (f.file, f.line, f.column)

/-- The order of places. -/
def Place.Upto (p q : Place) : Prop :=
  p.1 < q.1 ∨ p.1 = q.1 ∧ (p.2.1 < q.2.1 ∨ p.2.1 = q.2.1 ∧ p.2.2 ≤ q.2.2)

theorem Place.Upto.antisymm {p q : Place} (h : p.Upto q) (h' : q.Upto p) : p = q := by
  obtain ⟨file, line, column⟩ := p
  obtain ⟨file', line', column'⟩ := q
  simp only [Upto] at h h'
  have sameFile : file = file' := by
    rcases h with less | ⟨same, -⟩
    · rcases h' with less' | ⟨same, -⟩
      · exact absurd (String.lt_trans less less') (String.lt_irrefl file)
      · exact same.symm
    · exact same
  subst sameFile
  simp only [String.lt_irrefl, false_or, true_and] at h h'
  have sameLine : line = line' := by omega
  have sameColumn : column = column' := by omega
  rw [sameLine, sameColumn]

theorem Place.Upto.trans {p q r : Place} (h : p.Upto q) (h' : q.Upto r) : p.Upto r := by
  obtain ⟨file, line, column⟩ := p
  obtain ⟨file', line', column'⟩ := q
  obtain ⟨file'', line'', column''⟩ := r
  simp only [Upto] at h h' ⊢
  rcases h with less | ⟨rfl, inside⟩
  · rcases h' with less' | ⟨rfl, -⟩
    · exact .inl (String.lt_trans less less')
    · exact .inl less
  · rcases h' with less' | ⟨rfl, inside'⟩
    · exact .inl less'
    · exact .inr ⟨rfl, by omega⟩

theorem Place.Upto.total (p q : Place) : p.Upto q ∨ q.Upto p := by
  obtain ⟨file, line, column⟩ := p
  obtain ⟨file', line', column'⟩ := q
  simp only [Upto]
  by_cases less : file < file'
  · exact .inl (.inl less)
  · by_cases less' : file' < file
    · exact .inr (.inl less')
    · obtain rfl : file = file' := String.le_antisymm (String.not_lt.mp less') (String.not_lt.mp less)
      rcases Nat.lt_or_ge line line' with above | below
      · exact .inl (.inr ⟨rfl, .inl above⟩)
      · have later : line' < line ∨ line' = line := by omega
        rcases later with later | rfl
        · exact .inr (.inr ⟨rfl, .inl later⟩)
        · rcases Nat.le_total column column' with le | le
          · exact .inl (.inr ⟨rfl, .inr ⟨rfl, le⟩⟩)
          · exact .inr (.inr ⟨rfl, .inr ⟨rfl, le⟩⟩)

/-- Findings in the order of their places are known from what there is at each place. -/
theorem eq_of_places {l m : List Finding} (sorted : l.Pairwise fun f g => f.place.Upto g.place)
    (sorted' : m.Pairwise fun f g => f.place.Upto g.place)
    (same : ∀ place, l.filter (·.place = place) = m.filter (·.place = place)) : l = m := by
  -- The first finding of each list has a place up to which no other comes.
  have first {f : Finding} {l m : List Finding}
      (sorted : (f :: l).Pairwise fun f g => f.place.Upto g.place)
      (same : ∀ place, (f :: l).filter (·.place = place) = m.filter (·.place = place)) :
      ∀ g ∈ m, g.place = f.place ∨ f.place.Upto g.place := by
    intro g member
    have inside : g ∈ (f :: l).filter (·.place = g.place) := by
      rw [same]
      simpa using member
    rcases List.mem_cons.mp (List.mem_filter.mp inside).1 with rfl | later
    · exact .inl rfl
    · exact .inr ((List.pairwise_cons.mp sorted).1 g later)
  induction l generalizing m with
  | nil =>
    cases m with
    | nil => rfl
    | cons g m => simpa using same g.place
  | cons f l ih =>
    cases m with
    | nil => simpa using same f.place
    | cons g m =>
      have samePlace : f.place = g.place := by
        rcases first sorted same g List.mem_cons_self with equal | upto
        · exact equal.symm
        · rcases first sorted' (fun place => (same place).symm) f List.mem_cons_self with
            equal | upto'
          · exact equal
          · exact upto.antisymm upto'
      have heads := same g.place
      rw [List.filter_cons_of_pos (by simpa using samePlace), List.filter_cons_of_pos (by simp)]
        at heads
      obtain ⟨rfl, -⟩ := List.cons_eq_cons.mp heads
      congr 1
      refine ih (List.pairwise_cons.mp sorted).2 (List.pairwise_cons.mp sorted').2 fun place => ?_
      have all := same place
      simp only [List.filter_cons] at all
      split at all
      · exact (List.cons_eq_cons.mp all).2
      · exact all

end Finding

namespace Files

/-- What a record holds at a place. -/
def bucket (files : Files) (place : Finding.Place) : List Finding :=
  ((((files.lookup place.1).getD []).lookup place.2.1).getD []).lookup place.2.2 |>.getD []

def ProperColumns (file : String) (line : Nat) (columns : Columns) : Prop :=
  Entries.Sorted Entries.natLess
    (fun column found => ∀ f ∈ found, f.place = (file, line, column)) columns

def ProperLines (file : String) (lines : Lines) : Prop :=
  Entries.Sorted Entries.natLess (ProperColumns file) lines

/-- Files, lines and columns ascend, and findings are kept at their places. -/
def Proper (files : Files) : Prop := Entries.Sorted Entries.textLess ProperLines files

open Entries

variable {files : Files}

theorem Proper.nil : Proper [] := Sorted.nil

theorem Proper.add (proper : files.Proper) (f : Finding) : (files.add f).Proper := by
  have columns (c : Columns) (proper : ProperColumns f.file f.line c) :
      ProperColumns f.file f.line (inLines f (some c)) := by
    refine Sorted.update natLess_orders proper (by simp [inColumns, Finding.place]) ?_
    intro found all g member
    rcases List.mem_append.mp member with member | member
    · exact all g member
    · rw [List.mem_singleton.mp member]
      rfl
  have lines (l : Lines) (proper : ProperLines f.file l) :
      ProperLines f.file (inFiles f (some l)) :=
    Sorted.update natLess_orders proper (columns [] .nil) columns
  exact Sorted.update textLess_orders proper (lines [] .nil) lines

theorem Proper.bucket_add (proper : files.Proper) (f : Finding) (place : Finding.Place) :
    (files.add f).bucket place =
      files.bucket place ++ [f].filter (·.place = place) := by
  obtain ⟨file, line, column⟩ := place
  have linesProper : ProperLines f.file ((files.lookup f.file).getD []) :=
    Sorted.lookup_getD proper Sorted.nil
  have columnsProper : ProperColumns f.file f.line
      ((((files.lookup f.file).getD []).lookup f.line).getD []) :=
    Sorted.lookup_getD linesProper Sorted.nil
  simp only [bucket, add_eq, Sorted.lookup_update textLess_orders proper]
  by_cases inFile : file = f.file
  · subst inFile
    simp only [if_true, inFiles, Option.getD_some, Sorted.lookup_update natLess_orders linesProper]
    by_cases inLine : line = f.line
    · subst inLine
      simp only [if_true, inLines, Option.getD_some,
        Sorted.lookup_update natLess_orders columnsProper]
      by_cases inColumn : column = f.column
      · simp [inColumn, inColumns, Finding.place]
      · simp [inColumn, Ne.symm inColumn, Finding.place]
    · simp [inLine, Ne.symm inLine, Finding.place]
  · simp [inFile, Ne.symm inFile, Finding.place]

theorem ProperColumns.shown {file : String} {line : Nat} {columns : Columns}
    (proper : ProperColumns file line columns) :
    ∀ f ∈ columns.flatMap fun e => e.2, f.file = file ∧ f.line = line := by
  intro f member
  obtain ⟨e, inside, member⟩ := List.mem_flatMap.mp member
  have same := proper.proper e inside f member
  simp only [Finding.place, Prod.mk.injEq] at same
  exact ⟨same.1, same.2.1⟩

theorem ProperLines.shown {file : String} {lines : Lines} (proper : ProperLines file lines) :
    ∀ f ∈ lines.flatMap fun e => e.2.flatMap fun e => e.2, f.file = file := by
  intro f member
  obtain ⟨e, inside, member⟩ := List.mem_flatMap.mp member
  exact ((proper.proper e inside).shown f member).1

theorem at_column {file : String} {line : Nat} (column : Nat) (found : List Finding)
    (all : ∀ f ∈ found, f.place = (file, line, column)) : ∀ f ∈ found, f.column = column := by
  intro f member
  have same := all f member
  simp only [Finding.place, Prod.mk.injEq] at same
  exact same.2.2

theorem toList_eq (files : Files) :
    files.toList = files.flatMap fun e => e.2.flatMap fun e => e.2.flatMap fun e => e.2 := rfl

/-- What is kept at a place is what is listed of it. -/
theorem Proper.filter_toList (proper : files.Proper) (place : Finding.Place) :
    files.toList.filter (·.place = place) = files.bucket place := by
  obtain ⟨file, line, column⟩ := place
  have parts : (fun f : Finding => decide (f.place = (file, line, column))) =
      fun f => decide (f.file = file) && (decide (f.line = line) &&
        (decide (f.column = column) && true)) := by
    funext f
    simp [Finding.place]
  have linesProper : ProperLines file ((files.lookup file).getD []) :=
    Sorted.lookup_getD proper Sorted.nil
  have columnsProper : ProperColumns file line
      ((((files.lookup file).getD []).lookup line).getD []) :=
    Sorted.lookup_getD linesProper Sorted.nil
  rw [toList_eq, parts,
    Sorted.filter_flatMap Finding.file (fun _ _ h => h.shown) textLess_orders proper (v := []) rfl,
    Sorted.filter_flatMap Finding.line (fun _ _ h f member => (h.shown f member).2)
      natLess_orders linesProper (v := []) rfl,
    Sorted.filter_flatMap Finding.column at_column natLess_orders columnsProper (v := []) rfl]
  exact List.filter_eq_self.mpr fun _ _ => rfl

theorem ProperColumns.sorted {file : String} {line : Nat} {columns : Columns}
    (proper : ProperColumns file line columns) :
    (columns.flatMap fun e => e.2).Pairwise fun f g => f.column ≤ g.column := by
  refine Sorted.pairwise_flatMap Finding.column at_column proper (fun column found all => ?_) ?_
  · refine List.pairwise_of_forall_mem_list fun f member g member' => ?_
    exact Nat.le_of_eq ((at_column column found all f member).trans
      (at_column column found all g member').symm)
  · intro f g less
    exact Nat.le_of_lt (of_decide_eq_true less)

theorem ProperLines.sorted {file : String} {lines : Lines} (proper : ProperLines file lines) :
    (lines.flatMap fun e => e.2.flatMap fun e => e.2).Pairwise fun f g =>
      f.line < g.line ∨ f.line = g.line ∧ f.column ≤ g.column := by
  refine Sorted.pairwise_flatMap Finding.line (fun _ _ h f member => (h.shown f member).2) proper
    (fun line columns inner => ?_) fun f g less => .inl (of_decide_eq_true less)
  refine inner.sorted.imp_of_mem fun {f g} member member' upto => .inr ⟨?_, upto⟩
  rw [(inner.shown f member).2, (inner.shown g member').2]

/-- Findings are listed in the order of their places. -/
theorem Proper.toList_sorted (proper : files.Proper) :
    files.toList.Pairwise fun f g => f.place.Upto g.place := by
  refine Sorted.pairwise_flatMap Finding.file (fun _ _ h => h.shown) proper
    (fun file lines inner => ?_) fun f g less => Or.inl (of_decide_eq_true less)
  refine inner.sorted.imp_of_mem fun {f g} member member' upto => Or.inr ⟨?_, upto⟩
  exact (inner.shown f member).trans (inner.shown g member').symm

end Files

namespace CheckRecord

/-- What a record holds at each place when findings have been added to an empty one. -/
theorem bucket_addAll (fs : List Finding) :
    (empty.addAll fs).files.Proper ∧
      ∀ place, (empty.addAll fs).files.bucket place = fs.filter (·.place = place) := by
  have added (r : CheckRecord) (proper : r.files.Proper) :
      (r.addAll fs).files.Proper ∧ ∀ place,
        (r.addAll fs).files.bucket place = r.files.bucket place ++ fs.filter (·.place = place) := by
    induction fs generalizing r with
    | nil => exact ⟨proper, fun place => by simp [addAll]⟩
    | cons f rest ih =>
      obtain ⟨later, buckets⟩ := ih (r.add f) (proper.add f)
      refine ⟨later, fun place => ?_⟩
      have first : (r.add f).files.bucket place =
          r.files.bucket place ++ [f].filter (·.place = place) := proper.bucket_add f place
      have all := buckets place
      rw [first, List.append_assoc, ← List.filter_append] at all
      exact all
  exact added empty Files.Proper.nil

end CheckRecord

end PluginAudit
