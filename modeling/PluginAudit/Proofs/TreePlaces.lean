import Mathlib.Data.List.Nodup
import PluginAudit.Proofs.Maps
import PluginAudit.Proofs.PlacePaths
import PluginAudit.Proofs.Utf8

/-!
Places in a tree of files. In a tree whose directories have every name once, and only names that
files can have, a walk along the names of a place arrives there, and the regular files that are
listed are those at the places that are not skipped.
-/

namespace PluginAudit

open Text FileTree

namespace Node

open Entries (mem_of_lookup lookup_of_mem)

mutual
/-- Every directory has every name once, and only names that files can have. -/
def WellNamed : Node → Prop
  | .file _ => True
  | .link _ => True
  | .directory entries => (entries.map Prod.fst).Nodup ∧ AllWellNamed entries

def AllWellNamed : List (String × Node) → Prop
  | [] => True
  | (name, n) :: rest => IsName name ∧ n.WellNamed ∧ AllWellNamed rest
end

variable {n m : Node} {entries : List (String × Node)} {name : String} {location : Location}

theorem AllWellNamed.mem (all : AllWellNamed entries) (member : (name, n) ∈ entries) :
    IsName name ∧ n.WellNamed := by
  induction entries with
  | nil => cases member
  | cons entry rest ih =>
    obtain ⟨k, c⟩ := entry
    rcases List.mem_cons.mp member with same | later
    · cases same
      exact ⟨all.1, all.2.1⟩
    · exact ih all.2.2 later

theorem child?_directory (some : n.child? name = some m) :
    ∃ entries, n = .directory entries ∧ entries.lookup name = .some m := by
  cases n with
  | directory entries => exact ⟨entries, rfl, some⟩
  | file data => cases some
  | link target => cases some

theorem find?_cons (n : Node) (name : String) (rest : Location) :
    n.find? (name :: rest) = (n.child? name).bind (·.find? rest) := rfl

theorem find?_append (n : Node) (first rest : Location) :
    n.find? (first ++ rest) = (n.find? first).bind (·.find? rest) := by
  induction first generalizing n with
  | nil => rfl
  | cons name more ih =>
    rw [List.cons_append, find?_cons, find?_cons]
    cases n.child? name with
    | none => rfl
    | some c => exact ih c

theorem WellNamed.child? (sound : n.WellNamed) (found : n.child? name = some m) :
    IsName name ∧ m.WellNamed := by
  obtain ⟨entries, rfl, there⟩ := child?_directory found
  exact sound.2.mem (mem_of_lookup there)

theorem WellNamed.find? (sound : n.WellNamed) (found : n.find? location = some m) :
    Named location ∧ m.WellNamed := by
  induction location generalizing n with
  | nil =>
    cases found
    exact ⟨List.forall_mem_nil _, sound⟩
  | cons name rest ih =>
    obtain ⟨c, child, later⟩ := Option.bind_eq_some_iff.mp found
    obtain ⟨valid, inner⟩ := sound.child? child
    obtain ⟨named, well⟩ := ih inner later
    exact ⟨List.forall_mem_cons.mpr ⟨valid, named⟩, well⟩

section Files

variable {skips : String → Bool} {above : Location}

/-- A place below a node that has a regular file, and no skipped directory on the way. -/
def Lists (skips : String → Bool) (n : Node) (below : Location) : Prop :=
  (∃ data, n.find? below = some (.file data)) ∧ ∀ name ∈ below.dropLast, skips name = false

theorem lists_file (data : Bytes) (below : Location) :
    Lists skips (.file data) below ↔ below = [] := by
  cases below with
  | nil => simp [Lists, Node.find?]
  | cons name rest => simp [Lists, find?_cons, Node.child?]

theorem lists_link (target : String) (below : Location) :
    ¬Lists skips (.link target) below := by
  cases below with
  | nil => simp [Lists, Node.find?]
  | cons name rest => simp [Lists, find?_cons, Node.child?]

/-- What is listed in a directory is listed in one of its entries that is not skipped. -/
theorem lists_directory (distinct : (entries.map Prod.fst).Nodup) (below : Location) :
    Lists skips (.directory entries) below ↔
      ∃ name n rest, (name, n) ∈ entries ∧ below = name :: rest ∧
        (n.isDirectory && skips name) = false ∧ Lists skips n rest := by
  cases below with
  | nil => simp [Lists, Node.find?]
  | cons name rest =>
    constructor
    · rintro ⟨⟨data, found⟩, open_⟩
      obtain ⟨c, there, later⟩ := Option.bind_eq_some_iff.mp found
      refine ⟨name, c, rest, mem_of_lookup there, rfl, ?_, ⟨data, later⟩, ?_⟩
      · cases rest with
        | nil =>
          cases later
          rfl
        | cons next more => rw [open_ name (by simp), Bool.and_false]
      · intro k member
        cases rest with
        | nil => cases member
        | cons next more => exact open_ k (List.mem_cons_of_mem _ member)
    · rintro ⟨k, c, more, member, same, unskipped, ⟨data, later⟩, open_⟩
      obtain ⟨rfl, rfl⟩ := List.cons.inj same
      refine ⟨⟨data, Option.bind_eq_some_iff.mpr ⟨c, lookup_of_mem distinct member, later⟩⟩, ?_⟩
      intro k within
      cases rest with
      | nil => cases within
      | cons next more =>
        rcases List.mem_cons.mp within with rfl | inner
        · -- A file below it makes the entry a directory.
          obtain ⟨d, step, -⟩ := Option.bind_eq_some_iff.mp later
          obtain ⟨inside, rfl, -⟩ := child?_directory step
          simpa [isDirectory] using unskipped
        · exact open_ k inner

mutual
theorem mem_files (n : Node) (above l : Location) (sound : n.WellNamed) :
    l ∈ n.files skips above ↔ ∃ below, l = above ++ below ∧ Lists skips n below := by
  match n with
  | .file data => simp [files, lists_file]
  | .link target => simp [files, lists_link]
  | .directory entries =>
    rw [files, mem_filesOf entries above l sound.2]
    simp only [lists_directory sound.1]
    constructor
    · rintro ⟨name, c, rest, member, same, open_, listed⟩
      exact ⟨name :: rest, same, name, c, rest, member, rfl, open_, listed⟩
    · rintro ⟨below, same, name, c, rest, member, rfl, open_, listed⟩
      exact ⟨name, c, rest, member, same, open_, listed⟩

theorem mem_filesOf (entries : List (String × Node)) (above l : Location)
    (sound : AllWellNamed entries) :
    l ∈ filesOf skips above entries ↔ ∃ name c rest, (name, c) ∈ entries ∧
      l = above ++ name :: rest ∧ (c.isDirectory && skips name) = false ∧ Lists skips c rest := by
  match entries with
  | [] => simp [filesOf]
  | (name, c) :: others =>
    obtain ⟨-, inner, later⟩ := sound
    rw [filesOf, List.mem_append, mem_filesOf others above l later]
    have first : l ∈ (if (c.isDirectory && skips name) = true then []
        else files skips (above ++ [name]) c) ↔ ∃ rest, l = above ++ name :: rest ∧
          (c.isDirectory && skips name) = false ∧ Lists skips c rest := by
      split
      · simp_all
      · rw [mem_files c (above ++ [name]) l inner]
        simp_all
    rw [first]
    simp only [List.mem_cons, Prod.mk.injEq]
    constructor
    · rintro (⟨rest, here⟩ | ⟨k, d, rest, member, there⟩)
      · exact ⟨name, c, rest, .inl ⟨rfl, rfl⟩, here⟩
      · exact ⟨k, d, rest, .inr member, there⟩
    · rintro ⟨k, d, rest, ⟨rfl, rfl⟩ | member, there⟩
      · exact .inl ⟨rest, there⟩
      · exact .inr ⟨k, d, rest, member, there⟩
end

mutual
theorem nodup_files (n : Node) (above : Location) (sound : n.WellNamed) :
    (n.files skips above).Nodup := by
  match n with
  | .file data => simp [files]
  | .link target => simp [files]
  | .directory entries =>
    rw [files]
    exact nodup_filesOf entries above sound.1 sound.2

theorem nodup_filesOf (entries : List (String × Node)) (above : Location)
    (distinct : (entries.map Prod.fst).Nodup) (sound : AllWellNamed entries) :
    (filesOf skips above entries).Nodup := by
  match entries with
  | [] => simp [filesOf]
  | (name, c) :: others =>
    obtain ⟨-, inner, later⟩ := sound
    obtain ⟨new, apart⟩ := List.nodup_cons.mp distinct
    rw [filesOf]
    refine List.Nodup.append ?_ (nodup_filesOf others above apart later) ?_
    · split
      · exact List.nodup_nil
      · exact nodup_files c (above ++ [name]) inner
    · intro l here there
      obtain ⟨k, d, rest, member, same, -⟩ := (mem_filesOf others above l later).mp there
      split at here
      · cases here
      · obtain ⟨below, other, -⟩ := (mem_files c (above ++ [name]) l inner).mp here
        have names : name :: below = k :: rest := by
          simpa [other] using same
        obtain ⟨rfl, -⟩ := List.cons.inj names
        exact new (List.mem_map.mpr ⟨_, member, rfl⟩)
end

end Files

end Node

namespace FileTree

variable {n : Node} {name : String} {location : Location}

theorem walk_names (root : Node) (links : Nat) {here rest : Location} (named : Named rest)
    (found : root.find? (here.reverse ++ rest) = some n) (noLink : ∀ target, n ≠ .link target) :
    walk root links here (rest.map String.toList) = .ok (here.reverse ++ rest) := by
  induction rest generalizing here with
  | nil => rw [List.map_nil, walk, List.append_nil]
  | cons name more ih =>
    have valid : IsName name := named name List.mem_cons_self
    obtain ⟨some, dot, dots⟩ := valid.part_ne
    have size : ¬nameLimit < byteSize name.toList := Nat.not_lt.mpr valid.2.2.2
    obtain ⟨d, directory, step⟩ := Option.bind_eq_some_iff.mp
      ((root.find?_append here.reverse (name :: more)).symm.trans found)
    obtain ⟨c, child, later⟩ := Option.bind_eq_some_iff.mp step
    obtain ⟨entries, rfl, there⟩ := Node.child?_directory child
    have onward : walk root links (name :: here) (more.map String.toList) =
        .ok (here.reverse ++ name :: more) := by
      have further := @ih (name :: here) fun n member => named n (List.mem_cons_of_mem _ member)
      rw [List.reverse_cons, List.append_assoc, List.singleton_append] at further
      exact further found
    rw [List.map_cons, walk, directory]
    simp only [some, dot, dots, size, or_self, if_false, String.ofList_toList, there]
    cases c with
    | link target =>
      -- A link has nothing below it.
      cases more with
      | nil =>
        cases later
        exact absurd rfl (noLink target)
      | cons next others => cases later
    | file data => exact onward
    | directory inside => exact onward

theorem nul_pathOf (named : Named location) : '\x00' ∉ (pathOf location).text.toList := by
  rw [toList_pathOf]
  intro member
  rcases List.mem_cons.mp member with same | inside
  · cases same
  · rcases mem_joinWith inside with mark | ⟨part, listed, within⟩
    · simp at mark
    · obtain ⟨name, there, rfl⟩ := List.mem_map.mp listed
      exact (named name there).2.2.1 within

theorem follow_pathOf (tree : FileTree) (named : Named location)
    (found : tree.root.find? location = some n) (noLink : ∀ target, n ≠ .link target)
    (inner : location ≠ []) : tree.follow (pathOf location) = .ok location := by
  have noNul : (pathOf location).text.toList.contains '\x00' = false := by
    simpa using nul_pathOf named
  have some : (pathOf location).text.toList.isEmpty = false := by
    rw [toList_pathOf]
    rfl
  obtain ⟨name, rest, rfl⟩ := List.exists_cons_of_ne_nil inner
  obtain ⟨c, child, -⟩ := Option.bind_eq_some_iff.mp found
  obtain ⟨entries, top, -⟩ := Node.child?_directory child
  have parts : splitAt '/' (pathOf (name :: rest)).text.toList =
      [] :: (name :: rest).map String.toList := by
    rw [toList_pathOf, splitAt, if_pos rfl, splitAt_names named, if_neg inner]
  have begins : tree.root.find? ([] : Location).reverse = .some (.directory entries) := by
    rw [List.reverse_nil, Node.find?, top]
  simp only [follow, noNul, some, Bool.false_eq_true, if_false, walkFrom, isAbsolute_pathOf,
    if_true, parts]
  rw [walk, begins]
  simp only [true_or, if_true]
  exact @walk_names n tree.root linkLimit [] (name :: rest) named found noLink

/-- A regular file is read by its path, unless that is too long. -/
theorem read_pathOf (tree : FileTree) (named : Named location) {data : Bytes}
    (found : tree.root.find? location = some (.file data)) (inner : location ≠ [])
    (short : byteSize (pathOf location).text.toList < pathLimit) :
    tree.read (pathOf location) = .ok data := by
  have located : tree.locate (pathOf location) = .ok location := by
    simp only [locate, Nat.not_le.mpr short, decide_false, Bool.and_false, Bool.false_eq_true,
      if_false]
    exact tree.follow_pathOf named found (by simp) inner
  simp only [read, node, located, found]

theorem readText_of_read {tree : FileTree} {p : Path} {text : List Char}
    (read : tree.read p = .ok (encode text)) : tree.readText p = .ok text := by
  simp only [readText, read, decode?_encode]

end FileTree

end PluginAudit
