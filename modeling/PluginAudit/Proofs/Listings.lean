import PluginAudit.Proofs.TreePlaces

/-!
Trees that differ at most in the order in which their directories list what is in them. Paths lead
to the same places in both, and the same regular files are at them.
-/

namespace PluginAudit

open Text FileTree

/-- What a node is, whatever the listing of a directory is. -/
inductive Node.Kind where
  | file (data : Bytes)
  | directory
  | link (target : String)
deriving DecidableEq

namespace Node

def kind : Node → Kind
  | .file data => .file data
  | .directory _ => .directory
  | .link target => .link target

/-- At every place there is the same, or nothing in both trees. -/
def Agree (n m : Node) : Prop :=
  ∀ location, (n.find? location).map kind = (m.find? location).map kind

variable {n m : Node} {location : Location}

theorem kind_eq_file {c : Node} {data : Bytes} (same : c.kind = .file data) : c = .file data := by
  cases c with
  | file other => cases same; rfl
  | directory entries => cases same
  | link target => cases same

theorem Agree.symm (agree : Agree n m) : Agree m n := fun location => (agree location).symm

theorem Agree.file (agree : Agree n m) {data : Bytes}
    (found : n.find? location = some (.file data)) : m.find? location = some (.file data) := by
  have same := agree location
  rw [found] at same
  obtain ⟨c, there, kind⟩ := Option.map_eq_some_iff.mp same.symm
  rw [there, kind_eq_file kind]

theorem Agree.directory (agree : Agree n m) {entries : List (String × Node)}
    (found : n.find? location = some (.directory entries)) :
    ∃ others, m.find? location = some (.directory others) := by
  have same := agree location
  rw [found] at same
  obtain ⟨c, there, kind⟩ := Option.map_eq_some_iff.mp same.symm
  cases c with
  | file data => cases kind
  | link target => cases kind
  | directory others => exact ⟨others, there⟩

theorem Agree.below (agree : Agree n m) {c d : Node} (found : n.find? location = some c)
    (there : m.find? location = some d) : Agree c d := by
  intro rest
  have same := agree (location ++ rest)
  rw [find?_append, find?_append, found, there] at same
  exact same

/-- A directory may list what is in it in any order. -/
theorem agree_of_perm {entries others : List (String × Node)}
    (distinct : (entries.map Prod.fst).Nodup) (perm : entries.Perm others) :
    Agree (.directory entries) (.directory others) := by
  intro location
  cases location with
  | nil => rfl
  | cons name rest => simp only [find?_cons, child?, Entries.lookup_perm distinct perm]

/-- So may every directory in it. -/
theorem agree_of_entry {c d : Node} (agree : Agree c d) (name : String)
    (before after : List (String × Node)) :
    Agree (.directory (before ++ (name, c) :: after))
      (.directory (before ++ (name, d) :: after)) := by
  intro location
  cases location with
  | nil => rfl
  | cons k rest =>
    simp only [find?_cons, child?, List.lookup_append]
    cases before.lookup k with
    | some e => rfl
    | none =>
      by_cases here : k = name
      · rw [here, List.lookup_cons_self, List.lookup_cons_self]
        exact agree rest
      · rw [List.lookup_cons, List.lookup_cons, beq_eq_false_iff_ne.mpr here]

end Node

namespace FileTree

open Node

variable {root other : Node}

theorem walk_kinds (root : Node) (links : Nat) (here : Location) (part : List Char)
    (rest : List (List Char)) :
    walk root links here (part :: rest) =
      match (root.find? here.reverse).map kind with
      | some .directory =>
        if part = [] ∨ part = ['.'] then walk root links here rest
        else if part = ['.', '.'] then walk root links here.tail rest
        else if nameLimit < byteSize part then .error .nameTooLong
        else
          match (root.find? (here.reverse ++ [String.ofList part])).map kind with
          | none => .error .notFound
          | some (.link target) =>
            match links with
            | 0 => .error .tooManyLinks
            | links + 1 =>
              if target.isEmpty then .error .notFound
              else
                walk root links (if Path.isAbsolute ⟨target⟩ then [] else here)
                  (splitAt '/' target.toList ++ rest)
          | some _ => walk root links (String.ofList part :: here) rest
      | _ => .error .notDirectory := by
  rw [walk, find?_append]
  cases root.find? here.reverse with
  | none => rfl
  | some n =>
    cases n with
    | file data => rfl
    | link target => rfl
    | directory entries =>
      simp only [Option.bind_some, find?, child?, Option.map_some, kind]
      cases entries.lookup (String.ofList part) with
      | none => rfl
      | some c => cases c <;> rfl

theorem walk_agree (agree : Agree root other) (links : Nat) (here : Location)
    (parts : List (List Char)) : walk root links here parts = walk other links here parts := by
  induction links generalizing here parts with
  | zero =>
    induction parts generalizing here with
    | nil => rw [walk, walk]
    | cons part rest onward => simp only [walk_kinds, agree _, onward]
  | succ fewer through =>
    induction parts generalizing here with
    | nil => rw [walk, walk]
    | cons part rest onward => simp only [walk_kinds, agree _, onward, through]

theorem follow_agree {tree : FileTree} (agree : Agree tree.root other) (p : Path) :
    FileTree.follow ⟨other, tree.current⟩ p = tree.follow p := by
  simp only [follow, walkFrom, walk_agree agree]

end FileTree

end PluginAudit
