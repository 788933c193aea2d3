import PluginAudit.HeaderBlock
import PluginAudit.Proofs.Maps
import PluginAudit.Proofs.Spelling
import PluginAudit.Proofs.TextLines

/-!
The headers of a main file, line by line. A header has the first value that a line gives it, and
a line of a comment gives the value that is written in it.
-/

namespace PluginAudit.HeaderBlock

open Text

variable {headers : HeaderBlock} {name : String} {line value : List Char}

/-- The value that a line gives to a header. -/
def given? (name : String) (line : List Char) : Option String :=
  match ofLine? line with
  | some (n, value) => if n = name ∧ value ≠ [] then some (.ofList value) else none
  | none => none

theorem addLine_ascending (ascending : Entries.Ascending headers.values) (line : List Char) :
    Entries.Ascending (headers.addLine line).values := by
  unfold addLine
  split
  · split
    · exact ascending
    · exact ascending.update
  · exact ascending

theorem get?_addLine (ascending : Entries.Ascending headers.values) (line : List Char)
    (name : String) :
    (headers.addLine line).get? name = (headers.get? name).or (given? name line) := by
  unfold addLine given?
  cases read : ofLine? line with
  | none => simp
  | some entry =>
    obtain ⟨n, value⟩ := entry
    by_cases empty : value = []
    · simp [empty]
    · have kept : value.isEmpty = false := List.isEmpty_eq_false_iff.mpr empty
      simp only [kept, Bool.false_eq_true, if_false, get?, Entries.putNew,
        ascending.lookup_update]
      by_cases same : name = n
      · subst same
        cases headers.values.lookup name <;> simp [empty]
      · simp [same, Ne.symm same]

theorem foldl_ascending (ascending : Entries.Ascending headers.values) (lines : List (List Char)) :
    Entries.Ascending (lines.foldl addLine headers).values := by
  induction lines generalizing headers with
  | nil => exact ascending
  | cons line rest ih => exact ih (addLine_ascending ascending line)

/-- The first value that a header is given counts. -/
theorem get?_foldl (ascending : Entries.Ascending headers.values) (lines : List (List Char))
    (name : String) : (lines.foldl addLine headers).get? name =
      (headers.get? name).or (lines.findSome? (given? name)) := by
  induction lines generalizing headers with
  | nil => simp
  | cons line rest ih =>
    rw [List.foldl_cons, ih (addLine_ascending ascending line), get?_addLine ascending,
      Option.or_assoc, List.findSome?_cons]
    cases given? name line <;> rfl

theorem get?_ofChars (source : List Char) (name : String) :
    (ofChars source).get? name =
      (lines (takeBytes scanLimit source)).findSome? (given? name) := by
  have read := @get?_foldl ⟨[]⟩ List.Pairwise.nil (lines (takeBytes scanLimit source)) name
  simpa [ofChars, get?] using read

end PluginAudit.HeaderBlock
