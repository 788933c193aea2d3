import PluginAudit.Proofs.TextLines

/-!
Texts with white space behind them. It makes no difference to what a text is once it is trimmed,
to its words, or to what stands at its head.
-/

namespace PluginAudit.Text

variable {cs ds gap : List Char}

/-- The second text is the first one with white space behind it. -/
def Padded (cs ds : List Char) : Prop := ∃ gap, (∀ c ∈ gap, isBlank c = true) ∧ ds = cs ++ gap

theorem padded_trimEnd (cs : List Char) : Padded (trimEnd cs) cs := by
  obtain ⟨gap, split, blanks⟩ := dropEndWhile_split isBlank cs
  exact ⟨gap, blanks, split⟩

theorem padded_dropReturn (cs : List Char) : Padded (dropReturn cs) cs := by
  rcases dropReturn_cases cs with same | ended
  · exact ⟨[], nofun, by rw [same, List.append_nil]⟩
  · exact ⟨['\r'], List.all_eq_true.mp (by decide), ended⟩

theorem Padded.trimEnd (padded : Padded cs ds) : trimEnd ds = trimEnd cs := by
  obtain ⟨gap, blanks, rfl⟩ := padded
  exact dropEndWhile_append blanks

/-- The texts begin with the same character, unless the first one is empty. -/
theorem Padded.head (padded : Padded cs ds) :
    (cs = [] ∧ ∀ c ∈ ds.head?, isBlank c = true) ∨
      ∃ c rest rest', cs = c :: rest ∧ ds = c :: rest' ∧ Padded rest rest' := by
  obtain ⟨gap, blanks, rfl⟩ := padded
  cases cs with
  | nil => exact .inl ⟨rfl, fun c first => blanks c (List.mem_of_head? first)⟩
  | cons c rest => exact .inr ⟨c, rest, rest ++ gap, rfl, rfl, gap, blanks, rfl⟩

/-- Whatever is dropped at the heads of the texts, white space is left behind the second one. -/
theorem Padded.dropWhile (padded : Padded cs ds) (p : Char → Bool) :
    Padded (cs.dropWhile p) (ds.dropWhile p) := by
  obtain ⟨gap, blanks, rfl⟩ := padded
  rw [List.dropWhile_append]
  split
  · rename_i nothing
    rw [List.isEmpty_iff.mp nothing]
    exact ⟨gap.dropWhile p, fun c member => blanks c ((List.dropWhile_suffix p).subset member), rfl⟩
  · exact ⟨gap, blanks, rfl⟩

/-- What is taken is the same, unless it is all of the first text. -/
theorem Padded.takeWhile (padded : Padded cs ds) {p : Char → Bool}
    (ends : cs.dropWhile p ≠ []) : ds.takeWhile p = cs.takeWhile p := by
  obtain ⟨gap, -, rfl⟩ := padded
  induction cs with
  | nil => exact absurd rfl ends
  | cons c rest ih =>
    rw [List.cons_append]
    cases taken : p c with
    | false =>
      rw [List.takeWhile_cons_of_neg (by simp [taken]),
        List.takeWhile_cons_of_neg (by simp [taken])]
    | true =>
      rw [List.dropWhile_cons_of_pos taken] at ends
      rw [List.takeWhile_cons_of_pos taken, List.takeWhile_cons_of_pos taken, ih ends]

theorem Padded.trim (padded : Padded cs ds) : trim ds = trim cs :=
  (padded.dropWhile isBlank).trimEnd

theorem Padded.allBlank (padded : Padded cs ds) : allBlank ds = allBlank cs := by
  obtain ⟨gap, blanks, rfl⟩ := padded
  rw [Text.allBlank, List.all_append, List.all_eq_true.mpr blanks, Bool.and_true]
  rfl

theorem fieldsFrom_blank (blanks : ∀ c ∈ gap, isBlank c = true) (current : List Char) :
    fieldsFrom isBlank current gap = fieldsFrom isBlank current [] := by
  induction gap generalizing current with
  | nil => rfl
  | cons c rest ih =>
    obtain ⟨first, later⟩ := List.forall_mem_cons.mp blanks
    simp only [fieldsFrom, first, if_true, ih later]
    cases current <;> rfl

theorem Padded.words (padded : Padded cs ds) : words ds = words cs := by
  obtain ⟨gap, blanks, rfl⟩ := padded
  have fields (current : List Char) :
      fieldsFrom isBlank current (cs ++ gap) = fieldsFrom isBlank current cs := by
    induction cs generalizing current with
    | nil => exact fieldsFrom_blank blanks current
    | cons c rest ih => simp only [List.cons_append, fieldsFrom, ih]
  exact fields []

end PluginAudit.Text
