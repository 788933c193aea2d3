import PluginAudit.Command.Execution
import PluginAudit.Proofs.Maps

/-!
An option with a value that stands before all other arguments. What follows is read as it would be
without it, and the option may be given again.
-/

namespace PluginAudit.Command

namespace Given

variable {name key value : String} {g : Given}

/-- What has been read, with an option before it. -/
def leading (name value : String) (g : Given) : Given :=
  { g with values := (name, value) :: g.values }

@[simp] theorem operands_leading : (g.leading name value).operands = g.operands := rfl

@[simp] theorem pending_leading : (g.leading name value).pending = g.pending := rfl

@[simp] theorem closed_leading : (g.leading name value).closed = g.closed := rfl

@[simp] theorem helped_leading : (g.leading name value).helped = g.helped := rfl

theorem add_leading (key text : String) :
    (g.leading name value).add key text = (g.add key text).leading name value := rfl

theorem addOption_leading (text : List Char) :
    (g.leading name value).addOption text = (g.addOption text).map (leading name value) := by
  unfold addOption
  split
  · split <;> rfl
  · split <;> rfl

theorem read_leading (a : String) :
    (g.leading name value).read a = (g.read a).map (leading name value) := by
  simp only [read, helped_leading, closed_leading, pending_leading, addOption_leading]
  split
  · rfl
  split
  · rfl
  cases g.pending with
  | some key => by_cases option : isOption a <;> simp [option, add_leading]
  | none =>
    simp only
    split
    · rfl
    split
    · rfl
    cases Text.after? ['-', '-'] a.toList with
    | some text => rfl
    | none =>
      by_cases option : isOption a
      · simp [option]
      · simp only [option, Bool.false_eq_true, if_false]
        rfl

theorem foldlM_leading (args : List String) (g : Given) :
    args.foldlM read (g.leading name value) = (args.foldlM read g).map (leading name value) := by
  induction args generalizing g with
  | nil => rfl
  | cons a args ih =>
    rw [List.foldlM_cons, List.foldlM_cons, read_leading]
    cases g.read a with
    | none => rfl
    | some next => exact ih next

theorem all_leading : (g.leading name value).all key =
    if name = key then value :: g.all key else g.all key := by
  by_cases same : name = key <;> simp [all, leading, same]

theorem all_leading_other (other : name ≠ key) : (g.leading name value).all key = g.all key := by
  rw [all_leading, if_neg other]

/-- An option that may be repeated makes nothing irregular. -/
theorem isRegular_leading (many : options.lookup name = some .many) :
    (g.leading name value).isRegular = g.isRegular := by
  have distinct : (options.map Prod.fst).Nodup := by decide
  rw [Bool.eq_iff_iff, isRegular, isRegular, List.all_eq_true, List.all_eq_true]
  refine forall₂_congr fun (key, kind) member => ?_
  by_cases same : name = key
  · have listed := Entries.lookup_of_mem distinct member
    rw [← same, many] at listed
    cases listed
    simp
  · simp only [all_leading_other same]

variable {environment : List (String × String)}

theorem listed_leading_other (other : name ≠ key) :
    (g.leading name value).listed key = g.listed key := by
  rw [listed, listed, all_leading_other other]

theorem has_leading_other (other : name ≠ key) : (g.leading name value).has key = g.has key := by
  rw [has, has, all_leading_other other]

theorem value?_leading_other (other : name ≠ key) :
    (g.leading name value).value? environment key = g.value? environment key := by
  rw [value?, value?, all_leading_other other]

/-- The members of a list with commas between them. -/
def members (value : String) : List String := (Text.splitAt ',' value.toList).map .ofList

theorem listed_leading :
    (g.leading name value).listed name = members value ++ g.listed name := by
  rw [listed, all_leading, if_pos rfl, List.flatMap_cons]
  rfl

end Given

section Excluding

variable {g : Given} {value : String} {environment : List (String × String)}

/-- A request that rules out other checks. -/
def rulingOut (excluded : List String) (request : CheckRequest) : CheckRequest :=
  { request with selection := { request.selection with excluded } }

/-- A request that rules out more checks. -/
def excluding (slugs : List String) (request : CheckRequest) : CheckRequest :=
  rulingOut (slugs ++ request.selection.excluded) request

theorem excludes_many : options.lookup "exclude-checks" = some .many := rfl

theorem fits_leading : (g.leading "exclude-checks" value).fits = g.fits := by
  simp (disch := decide) only [Given.fits, Given.isRegular_leading excludes_many,
    Given.pending_leading, Given.operands_leading, Given.listed_leading_other,
    Given.all_leading_other]
  rfl

theorem bind_mapped {α β : Type} {change : β → β} {x : Option α} {f f' : α → Option β}
    (each : ∀ a, f' a = (f a).map change) : (x >>= f') = (x >>= f).map change := by
  cases x with
  | none => rfl
  | some a => exact each a

theorem checkRequest?_leading : checkRequest? environment (g.leading "exclude-checks" value) =
    (checkRequest? environment g).map (excluding (Given.members value)) := by
  simp (disch := decide) only [checkRequest?, Given.isRegular_leading excludes_many,
    Given.pending_leading, Given.operands_leading, Given.listed_leading,
    Given.listed_leading_other, Given.all_leading_other, Given.has_leading_other,
    Given.value?_leading_other]
  split
  · refine bind_mapped fun path => bind_mapped fun categories => bind_mapped fun format =>
      bind_mapped fun timeoutSecs => bind_mapped fun maxParallel => bind_mapped fun file => ?_
    split <;> rfl
  · rfl

/-- A command that rules out more checks, if it is about checks. -/
def withExcluded (slugs : List String) : Command → Command
  | .check request => .check (excluding slugs request)
  | command => command

theorem ofGiven?_leading : ofGiven? environment (g.leading "exclude-checks" value) =
    (ofGiven? environment g).map (withExcluded (Given.members value)) := by
  rw [ofGiven?, ofGiven?, Given.helped_leading, fits_leading, checkRequest?_leading]
  split
  · split <;> rfl
  · rw [Option.map_map, Option.map_map]
    rfl

/-- Checks that are ruled out before all else are ruled out beside those that follow. -/
theorem ofArguments?_leading {option : String} (args : List String)
    (reads : Given.read .empty option = some (Given.empty.leading "exclude-checks" value)) :
    ofArguments? environment ("check" :: option :: args) =
      (ofArguments? environment ("check" :: args)).map (withExcluded (Given.members value)) := by
  simp only [ofArguments?, List.foldlM_cons, reads, Option.bind_eq_bind, Option.bind_some,
    Given.foldlM_leading]
  cases args.foldlM Given.read .empty with
  | none => rfl
  | some g => exact ofGiven?_leading

end Excluding

end PluginAudit.Command
