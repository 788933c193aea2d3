import PluginAudit.Check.Bundled
import PluginAudit.Proofs.Maps

/-!
The registry under any sequence of registrations, and what is selected from it. For a slug the
first registration counts, and the checks that are selected are told by their slugs and categories
alone, whatever the order of the registrations and of the lists of the selection.
-/

namespace PluginAudit

namespace Selection

variable {s t : Selection} {c : Check} {slug : String}

/-- The slug is asked for or ruled out. -/
def Names (s : Selection) (slug : String) : Prop := slug ∈ s.included ∨ slug ∈ s.excluded

/-- A list that is empty rules nothing out. -/
def Admits (s : Selection) (c : Check) : Prop :=
  (s.included = [] ∨ c.slug ∈ s.included) ∧ c.slug ∉ s.excluded ∧
    (s.categories = [] ∨ ∃ category ∈ c.categories, category ∈ s.categories)

/-- The lists have the same members. -/
structure Alike (s t : Selection) : Prop where
  included : ∀ slug, slug ∈ s.included ↔ slug ∈ t.included
  excluded : ∀ slug, slug ∈ s.excluded ↔ slug ∈ t.excluded
  categories : ∀ category, category ∈ s.categories ↔ category ∈ t.categories

namespace Alike

theorem names (alike : s.Alike t) : s.Names slug ↔ t.Names slug :=
  or_congr (alike.included slug) (alike.excluded slug)

theorem empty_iff {α : Type} {l m : List α} (same : ∀ x, x ∈ l ↔ x ∈ m) : l = [] ↔ m = [] := by
  simp only [List.eq_nil_iff_forall_not_mem, same]

theorem admits (alike : s.Alike t) : s.Admits c ↔ t.Admits c := by
  have categories : (∃ category ∈ c.categories, category ∈ s.categories) ↔
      ∃ category ∈ c.categories, category ∈ t.categories :=
    exists_congr fun category => and_congr_right fun _ => alike.categories category
  exact and_congr (or_congr (empty_iff alike.included) (alike.included c.slug)) <|
    and_congr (not_congr (alike.excluded c.slug)) <|
      or_congr (empty_iff alike.categories) categories

end Alike

end Selection

namespace Registry

open Entries

variable {r r' : Registry} {s t : Selection} {c : Check} {calls others : List Check}
  {slug : String} {selected : List Check}

/-- The registry after a registration. One that is refused changes nothing. -/
def afterCall (r : Registry) (c : Check) : Registry :=
  match r.register c with
  | .ok r' => r'
  | .error _ => r

/-- The registry after a sequence of registrations. -/
def registered (calls : List Check) : Registry := calls.foldl afterCall .empty

/-- The slugs ascend, and each of them is that of its check. -/
structure Keyed (r : Registry) : Prop where
  ascending : Ascending r.checks
  own : ∀ e ∈ r.checks, e.2.slug = e.1

theorem register_taken (taken : r.has c.slug = true) :
    r.register c = .error (.duplicateCheck c.slug) := by
  rw [register, if_pos taken]

theorem register_new (new : r.has c.slug = false) : r.register c = .ok (r.afterCall c) := by
  simp [afterCall, register, new]

theorem afterCall_taken (taken : r.has c.slug = true) : r.afterCall c = r := by
  rw [afterCall, register_taken taken]

theorem afterCall_new (new : r.has c.slug = false) :
    r.afterCall c = ⟨put c.slug c r.checks⟩ := by
  simp [afterCall, register, new]

theorem get?_afterCall (r : Registry) (c : Check) (slug : String) :
    (r.afterCall c).get? slug = (r.get? slug).or (if c.slug = slug then some c else none) := by
  cases taken : r.has c.slug with
  | true =>
    rw [afterCall_taken taken]
    split
    · rename_i same
      obtain ⟨old, there⟩ := Option.isSome_iff_exists.mp taken
      rw [← same, there, Option.some_or]
    · rw [Option.or_none]
  | false =>
    have free : r.get? c.slug = none := Option.isNone_iff_eq_none.mp (by simpa [has] using taken)
    rw [afterCall_new taken, get?, lookup_put]
    by_cases same : slug = c.slug
    · rw [if_pos same, same, free, if_pos rfl, Option.none_or]
    · rw [if_neg same, if_neg (Ne.symm same), Option.or_none]
      rfl

theorem Keyed.afterCall (keyed : r.Keyed) (c : Check) : (r.afterCall c).Keyed := by
  cases taken : r.has c.slug with
  | true =>
    rw [afterCall_taken taken]
    exact keyed
  | false =>
    rw [afterCall_new taken]
    refine ⟨keyed.ascending.update, fun e member => ?_⟩
    rcases mem_put member with rfl | there
    · rfl
    · exact keyed.own e there

theorem foldl_keyed (keyed : r.Keyed) (calls : List Check) : (calls.foldl afterCall r).Keyed := by
  induction calls generalizing r with
  | nil => exact keyed
  | cons c later ih => exact ih (keyed.afterCall c)

theorem get?_foldl (r : Registry) (calls : List Check) (slug : String) :
    (calls.foldl afterCall r).get? slug = (r.get? slug).or (calls.find? (·.slug == slug)) := by
  induction calls generalizing r with
  | nil => exact (Option.or_none).symm
  | cons c later ih =>
    rw [List.foldl_cons, ih, get?_afterCall, Option.or_assoc, List.find?_cons]
    by_cases same : c.slug = slug
    · simp [same]
    · rw [if_neg same, Option.none_or, beq_eq_false_iff_ne.mpr same]

theorem registered_keyed (calls : List Check) : (registered calls).Keyed :=
  foldl_keyed ⟨.nil, by simp⟩ calls

theorem get?_registered (calls : List Check) (slug : String) :
    (registered calls).get? slug = calls.find? (·.slug == slug) := by
  rw [registered, get?_foldl]
  rfl

theorem has_registered : (registered calls).has slug = true ↔ slug ∈ calls.map Check.slug := by
  rw [has, get?_registered, List.find?_isSome, List.mem_map]
  simp

theorem registered_concat (calls : List Check) (c : Check) :
    registered (calls ++ [c]) = (registered calls).afterCall c := List.foldl_concat ..

theorem Keyed.mem_all (keyed : r.Keyed) : c ∈ r.all ↔ r.get? c.slug = some c := by
  rw [all, List.mem_map, get?]
  constructor
  · rintro ⟨e, member, rfl⟩
    rw [keyed.own e member]
    exact keyed.ascending.mem_iff.mp member
  · exact fun found => ⟨(c.slug, c), mem_of_lookup found, rfl⟩

theorem Keyed.slugs_ascending (keyed : r.Keyed) : (r.all.map Check.slug).Pairwise (· < ·) := by
  have keys : r.all.map Check.slug = r.checks.map Prod.fst := by
    rw [all, List.map_map]
    exact List.map_congr_left keyed.own
  rw [keys]
  exact List.pairwise_map.mpr keyed.ascending

theorem Keyed.ext (keyed : r.Keyed) (keyed' : r'.Keyed) (same : ∀ slug, r.get? slug = r'.get? slug) :
    r = r' := by
  obtain ⟨checks⟩ := r
  obtain ⟨checks'⟩ := r'
  have equal : checks = checks' := keyed.ascending.ext keyed'.ascending same
  rw [equal]

theorem registered_eq_iff : registered calls = registered others ↔
    ∀ slug, calls.find? (·.slug == slug) = others.find? (·.slug == slug) := by
  simp only [← get?_registered]
  exact ⟨fun same slug => by rw [same], (registered_keyed calls).ext (registered_keyed others)⟩

theorem selects_iff : Selects s c = true ↔ s.Admits c := by
  simp [Selects, Selection.Admits, and_assoc]

theorem unknown_eq (r : Registry) (s : Selection) :
    r.unknown s = (ofList (((s.included ++ s.excluded).filter (!r.has ·)).map
      fun slug => (slug, ()))).map Prod.fst := by
  rw [unknown, ofList, List.foldl_map]

theorem mem_unknown : slug ∈ r.unknown s ↔ s.Names slug ∧ r.has slug = false := by
  rw [unknown_eq, mem_keys_ofList, List.map_map]
  simp [Function.comp_def, Selection.Names, or_and_right]

theorem unknown_ascending (r : Registry) (s : Selection) : (r.unknown s).Pairwise (· < ·) := by
  rw [unknown_eq]
  exact List.pairwise_map.mpr (ascending_ofList _)

/-- Slugs that are unknown come before all that the lists say. -/
theorem select_eq (r : Registry) (s : Selection) :
    r.select s = if r.unknown s = [] then .ok (r.all.filter (Selects s))
      else .error (.unknownChecks (r.unknown s)) := by
  rw [select]
  split
  · rename_i known
    rw [if_pos known]
  · rename_i unknown
    rw [if_neg unknown]

theorem select_eq_error_iff {e : ValueError} : r.select s = .error e ↔
    r.unknown s ≠ [] ∧ e = .unknownChecks (r.unknown s) := by
  rw [select_eq]
  split
  · rename_i known
    simp [known]
  · rename_i unknown
    rw [Except.error.injEq, and_iff_right unknown, eq_comm]

theorem select_eq_ok_iff : r.select s = .ok selected ↔
    r.unknown s = [] ∧ selected = r.all.filter (Selects s) := by
  rw [select_eq]
  split
  · rename_i known
    rw [Except.ok.injEq, and_iff_right known, eq_comm]
  · rename_i unknown
    simp [unknown]

theorem unknown_alike (alike : s.Alike t) (r : Registry) : r.unknown s = r.unknown t :=
  (unknown_ascending r s).eq_of_mem_iff (unknown_ascending r t) fun slug => by
    rw [mem_unknown, mem_unknown, alike.names]

theorem select_alike (alike : s.Alike t) (r : Registry) : r.select s = r.select t := by
  have admitted : r.all.filter (Selects s) = r.all.filter (Selects t) :=
    List.filter_congr fun c _ => Bool.eq_iff_iff.mpr (by rw [selects_iff, selects_iff, alike.admits])
  rw [select_eq, select_eq, unknown_alike alike, admitted]

theorem not_registered_iff : (registered calls).has slug = false ↔ slug ∉ calls.map Check.slug := by
  rw [← has_registered, Bool.not_eq_true]

theorem select_fails_iff : (∃ e, (registered calls).select s = .error e) ↔
    ∃ slug, s.Names slug ∧ slug ∉ calls.map Check.slug := by
  have unknown : (registered calls).unknown s ≠ [] ↔
      ∃ slug, s.Names slug ∧ slug ∉ calls.map Check.slug := by
    simp only [ne_eq, List.eq_nil_iff_forall_not_mem, mem_unknown, not_registered_iff, not_forall,
      not_not]
  rw [← unknown]
  exact ⟨fun ⟨e, failed⟩ => (select_eq_error_iff.mp failed).1,
    fun unknown => ⟨_, select_eq_error_iff.mpr ⟨unknown, rfl⟩⟩⟩

theorem mem_selected (chosen : (registered calls).select s = .ok selected) :
    c ∈ selected ↔ calls.find? (·.slug == c.slug) = some c ∧ s.Admits c := by
  obtain ⟨-, rfl⟩ := select_eq_ok_iff.mp chosen
  rw [List.mem_filter, (registered_keyed calls).mem_all, get?_registered, selects_iff]

theorem selected_ascending (chosen : (registered calls).select s = .ok selected) :
    (selected.map Check.slug).Pairwise (· < ·) := by
  obtain ⟨-, rfl⟩ := select_eq_ok_iff.mp chosen
  exact (registered_keyed calls).slugs_ascending.sublist (List.filter_sublist.map _)

theorem find?_eq_lookup (calls : List Check) (slug : String) :
    calls.find? (·.slug == slug) = (calls.map fun c => (c.slug, c)).lookup slug := by
  rw [lookup_map_key Check.slug fun c => c, Option.map_id']

theorem slugs_keys (calls : List Check) :
    (calls.map fun c => (c.slug, c)).map Prod.fst = calls.map Check.slug := by
  rw [List.map_map]
  rfl

theorem registered_perm (distinct : (calls.map Check.slug).Nodup) (perm : calls.Perm others) :
    registered calls = registered others := by
  rw [← slugs_keys] at distinct
  refine registered_eq_iff.mpr fun slug => ?_
  rw [find?_eq_lookup, find?_eq_lookup, lookup_perm distinct (perm.map _)]

theorem ofChecks_eq_registered (distinct : (calls.map Check.slug).Nodup) :
    ofChecks calls = registered calls := by
  rw [← slugs_keys] at distinct
  have keyed : (ofChecks calls).Keyed := by
    refine ⟨ascending_ofList _, fun e member => ?_⟩
    obtain ⟨c, -, rfl⟩ := List.mem_map.mp ((ofList_perm distinct).subset member)
    rfl
  refine keyed.ext (registered_keyed calls) fun slug => ?_
  rw [get?_registered, find?_eq_lookup, get?, ofChecks, lookup_ofList distinct]

theorem bundled_eq_registered (settings : CheckSettings) :
    bundled settings = registered (bundledChecks settings) :=
  ofChecks_eq_registered (by simp [bundledChecks])

/-- A slug is registered once, and a registration that is refused changes nothing. A selection fails
exactly if it names a slug that is not registered, and then all such slugs are told in ascending
order. Otherwise it has the first registrations that it admits, each once and in ascending order of
their slugs. Neither the order of registrations nor that of the lists matters. -/
theorem registered_select_exact (calls : List Check) :
    (∀ c : Check, c.slug ∈ calls.map Check.slug →
      (registered calls).register c = .error (.duplicateCheck c.slug) ∧
        registered (calls ++ [c]) = registered calls) ∧
    (∀ c : Check, c.slug ∉ calls.map Check.slug →
      (registered calls).register c = .ok (registered (calls ++ [c]))) ∧
    (∀ s : Selection,
      ((∃ e, (registered calls).select s = .error e) ↔
        ∃ slug, s.Names slug ∧ slug ∉ calls.map Check.slug) ∧
      (∀ e, (registered calls).select s = .error e →
        ∃ slugs, e = .unknownChecks slugs ∧ slugs.Pairwise (· < ·) ∧
          ∀ slug, slug ∈ slugs ↔ s.Names slug ∧ slug ∉ calls.map Check.slug) ∧
      (∀ selected, (registered calls).select s = .ok selected →
        (selected.map Check.slug).Pairwise (· < ·) ∧
          ∀ c, c ∈ selected ↔ calls.find? (·.slug == c.slug) = some c ∧ s.Admits c)) ∧
    (∀ others, registered calls = registered others ↔
      ∀ slug, calls.find? (·.slug == slug) = others.find? (·.slug == slug)) ∧
    (∀ others, (calls.map Check.slug).Nodup → calls.Perm others →
      registered calls = registered others) ∧
    ∀ s t : Selection, s.Alike t → (registered calls).select s = (registered calls).select t := by
  refine ⟨fun c taken => ?_, fun c new => ?_, fun s => ⟨select_fails_iff, fun e failed => ?_,
    fun selected chosen => ⟨selected_ascending chosen, fun c => mem_selected chosen⟩⟩,
    fun others => registered_eq_iff, fun others => registered_perm,
    fun s t alike => select_alike alike _⟩
  · have taken := has_registered.mpr taken
    exact ⟨register_taken taken, (registered_concat calls c).trans (afterCall_taken taken)⟩
  · rw [registered_concat]
    exact register_new (not_registered_iff.mpr new)
  · obtain ⟨-, rfl⟩ := select_eq_error_iff.mp failed
    refine ⟨_, rfl, unknown_ascending _ s, fun slug => ?_⟩
    rw [mem_unknown, not_registered_iff]

def silent : CheckBody := .static fun _ _ => .ofFindings []

/-- Registrations of which one is refused. -/
def repeated : List Check :=
  [⟨"readme", [.pluginRepo], silent⟩, ⟨"images", [.performance], silent⟩, ⟨"readme", [], silent⟩]

theorem registered_select_exact_repeated :
    (registered repeated).register ⟨"images", [], silent⟩ = .error (.duplicateCheck "images") ∧
    (∃ e, (registered repeated).select ⟨["readme", "zeta"], ["alpha"], []⟩ = .error e) ∧
    ∃ selected, (registered repeated).select ⟨[], ["images"], []⟩ = .ok selected ∧
      ⟨"readme", [.pluginRepo], silent⟩ ∈ selected ∧ ⟨"readme", [], silent⟩ ∉ selected := by
  obtain ⟨taken, -, selects, -⟩ := registered_select_exact repeated
  refine ⟨(taken ⟨"images", [], silent⟩ (by simp [repeated])).1, ?_, ?_⟩
  · exact (selects _).1.mpr ⟨"zeta", .inl (by simp), by simp [repeated]⟩
  · cases chosen : (registered repeated).select ⟨[], ["images"], []⟩ with
    | error e =>
      obtain ⟨slug, named, absent⟩ := (selects _).1.mp ⟨e, chosen⟩
      obtain rfl : slug = "images" := by simpa [Selection.Names] using named
      exact absurd (by simp [repeated]) absent
    | ok selected =>
      have members := ((selects _).2.2 selected chosen).2
      refine ⟨selected, rfl, (members _).mpr ⟨by simp [repeated], ?_⟩, fun member => ?_⟩
      · simp [Selection.Admits]
      · have first := ((members _).mp member).1
        simp [repeated] at first

end Registry

end PluginAudit
