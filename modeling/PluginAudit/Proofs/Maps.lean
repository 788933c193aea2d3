import Mathlib.Data.List.Sort
import PluginAudit.Entries

/-!
Looking up, adding and erasing in maps that are lists of entries.
-/

namespace PluginAudit.Entries

variable {α : Type} {key k : String} {value : α} {entries : List (String × α)}

theorem mem_keys_put :
    k ∈ (put key value entries).map Prod.fst ↔ k = key ∨ k ∈ entries.map Prod.fst := by
  induction entries with
  | nil => simp [put, update]
  | cons entry rest ih =>
    obtain ⟨j, v⟩ := entry
    simp only [put, update] at ih ⊢
    split
    · simp
    · split
      · rename_i same
        subst same
        simp
      · simp only [List.map_cons, List.mem_cons, ih]
        exact or_left_comm

theorem erase_put (new : key ∉ entries.map Prod.fst) :
    erase key (put key value entries) = entries := by
  induction entries with
  | nil => simp [put, update, erase]
  | cons entry rest ih =>
    obtain ⟨j, v⟩ := entry
    simp only [List.map_cons, List.mem_cons, not_or] at new
    have others : erase key rest = rest := by
      refine List.filter_eq_self.mpr fun e member => ?_
      have other : e.1 ≠ key := fun same => new.2 (same ▸ List.mem_map_of_mem member)
      simpa using other
    have kept := ih new.2
    have first : (j != key) = true := by simpa using Ne.symm new.1
    simp only [put, update, if_neg new.1] at kept ⊢
    split
    · simp only [erase, List.filter_cons, bne_self_eq_false, Bool.false_eq_true, if_false, first,
        if_true] at others ⊢
      rw [others]
    · simp only [erase, List.filter_cons, first, if_true] at kept ⊢
      rw [kept]

theorem mem_put {e : String × α} (member : e ∈ put key value entries) :
    e = (key, value) ∨ e ∈ entries := by
  induction entries with
  | nil => exact .inl (List.mem_singleton.mp member)
  | cons entry rest ih =>
    obtain ⟨j, v⟩ := entry
    simp only [put, update] at ih member
    split at member
    · exact List.mem_cons.mp member
    · split at member
      · rename_i same
        subst same
        rcases List.mem_cons.mp member with here | later
        · exact .inl here
        · exact .inr (List.mem_cons_of_mem _ later)
      · rcases List.mem_cons.mp member with here | later
        · exact .inr (here ▸ List.mem_cons_self)
        · exact (ih later).imp id (List.mem_cons_of_mem _)

theorem mem_ofList {e : String × α} (member : e ∈ ofList entries) : e ∈ entries := by
  have all : ∀ f ∈ ofList entries, f ∈ entries := by
    refine List.foldlRecOn entries _ (motive := fun m => ∀ f ∈ m, f ∈ entries) (by simp) ?_
    intro m known f listed g member
    rcases mem_put member with rfl | there
    · exact listed
    · exact known g there
  exact all e member

theorem put_perm (new : key ∉ entries.map Prod.fst) :
    (put key value entries).Perm ((key, value) :: entries) := by
  induction entries with
  | nil => exact .refl _
  | cons entry rest ih =>
    obtain ⟨k, v⟩ := entry
    obtain ⟨other, later⟩ := List.ne_and_not_mem_of_not_mem_cons new
    have inRest : (put key value rest).Perm ((key, value) :: rest) := ih later
    simp only [put, update, if_neg other] at inRest ⊢
    split
    · exact .refl _
    · exact (inRest.cons (k, v)).trans (.swap (key, value) (k, v) rest)

theorem foldl_put_perm {added : List (String × α)}
    (distinct : (added.map Prod.fst ++ entries.map Prod.fst).Nodup) :
    (added.foldl (fun m e => put e.1 e.2 m) entries).Perm (added ++ entries) := by
  induction added generalizing entries with
  | nil => exact .refl _
  | cons e rest ih =>
    obtain ⟨new, others⟩ := List.nodup_cons.mp distinct
    have absent : e.1 ∉ entries.map Prod.fst := fun there => new (List.mem_append_right _ there)
    have put : (Entries.put e.1 e.2 entries).Perm (e :: entries) := put_perm absent
    have keys : (rest.map Prod.fst ++ (Entries.put e.1 e.2 entries).map Prod.fst).Perm
        (e.1 :: (rest.map Prod.fst ++ entries.map Prod.fst)) :=
      ((put.map Prod.fst).append_left _).trans List.perm_middle
    have later := ih (keys.nodup_iff.mpr distinct)
    exact (later.trans (put.append_left rest)).trans List.perm_middle

/-- Where no key is repeated, the map has the given entries and no others. -/
theorem ofList_perm (distinct : (entries.map Prod.fst).Nodup) :
    (ofList entries).Perm entries := by
  have only : (entries.map Prod.fst ++ ([] : List (String × α)).map Prod.fst).Nodup := by
    simpa using distinct
  have all := foldl_put_perm only
  rwa [List.append_nil] at all

/-- The keys of a map do not depend on the values. -/
theorem map_put {β : Type} (f : α → β) :
    (put key value entries).map (Prod.map id f) = put key (f value) (entries.map (Prod.map id f)) := by
  induction entries with
  | nil => rfl
  | cons entry rest ih =>
    obtain ⟨j, v⟩ := entry
    simp only [put, update, List.map_cons, Prod.map_apply, id] at ih ⊢
    split
    · rfl
    · split
      · rfl
      · rw [List.map_cons, ih]
        rfl

theorem map_ofList {β : Type} (f : α → β) (entries : List (String × α)) :
    (ofList entries).map (Prod.map id f) = ofList (entries.map (Prod.map id f)) := by
  have steps : ∀ m : List (String × α),
      (entries.foldl (fun m e => put e.1 e.2 m) m).map (Prod.map id f) =
        (entries.map (Prod.map id f)).foldl (fun m e => put e.1 e.2 m) (m.map (Prod.map id f)) := by
    induction entries with
    | nil => exact fun m => rfl
    | cons e rest ih =>
      intro m
      simp only [List.foldl_cons, List.map_cons, ih, map_put, Prod.map_fst, Prod.map_snd, id]
  exact steps []

theorem keys_ofList (entries : List (String × α)) :
    (ofList entries).map Prod.fst = (ofList (entries.map fun e => (e.1, ()))).map Prod.fst := by
  have blank : ofList (entries.map fun e => (e.1, ())) =
      (ofList entries).map (Prod.map id fun _ => ()) := (map_ofList (fun _ => ()) entries).symm
  rw [blank, List.map_map]
  rfl

theorem lookup_cons {κ : Type} [DecidableEq κ] (k j : κ) (v : α) (rest : List (κ × α)) :
    ((j, v) :: rest).lookup k = if k = j then some v else rest.lookup k := by
  by_cases same : k = j
  · simp [same]
  · simp [List.lookup_cons, same, beq_eq_false_iff_ne.mpr same]

theorem mem_of_lookup (found : entries.lookup key = some value) : (key, value) ∈ entries := by
  obtain ⟨before, after, rfl, -⟩ := List.lookup_eq_some_iff.mp found
  simp

theorem lookup_of_mem (distinct : (entries.map Prod.fst).Nodup) (member : (key, value) ∈ entries) :
    entries.lookup key = some value := by
  obtain ⟨before, after, rfl⟩ := List.append_of_mem member
  refine List.lookup_eq_some_iff.mpr ⟨before, after, rfl, fun e earlier => ?_⟩
  rw [List.map_append, List.nodup_append] at distinct
  have other := distinct.2.2 e.1 (List.mem_map_of_mem earlier) key (by simp)
  simpa using other.symm

/-- Where no key is repeated, the order of the entries does not matter. -/
theorem lookup_perm {others : List (String × α)} (distinct : (entries.map Prod.fst).Nodup)
    (perm : entries.Perm others) (k : String) : entries.lookup k = others.lookup k := by
  have distinct' : (others.map Prod.fst).Nodup := (perm.map _).nodup_iff.mp distinct
  refine Option.ext fun v => ⟨fun here => ?_, fun there => ?_⟩
  · exact lookup_of_mem distinct' (perm.mem_iff.mp (mem_of_lookup here))
  · exact lookup_of_mem distinct (perm.mem_iff.mpr (mem_of_lookup there))

theorem lookup_ofList (distinct : (entries.map Prod.fst).Nodup) (k : String) :
    (ofList entries).lookup k = entries.lookup k :=
  (lookup_perm distinct (ofList_perm distinct).symm k).symm

theorem lookup_put :
    (put key value entries).lookup k = if k = key then some value else entries.lookup k := by
  induction entries with
  | nil => exact lookup_cons k key value []
  | cons entry rest ih =>
    obtain ⟨j, v⟩ := entry
    simp only [put, update] at ih ⊢
    split
    · simp only [lookup_cons]
    · split
      · rename_i here
        subst here
        by_cases same : k = key <;> simp only [lookup_cons, same, if_true, if_false]
      · rename_i other
        simp only [lookup_cons, ih]
        by_cases first : k = j
        · have apart : k ≠ key := fun same => other (same.symm.trans first)
          rw [if_pos first, if_pos first, if_neg apart]
        · rw [if_neg first, if_neg first]

theorem lookup_map {β : Type} (f : α → β) (k : String) (entries : List (String × α)) :
    (entries.map fun e => (e.1, f e.2)).lookup k = (entries.lookup k).map f := by
  induction entries with
  | nil => rfl
  | cons entry rest ih =>
    obtain ⟨j, v⟩ := entry
    rw [List.map_cons, lookup_cons, lookup_cons, ih]
    split <;> rfl

theorem lookup_map_key {β : Type} (name : β → String) (f : β → α) (k : String) (bs : List β) :
    (bs.map fun b => (name b, f b)).lookup k = (bs.find? (name · == k)).map f := by
  induction bs with
  | nil => rfl
  | cons b rest ih =>
    rw [List.map_cons, lookup_cons, List.find?_cons, ih]
    by_cases same : k = name b
    · simp [same]
    · rw [if_neg same, beq_eq_false_iff_ne.mpr (Ne.symm same)]

theorem lookup_filter (seen : String → Bool) (k : String) (entries : List (String × α)) :
    (entries.filter (seen ·.1)).lookup k = if seen k then entries.lookup k else none := by
  induction entries with
  | nil => simp
  | cons entry rest ih =>
    obtain ⟨j, v⟩ := entry
    simp only [List.filter_cons, lookup_cons]
    by_cases same : k = j
    · subst same
      by_cases there : seen k <;> simp [there, ih]
    · by_cases there : seen j <;> simp [there, lookup_cons, same, ih]

theorem lookup_erase :
    (erase key entries).lookup k = if k = key then none else entries.lookup k := by
  have others := lookup_filter (· != key) k entries
  by_cases same : k = key <;> simpa [erase, same] using others

theorem mem_keys_iff : k ∈ entries.map Prod.fst ↔ (entries.lookup k).isSome = true := by
  rw [List.lookup_isSome_iff, List.mem_map]
  exact exists_congr fun e => and_congr_right fun _ => by rw [beq_iff_eq, eq_comm]

theorem lookup_foldl_put (k : String) (added entries : List (String × α)) :
    (added.foldl (fun m e => put e.1 e.2 m) entries).lookup k =
      (added.reverse.lookup k).or (entries.lookup k) := by
  induction added generalizing entries with
  | nil => rfl
  | cons entry rest ih =>
    rw [List.foldl_cons, ih, lookup_put, List.reverse_cons, List.lookup_append, lookup_cons]
    cases rest.reverse.lookup k with
    | some v => rfl
    | none => by_cases same : k = entry.1 <;> simp [same]

/-- Of the values of a key the last is found. -/
theorem lookup_ofList_last (k : String) (entries : List (String × α)) :
    (ofList entries).lookup k = entries.reverse.lookup k := by
  rw [ofList, lookup_foldl_put]
  exact Option.or_none

theorem mem_keys_ofList : k ∈ (ofList entries).map Prod.fst ↔ k ∈ entries.map Prod.fst := by
  rw [mem_keys_iff, lookup_ofList_last, ← mem_keys_iff, List.map_reverse, List.mem_reverse]

variable {seen : String → Bool}

/-- What happens to a key cannot be told from the other entries. -/
theorem filter_put (hidden : seen key = false) :
    (put key value entries).filter (seen ·.1) = entries.filter (seen ·.1) := by
  induction entries with
  | nil => simp [put, update, hidden]
  | cons entry rest ih =>
    obtain ⟨j, v⟩ := entry
    simp only [put, update] at ih ⊢
    split
    · simp [hidden]
    · split
      · rename_i here
        subst here
        simp [hidden]
      · simp only [List.filter_cons, ih]

theorem filter_erase (hidden : seen key = false) :
    (erase key entries).filter (seen ·.1) = entries.filter (seen ·.1) := by
  rw [erase, List.filter_filter]
  refine List.filter_congr fun entry _ => ?_
  by_cases same : entry.1 = key
  · simp [same, hidden]
  · simp [same]

/-- The keys ascend, so that none of them is repeated. -/
def Ascending (entries : List (String × α)) : Prop := entries.Pairwise fun e f => e.1 < f.1

theorem lookup_below (below : ∀ e ∈ entries, k < e.1) : entries.lookup k = none := by
  induction entries with
  | nil => rfl
  | cons entry rest ih =>
    have other : k ≠ entry.1 := fun same =>
      String.lt_irrefl k (same ▸ below entry List.mem_cons_self)
    rw [lookup_cons, if_neg other, ih fun e member => below e (List.mem_cons_of_mem _ member)]

variable {change : Option α → α}

theorem mem_update {κ : Type} [DecidableEq κ] {less : κ → κ → Bool} {key : κ}
    {entries : List (κ × α)} {e : κ × α} (member : e ∈ update less key change entries) :
    e.1 = key ∨ e ∈ entries := by
  induction entries with
  | nil => exact .inl (List.mem_singleton.mp member ▸ rfl)
  | cons entry rest ih =>
    obtain ⟨j, v⟩ := entry
    simp only [update] at member
    split at member
    · rcases List.mem_cons.mp member with rfl | later
      · exact .inl rfl
      · exact .inr later
    · split at member
      · rename_i same
        rcases List.mem_cons.mp member with rfl | later
        · exact .inl same.symm
        · exact .inr (List.mem_cons_of_mem _ later)
      · rcases List.mem_cons.mp member with rfl | later
        · exact .inr List.mem_cons_self
        · exact (ih later).imp id (List.mem_cons_of_mem _)

theorem above_of_not_textLess {j : String} (notLess : ¬ textLess key j = true) (other : key ≠ j) :
    j < key := by
  have le : j ≤ key := String.not_lt.mp (by simpa [textLess] using notLess)
  by_cases above : j < key
  · exact above
  · exact absurd (String.le_antisymm (String.not_lt.mp above) le) other

theorem Ascending.lookup_first {j : String} {v : α} (ascending : Ascending ((j, v) :: entries))
    (less : textLess key j = true) : ((j, v) :: entries).lookup key = none := by
  have before : key < j := by simpa [textLess] using less
  refine lookup_below fun e member => ?_
  rcases List.mem_cons.mp member with rfl | later
  · exact before
  · exact String.lt_trans before ((List.pairwise_cons.mp ascending).1 e later)

theorem Ascending.update (ascending : Ascending entries) :
    Ascending (update textLess key change entries) := by
  induction entries with
  | nil => exact List.pairwise_singleton _ _
  | cons entry rest ih =>
    obtain ⟨j, v⟩ := entry
    obtain ⟨first, later⟩ := List.pairwise_cons.mp ascending
    simp only [Entries.update]
    split
    · rename_i less
      have before : key < j := by simpa [textLess] using less
      refine List.pairwise_cons.mpr ⟨fun e member => ?_, ascending⟩
      rcases List.mem_cons.mp member with rfl | there
      · exact before
      · exact String.lt_trans before (first e there)
    · rename_i notLess
      split
      · exact List.pairwise_cons.mpr ⟨first, later⟩
      · rename_i other
        refine List.pairwise_cons.mpr ⟨fun e member => ?_, ih later⟩
        rcases mem_update member with same | there
        · exact same ▸ above_of_not_textLess notLess other
        · exact first e there

theorem ascending_ofList (entries : List (String × α)) : Ascending (ofList entries) :=
  List.foldlRecOn entries _ .nil fun _ ascending _ _ => ascending.update

theorem Ascending.lookup_update (ascending : Ascending entries) :
    (Entries.update textLess key change entries).lookup k =
      if k = key then some (change (entries.lookup key)) else entries.lookup k := by
  induction entries with
  | nil => exact lookup_cons k key _ []
  | cons entry rest ih =>
    obtain ⟨j, v⟩ := entry
    have later : Ascending rest := (List.pairwise_cons.mp ascending).2
    simp only [Entries.update]
    split
    · rename_i less
      rw [lookup_cons, ascending.lookup_first less]
    · split
      · rename_i same
        subst same
        simp only [lookup_cons, if_true]
        split <;> rfl
      · rename_i other
        simp only [lookup_cons, ih later, if_neg other]
        by_cases same : k = key
        · rw [if_pos same, if_pos same, if_neg (same ▸ other)]
        · rw [if_neg same, if_neg same]

theorem put_above (above : ∀ e ∈ entries, e.1 < key) :
    put key value entries = entries ++ [(key, value)] := by
  induction entries with
  | nil => rfl
  | cons entry rest ih =>
    obtain ⟨j, v⟩ := entry
    have first : j < key := above (j, v) List.mem_cons_self
    have less : textLess key j = false := decide_eq_false (String.lt_asymm first)
    have other : key ≠ j := fun same => String.lt_irrefl j (same ▸ first)
    have later := ih fun e member => above e (List.mem_cons_of_mem _ member)
    simp only [put, Entries.update, less, other] at later ⊢
    rw [later]
    rfl

/-- Entries that ascend are a map as they are. -/
theorem Ascending.ofList_eq_self (ascending : Ascending entries) : ofList entries = entries := by
  have steps : ∀ done : List (String × α), Ascending (done ++ entries) →
      entries.foldl (fun m e => put e.1 e.2 m) done = done ++ entries := by
    clear ascending
    induction entries with
    | nil => exact fun done _ => (List.append_nil done).symm
    | cons e rest ih =>
      intro done ascending
      have above : ∀ f ∈ done, f.1 < e.1 := fun f member =>
        (List.pairwise_append.mp ascending).2.2 f member e List.mem_cons_self
      rw [List.append_cons] at ascending ⊢
      rw [List.foldl_cons, put_above above]
      exact ih _ ascending
  exact steps [] ascending

theorem Ascending.nodup (ascending : Ascending entries) : (entries.map Prod.fst).Nodup :=
  List.pairwise_map.mpr (ascending.imp String.ne_of_lt)

theorem Ascending.mem_iff (ascending : Ascending entries) {e : String × α} :
    e ∈ entries ↔ entries.lookup e.1 = some e.2 :=
  ⟨lookup_of_mem ascending.nodup, mem_of_lookup⟩

/-- A map is known from what is found in it. -/
theorem Ascending.ext {others : List (String × α)} (ascending : Ascending entries)
    (ascending' : Ascending others) (same : ∀ k, entries.lookup k = others.lookup k) :
    entries = others := by
  have irreflexive : Std.Irrefl fun e f : String × α => e.1 < f.1 := ⟨fun e => String.lt_irrefl e.1⟩
  have asymmetric : Std.Asymm fun e f : String × α => e.1 < f.1 := ⟨fun e f => String.lt_asymm⟩
  refine List.Pairwise.eq_of_mem_iff ascending ascending' fun e => ?_
  rw [ascending.mem_iff, ascending'.mem_iff, same]

/-- Where a key has a value, no new one is put in its place. -/
theorem Ascending.putNew_eq_self (ascending : Ascending entries) {old : α}
    (there : entries.lookup key = some old) : putNew key value entries = entries := by
  induction entries with
  | nil => cases there
  | cons entry rest ih =>
    obtain ⟨j, v⟩ := entry
    have later : Ascending rest := (List.pairwise_cons.mp ascending).2
    simp only [putNew, Entries.update] at ih ⊢
    split
    · rename_i less
      cases (ascending.lookup_first less).symm.trans there
    · split
      · rfl
      · rename_i other
        rw [lookup_cons, if_neg other] at there
        rw [ih later there]

end PluginAudit.Entries
