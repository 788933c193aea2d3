import Mathlib.Data.List.Basic
import PluginAudit.Proofs.Maps
import PluginAudit.Proofs.Sessions

/-!
Overrides under any sequence of calls that add and remove them. A number that has been handed out
is there until it is removed, for every key the latest override that is there counts, and leaving
out an override together with its removal changes nothing of what is read afterwards.
-/

namespace PluginAudit

/-- A call that changes the overrides of a session. -/
inductive OverrideCall where
  | add (key : String) (value : Json)
  | remove (id : Nat)

namespace OverrideCall

def isAdd : OverrideCall → Bool
  | .add _ _ => true
  | .remove _ => false

def removes (id : Nat) : OverrideCall → Bool
  | .add _ _ => false
  | .remove other => other == id

@[simp] theorem removes_add (id : Nat) (key : String) (value : Json) :
    (add key value).removes id = false := rfl

@[simp] theorem removes_remove (id other : Nat) : (remove other).removes id = (other == id) := rfl

theorem removes_iff {id : Nat} {c : OverrideCall} : c.removes id = true ↔ c = .remove id := by
  cases c <;> simp

theorem any_removes {id : Nat} {calls : List OverrideCall} :
    calls.any (·.removes id) = true ↔ .remove id ∈ calls := by
  simp [List.any_eq_true, removes_iff]

end OverrideCall

namespace Overrides

/-- What has been given, oldest first. -/
def given (o : Overrides) : List (String × Json) := o.live.map fun v => (v.key, v.value)

/-- The snapshot has for every key the value that is in force. -/
theorem lookup_snapshot (o : Overrides) (key : String) : o.snapshot.lookup key = o.get? key := by
  rw [snapshot, Entries.lookup_ofList_last, ← List.map_reverse, Entries.lookup_map_key, get?]

theorem get?_eq_given (o : Overrides) (key : String) : o.get? key = o.given.reverse.lookup key := by
  rw [given, ← List.map_reverse, Entries.lookup_map_key, get?]

theorem get?_eq_getLast? (o : Overrides) (key : String) :
    o.get? key = ((o.live.filter (·.key == key)).getLast?).map (·.value) := by
  rw [List.getLast?_filter, get?]

theorem mem_keys_snapshot (o : Overrides) (key : String) :
    key ∈ o.snapshot.map Prod.fst ↔ ∃ v ∈ o.live, v.key = key := by
  rw [Entries.mem_keys_iff, lookup_snapshot, get?, Option.isSome_map, List.find?_isSome]
  simp

theorem ascending_snapshot (o : Overrides) : Entries.Ascending o.snapshot :=
  Entries.ascending_ofList _

theorem holds_iff {o : Overrides} {id : Nat} : o.holds id = true ↔ ∃ v ∈ o.live, v.id = id := by
  simp [holds]

def apply (o : Overrides) : OverrideCall → Overrides
  | .add key value => o.add key value
  | .remove id => o.remove id

/-- What a sequence of calls leads to. -/
def after (o : Overrides) (calls : List OverrideCall) : Overrides := calls.foldl apply o

/-- The overrides that are handed out in a sequence of calls, with their numbers. -/
def handedOut (o : Overrides) : List OverrideCall → List Override
  | [] => []
  | .add key value :: later => ⟨o.nextId, key, value⟩ :: handedOut (o.add key value) later
  | .remove id :: later => handedOut (o.remove id) later

/-- Those of the overrides handed out that no later call removes. -/
def surviving (o : Overrides) : List OverrideCall → List Override
  | [] => []
  | .add key value :: later =>
    if later.any (·.removes o.nextId) then surviving (o.add key value) later
    else ⟨o.nextId, key, value⟩ :: surviving (o.add key value) later
  | .remove id :: later => surviving (o.remove id) later

@[simp] theorem after_nil (o : Overrides) : o.after [] = o := rfl

@[simp] theorem after_cons (o : Overrides) (c : OverrideCall) (calls : List OverrideCall) :
    o.after (c :: calls) = (o.apply c).after calls := rfl

theorem after_append (o : Overrides) (calls later : List OverrideCall) :
    o.after (calls ++ later) = (o.after calls).after later := List.foldl_append

theorem apply_numbered {o : Overrides} (h : o.Numbered) (c : OverrideCall) :
    (o.apply c).Numbered := by
  cases c with
  | add key value => exact add_numbered h key value
  | remove id => exact fun v member => h v (List.mem_filter.mp member).1

theorem after_numbered {o : Overrides} (h : o.Numbered) (calls : List OverrideCall) :
    (o.after calls).Numbered := by
  induction calls generalizing o with
  | nil => exact h
  | cons c later ih => exact ih (apply_numbered h c)

theorem nextId_after (o : Overrides) (calls : List OverrideCall) :
    (o.after calls).nextId = o.nextId + calls.countP OverrideCall.isAdd := by
  induction calls generalizing o with
  | nil => rfl
  | cons c later ih =>
    rw [after_cons, ih, List.countP_cons]
    cases c with
    | add key value =>
      simp only [apply, add, OverrideCall.isAdd, if_true]
      omega
    | remove id => rfl

/-- Numbers are handed out one after another. -/
theorem handedOut_ids (o : Overrides) (calls : List OverrideCall) :
    (o.handedOut calls).map Override.id =
      List.range' o.nextId (calls.countP OverrideCall.isAdd) := by
  induction calls generalizing o with
  | nil => rfl
  | cons c later ih =>
    cases c with
    | add key value =>
      rw [handedOut, List.map_cons, ih, List.countP_cons_of_pos rfl, List.range'_succ]
      rfl
    | remove id =>
      rw [handedOut, ih, List.countP_cons_of_neg (by simp [OverrideCall.isAdd])]
      rfl

/-- What is there after a sequence of calls, by looking ahead: of what was there and of what is
handed out, all that is not removed later. -/
theorem after_live (o : Overrides) (calls : List OverrideCall) :
    (o.after calls).live =
      o.live.filter (fun v => !calls.any (·.removes v.id)) ++ o.surviving calls := by
  induction calls generalizing o with
  | nil =>
    rw [surviving, List.append_nil]
    exact (List.filter_eq_self.mpr fun _ _ => rfl).symm
  | cons c later ih =>
    rw [after_cons, ih]
    cases c with
    | add key value =>
      simp only [apply, add, surviving, List.any_cons, OverrideCall.removes_add, Bool.false_or,
        List.filter_append, List.append_assoc]
      congr 1
      by_cases removed : later.any (·.removes o.nextId) = true
      · rw [if_pos removed, List.filter_cons_of_neg (by simp [removed])]
        rfl
      · rw [if_neg removed, List.filter_cons_of_pos (by simpa using removed)]
        rfl
    | remove id =>
      have both : (fun v : Override => !later.any (·.removes v.id) && v.id != id) =
          fun v => !(id == v.id || later.any (·.removes v.id)) := by
        funext v
        rw [Bool.not_or, Bool.and_comm, bne, Bool.beq_comm]
      simp only [apply, remove, surviving, List.any_cons, OverrideCall.removes_remove,
        List.filter_filter, both]

theorem live_after (calls : List OverrideCall) :
    (empty.after calls).live = empty.surviving calls := by
  rw [after_live]
  rfl

/-- What survives has been handed out, and has not been removed since. -/
theorem mem_surviving {o : Overrides} {calls : List OverrideCall} {v : Override} :
    v ∈ o.surviving calls ↔ ∃ before later, calls = before ++ .add v.key v.value :: later ∧
      (o.after before).nextId = v.id ∧ .remove v.id ∉ later := by
  induction calls generalizing o with
  | nil => simp [surviving]
  | cons c rest ih =>
    -- The override is handed out by the first call or by a later one.
    have cases : (∃ before later, c :: rest = before ++ .add v.key v.value :: later ∧
        (o.after before).nextId = v.id ∧ .remove v.id ∉ later) ↔
        (c = .add v.key v.value ∧ o.nextId = v.id ∧ .remove v.id ∉ rest) ∨
          v ∈ (o.apply c).surviving rest := by
      rw [ih]
      constructor
      · rintro ⟨before, later, split, id, absent⟩
        cases before with
        | nil =>
          obtain ⟨rfl, rfl⟩ := List.cons_eq_cons.mp split
          exact .inl ⟨rfl, id, absent⟩
        | cons d before =>
          obtain ⟨rfl, rfl⟩ := List.cons_eq_cons.mp split
          exact .inr ⟨before, later, rfl, id, absent⟩
      · rintro (⟨rfl, id, absent⟩ | ⟨before, later, rfl, id, absent⟩)
        · exact ⟨[], rest, rfl, id, absent⟩
        · exact ⟨c :: before, later, rfl, id, absent⟩
    rw [cases]
    cases c with
    | remove id => simp [surviving, apply]
    | add key value =>
      have first : (OverrideCall.add key value = .add v.key v.value ∧ o.nextId = v.id) ↔
          v = ⟨o.nextId, key, value⟩ := by
        cases v
        simp only [OverrideCall.add.injEq, Override.mk.injEq]
        constructor
        · rintro ⟨⟨rfl, rfl⟩, rfl⟩
          exact ⟨rfl, rfl, rfl⟩
        · rintro ⟨rfl, rfl, rfl⟩
          exact ⟨⟨rfl, rfl⟩, rfl⟩
      rw [← and_assoc, first, surviving]
      split
      · rename_i removed
        rw [OverrideCall.any_removes] at removed
        simp only [apply, iff_or_self]
        rintro ⟨rfl, absent⟩
        exact absurd removed absent
      · rename_i kept
        rw [OverrideCall.any_removes] at kept
        simp only [apply, List.mem_cons]
        refine or_congr_left ⟨?_, And.left⟩
        rintro rfl
        exact ⟨rfl, kept⟩

theorem surviving_new {o : Overrides} {calls : List OverrideCall} {v : Override}
    (member : v ∈ o.surviving calls) : o.nextId ≤ v.id := by
  obtain ⟨before, later, -, id, -⟩ := mem_surviving.mp member
  rw [← id, nextId_after]
  exact Nat.le_add_right _ _

/-- A number that has been handed out and is removed does not come back. -/
theorem removed_after {o : Overrides} {calls : List OverrideCall} {id : Nat} (old : id < o.nextId)
    (removed : .remove id ∈ calls) : ∀ v ∈ (o.after calls).live, v.id ≠ id := by
  rintro v member rfl
  rw [after_live] at member
  rcases List.mem_append.mp member with kept | new
  · have absent := (List.mem_filter.mp kept).2
    rw [OverrideCall.any_removes.mpr removed] at absent
    cases absent
  · exact absurd (surviving_new new) (Nat.not_le.mpr old)

end Overrides

/-- The number that goes with an override if the one with the number `gone` is never handed out. In
place of `gone` there is a number to spare. -/
def Override.renumbered (gone spare id : Nat) : Nat :=
  if id < gone then id else if id = gone then spare else id - 1

/-- The same call where the override with the number `gone` is never handed out. -/
def OverrideCall.renumbered (gone spare : Nat) : OverrideCall → OverrideCall
  | .add key value => .add key value
  | .remove id => .remove (Override.renumbered gone spare id)

namespace Overrides

/-- The same overrides but for the one with the number `gone`. -/
structure Omits (gone spare : Nat) (o p : Overrides) : Prop where
  live : p.live = (without [gone] o.live).map fun v =>
    { v with id := Override.renumbered gone spare v.id }
  nextId : o.nextId = p.nextId + 1
  old : gone < o.nextId
  numbered : o.Numbered

section Omitting

variable {gone spare : Nat} {o p : Overrides}

theorem mem_without {ids : List Nat} {live : List Override} {v : Override} :
    v ∈ without ids live ↔ v ∈ live ∧ v.id ∉ ids := by
  simp [without]

theorem omits_add (numbered : o.Numbered) (key : String) (value : Json) :
    Omits o.nextId spare (o.add key value) o where
  live := by
    have others : without [o.nextId] (o.add key value).live = o.live := by
      have all := without_addAll numbered [(key, value)]
      exact all
    have same : o.live.map (fun v => { v with id := Override.renumbered o.nextId spare v.id }) =
        o.live.map id :=
      List.map_congr_left fun v member => by rw [Override.renumbered, if_pos (numbered v member), id]
    rw [others, same, List.map_id]
  nextId := rfl
  old := Nat.lt_succ_self _
  numbered := add_numbered numbered key value

theorem Omits.apply (omits : Omits gone spare o p) (c : OverrideCall) (room : p.nextId ≤ spare) :
    Omits gone spare (o.apply c) (p.apply (c.renumbered gone spare)) := by
  obtain ⟨live, nextId, old, numbered⟩ := omits
  refine ⟨?_, ?_, ?_, apply_numbered numbered c⟩
  · cases c with
    | add key value =>
      have last : without [gone] [⟨o.nextId, key, value⟩] = [⟨o.nextId, key, value⟩] := by
        have other : o.nextId ≠ gone := by omega
        simp [without, other]
      have number : Override.renumbered gone spare o.nextId = p.nextId := by
        rw [Override.renumbered, if_neg (by omega), if_neg (by omega)]
        omega
      simp only [Overrides.apply, OverrideCall.renumbered, add, live, without, List.filter_append,
        List.map_append] at last ⊢
      rw [last, List.map_singleton, number]
    | remove id =>
      have swapped : without [gone] (o.live.filter (·.id != id)) =
          (without [gone] o.live).filter (·.id != id) := List.filter_comm _ _ _
      simp only [Overrides.apply, OverrideCall.renumbered, remove, live, List.filter_map, swapped]
      congr 1
      refine List.filter_congr fun v member => ?_
      obtain ⟨there, other⟩ := mem_without.mp member
      have small := numbered v there
      have notGone : v.id ≠ gone := by simpa using other
      -- Two numbers other than `gone` stay apart, and none of them comes to lie at `spare`.
      have apart : Override.renumbered gone spare v.id = Override.renumbered gone spare id ↔
          v.id = id := by
        unfold Override.renumbered
        by_cases below : v.id < gone
        · rw [if_pos below]
          split
          · rfl
          · split <;> omega
        · rw [if_neg below, if_neg notGone]
          split
          · omega
          · split <;> omega
      rw [Function.comp_apply, bne, bne, Bool.not_inj_iff, Bool.eq_iff_iff, beq_iff_eq, beq_iff_eq]
      exact apart
  · cases c with
    | add key value => exact congrArg (· + 1) nextId
    | remove id => exact nextId
  · cases c with
    | add key value => exact Nat.lt_succ_of_lt old
    | remove id => exact old

theorem Omits.after (omits : Omits gone spare o p) (calls : List OverrideCall)
    (room : p.nextId + calls.countP OverrideCall.isAdd ≤ spare) :
    Omits gone spare (o.after calls) (p.after (calls.map (·.renumbered gone spare))) := by
  induction calls generalizing o p with
  | nil => exact omits
  | cons c later ih =>
    have left : (p.apply (c.renumbered gone spare)).nextId + later.countP OverrideCall.isAdd =
        p.nextId + (c :: later).countP OverrideCall.isAdd := by
      cases c with
      | add key value =>
        rw [List.countP_cons_of_pos rfl]
        change p.nextId + 1 + _ = _
        omega
      | remove id =>
        rw [List.countP_cons_of_neg (by simp [OverrideCall.isAdd])]
        rfl
    exact ih (omits.apply c (Nat.le_trans (Nat.le_add_right _ _) room)) (left ▸ room)

theorem Omits.remove (omits : Omits gone spare o p) : Omits gone spare (o.remove gone) p := by
  obtain ⟨live, nextId, old, numbered⟩ := omits
  refine ⟨?_, nextId, old, apply_numbered numbered (.remove gone)⟩
  have twice : without [gone] (o.remove gone).live = without [gone] o.live := by
    rw [remove_live]
    simp [without]
  rw [twice, live]

/-- Where the other override is gone, nothing but the numbers differs. -/
theorem Omits.given_eq (omits : Omits gone spare o p) (absent : ∀ v ∈ o.live, v.id ≠ gone) :
    p.given = o.given := by
  have all : without [gone] o.live = o.live :=
    List.filter_eq_self.mpr fun v member => by simpa using absent v member
  rw [given, omits.live, all, List.map_map]
  rfl

end Omitting

/-- The calls that are left of `before`, the adding of an override, `between`, its removal and
`later` if that override is left out. Numbers are as they are handed out then; to ask again for the
one that was left out is to ask for `spare`. -/
def leavingOut (before between later : List OverrideCall) (spare : Nat) : List OverrideCall :=
  before ++ (between ++ later).map (·.renumbered (empty.after before).nextId spare)

theorem given_leavingOut (before between later : List OverrideCall) (key : String) (value : Json)
    {spare : Nat}
    (room : (before ++ (between ++ later)).countP OverrideCall.isAdd ≤ spare) :
    (empty.after (leavingOut before between later spare)).given =
      (empty.after (before ++ .add key value ::
        (between ++ .remove (empty.after before).nextId :: later))).given := by
  rw [List.countP_append, List.countP_append] at room
  have counted : (empty.after before).nextId = before.countP OverrideCall.isAdd := by
    rw [nextId_after]
    exact Nat.zero_add _
  have added : Omits (empty.after before).nextId spare ((empty.after before).add key value)
      (empty.after before) := omits_add (after_numbered empty_numbered before) key value
  have meanwhile := added.after between (by omega)
  have number := meanwhile.nextId
  rw [nextId_after] at number
  change (empty.after before).nextId + 1 + _ = _ at number
  have ended := meanwhile.remove.after later (by omega)
  have absent : ∀ v ∈ (((empty.after before).add key value).after
      (between ++ .remove (empty.after before).nextId :: later)).live,
        v.id ≠ (empty.after before).nextId :=
    removed_after (Nat.lt_succ_self (empty.after before).nextId) (by simp)
  rw [after_append] at absent
  rw [leavingOut, List.map_append, after_append, after_append, after_append, after_cons,
    after_append]
  exact ended.given_eq absent

/-- What is handed out and what is read, for any sequence of calls: numbers are handed out once, a
number is there until it is removed, for each key the latest override that is there counts, the
snapshot says the same, and an override that is left out together with its removal is not missed. -/
theorem calls_accounted (calls : List OverrideCall) :
    let o := empty.after calls
    let there := empty.surviving calls
    ((empty.handedOut calls).map Override.id).Nodup ∧
      (∀ id, o.holds id = true ↔ ∃ before key value later,
        calls = before ++ .add key value :: later ∧ (empty.after before).nextId = id ∧
          .remove id ∉ later) ∧
      (∀ key, o.get? key = ((there.filter (·.key == key)).getLast?).map (·.value)) ∧
      Entries.Ascending o.snapshot ∧
      (∀ key, (key ∈ o.snapshot.map Prod.fst ↔ ∃ v ∈ there, v.key = key) ∧
        o.snapshot.lookup key = o.get? key) ∧
      o.size = there.length ∧
      ∀ before key value between later more,
        let whole := before ++ .add key value ::
          (between ++ .remove (empty.after before).nextId :: later)
        let rest := leavingOut before between later (whole.countP OverrideCall.isAdd + more)
        (∀ key, (empty.after rest).get? key = (empty.after whole).get? key) ∧
          (empty.after rest).snapshot = (empty.after whole).snapshot := by
  intro o there
  have live : o.live = there := live_after calls
  refine ⟨?_, fun id => ?_, fun key => ?_, ascending_snapshot o, fun key => ⟨?_, ?_⟩, ?_, ?_⟩
  · rw [handedOut_ids]
    exact List.nodup_range'
  · rw [holds_iff, live]
    constructor
    · rintro ⟨v, member, rfl⟩
      obtain ⟨before, later, split, handed⟩ := mem_surviving.mp member
      exact ⟨before, v.key, v.value, later, split, handed⟩
    · rintro ⟨before, key, value, later, split, handed⟩
      exact ⟨⟨id, key, value⟩, mem_surviving.mpr ⟨before, later, split, handed⟩, rfl⟩
  · rw [get?_eq_getLast?, live]
  · rw [mem_keys_snapshot, live]
  · exact lookup_snapshot o key
  · rw [size, live]
  · intro before key value between later more whole rest
    have room : (before ++ (between ++ later)).countP OverrideCall.isAdd ≤
        whole.countP OverrideCall.isAdd + more := by
      simp only [whole, List.countP_append, List.countP_cons]
      omega
    have same : (empty.after rest).given = (empty.after whole).given :=
      given_leavingOut before between later key value room
    refine ⟨fun key => ?_, congrArg Entries.ofList same⟩
    rw [get?_eq_given, get?_eq_given, same]

end Overrides

end PluginAudit
