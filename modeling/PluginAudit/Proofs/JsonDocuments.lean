import PluginAudit.Json.Document
import PluginAudit.Proofs.JsonTokens

/-!
The tokens of a document. A document is read from its own tokens and from no others, and it has a
value if it is not nested too deeply, its numbers fit a double and its strings are whole.
-/

namespace PluginAudit.Json

/-- The text of an object, of the text of its members. -/
def braced (members : String) : String := .ofList ('{' :: (members.toList ++ ['}']))

mutual
def Document.tokens : Document → List Token
  | .null => [.null]
  | .bool b => [.bool b]
  | .num n => [.num n]
  | .str s => [.str s]
  | .arr items => .openArray :: ((itemTokens items).tail ++ [.closeArray])
  | .obj members => .openObject :: ((memberTokens members).tail ++ [.closeObject])

/-- The items with a comma in front of each. -/
def itemTokens : List Document → List Token
  | [] => []
  | d :: ds => .comma :: (d.tokens ++ itemTokens ds)

def memberTokens : List (Option String × Document) → List Token
  | [] => []
  | (key, d) :: ms => .comma :: .str key :: .colon :: (d.tokens ++ memberTokens ms)
end

namespace Reading

theorem run_firstItem (d : Document) (frames : List Frame) (ts : List Token) :
    (firstItem frames).run (d.tokens ++ ts) =
      (value (.items [] :: frames)).run (d.tokens ++ ts) := by
  cases d <;> rfl

mutual
theorem run_tokens (d : Document) (frames : List Frame) (ts : List Token) :
    (value frames).run (d.tokens ++ ts) = (finished d frames).run ts := by
  cases d with
  | null => rfl
  | bool b => rfl
  | num n => rfl
  | str s => rfl
  | arr items =>
    cases items with
    | nil => rfl
    | cons d ds =>
      have first := run_firstItem d frames (itemTokens ds ++ .closeArray :: ts)
      rw [run_tokens d, run_items ds] at first
      simpa [Document.tokens, itemTokens, run, step, open?] using first
  | obj members =>
    cases members with
    | nil => rfl
    | cons m ms =>
      obtain ⟨key, d⟩ := m
      have first := run_tokens d (.member [] key :: frames) (memberTokens ms ++ .closeObject :: ts)
      rw [run_members ms] at first
      simpa [Document.tokens, memberTokens, run, step, open?] using first

theorem run_items (ds : List Document) (d : Document) (done : List Document) (frames : List Frame)
    (ts : List Token) :
    (finished d (.items done :: frames)).run (itemTokens ds ++ .closeArray :: ts) =
      (finished (.arr ((d :: done).reverse ++ ds)) frames).run ts := by
  cases ds with
  | nil =>
    simp [itemTokens, run, step]
  | cons e ds =>
    have later := run_tokens e (.items (d :: done) :: frames) (itemTokens ds ++ .closeArray :: ts)
    rw [run_items ds] at later
    simpa [itemTokens, run, step] using later

theorem run_members (ms : List (Option String × Document)) (d : Document)
    (done : List (Option String × Document)) (key : Option String) (frames : List Frame)
    (ts : List Token) :
    (finished d (.member done key :: frames)).run (memberTokens ms ++ .closeObject :: ts) =
      (finished (.obj (((key, d) :: done).reverse ++ ms)) frames).run ts := by
  cases ms with
  | nil =>
    simp [memberTokens, run, step]
  | cons m ms =>
    obtain ⟨key', e⟩ := m
    have later := run_tokens e (.member ((key, d) :: done) key' :: frames)
      (memberTokens ms ++ .closeObject :: ts)
    rw [run_members ms] at later
    simpa [memberTokens, run, step] using later
end

section Consumed

/-- What has been read of an array or object, up to where its next item or member begins. -/
def startTokens (items : List Token) : List Token := (items ++ [Token.comma]).tail

def frameTokens : Frame → List Token
  | .items done => .openArray :: startTokens (itemTokens done.reverse)
  | .member done key =>
    .openObject :: (startTokens (memberTokens done.reverse) ++ [.str key, .colon])

def framesTokens : List Frame → List Token
  | [] => []
  | f :: fs => framesTokens fs ++ frameTokens f

/-- The tokens that have led to a state. -/
def consumed : Reading → List Token
  | .value frames => framesTokens frames
  | .firstItem frames => framesTokens frames ++ [.openArray]
  | .firstKey frames => framesTokens frames ++ [.openObject]
  | .nextKey done frames =>
    framesTokens frames ++ .openObject :: startTokens (memberTokens done.reverse)
  | .colon done key frames =>
    framesTokens frames ++ .openObject :: (startTokens (memberTokens done.reverse) ++ [.str key])
  | .finished v frames => framesTokens frames ++ v.tokens

theorem itemTokens_append (ds es : List Document) :
    itemTokens (ds ++ es) = itemTokens ds ++ itemTokens es := by
  induction ds with
  | nil => rfl
  | cons d ds ih => simp [itemTokens, ih]

theorem memberTokens_append (ms ns : List (Option String × Document)) :
    memberTokens (ms ++ ns) = memberTokens ms ++ memberTokens ns := by
  induction ms with
  | nil => rfl
  | cons m ms ih => simp [memberTokens, ih]

theorem tail_append_comma (items more : List Token) :
    (items ++ Token.comma :: more).tail = startTokens items ++ more := by
  cases items <;> simp [startTokens]

theorem startTokens_append (items more : List Token) :
    startTokens (items ++ .comma :: more) = startTokens items ++ (more ++ [.comma]) := by
  rw [← tail_append_comma, startTokens, List.append_assoc]
  rfl

theorem open?_consumed {frames : List Frame} {t : Token} {next : Reading}
    (opened : open? frames t = some next) : next.consumed = framesTokens frames ++ [t] := by
  cases t <;> cases opened <;> rfl

theorem step_consumed {r next : Reading} {t : Token} (stepped : r.step t = some next) :
    next.consumed = r.consumed ++ [t] := by
  unfold step at stepped
  split at stepped
  · exact open?_consumed stepped
  · cases stepped
    simp [consumed, Document.tokens, itemTokens]
  · rw [open?_consumed stepped]
    simp [consumed, framesTokens, frameTokens, startTokens, itemTokens]
  all_goals cases stepped
  · simp [consumed, Document.tokens, memberTokens]
  · simp [consumed, startTokens, memberTokens]
  · simp [consumed]
  · simp [consumed, framesTokens, frameTokens]
  · simp [consumed, framesTokens, frameTokens, itemTokens_append, itemTokens, startTokens_append]
  · simp [consumed, framesTokens, frameTokens, Document.tokens, itemTokens_append, itemTokens,
      tail_append_comma]
  · simp [consumed, framesTokens, frameTokens, memberTokens_append, memberTokens,
      startTokens_append]
  · simp [consumed, framesTokens, frameTokens, Document.tokens, memberTokens_append, memberTokens,
      tail_append_comma]

theorem run_consumed {r : Reading} {ts : List Token} {d : Document} (ran : r.run ts = some d) :
    r.consumed ++ ts = d.tokens := by
  -- each token moves from those still to come to those consumed
  induction ts generalizing r with
  | nil =>
    cases r with
    | finished v frames =>
      cases frames <;> cases ran
      simp [consumed, framesTokens]
    | _ => cases ran
  | cons t ts ih =>
    rw [run] at ran
    split at ran
    · cases ran
    · next next stepped =>
      have later := ih ran
      rw [step_consumed stepped, List.append_assoc] at later
      exact later

end Consumed

theorem run_eq_some_iff {ts : List Token} {d : Document} :
    (value []).run ts = some d ↔ ts = d.tokens := by
  constructor
  · exact run_consumed
  · rintro rfl
    have ran := run_tokens d [] []
    rwa [List.append_nil] at ran

section Parted

variable {r next : Reading} {t : Token} {ts : List Token} {d v : Document} {frames : List Frame}

theorem step_finished (stepped : (finished v frames).step t = some next) : ¬t.IsOpen := by
  intro isOpen
  rcases frames with _ | ⟨_ | _, frames⟩ <;> cases t <;> cases isOpen <;> cases stepped

theorem step_open (stepped : r.step t = some next) (isOpen : t.IsOpen) :
    ∃ v frames, next = finished v frames := by
  cases r with
  | finished v frames => exact absurd isOpen (step_finished stepped)
  | _ => cases t <;> cases isOpen <;> cases stepped <;> exact ⟨_, _, rfl⟩

/-- What follows on a number or a word is part of the structure. -/
theorem run_parted (ran : r.run ts = some d) :
    Parted ts ∧ ∀ v frames, r = finished v frames → ∀ t ∈ ts.head?, ¬t.IsOpen := by
  induction ts generalizing r with
  | nil => exact ⟨.nil, by simp⟩
  | cons t ts ih =>
    rw [run] at ran
    split at ran
    · cases ran
    · next next stepped =>
      obtain ⟨parted, follows⟩ := ih ran
      refine ⟨List.isChain_cons.mpr ⟨fun u head isOpen => ?_, parted⟩, ?_⟩
      · obtain ⟨v, frames, same⟩ := step_open stepped isOpen
        exact follows v frames same u head
      · rintro v frames rfl u head
        cases head
        exact step_finished stepped

end Parted

end Reading

theorem Document.tokens_parted (d : Document) : Parted d.tokens :=
  (Reading.run_parted (Reading.run_eq_some_iff.mpr rfl)).1

/-- A document is read from the texts in which its tokens are laid out. -/
theorem Document.read?_eq_some_iff {text : List Char} {d : Document} :
    Document.read? text = some d ↔ Laid d.tokens text := by
  unfold Document.read?
  constructor
  · intro read
    split at read
    · cases read
    · next ts tokens =>
      rw [← Reading.run_eq_some_iff.mp read]
      exact laid_of_tokens? tokens
  · intro laid
    rw [laid.tokens? d.tokens_parted]
    exact Reading.run_eq_some_iff.mpr rfl

section Values

mutual
/-- The levels of arrays and objects, one inside another. -/
def Document.depth : Document → Nat
  | .arr items => itemsDepth items + 1
  | .obj members => membersDepth members + 1
  | _ => 0

def itemsDepth : List Document → Nat
  | [] => 0
  | d :: ds => max d.depth (itemsDepth ds)

def membersDepth : List (Option String × Document) → Nat
  | [] => 0
  | (_, d) :: ms => max d.depth (membersDepth ms)
end

/-- A number has to fit a double, and a string has to be whole. -/
def Token.HasValue : Token → Prop
  | .num n => n.value?.isSome
  | .str s => s.isSome
  | _ => True

/-- The comma in front of the first item has a value, so it can be left out. -/
theorem values_itemTokens (ds : List Document) :
    (∀ t ∈ (itemTokens ds).tail, t.HasValue) ↔ ∀ t ∈ itemTokens ds, t.HasValue := by
  cases ds <;> simp [itemTokens, Token.HasValue]

theorem values_memberTokens (ms : List (Option String × Document)) :
    (∀ t ∈ (memberTokens ms).tail, t.HasValue) ↔ ∀ t ∈ memberTokens ms, t.HasValue := by
  cases ms <;> simp [memberTokens, Token.HasValue]

mutual
theorem value?_isSome_iff (d : Document) {room : Nat} (positive : 0 < room) :
    (d.value? room).isSome ↔ d.depth < room ∧ ∀ t ∈ d.tokens, t.HasValue := by
  cases d with
  | null => simp [Document.value?, Document.depth, Document.tokens, Token.HasValue, positive]
  | bool b => simp [Document.value?, Document.depth, Document.tokens, Token.HasValue, positive]
  | num n => simp [Document.value?, Document.depth, Document.tokens, Token.HasValue, positive]
  | str s => simp [Document.value?, Document.depth, Document.tokens, Token.HasValue, positive]
  | arr items =>
    rw [Document.value?, Document.depth, Document.tokens]
    by_cases deep : room ≤ 1
    · rw [if_pos deep]
      simp
      omega
    · rw [if_neg deep, Option.isSome_map, itemValues?_isSome_iff items (by omega),
        ← values_itemTokens]
      simp [Token.HasValue, or_imp, forall_and]
      omega
  | obj members =>
    rw [Document.value?, Document.depth, Document.tokens]
    by_cases deep : room ≤ 1
    · rw [if_pos deep]
      simp
      omega
    · rw [if_neg deep, Option.isSome_map, memberValues?_isSome_iff members (by omega),
        ← values_memberTokens]
      simp [Token.HasValue, or_imp, forall_and]
      omega

theorem itemValues?_isSome_iff (ds : List Document) {room : Nat} (positive : 0 < room) :
    (itemValues? room ds).isSome ↔ itemsDepth ds < room ∧ ∀ t ∈ itemTokens ds, t.HasValue := by
  cases ds with
  | nil => simp [itemValues?, itemsDepth, itemTokens, positive]
  | cons d ds =>
    have both : (itemValues? room (d :: ds)).isSome =
        ((d.value? room).isSome && (itemValues? room ds).isSome) := by
      simp only [itemValues?]
      cases d.value? room <;> cases itemValues? room ds <;> rfl
    rw [both, Bool.and_eq_true, value?_isSome_iff d positive, itemValues?_isSome_iff ds positive,
      itemsDepth, itemTokens, Nat.max_lt, List.forall_mem_cons, List.forall_mem_append]
    simp only [Token.HasValue, true_and]
    exact and_and_and_comm

theorem memberValues?_isSome_iff (ms : List (Option String × Document)) {room : Nat}
    (positive : 0 < room) :
    (memberValues? room ms).isSome ↔
      membersDepth ms < room ∧ ∀ t ∈ memberTokens ms, t.HasValue := by
  cases ms with
  | nil => simp [memberValues?, membersDepth, memberTokens, positive]
  | cons m ms =>
    obtain ⟨key, d⟩ := m
    have all : (memberValues? room ((key, d) :: ms)).isSome =
        (key.isSome && ((d.value? room).isSome && (memberValues? room ms).isSome)) := by
      simp only [memberValues?]
      cases key <;> cases d.value? room <;> cases memberValues? room ms <;> rfl
    rw [all, Bool.and_eq_true, Bool.and_eq_true, value?_isSome_iff d positive,
      memberValues?_isSome_iff ms positive, membersDepth, memberTokens, Nat.max_lt,
      List.forall_mem_cons, List.forall_mem_cons, List.forall_mem_cons, List.forall_mem_append]
    simp only [Token.HasValue, true_and]
    rw [and_and_and_comm, and_left_comm]
end

end Values

end PluginAudit.Json
