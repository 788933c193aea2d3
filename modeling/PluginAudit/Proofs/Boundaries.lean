import Mathlib.Data.Nat.Find
import PluginAudit.HeaderBlock
import PluginAudit.Proofs.Utf8
import PluginAudit.Runner.Loading
import PluginAudit.Text.Boundary

/-!
Cutting a text within a limit. Whatever the text, a search that goes back from the limit meets a
boundary after three bytes at most and never leaves the first byte, and what stands before that
boundary is the longest beginning of the text that fits.
-/

namespace PluginAudit.Text

variable {cs head : List Char} {c : Char} {start stop i : Nat}

theorem continues_ofNat {n : Nat} (small : n < 256) :
    continues (UInt8.ofNat n) = true ↔ 0x80 ≤ n ∧ n < 0xC0 := by
  simp only [continues, Bool.and_eq_true, decide_eq_true_eq, UInt8.le_iff_toNat_le,
    UInt8.lt_iff_toNat_lt, toNat_byte small]
  rfl

/-- Of the bytes of a character, the first one alone does not continue it. -/
theorem encodeChar_parts (c : Char) : ∃ lead tail, String.utf8EncodeChar c = lead :: tail ∧
    continues lead = false ∧ ∀ b ∈ tail, continues b = true := by
  have code : c.val.toNat = c.toNat := rfl
  have lead {n : Nat} (small : n < 256) (outside : n < 0x80 ∨ 0xC0 ≤ n) :
      continues (UInt8.ofNat n) = false := by
    rw [Bool.eq_false_iff, ne_eq, continues_ofNat small]
    omega
  have later (n : Nat) : continues (UInt8.ofNat (n % 64 + 0x80)) = true :=
    (continues_ofNat (by omega)).mpr (by omega)
  have none : ∀ b ∈ ([] : Bytes), continues b = true := fun _ member => nomatch member
  have one (n : Nat) : ∀ b ∈ [UInt8.ofNat (n % 64 + 0x80)], continues b = true :=
    List.forall_mem_cons.mpr ⟨later n, none⟩
  have two (m n : Nat) : ∀ b ∈ [UInt8.ofNat (m % 64 + 0x80), UInt8.ofNat (n % 64 + 0x80)],
      continues b = true :=
    List.forall_mem_cons.mpr ⟨later m, one n⟩
  simp only [String.utf8EncodeChar, code]
  repeat' split
  · exact ⟨_, _, rfl, lead (by omega) (by omega), none⟩
  · exact ⟨_, _, rfl, lead (by omega) (by omega), one _⟩
  · exact ⟨_, _, rfl, lead (by omega) (by omega), two _ _⟩
  · exact ⟨_, _, rfl, lead (by omega) (by omega), List.forall_mem_cons.mpr ⟨later _, two _ _⟩⟩

theorem isBoundary_zero (bytes : Bytes) : isBoundary bytes 0 = true := rfl

theorem isBoundary_within (behind : 0 < i) (within : i < c.utf8Size) :
    isBoundary (encode (c :: cs)) i = false := by
  obtain ⟨lead, tail, parts, -, later⟩ := encodeChar_parts c
  obtain ⟨k, rfl⟩ : ∃ k, i = k + 1 := ⟨i - 1, by omega⟩
  have inTail : k < tail.length := by
    have length := String.length_utf8EncodeChar c
    rw [parts, List.length_cons] at length
    omega
  have byte : (encode (c :: cs))[k + 1]? = some tail[k] := by
    rw [encode_cons, parts, List.cons_append, List.getElem?_cons_succ,
      List.getElem?_append_left inTail, List.getElem?_eq_getElem inTail]
  simp [isBoundary, byte, later tail[k] (List.getElem_mem inTail)]

theorem isBoundary_behind (c : Char) (cs : List Char) (i : Nat) :
    isBoundary (encode (c :: cs)) (c.utf8Size + i) = isBoundary (encode cs) i := by
  have size := String.length_utf8EncodeChar c
  have positive := Char.utf8Size_pos c
  have byte : (encode (c :: cs))[c.utf8Size + i]? = (encode cs)[i]? := by
    rw [encode_cons, List.getElem?_append_right (by omega), size, Nat.add_sub_cancel_left]
  have inText : (c.utf8Size + i == 0) = false := by
    rw [beq_eq_false_iff_ne]
    omega
  have ended : (c.utf8Size + i == (encode (c :: cs)).length) = (i == (encode cs).length) := by
    rw [encode_cons, List.length_append, size, Bool.eq_iff_iff, beq_iff_eq, beq_iff_eq,
      Nat.add_left_cancel_iff]
  rw [isBoundary, isBoundary, byte, inText, ended, Bool.false_or]
  cases i with
  | succ i => rfl
  | zero =>
    -- The first byte counts as a boundary unseen, so that of the rest has to be looked at.
    cases cs with
    | nil => rfl
    | cons d ds =>
      obtain ⟨lead, tail, parts, first, -⟩ := encodeChar_parts d
      simp [encode_cons, parts, first]

theorem isBoundary_of_begins (begins : head <+: cs) :
    isBoundary (encode cs) (byteSize head) = true := by
  induction head generalizing cs with
  | nil => exact isBoundary_zero _
  | cons c head ih =>
    obtain ⟨more, rfl⟩ := begins
    rw [List.cons_append, byteSize, isBoundary_behind]
    exact ih (List.prefix_append head more)

/-- The boundaries are where beginnings of the text end, a character's own places being none. -/
theorem begins_of_isBoundary (boundary : isBoundary (encode cs) i = true) :
    ∃ head, head <+: cs ∧ byteSize head = i := by
  induction cs generalizing i with
  | nil =>
    cases i with
    | zero => exact ⟨[], List.nil_prefix, rfl⟩
    | succ i => simp [isBoundary, encode] at boundary
  | cons c rest ih =>
    by_cases first : i = 0
    · exact ⟨[], List.nil_prefix, first.symm⟩
    · by_cases within : i < c.utf8Size
      · rw [isBoundary_within (Nat.pos_of_ne_zero first) within] at boundary
        cases boundary
      · obtain ⟨k, rfl⟩ := Nat.exists_eq_add_of_le (Nat.not_lt.mp within)
        rw [isBoundary_behind] at boundary
        obtain ⟨head, begins, size⟩ := ih boundary
        refine ⟨c :: head, List.cons_prefix_cons.mpr ⟨rfl, begins⟩, ?_⟩
        rw [byteSize, size]

structure LastBoundary (bytes : Bytes) (start stop : Nat) : Prop where
  boundary : isBoundary bytes stop = true
  upto : stop ≤ start
  last : ∀ i, i ≤ start → isBoundary bytes i = true → i ≤ stop

theorem boundaryUpto?_eq (bytes : Bytes) (start : Nat) :
    boundaryUpto? bytes start =
      some (Nat.findGreatest (fun i => isBoundary bytes i = true) start) := by
  induction start with
  -- The first byte is a boundary, so the search never goes on from it.
  | zero => rfl
  | succ start ih =>
    rw [boundaryUpto?, Nat.findGreatest_succ, ih]
    split <;> rfl

theorem boundaryUpto?_last (bytes : Bytes) (start : Nat) :
    ∃ stop, boundaryUpto? bytes start = some stop ∧ LastBoundary bytes start stop := by
  refine ⟨_, boundaryUpto?_eq bytes start, ?_, Nat.findGreatest_le start, ?_⟩
  · exact Nat.findGreatest_spec (P := fun i => isBoundary bytes i = true) (Nat.zero_le start)
      (isBoundary_zero bytes)
  · intro i upto boundary
    exact Nat.le_findGreatest upto boundary

theorem LastBoundary.stop_eq (last : LastBoundary (encode cs) start stop) :
    stop = byteSize (takeBytes start cs) := by
  apply Nat.le_antisymm
  · obtain ⟨head, begins, size⟩ := begins_of_isBoundary last.boundary
    have fits : byteSize head ≤ start := size ▸ last.upto
    exact size ▸ byteSize_begins (begins_takeBytes begins fits)
  · exact last.last _ (byteSize_takeBytes start cs) (isBoundary_of_begins (takeBytes_begins start cs))

theorem boundaryUpto?_encode (cs : List Char) (start : Nat) :
    boundaryUpto? (encode cs) start = some (byteSize (takeBytes start cs)) := by
  obtain ⟨stop, found, last⟩ := boundaryUpto?_last (encode cs) start
  rw [found, last.stop_eq]

theorem take_byteSize (begins : head <+: cs) :
    (encode cs).take (byteSize head) = encode head := by
  obtain ⟨more, rfl⟩ := begins
  rw [encode_append, ← length_encode, List.take_left]

theorem beforeByte?_byteSize (begins : head <+: cs) :
    beforeByte? cs (byteSize head) = some head := by
  rw [beforeByte?, if_pos (isBoundary_of_begins begins), take_byteSize begins, decode?_encode]

theorem cutBack?_eq (cs : List Char) (start : Nat) :
    cutBack? cs start = some (takeBytes start cs) := by
  rw [cutBack?, boundaryUpto?_encode, Option.bind_some,
    beforeByte?_byteSize (takeBytes_begins start cs)]

theorem truncate?_eq (limit : Nat) (cs : List Char) :
    truncate? limit cs = some (takeBytes limit cs) := by
  rw [truncate?]
  split
  · next fits => rw [takeBytes_of_fits fits]
  · exact cutBack?_eq cs limit

theorem takeBytes_min (limit : Nat) (cs : List Char) :
    takeBytes (min (byteSize cs) limit) cs = takeBytes limit cs := by
  rcases Nat.le_total (byteSize cs) limit with fits | long
  · rw [Nat.min_eq_left fits, takeBytes_of_fits fits, takeBytes_of_fits (Nat.le_refl _)]
  · rw [Nat.min_eq_right long]

theorem excerpt?_eq (limit : Nat) (cs : List Char) :
    excerpt? limit cs = some (takeBytes limit (trim cs)) := by
  rw [excerpt?, cutBack?_eq, takeBytes_min]

theorem min_le_byteSize_takeBytes (limit : Nat) (cs : List Char) :
    min (byteSize cs) limit ≤ byteSize (takeBytes limit cs) + 3 := by
  by_cases whole : takeBytes limit cs = cs
  · rw [whole]
    omega
  · have near := limit_le_of_cut whole
    omega

/-- The longest beginning of a text in at most `limit` bytes. It has whole characters only, so it
ends on a boundary. -/
structure IsLongest (limit : Nat) (cs part : List Char) : Prop where
  begins : part <+: cs
  fits : byteSize part ≤ limit
  longest : ∀ other, other <+: cs → byteSize other ≤ limit → other <+: part

theorem takeBytes_longest (limit : Nat) (cs : List Char) :
    IsLongest limit cs (takeBytes limit cs) where
  begins := takeBytes_begins limit cs
  fits := byteSize_takeBytes limit cs
  longest _ := begins_takeBytes

/-- Either cut starts its search at the limit, or at the end of a text that fits. The search ends at
the last boundary there is, and what stands before it is the longest beginning: of the source of a
header block, and of what a failed runner has written to its error stream. -/
theorem cuts_longest (limit : Nat) (cs : List Char) (errors : Bytes) :
    (∃ stop, boundaryUpto? (encode cs) (min (byteSize cs) limit) = some stop ∧
      LastBoundary (encode cs) (min (byteSize cs) limit) stop ∧
      min (byteSize cs) limit ≤ stop + 3 ∧
      encode (takeBytes limit cs) = (encode cs).take stop) ∧
    (truncate? limit cs = some (takeBytes limit cs) ∧
      IsLongest limit cs (takeBytes limit cs)) ∧
    (excerpt? limit cs = some (takeBytes limit (trim cs)) ∧
      IsLongest limit (trim cs) (takeBytes limit (trim cs))) ∧
    (∃ part, truncate? HeaderBlock.scanLimit cs = some part ∧
      HeaderBlock.ofChars cs = (lines part).foldl HeaderBlock.addLine ⟨[]⟩) ∧
    ∃ part, excerpt? Runner.excerptLimit (decodeLossy errors) = some part ∧
      Runner.excerpt errors = .ofList part := by
  obtain ⟨stop, found, last⟩ := boundaryUpto?_last (encode cs) (min (byteSize cs) limit)
  have size : stop = byteSize (takeBytes limit cs) := by
    rw [last.stop_eq, takeBytes_min]
  have near : min (byteSize cs) limit ≤ stop + 3 := size ▸ min_le_byteSize_takeBytes limit cs
  have part : encode (takeBytes limit cs) = (encode cs).take stop := by
    rw [size, take_byteSize (takeBytes_begins limit cs)]
  refine ⟨⟨stop, found, last, near, part⟩, ?_, ?_, ?_, ?_⟩
  · exact ⟨truncate?_eq limit cs, takeBytes_longest limit cs⟩
  · exact ⟨excerpt?_eq limit cs, takeBytes_longest limit (trim cs)⟩
  · exact ⟨_, truncate?_eq HeaderBlock.scanLimit cs, rfl⟩
  · exact ⟨_, excerpt?_eq Runner.excerptLimit (decodeLossy errors), rfl⟩

example : truncate? 5 ['a', 'ñ', '€', 'b'] = some ['a', 'ñ'] := by decide

end PluginAudit.Text
