import PluginAudit.PathBytes
import PluginAudit.Proofs.DirectoryFiles
import PluginAudit.Proofs.ReadableText
import PluginAudit.Proofs.TextOrder

/-!
Paths whose bytes are a text. The separator and the dot are bytes of their own and never part of
another character, and texts are in the order of their bytes, so such a path has the components, the
place among others and the parent that its text has, and it is shown by that text.
-/

namespace PluginAudit

namespace Text

variable {c x mark : Char} {cs ds part : List Char} {as bs bytes : Bytes}

theorem toNat_spell (b : UInt8) : (Char.ofNat b.toNat).toNat = b.toNat := by
  have small := b.toNat_lt
  exact toNat_ofNat (.inl (by omega))

theorem spelled_spell (bytes : Bytes) : spelled (spell bytes) = bytes := by
  rw [spelled, spell, List.map_map]
  refine (List.map_congr_left fun b _ => ?_).trans (List.map_id bytes)
  rw [Function.comp_apply, toNat_spell, UInt8.ofNat_toNat, id]

theorem spell_cons (b : UInt8) (bytes : Bytes) :
    spell (b :: bytes) = Char.ofNat b.toNat :: spell bytes := rfl

theorem spell_lt_iff : spell as < spell bs ↔ as < bs := by
  induction as generalizing bs with
  | nil => cases bs <;> simp [spell]
  | cons a as ih =>
    cases bs with
    | nil => simp [spell]
    | cons b bs =>
      have less : Char.ofNat a.toNat < Char.ofNat b.toNat ↔ a < b := by
        change (Char.ofNat a.toNat).toNat < (Char.ofNat b.toNat).toNat ↔ a < b
        rw [toNat_spell, toNat_spell, UInt8.lt_iff_toNat_lt]
      have same : Char.ofNat a.toNat = Char.ofNat b.toNat ↔ a = b := by
        rw [← Char.toNat_inj, toNat_spell, toNat_spell, UInt8.toNat_inj]
      rw [spell_cons, spell_cons, List.cons_lt_cons_iff, List.cons_lt_cons_iff, less, same, ih]

/-- A text as it is written with its bytes. -/
def inBytes (cs : List Char) : List Char := spell (encode cs)

theorem spelled_inBytes (cs : List Char) : spelled (inBytes cs) = encode cs := spelled_spell _

theorem inBytes_injective : Function.Injective inBytes := by
  intro cs ds same
  have bytes := congrArg spelled same
  rw [spelled_inBytes, spelled_inBytes] at bytes
  exact Option.some.inj (by rw [← decode?_encode, ← decode?_encode, bytes])

theorem inBytes_append (cs ds : List Char) : inBytes (cs ++ ds) = inBytes cs ++ inBytes ds := by
  rw [inBytes, encode_append]
  exact List.map_append

theorem inBytes_ascii (ascii : c.toNat < 0x80) (cs : List Char) :
    inBytes (c :: cs) = c :: inBytes cs := by
  have code : c.val.toNat = c.toNat := rfl
  have one : String.utf8EncodeChar c = [UInt8.ofNat c.toNat] := by
    simp only [String.utf8EncodeChar, code]
    rw [if_pos (by omega)]
  rw [inBytes, encode_cons, one, List.singleton_append, spell, List.map_cons,
    toNat_byte (by omega), Char.ofNat_toNat]
  rfl

theorem byte_of_wide (wide : 0x80 ≤ c.toNat) :
    ∀ b ∈ String.utf8EncodeChar c, 0x80 ≤ b.toNat := by
  have code : c.val.toNat = c.toNat := rfl
  simp only [String.utf8EncodeChar, code]
  rw [if_neg (by omega)]
  repeat' split
  all_goals
    intro b member
    simp only [List.mem_cons, List.not_mem_nil, or_false] at member
    rcases member with rfl | rfl | rfl | rfl <;> rw [toNat_byte (by omega)] <;> omega

/-- An ASCII character is written by its own byte only, and that byte is no part of another. -/
theorem inBytes_cons (c : Char) (cs : List Char) : ∃ x more, inBytes (c :: cs) = x :: more ∧
    ∀ mark : Char, mark.toNat < 0x80 → c ≠ mark → x ≠ mark := by
  by_cases ascii : c.toNat < 0x80
  · exact ⟨c, _, inBytes_ascii ascii cs, fun _ _ => id⟩
  · obtain ⟨lead, tail, parts⟩ := List.exists_cons_of_length_pos
      ((String.length_utf8EncodeChar c).symm ▸ Char.utf8Size_pos c)
    have high := byte_of_wide (Nat.not_lt.mp ascii) lead (by rw [parts]; exact List.mem_cons_self)
    refine ⟨Char.ofNat lead.toNat, spell (tail ++ encode cs), ?_, fun mark low _ same => ?_⟩
    · rw [inBytes, encode_cons, parts]
      rfl
    · rw [← same, toNat_spell] at low
      omega

theorem not_mem_inBytes (low : mark.toNat < 0x80) (absent : mark ∉ cs) : mark ∉ inBytes cs := by
  induction cs with
  | nil => exact List.not_mem_nil
  | cons c cs ih =>
    rw [List.mem_cons, not_or] at absent
    obtain ⟨other, absent⟩ := absent
    by_cases ascii : c.toNat < 0x80
    · rw [inBytes_ascii ascii, List.mem_cons, not_or]
      exact ⟨other, ih absent⟩
    · have split := inBytes_append [c] cs
      rw [List.singleton_append] at split
      rw [split, List.mem_append, not_or]
      refine ⟨fun member => ?_, ih absent⟩
      rw [inBytes, encode_cons, spell, List.mem_map] at member
      obtain ⟨b, listed, rfl⟩ := member
      have high := byte_of_wide (Nat.not_lt.mp ascii) b (by simpa [encode] using listed)
      rw [toNat_spell] at low
      omega

theorem inBytes_joinWith (low : mark.toNat < 0x80) (parts : List (List Char)) :
    inBytes (joinWith [mark] parts) = joinWith [mark] (parts.map inBytes) := by
  induction parts with
  | nil => rfl
  | cons part rest ih =>
    cases rest with
    | nil => rfl
    | cons next others =>
      rw [joinWith, inBytes_append, inBytes_append, inBytes_ascii low, ih]
      rfl

theorem splitAt_inBytes (low : mark.toNat < 0x80) (cs : List Char) :
    splitAt mark (inBytes cs) = (splitAt mark cs).map inBytes := by
  have some : (splitAt mark cs).map inBytes ≠ [] := by
    rw [ne_eq, List.map_eq_nil_iff]
    exact splitAt_ne_nil mark cs
  have separate : ∀ part ∈ (splitAt mark cs).map inBytes, mark ∉ part := by
    intro part member
    obtain ⟨text, listed, rfl⟩ := List.mem_map.mp member
    exact not_mem_inBytes low (not_mem_of_mem_splitAt listed)
  rw [← splitAt_joinWith some separate, ← inBytes_joinWith low, joinWith_splitAt]

end Text

namespace Path

open Text

variable {p q base main : Path} {cs : List Char} {part : List Char}

/-- A name as it is written with its bytes. -/
def nameInBytes (name : String) : String := .ofList (Text.inBytes name.toList)

theorem readName?_inBytes (name : String) : readName? (nameInBytes name) = some name := by
  rw [readName?, nameInBytes, String.toList_ofList, spelled_inBytes, decode?_encode, Option.map_some,
    String.ofList_toList]

theorem showName_inBytes (name : String) : showName (nameInBytes name) = name := by
  rw [showName, nameInBytes, String.toList_ofList, spelled_inBytes, decodeLossy_encode,
    String.ofList_toList]

theorem nameInBytes_injective : Function.Injective nameInBytes := fun a b same => by
  have read := congrArg showName same
  rwa [showName_inBytes, showName_inBytes] at read

theorem nameInBytes_lt_iff {a b : String} : nameInBytes a < nameInBytes b ↔ a < b := by
  rw [String.lt_iff, nameInBytes, nameInBytes, String.toList_ofList, String.toList_ofList, inBytes,
    inBytes, spell_lt_iff, encode_lt_iff]

/-- The path of a text, by its bytes. -/
def inBytes (p : Path) : Path := .ofBytes (encode p.text.toList)

theorem toList_inBytes (p : Path) : p.inBytes.text.toList = Text.inBytes p.text.toList :=
  String.toList_ofList

def Component.inBytes : Component → Component
  | .name s => .name (nameInBytes s)
  | c => c

theorem Component.inBytes_injective : Function.Injective Component.inBytes := by
  intro a b same
  cases a <;> cases b <;> simp_all [Component.inBytes, nameInBytes_injective.eq_iff]

theorem Component.less_inBytes (a b : Component) : a.inBytes.less b.inBytes = a.less b := by
  rw [Bool.eq_iff_iff]
  cases a <;> cases b <;> simp only [Component.inBytes, less, decide_eq_true_iff, nameInBytes_lt_iff]
  all_goals rfl

theorem Component.showName_inBytes (c : Component) : showName c.inBytes.text = c.text := by
  cases c with
  | name s => exact Path.showName_inBytes s
  | root | here | up => rfl

/-- What leads a path is written alike, and the bytes behind it are those of the text behind. -/
theorem lead_inBytes (cs : List Char) : ∃ front body before, lead cs = (front, body) ∧
    front.map Component.inBytes = front ∧ cs = before ++ body ∧
      lead (Text.inBytes cs) = (front, Text.inBytes body) ∧
      Text.inBytes cs = before ++ Text.inBytes body := by
  have slash (r : List Char) : Text.inBytes ('/' :: r) = '/' :: Text.inBytes r :=
    inBytes_ascii (by decide) r
  have dot (r : List Char) : Text.inBytes ('.' :: r) = '.' :: Text.inBytes r :=
    inBytes_ascii (by decide) r
  cases cs with
  | nil => exact ⟨[], [], [], rfl, rfl, rfl, rfl, rfl⟩
  | cons c r =>
    by_cases root : c = '/'
    · subst root
      exact ⟨[.root], r, ['/'], rfl, rfl, rfl, by rw [slash]; rfl, slash r⟩
    by_cases here : c = '.'
    · subst here
      cases r with
      | nil => exact ⟨[.here], [], ['.'], rfl, rfl, rfl, rfl, rfl⟩
      | cons d r =>
        by_cases behind : d = '/'
        · subst behind
          exact ⟨[.here], '/' :: r, ['.'], rfl, rfl, rfl, by rw [dot, slash]; rfl, dot _⟩
        · obtain ⟨x, more, written, other⟩ := inBytes_cons d r
          have apart : x ≠ '/' := other '/' (by decide) behind
          refine ⟨[], '.' :: d :: r, [], ?_, rfl, rfl, ?_, rfl⟩
          · simp [lead, behind]
          · rw [dot, written]
            simp [lead, apart]
    · obtain ⟨x, more, written, other⟩ := inBytes_cons c r
      have apart : x ≠ '/' := other '/' (by decide) root
      have apart' : x ≠ '.' := other '.' (by decide) here
      refine ⟨[], c :: r, [], ?_, rfl, rfl, ?_, rfl⟩
      · simp [lead, root, here]
      · rw [written]
        simp [lead, apart, apart']

theorem isFiller_inBytes (part : List Char) : isFiller (Text.inBytes part) = isFiller part := by
  have none : Text.inBytes part = [] ↔ part = [] := inBytes_injective.eq_iff' rfl
  have dot : Text.inBytes part = ['.'] ↔ part = ['.'] := inBytes_injective.eq_iff' rfl
  rw [Bool.eq_iff_iff, isFiller, isFiller, Bool.or_eq_true, Bool.or_eq_true, List.isEmpty_iff,
    List.isEmpty_iff, beq_iff_eq, beq_iff_eq, none, dot]

theorem ofPart_inBytes (part : List Char) : ofPart (Text.inBytes part) = (ofPart part).inBytes := by
  have dots : Text.inBytes part = ['.', '.'] ↔ part = ['.', '.'] := inBytes_injective.eq_iff' rfl
  unfold ofPart
  by_cases up : part = ['.', '.']
  · rw [if_pos up, if_pos (dots.mpr up)]
    rfl
  · rw [if_neg up, if_neg (mt dots.mp up), Component.inBytes, nameInBytes, String.toList_ofList]

theorem parts_inBytes (body : List Char) :
    ((splitAt '/' (Text.inBytes body)).filter (!isFiller ·)).map ofPart =
      (((splitAt '/' body).filter (!isFiller ·)).map ofPart).map Component.inBytes := by
  have kept : (fun part => !isFiller part) ∘ Text.inBytes = (!isFiller ·) :=
    funext fun part => congrArg _ (isFiller_inBytes part)
  rw [splitAt_inBytes (by decide), List.filter_map, kept, List.map_map, List.map_map]
  exact List.map_congr_left fun part _ => ofPart_inBytes part

theorem components_inBytes (p : Path) :
    p.inBytes.components = p.components.map Component.inBytes := by
  obtain ⟨front, body, before, led, kept, -, led', -⟩ := lead_inBytes p.text.toList
  simp only [components, toList_inBytes, led, led', List.map_append, kept, parts_inBytes]

theorem isAbsolute_inBytes (p : Path) : p.inBytes.isAbsolute = p.isAbsolute := by
  rw [isAbsolute, isAbsolute, toList_inBytes]
  cases p.text.toList with
  | nil => rfl
  | cons c r =>
    by_cases root : c = '/'
    · rw [root, inBytes_ascii (by decide)]
      rfl
    · obtain ⟨x, more, written, other⟩ := inBytes_cons c r
      have apart : x ≠ '/' := other '/' (by decide) root
      rw [written, Bool.eq_iff_iff]
      simp [root, apart]

theorem shown_inBytes (p : Path) : p.inBytes.shown = p.text := showName_inBytes p.text

theorem dropFillers_inBytes (parts : List (List Char)) :
    (parts.map Text.inBytes).dropWhile isFiller = (parts.dropWhile isFiller).map Text.inBytes := by
  have kept : isFiller ∘ Text.inBytes = isFiller := funext isFiller_inBytes
  rw [List.dropWhile_map, kept]

theorem parent_inBytes (p : Path) : p.inBytes.parent = p.parent.map inBytes := by
  obtain ⟨front, body, before, led, -, split, led', split'⟩ := lead_inBytes p.text.toList
  have front' : (p.text.toList).take (p.text.toList.length - body.length) = before := by
    rw [split, List.length_append, Nat.add_sub_cancel, List.take_left]
  have front'' : (Text.inBytes p.text.toList).take ((Text.inBytes p.text.toList).length -
      (Text.inBytes body).length) = before := by
    rw [split', List.length_append, Nat.add_sub_cancel, List.take_left]
  have parts : splitAt '/' (Text.inBytes body) = (splitAt '/' body).map Text.inBytes :=
    splitAt_inBytes (by decide) body
  simp only [parent, toList_inBytes, led, led', front', front'', parts, ← List.map_reverse,
    dropFillers_inBytes]
  have before' : Text.inBytes before = before := by
    rw [split, inBytes_append] at split'
    exact List.append_cancel_right split'
  cases (splitAt '/' body).reverse.dropWhile isFiller with
  | nil => by_cases here : front = [.here] <;> simp [here, inBytes, ofBytes, encode, spell]
  | cons last earlier =>
    simp only [List.map_cons, Option.map_some, dropFillers_inBytes, ← List.map_reverse]
    rw [← inBytes_joinWith (by decide), inBytes, String.toList_ofList, ofBytes, ← Text.inBytes,
      inBytes_append, before']

theorem fileName_inBytes (p : Path) : p.inBytes.fileName = p.fileName.map nameInBytes := by
  rw [fileName, fileName, components_inBytes, List.getLast?_map]
  cases p.components.getLast? with
  | none => rfl
  | some last => cases last <;> rfl

theorem stripComponents_inBytes (base path : List Component) :
    stripComponents (base.map Component.inBytes) (path.map Component.inBytes) =
      (stripComponents base path).map (·.map Component.inBytes) := by
  induction base generalizing path with
  | nil => cases path <;> rfl
  | cons b base ih =>
    cases path with
    | nil => rfl
    | cons c path =>
      simp only [List.map_cons, stripComponents, Component.inBytes_injective.eq_iff, ih]
      split <;> rfl

theorem isUnder_inBytes (p base : Path) : p.inBytes.isUnder base.inBytes = p.isUnder base := by
  rw [isUnder, isUnder, components_inBytes, components_inBytes, stripComponents_inBytes,
    Option.isSome_map]

theorem same_inBytes (p q : Path) : p.inBytes.same q.inBytes = p.same q := by
  rw [Bool.eq_iff_iff, same_iff, same_iff, components_inBytes, components_inBytes,
    (List.map_injective_iff.mpr Component.inBytes_injective).eq_iff]

theorem lessComponents_inBytes (as bs : List Component) :
    lessComponents (as.map Component.inBytes) (bs.map Component.inBytes) = lessComponents as bs := by
  induction as generalizing bs with
  | nil => cases bs <;> rfl
  | cons a as ih =>
    cases bs with
    | nil => rfl
    | cons b bs =>
      have same : (a.inBytes == b.inBytes) = (a == b) := by
        rw [Bool.eq_iff_iff, beq_iff_eq, beq_iff_eq, Component.inBytes_injective.eq_iff]
      rw [List.map_cons, List.map_cons, lessComponents, lessComponents, Component.less_inBytes, same,
        ih]

theorem less_inBytes (p q : Path) : p.inBytes.less q.inBytes = p.less q := by
  rw [less, less, components_inBytes, components_inBytes, lessComponents_inBytes]

theorem shown_texts (texts : List Component) :
    String.intercalate "/" ((texts.map Component.inBytes).map (showName ·.text)) =
      ofComponents texts := by
  rw [List.map_map]
  exact congrArg _ (List.map_congr_left fun c _ => c.showName_inBytes)

theorem shownFrom_inBytes (p base : Path) :
    p.inBytes.shownFrom base.inBytes = p.relativeTo base := by
  rw [shownFrom, relativeTo, components_inBytes, components_inBytes, stripComponents_inBytes]
  cases stripComponents base.components p.components <;> exact shown_texts _

end Path

namespace Context

open PluginAudit.Path

variable {p q : Path} {paths candidates : List Path} {main : Path}

theorem insertPath_inBytes (p : Path) (paths : List Path) :
    insertPath p.inBytes (paths.map Path.inBytes) = (insertPath p paths).map Path.inBytes := by
  induction paths with
  | nil => rfl
  | cons q rest ih =>
    rw [List.map_cons, insertPath, insertPath, less_inBytes, ih]
    split <;> rfl

theorem sortPaths_inBytes (paths : List Path) :
    sortPaths (paths.map Path.inBytes) = (sortPaths paths).map Path.inBytes := by
  induction paths with
  | nil => rfl
  | cons p rest ih =>
    have inserted : sortPaths (p :: rest) = insertPath p (sortPaths rest) := rfl
    rw [inserted, ← insertPath_inBytes, ← ih]
    rfl

theorem dropRepeats_inBytes (paths : List Path) :
    dropRepeats (paths.map Path.inBytes) = (dropRepeats paths).map Path.inBytes := by
  induction paths with
  | nil => rfl
  | cons p rest ih =>
    cases rest with
    | nil => rfl
    | cons q more =>
      obtain ⟨later, kept, -⟩ := dropRepeats_cons q more
      rw [List.map_cons] at ih
      rw [List.map_cons, List.map_cons, dropRepeats, dropRepeats, same_inBytes, ih, kept]
      split <;> rfl

theorem pluginFiles_inBytes (root main : Path) (candidates : List Path) :
    pluginFiles root.inBytes main.inBytes (candidates.map Path.inBytes) =
      (pluginFiles root main candidates).map Path.inBytes := by
  have under : (fun p : Path => p.isUnder root.inBytes) ∘ Path.inBytes = (·.isUnder root) :=
    funext fun p => by rw [Function.comp_apply, isUnder_inBytes]
  have same : (fun p : Path => p.same main.inBytes) ∘ Path.inBytes = (·.same main) :=
    funext fun p => by rw [Function.comp_apply, same_inBytes]
  simp only [pluginFiles, List.filter_map, under, List.any_map, same]
  split
  · rw [sortPaths_inBytes, dropRepeats_inBytes]
  · rw [← List.map_singleton, ← List.map_append, sortPaths_inBytes, dropRepeats_inBytes]

theorem rootOf_inBytes (main : Path) :
    rootOfBytes main.inBytes = (rootOf main).map Path.inBytes := by
  unfold rootOfBytes rootOf
  rw [isAbsolute_inBytes, shown_inBytes, parent_inBytes]
  cases main.isAbsolute <;> cases main.parent <;> rfl

theorem nameOf_inBytes (p : Path) : nameOfBytes p.inBytes = nameOf p := by
  unfold nameOfBytes nameOf
  rw [fileName_inBytes, shown_inBytes]
  cases p.fileName with
  | none => rfl
  | some name => rw [Option.map_some, Option.bind_some, readName?_inBytes]

/-- The same context, its paths by their bytes. -/
def inBytes (context : Context) : Context :=
  { context with
    mainFile := context.mainFile.inBytes
    root := context.root.inBytes
    files := context.files.map Path.inBytes }

/-- Paths that are texts make the same context by their bytes, or are refused for the same reason. -/
theorem ofBytes_inBytes (main : Path) (candidates : List Path) :
    ofBytes (Text.encode main.text.toList) (candidates.map fun p => Text.encode p.text.toList) =
      (ofDirectory main candidates).map inBytes := by
  have paths : (candidates.map fun p => Text.encode p.text.toList).map Path.ofBytes =
      candidates.map Path.inBytes := List.map_map
  unfold ofBytes ofDirectory
  rw [paths, ← Path.inBytes]
  simp only [rootOf_inBytes]
  cases rootOf main with
  | error e => rfl
  | ok root =>
    simp only [Except.map, bind, Except.bind, nameOf_inBytes, pluginFiles_inBytes]
    cases nameOf root with
    | error e => rfl
    | ok slug => cases nameOf main <;> rfl

theorem shown_inBytes (context : Context) (p : Path) :
    context.inBytes.shown p.inBytes = context.relative p := shownFrom_inBytes p context.root

end Context

end PluginAudit
