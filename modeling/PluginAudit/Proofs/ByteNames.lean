import PluginAudit.Proofs.PathBytes

/-!
The files of a plugin by their bytes. They are gathered as paths are, whatever their bytes; but a
record of findings knows a file by a text, and this tells two files apart only if their names are
texts.
-/

namespace PluginAudit

namespace Text

variable {mark : Char} {cs part : List Char}

theorem spell_spelled (bytes : ∀ c ∈ cs, c.toNat < 256) : spell (spelled cs) = cs := by
  rw [spelled, spell, List.map_map]
  refine (List.map_congr_left fun c member => ?_).trans (List.map_id cs)
  rw [Function.comp_apply, toNat_byte (bytes c member), Char.ofNat_toNat, id]

theorem mem_spell (bytes : Bytes) : ∀ c ∈ spell bytes, c.toNat < 256 := by
  intro c member
  obtain ⟨b, -, rfl⟩ := List.mem_map.mp member
  rw [toNat_spell]
  exact b.toNat_lt

theorem mem_inBytes (low : mark.toNat < 0x80) (member : mark ∈ cs) : mark ∈ inBytes cs := by
  obtain ⟨before, behind, rfl⟩ := List.append_of_mem member
  rw [inBytes_append, inBytes_ascii low]
  exact List.mem_append_right _ List.mem_cons_self

theorem splitAt_subset (member : part ∈ splitAt mark cs) : part ⊆ cs := by
  intro c inside
  obtain ⟨before, behind, parts⟩ := List.append_of_mem member
  rw [← joinWith_splitAt mark cs, parts]
  cases before with
  | nil =>
    rw [List.nil_append, joinWith_cons]
    exact List.mem_append_left _ inside
  | cons first others =>
    rw [List.cons_append, joinWith_cons, List.flatMap_append, List.flatMap_cons]
    exact List.mem_append_right _ (List.mem_append_right _
      (List.mem_append_left _ (List.mem_cons_of_mem _ inside)))

end Text

namespace Path

open Text

variable {p q base : Path} {c : Component} {cs rest : List Component} {body : List Char}

theorem readName?_eq_some {name text : String} (bytes : ∀ c ∈ name.toList, c.toNat < 256)
    (read : readName? name = some text) : name = nameInBytes text := by
  obtain ⟨chars, decoded, rfl⟩ := Option.map_eq_some_iff.mp read
  rw [nameInBytes, String.toList_ofList, Text.inBytes, ← decode?_eq_some_iff.mp decoded,
    spell_spelled bytes, String.ofList_toList]

theorem text_of_mem_steps (member : c ∈ steps body) : c.text.toList ⊆ body := by
  obtain ⟨part, kept, rfl⟩ := List.mem_map.mp member
  rw [text_ofPart]
  exact splitAt_subset (List.mem_filter.mp kept).1

theorem Component.isStep_name {name : String} (step : (Component.name (nameInBytes name)).IsStep) :
    (Component.name name).IsStep := by
  obtain ⟨separate, counts, stands⟩ := step
  simp only [Component.text, nameInBytes, String.toList_ofList] at separate counts stands
  rw [isFiller_inBytes] at counts
  rw [ofPart_inBytes] at stands
  exact ⟨mt (mem_inBytes (by decide)) separate, counts, inBytes_injective stands⟩

/-- A name that is a text is the name of that text. -/
theorem Component.IsStep.exists_text (step : c.IsStep) (bytes : ∀ x ∈ c.text.toList, x.toNat < 256)
    (legible : (readName? c.text).isSome) : ∃ t : Component, t.IsStep ∧ c = t.inBytes := by
  cases c with
  | root => exact absurd step.1 (by decide)
  | here => exact absurd step.2.1 (by decide)
  | up => exact ⟨.up, step, rfl⟩
  | name s =>
    obtain ⟨text, read⟩ := Option.isSome_iff_exists.mp legible
    obtain rfl := readName?_eq_some bytes read
    exact ⟨.name text, isStep_name step, rfl⟩

/-- Names that can be read are those that texts are written with. -/
theorem exists_texts (steps : ∀ c ∈ rest, c.IsStep)
    (bytes : ∀ c ∈ rest, ∀ x ∈ c.text.toList, x.toNat < 256)
    (legible : ∀ c ∈ rest, (readName? c.text).isSome) :
    ∃ texts : List Component, (∀ t ∈ texts, t.IsStep) ∧ rest = texts.map Component.inBytes := by
  induction rest with
  | nil => exact ⟨[], List.forall_mem_nil _, rfl⟩
  | cons c rest ih =>
    rw [List.forall_mem_cons] at steps bytes legible
    obtain ⟨t, step, rfl⟩ := steps.1.exists_text bytes.1 legible.1
    obtain ⟨texts, valid, rfl⟩ := ih steps.2 bytes.2 legible.2
    exact ⟨t :: texts, List.forall_mem_cons.mpr ⟨step, valid⟩, rfl⟩

theorem bytes_below {bytes : Bytes} (spelled : p = .ofBytes bytes) (above : base.isAbsolute = true)
    (absolute : p.isAbsolute = true) (below : p.components = base.components ++ rest) :
    ∀ c ∈ rest, ∀ x ∈ c.text.toList, x.toNat < 256 := by
  obtain ⟨upper, upward⟩ := isAbsolute_iff.mp above
  obtain ⟨body, written⟩ := isAbsolute_iff.mp absolute
  rw [components_of_absolute upward, components_of_absolute written, List.cons_append,
    List.cons.injEq] at below
  have all : p.text.toList = spell bytes := by
    rw [spelled]
    exact String.toList_ofList
  intro c member x inside
  have part : x ∈ body := text_of_mem_steps (below.2 ▸ List.mem_append_right _ member) inside
  exact mem_spell bytes x (all ▸ written ▸ List.mem_cons_of_mem _ part)

/-- Below a base no two paths of bytes are shown alike if their names are texts. -/
theorem shownFrom_inj {bytes bytes' : Bytes} (spelled : p = .ofBytes bytes)
    (spelled' : q = .ofBytes bytes') (above : base.isAbsolute = true)
    (below : base.components <+: p.components) (below' : base.components <+: q.components)
    (legible : p.legibleFrom base = true) (legible' : q.legibleFrom base = true)
    (shown : p.shownFrom base = q.shownFrom base) : p.components = q.components := by
  have texts {r : Path} {bytes : Bytes} (spelled : r = .ofBytes bytes)
      (below : base.components <+: r.components) (legible : r.legibleFrom base = true) :
      ∃ texts : List Component, (∀ t ∈ texts, t.IsStep) ∧
        r.components = base.components ++ texts.map Component.inBytes ∧
          r.shownFrom base = ofComponents texts := by
    have absolute : r.isAbsolute = true := isAbsolute_of_below above below
    obtain ⟨rest, left⟩ := below
    rw [legibleFrom, ← left, List.drop_left, List.all_eq_true] at legible
    obtain ⟨texts, steps, rfl⟩ := exists_texts (isStep_below above absolute left.symm)
      (bytes_below spelled above absolute left.symm) legible
    refine ⟨texts, steps, left.symm, ?_⟩
    rw [shownFrom, ← left, stripComponents_append]
    exact shown_texts texts
  obtain ⟨rest, steps, split, seen⟩ := texts spelled below legible
  obtain ⟨rest', steps', split', seen'⟩ := texts spelled' below' legible'
  rw [seen, seen'] at shown
  rw [split, split', ← steps_ofComponents steps, shown, steps_ofComponents steps']

end Path

namespace Context

open PluginAudit.Path

variable {main : Text.Bytes} {candidates others : List Text.Bytes} {context : Context}

theorem ofBytes_eq_ok : ofBytes main candidates = .ok context ↔
    ∃ root slug name, rootOfBytes (.ofBytes main) = .ok root ∧ nameOfBytes root = .ok slug ∧
      nameOfBytes (.ofBytes main) = .ok name ∧ context = ⟨.ofBytes main, root, slug,
        slug ++ "/" ++ name, pluginFiles root (.ofBytes main) (candidates.map .ofBytes), false⟩ := by
  unfold ofBytes
  cases root : rootOfBytes (.ofBytes main) with
  | error e => simp [root, bind, Except.bind]
  | ok r =>
    cases slug : nameOfBytes r with
    | error e => simp [root, slug, bind, Except.bind]
    | ok s =>
      cases name : nameOfBytes (.ofBytes main) with
      | error e => simp [root, slug, name, bind, Except.bind]
      | ok n => simp [root, slug, name, bind, Except.bind, pure, Except.pure, eq_comm]

theorem rootOfBytes_eq_ok_iff {main root : Path} :
    rootOfBytes main = .ok root ↔ rootOf main = .ok root := by
  unfold rootOfBytes rootOf
  cases main.isAbsolute <;> cases main.parent <;> simp

theorem nameOf_of_nameOfBytes {p : Path} {text : String} (named : nameOfBytes p = .ok text) :
    ∃ name, nameOf p = .ok name := by
  unfold nameOfBytes at named
  unfold nameOf
  cases given : p.fileName with
  | none => simp [given] at named
  | some name => exact ⟨name, rfl⟩

/-- What is gathered by bytes is gathered from paths; only the names are others. -/
theorem exists_named (made : ofBytes main candidates = .ok context) :
    ∃ named, ofDirectory (.ofBytes main) (candidates.map .ofBytes) = .ok named ∧
      named.root = context.root ∧ named.files = context.files := by
  obtain ⟨root, slug, name, above, slugged, named, rfl⟩ := ofBytes_eq_ok.mp made
  obtain ⟨directory, slugged'⟩ := nameOf_of_nameOfBytes slugged
  obtain ⟨file, named'⟩ := nameOf_of_nameOfBytes named
  exact ⟨_, ofDirectory_eq_ok.mpr ⟨root, directory, file, rootOfBytes_eq_ok_iff.mp above, slugged',
    named', rfl⟩, rfl, rfl⟩

/-- Other candidates make a context as well. -/
theorem exists_others (made : ofBytes main candidates = .ok context) (others : List Text.Bytes) :
    ∃ context', ofBytes main others = .ok context' := by
  obtain ⟨root, slug, name, above, slugged, named, -⟩ := ofBytes_eq_ok.mp made
  exact ⟨_, ofBytes_eq_ok.mpr ⟨root, slug, name, above, slugged, named, rfl⟩⟩

/-- The files of a plugin with a directory ascend. They are the candidates below the root and the
main file, one file for all spellings of a path. However the candidates are ordered, repeated and
spelled, the files are the same but for their spelling. All this holds whatever the bytes of their
names; and no two files whose names are texts have one relative path. -/
theorem directory_files_exact (made : ofBytes main candidates = .ok context) :
    ((Path.ofBytes main).isAbsolute = true ∧ (Path.ofBytes main).parent = some context.root) ∧
    (∀ p ∈ context.files, Offers context.root (.ofBytes main) (candidates.map .ofBytes) p) ∧
    (∀ p, Offers context.root (.ofBytes main) (candidates.map .ofBytes) p →
      ∃! file, file ∈ context.files ∧ file.same p = true) ∧
    context.files.Pairwise (fun p q => p.less q = true ∧ p.same q = false) ∧
    (∀ p q : Path, p.Respelled q → p.same q = true) ∧
    (∀ others : List Text.Bytes, Covered (candidates.map .ofBytes) (others.map .ofBytes) →
      Covered (others.map .ofBytes) (candidates.map .ofBytes) →
      ∃ context', ofBytes main others = .ok context' ∧
        context'.files.map Path.components = context.files.map Path.components) ∧
    (∀ p ∈ context.files, ∀ q ∈ context.files, p.legibleFrom context.root = true →
      q.legibleFrom context.root = true → p ≠ q → context.shown p ≠ context.shown q) := by
  obtain ⟨named, made', root, files⟩ := exists_named made
  obtain ⟨above, offered, one, ascend, respelled, covered, -⟩ := ofDirectory_files made'
  rw [root] at above offered one
  rw [files] at offered one ascend covered
  refine ⟨above, offered, one, ascend, respelled, fun others there back => ?_,
    fun p member q member' legible legible' other shown => other ?_⟩
  · obtain ⟨named', gathered, same⟩ := covered _ there back
    obtain ⟨context', made''⟩ := exists_others made others
    obtain ⟨named'', gathered', -, files'⟩ := exists_named made''
    obtain rfl := Except.ok.inj (gathered.symm.trans gathered')
    exact ⟨context', made'', files' ▸ same⟩
  · obtain ⟨rooted, -, name, main_below⟩ := (Formed.directory made').main_below
    obtain ⟨-, -, same, -⟩ := ofDirectory_spec made'
    rw [root] at rooted main_below
    rw [same] at main_below
    have below {p : Path} (member : p ∈ context.files) :
        ∃ bytes, p = .ofBytes bytes ∧ context.root.components <+: p.components := by
      rcases offered p member with rfl | ⟨listed, under⟩
      · exact ⟨main, rfl, _, main_below.symm⟩
      · obtain ⟨bytes, -, rfl⟩ := List.mem_map.mp listed
        exact ⟨bytes, rfl, under⟩
    obtain ⟨bytes, spelled, under⟩ := below member
    obtain ⟨bytes', spelled', under'⟩ := below member'
    rw [← files] at member member'
    exact eq_of_same made' member member' (same_iff.mpr
      (shownFrom_inj spelled spelled' rooted under under' legible legible' shown))

/-- A plugin with a short path, without its files. -/
def brief : Context where
  mainFile := ⟨"/p/p.php"⟩
  root := ⟨"/p"⟩
  slug := "p"
  basename := "p/p.php"
  files := []
  singleFile := false

/-- The bytes of a path in the directory of the plugin. -/
def briefBytes (name : String) : Text.Bytes := Text.encode ("/p/" ++ name).toList

/-- A file of the plugin whose name begins with a byte that is no character. -/
def foreign (b : UInt8) : Text.Bytes := briefBytes "" ++ b :: Text.encode ".php".toList

def briefWith (files : List Text.Bytes) : Context :=
  { brief.inBytes with files := files.map .ofBytes }

/-- Files of which one has been found more than once, and among others. -/
def scattered : List Text.Bytes := [briefBytes "readme.txt", Text.encode "/x.php".toList,
  briefBytes "/inc/./a.php", foreign 0xFF, briefBytes "inc/a.php", Text.encode "inc/a.php".toList,
  briefBytes "readme.txt"]

/-- The same files once more. -/
def tidied : List Text.Bytes := [foreign 0xFF, briefBytes "inc/a.php/", briefBytes "readme.txt",
  Text.encode "inc/a.php".toList, Text.encode "/x.php".toList]

def gathered : Context := briefWith [briefBytes "/inc/./a.php", briefBytes "p.php",
  briefBytes "readme.txt", foreign 0xFF]

theorem ofBytes_brief {candidates files : List Text.Bytes}
    (gathers : pluginFiles brief.inBytes.root brief.inBytes.mainFile (candidates.map .ofBytes) =
      files.map .ofBytes) : ofBytes (briefBytes "p.php") candidates = .ok (briefWith files) := by
  refine ofBytes_eq_ok.mpr ⟨brief.inBytes.root, "p", "p.php", ?_, ?_, ?_, ?_⟩
  · exact rootOf_inBytes brief.mainFile
  · exact nameOf_inBytes brief.root
  · exact nameOf_inBytes brief.mainFile
  · rw [briefWith, ← gathers]
    rfl

theorem directory_files_exact_gathered :
    (∃! file, file ∈ gathered.files ∧ file.same (.ofBytes (briefBytes "inc/a.php")) = true) ∧
      (∃ context', ofBytes (briefBytes "p.php") tidied = .ok context' ∧
        context'.files.map Path.components = gathered.files.map Path.components) ∧
      gathered.shown (.ofBytes (briefBytes "/inc/./a.php")) ≠
        gathered.shown (.ofBytes (briefBytes "readme.txt")) := by
  have made : ofBytes (briefBytes "p.php") scattered = .ok gathered :=
    ofBytes_brief (by decide +kernel)
  obtain ⟨-, -, one, -, -, same, apart⟩ := directory_files_exact made
  have offered : Offers gathered.root (.ofBytes (briefBytes "p.php"))
      (scattered.map .ofBytes) (.ofBytes (briefBytes "inc/a.php")) := .inr (by decide +kernel)
  have covered : Covered (scattered.map .ofBytes) (tidied.map .ofBytes) ∧
      Covered (tidied.map .ofBytes) (scattered.map .ofBytes) := by
    unfold Covered
    decide +kernel
  exact ⟨one _ offered, same _ covered.1 covered.2, apart _ (by decide +kernel) _ (by decide +kernel)
    (by decide +kernel) (by decide +kernel) (by decide +kernel)⟩

/-- Two files whose names differ in a byte that is no character have one relative path. -/
theorem shown_alike : ¬∀ (main : Text.Bytes) (candidates : List Text.Bytes) (context : Context),
    ofBytes main candidates = .ok context → ∀ p ∈ context.files, ∀ q ∈ context.files,
      p ≠ q → context.shown p ≠ context.shown q := by
  intro apart
  have made : ofBytes (briefBytes "p.php") [foreign 0xFF, foreign 0xFE] =
      .ok (briefWith [briefBytes "p.php", foreign 0xFE, foreign 0xFF]) :=
    ofBytes_brief (by decide +kernel)
  exact apart _ _ _ made (.ofBytes (foreign 0xFF)) (by decide +kernel) (.ofBytes (foreign 0xFE))
    (by decide +kernel) (by decide +kernel) (by decide +kernel)

end Context

end PluginAudit
