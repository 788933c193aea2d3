import PluginAudit.Proofs.ContextFiles
import PluginAudit.Proofs.ImageTags
import PluginAudit.Proofs.ReadableText

/-!
What the check for image tags finds. The source files are looked through in the order of their
paths, and each of their tags is found once, at the place where it stands, up to the first file
that cannot be read as a text.
-/

namespace PluginAudit

namespace Context

variable {context : Context} {p : Path} {paths earlier later : List Path}

theorem Formed.withExtension_ascending (formed : context.Formed) (ext : String) :
    (context.withExtension ext).Pairwise (·.less ·) :=
  formed.files_ascending.filter _

/-- In ascending order, what stands before a path is what is less. -/
theorem filter_less (ascending : (earlier ++ p :: later).Pairwise (·.less ·)) :
    (earlier ++ p :: later).filter (·.less p) = earlier := by
  obtain ⟨-, behind, before⟩ := List.pairwise_append.mp ascending
  have above := (List.pairwise_cons.mp behind).1
  have notLess {q : Path} (least : p.order ≤ q.order) : ¬q.less p = true := fun less =>
    absurd (Path.less_iff.mp less) (not_lt.mpr least)
  have front : earlier.filter (·.less p) = earlier :=
    List.filter_eq_self.mpr fun q member => before q member p List.mem_cons_self
  have back : (p :: later).filter (·.less p) = [] := by
    refine List.filter_eq_nil_iff.mpr fun q member => notLess ?_
    rcases List.mem_cons.mp member with rfl | after
    · exact le_rfl
    · exact (Path.less_iff.mp (above q after)).le
  rw [List.filter_append, front, back, List.append_nil]

end Context

namespace ImageCheck

open Text

variable {context : Context} {tree : FileTree} {p : Path} {paths earlier later : List Path}

/-- The warnings about a file, one for each tag of its text. -/
def findingsAt (context : Context) (tree : FileTree) (p : Path) : List Finding :=
  (places (tree.textAt p)).map fun place =>
    ((Finding.warning code message).within (context.relative p)).atPlace place.1 place.2

theorem scan_readable (readable : ∀ p ∈ paths, tree.Readable p) :
    scan context tree paths = (paths.flatMap (findingsAt context tree), .passed) := by
  induction paths with
  | nil => rfl
  | cons p rest ih =>
    obtain ⟨first, others⟩ := List.forall_mem_cons.mp readable
    rw [scan, first.readText, ih others]
    simp only [fileFindings_eq]
    rfl

theorem scan_unreadable (readable : ∀ q ∈ earlier, tree.Readable q) {cause : FileError}
    (unread : tree.readText p = .error cause) (later : List Path) :
    scan context tree (earlier ++ p :: later) =
      (earlier.flatMap (findingsAt context tree), .failed (.file p cause)) := by
  induction earlier with
  | nil =>
    rw [List.nil_append, scan, unread]
    rfl
  | cons q rest ih =>
    obtain ⟨first, others⟩ := List.forall_mem_cons.mp readable
    rw [List.cons_append, scan, first.readText, ih others]
    simp only [fileFindings_eq]
    rfl

theorem first_unreadable (unreadable : ¬∀ p ∈ paths, tree.Readable p) :
    ∃ earlier p later, paths = earlier ++ p :: later ∧ (∀ q ∈ earlier, tree.Readable q) ∧
      ¬tree.Readable p := by
  induction paths with
  | nil => exact absurd nofun unreadable
  | cons p rest ih =>
    by_cases here : tree.Readable p
    · obtain ⟨earlier, q, later, rfl, readable, missing⟩ := ih fun others =>
        unreadable (List.forall_mem_cons.mpr ⟨here, others⟩)
      exact ⟨p :: earlier, q, later, rfl, List.forall_mem_cons.mpr ⟨here, readable⟩, missing⟩
    · exact ⟨[], p, rest, rfl, nofun, here⟩

/-- If all source files can be read, the check succeeds, and its findings are one warning for each
tag in each of them. If not, it fails at the first of them, in ascending order, that cannot, and its
findings are those in the files before. The warnings about a file are in the order of the tags, at
no place twice, and each is at the line and at the column where the tag stands; in files of less
than 2 ^ 32 bytes these are numbers of 32 bits. -/
theorem run_finds_tags (formed : context.Formed) (tree : FileTree)
    (small : ∀ p ∈ context.withExtension "php", ∀ data, tree.read p = .ok data →
      data.length < 2 ^ 32) :
    let php := context.withExtension "php"
    ((∀ p ∈ php, tree.Readable p) →
        run context tree = ⟨(php.flatMap (findingsAt context tree)).map .emit, .passed⟩) ∧
      ((¬∀ p ∈ php, tree.Readable p) → ∃ p ∈ php, ∃ cause, ¬tree.Readable p ∧
        (∀ q ∈ php, q.less p = true → tree.Readable q) ∧ tree.readText p = .error cause ∧
        run context tree =
          ⟨((php.filter (·.less p)).flatMap (findingsAt context tree)).map .emit,
            .failed (.file p cause)⟩) ∧
      php.Pairwise (·.less ·) ∧
      ∀ p ∈ php, ∀ text, tree.Holds p text →
        findingsAt context tree p = (places text).map (fun place =>
          ((Finding.warning "non_enqueued_image" message).within (context.relative p)).atPlace
            place.1 place.2) ∧
        (places text).Pairwise (toLex · < toLex ·) ∧
        ∀ line column, ((line, column) ∈ places text ↔ HasTagAt text line column) ∧
          ((line, column) ∈ places text → line < 2 ^ 32 ∧ column < 2 ^ 32) := by
  intro php
  have ascending := formed.withExtension_ascending "php"
  refine ⟨fun readable => ?_, fun unreadable => ?_, ascending, fun p listed text held => ?_⟩
  · rw [run, scan_readable readable]
  · obtain ⟨earlier, p, later, split, readable, missing⟩ := first_unreadable unreadable
    obtain ⟨cause, unread⟩ := FileTree.error_of_not_readable missing
    have before : php.filter (·.less p) = earlier := by
      change php.Pairwise _ at ascending
      rw [split] at ascending ⊢
      exact Context.filter_less ascending
    refine ⟨p, split ▸ by simp, cause, missing, fun q member less => ?_, unread, ?_⟩
    · exact readable q (before ▸ List.mem_filter.mpr ⟨member, less⟩)
    · have whole : context.withExtension "php" = earlier ++ p :: later := split
      rw [run, whole, scan_unreadable readable unread, before]
  · have size : byteSize text < 2 ^ 32 := by
      rw [← length_encode]
      exact small p listed _ held
    refine ⟨by rw [findingsAt, held.textAt]; rfl, places_ascending text, fun line column => ?_⟩
    refine ⟨mem_places_iff, fun member => ?_⟩
    obtain ⟨line, column⟩ := places_bounded member
    exact ⟨line.trans_lt size, column.trans_lt size⟩

/-- A plugin of two files, whose main file is not a text, and what the other one has to show. -/
def gallery : Context where
  mainFile := ⟨"/shop/shop.php"⟩
  root := ⟨"/shop"⟩
  slug := "shop"
  basename := "shop/shop.php"
  files := [⟨"/shop/list.PHP"⟩, ⟨"/shop/shop.php"⟩]
  singleFile := false

def galleryText : List Char := "<p>\r\né <IMG> <imgé <img\r\n".toList

def galleryTree : FileTree where
  root := .directory [("shop", .directory
    [("list.PHP", .file (encode galleryText)), ("shop.php", .file [0x3C, 0xFF])])]
  current := []

theorem gallery_formed : gallery.Formed :=
  @Context.Formed.directory ⟨"/shop/shop.php"⟩ [⟨"/shop/list.PHP"⟩] gallery (by rfl)

theorem galleryTree_read :
    galleryTree.read ⟨"/shop/list.PHP"⟩ = .ok (encode galleryText) ∧
      galleryTree.read ⟨"/shop/shop.php"⟩ = .ok [0x3C, 0xFF] := by
  have list := @FileTree.read_pathOf ["shop", "list.PHP"] galleryTree (by decide)
    (encode galleryText) rfl (by decide) (by decide)
  have main := @FileTree.read_pathOf ["shop", "shop.php"] galleryTree (by decide)
    [0x3C, 0xFF] rfl (by decide) (by decide)
  exact ⟨list, main⟩

/-- Two of three tags on one line, of which the other one goes on as a word, and a file that is no
text behind them. -/
theorem run_finds_tags_gallery :
    (∀ p ∈ gallery.withExtension "php", ∀ data, galleryTree.read p = .ok data →
        data.length < 2 ^ 32) ∧
      run gallery galleryTree =
        ⟨[.emit ⟨"non_enqueued_image", message, .warning, "list.PHP", 2, 4⟩,
            .emit ⟨"non_enqueued_image", message, .warning, "list.PHP", 2, 17⟩],
          .failed (.file ⟨"/shop/shop.php"⟩ .notText)⟩ := by
  obtain ⟨list, main⟩ := galleryTree_read
  have files : gallery.withExtension "php" = [⟨"/shop/list.PHP"⟩, ⟨"/shop/shop.php"⟩] := by
    decide +kernel
  have small : ∀ p ∈ gallery.withExtension "php", ∀ data, galleryTree.read p = .ok data →
      data.length < 2 ^ 32 := by
    rw [files]
    intro p member data read
    rcases List.mem_pair.mp member with rfl | rfl
    · rw [← Except.ok.inj (list.symm.trans read)]
      decide
    · rw [← Except.ok.inj (main.symm.trans read)]
      decide
  have refused : galleryTree.readText ⟨"/shop/shop.php"⟩ = .error .notText := by
    have none : decode? [0x3C, 0xFF] = .none := by decide +kernel
    simp only [FileTree.readText, main, none]
  obtain ⟨-, failing, -, found⟩ := run_finds_tags gallery_formed galleryTree small
  have unreadable : ¬galleryTree.Readable ⟨"/shop/shop.php"⟩ := fun readable => by
    cases refused.symm.trans readable.readText
  obtain ⟨p, listed, cause, missing, -, unread, result⟩ := failing fun all =>
    unreadable (all _ (by rw [files]; simp))
  rw [files] at listed
  rcases List.mem_pair.mp listed with rfl | rfl
  · exact absurd ⟨galleryText, list⟩ missing
  · obtain ⟨warnings, -⟩ := found ⟨"/shop/list.PHP"⟩ (by rw [files]; simp) galleryText list
    have before : (gallery.withExtension "php").filter (·.less ⟨"/shop/shop.php"⟩) =
        [⟨"/shop/list.PHP"⟩] := by
      decide +kernel
    have tags : places galleryText = [(2, 4), (2, 17)] := by decide +kernel
    have seen : gallery.relative ⟨"/shop/list.PHP"⟩ = "list.PHP" := by decide +kernel
    obtain rfl := Except.error.inj (refused.symm.trans unread)
    rw [before, List.flatMap_singleton, warnings, tags, seen] at result
    exact ⟨small, result⟩

end ImageCheck

end PluginAudit
