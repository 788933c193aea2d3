import PluginAudit.Entries
import PluginAudit.Readme.Section

/-!
Reading a readme: a title, headers, a short description of one paragraph, and sections. A reader
never fails; what it had to leave out is told in warnings.
-/

namespace PluginAudit

namespace Readme

structure Warning where
  key : String
  message : String
deriving DecidableEq

def descriptionLimit : Nat := 150

def tagLimit : Nat := 5

def uselessTags : List (List Char) := ["plugin".toList, "wordpress".toList]

/-- The lines that count: byte order marks at their heads are dropped, and the blank lines before
the first other line. -/
def linesOf (source : List Char) : List (List Char) :=
  ((Text.lines source).map fun l => l.dropWhile (· == '\uFEFF')).dropWhile Text.allBlank

/-- What has been read when the sections begin. -/
structure Opening where
  headers : List (String × String)
  description : List (List Char)
  heading : Option (List Char)
  rest : List (List Char)

/-- The paragraph that goes on in `lines`; a heading or a blank line ends it. -/
def readParagraph (headers : List (String × String)) (read : List (List Char)) :
    (lines : List (List Char)) → Opening
  | [] => ⟨headers, read.reverse, none, []⟩
  | line :: rest =>
    if isHeading line then ⟨headers, read.reverse, some line, rest⟩
    else if Text.allBlank line then ⟨headers, read.reverse, none, rest⟩
    else readParagraph headers (Text.trim line :: read) rest

/-- The first paragraph after the headers, unless a heading comes first. -/
def readDescription (headers : List (String × String)) (lines : List (List Char)) : Opening :=
  match lines.dropWhile Text.allBlank with
  | [] => ⟨headers, [], none, []⟩
  | line :: rest =>
    if isHeading line then ⟨headers, [], some line, rest⟩
    else readParagraph headers [Text.trim line] rest

/-- Headers run to the first blank line after one of them, to a heading or to a line of text,
which begins the description. -/
def readOpening (headers : List (String × String)) : (lines : List (List Char)) → Opening
  | [] => ⟨headers, [], none, []⟩
  | line :: rest =>
    if Text.allBlank line then
      if headers.isEmpty then readOpening headers rest else readDescription headers rest
    else if isHeading line then ⟨headers, [], some line, rest⟩
    else
      match headerOf? line with
      | some (key, value) => readOpening (Entries.put (.ofList key) (.ofList value) headers) rest
      | none => readParagraph headers [Text.trim line] rest

/-- The title, if the first line holds one, and the lines after it. -/
def readTitle (lines : List (List Char)) : List Char × List (List Char) :=
  match lines with
  | [] => ([], [])
  | line :: rest => if isTitle line then (markedText line, rest) else ([], line :: rest)

/-- The parts of a list between commas, without blanks around them and without empty ones. -/
def listed (value : String) : List (List Char) :=
  ((Text.splitAt ',' value.toList).map Text.trim).filter (!·.isEmpty)

def commaJoined (parts : List (List Char)) : String :=
  .ofList (Text.joinWith ", ".toList parts)

def descriptionWarning : Warning where
  key := "trimmed_short_description"
  message := "The \"Short Description\" section is too long and was truncated. A maximum of " ++
    descriptionLimit.repr ++ " characters is supported."

def tagsWarning (ignored : List (List Char)) : Warning where
  key := "ignored_tags"
  message := "One or more tags were ignored. Please remove the following tags: " ++
    commaJoined ignored

def manyTagsWarning : Warning where
  key := "too_many_tags"
  message := "One or more tags were ignored. Please limit your plugin to " ++ tagLimit.repr ++
    " tags."

def contributorsWarning (refused : List (List Char)) : Warning where
  key := "contributor_ignored"
  message := "One or more contributors listed were ignored. The \"Contributors\" field should " ++
    "only contain WordPress.org usernames: " ++ commaJoined refused

def versionWarning (key field kind sample : String) : Warning where
  key
  message := "The \"" ++ field ++ "\" field was ignored. This field should only contain a " ++
    kind ++ " such as \"" ++ sample ++ "\"."

/-- The tags that count, and the warnings about the others. -/
def tagsOf (value : String) : List (List Char) × List Warning :=
  let tags := ((Text.splitAt ',' value.toList).map fun t => Text.lower (Text.trim t)).filter
    (!·.isEmpty)
  let ignored := tags.filter uselessTags.contains
  let kept := tags.filter (!uselessTags.contains ·)
  (kept.take tagLimit,
    (if ignored.isEmpty then [] else [tagsWarning ignored]) ++
      if tagLimit < kept.length then [manyTagsWarning] else [])

/-- A header's value if it is a version, or else the warning about it. -/
def readVersion (headers : List (String × String)) (header : String) (warning : Warning) :
    Option String × List Warning :=
  match headers.lookup header with
  | none => (none, [])
  | some value => if isVersion value.toList then (some value, []) else (none, [warning])

def sectionWarning (s : Section) : List Warning :=
  let key := keyOfTitle s.title
  let limit := wordLimit key
  if limit < s.words then
    [⟨"trimmed_section_" ++ key, "The \"" ++ .ofList s.title ++
      "\" section is too long and was truncated. A maximum of " ++ limit.repr ++
      " words is supported."⟩]
  else []

end Readme

structure Readme where
  name : String
  /-- Values by header names in small letters, in ascending order of the names. -/
  headers : List (String × String)
  shortDescription : String
  tags : List String
  contributors : List String
  /-- Listed contributors that are no usernames. -/
  invalidContributors : List String
  requires : Option String
  tested : Option String
  requiresPhp : Option String
  /-- The keys of the sections in the order of their appearance. -/
  sections : List String
  warnings : List Readme.Warning

namespace Readme

/-- Reads a readme. The two versions are quoted in warnings. -/
def ofChars (source : List Char) (stableVersion recommendedPhp : String) : Readme :=
  let (name, body) := readTitle (linesOf source)
  let opening := readOpening [] body
  let headers := opening.headers
  let description := Text.joinWith [' '] opening.description
  let (tags, tagWarnings) :=
    match headers.lookup "tags" with
    | some value => tagsOf value
    | none => ([], [])
  let contributors := (headers.lookup "contributors").elim [] listed
  let refused := contributors.filter (!isUsername ·)
  let (tested, testedWarnings) := readVersion headers "tested up to"
    (versionWarning "tested_header_ignored" "Tested up to" "valid WordPress version"
      stableVersion)
  let (requires, requiresWarnings) := readVersion headers "requires at least"
    (versionWarning "requires_header_ignored" "Requires at least" "valid WordPress version"
      stableVersion)
  let (requiresPhp, phpWarnings) := readVersion headers "requires php"
    (versionWarning "requires_php_header_ignored" "Requires PHP" "PHP version" recommendedPhp)
  let sections := sectionsFrom (opening.heading.bind headingTitle?) 0 opening.rest
  { name := .ofList name
    headers
    shortDescription := .ofList (description.take descriptionLimit)
    tags := tags.map .ofList
    contributors := (contributors.filter isUsername).map .ofList
    invalidContributors := refused.map .ofList
    requires
    tested
    requiresPhp
    sections := sections.map fun s => keyOfTitle s.title
    warnings :=
      (if descriptionLimit < description.length then [descriptionWarning] else []) ++ tagWarnings ++
        (if refused.isEmpty then [] else [contributorsWarning refused]) ++ testedWarnings ++
        requiresWarnings ++ phpWarnings ++ sections.flatMap sectionWarning }

def ofSource (source : String) (stableVersion recommendedPhp : String) : Readme :=
  ofChars source.toList stableVersion recommendedPhp

/-- A header's value, unless it is empty; the case of the name does not matter. -/
def header? (readme : Readme) (name : String) : Option String :=
  (readme.headers.lookup name.asciiLowered).filter (!·.isEmpty)

def stableTag? (readme : Readme) : Option String := readme.header? "stable tag"

def license? (readme : Readme) : Option String := readme.header? "license"

def donateLink? (readme : Readme) : Option String := readme.header? "donate link"

end Readme

end PluginAudit
