import PluginAudit.Check.Basic
import PluginAudit.HeaderBlock
import PluginAudit.License
import PluginAudit.Readme.Reader
import PluginAudit.Version

/-!
The check of a plugin's readme against the header of its main file and against the latest release
of the host software.
-/

namespace PluginAudit.ReadmeCheck

structure Settings where
  versions : ReleaseInfo
  /-- Keys of warnings not to report; none stands for the defaults. -/
  ignored : Option (List String)

def defaultIgnored : List String := ["contributor_ignored"]

def Settings.ignoreList (s : Settings) : IgnoredCodes := ⟨defaultIgnored, s.ignored⟩

def candidateNames : List String := ["readme.txt", "readme.md"]

def placeholderDescription : String := "Here is a short description of the plugin."

def placeholderName : String := "Plugin Name"

def templateNames : List String :=
  ["username", "your-username", "your_username", "yourusername", "your-wordpress-org-username"]

/-- Accounts that never write plugins. -/
def reservedNames : List String :=
  ["admin", "administrator", "root", "wordpress", "wordpressdotorg"]

def containsText (pattern text : String) : Bool := Text.contains pattern.toList text.toList

def nameFindings (readme : Readme) (headers : HeaderBlock) : List Finding :=
  if readme.name.isEmpty then
    [.error "empty_plugin_name" ("The plugin name header in the readme is missing. Use " ++
      "\"=== Plugin Name ===\" as the first line.")]
  else if readme.name = placeholderName then
    [.error "invalid_plugin_name" ("Plugin name \"" ++ readme.name ++
      "\" is not valid. Use the real name of your plugin in the readme.")]
  else
    match headers.name? with
    | some name =>
      if name = readme.name then []
      else [.warning "mismatched_plugin_name" ("Plugin name \"" ++ readme.name ++
        "\" is different from the name declared in the plugin header \"" ++ name ++ "\".")]
    | none => []

def usesPlaceholders (readme : Readme) : Bool :=
  containsText placeholderDescription readme.shortDescription || readme.tags.contains "tag1" ||
    (readme.donateLink?).any (containsText "example.com")

def placeholderFindings (readme : Readme) : List Finding :=
  if usesPlaceholders readme then
    [.error "default_readme_text" ("The readme appears to contain default text. Replace the " ++
      "placeholder content with details of your plugin.")]
  else []

def namedIn (names : List String) (readme : Readme) : List String :=
  readme.contributors.filter fun c => names.any (·.sameIgnoringCase c)

def quotedList (names : List String) : String := String.intercalate "\", \"" names

def contributorFindings (readme : Readme) : List Finding :=
  let restricted := namedIn templateNames readme
  let reserved := namedIn reservedNames readme
  (if restricted.isEmpty then []
    else [.error "readme_restricted_contributors" ("The \"Contributors\" header in the readme " ++
      "file contains restricted username(s). Found: \"" ++ quotedList restricted ++ "\"")]) ++
  (if reserved.isEmpty then []
    else [.warning "readme_reserved_contributors" ("The \"Contributors\" header in the readme " ++
      "file contains reserved username(s). Found: \"" ++ quotedList reserved ++ "\"")]) ++
  if readme.invalidContributors.isEmpty then []
  else [.warning "readme_invalid_contributors" ("The \"Contributors\" header in the readme file " ++
    "must be a comma-separated list of WordPress.org-formatted usernames.")]

def donateFindings (readme : Readme) : List Finding :=
  match readme.donateLink? with
  | some link =>
    if Readme.isUrl link.toList then []
    else [.warning "readme_invalid_donate_link" ("The \"Donate link\" header in the readme " ++
      "file is not a valid URL: \"" ++ link ++ "\"")]
  | none => []

def stableTagFindings (readme : Readme) (headers : HeaderBlock) : List Finding :=
  match readme.stableTag? with
  | none => [.error "no_stable_tag" "Invalid or missing Stable Tag in the readme."]
  | some tag =>
    if tag.sameIgnoringCase "trunk" then
      [.error "trunk_stable_tag" "It's recommended not to use \"Stable Tag: trunk\"."]
    else
      match headers.version? with
      | some version =>
        if version = tag then []
        else [.error "stable_tag_mismatch" ("Mismatched Stable Tag: " ++ tag ++ " != " ++
          version ++ ". The Stable Tag in the readme must match the plugin Version header.")]
      | none => []

/-- A licence that can be declared: an identifier that is compatible by its text or its token. -/
def acceptsLicense (license : String) : Bool :=
  License.isIdentifier license &&
    (License.isCompatible license || License.isCompatible (License.token license))

def licenseFindings (readme : Readme) (headers : HeaderBlock) : List Finding :=
  match readme.license? with
  | none =>
    [.error "no_license" ("Missing \"License\" in the readme. Please update it with a GPLv2 " ++
      "(or later) compatible license.")]
  | some license =>
    (if acceptsLicense license then []
      else [.error "invalid_license" ("Invalid license specified: \"" ++ license ++
        "\". Please use a valid, GPLv2 (or later) compatible license identifier.")]) ++
    match headers.license? with
    | some declared =>
      if License.token declared = License.token license then []
      else [.error "license_mismatch" ("Your plugin has a different license declared in the " ++
        "readme (" ++ license ++ ") and the plugin header (" ++ declared ++ ").")]
    | none => []

/-- What is found about the release with which the plugin has been tested. The check breaks down if it
needs the release after the latest one and that has no number. -/
def testedFindings (readme : Readme) (versions : ReleaseInfo) : Except Breakdown (List Finding) :=
  match readme.tested with
  | none => .ok []
  | some tested =>
    match Version.pair? tested.toList, versions.latest.bind fun v => Version.pair? v.toList with
    | some pair, some latest =>
      if Version.lessPair pair latest then
        .ok [.error "outdated_tested_upto_header" ("Tested up to: " ++ tested ++ " < " ++
          Version.pairText latest ++ ". The \"Tested up to\" value in your plugin is not set " ++
          "to the current version of WordPress.")]
      else
        match Version.next? latest with
        | none => .error .overflow
        | some next =>
          .ok (if Version.lessPair next pair then
            [.error "nonexistent_tested_upto_header" ("Tested up to: " ++ tested ++
              ". This version of WordPress does not exist (yet).")]
          else [])
    | _, _ => .ok []

def warningFindings (readme : Readme) (ignored : IgnoredCodes) : List Finding :=
  (readme.warnings.filter (!ignored.ignores ·.key)).map fun w =>
    .warning ("readme_parser_warnings_" ++ w.key) w.message

/-- What is found before releases are compared. -/
def earlierFindings (readme : Readme) (headers : HeaderBlock) : List Finding :=
  nameFindings readme headers ++ placeholderFindings readme ++ contributorFindings readme ++
    donateFindings readme ++ stableTagFindings readme headers ++ licenseFindings readme headers

def findings (settings : Settings) (readme : Readme) (headers : HeaderBlock) : List Finding :=
  earlierFindings readme headers ++
    match testedFindings readme settings.versions with
    | .ok tested => tested ++ warningFindings readme settings.ignoreList
    | .error _ => []

def ending (settings : Settings) (readme : Readme) : Ending :=
  match testedFindings readme settings.versions with
  | .ok _ => .passed
  | .error how => .broken how

/-- The readme directly in the plugin's root; a name before in the list is preferred. -/
def readmeOf? (context : Context) : Option Path :=
  candidateNames.findSome? fun name =>
    context.files.find? fun f =>
      f.parent.any (·.same context.root) && f.fileName.any (·.sameIgnoringCase name)

/-- A plugin without a directory of its own needs no readme. -/
def run (settings : Settings) : StaticCheck := fun context tree =>
  if context.singleFile then .ofFindings []
  else
    match readmeOf? context with
    | none =>
      .ofFindings [(Finding.error "no_plugin_readme"
        "The plugin readme.txt does not exist.").within "readme.txt"]
    | some path =>
      match tree.readText path, tree.readText context.mainFile with
      | .error e, _ => ⟨[], .failed (.file path e)⟩
      | .ok _, .error e => ⟨[], .failed (.file context.mainFile e)⟩
      | .ok source, .ok main =>
        let versions := settings.versions
        let readme := Readme.ofChars source (versions.stable?.getD "trunk") versions.php
        let file := context.relative path
        .emitting ((findings settings readme (.ofChars main)).map (·.within file))
          (ending settings readme)

end PluginAudit.ReadmeCheck
