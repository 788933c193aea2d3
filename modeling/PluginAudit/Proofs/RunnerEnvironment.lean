import PluginAudit.Proofs.JsonRoundTrip
import PluginAudit.Proofs.ReadableText
import PluginAudit.Runner.Loading

/-!
What a runner sees of the environment it is started from. Nothing but the variables that are allowed
reaches it, and of these only what can be read as a text; the request overrules all others, and the
overrides are read from their variable as they are in the request.
-/

namespace PluginAudit

namespace Runner

open Entries

variable {r : Runner} {parent other : List (String × String)} {request : Load.Request}
  {name value : String}

/-- What a variable holds. Of several with one name the last counts. -/
def held (settings : List (String × String)) (name : String) : Option String :=
  settings.reverse.lookup name

/-- The names of the variables that tell the request. -/
def requestNames : List String := ["PLUGIN_CHECK_TABLE_PREFIX", "PLUGIN_CHECK_PLUGIN_FILE",
  "PLUGIN_CHECK_PLUGIN_BASENAME", "PLUGIN_CHECK_OVERRIDES"]

theorem requestVariables_nodup (request : Load.Request) :
    ((requestVariables request).map Prod.fst).Nodup := by
  change requestNames.Nodup
  decide

theorem held_requestVariables (request : Load.Request) (name : String) :
    held (requestVariables request) name = (requestVariables request).lookup name :=
  (lookup_perm (requestVariables_nodup request) (List.reverse_perm _).symm name).symm

theorem lookup_requestVariables_eq_none (free : name ∉ requestNames) :
    (requestVariables request).lookup name = none := by
  refine Option.not_isSome_iff_eq_none.mp fun there => free ?_
  exact mem_keys_iff.mpr there

theorem lookup_environment (r : Runner) (parent : List (String × String))
    (request : Load.Request) (name : String) :
    (r.environment parent request).lookup name = ((requestVariables request).lookup name).or
      (if name ∈ r.allowed then held parent name else none) := by
  have allowed := lookup_filter (r.allowed.contains ·) name parent.reverse
  rw [environment, lookup_ofList_last, List.reverse_append, List.lookup_append,
    ← List.filter_reverse, allowed, ← held, ← held, held_requestVariables]
  simp only [List.contains_iff_mem]

theorem lookup_environment_free (free : name ∉ requestNames) :
    (r.environment parent request).lookup name =
      if name ∈ r.allowed then held parent name else none := by
  rw [lookup_environment, lookup_requestVariables_eq_none free, Option.none_or]

theorem lookup_environment_request (told : (name, value) ∈ requestVariables request) :
    (r.environment parent request).lookup name = some value := by
  rw [lookup_environment, lookup_of_mem (requestVariables_nodup request) told, Option.some_or]

theorem environment_eq_iff : r.environment parent request = r.environment other request ↔
    ∀ name ∈ r.allowed, name ∉ requestNames → held parent name = held other name := by
  constructor
  · intro same name listed free
    have found := congrArg (List.lookup name) same
    rwa [lookup_environment_free free, lookup_environment_free free, if_pos listed,
      if_pos listed] at found
  · intro agree
    refine (ascending_ofList _).ext (ascending_ofList _) fun name => ?_
    by_cases free : name ∈ requestNames
    · obtain ⟨⟨_, value⟩, told, rfl⟩ := List.mem_map.mp
        (show name ∈ (requestVariables request).map Prod.fst from free)
      exact (lookup_environment_request told).trans (lookup_environment_request told).symm
    · refine (lookup_environment_free free).trans (Eq.trans ?_ (lookup_environment_free free).symm)
      split
      · rename_i listed
        exact agree name listed free
      · rfl

section Bytes

variable {parent other : List (Text.Bytes × Text.Bytes)} {bytes : Text.Bytes}

/-- What a parent holds under a name, in bytes. -/
def valuesOf (parent : List (Text.Bytes × Text.Bytes)) (name : String) : List Text.Bytes :=
  (parent.filter (·.1 == Text.encode name.toList)).map Prod.snd

/-- What a variable of the parent tells: the last of its values that is a text. -/
def told (parent : List (Text.Bytes × Text.Bytes)) (name : String) : Option String :=
  ((valuesOf parent name).filterMap fun value => (Text.decode? value).map .ofList).getLast?

theorem held_readable_one (name : String) (first : Text.Bytes × Text.Bytes) :
    held (readable [first]) name = told [first] name := by
  obtain ⟨spelled, content⟩ := first
  cases read : Text.decode? spelled with
  | none =>
    -- A name that is no text is no name that is asked for.
    have other : (spelled == Text.encode name.toList) = false := by
      rw [beq_eq_false_iff_ne]
      rintro rfl
      rw [Text.decode?_encode] at read
      cases read
    simp [readable, held, told, valuesOf, read, other]
  | some cs =>
    obtain rfl := Text.decode?_eq_some_iff.mp read
    by_cases same : cs = name.toList
    · subst same
      cases value : Text.decode? content <;> simp [readable, held, told, valuesOf, read, value]
    · have other : (Text.encode cs == Text.encode name.toList) = false := by
        rw [beq_eq_false_iff_ne]
        intro equal
        rw [equal, Text.decode?_encode] at read
        exact same (Option.some.inj read).symm
      have other' : (name == String.ofList cs) = false := by
        rw [beq_eq_false_iff_ne]
        rintro rfl
        exact same String.toList_ofList.symm
      cases value : Text.decode? content <;>
        simp [readable, held, told, valuesOf, read, value, other, other', List.lookup_cons]

/-- Of the variables that are texts the last one of a name is what the parent tells by it. -/
theorem held_readable (parent : List (Text.Bytes × Text.Bytes)) (name : String) :
    held (readable parent) name = told parent name := by
  induction parent with
  | nil => rfl
  | cons first rest ih =>
    have split : readable (first :: rest) = readable [first] ++ readable rest :=
      List.filterMap_append (l := [first])
    have split' : valuesOf (first :: rest) name = valuesOf [first] name ++ valuesOf rest name := by
      rw [valuesOf, ← List.singleton_append, List.filter_append, List.map_append]
      rfl
    have one := held_readable_one name first
    rw [held] at one ih
    rw [held, split, List.reverse_append, List.lookup_append, ih, one, told, told, told, split',
      List.filterMap_append, List.getLast?_append]

/-- In a parent that has every variable once, what is told is what is there. -/
theorem told_eq_some_iff (distinct : (parent.map Prod.fst).Nodup) : told parent name = some value ↔
    (Text.encode name.toList, Text.encode value.toList) ∈ parent := by
  have mem_values (v : Text.Bytes) :
      v ∈ valuesOf parent name ↔ (Text.encode name.toList, v) ∈ parent := by
    simp [valuesOf]
  have reads (v : Text.Bytes) (text : String) :
      (Text.decode? v).map .ofList = some text ↔ v = Text.encode text.toList := by
    rw [Option.map_eq_some_iff, ← Text.decode?_eq_some_iff]
    constructor
    · rintro ⟨cs, read, rfl⟩
      rwa [String.toList_ofList]
    · exact fun read => ⟨text.toList, read, String.ofList_toList⟩
  constructor
  · intro last
    obtain ⟨v, listed, read⟩ := List.mem_filterMap.mp (List.mem_of_getLast? last)
    rw [(reads v value).mp read] at listed
    exact (mem_values _).mp listed
  · intro member
    have only : ∀ text ∈ (valuesOf parent name).filterMap fun v => (Text.decode? v).map .ofList,
        text = value := by
      intro text listed
      obtain ⟨v, there, read⟩ := List.mem_filterMap.mp listed
      have same : v = Text.encode value.toList := congrArg Prod.snd
        (List.inj_on_of_nodup_map distinct ((mem_values v).mp there) member rfl)
      exact Option.some.inj (read.symm.trans ((reads v value).mpr same))
    have some : value ∈ (valuesOf parent name).filterMap fun v => (Text.decode? v).map .ofList :=
      List.mem_filterMap.mpr ⟨_, (mem_values _).mpr member, (reads _ value).mpr rfl⟩
    have last := List.getLast?_eq_some_getLast (List.ne_nil_of_mem some)
    rw [told, last, only _ (List.getLast_mem _)]

end Bytes

/-- The runner's environment has each variable once. The four of the request are as the request
says, whatever the parent holds and whatever is allowed; of the others it has those that are allowed
and that the parent has, if they are texts. Parents that agree about what is allowed start the runner
in one way. The overrides are read again from their variable unless they are nested too deeply. -/
theorem environment_exact (r : Runner) (request : Load.Request) :
    (∀ parent other, (∀ name ∈ r.allowed, valuesOf parent name = valuesOf other name) →
      r.launch parent request = r.launch other request) ∧
    (∀ parent other, r.launch parent request = r.launch other request ↔
      ∀ name ∈ r.allowed, name ∉ requestNames → told parent name = told other name) ∧
    ∀ parent, let given := (r.launch parent request).environment
      Ascending given ∧
      given.lookup "PLUGIN_CHECK_TABLE_PREFIX" = some request.tableNamespace ∧
      given.lookup "PLUGIN_CHECK_PLUGIN_FILE" = some request.pluginFile.text ∧
      given.lookup "PLUGIN_CHECK_PLUGIN_BASENAME" = some request.pluginBasename ∧
      (∀ name value, name ∉ requestNames →
        ((name, value) ∈ given ↔ name ∈ r.allowed ∧ told parent name = some value)) ∧
      ((parent.map Prod.fst).Nodup → ∀ name value, name ∉ requestNames →
        ((name, value) ∈ given ↔ name ∈ r.allowed ∧
          (Text.encode name.toList, Text.encode value.toList) ∈ parent)) ∧
      ∃ text, given.lookup "PLUGIN_CHECK_OVERRIDES" = some text ∧
        ((Json.obj request.overrides).Exact →
          (Json.read? text = some (.obj request.overrides) ↔
            (Json.obj request.overrides).depth < Json.nestingLimit)) := by
  have launch_eq_iff (parent other : List (Text.Bytes × Text.Bytes)) :
      r.launch parent request = r.launch other request ↔
        ∀ name ∈ r.allowed, name ∉ requestNames → told parent name = told other name := by
    simp only [launch, Launch.mk.injEq, environment_eq_iff, held_readable, true_and, and_true]
  refine ⟨fun parent other agree => (launch_eq_iff parent other).mpr fun name listed _ => ?_,
    launch_eq_iff, fun parent => ?_⟩
  · rw [told, told, agree name listed]
  · have ascending : Ascending (r.launch parent request).environment := ascending_ofList _
    have others {name value : String} (free : name ∉ requestNames) :
        (name, value) ∈ (r.launch parent request).environment ↔
          name ∈ r.allowed ∧ told parent name = some value := by
      rw [ascending.mem_iff, launch, lookup_environment_free free, held_readable]
      simp
    refine ⟨ascending, lookup_environment_request (by simp [requestVariables]),
      lookup_environment_request (by simp [requestVariables]),
      lookup_environment_request (by simp [requestVariables]), fun name value => others,
      fun distinct name value free => ?_,
      overridesText request, lookup_environment_request (by simp [requestVariables]),
      fun exact => ?_⟩
    · rw [others free, told_eq_some_iff distinct]
    · have whole : Json.object request.overrides = .obj request.overrides :=
        congrArg Json.obj exact.1.ofList_eq_self
      rw [overridesText, whole]
      exact Json.read?_compact_iff exact

/-- A request whose overrides have something to be escaped. -/
def quotingRequest : Load.Request where
  pluginFile := ⟨"/plugins/demo/demo.php"⟩
  pluginBasename := "demo/demo.php"
  tableNamespace := "wppc_run1_"
  overrides := [("active_plugins", .arr [.str "demo/demo.php"]), ("label", .str "\"x\"\n")]

/-- Variables of a parent that are texts. -/
def textVariables (settings : List (String × String)) : List (Text.Bytes × Text.Bytes) :=
  settings.map fun (name, value) => (Text.encode name.toList, Text.encode value.toList)

/-- A variable whose value is a byte that no character has. -/
def foreignVariable (name : String) : Text.Bytes × Text.Bytes := (Text.encode name.toList, [0xFF])

theorem environment_exact_overruled :
    let r : Runner := ⟨"php", [], ["PATH", "LANG", "PLUGIN_CHECK_OVERRIDES"], 50⟩
    let parent := foreignVariable "LANG" ::
      textVariables [("PLUGIN_CHECK_OVERRIDES", "[]"), ("PATH", "/bin"), ("TOKEN", "a")]
    r.launch parent quotingRequest = r.launch
        (textVariables [("TOKEN", "b"), ("PATH", "/usr/bin"), ("PATH", "/bin")]) quotingRequest ∧
      ("PATH", "/bin") ∈ (r.launch parent quotingRequest).environment ∧
      ∃ text, (r.launch parent quotingRequest).environment.lookup "PLUGIN_CHECK_OVERRIDES" =
          some text ∧ Json.read? text = some (.obj quotingRequest.overrides) := by
  intro r parent
  obtain ⟨-, same, given⟩ := environment_exact r quotingRequest
  obtain ⟨-, -, -, -, -, once, text, found, reads⟩ := given parent
  have member := (once (by decide +kernel) "PATH" "/bin" (by decide +kernel)).mpr
    ⟨by decide +kernel, by decide +kernel⟩
  refine ⟨(same _ _).mpr (by decide +kernel), member, text, found, ?_⟩
  have exact : (Json.obj quotingRequest.overrides).Exact := by
    refine ⟨.cons (by decide +kernel) (.cons (by simp) .nil), ?_⟩
    simp [quotingRequest, Json.ExactMembers, Json.ExactItems, Json.Exact]
  exact (reads exact).mpr (by decide +kernel)

/-- A variable that is allowed and that the parent has is left out if it is no text. -/
theorem environment_lacks : ¬∀ (r : Runner) (parent : List (Text.Bytes × Text.Bytes))
    (request : Load.Request), ∀ name ∈ r.allowed, valuesOf parent name ≠ [] →
      ∃ value, (name, value) ∈ (r.launch parent request).environment := by
  intro complete
  let r : Runner := ⟨"php", [], ["PATH"], 50⟩
  obtain ⟨value, member⟩ := complete r [foreignVariable "PATH"] quotingRequest "PATH"
    (by decide) (by decide +kernel)
  have absent : "PATH" ∉ (r.launch [foreignVariable "PATH"] quotingRequest).environment.map
      Prod.fst := by decide +kernel
  exact absent (List.mem_map.mpr ⟨_, member, rfl⟩)

end Runner

end PluginAudit
