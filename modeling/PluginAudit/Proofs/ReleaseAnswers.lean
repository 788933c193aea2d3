import Mathlib.Logic.Relation
import PluginAudit.Proofs.EventMembers
import PluginAudit.Proofs.JsonDocuments
import PluginAudit.Settings

/-!
The answer of a version check. It names the version of its first offer, and whatever else it holds
may change or be added to; the latest version of a run is the one it names, or a given one.
-/

namespace PluginAudit

namespace ReleaseInfo

open Json (Document Laid braced soleMember?)
open Runner.Event (Members named named_append soleMember?_cases)
open Relation (ReflTransGen)

variable {key : String} {members members' : Members} {d : Document}

/-- What is given as the one field of a record, which is an object or a list of its fields. -/
inductive Field (key : String) : Document → Option Document → Prop
  | missing {members : Members} (whole : ∀ m ∈ members, m.1.isSome)
      (silent : named key members = []) : Field key (.obj members) none
  | member {members : Members} {d : Document} (whole : ∀ m ∈ members, m.1.isSome)
      (one : named key members = [(some key, d)]) : Field key (.obj members) (some d)
  | empty : Field key (.arr []) none
  | item {d : Document} : Field key (.arr [d]) (some d)

/-- A version is a text; it may be left out, and may be null. -/
inductive Names : Option Document → Option String → Prop
  | missing : Names none none
  | null : Names (some .null) none
  | text {version : String} : Names (some (.str (some version))) (some version)

/-- An offer names a version, or none. -/
def Offer (offer : Document) (version : Option String) : Prop :=
  ∃ field, Field "current" offer field ∧ Names field version

/-- An answer makes a list of offers, which is empty if it is left out. -/
def Answer (answer : Document) (offers : List Document) : Prop :=
  Field "offers" answer none ∧ offers = [] ∨ Field "offers" answer (some (.arr offers))

/-- Members in any order, and others among them whose names are whole and mean nothing. -/
def Extends (key : String) (members members' : Members) : Prop :=
  ∃ extra, members'.Perm (members ++ extra) ∧ ∀ m ∈ extra, m.1.isSome ∧ m.1 ≠ some key

/-- Offers that are extended in one of them, or at their end if they are not empty. -/
inductive OffersGrown : List Document → List Document → Prop
  | members {before after : List Document} {members members' : Members}
      (grown : Extends "current" members members') :
      OffersGrown (before ++ .obj members :: after) (before ++ .obj members' :: after)
  | further {offers : List Document} {offer : Document} {version : Option String}
      (some : offers ≠ []) (wellFormed : Offer offer version) :
      OffersGrown offers (offers ++ [offer])

/-- An answer that is extended by members of its own, or in its offers. -/
inductive Grown : Document → Document → Prop
  | members {members members' : Members} (grown : Extends "offers" members members') :
      Grown (.obj members) (.obj members')
  | member {before after : Members} {offers offers' : List Document}
      (grown : OffersGrown offers offers') :
      Grown (.obj (before ++ (some "offers", .arr offers) :: after))
        (.obj (before ++ (some "offers", .arr offers') :: after))
  | item {offers offers' : List Document} (grown : OffersGrown offers offers') :
      Grown (.arr [.arr offers]) (.arr [.arr offers'])

section Reading

theorem whole_of_soleMember? {found : Option Document}
    (sole : soleMember? key members = some found) : ∀ m ∈ members, m.1.isSome := by
  induction members generalizing found with
  | nil => exact List.forall_mem_nil _
  | cons m members ih =>
    obtain ⟨_ | k, d⟩ := m
    · cases sole
    · rw [soleMember?] at sole
      split at sole
      · cases sole
      · next later => exact List.forall_mem_cons.mpr ⟨rfl, ih later⟩

theorem soleMember?_iff_field {found : Option Document} :
    soleMember? key members = some found ↔ Field key (.obj members) found := by
  constructor
  · intro sole
    have whole := whole_of_soleMember? sole
    rcases soleMember?_cases key whole with ⟨none, same⟩ | ⟨d, one, same⟩ | ⟨-, same⟩
    all_goals rw [sole] at same; cases same
    · exact .missing whole none
    · exact .member whole one
  · rintro (⟨whole, own⟩ | ⟨whole, own⟩)
    all_goals
      rcases soleMember?_cases key whole with ⟨none, same⟩ | ⟨d, one, same⟩ | ⟨two, -⟩
    · exact same
    · simp [own] at one
    · simp [own] at two
    · simp [own] at none
    · cases own.symm.trans one
      exact same
    · simp [own] at two

theorem textOrNull?_eq_some_iff {version : Option String} :
    textOrNull? d = some version ↔ Names (some d) version := by
  constructor
  · intro read
    cases d with
    | null =>
      cases read
      exact .null
    | str s =>
      cases s <;> cases read
      exact .text
    | _ => cases read
  · rintro (_ | _) <;> rfl

theorem ofOffer?_eq_some_iff {offer : Document} {version : Option String} :
    ofOffer? offer = some version ↔ Offer offer version := by
  constructor
  · intro read
    unfold ofOffer? at read
    split at read
    · next members =>
      split at read
      · cases read
      · next sole =>
        cases read
        exact ⟨_, soleMember?_iff_field.mp sole, .missing⟩
      · next sole =>
        exact ⟨_, soleMember?_iff_field.mp sole, textOrNull?_eq_some_iff.mp read⟩
    · cases read
      exact ⟨_, .empty, .missing⟩
    · exact ⟨_, .item, textOrNull?_eq_some_iff.mp read⟩
    · cases read
  · rintro ⟨field, given, names⟩
    cases given with
    | missing whole none =>
      cases names
      rw [ofOffer?, soleMember?_iff_field.mpr (.missing whole none)]
    | member whole one =>
      rw [ofOffer?, soleMember?_iff_field.mpr (.member whole one)]
      exact textOrNull?_eq_some_iff.mpr names
    | empty =>
      cases names
      rfl
    | item => exact textOrNull?_eq_some_iff.mpr names

theorem ofOffers?_eq_some_iff {versions : List (Option String)} :
    ofOffers? d = some versions ↔
      ∃ offers, d = .arr offers ∧ List.Forall₂ Offer offers versions := by
  cases d with
  | arr offers =>
    simp only [ofOffers?, Document.arr.injEq, exists_eq_left']
    induction offers generalizing versions with
    | nil => cases versions <;> simp
    | cons offer offers ih =>
      simp only [List.mapM_cons, Option.bind_eq_bind, Option.bind_eq_some_iff, Option.pure_def,
        ofOffer?_eq_some_iff, ih, List.forall₂_cons_left_iff]
      constructor
      · rintro ⟨version, first, later, rest, made⟩
        cases made
        exact ⟨version, later, first, rest, rfl⟩
      · rintro ⟨version, later, first, rest, rfl⟩
        exact ⟨version, first, later, rest, rfl⟩
  | _ => simp [ofOffers?]

/-- An answer is accepted if its offers are; its version is that of the first offer. -/
theorem ofAnswer?_eq_some_iff {answer : Document} {info : ReleaseInfo} :
    ofAnswer? answer = some info ↔ ∃ offers versions, Answer answer offers ∧
      List.Forall₂ Offer offers versions ∧ info = ⟨versions.head?.join, none⟩ := by
  have listed : ∀ d, (ofOffers? d).map (fun offers => (⟨offers.head?.join, none⟩ : ReleaseInfo)) =
      some info ↔ ∃ offers versions, d = .arr offers ∧ List.Forall₂ Offer offers versions ∧
        info = ⟨versions.head?.join, none⟩ := by
    intro d
    simp only [Option.map_eq_some_iff, ofOffers?_eq_some_iff]
    constructor
    · rintro ⟨versions, ⟨offers, rfl, each⟩, rfl⟩
      exact ⟨offers, versions, rfl, each, rfl⟩
    · rintro ⟨offers, versions, rfl, each, rfl⟩
      exact ⟨versions, ⟨offers, rfl, each⟩, rfl⟩
  constructor
  · intro read
    unfold ofAnswer? at read
    split at read
    · next members =>
      split at read
      · cases read
      · next sole =>
        cases read
        exact ⟨[], [], .inl ⟨soleMember?_iff_field.mp sole, rfl⟩, .nil, rfl⟩
      · next sole =>
        obtain ⟨offers, versions, rfl, each, rfl⟩ := (listed _).mp read
        exact ⟨offers, versions, .inr (soleMember?_iff_field.mp sole), each, rfl⟩
    · cases read
      exact ⟨[], [], .inl ⟨.empty, rfl⟩, .nil, rfl⟩
    · obtain ⟨offers, versions, rfl, each, rfl⟩ := (listed _).mp read
      exact ⟨offers, versions, .inr .item, each, rfl⟩
    · cases read
  · rintro ⟨offers, versions, ⟨given, rfl⟩ | given, each, rfl⟩
    · cases each
      cases given with
      | missing whole silent =>
        rw [ofAnswer?, soleMember?_iff_field.mpr (.missing whole silent)]
        rfl
      | empty => rfl
    · have read := (listed _).mpr ⟨offers, versions, rfl, each, rfl⟩
      cases given with
      | member whole one => rwa [ofAnswer?, soleMember?_iff_field.mpr (.member whole one)]
      | item => exact read

end Reading

section Growing

theorem Field.extended {field : Option Document} (given : Field key (.obj members) field)
    (grown : Extends key members members') : Field key (.obj members') field := by
  obtain ⟨extra, perm, foreign⟩ := grown
  have none : named key extra = [] :=
    List.filter_eq_nil_iff.mpr fun m member => by simpa using (foreign m member).2
  have own : (named key members').Perm (named key members) := by
    have filtered : (named key members').Perm (named key (members ++ extra)) := perm.filter _
    rwa [named_append, none, List.append_nil] at filtered
  have all : (∀ m ∈ members, m.1.isSome) → ∀ m ∈ members', m.1.isSome := fun whole m member =>
    (List.mem_append.mp (perm.subset member)).elim (whole m) fun other => (foreign m other).1
  cases given with
  | missing whole silent => exact .missing (all whole) (silent ▸ own).eq_nil
  | member whole one => exact .member (all whole) (List.perm_singleton.mp (one ▸ own))

/-- Where a member is, it is the field, and another one may stand in its place. -/
theorem Field.replaced {before after : Members} {field : Option Document}
    (given : Field key (.obj (before ++ (some key, d) :: after)) field) (d' : Document) :
    field = some d ∧ Field key (.obj (before ++ (some key, d') :: after)) (some d') := by
  have parts : ∀ d, named key (before ++ (some key, d) :: after) =
      named key before ++ (some key, d) :: named key after := fun d => by
    rw [named_append]
    simp [named]
  cases given with
  | missing whole silent => simp [parts] at silent
  | member whole one =>
    rw [parts, List.append_eq_singleton_iff] at one
    obtain ⟨first, last⟩ | ⟨-, last⟩ := one
    · obtain ⟨same, none⟩ := List.cons.inj last
      cases same
      have all : ∀ m ∈ before ++ (some key, d') :: after, m.1.isSome := by
        simp only [List.forall_mem_append, List.forall_mem_cons] at whole ⊢
        exact ⟨whole.1, rfl, whole.2.2⟩
      exact ⟨rfl, .member all (by rw [parts, first, none]; rfl)⟩
    · cases last

theorem forall₂_replaced {offer offer' : Document} {before after : List Document}
    {versions : List (Option String)}
    (keeps : ∀ version, Offer offer version → Offer offer' version)
    (each : List.Forall₂ Offer (before ++ offer :: after) versions) :
    List.Forall₂ Offer (before ++ offer' :: after) versions := by
  induction before generalizing versions with
  | nil =>
    cases each with
    | cons first later => exact .cons (keeps _ first) later
  | cons other before ih =>
    cases each with
    | cons first later => exact .cons first (ih later)

/-- Grown offers are well formed, and the first of them names the version that it named. -/
theorem OffersGrown.versions {offers offers' : List Document} {versions : List (Option String)}
    (grown : OffersGrown offers offers') (each : List.Forall₂ Offer offers versions) :
    ∃ versions', List.Forall₂ Offer offers' versions' ∧
      versions'.head?.join = versions.head?.join := by
  cases grown with
  | members extended =>
    refine ⟨versions, forall₂_replaced (fun version => ?_) each, rfl⟩
    rintro ⟨field, given, names⟩
    exact ⟨field, given.extended extended, names⟩
  | @further _ offer version some wellFormed =>
    refine ⟨versions ++ [version], List.rel_append each (.cons wellFormed .nil), ?_⟩
    cases each with
    | nil => exact absurd rfl some
    | cons first later => rfl

theorem Grown.offers {answer answer' : Document} {offers : List Document}
    (grown : Grown answer answer') (makes : Answer answer offers) :
    ∃ offers', Answer answer' offers' ∧ (offers' = offers ∨ OffersGrown offers offers') := by
  cases grown with
  | members extended =>
    refine ⟨offers, ?_, .inl rfl⟩
    exact makes.imp (fun ⟨given, empty⟩ => ⟨given.extended extended, empty⟩)
      fun given => given.extended extended
  | member grown =>
    obtain ⟨given, -⟩ | given := makes
    · cases (given.replaced .null).1
    · obtain ⟨same, placed⟩ := given.replaced (.arr _)
      cases same
      exact ⟨_, .inr placed, .inr grown⟩
  | item grown =>
    obtain ⟨given, -⟩ | given := makes
    · cases given
    · cases given
      exact ⟨_, .inr .item, .inr grown⟩

/-- An answer that grows is accepted as it was. -/
theorem Grown.ofAnswer? {answer answer' : Document} {info : ReleaseInfo}
    (grown : Grown answer answer') (read : ofAnswer? answer = some info) :
    ofAnswer? answer' = some info := by
  obtain ⟨offers, versions, makes, each, rfl⟩ := ofAnswer?_eq_some_iff.mp read
  obtain ⟨offers', makes', rfl | grown⟩ := grown.offers makes
  · exact ofAnswer?_eq_some_iff.mpr ⟨_, versions, makes', each, rfl⟩
  · obtain ⟨versions', each', same⟩ := grown.versions each
    exact ofAnswer?_eq_some_iff.mpr ⟨offers', versions', makes', each', by rw [same]⟩

theorem ofAnswer?_of_reflTransGen {answer answer' : Document} {info : ReleaseInfo}
    (grown : ReflTransGen Grown answer answer') (read : ofAnswer? answer = some info) :
    ofAnswer? answer' = some info := by
  induction grown with
  | refl => exact read
  | tail _ last ih => exact last.ofAnswer? ih

end Growing

theorem ofBody?_eq_some_iff {body : String} {info : ReleaseInfo} : ofBody? body = some info ↔
    ∃ answer, Laid answer.tokens body.toList ∧ ofAnswer? answer = some info := by
  simp only [ofBody?, Option.bind_eq_some_iff, Document.read?_eq_some_iff]

/-- The latest version and the recommended version of PHP of a run, if a version check has named
`named`. -/
structure Settled (source : ReleaseSource) (named : Option String) (info : ReleaseInfo) : Prop where
  latest : info.latest = some (named.getD (source.version.getD CheckSettings.defaultLatest))
  php : ∀ version, info.recommendedPhp = some version ↔
    source.php = some version ∧ ∃ c ∈ version.toList, ¬Text.isBlank c

theorem settled_recommending {source : ReleaseSource} {named : Option String} {info : ReleaseInfo}
    (latest : info.latest = some (named.getD (source.version.getD CheckSettings.defaultLatest))) :
    Settled source named (info.recommending source.php) where
  latest := latest
  php version := by simp [recommending, Option.filter_eq_some_iff, Text.allBlank]

theorem settled_given (source : ReleaseSource) :
    Settled source none (source.given.recommending source.php) :=
  settled_recommending rfl

theorem resolve_ofFile {source : ReleaseSource} {tree : FileTree} {path : Path} {text : List Char}
    {info : ReleaseInfo} (file : source.file = some path) (read : tree.readText path = .ok text)
    (accepted : ofBody? (.ofList text) = some info) :
    ∃ settled, source.resolve tree = .ok settled ∧ Settled source info.latest settled := by
  simp only [ReleaseSource.resolve, ReleaseSource.ofFile, file, read, accepted, Except.map]
  obtain ⟨latest, php⟩ := info
  cases latest with
  | none => exact ⟨_, rfl, settled_given source⟩
  | some version => exact ⟨_, rfl, settled_recommending rfl⟩

/-- A version check names what its first offer names, whatever else it holds and however it grows.
A run is about that version if there is one, else about the version that is given or the default
one. -/
theorem first_offer_decides :
    (∀ body info, ofBody? body = some info ↔ ∃ answer offers versions,
      Laid answer.tokens body.toList ∧ Answer answer offers ∧
        List.Forall₂ Offer offers versions ∧ info = ⟨versions.head?.join, none⟩) ∧
    (∀ body body' answer answer' info, ofBody? body = some info →
      Laid answer.tokens body.toList → Laid answer'.tokens body'.toList →
        ReflTransGen Grown answer answer' → ofBody? body' = some info) ∧
    ∀ (source : ReleaseSource) (tree : FileTree),
      (source.file = none →
        ∃ settled, source.resolve tree = .ok settled ∧ Settled source none settled) ∧
      ∀ path text info, source.file = some path → tree.readText path = .ok text →
        ofBody? (.ofList text) = some info →
          ∃ settled, source.resolve tree = .ok settled ∧ Settled source info.latest settled := by
  refine ⟨fun body info => ?_, fun body body' answer answer' info accepted laid laid' grown => ?_,
    fun source tree => ⟨fun file => ?_, fun path text info => resolve_ofFile⟩⟩
  · simp only [ofBody?_eq_some_iff, ofAnswer?_eq_some_iff, exists_and_left]
  · obtain ⟨answer, own, read⟩ := ofBody?_eq_some_iff.mp accepted
    have same :=
      (Document.read?_eq_some_iff.mpr own).symm.trans (Document.read?_eq_some_iff.mpr laid)
    cases same
    exact ofBody?_eq_some_iff.mpr ⟨answer', laid', ofAnswer?_of_reflTransGen grown read⟩
  · exact ⟨_, by rw [ReleaseSource.resolve, file], settled_given source⟩

/-- A name that holds half a surrogate pair is no name, and the first offer of an empty list counts
as well as any other. -/
theorem growth_limits :
    ofBody? (braced (r#""offers":["# ++ braced r#""current":"6.8.0""# ++ "]")) =
      some ⟨some "6.8.0", none⟩ ∧
    ofBody? (braced (r#""offers":["# ++ braced r#""current":"6.8.0""# ++ r#"],"\ud800":1"#)) = none ∧
    ofBody? (braced r#""offers":[]"#) = some ⟨none, none⟩ := by
  refine ⟨rfl, rfl, rfl⟩

end ReleaseInfo

end PluginAudit
