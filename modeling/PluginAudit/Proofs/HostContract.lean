import PluginAudit.Proofs.CheckFrame
import PluginAudit.Proofs.DatabaseSteps
import PluginAudit.Proofs.MemorySteps
import PluginAudit.Proofs.Naming

/-!
What a host is expected to do with namespaces: they come and go by the calls that create and drop
them, a session moves by switching, and a call that is refused changes nothing.
-/

namespace PluginAudit

/-- What a session sees of the namespaces: which there are, and the one it is in. -/
structure Place where
  has : String → Prop
  current : String

/-- What a call that has been answered makes of a place. -/
def HostCall.Effect (before after : Place) : (c : HostCall) → c.Answer → Prop
  | .currentNamespace, answer =>
    after = before ∧ ∀ name, answer = .ok name → name = before.current
  | .createNamespace _, .ok _ => after.current = before.current
  | .createNamespace _, .error _ => after = before
  | .switchTo name, .ok _ => after = { before with current := name }
  | .switchTo _, .error _ => after = before
  | .dropNamespace name, .ok _ => ¬after.has name ∧ after.current = before.current
  | .dropNamespace _, .error _ => after = before
  | .option _, _ | .addOverride _ _, _ | .removeOverride _, _ | .overrides, _ => after = before

/-- A call that leaves every session where it is and the namespaces as they are. -/
def HostCall.Stays : HostCall → Prop
  | .createNamespace _ | .switchTo _ | .dropNamespace _ => False
  | _ => True

theorem HostCall.Stays.effect {c : HostCall} (h : c.Stays) {before after : Place}
    {answer : c.Answer} (effect : HostCall.Effect before after c answer) : after = before := by
  cases c with
  | currentNamespace => exact effect.1
  | createNamespace name => cases h
  | switchTo name => cases h
  | dropNamespace name => cases h
  | option key => exact effect
  | addOverride key value => exact effect
  | removeOverride id => exact effect
  | overrides => exact effect

theorem HostCall.Reads.stays {c : HostCall} (h : c.Reads) : c.Stays := by
  cases c with
  | currentNamespace => exact True.intro
  | option key => exact True.intro
  | overrides => exact True.intro
  | createNamespace name => cases h
  | switchTo name => cases h
  | dropNamespace name => cases h
  | addOverride key value => cases h
  | removeOverride id => cases h

theorem Preparation.addAll_stays (values : List (String × Json)) :
    (addAll values).Avoids fun c : HostCall => ¬c.Stays := by
  induction values with
  | nil => exact True.intro
  | cons v rest ih =>
    refine ⟨Classical.not_not.mpr True.intro, fun id => ?_⟩
    exact ih.bind fun ids => True.intro

theorem Preparation.removeAll_stays (ids : List Nat) :
    (removeAll ids).Avoids fun c : HostCall => ¬c.Stays := by
  induction ids with
  | nil => exact True.intro
  | cons id rest ih =>
    refine ⟨Classical.not_not.mpr True.intro, fun found => ?_⟩
    refine ih.bind fun missing => ?_
    split <;> exact True.intro

/-- Where the sessions of a host are, which namespaces it has, and which sessions are open. -/
structure Placement (σ : Type) where
  has : σ → String → Prop
  current : (session : Nat) → σ → String
  isOpen : (session : Nat) → σ → Prop

def Placement.place {σ : Type} (p : Placement σ) (session : Nat) (s : σ) : Place :=
  ⟨p.has s, p.current session s⟩

/-- The host does what is expected of it. -/
structure Host.Contract {σ : Type} (host : Host σ) (p : Placement σ) : Prop where
  connect : ∀ s, p.has (host.connect s).2 = p.has s
  opens : ∀ s i, (host.connect s).1 = .ok i → p.isOpen i (host.connect s).2
  ask_open : ∀ i c s, p.isOpen i s → p.isOpen i (host.ask i c s).2
  ask : ∀ i c s, p.isOpen i s →
    HostCall.Effect (p.place i s) (p.place i (host.ask i c s).2) c (host.ask i c s).1
  load : ∀ i r s, p.isOpen i s → p.isOpen i (host.load i r s).2 ∧
    p.place i (host.load i r s).2 = p.place i s

namespace Host.Contract

variable {σ α : Type} {host : Host σ} {p : Placement σ} (h : host.Contract p) {i : Nat}

include h

theorem run_stays {program : Program hostCalls α}
    (stays : program.Avoids fun c : HostCall => ¬c.Stays) {s : σ} (opened : p.isOpen i s) :
    p.isOpen i (program.run (host.ask i) s).2 ∧
      p.place i (program.run (host.ask i) s).2 = p.place i s := by
  have kept := Program.run_relates_of_avoids
    (R := fun a b => p.isOpen i a → p.isOpen i b ∧ p.place i b = p.place i a)
    (fun _ opened => ⟨opened, rfl⟩)
    (fun first second opened =>
      ⟨(second (first opened).1).1, (second (first opened).1).2.trans (first opened).2⟩)
    (fun c s allowed opened => ⟨h.ask_open i c s opened,
      (Classical.not_not.mp allowed).effect (h.ask i c s opened)⟩)
    program stays s
  exact kept opened

theorem run_reads {program : Program hostCalls α}
    (reads : program.Avoids fun c : HostCall => ¬c.Reads) {s : σ} (opened : p.isOpen i s) :
    p.isOpen i (program.run (host.ask i) s).2 ∧
      p.place i (program.run (host.ask i) s).2 = p.place i s :=
  h.run_stays (reads.mono fun _ moves reading => moves reading.stays) opened

theorem run_open (program : Program setupCalls α) {s : Run.Scene σ} (opened : p.isOpen i s.1) :
    p.isOpen i (program.run (Run.answerSetup host i) s).2.1 := by
  have step (c : SetupCall) (s : Run.Scene σ) (opened : p.isOpen i s.1) :
      p.isOpen i (Run.answerSetup host i c s).2.1 := by
    cases c with
    | step c =>
      cases c with
      | host c => exact h.ask_open i c s.1 opened
      | tell remark => exact opened
    | tell event => exact opened
  have kept := Program.run_relates
    (R := fun a b : Run.Scene σ => p.isOpen i a.1 → p.isOpen i b.1) (fun _ => id)
    (fun first second => second ∘ first) step program s
  exact kept opened

theorem answer_open {env : Environment} (c : CheckCall) (progress : Progress σ)
    (opened : p.isOpen env.session progress.world) :
    p.isOpen env.session (Progress.answer host env c progress).2.2.world := by
  cases c with
  | option key => exact h.ask_open env.session (.option key) _ opened
  | addOverride key value => exact h.ask_open env.session (.addOverride key value) _ opened
  | removeOverride id => exact h.ask_open env.session (.removeOverride id) _ opened
  | overrides => exact h.ask_open env.session .overrides _ opened
  | load =>
    simp only [Progress.answer, Progress.load]
    split
    · exact opened
    · exact (h.load env.session _ _ (h.ask_open env.session .overrides _ opened)).1
  | emit f => exact opened
  | note text => exact opened
  | sleep ms => exact opened
  | block ms => exact opened
  | cancel => exact opened

theorem checkPhase_open (env : Environment) (settings : RunSettings) (conditions : RunConditions)
    (tasks : List StaticTask) (runtime : List (Nat × String × RuntimeCheck))
    {scene : Run.Scene σ} (opened : p.isOpen env.session scene.1) :
    p.isOpen env.session
      (Run.checkPhase host env settings conditions tasks runtime scene).2.world :=
  Run.checkPhase_relates (R := fun a b => p.isOpen env.session a → p.isOpen env.session b)
    (fun _ => id) (fun first second => second ∘ first)
    (fun c progress _ opened => h.answer_open c progress opened)
    (fun _ _ => Program.avoids_nothing _) settings conditions tasks scene opened

omit h in
theorem ask_refusing (host : Host σ) (names : List String) (i : Nat) (c : HostCall) (s : σ) :
    (host.refusing names).ask i c s = host.ask i c s ∨
      ∃ name cause, c = .switchTo name ∧
        (host.refusing names).ask i (.switchTo name) s = (.error cause, s) := by
  cases c with
  | switchTo name =>
    by_cases refused : names.contains name
    · exact .inr ⟨name, _, rfl, if_pos refused⟩
    · exact .inl (if_neg refused)
  | currentNamespace => exact .inl rfl
  | createNamespace name => exact .inl rfl
  | dropNamespace name => exact .inl rfl
  | option key => exact .inl rfl
  | addOverride key value => exact .inl rfl
  | removeOverride id => exact .inl rfl
  | overrides => exact .inl rfl

theorem refusing (names : List String) : (host.refusing names).Contract p := by
  constructor
  · exact h.connect
  · exact h.opens
  · intro i c s opened
    rcases ask_refusing host names i c s with same | ⟨name, cause, rfl, refused⟩
    · rw [same]
      exact h.ask_open i c s opened
    · rw [refused]
      exact opened
  · intro i c s opened
    rcases ask_refusing host names i c s with same | ⟨name, cause, rfl, refused⟩
    · rw [same]
      exact h.ask i c s opened
    · rw [refused]
      exact rfl
  · exact h.load

end Host.Contract

namespace Storage

variable {σ α : Type} (storage : Storage σ) (refused : List String) (i : Nat)

theorem ask_still {c : HostCall} (reads : c.Reads) (w : World σ) :
    ((storage.host.refusing refused).ask i c w).2 = w := by
  rcases Host.Contract.ask_refusing storage.host refused i c w with same | ⟨name, cause, rfl, -⟩
  · rw [same]
    exact World.ask_reads storage i reads w
  · cases reads

theorem run_still {p : Program hostCalls α} (reads : p.Avoids fun c : HostCall => ¬c.Reads)
    (w : World σ) : (p.run ((storage.host.refusing refused).ask i) w).2 = w :=
  Program.run_relates_of_avoids (R := fun a b : World σ => b = a) (fun _ => rfl)
    (fun first second => second.trans first)
    (fun _ v allowed => storage.ask_still refused i (Classical.not_not.mp allowed) v) p reads w

theorem ask_store {c : HostCall} (stays : c.Stays) (w : World σ) :
    ((storage.host.refusing refused).ask i c w).2.store = w.store := by
  cases c with
  | createNamespace name => cases stays
  | switchTo name => cases stays
  | dropNamespace name => cases stays
  | addOverride key value => rfl
  | removeOverride id => rfl
  | currentNamespace => rfl
  | option key =>
    exact congrArg World.store (storage.ask_still refused i (c := .option key) True.intro w)
  | overrides => rfl

theorem run_store {p : Program hostCalls α} (stays : p.Avoids fun c : HostCall => ¬c.Stays)
    (w : World σ) : (p.run ((storage.host.refusing refused).ask i) w).2.store = w.store :=
  Program.run_relates_of_avoids (R := fun a b : World σ => b.store = a.store) (fun _ => rfl)
    (fun first second => second.trans first)
    (fun _ v allowed => storage.ask_store refused i (Classical.not_not.mp allowed) v) p stays w

theorem answer_store {env : Environment} (c : CheckCall) (p : Progress (World σ)) :
    (Progress.answer (storage.host.refusing refused) env c p).2.2.world.store =
      p.world.store := by
  cases c with
  | option key => exact storage.ask_store refused env.session (c := .option key) True.intro p.world
  | addOverride key value => rfl
  | removeOverride id => rfl
  | overrides => rfl
  | load =>
    simp only [Progress.answer, Progress.load]
    split <;> rfl
  | emit f => rfl
  | note text => rfl
  | sleep ms => rfl
  | block ms => rfl
  | cancel => rfl

end Storage

/-- The sessions of a world and the namespaces of its store, as far as `has` tells. -/
def World.placement {σ : Type} (has : σ → String → Prop) : Placement (World σ) where
  has := fun w => has w.store
  current := fun i w => (w.session i).current
  isOpen := fun i w => i < w.sessions.length

theorem World.isOpen_setSession {σ : Type} (has : σ → String → Prop) {w : World σ} {i : Nat}
    (s : Session) : (placement has).isOpen i (w.setSession i s) ↔ (placement has).isOpen i w := by
  simp [placement]

theorem World.place_setSession {σ : Type} (has : σ → String → Prop) {w : World σ} {i : Nat}
    (opened : i < w.sessions.length) (s : Session) :
    (placement has).place i (w.setSession i s) = ⟨has w.store, s.current⟩ := by
  simp only [Placement.place, placement, session_setSession i opened]
  rfl

/-- The hosts of stores keep to the contract, if a namespace that has been dropped is gone. -/
theorem Storage.contract {σ : Type} (storage : Storage σ) (has : σ → String → Prop)
    (dropped : ∀ current name s t, storage.drop current name s = .ok t → ¬has t name) :
    storage.host.Contract (World.placement has) := by
  constructor
  · intro w
    simp only [Storage.host, World.connect]
    split <;> rfl
  · intro w i connected
    simp only [Storage.host, World.connect] at connected ⊢
    split at connected
    · cases connected
      simp [World.placement]
    · cases connected
  · intro i c w opened
    cases c with
    | currentNamespace => exact opened
    | createNamespace name =>
      simp only [Storage.host, World.ask]
      split <;> exact opened
    | switchTo name =>
      simp only [Storage.host, World.ask]
      split
      · exact (World.isOpen_setSession has _).mpr opened
      · exact opened
    | dropNamespace name =>
      simp only [Storage.host, World.ask]
      split <;> exact opened
    | option key =>
      simp only [Storage.host, World.ask]
      split <;> exact opened
    | addOverride key value => exact (World.isOpen_setSession has _).mpr opened
    | removeOverride id => exact (World.isOpen_setSession has _).mpr opened
    | overrides => exact opened
  · intro i c w opened
    cases c with
    | currentNamespace => exact ⟨rfl, fun name told => (Except.ok.inj told).symm⟩
    | createNamespace name =>
      simp only [Storage.host, World.ask]
      split <;> exact rfl
    | switchTo name =>
      simp only [Storage.host, World.ask]
      split
      · exact World.place_setSession has opened _
      · exact rfl
    | dropNamespace name =>
      simp only [Storage.host, World.ask]
      split
      · rename_i store drop
        exact ⟨dropped _ _ _ _ drop, rfl⟩
      · exact rfl
    | option key =>
      simp only [Storage.host, World.ask]
      split <;> exact rfl
    | addOverride key value => exact World.place_setSession has opened _
    | removeOverride id => exact World.place_setSession has opened _
    | overrides => exact rfl
  · intro i r w opened
    exact ⟨opened, rfl⟩

/-- Whatever else is known of its namespaces, a store keeps its sessions open. -/
theorem Storage.lawful {σ : Type} (storage : Storage σ) (refused : List String) :
    (storage.host.refusing refused).Contract (World.placement fun _ _ => False) :=
  (storage.contract (fun _ _ => False) fun _ _ _ _ _ => id).refusing refused

def MemoryStore.placement : Placement (World MemoryStore) :=
  World.placement fun m name => m.has name = true

theorem MemoryStore.contract : MemoryStore.storage.host.Contract MemoryStore.placement := by
  refine Storage.contract _ _ fun current name m left dropped => ?_
  exact Bool.eq_false_iff.mp (MemoryStore.drop_gone current dropped)

def Database.placement : Placement (World Database) :=
  World.placement fun d name => d.has name = true

theorem Database.contract : Database.storage.host.Contract Database.placement := by
  refine Storage.contract _ _ fun current name d left dropped => ?_
  exact Bool.eq_false_iff.mp (Database.drop_gone dropped)

/-- If a session is not let into a namespace, the refusal names it. -/
def Host.NamesRefused {σ : Type} (host : Host σ) : Prop :=
  ∀ i name s cause t, host.ask i (.switchTo name) s = (.error cause, t) →
    Names name cause.message

theorem Host.NamesRefused.refusing {σ : Type} {host : Host σ} (h : host.NamesRefused)
    (names : List String) : (host.refusing names).NamesRefused := by
  intro i name s cause t refused
  change (if names.contains name then _ else _) = _ at refused
  split at refused
  · cases refused
    exact ((Names.self name).after "cannot switch to ").after "Storage namespace error: "
  · exact h i name s cause t refused

theorem Storage.namesRefused {σ : Type} (storage : Storage σ)
    (named : ∀ name s cause, storage.enter name s = .error cause → Names name cause.message) :
    storage.host.NamesRefused := by
  intro i name w cause t refused
  simp only [Storage.host, World.ask] at refused
  split at refused
  · cases refused
  · rename_i e kept
    cases refused
    exact named name w.store _ kept

theorem Namespace.check_error {name : String} {cause : HostRefusal}
    (h : check name = .error cause) : Names name cause.message := by
  simp only [check] at h
  split at h
  · rename_i empty
    have nothing : name = "" := String.isEmpty_iff.mp empty
    rw [nothing]
    exact List.nil_infix
  · split at h
    · cases h
    · cases h
      exact ((Names.self name).after _).after "Storage namespace error: "

theorem MemoryStore.namesRefused : MemoryStore.storage.host.NamesRefused := by
  refine Storage.namesRefused _ fun name m cause refused => ?_
  change (if m.has name then _ else _) = _ at refused
  split at refused
  · cases refused
  · cases refused
    exact ((Names.self name).after "unknown namespace ").after "Storage namespace error: "

theorem Database.namesRefused : Database.storage.host.NamesRefused := by
  refine Storage.namesRefused _ fun name d cause refused => ?_
  change (Namespace.check name >>= fun _ => if d.has name then _ else _) = _ at refused
  cases checked : Namespace.check name with
  | error e =>
    rw [checked] at refused
    cases refused
    exact Namespace.check_error checked
  | ok _ =>
    rw [checked] at refused
    change (if d.has name then _ else _) = _ at refused
    split at refused
    · cases refused
    · cases refused
      exact ((Names.self name).after "unknown namespace ").after "Storage namespace error: "

end PluginAudit
