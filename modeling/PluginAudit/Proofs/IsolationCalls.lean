import PluginAudit.Proofs.HostContract

/-!
The calls of the isolation. Apart from calls that change no namespace, it creates, enters and drops
the namespace of the run and goes back to the one it came from.
-/

namespace PluginAudit.Isolation

variable {forbidden : HostCall → Prop} {former name : String}

theorem avoids_of_stays {α : Type} {p : Program hostCalls α}
    (staying : ∀ c : HostCall, forbidden c → ¬c.Stays)
    (stays : p.Avoids fun c : HostCall => ¬c.Stays) : p.Avoids forbidden :=
  stays.mono staying

theorem avoids_of_reads {α : Type} {p : Program hostCalls α}
    (staying : ∀ c : HostCall, forbidden c → ¬c.Stays)
    (reads : p.Avoids fun c : HostCall => ¬c.Reads) : p.Avoids forbidden :=
  reads.mono fun c strays reading => staying c strays reading.stays

theorem enter_avoids (creating : ¬forbidden (.createNamespace name))
    (entering : ¬forbidden (.switchTo name)) (dropping : ¬forbidden (.dropNamespace name)) :
    (enter name).Avoids forbidden := by
  refine ⟨creating, fun created => ?_⟩
  cases created with
  | error e => exact True.intro
  | ok _ =>
    refine ⟨entering, fun switched => ?_⟩
    cases switched with
    | ok _ => exact True.intro
    | error e => exact ⟨dropping, fun _ => True.intro⟩

theorem setup_avoids (staying : ∀ c : HostCall, forbidden c → ¬c.Stays)
    (creating : ¬forbidden (.createNamespace name)) (entering : ¬forbidden (.switchTo name))
    (dropping : ¬forbidden (.dropNamespace name)) (basename theme : String) :
    (setup basename name theme).Avoids forbidden := by
  refine (avoids_of_reads staying (Snapshot.captureFrom_reads [] _)).bind fun captured => ?_
  cases captured with
  | error e => exact True.intro
  | ok snapshot =>
    refine ⟨fun strays => staying _ strays True.intro, fun current => ?_⟩
    cases current with
    | error e => exact True.intro
    | ok former =>
      refine (enter_avoids creating entering dropping).bind fun entered => ?_
      cases entered with
      | error e => exact True.intro
      | ok _ =>
        exact (avoids_of_stays staying (Preparation.addAll_stays _)).bind fun ids => True.intro

theorem leave_avoids (returning : ¬forbidden (.switchTo former))
    (dropping : ¬forbidden (.dropNamespace name)) : (leave former name).Avoids forbidden := by
  refine ⟨returning, fun switched => ?_⟩
  cases switched with
  | error e => exact True.intro
  | ok _ =>
    refine ⟨dropping, fun dropped => ?_⟩
    cases dropped <;> exact True.intro

theorem undo_avoids (staying : ∀ c : HostCall, forbidden c → ¬c.Stays)
    (returning : ¬forbidden (.switchTo former)) (dropping : ¬forbidden (.dropNamespace name))
    (ids : List Nat) (snapshot : Snapshot) :
    (undo ids former name snapshot).Avoids forbidden := by
  refine (avoids_of_stays staying (Preparation.removeAll_stays ids)).bind fun _ => ?_
  refine (leave_avoids returning dropping).bind fun left => ?_
  exact (avoids_of_reads staying (verify_reads snapshot)).bind fun changed => True.intro

end PluginAudit.Isolation
