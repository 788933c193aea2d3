import PluginAudit.Proofs.Interpretation
import PluginAudit.Proofs.RuntimeSlot
import PluginAudit.Run.Basic

/-!
What the checks of a run keep of the world: a relation that holds across every call the checks may
make holds across all of them, wherever they are stopped.
-/

namespace PluginAudit

variable {σ : Type} {forbidden : CheckCall → Prop} {host : Host σ} {env : Environment}

namespace Progress

section Body

variable {R : Progress σ → Progress σ → Prop} (refl : ∀ p, R p p)
  (trans : ∀ {a b c}, R a b → R b c → R a c) (time : ∀ p clock, R p { p with clock })
  (step : ∀ c p, ¬forbidden c → R p (answer host env c p).2.2)

include refl trans time step

theorem windDown_relates {body : Program checkCalls Ending} (avoids : body.Avoids forbidden)
    (p : Progress σ) : R p (windDown host env body p).2 := by
  induction body generalizing p with
  | done ending => exact refl p
  | ask c next ih =>
    have answered := step c p avoids.1
    simp only [windDown]
    split
    · rename_i q called
      rw [called] at answered
      exact answered
    · rename_i a ms q called
      rw [called] at answered
      exact trans (trans answered (time q _)) (ih a (avoids.2 a) _)
    · rename_i a q called
      rw [called] at answered
      exact trans answered (ih a (avoids.2 a) q)

/-- What every call of a body keeps, whatever the time is, the body keeps. -/
theorem runBody_relates (watch : Watch) {body : Program checkCalls Ending}
    (avoids : body.Avoids forbidden) (p : Progress σ) :
    R p (runBody host env watch body p).2 := by
  induction body generalizing p with
  | done ending =>
    rw [runBody_done]
    split <;> exact refl _
  | ask c next ih =>
    have answered := step c p avoids.1
    obtain ⟨clock, kept⟩ := pause_keeps watch (answer host env c p).2.1 (answer host env c p).2.2
    have paused := trans answered (time _ clock)
    rw [← kept] at paused
    rw [runBody_ask]
    split
    · rename_i stop q stopped
      rw [stopped] at paused
      refine trans paused ?_
      cases (answer host env c p).2.1 with
      | none => exact refl q
      | wait ms => exact refl q
      | hold ms => exact windDown_relates refl trans time step (avoids.2 _) q
    · rename_i q unstopped
      rw [unstopped] at paused
      exact trans paused (ih _ (avoids.2 _) q)

end Body

variable {R : σ → σ → Prop} (refl : ∀ s, R s s) (trans : ∀ {a b c}, R a b → R b c → R a c)
  (step : ∀ c (p : Progress σ), ¬forbidden c → R p.world (answer host env c p).2.2.world)

include refl trans step

theorem runChecks_relates (watch : Watch) {checks : List (Nat × String × RuntimeCheck)}
    (avoid : ∀ c ∈ checks, (c.2.2.body env.context env.namespaceName).Avoids forbidden)
    (first : Bool) (p : Progress σ) :
    R p.world (runChecks host env watch first checks p).2.world := by
  induction checks generalizing first p with
  | nil => exact refl _
  | cons entry rest ih =>
    obtain ⟨place, slug, check⟩ := entry
    have body := runBody_relates (R := fun p q => R p.world q.world) (fun p => refl p.world) trans
      (fun p _ => refl p.world) step watch (avoid _ List.mem_cons_self) (p.tell (.started place))
    have others := ih fun c member => avoid c (List.mem_cons_of_mem _ member)
    obtain ⟨stop, record, -, came⟩ | ⟨stop, q, record, -, ran, came⟩ |
      ⟨ending, q, -, ran, came⟩ := runChecks_cases host env watch first place slug check rest p
    · rw [came]
      exact refl _
    · rw [ran] at body
      rw [came]
      exact body
    · rw [ran] at body
      rw [came]
      exact trans body (others false { q.tell (.ended place) with
        record := q.record.close slug ending })

end Progress

namespace Run

theorem checkPhase_relates {R : σ → σ → Prop} (refl : ∀ s, R s s)
    (trans : ∀ {a b c}, R a b → R b c → R a c)
    (step : ∀ c (p : Progress σ), ¬forbidden c →
      R p.world (Progress.answer host env c p).2.2.world)
    {runtime : List (Nat × String × RuntimeCheck)}
    (avoid : ∀ c ∈ runtime, (c.2.2.body env.context env.namespaceName).Avoids forbidden)
    (settings : RunSettings) (conditions : RunConditions) (tasks : List StaticTask)
    (scene : Scene σ) :
    R scene.1 (checkPhase host env settings conditions tasks runtime scene).2.world := by
  simp only [checkPhase]
  split
  · exact refl _
  · exact Progress.runChecks_relates refl trans step _ avoid true
      ⟨scene.1, _, _, _, false, none⟩

end Run

end PluginAudit
