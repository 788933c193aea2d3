import PluginAudit.Program

/-!
Running programs: a program that is put together runs its parts one after another, and what every
single answer keeps is kept by the whole program.
-/

namespace PluginAudit.Program

variable {I J : Interface} {α β σ : Type}

@[simp] theorem run_pure (answer : (c : I.Call) → σ → I.Answer c × σ) (a : α) (s : σ) :
    (pure a : Program I α).run answer s = (a, s) := rfl

@[simp] theorem run_done (answer : (c : I.Call) → σ → I.Answer c × σ) (a : α) (s : σ) :
    (Program.done a : Program I α).run answer s = (a, s) := rfl

@[simp] theorem run_ask (answer : (c : I.Call) → σ → I.Answer c × σ) (c : I.Call)
    (next : I.Answer c → Program I α) (s : σ) :
    (Program.ask c next).run answer s = (next (answer c s).1).run answer (answer c s).2 := rfl

@[simp] theorem run_bind (answer : (c : I.Call) → σ → I.Answer c × σ) (p : Program I α)
    (f : α → Program I β) (s : σ) :
    (p >>= f).run answer s = (f (p.run answer s).1).run answer (p.run answer s).2 := by
  induction p generalizing s with
  | done a => rfl
  | ask c next ih => exact ih _ _

theorem run_lift (into : I.Call → J.Call) (back : (c : I.Call) → J.Answer (into c) → I.Answer c)
    (answer : (c : J.Call) → σ → J.Answer c × σ) (p : Program I α) (s : σ) :
    (p.lift into back).run answer s =
      p.run (fun c s => (back c (answer (into c) s).1, (answer (into c) s).2)) s := by
  induction p generalizing s with
  | done a => rfl
  | ask c next ih => exact ih _ _

/-- The program makes no call of a kind, whatever it is answered. -/
def Avoids (forbidden : I.Call → Prop) : Program I α → Prop
  | .done _ => True
  | .ask c next => ¬forbidden c ∧ ∀ answer, (next answer).Avoids forbidden

theorem avoids_nothing (p : Program I α) : p.Avoids fun _ => False := by
  induction p with
  | done a => exact True.intro
  | ask c next ih => exact ⟨id, ih⟩

theorem Avoids.mono {forbidden other : I.Call → Prop} {p : Program I α}
    (avoids : p.Avoids forbidden) (weaker : ∀ c, other c → forbidden c) : p.Avoids other := by
  induction p with
  | done a => exact True.intro
  | ask c next ih => exact ⟨fun h => avoids.1 (weaker c h), fun answer => ih answer (avoids.2 _)⟩

theorem Avoids.bind {forbidden : I.Call → Prop} {p : Program I α} {f : α → Program I β}
    (first : p.Avoids forbidden) (rest : ∀ a, (f a).Avoids forbidden) :
    (p >>= f).Avoids forbidden := by
  induction p with
  | done a => exact rest a
  | ask c next ih => exact ⟨first.1, fun answer => ih answer (first.2 answer)⟩

/-- A relation between the states before and after every call that a program may make holds
between the states before and after the program. -/
theorem run_relates_of_avoids {R : σ → σ → Prop} (refl : ∀ s, R s s)
    (trans : ∀ {a b c}, R a b → R b c → R a c) {forbidden : I.Call → Prop}
    {answer : (c : I.Call) → σ → I.Answer c × σ}
    (step : ∀ c s, ¬forbidden c → R s (answer c s).2)
    (p : Program I α) (avoids : p.Avoids forbidden) (s : σ) : R s (p.run answer s).2 := by
  induction p generalizing s with
  | done a => exact refl s
  | ask c next ih => exact trans (step c s avoids.1) (ih _ (avoids.2 _) _)

theorem run_relates {R : σ → σ → Prop} (refl : ∀ s, R s s)
    (trans : ∀ {a b c}, R a b → R b c → R a c) {answer : (c : I.Call) → σ → I.Answer c × σ}
    (step : ∀ c s, R s (answer c s).2) (p : Program I α) (s : σ) : R s (p.run answer s).2 :=
  run_relates_of_avoids refl trans (fun c s _ => step c s) p p.avoids_nothing s

end PluginAudit.Program
