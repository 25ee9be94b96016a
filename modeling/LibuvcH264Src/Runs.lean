import Mathlib.Tactic

/-!
# Runs of a partial step function

* `run step s es` : the state after the events `es`, if each of them can happen where it does;
* `Along step P s es` : `P` holds of every state of the run and the event that happens there;
* `run_invariant` : what every step that meets `P` preserves, every run whose steps meet `P` preserves.
-/

namespace Runs
variable {σ ε : Type} (step : σ → ε → Option σ)

def run : σ → List ε → Option σ
  | s, [] => some s
  | s, e :: es => (step s e).bind fun s' => run s' es

/-- `P` at every step of the run. -/
def Along (P : σ → ε → Prop) : σ → List ε → Prop
  | _, [] => True
  | s, e :: es => P s e ∧ ∀ s', step s e = some s' → Along P s' es

instance Along.decidable (P : σ → ε → Prop) [∀ s e, Decidable (P s e)] :
    ∀ s es, Decidable (Along step P s es)
  | _, [] => isTrue trivial
  | s, e :: es =>
    match h : step s e with
    | none => decidable_of_iff (P s e) ⟨fun hp => ⟨hp, fun s' hs => by simp [h] at hs⟩, And.left⟩
    | some t =>
      have := Along.decidable P t es
      decidable_of_iff (P s e ∧ Along step P t es)
        ⟨fun hp => ⟨hp.1, fun s' hs => by rw [h] at hs; exact Option.some.inj hs ▸ hp.2⟩,
          fun hp => ⟨hp.1, hp.2 t h⟩⟩

theorem run_cons_eq_some {s s' : σ} {e : ε} {es : List ε} :
    run step s (e :: es) = some s' ↔ ∃ t, step s e = some t ∧ run step t es = some s' := by
  rw [run, Option.bind_eq_some_iff]

theorem run_append_eq_some {s s' : σ} {es es' : List ε} :
    run step s (es ++ es') = some s' ↔
      ∃ t, run step s es = some t ∧ run step t es' = some s' := by
  induction es generalizing s with
  | nil => simp [run]
  | cons e es ih =>
    rw [List.cons_append, run_cons_eq_some]
    refine ⟨fun ⟨t, ht, hr⟩ => ?_, fun ⟨u, hu, hr⟩ => ?_⟩
    · obtain ⟨u, hu, hr'⟩ := ih.mp hr
      exact ⟨u, (run_cons_eq_some step).mpr ⟨t, ht, hu⟩, hr'⟩
    · obtain ⟨t, ht, hu'⟩ := (run_cons_eq_some step).mp hu
      exact ⟨t, ht, ih.mpr ⟨u, hu', hr⟩⟩

/-- **The rule for runs**: an invariant that the steps meeting `P` preserve. -/
theorem run_invariant {I : σ → Prop} {P : σ → ε → Prop}
    (hstep : ∀ s e s', I s → P s e → step s e = some s' → I s') {s s' : σ} {es : List ε}
    (hI : I s) (hP : Along step P s es) (h : run step s es = some s') : I s' := by
  induction es generalizing s with
  | nil =>
    obtain rfl := Option.some.inj h
    exact hI
  | cons e es ih =>
    obtain ⟨t, ht, hr⟩ := (run_cons_eq_some step).mp h
    exact ih (hstep s e t hI hP.1 ht) (hP.2 t ht) hr

/-- What every step preserves, every run preserves. -/
theorem run_induction {I : σ → Prop} (hstep : ∀ s e s', I s → step s e = some s' → I s') {s s' : σ}
    {es : List ε} (hI : I s) (h : run step s es = some s') : I s' := by
  induction es generalizing s with
  | nil =>
    obtain rfl := Option.some.inj h
    exact hI
  | cons e es ih =>
    obtain ⟨t, ht, hr⟩ := (run_cons_eq_some step).mp h
    exact ih (hstep s e t hI ht) hr

end Runs
