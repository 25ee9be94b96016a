import LibuvcH264Src.Prog

/-!
# History variables

* `plain p`, `note f` : a program beside a history, which it leaves alone, and a write to the history;
* `Erases p q` : without its history, `p` is `q`; one rule for each way to build a program.
-/

namespace Prog
variable {σ η α β : Type}

/-- `p` on the state. -/
def plain (p : Prog σ α) : Prog (σ × η) α := fun s => ((p s.1).1, (p s.1).2, s.2)

/-- A write to the history, which may look at the state. -/
def note (f : σ → η → η) : Prog (σ × η) Unit := modify fun s => (s.1, f s.1 s.2)

section Rules
variable {I : σ × η → Prop} {s : σ × η}

@[simp] theorem wp_plain {p : Prog σ α} {Q : α → σ × η → Prop} :
    wp I (plain p) Q s ↔ wp (fun t => I (t, s.2)) p (fun a t => Q a (t, s.2)) s.1 := by
  unfold wp plain
  rcases p s.1 with ⟨_ | a, t⟩ <;> exact Iff.rfl

@[simp] theorem wp_note {f : σ → η → η} {Q : Unit → σ × η → Prop} :
    wp I (note f) Q s ↔ Q () (s.1, f s.1 s.2) := Iff.rfl

end Rules

/-- What `p` does to the state is what `q` does, and both end with the same value or are cut short. -/
def Erases (p : Prog (σ × η) α) (q : Prog σ α) : Prop := ∀ s, ((p s).1, (p s).2.1) = q s.1

theorem erases_plain (p : Prog σ α) : Erases (plain p : Prog (σ × η) α) p := fun _ => rfl

theorem erases_pure (a : α) : Erases (pure a : Prog (σ × η) α) (pure a) := fun _ => rfl

theorem erases_bind {p : Prog (σ × η) β} {q : Prog σ β} {f : β → Prog (σ × η) α} {g : β → Prog σ α}
    (hp : Erases p q) (hf : ∀ b, Erases (f b) (g b)) : Erases (p >>= f) (q >>= g) := by
  intro s
  have h := hp s
  rcases hps : p s with ⟨_ | b, t⟩ <;> rw [hps] at h
  · rw [show (p >>= f) s = (none, t) by simp only [bind, hps],
      show (q >>= g) s.1 = (none, t.1) by simp only [bind, ← h]]
  · rw [show (p >>= f) s = f b t by simp only [bind, hps],
      show (q >>= g) s.1 = g b t.1 by simp only [bind, ← h]]
    exact hf b t

/-- A note is nothing to the state. -/
theorem erases_note {f : σ → η → η} {p : Prog (σ × η) α} {q : Prog σ α} (h : Erases p q) :
    Erases (note f >>= fun _ => p) q := fun s => h (s.1, f s.1 s.2)

/-- A program whose value is noted where it meets `c`. -/
theorem erases_noted {p : Prog σ α} {c : α → Prop} [∀ a, Decidable (c a)] {f : α → σ → η → η} :
    Erases (do let a ← plain p; when (c a) (note (f a)); return a) p := by
  intro s
  show (((plain p >>= fun a => when (c a) (note (f a)) >>= fun _ => pure a) s).1, _) = p s.1
  rcases hps : p s.1 with ⟨_ | a, t⟩
  · simp only [bind, plain, hps]
  · by_cases hc : c a
    · simp only [bind, plain, hps, when, if_pos hc]
      rfl
    · simp only [bind, plain, hps, when, if_neg hc]
      rfl

theorem erases_ite {c : Prop} [Decidable c] {p p' : Prog (σ × η) α} {q q' : Prog σ α} (h : Erases p q)
    (h' : Erases p' q') : Erases (if c then p else p') (if c then q else q') := by
  split
  · exact h
  · exact h'

theorem erases_iterate {body : β → Prog (σ × η) (β ⊕ α)} {body' : β → Prog σ (β ⊕ α)}
    (h : ∀ b, Erases (body b) (body' b)) (n : Nat) (b : β) : Erases (iterate body n b) (iterate body' n b) := by
  induction n generalizing b with
  | zero => exact fun _ => rfl
  | succ n ih =>
    unfold iterate
    refine erases_bind (h b) fun r => ?_
    cases r with
    | inl b' => exact ih b'
    | inr a => exact erases_pure a

theorem erases_loop {size : σ → Nat} {body : β → Prog (σ × η) (β ⊕ α)} {body' : β → Prog σ (β ⊕ α)}
    (h : ∀ b, Erases (body b) (body' b)) (b : β) :
    Erases (loop (fun s => size s.1) body b) (loop size body' b) :=
  fun s => erases_iterate h (size s.1 + 1) b s

end Prog
