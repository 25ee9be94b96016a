import Mathlib.Tactic

/-!
# Programs that may be cut short

* `Prog σ α` : a program over the state `σ`, which ends with a value or is cut short in some state;
* `loop` : a loop that is bounded by a measure of the state it begins in;
* `wp I p Q` : where `p` is cut short `I` holds, and where it ends `Q` does; one rule for each way to
  build a program;
* `Stays R p` : `p` gets from every state to one that `R` relates it to, cut short or not;
* `Same view`, `Kept J` : the two relations that are most in use, for what shows in a state and for what
  holds of it.
-/

/-- A value and the state behind it, or the state in which the run was cut short. -/
def Prog (σ α : Type) := σ → Option α × σ

namespace Prog
variable {σ α β γ : Type}

instance : Monad (Prog σ) where
  pure a := fun s => (some a, s)
  bind p f := fun s =>
    match p s with
    | (some a, s') => f a s'
    | (none, s') => (none, s')

instance : LawfulMonad (Prog σ) := LawfulMonad.mk' _
  (fun p => funext fun s => by
    show (match p s with | (some a, s') => (some a, s') | (none, s') => (none, s')) = p s
    split <;> next h => exact h.symm)
  (fun _ _ => rfl)
  (fun p f g => funext fun s => by
    simp only [bind]
    rcases p s with ⟨_ | a, s'⟩ <;> rfl)

def get : Prog σ σ := fun s => (some s, s)

def modify (f : σ → σ) : Prog σ Unit := fun s => (some (), f s)

def cut : Prog σ α := fun s => (none, s)

/-- `p` if `c` holds. -/
def when (c : Prop) [Decidable c] (p : Prog σ Unit) : Prog σ Unit := if c then p else pure ()

/-- At most `n` turns; `inl` goes on, `inr` ends. -/
def iterate (body : β → Prog σ (β ⊕ α)) : Nat → β → Prog σ α
  | 0, _ => cut
  | n + 1, b => do
    match ← body b with
    | .inl b' => iterate body n b'
    | .inr a => pure a

/-- A loop whose turns use up `size`. -/
def loop (size : σ → Nat) (body : β → Prog σ (β ⊕ α)) (b : β) : Prog σ α := fun s =>
  iterate body (size s + 1) b s

/-! ## Weakest preconditions -/

def wp (I : σ → Prop) (p : Prog σ α) (Q : α → σ → Prop) (s : σ) : Prop :=
  match p s with
  | (some a, s') => Q a s'
  | (none, s') => I s'

section Rules
variable {I : σ → Prop} {Q Q' : α → σ → Prop} {s : σ}

@[simp] theorem wp_pure {a : α} : wp I (pure a) Q s ↔ Q a s := Iff.rfl

@[simp] theorem wp_bind {p : Prog σ β} {f : β → Prog σ α} :
    wp I (p >>= f) Q s ↔ wp I p (fun b => wp I (f b) Q) s := by
  show (match (p >>= f) s with | (some a, s') => Q a s' | (none, s') => I s') ↔ _
  unfold wp
  rcases h : p s with ⟨_ | b, s'⟩
  · rw [show (p >>= f) s = (none, s') by simp only [bind, h]]
  · rw [show (p >>= f) s = f b s' by simp only [bind, h]]

@[simp] theorem wp_map {p : Prog σ β} {f : β → α} :
    wp I (f <$> p) Q s ↔ wp I p (fun b => Q (f b)) s := by
  show wp I (p >>= fun b => pure (f b)) Q s ↔ _
  rw [wp_bind]
  rfl

@[simp] theorem wp_get {Q : σ → σ → Prop} : wp I get Q s ↔ Q s s := Iff.rfl

@[simp] theorem wp_modify {f : σ → σ} {Q : Unit → σ → Prop} :
    wp I (modify f) Q s ↔ Q () (f s) := Iff.rfl

@[simp] theorem wp_cut : wp I (cut : Prog σ α) Q s ↔ I s := Iff.rfl

@[simp] theorem wp_ite {c : Prop} [Decidable c] {p q : Prog σ α} :
    wp I (if c then p else q) Q s ↔ (c → wp I p Q s) ∧ (¬ c → wp I q Q s) := by
  split <;> simp_all

@[simp] theorem wp_when {c : Prop} [Decidable c] {p : Prog σ Unit} {Q : Unit → σ → Prop} :
    wp I (when c p) Q s ↔ (c → wp I p Q s) ∧ (¬ c → Q () s) := by
  unfold when
  rw [wp_ite, wp_pure]


/-- What holds of every state holds at the end. -/
theorem wp_true {p : Prog σ α} (hI : ∀ s', I s') (hQ : ∀ a s', Q a s') : wp I p Q s := by
  unfold wp
  split
  · exact hQ _ _
  · exact hI _

theorem wp_imp {I' : σ → Prop} {p : Prog σ α} (h : wp I p Q s) (hI : ∀ s', I s' → I' s')
    (hQ : ∀ a s', Q a s' → Q' a s') : wp I' p Q' s := by
  unfold wp at h ⊢
  split at h
  · exact hQ _ _ h
  · exact hI _ h

theorem wp_mono {p : Prog σ α} (h : wp I p Q s) (hQ : ∀ a s', Q a s' → Q' a s') :
    wp I p Q' s := wp_imp h (fun _ hI => hI) hQ

/-- With the run itself. -/
theorem wp_with_run {p : Prog σ α} (h : wp I p Q s) : wp I p (fun a s' => Q a s' ∧ p s = (some a, s')) s := by
  unfold wp at h ⊢
  rcases hp : p s with ⟨_ | a, s'⟩ <;> rw [hp] at h
  · exact h
  · exact ⟨h, rfl⟩

theorem wp_and {p : Prog σ α} (h : wp I p Q s) (h' : wp I p Q' s) :
    wp I p (fun a s' => Q a s' ∧ Q' a s') s := by
  unfold wp at h h' ⊢
  rcases hp : p s with ⟨_ | a, s'⟩ <;> rw [hp] at h h'
  · exact h
  · exact ⟨h, h'⟩

/-- A loop keeps an invariant of its turns. -/
theorem wp_iterate {body : β → Prog σ (β ⊕ α)} {J : β → σ → Prop}
    (hbody : ∀ b s, J b s → wp I (body b) (fun r s' => Sum.elim (fun b' => J b' s') (fun a => Q a s') r) s)
    (hcut : ∀ b s, J b s → I s) {n : Nat} {b : β} (hb : J b s) : wp I (iterate body n b) Q s := by
  induction n generalizing b s with
  | zero => exact hcut b s hb
  | succ n ih =>
    unfold iterate
    rw [wp_bind]
    refine wp_mono (hbody b s hb) ?_
    intro r s' hr
    match r with
    | .inl b' => exact ih hr
    | .inr a => exact hr

theorem wp_loop {size : σ → Nat} {body : β → Prog σ (β ⊕ α)} {J : β → σ → Prop}
    (hbody : ∀ b s, J b s → wp I (body b) (fun r s' => Sum.elim (fun b' => J b' s') (fun a => Q a s') r) s)
    (hcut : ∀ b s, J b s → I s) {b : β} (hb : J b s) : wp I (loop size body b) Q s := by
  show wp I (iterate body (size s + 1) b) Q s
  exact wp_iterate hbody hcut hb

/-- What holds at the end of a run that was not cut short. -/
theorem wp_elim {p : Prog σ α} (h : wp I p Q s) {a : α} {s' : σ} (hp : p s = (some a, s')) : Q a s' := by
  unfold wp at h
  rwa [hp] at h

end Rules

/-! ## Relations that a program stays in -/

/-- From every state, cut short or not, `p` gets to a related one. -/
def Stays (R : σ → σ → Prop) (p : Prog σ α) : Prop := ∀ s, R s (p s).2

section Stays
variable {R : σ → σ → Prop}

/-- A program that stays in a relation, with the run of it. -/
theorem Stays.wp_run {I : σ → Prop} {p : Prog σ α} {Q : α → σ → Prop} {s : σ} (h : Stays R p)
    (hI : ∀ s', R s s' → I s') (hQ : ∀ a s', R s s' → p s = (some a, s') → Q a s') : Prog.wp I p Q s := by
  have hs := h s
  unfold Prog.wp
  rcases hp : p s with ⟨_ | a, s'⟩ <;> rw [hp] at hs
  · exact hI s' hs
  · exact hQ a s' hs hp

theorem Stays.wp {I : σ → Prop} {p : Prog σ α} {Q : α → σ → Prop} {s : σ} (h : Stays R p)
    (hI : ∀ s', R s s' → I s') (hQ : ∀ a s', R s s' → Q a s') : Prog.wp I p Q s :=
  h.wp_run hI fun a s' hs _ => hQ a s' hs

theorem stays_of_wp {p : Prog σ α} (h : ∀ s, Prog.wp (R s) p (fun _ => R s) s) : Stays R p := by
  intro s
  have hs := h s
  unfold Prog.wp at hs
  rcases hp : p s with ⟨_ | a, s'⟩ <;> rw [hp] at hs <;> exact hs

theorem Stays.mono {R' : σ → σ → Prop} {p : Prog σ α} (h : Stays R p) (hR : ∀ s s', R s s' → R' s s') :
    Stays R' p := fun s => hR s _ (h s)

theorem stays_modify {f : σ → σ} (h : ∀ s, R s (f s)) : Stays R (modify f) := h

theorem stays_ite {c : Prop} [Decidable c] {p q : Prog σ α} (hp : Stays R p) (hq : Stays R q) :
    Stays R (if c then p else q) := by
  split
  · exact hp
  · exact hq

section Refl
variable [Std.Refl R]

theorem stays_pure (a : α) : Stays R (pure a) := fun s => Std.Refl.refl s

theorem stays_get : Stays R get := fun s => Std.Refl.refl s

theorem stays_cut : Stays R (cut : Prog σ α) := fun s => Std.Refl.refl s

theorem stays_when {c : Prop} [Decidable c] {p : Prog σ Unit} (h : Stays R p) :
    Stays R (when c p) := by
  unfold when
  exact stays_ite h (stays_pure ())

end Refl

variable [IsTrans σ R]

theorem stays_bind {p : Prog σ β} {f : β → Prog σ α} (hp : Stays R p) (hf : ∀ b, Stays R (f b)) :
    Stays R (p >>= f) := by
  intro s
  have h := hp s
  rcases hps : p s with ⟨_ | b, s'⟩ <;> rw [hps] at h
  · rw [show (p >>= f) s = (none, s') by simp only [bind, hps]]
    exact h
  · rw [show (p >>= f) s = f b s' by simp only [bind, hps]]
    exact IsTrans.trans _ _ _ h (hf b s')

variable [Std.Refl R]

theorem stays_iterate {body : β → Prog σ (β ⊕ α)} (h : ∀ b, Stays R (body b)) (n : Nat) (b : β) :
    Stays R (iterate body n b) := by
  induction n generalizing b with
  | zero => exact stays_cut
  | succ n ih =>
    unfold iterate
    refine stays_bind (h b) ?_
    rintro (b' | a)
    · exact ih b'
    · exact stays_pure a

theorem stays_loop {size : σ → Nat} {body : β → Prog σ (β ⊕ α)} (h : ∀ b, Stays R (body b)) (b : β) :
    Stays R (loop size body b) :=
  fun s => stays_iterate h (size s + 1) b s

end Stays

/-- What shows in the state stays as it is. -/
def Same {τ : Type} (view : σ → τ) (s s' : σ) : Prop := view s' = view s

instance {τ : Type} (view : σ → τ) : Std.Refl (Same view) where
  refl _ := rfl

instance {τ : Type} (view : σ → τ) : IsTrans σ (Same view) where
  trans _ _ _ h h' := h'.trans h

/-- What holds of the state is kept. -/
def Kept (J : σ → Prop) (s s' : σ) : Prop := J s → J s'

instance (J : σ → Prop) : Std.Refl (Kept J) where
  refl _ := id

instance (J : σ → Prop) : IsTrans σ (Kept J) where
  trans _ _ _ h h' := h' ∘ h

end Prog
