import LibuvcH264Src.Prog

/-!
# Programs on credit

A run that uses up `fuel`, and a `potential` that it never raises.

* `Brief P k p Q` : behind `P`, `p` ends with at most `k` of the fuel; one rule for each way to build a
  program;
* `brief_loop` : a loop whose turns are brief is, where each of them lowers a rank;
* `Affords r n s` : the fuel for `n`, and for `r` more whenever the potential goes down;
* `wp_loop_affords` : a loop that goes on only where the potential went down ends, with credit for what is
  behind it.
-/

namespace Prog
variable {σ α β : Type}

/-- A program that is nowhere cut short gives a value. -/
theorem isSome_of_wp {p : Prog σ α} {Q : α → σ → Prop} {s : σ} (h : wp (fun _ => False) p Q s) : (p s).1.isSome := by
  unfold wp at h
  rcases hp : p s with ⟨_ | a, s'⟩ <;> rw [hp] at h
  · exact h.elim
  · rfl

/-! ## Bounded programs -/

section Brief
variable (fuel : σ → Nat) (R : σ → σ → Prop)

/-- Behind `P` the program ends, in a related state where `Q` holds, and has used at most `k`. -/
def Brief (P : σ → Prop) (k : Nat) (p : Prog σ α) (Q : α → σ → Prop) : Prop :=
  ∀ s, P s → k ≤ fuel s →
    wp (fun _ => False) p (fun a s' => Q a s' ∧ R s s' ∧ fuel s ≤ fuel s' + k) s

variable {fuel R} {P : σ → Prop}

theorem Brief.mono {j k : Nat} {p : Prog σ α} {Q Q' : α → σ → Prop} (h : Brief fuel R P j p Q) (hk : j ≤ k)
    (hQ : ∀ a s, Q a s → Q' a s) : Brief fuel R P k p Q' := by
  intro s hs hfuel
  refine wp_mono (h s hs (le_trans hk hfuel)) fun a s' ha => ⟨hQ a s' ha.1, ha.2.1, ?_⟩
  have hused := ha.2.2
  omega

theorem brief_ite {c : Prop} [Decidable c] {k : Nat} {p q : Prog σ α} {Q : α → σ → Prop}
    (hp : Brief fuel R P k p Q) (hq : Brief fuel R P k q Q) : Brief fuel R P k (if c then p else q) Q := by
  split
  · exact hp
  · exact hq

theorem brief_bind [IsTrans σ R] {j k : Nat} {p : Prog σ β} {f : β → Prog σ α} {Q : β → σ → Prop}
    {Q' : α → σ → Prop} (hp : Brief fuel R P j p Q) (hf : ∀ b, Brief fuel R (Q b) k (f b) Q') :
    Brief fuel R P (k + j) (p >>= f) Q' := by
  intro s hs hfuel
  rw [wp_bind]
  refine wp_mono (hp s hs (by omega)) fun b s' hb => ?_
  obtain ⟨hQ, hR, hused⟩ := hb
  refine wp_mono (hf b s' hQ (by omega)) fun a s'' ha => ⟨ha.1, IsTrans.trans _ _ _ hR ha.2.1, ?_⟩
  have hused' := ha.2.2
  omega

/-- A step that costs nothing. -/
theorem brief_free [IsTrans σ R] {k : Nat} {p : Prog σ β} {f : β → Prog σ α} {Q : β → σ → Prop}
    {Q' : α → σ → Prop} (hp : Brief fuel R P 0 p Q) (hf : ∀ b, Brief fuel R (Q b) k (f b) Q') :
    Brief fuel R P k (p >>= f) Q' := brief_bind hp hf

section Refl
variable [Std.Refl R]

theorem brief_pure {k : Nat} {a : α} {Q : α → σ → Prop} (h : ∀ s, P s → Q a s) :
    Brief fuel R P k (pure a) Q := fun s hs _ => ⟨h s hs, Std.Refl.refl s, Nat.le_add_right _ _⟩

theorem brief_get : Brief fuel R P 0 get fun _ => P := fun s hs _ => ⟨hs, Std.Refl.refl s, le_refl _⟩

theorem brief_when {c : Prop} [Decidable c] {k : Nat} {p : Prog σ Unit} (h : Brief fuel R P k p fun _ => P) :
    Brief fuel R P k (when c p) fun _ => P := by
  unfold when
  exact brief_ite h (brief_pure fun _ hs => hs)

end Refl

theorem brief_modify {k : Nat} {f : σ → σ} {Q : Unit → σ → Prop} (hR : ∀ s, R s (f s))
    (hfuel : ∀ s, fuel (f s) = fuel s) (hQ : ∀ s, P s → Q () (f s)) : Brief fuel R P k (modify f) Q := by
  intro s hs _
  refine ⟨hQ s hs, hR s, ?_⟩
  rw [hfuel]
  exact Nat.le_add_right _ _

/-- What else is known of a bounded program, should it end. -/
theorem Brief.also {C : σ → Prop} {k : Nat} {p : Prog σ α} {Q Q' : α → σ → Prop} (h : Brief fuel R P k p Q)
    (hC : ∀ s, C s → wp (fun _ => True) p Q' s) :
    Brief fuel R (fun s => P s ∧ C s) k p fun a s => Q a s ∧ Q' a s := by
  intro s hs hfuel
  have hends := h s hs.1 hfuel
  have halso := hC s hs.2
  unfold wp at hends halso ⊢
  rcases hp : p s with ⟨_ | a, s'⟩ <;> rw [hp] at hends halso
  · exact hends
  · exact ⟨⟨hends.1, halso⟩, hends.2⟩

theorem Brief.keeps {C : σ → Prop} {k : Nat} {p : Prog σ α} {Q : α → σ → Prop} (h : Brief fuel R P k p Q)
    (hC : Stays (Kept C) p) : Brief fuel R (fun s => P s ∧ C s) k p fun a s => Q a s ∧ C s :=
  h.also fun _ hs => hC.wp (fun _ _ => trivial) fun _ _ hk => hk hs

/-- What the relation keeps. -/
theorem Brief.closed {C : σ → Prop} {k : Nat} {p : Prog σ α} {Q : α → σ → Prop} (h : Brief fuel R P k p Q)
    (hC : ∀ s s', R s s' → C s → C s') : Brief fuel R (fun s => P s ∧ C s) k p fun a s => Q a s ∧ C s :=
  fun s hs hfuel => wp_mono (h s hs.1 hfuel) fun _ s' ha => ⟨⟨ha.1, hC s s' ha.2.1 hs.2⟩, ha.2⟩

theorem Brief.of_imp {P' : σ → Prop} {k : Nat} {p : Prog σ α} {Q : α → σ → Prop} (h : Brief fuel R P k p Q)
    (hP : ∀ s, P' s → P s) : Brief fuel R P' k p Q := fun s hs hfuel => h s (hP s hs) hfuel

section Ranked
variable [IsTrans σ R] {body : β → Prog σ (β ⊕ α)} {k : Nat} {Q : α → σ → Prop} {rank : Nat → β → σ → Prop}

theorem brief_iterate
    (hbody : ∀ m b, Brief fuel R (rank m b) k (body b)
      fun next s => Sum.elim (fun b' => ∃ m' < m, rank m' b' s) (fun a => Q a s) next)
    {turns m : Nat} (hm : m < turns) (b : β) : Brief fuel R (rank m b) (k * (m + 1)) (iterate body turns b) Q := by
  induction turns generalizing m b with
  | zero => omega
  | succ turns ih =>
    intro s hs hfuel
    rw [Nat.mul_add, Nat.mul_one] at hfuel
    unfold iterate
    rw [wp_bind]
    refine wp_mono (hbody m b s hs (by omega)) fun next s' hnext => ?_
    obtain ⟨hnext, hR, hused⟩ := hnext
    cases next with
    | inl b' =>
      obtain ⟨m', hless, hrank⟩ := hnext
      have hcost : k * (m' + 1) ≤ k * m := Nat.mul_le_mul_left k hless
      refine wp_mono (ih (by omega) b' s' hrank (by omega)) fun a s'' ha => ?_
      obtain ⟨hQ, hR', hused'⟩ := ha
      refine ⟨hQ, IsTrans.trans _ _ _ hR hR', ?_⟩
      rw [Nat.mul_add, Nat.mul_one]
      omega
    | inr a =>
      refine ⟨hnext, hR, ?_⟩
      rw [Nat.mul_add, Nat.mul_one]
      omega

/-- **The rule for loops with a rank.** -/
theorem brief_loop
    (hbody : ∀ m b, Brief fuel R (rank m b) k (body b)
      fun next s => Sum.elim (fun b' => ∃ m' < m, rank m' b' s) (fun a => Q a s) next)
    (hk : 0 < k) (m : Nat) (b : β) : Brief fuel R (rank m b) (k * (m + 1)) (loop fuel body b) Q := by
  intro s hs hfuel
  have hmany : m + 1 ≤ k * (m + 1) := Nat.le_mul_of_pos_left _ hk
  show wp _ (iterate body (fuel s + 1) b) _ s
  exact brief_iterate hbody (by omega) b s hs hfuel

end Ranked

end Brief

/-! ## Loops -/

section Loops
variable (fuel potential : σ → Nat)

/-- Fuel for `n`, and for `r` whenever the potential goes down. -/
def Affords (r n : Nat) (s : σ) : Prop := r * potential s + n ≤ fuel s

variable {fuel potential}

theorem Affords.le {r n : Nat} {s : σ} (h : Affords fuel potential r n s) : n ≤ fuel s :=
  le_trans (Nat.le_add_left _ _) h

theorem Affords.weaken {r m n : Nat} {s : σ} (h : Affords fuel potential r n s) (hm : m ≤ n) :
    Affords fuel potential r m s := by
  unfold Affords at h ⊢
  omega

/-- What a bounded program leaves. -/
theorem Brief.affords {R : σ → σ → Prop} {P : σ → Prop} {r k n : Nat} {p : Prog σ α} {Q Q' : α → σ → Prop} {s : σ}
    (h : Brief fuel R P k p Q) (hR : ∀ s s', R s s' → potential s' ≤ potential s) (hs : P s)
    (ha : Affords fuel potential r (n + k) s)
    (hQ : ∀ a s', Q a s' → R s s' → Affords fuel potential r n s' → Q' a s') : wp (fun _ => False) p Q' s := by
  unfold Affords at ha
  refine wp_mono (h s hs (by omega)) fun a s' hs' => hQ a s' hs'.1 hs'.2.1 ?_
  have hless := Nat.mul_le_mul_left r (hR s s' hs'.2.1)
  have hused := hs'.2.2
  unfold Affords
  omega

variable {body : β → Prog σ (β ⊕ α)} {J : β → σ → Prop} {Q : α → σ → Prop} {r k : Nat}

/-- What a turn of a loop has to show: it goes on with its invariant and less potential, or ends. -/
def Turns (fuel potential : σ → Nat) (r k : Nat) (J : β → σ → Prop) (Q : α → σ → Prop) (body : β → Prog σ (β ⊕ α)) : Prop :=
  ∀ b s n, J b s → Affords fuel potential r (n + k) s →
    wp (fun _ => False) (body b)
      (fun next s' => Affords fuel potential r n s' ∧ potential s' ≤ potential s ∧
        Sum.elim (fun b' => J b' s' ∧ potential s' < potential s) (fun a => Q a s') next) s

theorem wp_iterate_affords (hbody : Turns fuel potential r k J Q body) {turns n : Nat} {b : β} {s : σ}
    (hturns : potential s < turns) (hb : J b s) (h : Affords fuel potential (r + k) (n + k) s) :
    wp (fun _ => False) (iterate body turns b) (fun a s' => Affords fuel potential (r + k) n s' ∧ Q a s') s := by
  induction turns generalizing b s with
  | zero => omega
  | succ turns ih =>
    unfold iterate
    rw [wp_bind]
    -- a turn that ends the loop leaves the whole of what `k` a unit buys
    have hpays : Affords fuel potential r (k * potential s + n + k) s := by
      unfold Affords at h ⊢
      rw [Nat.add_mul] at h
      omega
    refine wp_mono (hbody b s _ hb hpays) fun next s' hnext => ?_
    obtain ⟨hleft, hless, hnext⟩ := hnext
    unfold Affords at hleft
    cases next with
    | inl b' =>
      obtain ⟨hJ, hlt⟩ := hnext
      have hsaved : k * (potential s' + 1) ≤ k * potential s := Nat.mul_le_mul_left k hlt
      rw [Nat.mul_add, Nat.mul_one] at hsaved
      apply ih (by omega) hJ
      unfold Affords
      rw [Nat.add_mul]
      omega
    | inr a =>
      have hsaved := Nat.mul_le_mul_left k hless
      refine ⟨?_, hnext⟩
      unfold Affords
      rw [Nat.add_mul]
      omega

/-- **The rule for loops on credit.** -/
theorem wp_loop_affords (hbody : Turns fuel potential r k J Q body) (hk : 0 < k) {n : Nat} {b : β} {s : σ} (hb : J b s)
    (h : Affords fuel potential (r + k) (n + k) s) :
    wp (fun _ => False) (loop fuel body b) (fun a s' => Affords fuel potential (r + k) n s' ∧ Q a s') s := by
  show wp _ (iterate body (fuel s + 1) b) _ s
  apply wp_iterate_affords hbody ?_ hb h
  have hmany : potential s ≤ (r + k) * potential s := Nat.le_mul_of_pos_left _ (by omega)
  unfold Affords at h
  omega

end Loops

end Prog
