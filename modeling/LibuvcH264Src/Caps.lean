import Mathlib.Data.Rat.Floor
import Mathlib.Tactic

/-!
# Caps as sets of modes

* `Fraction`, `Rates`, `Structure` : a caps structure with a geometry and a framerate field, over
  whatever other fields it has;
* `Rates.Offers`, `Structure.Offers`, `Offered` : the modes that a field, a structure, a list offers;
* `Rates.contains` : whether a field intersects with one rate;
* `Restricts` : a structure cut down to the modes that satisfy a predicate;
* `Exact` : a list of structures cut down so, in order and without leftovers;
* `exact_filterMap` : it is enough to be exact structure by structure;
* `Rates.nearest` : the offered rate that is nearest to a whole number.
-/

namespace Caps

/-- A fraction of machine integers, with a positive denominator. -/
structure Fraction where
  num : Int
  den : Int
  le_num : -2147483647 ≤ num
  num_le : num ≤ 2147483647
  den_pos : 0 < den
  den_le : den ≤ 2147483647
  deriving DecidableEq

namespace Fraction

def value (f : Fraction) : ℚ := f.num / f.den

theorem value_den_pos (f : Fraction) : (0 : ℚ) < f.den := by exact_mod_cast f.den_pos

theorem value_le_natCast {f : Fraction} {k : Nat} : f.value ≤ k ↔ f.num ≤ k * f.den := by
  unfold value
  rw [div_le_iff₀ f.value_den_pos]
  exact_mod_cast Iff.rfl

theorem value_lt {f f' : Fraction} : f.value < f'.value ↔ f.num * f'.den < f'.num * f.den := by
  unfold value
  rw [div_lt_div_iff₀ f.value_den_pos f'.value_den_pos]
  exact_mod_cast Iff.rfl

theorem value_le {f f' : Fraction} : f.value ≤ f'.value ↔ f.num * f'.den ≤ f'.num * f.den := by
  unfold value
  rw [div_le_div_iff₀ f.value_den_pos f'.value_den_pos]
  exact_mod_cast Iff.rfl

theorem value_eq {f f' : Fraction} : f.value = f'.value ↔ f.num * f'.den = f'.num * f.den := by
  unfold value
  rw [div_eq_div_iff (ne_of_gt f.value_den_pos) (ne_of_gt f'.value_den_pos)]
  exact_mod_cast Iff.rfl

theorem intCast_le_value {f : Fraction} {n : Int} : (n : ℚ) ≤ f.value ↔ n * f.den ≤ f.num := by
  unfold value
  rw [le_div_iff₀ f.value_den_pos]
  exact_mod_cast Iff.rfl

theorem value_le_intCast {f : Fraction} {n : Int} : f.value ≤ (n : ℚ) ↔ f.num ≤ n * f.den := by
  unfold value
  rw [div_le_iff₀ f.value_den_pos]
  exact_mod_cast Iff.rfl

/-- A whole number of units. -/
def whole (k : Nat) (h : k ≤ 2147483647) : Fraction where
  num := k
  den := 1
  le_num := by omega
  num_le := by omega
  den_pos := by decide
  den_le := by decide

@[simp] theorem value_whole (k : Nat) (h : k ≤ 2147483647) : (whole k h).value = k := by
  simp [whole, value]

end Fraction

/-- The framerate field of a structure. `other` is a field of any other type. -/
inductive Rates where
  | absent
  | fraction (f : Fraction)
  | list (fs : List Fraction)
  | range (lo hi : Fraction)
  | other
  deriving DecidableEq

/-- The rates that the field offers; `none` is a mode without one. -/
def Rates.Offers : Rates → Option ℚ → Prop
  | .absent, r => r = none
  | .fraction f, r => r = some f.value
  | .list fs, r => ∃ f ∈ fs, r = some f.value
  | .range lo hi, r => ∃ q, r = some q ∧ lo.value ≤ q ∧ q ≤ hi.value
  | .other, _ => False

/-- Whether the field intersects with one rate. -/
def Rates.contains (f : Fraction) : Rates → Bool
  | .absent => true
  | .fraction f' => f'.num * f.den == f.num * f'.den
  | .list fs => fs.any fun f' => f'.num * f.den == f.num * f'.den
  | .range lo hi => lo.num * f.den ≤ f.num * lo.den && f.num * hi.den ≤ hi.num * f.den
  | .other => false

theorem Rates.contains_iff {f : Fraction} {rates : Rates} (h : rates ≠ .absent) :
    rates.contains f = true ↔ rates.Offers (some f.value) := by
  cases rates with
  | absent => exact absurd rfl h
  | fraction f' =>
    simp only [contains, Offers, beq_iff_eq, Option.some.injEq]
    rw [eq_comm , Fraction.value_eq]
  | list fs =>
    simp only [contains, Offers, List.any_eq_true, beq_iff_eq, Option.some.injEq]
    exact exists_congr fun f' => and_congr_right fun _ => by rw [eq_comm , Fraction.value_eq]
  | range lo hi =>
    simp only [contains, Offers, Bool.and_eq_true, decide_eq_true_eq, Option.some.injEq, exists_eq_left',
      Fraction.value_le]
  | other => simp [contains, Offers]

def Rates.WellFormed : Rates → Prop
  | .list fs => fs ≠ []
  | .range lo hi => lo.value < hi.value
  | _ => True

/-- A structure. A width or a height that is not an integer is `none`. -/
structure Structure (α : Type) where
  fields : α
  width : Option Int
  height : Option Int
  framerate : Rates
  deriving DecidableEq

/-- One mode. -/
structure Mode (α : Type) where
  fields : α
  width : Option Int
  height : Option Int
  rate : Option ℚ

variable {α : Type}

def Structure.Offers (s : Structure α) (m : Mode α) : Prop :=
  m.fields = s.fields ∧ m.width = s.width ∧ m.height = s.height ∧ s.framerate.Offers m.rate

def Offered (caps : List (Structure α)) (m : Mode α) : Prop := ∃ s ∈ caps, s.Offers m

/-- The mode of a structure at one rate. -/
def Structure.mode (s : Structure α) (rate : Option ℚ) : Mode α := ⟨s.fields, s.width, s.height, rate⟩

theorem Structure.offers_mode {s : Structure α} {rate : Option ℚ} :
    s.Offers (s.mode rate) ↔ s.framerate.Offers rate := by
  simp [Structure.Offers, Structure.mode]

theorem Structure.Offers.eq_mode {s : Structure α} {m : Mode α} (h : s.Offers m) :
    m = s.mode m.rate := by
  obtain ⟨hf, hw, hh, -⟩ := h
  unfold Structure.mode
  rw [← hf, ← hw, ← hh]

section Filters
variable (P : Mode α → Prop)

/-- `s'` offers what `s` offers and `P` admits. -/
def Restricts (s s' : Structure α) : Prop := ∀ m, s'.Offers m ↔ s.Offers m ∧ P m

/-- `s` offers something that `P` admits. -/
def Fits (s : Structure α) : Prop := ∃ m, s.Offers m ∧ P m

open Classical in
/-- `out` is `caps` cut down to the modes that `P` admits. -/
structure Exact (caps out : List (Structure α)) : Prop where
  modes : ∀ m, Offered out m ↔ Offered caps m ∧ P m
  wellFormed : ∀ s ∈ out, s.framerate.WellFormed
  order : List.Forall₂ (Restricts P) (caps.filter (Fits P)) out

/-- What becomes of one structure in an exact filter. -/
def ExactOn (s : Structure α) : Option (Structure α) → Prop
  | none => ∀ m, s.Offers m → ¬ P m
  | some s' => Restricts P s s' ∧ s'.framerate.WellFormed ∧ ∃ m, s'.Offers m

variable {P}

theorem ExactOn.fits {s s' : Structure α} (h : ExactOn P s (some s')) : Fits P s := by
  obtain ⟨hr, -, m, hm⟩ := h
  exact ⟨m, (hr m).mp hm⟩

theorem ExactOn.not_fits {s : Structure α} (h : ExactOn P s none) : ¬ Fits P s :=
  fun ⟨m, hm, hp⟩ => h m hm hp

theorem exact_nil : Exact P ([] : List (Structure α)) [] where
  modes := fun m => by simp [Offered]
  wellFormed := fun s hs => absurd hs List.not_mem_nil
  order := .nil

theorem offered_cons {s : Structure α} {caps : List (Structure α)} {m : Mode α} :
    Offered (s :: caps) m ↔ s.Offers m ∨ Offered caps m := by
  simp [Offered]

theorem Exact.cons_none {s : Structure α} {caps out : List (Structure α)}
    (hs : ExactOn P s none) (h : Exact P caps out) : Exact P (s :: caps) out where
  modes := fun m => by
    rw [h.modes m, offered_cons]
    refine ⟨fun ⟨ho, hp⟩ => ⟨.inr ho, hp⟩, fun ⟨ho, hp⟩ => ⟨?_, hp⟩⟩
    exact ho.resolve_left fun hm => hs m hm hp
  wellFormed := h.wellFormed
  order := by
    rw [List.filter_cons_of_neg (by simpa using hs.not_fits)]
    exact h.order

theorem Exact.cons_some {s s' : Structure α} {caps out : List (Structure α)}
    (hs : ExactOn P s (some s')) (h : Exact P caps out) : Exact P (s :: caps) (s' :: out) where
  modes := fun m => by
    rw [offered_cons, offered_cons, h.modes m, hs.1 m, or_and_right]
  wellFormed := by
    intro t ht
    rcases List.mem_cons.mp ht with rfl | ht
    · exact hs.2.1
    · exact h.wellFormed t ht
  order := by
    rw [List.filter_cons_of_pos (by simpa using hs.fits)]
    exact .cons hs.1 h.order

/-- **Filters compose structure by structure**. -/
theorem exact_filterMap {f : Structure α → Option (Structure α)} {caps : List (Structure α)}
    (h : ∀ s ∈ caps, ExactOn P s (f s)) : Exact P caps (caps.filterMap f) := by
  induction caps with
  | nil => exact exact_nil
  | cons s caps ih =>
    have hs := h s List.mem_cons_self
    have hrest := ih fun t ht => h t (List.mem_cons_of_mem s ht)
    cases hf : f s with
    | none =>
      rw [List.filterMap_cons_none hf]
      exact hrest.cons_none (hf ▸ hs)
    | some s' =>
      rw [List.filterMap_cons_some hf]
      exact hrest.cons_some (hf ▸ hs)

/-! ## One structure at a time -/

theorem Rates.WellFormed.offers {rates : Rates} (h : rates.WellFormed) (ho : rates ≠ .other) :
    ∃ r, rates.Offers r := by
  match rates with
  | .absent => exact ⟨none, rfl⟩
  | .fraction f => exact ⟨some f.value, rfl⟩
  | .list fs =>
    obtain ⟨f, hf⟩ := List.exists_mem_of_ne_nil fs h
    exact ⟨some f.value, f, hf, rfl⟩
  | .range lo hi =>
    have hlt : lo.value < hi.value := h
    exact ⟨some lo.value, lo.value, rfl, le_refl _, hlt.le⟩
  | .other => exact absurd rfl ho

theorem exactOn_none {s : Structure α} (h : ∀ r, s.framerate.Offers r → ¬ P (s.mode r)) :
    ExactOn P s none := by
  intro m hm
  rw [hm.eq_mode]
  exact h _ hm.2.2.2

theorem exactOn_framerate {s : Structure α} {rates : Rates}
    (h : ∀ r, rates.Offers r ↔ s.framerate.Offers r ∧ P (s.mode r)) (hw : rates.WellFormed)
    (ho : rates ≠ .other) : ExactOn P s (some { s with framerate := rates }) := by
  refine ⟨fun m => ⟨fun hm => ?_, fun ⟨hm, hp⟩ => ?_⟩, hw, ?_⟩
  · obtain ⟨hr, hp⟩ := (h m.rate).mp hm.2.2.2
    have hs : s.Offers m := ⟨hm.1, hm.2.1, hm.2.2.1, hr⟩
    exact ⟨hs, hs.eq_mode ▸ hp⟩
  · exact ⟨hm.1, hm.2.1, hm.2.2.1, (h m.rate).mpr ⟨hm.2.2.2, hm.eq_mode ▸ hp⟩⟩
  · obtain ⟨r, hr⟩ := hw.offers ho
    exact ⟨_, Structure.offers_mode.mpr hr⟩

theorem exactOn_self {s : Structure α} (h : ∀ r, s.framerate.Offers r → P (s.mode r))
    (hw : s.framerate.WellFormed) (ho : s.framerate ≠ .other) : ExactOn P s (some s) :=
  exactOn_framerate (fun r => ⟨fun hr => ⟨hr, h r hr⟩, And.left⟩) hw ho

end Filters

/-! ## The nearest rate -/

/-- `f` is at least as near to so many units as `f'`. -/
def Fraction.Nearer (n : Int) (f f' : Fraction) : Prop :=
  |f.num - n * f.den| * f'.den ≤ |f'.num - n * f'.den| * f.den

instance (n : Int) (f f' : Fraction) : Decidable (Fraction.Nearer n f f') :=
  inferInstanceAs (Decidable (_ ≤ _))

theorem Fraction.nearer_iff {n : Int} {f f' : Fraction} :
    Fraction.Nearer n f f' ↔ |f.value - n| ≤ |f'.value - n| := by
  have hdist : ∀ f : Fraction, |f.value - n| = (|f.num - n * f.den| : Int) / f.den := by
    intro f
    have hden := f.value_den_pos
    unfold Fraction.value
    rw [div_sub' (ne_of_gt hden), abs_div, abs_of_pos hden]
    push_cast
    rw [mul_comm (f.den : ℚ)]
  rw [hdist, hdist, div_le_div_iff₀ f.value_den_pos f'.value_den_pos]
  unfold Fraction.Nearer
  exact_mod_cast Iff.rfl

/-- The first of the nearest. -/
def nearestOf (n : Int) : Fraction → List Fraction → Fraction
  | f, [] => f
  | f, f' :: rest => nearestOf n (if Fraction.Nearer n f f' then f else f') rest

theorem nearestOf_mem (n : Int) (f : Fraction) (fs : List Fraction) : nearestOf n f fs ∈ f :: fs := by
  induction fs generalizing f with
  | nil => exact List.mem_singleton_self f
  | cons f' rest ih =>
    rw [nearestOf]
    rcases List.mem_cons.mp (ih (if Fraction.Nearer n f f' then f else f')) with h | h
    · rw [h]
      split
      · exact List.mem_cons_self
      · exact List.mem_cons_of_mem f List.mem_cons_self
    · exact List.mem_cons_of_mem f (List.mem_cons_of_mem f' h)

theorem nearestOf_le (n : Int) (f : Fraction) (fs : List Fraction) :
    ∀ f' ∈ f :: fs, |(nearestOf n f fs).value - n| ≤ |f'.value - n| := by
  induction fs generalizing f with
  | nil =>
    intro f' hf'
    rw [List.mem_singleton.mp hf', nearestOf]
  | cons f₁ rest ih =>
    rw [nearestOf]
    by_cases hn : Fraction.Nearer n f f₁
    · rw [if_pos hn]
      intro f' hf'
      rcases List.mem_cons.mp hf' with rfl | hf'
      · exact ih _ _ List.mem_cons_self
      · rcases List.mem_cons.mp hf' with rfl | hf'
        · exact (ih f f List.mem_cons_self).trans (Fraction.nearer_iff.mp hn)
        · exact ih f f' (List.mem_cons_of_mem _ hf')
    · rw [if_neg hn]
      intro f' hf'
      rcases List.mem_cons.mp hf' with rfl | hf'
      · exact (ih f₁ f₁ List.mem_cons_self).trans (not_le.mp (Fraction.nearer_iff.not.mp hn)).le
      · exact ih f₁ f' hf'

/-- The fraction in a range that is nearest to `n`. -/
def nearestIn (n : Int) (lo hi : Fraction) : Option Fraction :=
  if hi.num * lo.den < lo.num * hi.den then none
  else if hlo : n * lo.den ≤ lo.num then some lo
  else if hhi : hi.num ≤ n * hi.den then some hi
  else some {
    num := n
    den := 1
    le_num := by
      have hl := lo.le_num
      have hd := lo.den_pos
      nlinarith
    num_le := by
      have hh := hi.num_le
      have hd := hi.den_pos
      nlinarith
    den_pos := by decide
    den_le := by decide }

theorem nearestIn_spec {n : Int} {lo hi : Fraction} {q : ℚ} (hlo : lo.value ≤ q) (hhi : q ≤ hi.value) :
    ∃ f, nearestIn n lo hi = some f ∧ |f.value - n| ≤ |q - n| := by
  unfold nearestIn
  rw [if_neg (not_lt.mpr (Fraction.value_le.mp (hlo.trans hhi)))]
  split_ifs with h1 h2
  · have hn : (n : ℚ) ≤ lo.value := Fraction.intCast_le_value.mpr h1
    refine ⟨lo, rfl, ?_⟩
    rw [abs_of_nonneg (by linarith), abs_of_nonneg (by linarith)]
    linarith
  · have hn : hi.value ≤ n := Fraction.value_le_intCast.mpr h2
    refine ⟨hi, rfl, ?_⟩
    rw [abs_of_nonpos (by linarith), abs_of_nonpos (by linarith)]
    linarith
  · refine ⟨_, rfl, ?_⟩
    simp [Fraction.value]

theorem nearestIn_mem {n : Int} {lo hi f : Fraction} (h : nearestIn n lo hi = some f) :
    lo.value ≤ f.value ∧ f.value ≤ hi.value := by
  unfold nearestIn at h
  split_ifs at h with h0 h1 h2
  · rw [← Option.some.inj h]
    exact ⟨le_refl _, Fraction.value_le.mpr (not_lt.mp h0)⟩
  · rw [← Option.some.inj h]
    exact ⟨Fraction.value_le.mpr (not_lt.mp h0), le_refl _⟩
  · rw [← Option.some.inj h]
    have hvalue : ∀ h₁ h₂ h₃ h₄, (Fraction.mk n 1 h₁ h₂ h₃ h₄).value = n := by simp [Fraction.value]
    rw [hvalue]
    exact ⟨(not_le.mp (Fraction.intCast_le_value.not.mpr h1)).le,
      (not_le.mp (Fraction.value_le_intCast.not.mpr h2)).le⟩

/-- The offered rate that is nearest to `n`. -/
def Rates.nearest (rates : Rates) (n : Int) : Option Fraction :=
  match rates with
  | .fraction f => some f
  | .list (f :: fs) => some (nearestOf n f fs)
  | .range lo hi => nearestIn n lo hi
  | _ => none

theorem Rates.nearest_offers {rates : Rates} {n : Int} {f : Fraction} (h : rates.nearest n = some f) :
    rates.Offers (some f.value) := by
  cases rates with
  | absent => exact absurd h nofun
  | fraction f' =>
    rw [← Option.some.inj h]
    rfl
  | list fs =>
    cases fs with
    | nil => exact absurd h nofun
    | cons f' fs =>
      rw [← Option.some.inj h]
      exact ⟨_, nearestOf_mem n f' fs, rfl⟩
  | range lo hi => exact ⟨f.value, rfl, nearestIn_mem h⟩
  | other => exact absurd h nofun

theorem Rates.nearest_le {rates : Rates} {n : Int} {q : ℚ} (h : rates.Offers (some q)) :
    ∃ f, rates.nearest n = some f ∧ |f.value - n| ≤ |q - n| := by
  cases rates with
  | absent => exact absurd h nofun
  | fraction f =>
    refine ⟨f, rfl, ?_⟩
    rw [Option.some.inj h]
  | list fs =>
    obtain ⟨f', hf', hq⟩ := h
    cases fs with
    | nil => exact absurd hf' List.not_mem_nil
    | cons f fs =>
      refine ⟨_, rfl, ?_⟩
      rw [Option.some.inj hq]
      exact nearestOf_le n f fs f' hf'
  | range lo hi =>
    obtain ⟨q', hq, hlo, hhi⟩ := h
    obtain rfl := Option.some.inj hq
    exact nearestIn_spec hlo hhi
  | other => exact h.elim

end Caps
