import Mathlib.Data.List.Count

/-!
# Ledgers

A log, newest entry first, whose entries take or drop resources.

* `Use` : what an entry does to the resources of one kind;
* `outstanding use log` : what was taken and not released since;
* `Sound use log` : every drop is of something outstanding;
* `taken_eq` : in a sound log, what was taken was released or is outstanding.
-/

namespace Ledger
variable {ε ρ : Type}

inductive Use (ρ : Type) where
  | takes (r : ρ)
  | drops (r : ρ)
  | neither

variable [DecidableEq ρ] (use : ε → Use ρ)

def outstanding : List ε → List ρ
  | [] => []
  | e :: log =>
    match use e with
    | .takes r => r :: outstanding log
    | .drops r => (outstanding log).erase r
    | .neither => outstanding log

/-- No entry drops what is not outstanding. -/
def Sound : List ε → Prop
  | [] => True
  | e :: log =>
    match use e with
    | .drops r => r ∈ outstanding use log ∧ Sound log
    | _ => Sound log

/-- How often `r` was taken. -/
def taken (r : ρ) : List ε → Nat
  | [] => 0
  | e :: log =>
    match use e with
    | .takes r' => taken r log + if r' = r then 1 else 0
    | _ => taken r log

/-- How often `r` was released. -/
def released (r : ρ) : List ε → Nat
  | [] => 0
  | e :: log =>
    match use e with
    | .drops r' => released r log + if r' = r then 1 else 0
    | _ => released r log

variable {use} {e : ε} {r : ρ} {log : List ε}

theorem outstanding_takes (he : use e = .takes r) : outstanding use (e :: log) = r :: outstanding use log := by
  rw [outstanding, he]

theorem outstanding_drops (he : use e = .drops r) : outstanding use (e :: log) = (outstanding use log).erase r := by
  rw [outstanding, he]

theorem outstanding_neither (he : use e = .neither) : outstanding use (e :: log) = outstanding use log := by
  rw [outstanding, he]

theorem sound_takes (he : use e = .takes r) : Sound use (e :: log) ↔ Sound use log := by
  rw [Sound, he]

theorem sound_drops (he : use e = .drops r) :
    Sound use (e :: log) ↔ r ∈ outstanding use log ∧ Sound use log := by
  rw [Sound, he]

theorem sound_neither (he : use e = .neither) : Sound use (e :: log) ↔ Sound use log := by
  rw [Sound, he]

theorem outstanding_takes_first (he : use e = .takes r) (hnone : outstanding use log = []) :
    outstanding use (e :: log) = [r] := by
  rw [outstanding_takes he, hnone]

theorem outstanding_drops_last (he : use e = .drops r) (hheld : outstanding use log = [r]) :
    outstanding use (e :: log) = [] := by
  rw [outstanding_drops he, hheld, List.erase_cons_head]

theorem sound_drops_last (he : use e = .drops r) (hheld : outstanding use log = [r]) (h : Sound use log) :
    Sound use (e :: log) := by
  apply (sound_drops he).mpr
  rw [hheld]
  exact ⟨List.mem_singleton_self r, h⟩

/-- **The balance** of a sound log. -/
theorem taken_eq (h : Sound use log) (r : ρ) :
    taken use r log = released use r log + (outstanding use log).count r := by
  induction log with
  | nil => rfl
  | cons e log ih =>
    unfold Sound at h
    unfold taken released outstanding
    cases huse : use e with
    | takes r' =>
      simp only [huse] at h ⊢
      rw [ih h, List.count_cons]
      by_cases hr : r' = r
      · simp [hr, Nat.add_assoc]
      · simp [hr]
    | drops r' =>
      simp only [huse] at h ⊢
      rw [ih h.2]
      by_cases hr : r' = r
      · obtain rfl := hr
        have hpos : 0 < (outstanding use log).count r' := List.count_pos_iff.mpr h.1
        rw [List.count_erase_self, if_pos rfl]
        omega
      · rw [List.count_erase_of_ne (Ne.symm hr), if_neg hr]
        rfl
    | neither =>
      simp only [huse] at h ⊢
      exact ih h

/-- Where nothing is outstanding, everything was released as often as it was taken. -/
theorem taken_eq_released (h : Sound use log) (hnone : outstanding use log = []) (r : ρ) :
    taken use r log = released use r log := by
  rw [taken_eq h, hnone]
  rfl

end Ledger
