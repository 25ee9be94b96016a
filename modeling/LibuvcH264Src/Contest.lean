import Mathlib.Data.List.Basic
import Mathlib.Tactic

/-!
# Contests

Entries come one after the other. One that is larger than the incumbent, or as large with a higher bid than
what the incumbent yields, takes its place.

* `Held`, `challenge`, `contest` : the incumbent, what an entry does to it, and all of them;
* `Beaten` : an incumbent that an entry takes the place of;
* `contest_size` : no entry is larger than the incumbent in the end;
* `contest_split` : the incumbent in the end is an entry that none behind it beats;
* `contest_of_split` : where that is so of an entry that beats or equals all before it, it is what is left.
-/

namespace Contest
variable {ε : Type}

/-- What an entry is worth: its size, what it bids and what it yields. -/
structure Worth (ε : Type) where
  size : ε → Int
  bid : ε → Int
  yield : ε → Int

/-- The incumbent, if there is one, with its size and what it yields. -/
structure Held (ε : Type) where
  size : Int
  yield : Int
  winner : Option ε

variable (v : Worth ε)

def Beaten (h : Held ε) (x : ε) : Prop := h.size < v.size x ∨ v.size x = h.size ∧ h.yield < v.bid x

instance (h : Held ε) (x : ε) : Decidable (Beaten v h x) := inferInstanceAs (Decidable (_ ∨ _))

/-- The entry as an incumbent. -/
def Worth.held (x : ε) : Held ε := ⟨v.size x, v.yield x, some x⟩

def challenge (h : Held ε) (x : ε) : Held ε := if Beaten v h x then v.held x else h

def contest (h : Held ε) (xs : List ε) : Held ε := xs.foldl (challenge v) h

variable {v} {h : Held ε} {x : ε} {xs before after : List ε}

@[simp] theorem contest_nil : contest v h [] = h := rfl

@[simp] theorem contest_cons : contest v h (x :: xs) = contest v (challenge v h x) xs := rfl

theorem contest_append : contest v h (before ++ after) = contest v (contest v h before) after :=
  List.foldl_append

theorem challenge_size (v : Worth ε) (h : Held ε) (x : ε) : h.size ≤ (challenge v h x).size ∧ v.size x ≤ (challenge v h x).size := by
  unfold challenge
  split_ifs with hb
  · rcases hb with hb | ⟨hb, -⟩
    · exact ⟨hb.le, le_refl _⟩
    · exact ⟨hb.ge, le_refl _⟩
  · refine ⟨le_refl _, ?_⟩
    by_contra hlt
    exact hb (Or.inl (not_le.mp hlt))

/-- No entry is larger than the incumbent in the end. -/
theorem contest_size (v : Worth ε) (h : Held ε) (xs : List ε) : h.size ≤ (contest v h xs).size ∧ ∀ x ∈ xs, v.size x ≤ (contest v h xs).size := by
  induction xs generalizing h with
  | nil => exact ⟨le_refl _, fun x hx => absurd hx List.not_mem_nil⟩
  | cons y xs ih =>
    obtain ⟨hle, hrest⟩ := ih (challenge v h y)
    obtain ⟨hheld, hy⟩ := challenge_size v h y
    rw [contest_cons]
    refine ⟨hheld.trans hle, fun x hx => ?_⟩
    rcases List.mem_cons.mp hx with rfl | hx
    · exact hy.trans hle
    · exact hrest x hx

theorem contest_size_lt {n : Int} (hheld : h.size < n) (hxs : ∀ x ∈ xs, v.size x < n) : (contest v h xs).size < n := by
  induction xs generalizing h with
  | nil => exact hheld
  | cons y xs ih =>
    rw [contest_cons]
    apply ih
    · unfold challenge
      split_ifs
      · exact hxs y List.mem_cons_self
      · exact hheld
    · intro x hx
      exact hxs x (List.mem_cons_of_mem y hx)

/-- An incumbent that nothing beats stays. -/
theorem contest_eq (hxs : ∀ x ∈ xs, ¬ Beaten v h x) : contest v h xs = h := by
  induction xs with
  | nil => rfl
  | cons y xs ih =>
    have hy : challenge v h y = h := if_neg (hxs y List.mem_cons_self)
    rw [contest_cons, hy]
    apply ih
    intro x hx
    exact hxs x (List.mem_cons_of_mem y hx)

/-- The first incumbent is still there, or one of the entries is, which beat the incumbent that it found and
is beaten by none behind it. -/
theorem contest_split (v : Worth ε) (h : Held ε) (xs : List ε) :
    (contest v h xs = h ∧ ∀ x ∈ xs, ¬ Beaten v h x) ∨
      ∃ before x after, xs = before ++ x :: after ∧ Beaten v (contest v h before) x ∧
        (∀ y ∈ after, ¬ Beaten v (v.held x) y) ∧ contest v h xs = v.held x := by
  induction xs generalizing h with
  | nil => exact Or.inl ⟨rfl, fun x hx => absurd hx List.not_mem_nil⟩
  | cons y xs ih =>
    rw [contest_cons]
    rcases ih (challenge v h y) with ⟨hstays, hnone⟩ | ⟨before, x, after, rfl, hbeaten, hafter, heq⟩
    · by_cases hy : Beaten v h y
      · have hheld : challenge v h y = v.held y := if_pos hy
        rw [hheld] at hstays hnone
        refine Or.inr ⟨[], y, xs, rfl, hy, hnone, ?_⟩
        rw [hheld]
        exact hstays
      · have hheld : challenge v h y = h := if_neg hy
        rw [hheld] at hstays hnone
        rw [hheld]
        refine Or.inl ⟨hstays, fun x hx => ?_⟩
        rcases List.mem_cons.mp hx with rfl | hx
        · exact hy
        · exact hnone x hx
    · exact Or.inr ⟨y :: before, x, after, rfl, hbeaten, hafter, heq⟩

/-- A winner that was not there before is the incumbent in the end. -/
theorem contest_winner (hnew : h.winner = none) (hwinner : (contest v h xs).winner = some x) :
    contest v h xs = v.held x := by
  rcases contest_split v h xs with ⟨hstays, -⟩ | ⟨before, y, after, -, -, -, heq⟩
  · rw [hstays, hnew] at hwinner
    exact absurd hwinner nofun
  · rw [heq] at hwinner ⊢
    obtain rfl := Option.some.inj hwinner
    rfl

/-- An entry that is as large as all before it, and yields as much as the incumbent of its size, is what is
left in size and yield, if none behind it beats it. -/
theorem contest_of_split (hsize : (contest v h before).size ≤ v.size x)
    (hyield : (contest v h before).size = v.size x → (contest v h before).yield ≤ v.yield x)
    (hbid : v.yield x ≤ v.bid x) (hafter : ∀ y ∈ after, ¬ Beaten v (v.held x) y) :
    (contest v h (before ++ x :: after)).size = v.size x ∧ (contest v h (before ++ x :: after)).yield = v.yield x := by
  rw [contest_append, contest_cons]
  obtain ⟨hs, hy⟩ : (challenge v (contest v h before) x).size = v.size x ∧
      (challenge v (contest v h before) x).yield = v.yield x := by
    unfold challenge
    split_ifs with hb
    · exact ⟨rfl, rfl⟩
    · unfold Beaten at hb
      omega
  have hstays : contest v (challenge v (contest v h before) x) after = challenge v (contest v h before) x := by
    apply contest_eq
    intro y hmem hb
    apply hafter y hmem
    unfold Beaten at hb ⊢
    rw [hs, hy] at hb
    exact hb
  rw [hstays]
  exact ⟨hs, hy⟩

end Contest
