import LibuvcH264Src.AccessUnit

/-!
# The partition law

* `AudAt`, `SliceAt`, `OpensAt` : what the unit of an index is;
* `RunCut` : a cut at the head of the run of non-slices in front of a slice that opens a picture;
* `PartitionLaw` : what the starts of the access units are;
* `SplitState.advance`, `SplitState.Sees` : one turn of the loop, and what its locals know of the units so far;
* `splitAccessUnits_law` : the law holds of any units.
-/

namespace LibuvcH264Src
open AnnexB

/-! ## Units by index -/

section Units
variable (format : FrameFormat) (units : List NalUnit)

def AudAt (i : Nat) : Prop := ∃ u ∈ units[i]?, u.type = .aud

def SliceAt (i : Nat) : Prop := ∃ u ∈ units[i]?, nalIsSlice u.type = true

/-- A slice that opens a new picture. -/
def OpensAt (i : Nat) : Prop := ∃ u ∈ units[i]?, nalIsSlice u.type = true ∧ nalOpensNewPicture format u = true

/-- From `p` on, non-slices only up to a slice that opens a picture; right in front of `p` there is a slice, and
it lies in the access unit in front of `p`. -/
structure RunCut (starts : List Nat) (p : Nat) : Prop where
  run : ∃ i, p ≤ i ∧ OpensAt format units i ∧ ∀ j, p ≤ j → j < i → ¬ SliceAt units j
  head : 0 < p ∧ SliceAt units (p - 1)
  previous : ∃ j < p, SliceAt units j ∧ ∀ q ∈ starts, q < p → q ≤ j

/-- What the starts of the access units are. -/
structure PartitionLaw (starts : List Nat) : Prop where
  sorted : starts.Pairwise (· < ·)
  first : starts.head? = if units = [] then none else some 0
  below : ∀ p ∈ starts, p < units.length
  partition : (accessUnits units starts).flatten = units
  aud : ∀ i, AudAt units i → i ∈ starts
  opens : ∀ i, OpensAt format units i → ∀ j < i, SliceAt units j → ∃ p ∈ starts, j < p ∧ p ≤ i
  cut : ∀ p ∈ starts, p ≠ 0 → AudAt units p ∨ RunCut format units starts p
  joined : ∀ i j, SliceAt units i → SliceAt units j → ¬ OpensAt format units j →
    (∀ k, i < k → k < j → ¬ SliceAt units k) → ∀ p ∈ starts, i < p → p ≤ j → AudAt units p

end Units

section Lookup
variable {format : FrameFormat} {units : List NalUnit} {i : Nat} {u : NalUnit}

theorem audAt_iff (hu : units[i]? = some u) : AudAt units i ↔ u.type = .aud := by
  unfold AudAt
  simp only [hu, Option.mem_some_iff, exists_eq_left']

theorem sliceAt_iff (hu : units[i]? = some u) : SliceAt units i ↔ nalIsSlice u.type = true := by
  unfold SliceAt
  simp only [hu, Option.mem_some_iff, exists_eq_left']

theorem opensAt_iff (hu : units[i]? = some u) :
    OpensAt format units i ↔ nalIsSlice u.type = true ∧ nalOpensNewPicture format u = true := by
  unfold OpensAt
  simp only [hu, Option.mem_some_iff, exists_eq_left']

theorem OpensAt.slice (h : OpensAt format units i) : SliceAt units i := by
  obtain ⟨u, hu, hslice, -⟩ := h
  exact ⟨u, hu, hslice⟩

theorem SliceAt.lt (h : SliceAt units i) : i < units.length := by
  obtain ⟨u, hu, -⟩ := h
  obtain ⟨hlt, -⟩ := List.getElem?_eq_some_iff.mp hu
  exact hlt

theorem AudAt.lt (h : AudAt units i) : i < units.length := by
  obtain ⟨u, hu, -⟩ := h
  obtain ⟨hlt, -⟩ := List.getElem?_eq_some_iff.mp hu
  exact hlt

end Lookup

/-- Starts that grow cut the units into all of them. -/
theorem flatten_accessUnits (units : List NalUnit) (first : Nat) (starts : List Nat)
    (h : (first :: starts).Pairwise (· < ·)) : (accessUnits units (first :: starts)).flatten = units.drop first := by
  induction starts generalizing first with
  | nil => exact List.append_nil _
  | cons next starts ih =>
    obtain ⟨hlt, hrest⟩ := List.pairwise_cons.mp h
    have hle : first ≤ next := (hlt next List.mem_cons_self).le
    calc (accessUnits units (first :: next :: starts)).flatten
        = (units.drop first).take (next - first) ++ units.drop next := by
          rw [accessUnits, List.flatten_cons, ih next hrest]
      _ = (units.drop first).take (next - first) ++ (units.drop first).drop (next - first) := by
          rw [List.drop_drop, Nat.add_sub_cancel' hle]
      _ = units.drop first := List.take_append_drop _ _

/-! ## One turn of the loop -/

section Turn
variable (format : FrameFormat)

/-- The locals behind the turn of the unit `u` of index `i`, with room for one more start. -/
def SplitState.advance (s : SplitState) (i : Nat) (u : NalUnit) : SplitState where
  starts := s.starts ++ (boundaryAt format s i u).toList
  auHasSlice := nalIsSlice u.type || s.auHasSlice && (boundaryAt format s i u).isNone
  nonvclRun := if nalIsSlice u.type then none else some (s.nonvclRun.getD i)

theorem SplitState.note_eq (s : SplitState) (i : Nat) (u : NalUnit) :
    s.note i u = ⟨s.starts, nalIsSlice u.type || s.auHasSlice,
      if nalIsSlice u.type then none else some (s.nonvclRun.getD i)⟩ := by
  unfold SplitState.note
  split_ifs with hslice hrun
  · rw [hslice]
    rfl
  · rw [hrun, Bool.not_eq_true _ |>.mp hslice]
    rfl
  · obtain ⟨r, hr⟩ := Option.ne_none_iff_exists'.mp hrun
    rw [hr, Bool.not_eq_true _ |>.mp hslice, Option.getD_some, ← hr]
    rfl

theorem SplitState.advance_some {s : SplitState} {i : Nat} {u : NalUnit} {pos : Nat}
    (hb : boundaryAt format s i u = some pos) : s.advance format i u = (s.cut pos).note i u := by
  unfold SplitState.advance
  rw [SplitState.note_eq, hb]
  simp only [SplitState.cut, Option.toList_some, Option.isNone_some, Bool.and_false, Bool.or_false]

theorem SplitState.advance_none {s : SplitState} {i : Nat} {u : NalUnit} (hb : boundaryAt format s i u = none) :
    s.advance format i u = s.note i u := by
  unfold SplitState.advance
  rw [SplitState.note_eq, hb]
  simp only [Option.toList_none, List.append_nil, Option.isNone_none, Bool.and_true]

theorem splitLoop_advance (maxStarts : Nat) (u : NalUnit) (units : List NalUnit) (i : Nat) (s : SplitState)
    (hroom : s.starts.length < maxStarts) :
    splitLoop format maxStarts (u :: units) i s = splitLoop format maxStarts units (i + 1) (s.advance format i u) := by
  rw [splitLoop]
  cases hb : boundaryAt format s i u with
  | some pos => simp only [if_neg (Nat.not_le.mpr hroom), SplitState.advance_some format hb]
  | none => simp only [SplitState.advance_none format hb]

/-- The three boundaries: the first unit, a delimiter, and the run in front of a slice that opens a picture. -/
inductive SplitCut (s : SplitState) (i : Nat) (u : NalUnit) : Nat → Prop
  | first (hstarts : s.starts = []) : SplitCut s i u 0
  | aud (haud : u.type = .aud) : SplitCut s i u i
  | opens (hslice : nalIsSlice u.type = true) (hhas : s.auHasSlice = true)
      (hopens : nalOpensNewPicture format u = true) : SplitCut s i u (s.nonvclRun.getD i)

theorem boundaryAt_some {s : SplitState} {i : Nat} {u : NalUnit} {pos : Nat}
    (h : boundaryAt format s i u = some pos) : SplitCut format s i u pos := by
  unfold boundaryAt at h
  split_ifs at h with hfirst haud hslice
  · obtain rfl := Option.some.inj h
    exact .first (List.length_eq_zero_iff.mp hfirst)
  · obtain rfl := Option.some.inj h
    exact .aud haud
  · obtain rfl := Option.some.inj h
    exact .opens hslice.1 hslice.2.1 hslice.2.2

theorem boundaryAt_none {s : SplitState} {i : Nat} {u : NalUnit} (h : boundaryAt format s i u = none) :
    s.starts ≠ [] ∧ u.type ≠ .aud ∧
      ¬ (nalIsSlice u.type = true ∧ s.auHasSlice = true ∧ nalOpensNewPicture format u = true) := by
  unfold boundaryAt at h
  split_ifs at h with hfirst haud hslice
  exact ⟨fun hnil => hfirst (by rw [hnil]; rfl), haud, hslice⟩

end Turn

/-! ## What the locals know -/

section Sees
variable (format : FrameFormat) (units : List NalUnit)

/-- The locals in front of the unit of index `i`. -/
structure SplitState.Sees (s : SplitState) (i : Nat) : Prop where
  ordered : s.Ordered i
  /-- The access unit under way holds a slice. -/
  slice : s.auHasSlice = true → ∃ j < i, SliceAt units j ∧ ∀ p ∈ s.starts, p ≤ j
  noSlice : s.auHasSlice = false → ∀ j < i, SliceAt units j → ∃ p ∈ s.starts, j < p
  /-- The mark is at the head of the run of non-slices in front of `i`. -/
  run : ∀ r ∈ s.nonvclRun, (∀ j, r ≤ j → j < i → ¬ SliceAt units j) ∧ (0 < r → SliceAt units (r - 1))
  noRun : s.nonvclRun = none → 0 < i → SliceAt units (i - 1)
  aud : ∀ j < i, AudAt units j → j ∈ s.starts
  opens : ∀ j < i, OpensAt format units j → ∀ k < j, SliceAt units k → ∃ p ∈ s.starts, k < p ∧ p ≤ j
  cut : ∀ p ∈ s.starts, p ≠ 0 → AudAt units p ∨ RunCut format units s.starts p

theorem SplitState.sees_init : SplitState.init.Sees format units 0 where
  ordered := SplitState.ordered_init
  slice h := absurd h Bool.false_ne_true
  noSlice _ j hj := absurd hj (Nat.not_lt_zero j)
  run r hr := by cases hr
  noRun _ h := absurd h (Nat.lt_irrefl 0)
  aud j hj := absurd hj (Nat.not_lt_zero j)
  opens j hj := absurd hj (Nat.not_lt_zero j)
  cut p hp := absurd hp List.not_mem_nil

end Sees

section Step
variable {format : FrameFormat} {units : List NalUnit} {s : SplitState} {i : Nat} {u : NalUnit}

theorem SplitState.Ordered.advance (h : s.Ordered i) (format : FrameFormat) (u : NalUnit) : (s.advance format i u).Ordered (i + 1) := by
  cases hb : boundaryAt format s i u with
  | some pos =>
    rw [SplitState.advance_some format hb]
    exact h.cut_note hb
  | none =>
    rw [SplitState.advance_none format hb]
    exact h.note (boundaryAt_none format hb).1 u

/-- Where a slice was seen since the last cut, the cut in front of the next picture lies behind it, and the units
from there on are no slices. -/
theorem SplitState.Sees.run_head (h : s.Sees format units i) (hhas : s.auHasSlice = true) :
    s.nonvclRun.getD i ≤ i ∧ 0 < s.nonvclRun.getD i ∧ SliceAt units (s.nonvclRun.getD i - 1) ∧
      (∀ j, s.nonvclRun.getD i ≤ j → j < i → ¬ SliceAt units j) ∧
      ∃ j < s.nonvclRun.getD i, SliceAt units j ∧ ∀ p ∈ s.starts, p ≤ j := by
  obtain ⟨j, hj, hslice, hlast⟩ := h.slice hhas
  cases hrun : s.nonvclRun with
  | none =>
    rw [Option.getD_none]
    exact ⟨le_refl i, by omega, h.noRun hrun (by omega), fun k hle hlt => absurd hle (by omega), j, hj, hslice, hlast⟩
  | some r =>
    obtain ⟨hnone, hbefore⟩ := h.run r hrun
    obtain ⟨hlt, -⟩ := h.ordered.run r hrun
    have hjr : j < r := by
      by_contra hle
      exact hnone j (not_lt.mp hle) hj hslice
    rw [Option.getD_some]
    exact ⟨hlt.le, by omega, hbefore (by omega), hnone, j, hjr, hslice, hlast⟩

theorem SplitState.starts_advance (s : SplitState) (i : Nat) (u : NalUnit) :
    ∀ p, p ∈ (s.advance format i u).starts ↔ p ∈ s.starts ∨ boundaryAt format s i u = some p := by
  intro p
  unfold SplitState.advance
  rw [List.mem_append, Option.mem_toList]

theorem SplitState.Ordered.lt_of_boundary (h : s.Ordered i) {pos : Nat} (hb : boundaryAt format s i u = some pos) :
    ∀ p ∈ s.starts, p < pos := by
  rcases boundaryAt_spec h hb with ⟨hnil, -⟩ | ⟨-, -, hlt⟩
  · intro p hp
    rw [hnil] at hp
    exact absurd hp List.not_mem_nil
  · exact hlt

theorem nalIsSlice_ne_aud {type : NalUnitType} (h : nalIsSlice type = true) : type ≠ .aud := by
  intro haud
  rw [haud] at h
  exact absurd h (by decide)

namespace SplitState.Sees

theorem advance_slice (h : s.Sees format units i) (hu : units[i]? = some u)
    (hhas : (s.advance format i u).auHasSlice = true) :
    ∃ j < i + 1, SliceAt units j ∧ ∀ p ∈ (s.advance format i u).starts, p ≤ j := by
  by_cases hslice : nalIsSlice u.type = true
  · refine ⟨i, Nat.lt_succ_self i, (sliceAt_iff hu).mpr hslice, fun p hp => ?_⟩
    exact Nat.le_of_lt_succ ((h.ordered.advance format u).below p hp)
  · unfold SplitState.advance at hhas
    rw [Bool.or_eq_true, Bool.and_eq_true, Option.isNone_iff_eq_none] at hhas
    obtain ⟨hhas, hnone⟩ := hhas.resolve_left hslice
    obtain ⟨j, hj, hsliceAt, hlast⟩ := h.slice hhas
    refine ⟨j, Nat.lt_succ_of_lt hj, hsliceAt, fun p hp => ?_⟩
    rcases (starts_advance s i u p).mp hp with hp | hp
    · exact hlast p hp
    · rw [hnone] at hp
      cases hp

theorem advance_noSlice (h : s.Sees format units i) (hu : units[i]? = some u)
    (hhas : (s.advance format i u).auHasSlice = false) {j : Nat} (hj : j < i + 1) (hslice : SliceAt units j) :
    ∃ p ∈ (s.advance format i u).starts, j < p := by
  unfold SplitState.advance at hhas
  rw [Bool.or_eq_false_iff, Bool.and_eq_false_iff] at hhas
  obtain ⟨hnot, hcut⟩ := hhas
  have hne : j ≠ i := by
    rintro rfl
    rw [(sliceAt_iff hu).mp hslice] at hnot
    cases hnot
  have hlt : j < i := by omega
  cases hb : boundaryAt format s i u with
  | none =>
    rw [hb] at hcut
    obtain ⟨p, hp, hjp⟩ := h.noSlice (hcut.resolve_right (by simp)) j hlt hslice
    exact ⟨p, (starts_advance s i u p).mpr (Or.inl hp), hjp⟩
  | some pos =>
    refine ⟨pos, (starts_advance s i u pos).mpr (Or.inr hb), ?_⟩
    cases boundaryAt_some format hb with
    | first hstarts =>
      have hzero := h.ordered.empty hstarts
      omega
    | aud haud => exact hlt
    | opens hslice' =>
      rw [hslice'] at hnot
      cases hnot

theorem advance_run (h : s.Sees format units i) (hu : units[i]? = some u) {r : Nat}
    (hr : r ∈ (s.advance format i u).nonvclRun) :
    (∀ j, r ≤ j → j < i + 1 → ¬ SliceAt units j) ∧ (0 < r → SliceAt units (r - 1)) := by
  unfold SplitState.advance at hr
  by_cases hslice : nalIsSlice u.type = true
  · simp only [if_pos hslice] at hr
    cases hr
  · simp only [if_neg hslice] at hr
    have hlast : ¬ SliceAt units i := fun hat => hslice ((sliceAt_iff hu).mp hat)
    obtain rfl := Option.some.inj hr
    cases hrun : s.nonvclRun with
    | none =>
      rw [Option.getD_none]
      refine ⟨fun j hle hlt => ?_, h.noRun hrun⟩
      obtain rfl : j = i := by omega
      exact hlast
    | some r =>
      rw [Option.getD_some]
      obtain ⟨hnone, hbefore⟩ := h.run r hrun
      refine ⟨fun j hle hlt => ?_, hbefore⟩
      by_cases hj : j = i
      · rw [hj]
        exact hlast
      · exact hnone j hle (by omega)

theorem advance_aud (h : s.Sees format units i) (hu : units[i]? = some u) {j : Nat} (hj : j < i + 1)
    (haud : AudAt units j) : j ∈ (s.advance format i u).starts := by
  by_cases hlt : j < i
  · exact (starts_advance s i u j).mpr (Or.inl (h.aud j hlt haud))
  · obtain rfl : j = i := by omega
    have htype := (audAt_iff hu).mp haud
    cases hb : boundaryAt format s j u with
    | none => exact absurd htype (boundaryAt_none format hb).2.1
    | some pos =>
      have hmem := (starts_advance s j u pos).mpr (Or.inr hb)
      cases boundaryAt_some format hb with
      | first hstarts =>
        rw [h.ordered.empty hstarts] at hmem ⊢
        exact hmem
      | aud => exact hmem
      | opens hslice => exact absurd htype (nalIsSlice_ne_aud hslice)

theorem advance_opens (h : s.Sees format units i) (hu : units[i]? = some u) {j : Nat} (hj : j < i + 1)
    (hopens : OpensAt format units j) {k : Nat} (hk : k < j) (hslice : SliceAt units k) :
    ∃ p ∈ (s.advance format i u).starts, k < p ∧ p ≤ j := by
  by_cases hlt : j < i
  · obtain ⟨p, hp, hkp⟩ := h.opens j hlt hopens k hk hslice
    exact ⟨p, (starts_advance s i u p).mpr (Or.inl hp), hkp⟩
  obtain rfl : j = i := by omega
  obtain ⟨hsliceType, hopensBit⟩ := (opensAt_iff hu).mp hopens
  cases hhas : s.auHasSlice with
  | false =>
    -- there was a cut behind every slice so far
    obtain ⟨p, hp, hkp⟩ := h.noSlice hhas k hk hslice
    exact ⟨p, (starts_advance s j u p).mpr (Or.inl hp), hkp, (h.ordered.below p hp).le⟩
  | true =>
    cases hb : boundaryAt format s j u with
    | none => exact absurd ⟨hsliceType, hhas, hopensBit⟩ (boundaryAt_none format hb).2.2
    | some pos =>
      refine ⟨pos, (starts_advance s j u pos).mpr (Or.inr hb), ?_⟩
      cases boundaryAt_some format hb with
      | first hstarts =>
        have hzero := h.ordered.empty hstarts
        omega
      | aud haud => exact absurd haud (nalIsSlice_ne_aud hsliceType)
      | opens =>
        obtain ⟨hle, -, -, hnone, -⟩ := h.run_head hhas
        refine ⟨?_, hle⟩
        by_contra hge
        exact hnone k (not_lt.mp hge) hk hslice

theorem advance_cut (h : s.Sees format units i) (hu : units[i]? = some u) {p : Nat}
    (hp : p ∈ (s.advance format i u).starts) (hne : p ≠ 0) :
    AudAt units p ∨ RunCut format units (s.advance format i u).starts p := by
  rcases (starts_advance s i u p).mp hp with hp | hb
  · apply (h.cut p hp hne).imp_right
    intro ⟨hrun, hhead, j, hj, hslice, hlast⟩
    refine ⟨hrun, hhead, j, hj, hslice, fun q hq hqp => ?_⟩
    rcases (starts_advance s i u q).mp hq with hq | hq
    · exact hlast q hq hqp
    · exact absurd (h.ordered.lt_of_boundary hq p hp) (by omega)
  · cases boundaryAt_some format hb with
    | first => exact absurd rfl hne
    | aud haud => exact Or.inl ((audAt_iff hu).mpr haud)
    | opens hslice hhas hopens =>
      obtain ⟨hle, hpos, hbefore, hnone, j, hj, hsliceAt, hlast⟩ := h.run_head hhas
      refine Or.inr ⟨⟨i, hle, (opensAt_iff hu).mpr ⟨hslice, hopens⟩, hnone⟩, ⟨hpos, hbefore⟩, j, hj, hsliceAt, ?_⟩
      intro q hq hlt
      rcases (starts_advance s i u q).mp hq with hq | hq
      · exact hlast q hq
      · rw [hb] at hq
        exact absurd hlt (by rw [Option.some.inj hq]; exact lt_irrefl q)

/-- **Step**: what the locals know is kept. -/
theorem advance (h : s.Sees format units i) (hu : units[i]? = some u) :
    (s.advance format i u).Sees format units (i + 1) where
  ordered := h.ordered.advance format u
  slice := h.advance_slice hu
  noSlice hhas _ hj hslice := h.advance_noSlice hu hhas hj hslice
  run _ hr := h.advance_run hu hr
  noRun hnone _ := by
    unfold SplitState.advance at hnone
    by_cases hslice : nalIsSlice u.type = true
    · exact (sliceAt_iff hu).mpr hslice
    · simp only [if_neg hslice] at hnone
      cases hnone
  aud _ hj haud := h.advance_aud hu hj haud
  opens _ hj hopens _ hk hslice := h.advance_opens hu hj hopens hk hslice
  cut _ hp hne := h.advance_cut hu hp hne

end SplitState.Sees

end Step

/-! ## The law -/

section Law
variable {format : FrameFormat} {units : List NalUnit}

/-- **Run**: behind the loop the locals know all units. -/
theorem splitLoop_sees (maxStarts : Nat) (hmax : units.length ≤ maxStarts) (rest : List NalUnit) :
    ∀ (before : List NalUnit) (s : SplitState), units = before ++ rest → s.Sees format units before.length →
      (splitLoop format maxStarts rest before.length s).Sees format units units.length := by
  induction rest with
  | nil =>
    intro before s hsplit h
    rw [hsplit, List.append_nil] at h ⊢
    exact h
  | cons u rest ih =>
    intro before s hsplit h
    have hlength := congrArg List.length hsplit
    rw [List.length_append, List.length_cons] at hlength
    have hu : units[before.length]? = some u := by
      rw [hsplit, List.getElem?_append_right (le_refl _), Nat.sub_self]
      rfl
    have hroom : s.starts.length < maxStarts := by
      have hle := h.ordered.length_le
      omega
    have hnext := ih (before ++ [u]) (s.advance format before.length u) (by rw [hsplit]; simp)
    rw [List.length_append, List.length_singleton] at hnext
    rw [splitLoop_advance format maxStarts u rest before.length s hroom]
    exact hnext (h.advance hu)

theorem splitAccessUnits_sees (format : FrameFormat) (maxStarts : Nat) (hmax : units.length ≤ maxStarts) :
    (splitLoop format maxStarts units 0 .init).Sees format units units.length :=
  splitLoop_sees maxStarts hmax units [] .init rfl (SplitState.sees_init format units)

/-- A slice behind a cut in front of a run is the slice of that run. -/
theorem RunCut.opens {starts : List Nat} {p : Nat} (h : RunCut format units starts p) {j : Nat} (hle : p ≤ j)
    (hslice : SliceAt units j) (hnone : ∀ k, p ≤ k → k < j → ¬ SliceAt units k) : OpensAt format units j := by
  obtain ⟨i, hpi, hopens, hrun⟩ := h.run
  rcases Nat.lt_trichotomy i j with hlt | rfl | hlt
  · exact absurd hopens.slice (hnone i hpi hlt)
  · exact hopens
  · exact absurd hslice (hrun j hle hlt)

/-- **The partition law**: the starts grow from 0 and cut the units into all of them; every delimiter starts an
access unit and every slice that opens a picture is the first slice of its own; every other cut is at a delimiter
or at the head of the run of non-slices in front of such a slice, so that a slice that opens no picture stays with
the slice in front of it. -/
theorem splitAccessUnits_law (format : FrameFormat) (units : List NalUnit) (maxStarts : Nat)
    (hmax : units.length ≤ maxStarts) : PartitionLaw format units (splitAccessUnits format units maxStarts) := by
  have h := splitAccessUnits_sees format maxStarts hmax
  have hstarts : (splitLoop format maxStarts units 0 .init).starts = splitAccessUnits format units maxStarts := rfl
  obtain ⟨ordered, -, -, -, -, aud, opens, cut⟩ := h
  rw [hstarts] at aud opens cut
  obtain ⟨hfirst, hempty, hsorted, hbelow, -⟩ := ordered
  rw [hstarts] at hfirst hempty hsorted hbelow
  have hhead : splitAccessUnits format units maxStarts = [] ∧ units = [] ∨
      units ≠ [] ∧ ∃ rest, splitAccessUnits format units maxStarts = 0 :: rest := by
    cases hs : splitAccessUnits format units maxStarts with
    | nil => exact Or.inl ⟨rfl, List.length_eq_zero_iff.mp (hempty hs)⟩
    | cons p rest =>
      rw [hs] at hfirst hbelow
      obtain rfl := hfirst p rfl
      refine Or.inr ⟨fun hnil => ?_, rest, rfl⟩
      rw [hnil] at hbelow
      exact absurd (hbelow 0 List.mem_cons_self) (Nat.not_lt_zero 0)
  refine ⟨hsorted, ?_, hbelow, ?_, fun i hi => aud i hi.lt hi, fun i hi => opens i hi.slice.lt hi, cut, ?_⟩
  · rcases hhead with ⟨hs, hnil⟩ | ⟨hne, rest, hs⟩
    · rw [hs, if_pos hnil]
      rfl
    · rw [hs, if_neg hne]
      rfl
  · rcases hhead with ⟨hs, hnil⟩ | ⟨-, rest, hs⟩
    · rw [hs, hnil]
      rfl
    · rw [hs] at hsorted ⊢
      exact flatten_accessUnits units 0 rest hsorted
  · intro i j hi hj hnot hnone p hp hip hpj
    rcases cut p hp (by omega) with haud | hrun
    · exact haud
    · exact absurd (hrun.opens hpj hj fun k hk hkj => hnone k (by omega) hkj) hnot

/-- Two pictures in a delivery without delimiters: the second begins with the parameter set in front of its
slice. -/
theorem splitAccessUnits_law_two :
    PartitionLaw .h264 [⟨.frameIdr, 0, [0, 0, 1, 0x65, 0x88]⟩, ⟨.sps, 5, [0, 0, 1, 0x67]⟩,
      ⟨.frameNonIdr, 9, [0, 0, 1, 0x41, 0x9A]⟩, ⟨.frameNonIdr, 14, [0, 0, 1, 0x41, 0x1A]⟩] [0, 1] :=
  splitAccessUnits_law .h264 _ 4 (by decide)

end Law

end LibuvcH264Src
