import LibuvcH264Src.Nal

/-!
# Access units (`frame_pipeline.c`)

* `nalOpensNewPicture`, `splitAccessUnits` : the two boundary signals and the partition they give;
* `accessUnits units starts` : the units between consecutive starts, as `frame_callback` walks them;
* `splitAccessUnits_ordered` : the starts begin at 0, grow strictly and fit the array;
* `groupUnits` : the access units as they are completed, unit by unit, without indices
  (`accessUnits_eq_groupUnits` : the partition of `splitAccessUnits` is this one);
* `flatten_deliveryAccessUnits` : the access units are the parsed units, in order.
-/

namespace LibuvcH264Src
open AnnexB

def nalIsParameterSet (type : NalUnitType) : Bool :=
  type = .vps ∨ type = .sps ∨ type = .pps

def nalIsSlice (type : NalUnitType) : Bool :=
  type = .frameIdr ∨ type = .frameNonIdr

/-- Offset of the header byte inside a parsed unit. -/
def nalHeaderOffset (unit : NalUnit) : Nat :=
  if unit.len ≥ 3 ∧ unit.data.getD 2 0 = 0x01 then 3 else 4

/-- The top bit of the first payload byte of a slice. -/
def nalOpensNewPicture (format : FrameFormat) (unit : NalUnit) : Bool :=
  let payload := nalHeaderOffset unit + if format = .h265 then 2 else 1
  if unit.len ≤ payload then false else unit.data.getD payload 0 &&& 0x80 ≠ 0

/-! ## The partition -/

/-- The locals of `split_access_units`; `none` is the mark `G_MAXSIZE` of `nonvcl_run`. -/
structure SplitState where
  starts : List Nat
  auHasSlice : Bool
  nonvclRun : Option Nat
  deriving DecidableEq, Repr

/-- Where the unit of index `i` starts an access unit, if it does. -/
def boundaryAt (format : FrameFormat) (s : SplitState) (i : Nat) (unit : NalUnit) : Option Nat :=
  if s.starts.length = 0 then some 0
  else if unit.type = .aud then some i
  else if nalIsSlice unit.type ∧ s.auHasSlice ∧ nalOpensNewPicture format unit then
    some (s.nonvclRun.getD i)
  else none

/-- The bookkeeping at the end of each turn. -/
def SplitState.note (s : SplitState) (i : Nat) (unit : NalUnit) : SplitState :=
  if nalIsSlice unit.type then { s with auHasSlice := true, nonvclRun := none }
  else if s.nonvclRun = none then { s with nonvclRun := some i }
  else s

def SplitState.cut (s : SplitState) (pos : Nat) : SplitState :=
  { s with starts := s.starts ++ [pos], auHasSlice := false }

def splitLoop (format : FrameFormat) (maxStarts : Nat) :
    List NalUnit → Nat → SplitState → SplitState
  | [], _, s => s
  | unit :: units, i, s =>
    match boundaryAt format s i unit with
    | some pos =>
      if s.starts.length ≥ maxStarts then s
      else splitLoop format maxStarts units (i + 1) ((s.cut pos).note i unit)
    | none => splitLoop format maxStarts units (i + 1) (s.note i unit)

def SplitState.init : SplitState := ⟨[], false, none⟩

def splitAccessUnits (format : FrameFormat) (units : List NalUnit) (maxStarts : Nat) : List Nat :=
  (splitLoop format maxStarts units 0 .init).starts

/-- The units of each access unit: from its start to the next one, the last running to the end. -/
def accessUnits (units : List NalUnit) : List Nat → List (List NalUnit)
  | [] => []
  | [first] => [units.drop first]
  | first :: next :: starts =>
    (units.drop first).take (next - first) :: accessUnits units (next :: starts)

/-- The access units of one delivery. -/
def deliveryUnits (format : FrameFormat) (data : List Byte) : List NalUnit :=
  parseNalUnits format (countNalUnits format data) data

def deliveryAccessUnits (format : FrameFormat) (data : List Byte) : List (List NalUnit) :=
  let units := deliveryUnits format data
  accessUnits units (splitAccessUnits format units units.length)

/-! ## The starts grow -/

/-- The invariant of the loop before the unit of index `i`: the starts begin at 0, grow strictly and
lie below `i`; a run that is marked while the access unit holds a slice lies behind the last start. -/
structure SplitState.Ordered (s : SplitState) (i : Nat) : Prop where
  first : ∀ x ∈ s.starts.head?, x = 0
  empty : s.starts = [] → i = 0
  sorted : s.starts.Pairwise (· < ·)
  below : ∀ x ∈ s.starts, x < i
  run : ∀ r ∈ s.nonvclRun, r < i ∧ (s.auHasSlice → ∀ x ∈ s.starts, x < r)

theorem SplitState.ordered_init : SplitState.init.Ordered 0 where
  first := by simp [SplitState.init]
  empty _ := rfl
  sorted := List.Pairwise.nil
  below := by simp [SplitState.init]
  run := by simp [SplitState.init]

theorem SplitState.starts_note (s : SplitState) (i : Nat) (unit : NalUnit) :
    (s.note i unit).starts = s.starts := by
  unfold SplitState.note
  split_ifs <;> rfl

theorem SplitState.Ordered.note {s : SplitState} {i : Nat} (h : s.Ordered i) (hne : s.starts ≠ [])
    (unit : NalUnit) : (s.note i unit).Ordered (i + 1) := by
  have hbelow : ∀ x ∈ s.starts, x < i + 1 := fun x hx => Nat.lt_succ_of_lt (h.below x hx)
  unfold SplitState.note
  split_ifs with hs hr
  · exact ⟨h.first, fun he => absurd he hne, h.sorted, hbelow, by simp⟩
  · refine ⟨h.first, fun he => absurd he hne, h.sorted, hbelow, fun r hr => ?_⟩
    obtain rfl : i = r := by simpa using hr
    exact ⟨Nat.lt_succ_self i, fun _ => h.below⟩
  · refine ⟨h.first, fun he => absurd he hne, h.sorted, hbelow, fun r hr => ?_⟩
    exact ⟨Nat.lt_succ_of_lt (h.run r hr).1, (h.run r hr).2⟩

/-- A boundary is the index 0, or lies behind every start there is and not behind the unit. -/
theorem boundaryAt_spec {format : FrameFormat} {s : SplitState} {i : Nat} {unit : NalUnit} {pos : Nat}
    (ho : s.Ordered i) (h : boundaryAt format s i unit = some pos) :
    (s.starts = [] ∧ pos = 0) ∨ (s.starts ≠ [] ∧ pos ≤ i ∧ ∀ x ∈ s.starts, x < pos) := by
  unfold boundaryAt at h
  split_ifs at h with h0 haud hslice
  · exact Or.inl ⟨List.length_eq_zero_iff.mp h0, by simpa using h.symm⟩
  · obtain rfl : i = pos := by simpa using h
    exact Or.inr ⟨fun he => h0 (by simp [he]), le_refl i, ho.below⟩
  · refine Or.inr ⟨fun he => h0 (by simp [he]), ?_⟩
    cases hr : s.nonvclRun with
    | none =>
      obtain rfl : i = pos := by simpa [hr] using h
      exact ⟨le_refl i, ho.below⟩
    | some r =>
      obtain rfl : r = pos := by simpa [hr] using h
      have := ho.run r hr
      exact ⟨Nat.le_of_lt this.1, this.2 hslice.2.1⟩

theorem SplitState.Ordered.cut_note {format : FrameFormat} {s : SplitState} {i : Nat} {unit : NalUnit}
    {pos : Nat} (h : s.Ordered i) (hb : boundaryAt format s i unit = some pos) :
    ((s.cut pos).note i unit).Ordered (i + 1) := by
  have hpos : pos ≤ i ∧ (∀ x ∈ s.starts, x < pos) ∧ ∀ x ∈ (s.starts ++ [pos]).head?, x = 0 := by
    rcases boundaryAt_spec h hb with ⟨he, rfl⟩ | ⟨hne, hle, hlt⟩
    · simp [he]
    · exact ⟨hle, hlt, by rw [List.head?_append_of_ne_nil _ hne]; exact h.first⟩
  have hsorted : (s.starts ++ [pos]).Pairwise (· < ·) :=
    List.pairwise_append.mpr ⟨h.sorted, List.pairwise_singleton _ _,
      fun x hx y hy => by rw [List.mem_singleton.mp hy]; exact hpos.2.1 x hx⟩
  have hbelow : ∀ x ∈ s.starts ++ [pos], x < i + 1 := by
    intro x hx
    rcases List.mem_append.mp hx with hx | hx
    · exact Nat.lt_succ_of_lt (h.below x hx)
    · rw [List.mem_singleton.mp hx]
      exact Nat.lt_succ_of_le hpos.1
  unfold SplitState.note SplitState.cut
  split_ifs with hs hr
  · exact ⟨hpos.2.2, by simp, hsorted, hbelow, by simp⟩
  · exact ⟨hpos.2.2, by simp, hsorted, hbelow, by simp⟩
  · exact ⟨hpos.2.2, by simp, hsorted, hbelow,
      fun r hr => ⟨Nat.lt_succ_of_lt (h.run r hr).1, by simp⟩⟩

/-- There are at most as many starts as units seen, so the array of `count` starts suffices. -/
theorem SplitState.Ordered.length_le {s : SplitState} {i : Nat} (h : s.Ordered i) :
    s.starts.length ≤ i := by
  have hnodup : s.starts.Nodup := h.sorted.imp fun hlt => Nat.ne_of_lt hlt
  have hsub : s.starts ⊆ List.range i := fun x hx => List.mem_range.mpr (h.below x hx)
  simpa using (List.subperm_of_subset hnodup hsub).length_le

theorem splitLoop_ordered (format : FrameFormat) (maxStarts : Nat) (units : List NalUnit) :
    ∀ (i : Nat) (s : SplitState), s.Ordered i → i + units.length ≤ maxStarts →
      (splitLoop format maxStarts units i s).Ordered (i + units.length) := by
  induction units with
  | nil => intro i s h _; exact h
  | cons unit units ih =>
    intro i s h hmax
    rw [List.length_cons] at hmax
    have hroom : ¬ s.starts.length ≥ maxStarts := by have := h.length_le; omega
    rw [splitLoop, List.length_cons, show i + (units.length + 1) = i + 1 + units.length by omega]
    cases hb : boundaryAt format s i unit with
    | some pos =>
      simp only [if_neg hroom]
      exact ih (i + 1) _ (h.cut_note hb) (by omega)
    | none =>
      have hne : s.starts ≠ [] := fun he => by simp [boundaryAt, he] at hb
      exact ih (i + 1) _ (h.note hne unit) (by omega)

/-- The starts begin at 0, grow strictly and are indices of units. -/
theorem splitAccessUnits_ordered (format : FrameFormat) (units : List NalUnit) :
    (splitLoop format units.length units 0 .init).Ordered units.length := by
  simpa using splitLoop_ordered format units.length units 0 .init SplitState.ordered_init (by simp)

/-! ## The access units as they are completed -/

/-- The access unit under way: the units up to its last slice, those behind it, and whether a slice
was seen since the cut. -/
structure Group where
  cur : List NalUnit
  run : List NalUnit
  hasSlice : Bool

def Group.units (g : Group) : List NalUnit := g.cur ++ g.run

def Group.empty : Group := ⟨[], [], false⟩

/-- One more unit of the same access unit. -/
def Group.push (g : Group) (u : NalUnit) : Group :=
  if nalIsSlice u.type then ⟨g.units ++ [u], [], true⟩ else { g with run := g.run ++ [u] }

def groupFrom (format : FrameFormat) : Group → List NalUnit → List (List NalUnit)
  | g, [] => [g.units]
  | g, u :: units =>
    if u.type = .aud then g.units :: groupFrom format (Group.empty.push u) units
    else if nalIsSlice u.type ∧ g.hasSlice ∧ nalOpensNewPicture format u then
      g.cur :: groupFrom format (Group.push ⟨[], g.run, false⟩ u) units
    else groupFrom format (g.push u) units

def groupUnits (format : FrameFormat) : List NalUnit → List (List NalUnit)
  | [] => []
  | u :: units => groupFrom format (Group.empty.push u) units

@[simp] theorem Group.units_push (g : Group) (u : NalUnit) : (g.push u).units = g.units ++ [u] := by
  unfold Group.push
  split_ifs <;> simp [Group.units]

@[simp] theorem Group.hasSlice_push (g : Group) (u : NalUnit) :
    (g.push u).hasSlice = (g.hasSlice || nalIsSlice u.type) := by
  unfold Group.push
  split_ifs with h <;> simp [h]

theorem flatten_groupFrom (format : FrameFormat) (units : List NalUnit) :
    ∀ g : Group, (groupFrom format g units).flatten = g.units ++ units := by
  induction units with
  | nil => intro g; simp [groupFrom]
  | cons u units ih =>
    intro g
    unfold groupFrom
    split_ifs
    · rw [List.flatten_cons, ih, Group.units_push]; simp [Group.empty, Group.units]
    · rw [List.flatten_cons, ih, Group.units_push]; simp [Group.units]
    · rw [ih, Group.units_push]; simp

/-- The loop in front of index `i` holds the group `g`, whose first unit has index `first`. -/
structure SplitState.Holds (s : SplitState) (i first : Nat) (g : Group) : Prop where
  ordered : s.Ordered i
  last : ∃ pre, s.starts = pre ++ [first]
  hasSlice : s.auHasSlice = g.hasSlice
  index : first + g.units.length = i
  run : g.hasSlice = true →
    s.nonvclRun = if g.run = [] then none else some (first + g.cur.length)

theorem SplitState.Holds.push {s : SplitState} {i first : Nat} {g : Group} (h : s.Holds i first g)
    (u : NalUnit) : (s.note i u).Holds (i + 1) first (g.push u) := by
  have hne : s.starts ≠ [] := by obtain ⟨pre, hpre⟩ := h.last; simp [hpre]
  refine ⟨h.ordered.note hne u, ?_, ?_, ?_, ?_⟩
  · rw [SplitState.starts_note]; exact h.last
  · rw [Group.hasSlice_push, ← h.hasSlice]
    unfold SplitState.note
    split_ifs with hs <;> simp [hs]
  · rw [Group.units_push, List.length_append, ← h.index]; rfl
  · intro hslice
    by_cases hs : nalIsSlice u.type = true
    · simp [SplitState.note, Group.push, hs]
    · have hg : g.hasSlice = true := by simpa [hs] using hslice
      have hr := h.run hg
      have hindex := h.index
      by_cases hnil : g.run = []
      · rw [if_pos hnil] at hr
        simp only [Group.units, hnil, List.append_nil] at hindex
        simp [SplitState.note, Group.push, hs, hr, hnil, hindex]
      · rw [if_neg hnil] at hr
        simp [SplitState.note, Group.push, hs, hr]

theorem SplitState.Holds.cut {format : FrameFormat} {s : SplitState} {i : Nat} {u : NalUnit}
    {pos : Nat} (ho : s.Ordered i) (hb : boundaryAt format s i u = some pos) (run : List NalUnit)
    (hrun : pos + run.length = i) :
    ((s.cut pos).note i u).Holds (i + 1) pos (Group.push ⟨[], run, false⟩ u) := by
  refine ⟨ho.cut_note hb, ?_, ?_, ?_, ?_⟩
  · exact ⟨s.starts, by rw [SplitState.starts_note]; rfl⟩
  · unfold SplitState.note
    split_ifs with hs <;> simp [hs, SplitState.cut]
  · rw [Group.units_push, List.length_append, ← hrun]
    simp [Group.units, Nat.add_assoc]
  · intro hslice
    have hs : nalIsSlice u.type = true := by simpa using hslice
    simp [SplitState.note, Group.push, hs]

theorem SplitState.Holds.boundaryAt {s : SplitState} {i first : Nat} {g : Group}
    (h : s.Holds i first g) (format : FrameFormat) (u : NalUnit) :
    boundaryAt format s i u =
      if u.type = .aud then some i
      else if nalIsSlice u.type ∧ g.hasSlice ∧ nalOpensNewPicture format u then
        some (first + g.cur.length)
      else none := by
  have hne : s.starts.length ≠ 0 := by obtain ⟨pre, hpre⟩ := h.last; simp [hpre]
  rw [LibuvcH264Src.boundaryAt, if_neg hne, h.hasSlice]
  by_cases hslice : nalIsSlice u.type ∧ g.hasSlice ∧ nalOpensNewPicture format u
  · have hindex := h.index
    rw [if_pos hslice, if_pos hslice, h.run hslice.2.1]
    by_cases hnil : g.run = []
    · simp only [Group.units, hnil, List.append_nil] at hindex
      rw [if_pos hnil, Option.getD_none, hindex]
    · rw [if_neg hnil, Option.getD_some]
  · rw [if_neg hslice, if_neg hslice]

/-- From any turn on, the loop cuts where the groups are completed. -/
theorem splitLoop_eq_groupFrom (format : FrameFormat) (maxStarts : Nat) (units : List NalUnit)
    (rest : List NalUnit) :
    ∀ (before : List NalUnit) (i : Nat) (s : SplitState) (g : Group), s.Holds i before.length g →
      units = before ++ (g.units ++ rest) → i + rest.length ≤ maxStarts →
      ∃ more, (splitLoop format maxStarts rest i s).starts = s.starts ++ more ∧
        accessUnits units (before.length :: more) = groupFrom format g rest := by
  induction rest with
  | nil =>
    intro before i s g _ hunits _
    exact ⟨[], by simp [splitLoop], by simp [accessUnits, hunits, groupFrom]⟩
  | cons u rest ih =>
    intro before i s g h hunits hmax
    rw [List.length_cons] at hmax
    have hroom : ¬ s.starts.length ≥ maxStarts := by have := h.ordered.length_le; omega
    have hb := h.boundaryAt format u
    rw [splitLoop, groupFrom]
    by_cases haud : u.type = .aud
    · rw [if_pos haud] at hb
      obtain ⟨more, hstarts, hunits'⟩ := ih (before ++ g.units) (i + 1) ((s.cut i).note i u)
        (Group.empty.push u)
        (by
          have := SplitState.Holds.cut h.ordered hb [] rfl
          rwa [List.length_append, h.index])
        (by rw [hunits, Group.units_push]; simp [Group.empty, Group.units]) (by omega)
      refine ⟨i :: more, ?_, ?_⟩
      · simp only [hb, if_neg hroom]
        rw [hstarts, SplitState.starts_note]
        simp [SplitState.cut]
      · rw [if_pos haud, accessUnits, ← hunits', List.length_append, h.index, ← h.index]
        simp [hunits]
    · by_cases hslice : nalIsSlice u.type ∧ g.hasSlice ∧ nalOpensNewPicture format u
      · rw [if_neg haud, if_pos hslice] at hb
        obtain ⟨more, hstarts, hunits'⟩ := ih (before ++ g.cur) (i + 1)
          ((s.cut (before.length + g.cur.length)).note i u) (Group.push ⟨[], g.run, false⟩ u)
          (by
            have hindex := h.index
            rw [Group.units, List.length_append, ← Nat.add_assoc] at hindex
            have := SplitState.Holds.cut h.ordered hb g.run hindex
            rwa [List.length_append])
          (by rw [hunits, Group.units_push]; simp [Group.units]) (by omega)
        refine ⟨(before.length + g.cur.length) :: more, ?_, ?_⟩
        · simp only [hb, if_neg hroom]
          rw [hstarts, SplitState.starts_note]
          simp [SplitState.cut]
        · rw [if_neg haud, if_pos hslice, accessUnits, ← hunits', List.length_append]
          simp [hunits, Group.units]
      · rw [if_neg haud, if_neg hslice] at hb
        obtain ⟨more, hstarts, hunits'⟩ := ih before (i + 1) (s.note i u) (g.push u) (h.push u)
          (by simp [hunits]) (by omega)
        refine ⟨more, ?_, ?_⟩
        · simp only [hb]
          rw [hstarts, SplitState.starts_note]
        · rw [if_neg haud, if_neg hslice, hunits']

/-- The partition by indices is the one by groups. -/
theorem accessUnits_eq_groupUnits (format : FrameFormat) (units : List NalUnit) :
    accessUnits units (splitAccessUnits format units units.length) = groupUnits format units := by
  cases units with
  | nil => rfl
  | cons u rest =>
    have hb : boundaryAt format .init 0 u = some 0 := rfl
    have hroom : ¬ SplitState.init.starts.length ≥ (u :: rest).length := by simp [SplitState.init]
    obtain ⟨more, hstarts, hunits⟩ := splitLoop_eq_groupFrom format (u :: rest).length (u :: rest) rest
      [] 1 ((SplitState.init.cut 0).note 0 u) (Group.empty.push u)
      (SplitState.Holds.cut SplitState.ordered_init hb [] rfl)
      (by rw [Group.units_push]; rfl) (by simp [Nat.add_comm])
    rw [splitAccessUnits, splitLoop]
    simp only [hb, if_neg hroom]
    rw [hstarts, SplitState.starts_note]
    exact hunits

theorem deliveryAccessUnits_eq (format : FrameFormat) (data : List Byte) :
    deliveryAccessUnits format data = groupUnits format (deliveryUnits format data) :=
  accessUnits_eq_groupUnits format (deliveryUnits format data)

theorem flatten_deliveryAccessUnits (format : FrameFormat) (data : List Byte) :
    (deliveryAccessUnits format data).flatten = deliveryUnits format data := by
  rw [deliveryAccessUnits_eq]
  cases deliveryUnits format data with
  | nil => rfl
  | cons u units => rw [groupUnits, flatten_groupFrom, Group.units_push]; rfl

end LibuvcH264Src
