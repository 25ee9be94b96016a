import LibuvcH264Src.Caps

/-!
# Device quirks and the deliverable caps

* `quirksFindRow`, `quirksLookupIn`, `quirksLimitsIn`, `uvcQuirksLimits` : the quirk table and the
  limits that its rows impose;
* `quirksFilterStructure`, `uvcQuirksFilterCaps` : the deliverable part of advertised caps, over
  `RangeSetter`, what GStreamer makes of a range that is written to a field;
* `Deliverable` : what a pixel rate admits;
* `filterFrom_eq` : the loop that removes in place filters;
* `exact_filterCaps_iff` : the filter is exact, unless a range begins at the ceiling.
-/

namespace LibuvcH264Src
open Caps

/-! ## The table -/

/-- `QUIRK_MAX_PIXEL_RATE`. -/
def quirkMaxPixelRate : UInt32 := (1 : UInt32) <<< 1

structure QuirkEntry where
  vid : UInt16
  pid : UInt16
  flags : UInt32
  maxPixelRate : UInt64
  deriving DecidableEq

/-- What a matched row imposes. A rate of 0 is no limit. -/
structure QuirkLimits where
  flags : UInt32
  maxPixelRate : UInt64
  deriving DecidableEq

def quirksFindRow (table : List QuirkEntry) (vid pid : UInt16) : Option QuirkEntry :=
  table.find? fun row => row.vid = vid ∧ row.pid = pid

def quirksLookupIn (table : List QuirkEntry) (vid pid : UInt16) : UInt32 :=
  match quirksFindRow table vid pid with
  | some row => row.flags
  | none => 0

def quirksLimitsIn (table : List QuirkEntry) (vid pid : UInt16) : QuirkLimits :=
  match quirksFindRow table vid pid with
  | none => ⟨0, 0⟩
  | some row =>
    -- a row that carries a rate without the flag imposes no cap
    ⟨row.flags, if row.flags &&& quirkMaxPixelRate ≠ 0 then row.maxPixelRate else 0⟩

def gUvcQuirkTable : List QuirkEntry := [⟨0x2ca3, 0x0023, quirkMaxPixelRate, 248832000⟩]

def uvcQuirksLimits (vid pid : UInt16) : QuirkLimits := quirksLimitsIn gUvcQuirkTable vid pid

def uvcQuirksLookup (vid pid : UInt16) : UInt32 := (uvcQuirksLimits vid pid).flags

theorem uvcQuirksLookup_eq (vid pid : UInt16) :
    uvcQuirksLookup vid pid = quirksLookupIn gUvcQuirkTable vid pid := by
  unfold uvcQuirksLookup uvcQuirksLimits quirksLimitsIn quirksLookupIn
  cases quirksFindRow gUvcQuirkTable vid pid <;> rfl

/-! ## Modes and rates -/

/-- `G_MAXUINT`. -/
def gMaxuint : Nat := 2 ^ 32 - 1

/-- `(guint)` of a `gint`. -/
def toGuint (i : Int) : Nat := (i % 2 ^ 32).toNat

/-- `(gint)` of a `guint`. -/
def toGint (n : Nat) : Int := Int.bmod n (2 ^ 32)

def uvcQuirkModeSelectable (limits : Option QuirkLimits) (width height fps : Nat) : Bool :=
  match limits with
  | none => true
  | some limits =>
    if limits.maxPixelRate = 0 then true
    else decide (width * height % 2 ^ 64 * fps % 2 ^ 64 ≤ limits.maxPixelRate.toNat)

def uvcQuirkMaxFps (limits : Option QuirkLimits) (width height : Nat) : Nat :=
  match limits with
  | none => gMaxuint
  | some limits =>
    if limits.maxPixelRate = 0 then gMaxuint
    else
      let pixels := width * height % 2 ^ 64
      if pixels = 0 then gMaxuint
      else
        let maxFps := limits.maxPixelRate.toNat / pixels
        if gMaxuint < maxFps then gMaxuint else maxFps

/-- The rate a fraction stands for, rounded up. -/
def quirksFractionFps (fraction : Fraction) : Nat :=
  if fraction.num ≤ 0 ∨ fraction.den ≤ 0 then 0
  else toGuint ((fraction.num + fraction.den - 1) / fraction.den)

/-- `gst_structure_set` of a fraction range, given as two pairs of integers: the value of the field
behind it. GStreamer takes a range whose start is below its end, and complains about any other. -/
structure RangeSetter where
  set : Rates → Int → Int → Int → Int → Rates
  accepts : ∀ old (lo hi : Fraction), lo.value < hi.value →
    set old lo.num lo.den hi.num hi.den = .range lo hi
  refuses : ∀ old (lo hi : Fraction), ¬ lo.value < hi.value →
    set old lo.num lo.den hi.num hi.den = old ∨ ¬ (set old lo.num lo.den hi.num hi.den).WellFormed

variable {α : Type} (g : RangeSetter)

/-- One structure. `none` is the `FALSE` of a mode without a deliverable rate. -/
def quirksFilterStructure (limits : Option QuirkLimits) (s : Structure α) : Option (Structure α) :=
  match s.width, s.height with
  | some width, some height =>
    match s.framerate with
    | .absent => some s
    | .range min max =>
      let cap := uvcQuirkMaxFps limits (toGuint width) (toGuint height)
      if cap = gMaxuint ∨ quirksFractionFps max ≤ cap then some s
      else if min.den ≤ 0 ∨ cap < quirksFractionFps min then none
      else some { s with framerate := g.set s.framerate min.num min.den (toGint cap) 1 }
    | .fraction rate =>
      if uvcQuirkModeSelectable limits (toGuint width) (toGuint height) (quirksFractionFps rate) then
        some s
      else none
    | .list rates =>
      let kept := rates.filter fun rate =>
        uvcQuirkModeSelectable limits (toGuint width) (toGuint height) (quirksFractionFps rate)
      if kept = [] then none else some { s with framerate := .list kept }
    | .other => some s
  -- no geometry, no pixel rate to judge it by
  | _, _ => some s

/-- The loop of `uvc_quirks_filter_caps` from index `i` on. -/
def filterFrom (limits : Option QuirkLimits) (caps : List (Structure α)) (i : Nat) :
    List (Structure α) :=
  if h : i < caps.length then
    match quirksFilterStructure g limits caps[i] with
    | some s => filterFrom limits (caps.set i s) (i + 1)
    | none => filterFrom limits (caps.eraseIdx i) i
  else caps
termination_by caps.length - i
decreasing_by
  · rw [List.length_set]
    omega
  · rw [List.length_eraseIdx_of_lt h]
    omega

def uvcQuirksFilterCaps (limits : Option QuirkLimits) (advertised : List (Structure α)) :
    List (Structure α) :=
  match limits with
  | none => advertised
  | some l => if l.maxPixelRate = 0 then advertised else filterFrom g (some l) advertised 0

/-! ## The loop is a filter -/

theorem filterFrom_eq (limits : Option QuirkLimits) (caps : List (Structure α)) (i : Nat) :
    filterFrom g limits caps i =
      caps.take i ++ (caps.drop i).filterMap (quirksFilterStructure g limits) := by
  fun_induction filterFrom g limits caps i with
  | case1 caps i h s hs ih =>
    have hdrop : (caps.set i s).drop (i + 1) = caps.drop (i + 1) := by
      rw [List.drop_set_of_lt (by omega)]
    have htake : (caps.set i s).take (i + 1) = caps.take i ++ [s] := by
      rw [List.take_add_one, List.take_set_of_le (le_refl i), List.getElem?_set_self h]
      rfl
    rw [ih, hdrop, htake, List.drop_eq_getElem_cons h, List.filterMap_cons_some hs,
      List.append_assoc]
    rfl
  | case2 caps i h hs ih =>
    have htake : (caps.eraseIdx i).take i = caps.take i := by
      rw [List.eraseIdx_eq_take_drop_succ, List.take_append_of_le_length (by simp; omega),
        List.take_take, Nat.min_self]
    have hdrop : (caps.eraseIdx i).drop i = caps.drop (i + 1) := by
      rw [List.eraseIdx_eq_take_drop_succ, List.drop_append_of_le_length (by simp; omega)]
      simp
    rw [ih, htake, hdrop, List.drop_eq_getElem_cons h, List.filterMap_cons_none hs]
  | case3 caps i h =>
    rw [List.take_of_length_le (by omega), List.drop_of_length_le (by omega)]
    simp

theorem uvcQuirksFilterCaps_eq (limits : QuirkLimits) (h : limits.maxPixelRate ≠ 0)
    (advertised : List (Structure α)) :
    uvcQuirksFilterCaps g (some limits) advertised =
      advertised.filterMap (quirksFilterStructure g (some limits)) := by
  unfold uvcQuirksFilterCaps
  simp only [if_neg h]
  rw [filterFrom_eq]
  rfl

theorem uvcQuirksFilterCaps_append (limits : Option QuirkLimits) (caps caps' : List (Structure α)) :
    uvcQuirksFilterCaps g limits (caps ++ caps') =
      uvcQuirksFilterCaps g limits caps ++ uvcQuirksFilterCaps g limits caps' := by
  match limits with
  | none => rfl
  | some limits =>
    by_cases h : limits.maxPixelRate = 0
    · simp only [uvcQuirksFilterCaps, if_pos h]
    · rw [uvcQuirksFilterCaps_eq g limits h, uvcQuirksFilterCaps_eq g limits h,
        uvcQuirksFilterCaps_eq g limits h, List.filterMap_append]

/-! ## What a pixel rate admits -/

/-- A mode without a rate, or one of at most `M` pixels a second, the rate rounded up. -/
def Deliverable (M : Nat) (m : Mode α) : Prop :=
  ∀ width height rate, m.width = some width → m.height = some height → m.rate = some rate →
    width * height * ⌈rate⌉ ≤ M

/-- An integer geometry in range, and a framerate field of one of the four shapes. -/
structure Regular (s : Structure α) : Prop where
  width : ∃ w : Int, s.width = some w ∧ 1 ≤ w ∧ w ≤ 65535
  height : ∃ h : Int, s.height = some h ∧ 1 ≤ h ∧ h ≤ 65535
  shape : s.framerate ≠ .other
  range : ∀ lo hi, s.framerate = .range lo hi → lo.value < hi.value

/-- The pixels of a frame. -/
def pixels (s : Structure α) : Nat := (s.width.getD 0).toNat * (s.height.getD 0).toNat

/-- The frames a second that fit into `M`. -/
def ceiling (M : Nat) (s : Structure α) : Nat := M / pixels s

/-- A range that begins at the ceiling: what is left of it is one rate, which no range can hold. -/
def BeginsAtCeiling (M : Nat) (s : Structure α) : Prop :=
  ∃ lo hi, s.framerate = .range lo hi ∧ lo.value = ceiling M s

namespace Regular
variable {s : Structure α}

theorem pixels_pos (hs : Regular s) : 0 < pixels s := by
  obtain ⟨w, hw, hw1, -⟩ := hs.width
  obtain ⟨h, hh, hh1, -⟩ := hs.height
  unfold pixels
  rw [hw, hh, Option.getD_some, Option.getD_some]
  exact Nat.mul_pos (by omega) (by omega)

theorem pixels_lt (hs : Regular s) : pixels s < 2 ^ 32 := by
  obtain ⟨w, hw, -, hw2⟩ := hs.width
  obtain ⟨h, hh, -, hh2⟩ := hs.height
  unfold pixels
  rw [hw, hh, Option.getD_some, Option.getD_some]
  calc w.toNat * h.toNat ≤ 65535 * 65535 := Nat.mul_le_mul (by omega) (by omega)
    _ < 2 ^ 32 := by decide

/-- The casts of the geometry are harmless. -/
theorem geometry (hs : Regular s) :
    ∃ w h, s.width = some w ∧ s.height = some h ∧ toGuint w * toGuint h = pixels s ∧
      w * h = (pixels s : Int) := by
  obtain ⟨w, hw, hw1, hw2⟩ := hs.width
  obtain ⟨h, hh, hh1, hh2⟩ := hs.height
  have hcast : ∀ i : Int, 1 ≤ i → i ≤ 65535 → toGuint i = i.toNat := by
    intro i h1 h2
    unfold toGuint
    rw [Int.emod_eq_of_lt (by omega) (by omega)]
  refine ⟨w, h, hw, hh, ?_, ?_⟩
  · unfold pixels
    rw [hw, hh, hcast w hw1 hw2, hcast h hh1 hh2]
    rfl
  · unfold pixels
    rw [hw, hh, Option.getD_some, Option.getD_some, Nat.cast_mul, Int.toNat_of_nonneg (by omega),
      Int.toNat_of_nonneg (by omega)]

/-- A rate is deliverable up to the ceiling. -/
theorem deliverable_iff (hs : Regular s) {M : Nat} {rate : Option ℚ} :
    Deliverable M (s.mode rate) ↔ ∀ q, rate = some q → q ≤ (ceiling M s : ℚ) := by
  obtain ⟨w, h, hw, hh, -, hp⟩ := hs.geometry
  have hpos : (0 : Int) < pixels s := by exact_mod_cast hs.pixels_pos
  have key : ∀ q : ℚ, w * h * ⌈q⌉ ≤ M ↔ q ≤ (ceiling M s : ℚ) := by
    intro q
    rw [hp, ← Int.cast_natCast (R := ℚ) (ceiling M s), ← Int.ceil_le, ceiling, Int.natCast_ediv,
      Int.le_ediv_iff_mul_le hpos, mul_comm]
  refine ⟨fun hd q hq => (key q).mp (hd w h q hw hh hq), fun hd w' h' q hw' hh' hq => ?_⟩
  obtain rfl : w = w' := Option.some.inj (hw.symm.trans hw')
  obtain rfl : h = h' := Option.some.inj (hh.symm.trans hh')
  exact (key q).mpr (hd q hq)

end Regular

/-! ## The fps of a fraction and the limits -/

theorem quirksFractionFps_eq (f : Fraction) :
    quirksFractionFps f = ((f.num + f.den - 1) / f.den).toNat := by
  have hden := f.den_pos
  unfold quirksFractionFps
  split
  · next h =>
    have hnum : f.num ≤ 0 := h.resolve_right (by omega)
    have : (f.num + f.den - 1) / f.den ≤ 0 := by
      have := Int.ediv_lt_of_lt_mul hden (show f.num + f.den - 1 < 1 * f.den by omega)
      omega
    omega
  · have hnonneg : 0 ≤ (f.num + f.den - 1) / f.den := Int.ediv_nonneg (by omega) hden.le
    have hlt : (f.num + f.den - 1) / f.den < 2 ^ 32 := by
      refine lt_of_le_of_lt (Int.ediv_le_self _ (by omega)) ?_
      have := f.num_le
      have := f.den_le
      omega
    unfold toGuint
    rw [Int.emod_eq_of_lt hnonneg hlt]

/-- The rounding is the one that the deliverable modes are defined with. -/
theorem quirksFractionFps_le {f : Fraction} {k : Nat} : quirksFractionFps f ≤ k ↔ f.value ≤ k := by
  have hden := f.den_pos
  rw [quirksFractionFps_eq, Fraction.value_le_natCast, Int.toNat_le, ← Int.lt_add_one_iff,
    Int.ediv_lt_iff_lt_mul hden, add_one_mul]
  omega

theorem quirksFractionFps_lt (f : Fraction) : quirksFractionFps f ≤ 2147483647 := by
  rw [quirksFractionFps_le, Fraction.value_le_natCast]
  have := f.num_le
  have := f.den_pos
  push_cast
  nlinarith

section Limits
variable {limits : QuirkLimits} {s : Structure α}

theorem modeSelectable_iff (h : limits.maxPixelRate ≠ 0) {width height fps : Nat}
    (hp : width * height < 2 ^ 32) (hpos : 0 < width * height) (hfps : fps ≤ 2147483647) :
    uvcQuirkModeSelectable (some limits) width height fps = true ↔
      fps ≤ limits.maxPixelRate.toNat / (width * height) := by
  have hprod : width * height * fps < 2 ^ 64 :=
    calc width * height * fps ≤ 2 ^ 32 * 2147483647 := Nat.mul_le_mul hp.le hfps
      _ < 2 ^ 64 := by decide
  unfold uvcQuirkModeSelectable
  simp only [if_neg h, decide_eq_true_eq]
  rw [Nat.mod_eq_of_lt (by omega : width * height < 2 ^ 64), Nat.mod_eq_of_lt hprod,
    Nat.le_div_iff_mul_le hpos, mul_comm]

/-- The ceiling of `uvc_quirk_max_fps`, which saturates. -/
theorem uvcQuirkMaxFps_eq (h : limits.maxPixelRate ≠ 0) {width height : Nat}
    (hp : width * height < 2 ^ 32) (hpos : 0 < width * height) :
    uvcQuirkMaxFps (some limits) width height =
      min gMaxuint (limits.maxPixelRate.toNat / (width * height)) := by
  have hmod : width * height % 2 ^ 64 = width * height := Nat.mod_eq_of_lt (by omega)
  unfold uvcQuirkMaxFps
  simp only [if_neg h, hmod, if_neg hpos.ne']
  split <;> omega

theorem selectable_iff (h : limits.maxPixelRate ≠ 0) (hs : Regular s) {w h' : Int}
    (hp : toGuint w * toGuint h' = pixels s) (f : Fraction) :
    uvcQuirkModeSelectable (some limits) (toGuint w) (toGuint h') (quirksFractionFps f) = true ↔
      f.value ≤ (ceiling limits.maxPixelRate.toNat s : ℚ) := by
  have hlt := hs.pixels_lt
  have hpos := hs.pixels_pos
  rw [modeSelectable_iff h (hp ▸ hlt) (hp ▸ hpos) (quirksFractionFps_lt f), hp,
    quirksFractionFps_le]
  rfl

/-- Where the ceiling is below a fraction it is no saturated one, and it fits a `gint`. -/
theorem ceiling_lt {M : Nat} {f : Fraction} (hf : ¬ f.value ≤ (ceiling M s : ℚ)) :
    ceiling M s < 2147483647 := by
  have := quirksFractionFps_lt f
  rw [← quirksFractionFps_le] at hf
  omega

end Limits

theorem toGint_eq {k : Nat} (h : k < 2147483647) : toGint k = k := by
  unfold toGint
  rw [Int.bmod_eq_of_le] <;> omega

/-! ## Exactness -/

section Exactness
variable {limits : QuirkLimits} {s : Structure α}

/-- The rate that the limits impose. -/
abbrev rateOf (limits : QuirkLimits) : Nat := limits.maxPixelRate.toNat

theorem exactOn_fraction (h : limits.maxPixelRate ≠ 0) (hs : Regular s) {f : Fraction}
    (hf : s.framerate = .fraction f) :
    ExactOn (Deliverable (rateOf limits)) s (quirksFilterStructure g (some limits) s) := by
  obtain ⟨w, h', hw, hh, hp, -⟩ := hs.geometry
  have hsel := selectable_iff h hs hp f
  unfold quirksFilterStructure
  simp only [hw, hh, hf]
  split
  · next hok =>
    refine exactOn_self ?_ (by rw [hf]; trivial) (by simp [hf])
    intro r hr
    rw [hf] at hr
    rw [hs.deliverable_iff]
    rintro q rfl
    rw [Option.some.inj hr]
    exact hsel.mp hok
  · next hok =>
    refine exactOn_none ?_
    intro r hr hd
    rw [hf] at hr
    rw [hs.deliverable_iff] at hd
    exact hok (hsel.mpr (hd _ hr))

/-- What the function does with a list. -/
theorem quirksFilterStructure_list (h : limits.maxPixelRate ≠ 0) (hs : Regular s)
    {fs : List Fraction} (hf : s.framerate = .list fs) :
    quirksFilterStructure g (some limits) s =
      if (fs.filter fun f => f.value ≤ (ceiling (rateOf limits) s : ℚ)) = [] then none
      else some { s with
        framerate := .list (fs.filter fun f => f.value ≤ (ceiling (rateOf limits) s : ℚ)) } := by
  obtain ⟨w, h', hw, hh, hp, -⟩ := hs.geometry
  have hfilter : (fs.filter fun f =>
        uvcQuirkModeSelectable (some limits) (toGuint w) (toGuint h') (quirksFractionFps f)) =
      fs.filter fun f => f.value ≤ (ceiling (rateOf limits) s : ℚ) := by
    apply List.filter_congr
    intro f _
    rw [Bool.eq_iff_iff, selectable_iff h hs hp f, decide_eq_true_eq]
  unfold quirksFilterStructure
  simp only [hw, hh, hf, hfilter]

theorem exactOn_list (h : limits.maxPixelRate ≠ 0) (hs : Regular s) {fs : List Fraction}
    (hf : s.framerate = .list fs) :
    ExactOn (Deliverable (rateOf limits)) s (quirksFilterStructure g (some limits) s) := by
  rw [quirksFilterStructure_list g h hs hf]
  split
  · next hnone =>
    refine exactOn_none ?_
    intro r hr hd
    rw [hf] at hr
    obtain ⟨f, hmem, rfl⟩ := hr
    rw [hs.deliverable_iff] at hd
    have := List.filter_eq_nil_iff.mp hnone f hmem
    exact this (by simpa using hd _ rfl)
  · next hsome =>
    refine exactOn_framerate ?_ hsome (by simp)
    intro r
    rw [hf, hs.deliverable_iff]
    refine ⟨?_, ?_⟩
    · rintro ⟨f, hmem, rfl⟩
      obtain ⟨hmem, hok⟩ := List.mem_filter.mp hmem
      refine ⟨⟨f, hmem, rfl⟩, ?_⟩
      rintro q rfl'
      rw [← Option.some.inj rfl']
      simpa using hok
    · rintro ⟨⟨f, hmem, rfl⟩, hd⟩
      exact ⟨f, List.mem_filter.mpr ⟨hmem, by simpa using hd _ rfl⟩, rfl⟩

/-- What the function does with a range. -/
theorem quirksFilterStructure_range (h : limits.maxPixelRate ≠ 0) (hs : Regular s) {lo hi : Fraction}
    (hf : s.framerate = .range lo hi) :
    quirksFilterStructure g (some limits) s =
      if hi.value ≤ (ceiling (rateOf limits) s : ℚ) then some s
      else if (ceiling (rateOf limits) s : ℚ) < lo.value then none
      else some { s with
        framerate := g.set s.framerate lo.num lo.den (ceiling (rateOf limits) s : Nat) 1 } := by
  obtain ⟨w, h', hw, hh, hp, -⟩ := hs.geometry
  have hlt := hs.pixels_lt
  have hpos := hs.pixels_pos
  have hmax : uvcQuirkMaxFps (some limits) (toGuint w) (toGuint h') =
      min gMaxuint (ceiling (rateOf limits) s) := by
    rw [uvcQuirkMaxFps_eq h (hp ▸ hlt) (hp ▸ hpos), hp]
    rfl
  have hlo := quirksFractionFps_lt lo
  have hhi := quirksFractionFps_lt hi
  unfold quirksFilterStructure
  simp only [hw, hh, hf, hmax]
  by_cases hkeep : hi.value ≤ (ceiling (rateOf limits) s : ℚ)
  · have := quirksFractionFps_le.mpr hkeep
    rw [if_pos hkeep, if_pos]
    unfold gMaxuint
    omega
  · have hc := ceiling_lt hkeep
    have hsat : min gMaxuint (ceiling (rateOf limits) s) = ceiling (rateOf limits) s := by
      unfold gMaxuint
      omega
    have hden := lo.den_pos
    rw [if_neg hkeep, hsat, if_neg, toGint_eq hc]
    · by_cases hdrop : (ceiling (rateOf limits) s : ℚ) < lo.value
      · rw [if_pos hdrop, if_pos]
        right
        rw [← not_le, quirksFractionFps_le, not_le]
        exact hdrop
      · rw [if_neg hdrop, if_neg]
        rw [not_or, not_lt, quirksFractionFps_le]
        exact ⟨by omega, not_lt.mp hdrop⟩
    · rw [not_or, quirksFractionFps_le]
      refine ⟨?_, hkeep⟩
      unfold gMaxuint
      omega

theorem exactOn_range (h : limits.maxPixelRate ≠ 0) (hs : Regular s) {lo hi : Fraction}
    (hf : s.framerate = .range lo hi) (hc : ¬ BeginsAtCeiling (rateOf limits) s) :
    ExactOn (Deliverable (rateOf limits)) s (quirksFilterStructure g (some limits) s) := by
  rw [quirksFilterStructure_range g h hs hf]
  have hlohi := hs.range lo hi hf
  split
  · next hkeep =>
    refine exactOn_self ?_ (by rw [hf]; exact hlohi) (by simp [hf])
    intro r hr
    rw [hf] at hr
    obtain ⟨q, rfl, -, hq⟩ := hr
    rw [hs.deliverable_iff]
    rintro q' hq'
    rw [← Option.some.inj hq']
    exact hq.trans hkeep
  · next hkeep =>
    split
    · next hdrop =>
      refine exactOn_none ?_
      intro r hr hd
      rw [hf] at hr
      obtain ⟨q, rfl, hq, -⟩ := hr
      rw [hs.deliverable_iff] at hd
      exact absurd (hq.trans (hd q rfl)) (not_le.mpr hdrop)
    · next hdrop =>
      have hne : lo.value ≠ (ceiling (rateOf limits) s : ℚ) := fun he => hc ⟨lo, hi, hf, he⟩
      have hlt : lo.value < (ceiling (rateOf limits) s : ℚ) := lt_of_le_of_ne (not_lt.mp hdrop) hne
      have hcap := (ceiling_lt hkeep).le
      have hset : g.set s.framerate lo.num lo.den (ceiling (rateOf limits) s : Nat) 1 =
          .range lo (Fraction.whole (ceiling (rateOf limits) s) hcap) :=
        g.accepts s.framerate lo (Fraction.whole _ hcap) (by rwa [Fraction.value_whole])
      rw [hset]
      refine exactOn_framerate ?_ (by simpa [Rates.WellFormed] using hlt) (by simp)
      intro r
      rw [hf, hs.deliverable_iff]
      refine ⟨?_, ?_⟩
      · rintro ⟨q, rfl, hq, hq'⟩
        rw [Fraction.value_whole] at hq'
        refine ⟨⟨q, rfl, hq, hq'.trans (not_le.mp hkeep).le⟩, ?_⟩
        intro q₁ hq₁
        rwa [← Option.some.inj hq₁]
      · rintro ⟨⟨q, rfl, hq, -⟩, hd⟩
        refine ⟨q, rfl, hq, ?_⟩
        rw [Fraction.value_whole]
        exact hd q rfl

/-- **One structure**: its deliverable modes are what is left of it. -/
theorem quirksFilterStructure_exact (h : limits.maxPixelRate ≠ 0) (hs : Regular s)
    (hc : ¬ BeginsAtCeiling (rateOf limits) s) :
    ExactOn (Deliverable (rateOf limits)) s (quirksFilterStructure g (some limits) s) := by
  match hf : s.framerate with
  | .absent =>
    obtain ⟨w, h', hw, hh, -, -⟩ := hs.geometry
    unfold quirksFilterStructure
    simp only [hw, hh, hf]
    refine exactOn_self ?_ (by rw [hf]; trivial) (by simp [hf])
    intro r hr
    rw [hf] at hr
    rw [hs.deliverable_iff]
    rintro q rfl
    exact absurd hr (by simp [Rates.Offers])
  | .fraction f => exact exactOn_fraction g h hs hf
  | .list fs => exact exactOn_list g h hs hf
  | .range lo hi => exact exactOn_range g h hs hf hc
  | .other => exact absurd hf hs.shape

/-- A range that begins at the ceiling keeps a mode above it, or is no range any more. -/
theorem not_exact_of_beginsAtCeiling (h : limits.maxPixelRate ≠ 0) (hs : Regular s)
    (hc : BeginsAtCeiling (rateOf limits) s) :
    ∃ s', quirksFilterStructure g (some limits) s = some s' ∧
      (s'.framerate.WellFormed → ∃ m, s'.Offers m ∧ ¬ Deliverable (rateOf limits) m) := by
  obtain ⟨lo, hi, hf, hlo⟩ := hc
  have hlohi := hs.range lo hi hf
  have hkeep : ¬ hi.value ≤ (ceiling (rateOf limits) s : ℚ) := by
    rw [not_le, ← hlo]
    exact hlohi
  have hcap := (ceiling_lt hkeep).le
  rw [quirksFilterStructure_range g h hs hf, if_neg hkeep, if_neg (by rw [hlo]; exact lt_irrefl _)]
  refine ⟨_, rfl, ?_⟩
  intro hw
  rcases g.refuses s.framerate lo (Fraction.whole _ hcap)
    (by rw [Fraction.value_whole, hlo]; exact lt_irrefl _) with hset | hset
  · have hset' : g.set s.framerate lo.num lo.den (ceiling (rateOf limits) s : Nat) 1 = s.framerate :=
      hset
    rw [hset']
    refine ⟨s.mode (some hi.value), ?_, ?_⟩
    · rw [show ({ s with framerate := s.framerate } : Structure α) = s from rfl,
        Structure.offers_mode, hf]
      exact ⟨hi.value, rfl, hlohi.le, le_refl _⟩
    · rw [hs.deliverable_iff]
      exact fun hd => hkeep (hd _ rfl)
  · exact absurd hw hset

/-- Nothing is left to filter in what was filtered. -/
theorem quirksFilterStructure_idem (h : limits.maxPixelRate ≠ 0) (hs : Regular s)
    (hc : ¬ BeginsAtCeiling (rateOf limits) s) {s' : Structure α}
    (hs' : quirksFilterStructure g (some limits) s = some s') :
    quirksFilterStructure g (some limits) s' = some s' := by
  match hf : s.framerate with
  | .range lo hi =>
    have hrange := hs' ▸ quirksFilterStructure_range g h hs hf
    split at hrange
    · rwa [Option.some.inj hrange] at hs' ⊢
    · next hkeep =>
      split at hrange
      · exact absurd hrange (by simp)
      · next hdrop =>
        have hne : lo.value ≠ (ceiling (rateOf limits) s : ℚ) := fun he => hc ⟨lo, hi, hf, he⟩
        have hlt : lo.value < (ceiling (rateOf limits) s : ℚ) :=
          lt_of_le_of_ne (not_lt.mp hdrop) hne
        have hcap := (ceiling_lt hkeep).le
        have hset : g.set s.framerate lo.num lo.den (ceiling (rateOf limits) s : Nat) 1 =
            .range lo (Fraction.whole (ceiling (rateOf limits) s) hcap) :=
          g.accepts s.framerate lo (Fraction.whole _ hcap) (by rwa [Fraction.value_whole])
        rw [hset] at hrange
        rw [Option.some.inj hrange]
        have hreg : Regular { s with
            framerate := .range lo (Fraction.whole (ceiling (rateOf limits) s) hcap) } :=
          ⟨hs.width, hs.height, by simp, by simpa using hlt⟩
        rw [quirksFilterStructure_range g h hreg rfl, if_pos]
        exact (Fraction.value_whole _ _).le
  | .list fs =>
    have hlist := hs' ▸ quirksFilterStructure_list g h hs hf
    split at hlist
    · exact absurd hlist (by simp)
    · next hsome =>
      have hreg : Regular { s with
          framerate := .list (fs.filter fun f => f.value ≤ (ceiling (rateOf limits) s : ℚ)) } :=
        ⟨hs.width, hs.height, by simp, by simp⟩
      have hceil : ceiling (rateOf limits) { s with
          framerate := .list (fs.filter fun f => f.value ≤ (ceiling (rateOf limits) s : ℚ)) } =
          ceiling (rateOf limits) s := rfl
      rw [Option.some.inj hlist, quirksFilterStructure_list g h hreg rfl, hceil,
        List.filter_filter]
      simp only [Bool.and_self, if_neg hsome]
  | .absent | .fraction f | .other =>
    obtain ⟨w, h', hw, hh, -, -⟩ := hs.geometry
    have : s' = s := by
      unfold quirksFilterStructure at hs'
      simp only [hw, hh, hf] at hs'
      grind
    rwa [this] at hs' ⊢

end Exactness

/-- Filtering twice is filtering once. -/
theorem uvcQuirksFilterCaps_idem (limits : QuirkLimits) (hM : limits.maxPixelRate ≠ 0)
    (advertised : List (Structure α)) (hcaps : ∀ s ∈ advertised, Regular s)
    (hc : ∀ s ∈ advertised, ¬ BeginsAtCeiling limits.maxPixelRate.toNat s) :
    uvcQuirksFilterCaps g (some limits) (uvcQuirksFilterCaps g (some limits) advertised) =
      uvcQuirksFilterCaps g (some limits) advertised := by
  rw [uvcQuirksFilterCaps_eq g limits hM, uvcQuirksFilterCaps_eq g limits hM,
    List.filterMap_filterMap]
  apply List.filterMap_congr
  intro s hs
  match hf : quirksFilterStructure g (some limits) s with
  | none => rfl
  | some s' => exact quirksFilterStructure_idem g hM (hcaps s hs) (hc s hs) hf

/-- **The deliverable caps are exact** unless a range of the advertised ones begins at the ceiling. -/
theorem exact_filterCaps_iff (limits : QuirkLimits) (hM : limits.maxPixelRate ≠ 0)
    (advertised : List (Structure α)) (hcaps : ∀ s ∈ advertised, Regular s) :
    Exact (Deliverable limits.maxPixelRate.toNat) advertised
        (uvcQuirksFilterCaps g (some limits) advertised) ↔
      ∀ s ∈ advertised, ¬ BeginsAtCeiling limits.maxPixelRate.toNat s := by
  rw [uvcQuirksFilterCaps_eq g limits hM]
  refine ⟨fun hexact s hs hc => ?_, fun hc => ?_⟩
  · obtain ⟨s', hs', hbad⟩ := not_exact_of_beginsAtCeiling g hM (hcaps s hs) hc
    have hmem := List.mem_filterMap.mpr ⟨s, hs, hs'⟩
    obtain ⟨m, hm, hd⟩ := hbad (hexact.wellFormed s' hmem)
    exact hd ((hexact.modes m).mp ⟨s', hmem, hm⟩).2
  · exact exact_filterMap fun s hs => quirksFilterStructure_exact g hM (hcaps s hs) (hc s hs)

/-! ## A setter, and the ranges of one camera -/

/-- A setter that leaves the field as it was where it refuses a range. -/
def keepingSetter : RangeSetter where
  set old a b c d :=
    if h : (-2147483647 ≤ a ∧ a ≤ 2147483647 ∧ 0 < b ∧ b ≤ 2147483647) ∧
        (-2147483647 ≤ c ∧ c ≤ 2147483647 ∧ 0 < d ∧ d ≤ 2147483647) ∧ a * d < c * b then
      .range ⟨a, b, h.1.1, h.1.2.1, h.1.2.2.1, h.1.2.2.2⟩
        ⟨c, d, h.2.1.1, h.2.1.2.1, h.2.1.2.2.1, h.2.1.2.2.2⟩
    else old
  accepts old lo hi h := by
    rw [Fraction.value_lt] at h
    rw [dif_pos ⟨⟨lo.le_num, lo.num_le, lo.den_pos, lo.den_le⟩,
      ⟨hi.le_num, hi.num_le, hi.den_pos, hi.den_le⟩, h⟩]
  refuses old lo hi h := by
    rw [Fraction.value_lt] at h
    left
    rw [dif_neg fun hc => h hc.2.2]

/-- 4K with a continuous frame interval. -/
def continuous4K (lo hi : Nat) (hlo : lo ≤ 2147483647) (hhi : hi ≤ 2147483647) : Structure Unit where
  fields := ()
  width := some 3840
  height := some 2160
  framerate := .range (Fraction.whole lo hlo) (Fraction.whole hi hhi)

theorem continuous4K_regular {lo hi : Nat} (hlo : lo ≤ 2147483647) (hhi : hi ≤ 2147483647)
    (h : lo < hi) : Regular (continuous4K lo hi hlo hhi) where
  width := ⟨3840, rfl, by norm_num, by norm_num⟩
  height := ⟨2160, rfl, by norm_num, by norm_num⟩
  shape := by simp [continuous4K]
  range := by
    rintro _ _ heq
    obtain ⟨rfl, rfl⟩ := Rates.range.inj heq
    simpa using h

theorem continuous4K_beginsAtCeiling {lo hi : Nat} (hlo : lo ≤ 2147483647) (hhi : hi ≤ 2147483647)
    {M : Nat} : BeginsAtCeiling M (continuous4K lo hi hlo hhi) ↔ lo = M / 8294400 := by
  have hceil : ceiling M (continuous4K lo hi hlo hhi) = M / 8294400 := by
    unfold ceiling
    rw [show pixels (continuous4K lo hi hlo hhi) = 8294400 by
      simp [pixels, continuous4K, show Int.toNat 3840 = 3840 from rfl,
        show Int.toNat 2160 = 2160 from rfl]]
  unfold BeginsAtCeiling
  rw [hceil]
  refine ⟨?_, fun h => ⟨_, _, rfl, by simp [h]⟩⟩
  rintro ⟨lo', hi', heq, hv⟩
  obtain ⟨rfl, -⟩ := Rates.range.inj heq
  exact_mod_cast (Fraction.value_whole lo hlo).symm.trans hv

/-- The limits of the production row. -/
abbrev osmoLimits : QuirkLimits := uvcQuirksLimits 0x2ca3 0x0023

theorem osmoLimits_rate : osmoLimits.maxPixelRate.toNat = 3840 * 2160 * 30 := by decide

theorem exact_filterCaps_iff_clamped :
    Exact (Deliverable osmoLimits.maxPixelRate.toNat) [continuous4K 15 60 (by decide) (by decide)]
      (uvcQuirksFilterCaps keepingSetter (some osmoLimits)
        [continuous4K 15 60 (by decide) (by decide)]) :=
  (exact_filterCaps_iff keepingSetter osmoLimits (by decide)
    [continuous4K 15 60 (by decide) (by decide)]
    (by simpa using continuous4K_regular (by decide) (by decide) (by decide))).mpr
    (by
      intro s hs
      rw [List.mem_singleton.mp hs, continuous4K_beginsAtCeiling, osmoLimits_rate]
      decide)

/-- The ladder from the ceiling upwards keeps the rates above the ceiling. -/
theorem not_exact_from_ceiling :
    ¬ Exact (Deliverable osmoLimits.maxPixelRate.toNat)
      [continuous4K 30 60 (by decide) (by decide)]
      (uvcQuirksFilterCaps keepingSetter (some osmoLimits)
        [continuous4K 30 60 (by decide) (by decide)]) := by
  intro hexact
  have hM : osmoLimits.maxPixelRate ≠ 0 := by decide
  obtain ⟨s', hs', hbad⟩ := not_exact_of_beginsAtCeiling keepingSetter hM
    (continuous4K_regular (by decide) (by decide) (by decide : 30 < 60))
    ((continuous4K_beginsAtCeiling (by decide) (by decide)).mpr (by decide))
  rw [uvcQuirksFilterCaps_eq _ _ hM] at hexact
  have hmem := List.mem_filterMap.mpr ⟨_, List.mem_singleton_self _, hs'⟩
  obtain ⟨m, hm, hd⟩ := hbad (hexact.wellFormed s' hmem)
  exact hd ((hexact.modes m).mp ⟨s', hmem, hm⟩).2

/-! ## The predicates on all geometries -/

/-- The product of the three is within the cap, if there is one. -/
def WithinRate (limits : Option QuirkLimits) (width height fps : Nat) : Prop :=
  ∀ l ∈ limits, l.maxPixelRate ≠ 0 → width * height * fps ≤ l.maxPixelRate.toNat

/-- The product of the three fits 64 bits, or what is left of it is above the cap. -/
def RateFits (limits : Option QuirkLimits) (width height fps : Nat) : Prop :=
  ∀ l ∈ limits, l.maxPixelRate ≠ 0 →
    width * height * fps < 2 ^ 64 ∨ l.maxPixelRate.toNat < width * height * fps % 2 ^ 64

/-- Without a cap both predicates let everything through. -/
theorem uncapped {limits : Option QuirkLimits} (h : ∀ l ∈ limits, l.maxPixelRate = 0) (width height fps : Nat) :
    uvcQuirkModeSelectable limits width height fps = true ∧ uvcQuirkMaxFps limits width height = gMaxuint := by
  cases limits with
  | none => exact ⟨rfl, rfl⟩
  | some l =>
    have hl := h l rfl
    exact ⟨if_pos hl, if_pos hl⟩

section Capped
variable {limits : QuirkLimits} {width height fps : Nat}

/-- The first factor of the product is exact. -/
theorem modeSelectable_capped (h : limits.maxPixelRate ≠ 0) (hp : width * height < 2 ^ 64) :
    uvcQuirkModeSelectable (some limits) width height fps = true ↔
      width * height * fps % 2 ^ 64 ≤ limits.maxPixelRate.toNat := by
  unfold uvcQuirkModeSelectable
  simp only [if_neg h, decide_eq_true_eq]
  rw [Nat.mod_eq_of_lt hp]

/-- The quotient is exact. -/
theorem le_maxFps_iff (h : limits.maxPixelRate ≠ 0) (hp : width * height < 2 ^ 64) (hfps : fps ≤ gMaxuint) :
    fps ≤ uvcQuirkMaxFps (some limits) width height ↔ width * height * fps ≤ limits.maxPixelRate.toNat := by
  unfold uvcQuirkMaxFps
  simp only [if_neg h, Nat.mod_eq_of_lt hp]
  by_cases hzero : width * height = 0
  · rw [if_pos hzero, hzero]
    omega
  · rw [if_neg hzero]
    have hpos : 0 < width * height := by omega
    have hdiv : fps ≤ limits.maxPixelRate.toNat / (width * height) ↔
        width * height * fps ≤ limits.maxPixelRate.toNat := by
      rw [Nat.le_div_iff_mul_le hpos, Nat.mul_comm fps]
    rw [← hdiv]
    split_ifs <;> omega

/-- What is left of a number compares as the number does, unless it is too large and what is left is not. -/
theorem mod_le_iff {a k m : Nat} (hm : m < k) : (a % k ≤ m ↔ a ≤ m) ↔ a < k ∨ m < a % k := by
  have hle := Nat.mod_le a k
  constructor
  · intro h
    omega
  · rintro (h | h)
    · rw [Nat.mod_eq_of_lt h]
    · omega

end Capped

/-- **The predicates are exact and agree.** A mode is selectable exactly if the product of its geometry and
its rate is within the cap, and exactly if its rate is at most the ceiling, if and only if the product fits
64 bits or what is left of it is above the cap. -/
theorem pixel_rate_exact_iff (limits : Option QuirkLimits) (width height fps : UInt32) :
    ((uvcQuirkModeSelectable limits width.toNat height.toNat fps.toNat = true ↔
        WithinRate limits width.toNat height.toNat fps.toNat) ∧
      (uvcQuirkModeSelectable limits width.toNat height.toNat fps.toNat = true ↔
        fps.toNat ≤ uvcQuirkMaxFps limits width.toNat height.toNat)) ↔
    RateFits limits width.toNat height.toNat fps.toNat := by
  have hw := width.toNat_lt
  have hh := height.toNat_lt
  have hfps : fps.toNat ≤ gMaxuint := Nat.le_pred_of_lt fps.toNat_lt
  have hp : width.toNat * height.toNat < 2 ^ 64 := by
    calc width.toNat * height.toNat < 2 ^ 32 * 2 ^ 32 := Nat.mul_lt_mul'' hw hh
      _ = 2 ^ 64 := by decide
  by_cases hcap : ∀ l ∈ limits, l.maxPixelRate = 0
  · obtain ⟨hselectable, hmax⟩ := uncapped hcap width.toNat height.toNat fps.toNat
    have hwithin : WithinRate limits width.toNat height.toNat fps.toNat := fun l hl hne => absurd (hcap l hl) hne
    have hfits : RateFits limits width.toNat height.toNat fps.toNat := fun l hl hne => absurd (hcap l hl) hne
    rw [hselectable, hmax]
    exact ⟨fun _ => hfits, fun _ => ⟨⟨fun _ => hwithin, fun _ => rfl⟩, ⟨fun _ => hfps, fun _ => rfl⟩⟩⟩
  · push Not at hcap
    obtain ⟨l, rfl, hne⟩ := hcap
    have hM : l.maxPixelRate.toNat < 2 ^ 64 := l.maxPixelRate.toNat_lt
    unfold WithinRate RateFits
    simp only [Option.mem_some_iff, forall_eq', hne, ne_eq, not_false_eq_true, forall_true_left]
    rw [modeSelectable_capped hne hp, le_maxFps_iff hne hp hfps, and_self, mod_le_iff hM]

/-- A geometry and a rate whose product is `2 ^ 64` pass any cap. -/
theorem not_pixel_rate_exact :
    ¬ ∀ (limits : Option QuirkLimits) (width height fps : UInt32),
      (uvcQuirkModeSelectable limits width.toNat height.toNat fps.toNat = true ↔
        WithinRate limits width.toNat height.toNat fps.toNat) ∧
      (uvcQuirkModeSelectable limits width.toNat height.toNat fps.toNat = true ↔
        fps.toNat ≤ uvcQuirkMaxFps limits width.toNat height.toNat) := by
  intro hall
  have hselectable : uvcQuirkModeSelectable (some osmoLimits) 2147483648 2147483648 4 = true := by decide
  have hwithin := (hall (some osmoLimits) 2147483648 2147483648 4).1.mp hselectable osmoLimits rfl (by decide)
  exact absurd hwithin (by decide)

end LibuvcH264Src
