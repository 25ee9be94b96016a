import LibuvcH264Src.Selection
import LibuvcH264Src.Talks

/-!
# The ladder and the selection

* `Discrete`, `fixedPeer` : descriptors that list their intervals, and a peer whose caps are one mode;
* `Selection.Takes` : a selection of one mode, with fixed caps;
* `Pinned`, `Climbs` : what the loop keeps of the selection for a fixed peer, and for any;
* `scanFormats_ladder` : the ladder is not for the peer to decide;
* `negotiate_publishes` : what `negotiate` publishes and returns;
* `offered_modes_taken` : an offered mode is taken exactly if it has a whole frame a second and an area
  that is a positive machine integer, and what is taken is offered.
-/

namespace LibuvcH264Src
open AnnexB Caps Prog

/-! ## Fixed peers -/

/-- Every frame descriptor lists its intervals. -/
def Discrete (formats : List FormatDesc) : Prop :=
  ∀ format ∈ formats, ∀ frame ∈ format.frameDescs, frame.intervals.isSome = true

instance Discrete.decidable : DecidablePred Discrete := fun formats => by
  unfold Discrete
  infer_instance

/-- A peer whose caps are one mode. -/
def fixedPeer (codec : Codec) (width height : Int) (f : Fraction) : Peer where
  intersect d :=
    if d.fields = codec ∧ (∀ v ∈ d.width, v = width) ∧ (∀ v ∈ d.height, v = height) ∧ d.framerate.contains f then
      [⟨codec, some width, some height, .fraction f⟩]
    else []
  sound d s hs hwidth hheight := by
    split_ifs at hs with h
    · obtain ⟨hfields, hw, hh, -⟩ := h
      obtain ⟨v, hv⟩ := Option.isSome_iff_exists.mp hwidth
      obtain ⟨v', hv'⟩ := Option.isSome_iff_exists.mp hheight
      rw [List.mem_singleton.mp hs, hv, hv', hw v hv, hh v' hv']
      exact ⟨hfields.symm, rfl, rfl⟩
    · exact absurd hs List.not_mem_nil
  rates d s hs hrates r hr := by
    split_ifs at hs with h
    · rw [List.mem_singleton.mp hs] at hr
      obtain rfl : r = some f.value := hr
      exact (Rates.contains_iff hrates).mp h.2.2.2
    · exact absurd hs List.not_mem_nil

section Fixed
variable {g : Gst} {limits : QuirkLimits} {uninitialised : Int × Int} {codec : Codec} {width height : Int} {f : Fraction}

theorem fixedPeer_intersect {d : Structure Codec} {w h : Int} (hw : d.width = some w) (hh : d.height = some h) :
    (fixedPeer codec width height f).intersect d =
      if d.fields = codec ∧ w = width ∧ h = height ∧ d.framerate.contains f then
        [⟨codec, some width, some height, .fraction f⟩]
      else [] := by
  unfold fixedPeer
  simp only [hw, hh, Option.mem_some_iff, forall_eq']

/-! ## The modes of a discrete descriptor -/

/-- What a discrete descriptor delivers is a list of whole rates. -/
theorem DeliverableOf.rates {codec : Codec} {frame : FrameDesc} {d : Structure Codec}
    (hd : DeliverableOf g limits codec frame d) (hframe : frame.intervals.isSome = true) :
    ∃ fs, d.framerate = .list fs ∧ ∀ f ∈ fs, ∃ interval, f = intervalFps interval := by
  obtain ⟨tmp, -, -, hd⟩ := hd
  obtain ⟨intervals, hintervals⟩ := Option.isSome_iff_exists.mp hframe
  have hdescribed : (describeFrame g tmp frame).1.framerate =
      .list ((intervals.takeWhile (· ≠ 0)).map intervalFps) := by
    unfold describeFrame
    simp only [hintervals]
  have hwhole : ∀ f ∈ (intervals.takeWhile (· ≠ 0)).map intervalFps, ∃ interval, f = intervalFps interval := by
    intro f hf
    obtain ⟨interval, -, rfl⟩ := List.mem_map.mp hf
    exact ⟨interval, rfl⟩
  rw [uvcQuirksFilterCaps_singleton] at hd
  split_ifs at hd
  · obtain rfl := List.head_eq_of_cons_eq hd
    exact ⟨_, hdescribed, hwhole⟩
  · obtain ⟨-, hwidth, hheight⟩ := describeFrame_geometry (g := g) tmp frame
    unfold quirksFilterStructure at hd
    rw [hwidth, hheight, hdescribed] at hd
    simp only [] at hd
    split_ifs at hd with hkept
    · exact absurd hd nofun
    · obtain rfl := List.head_eq_of_cons_eq hd
      exact ⟨_, rfl, fun f hf => hwhole f (List.mem_of_mem_filter hf)⟩

/-- The top rate is the greatest of the list. -/
theorem le_topRate {fs : List Fraction} {f : Fraction} (hf : f ∈ fs) : f.num.tdiv f.den ≤ topRate (.list fs) := by
  have hfold : ∀ (fs : List Fraction) (top : Int),
      let top' := fs.foldl (fun top f => if f.den > 0 ∧ f.num.tdiv f.den > top then f.num.tdiv f.den else top) top
      top ≤ top' ∧ ∀ f ∈ fs, f.num.tdiv f.den ≤ top' := by
    intro fs
    induction fs with
    | nil => exact fun top => ⟨Int.le_refl top, fun f hf => absurd hf List.not_mem_nil⟩
    | cons f' rest ih =>
      intro top
      obtain ⟨hle, hrest⟩ := ih (if f'.den > 0 ∧ f'.num.tdiv f'.den > top then f'.num.tdiv f'.den else top)
      have hden := f'.den_pos
      refine ⟨?_, fun f hf => ?_⟩
      · refine le_trans ?_ hle
        split_ifs <;> omega
      · rcases List.mem_cons.mp hf with rfl | hf
        · refine le_trans ?_ hle
          split_ifs <;> omega
        · exact hrest f hf
  exact (hfold fs (-1)).2 f hf

/-- The area of a frame, as the loop computes it, against that of no selection. -/
theorem gintMul_area (w h : UInt16) :
    (0 < (w.toNat : Int) * h.toNat ∧ (w.toNat : Int) * h.toNat < 2 ^ 31 →
      gintMul w.toNat h.toNat = (w.toNat : Int) * h.toNat) ∧
    (¬ (0 < (w.toNat : Int) * h.toNat ∧ (w.toNat : Int) * h.toNat < 2 ^ 31) → gintMul w.toNat h.toNat ≤ 0) := by
  have hw := w.toNat_lt
  have hh := h.toNat_lt
  have hle : (w.toNat : Int) * h.toNat ≤ 65535 * 65535 := by
    exact_mod_cast Nat.mul_le_mul (Nat.le_of_lt_succ hw) (Nat.le_of_lt_succ hh)
  have hnonneg : 0 ≤ (w.toNat : Int) * h.toNat := by positivity
  unfold gintMul
  generalize (w.toNat : Int) * h.toNat = area at *
  rw [Int.bmod_def]
  constructor <;> intro harea <;> split <;> omega

/-! ## The selection for a fixed peer -/

/-- The area is a positive machine integer. -/
def AreaFits (width height : Int) : Prop := 0 < width * height ∧ width * height < 2 ^ 31

instance AreaFits.decidable (width height : Int) : Decidable (AreaFits width height) :=
  inferInstanceAs (Decidable (_ ∧ _))

/-- The selection is of one mode, with fixed caps. -/
def Selection.Takes (sel : Selection) (codec : Codec) (width height : Int) (f : Fraction) : Prop :=
  sel.width = width ∧ sel.height = height ∧ (sel.framerate : ℚ) = f.value ∧ sel.frameFormat = some codec.format ∧
    ∃ f', sel.accepted = some [⟨codec, some width, some height, .fraction f'⟩] ∧ f'.value = f.value

/-- The mode of one rate. -/
def modeOf (codec : Codec) (width height : Int) (f : Fraction) : Mode Codec :=
  ⟨codec, some width, some height, some f.value⟩

/-- Nothing was selected, or the one mode was; and it was if it was offered and its area fits. -/
structure Pinned (codec : Codec) (width height : Int) (f : Fraction) (sel : Selection) : Prop where
  untouched : sel.bestCaps = none → sel.width = -1 ∧ sel.height = -1 ∧ sel.framerate = -1
  taken : ∀ best, sel.bestCaps = some best → AreaFits width height ∧ 0 ≤ width ∧ 0 ≤ height ∧
    sel.width = width ∧ sel.height = height ∧ (sel.framerate : ℚ) = f.value ∧ sel.frameFormat = some codec.format ∧
    ∃ f', best = [⟨codec, some width, some height, .fraction f'⟩] ∧ f'.value = f.value
  offered : Offered sel.ladder (modeOf codec width height f) → AreaFits width height → sel.bestCaps ≠ none

theorem pinned_init : Pinned codec width height f .init where
  untouched := fun _ => ⟨rfl, rfl, rfl⟩
  taken _ hbest := absurd hbest nofun
  offered h := by
    obtain ⟨s, hs, -⟩ := h
    exact absurd hs List.not_mem_nil

theorem intervalFps_value (interval : UInt32) :
    (intervalFps interval).value = ((intervalFps interval).num.tdiv (intervalFps interval).den : Int) ∧
      0 ≤ (intervalFps interval).num.tdiv (intervalFps interval).den := by
  unfold intervalFps Fraction.whole Fraction.value
  simp only [Int.tdiv_one, Int.cast_one, div_one]
  exact ⟨trivial, Int.natCast_nonneg _⟩

/-- What a fixated fraction says of the framerate, where it is a whole one. -/
theorem tdiv_eq_value {f f' : Fraction} {k : Int} (hf : f.value = k) (hf' : f'.value = f.value) :
    f'.num.tdiv f'.den = k := by
  have hden := f'.den_pos
  have hvalue : (f'.num : ℚ) = (k * f'.den : Int) := by
    have h := hf'.trans hf
    unfold Fraction.value at h
    rw [div_eq_iff (ne_of_gt f'.value_den_pos)] at h
    rw [h]
    push_cast
    rfl
  have hnum : f'.num = k * f'.den := by exact_mod_cast hvalue
  rw [hnum, Int.mul_tdiv_cancel _ (by omega)]

/-- One rate is fixated to itself. -/
theorem fixateFirst_fraction (s : Structure Codec) (fps : Int) :
    ∃ f', fixateFirst g [{ s with framerate := .fraction f }] fps = [{ s with framerate := .fraction f' }] ∧
      f'.value = f.value := by
  obtain ⟨f', hfix, -⟩ := g.fixate_nearest (.fraction f) fps f.value rfl
  refine ⟨f', ?_, Option.some.inj (g.fixate_offers _ _ _ hfix)⟩
  unfold fixateFirst
  simp only [hfix]

theorem considerFrame_pinned {frame : FrameDesc} {codec' : Codec} {d : Structure Codec} {sel : Selection}
    (hframe : frame.intervals.isSome = true) (hd : DeliverableOf g limits codec' frame d)
    (h : Pinned codec width height f sel) :
    Pinned codec width height f
      (considerFrame g (fixedPeer codec width height f) uninitialised codec' frame [d] sel) := by
  obtain ⟨hfields, hw, hh⟩ := hd.geometry
  obtain ⟨fs, hrates, hwhole⟩ := hd.rates hframe
  obtain ⟨hfits, hnone⟩ := gintMul_area frame.wWidth frame.wHeight
  have hnotAbsent : d.framerate ≠ .absent := by
    rw [hrates]
    nofun
  unfold considerFrame
  simp only [fixedPeer_intersect hw hh]
  by_cases hin : d.fields = codec ∧ (frame.wWidth.toNat : Int) = width ∧ (frame.wHeight.toNat : Int) = height ∧
      d.framerate.contains f = true
  · rw [if_pos hin]
    obtain ⟨hcodec, rfl, rfl, hcontains⟩ := hin
    obtain rfl := hfields.symm.trans hcodec
    obtain ⟨f₁, hf₁, hvalue⟩ : ∃ f₁ ∈ fs, some f.value = some f₁.value := by
      have hoffers := (Rates.contains_iff hnotAbsent).mp hcontains
      rw [hrates] at hoffers
      exact hoffers
    obtain ⟨interval, rfl⟩ := hwhole f₁ hf₁
    obtain ⟨hwholeValue, hnonneg⟩ := intervalFps_value interval
    have hfvalue := (Option.some.inj hvalue).trans hwholeValue
    have htop : -1 < topRate d.framerate := by
      have hle := le_topRate hf₁
      rw [hrates]
      omega
    have hbefore : sel.bestCaps = none → gintMul sel.width sel.height = 1 ∧ sel.framerate = -1 := by
      intro hnothing
      obtain ⟨hw₀, hh₀, hf₀⟩ := h.untouched hnothing
      rw [hw₀, hh₀]
      exact ⟨by unfold gintMul; decide, hf₀⟩
    split_ifs with hchosen
    · obtain ⟨f', hbest, hvalue'⟩ := fixateFirst_fraction (g := g) (f := f)
        ⟨codec', some frame.wWidth.toNat, some frame.wHeight.toNat, .absent⟩ (topRate d.framerate)
      have harea : AreaFits frame.wWidth.toNat frame.wHeight.toNat := by
        cases hcaps : sel.bestCaps with
        | none =>
          by_contra hbad
          obtain ⟨harea, -⟩ := hbefore hcaps
          have hle := hnone hbad
          omega
        | some best => exact (h.taken best hcaps).1
      refine ⟨fun hnothing => absurd hnothing nofun, ?_, fun _ _ => nofun⟩
      rintro best hsome
      obtain rfl := Option.some.inj hsome
      refine ⟨harea, Int.natCast_nonneg _, Int.natCast_nonneg _, rfl, rfl, ?_, rfl, f', hbest, hvalue'⟩
      show ((fixatedFramerate uninitialised (fixateFirst g [⟨codec', some _, some _, .fraction f⟩] _) : Int) : ℚ) = _
      rw [hbest, hfvalue]
      exact congrArg _ (tdiv_eq_value hfvalue hvalue')
    · refine ⟨h.untouched, h.taken, fun _ harea hnothing => hchosen ⟨nofun, ?_⟩⟩
      obtain ⟨harea', hframerate⟩ := hbefore hnothing
      rw [harea', hframerate, hfits harea]
      have hpos := harea.1
      omega
  · rw [if_neg hin, if_neg fun hchosen => hchosen.1 rfl]
    refine ⟨h.untouched, h.taken, fun hoffered => h.offered ?_⟩
    obtain ⟨s, hs, hoffers⟩ := hoffered
    rcases List.mem_append.mp hs with hs | hs
    · exact ⟨s, hs, hoffers⟩
    · obtain rfl := List.mem_singleton.mp hs
      obtain ⟨hcodec, hwidth, hheight, hrate⟩ := hoffers
      exact absurd ⟨hcodec.symm, (Option.some.inj (hwidth.trans hw)).symm, (Option.some.inj (hheight.trans hh)).symm,
        (Rates.contains_iff hnotAbsent).mpr hrate⟩ hin

theorem selectMode_pinned {formats : List FormatDesc} (hdiscrete : Discrete formats) :
    Pinned codec width height f (selectMode g (fixedPeer codec width height f) limits uninitialised formats) :=
  getLastD_forall
    (scanFormats_forall formats
      (fun format hformat _ _ frame hframe _ hd _ h =>
        considerFrame_pinned (hdiscrete format hformat frame hframe) hd h)
      pinned_init)
    pinned_init

/-- Where the mode is offered, it is taken for fixed caps of an area and of a framerate that the exits let
through. -/
theorem Pinned.takes_iff {sel : Selection} (h : Pinned codec width height f sel)
    (hoffered : Offered sel.ladder (modeOf codec width height f)) :
    sel.Takes codec width height f ↔ AreaFits width height ∧ 1 ≤ f.value := by
  constructor
  · rintro ⟨-, -, hrate, -, f', haccepted, -⟩
    obtain ⟨harea, -⟩ := h.taken _ (Selection.accepted_eq haccepted)
    refine ⟨harea, ?_⟩
    unfold Selection.accepted at haccepted
    split_ifs at haccepted with hexit
    rw [← hrate]
    exact_mod_cast (by omega : 1 ≤ sel.framerate)
  · rintro ⟨harea, hrate⟩
    obtain ⟨best, hbest⟩ := Option.ne_none_iff_exists'.mp (h.offered hoffered harea)
    obtain ⟨-, hwidth, hheight, hw, hh, hframerate, hformat, f', rfl, hvalue⟩ := h.taken best hbest
    refine ⟨hw, hh, hframerate, hformat, f', ?_, hvalue⟩
    have hpos : 1 ≤ sel.framerate := by
      rw [← hframerate] at hrate
      exact_mod_cast hrate
    unfold Selection.accepted
    rw [if_neg (by omega), hbest]

end Fixed

/-! ## The ladder -/

section Ladder
variable {g : Gst} {limits : QuirkLimits} {peer peer' : Peer} {uninitialised uninitialised' : Int × Int}

theorem considerFrame_ladder (codec : Codec) (frame : FrameDesc) (deliverable : List (Structure Codec)) (sel : Selection) :
    (considerFrame g peer uninitialised codec frame deliverable sel).ladder = sel.ladder ++ deliverable := by
  unfold considerFrame
  split
  · exact (List.append_nil _).symm
  · simp only []
    split_ifs <;> rfl

theorem scanFrames_ladder (codec : Codec) (frames : List FrameDesc) (tmp : Structure Codec) {sel sel' : Selection}
    (h : sel.ladder = sel'.ladder) :
    (scanFrames g peer limits uninitialised codec tmp frames sel).map Selection.ladder =
      (scanFrames g peer' limits uninitialised' codec tmp frames sel').map Selection.ladder := by
  induction frames generalizing tmp sel sel' with
  | nil => rfl
  | cons frame rest ih =>
    unfold scanFrames
    simp only []
    split_ifs
    · have hhere : ∀ deliverable, (considerFrame g peer uninitialised codec frame deliverable sel).ladder =
          (considerFrame g peer' uninitialised' codec frame deliverable sel').ladder := by
        intro deliverable
        rw [considerFrame_ladder, considerFrame_ladder, h]
      rw [List.map_cons, List.map_cons, hhere, ih _ (hhere _)]
    · rw [List.map_cons, List.map_cons, h, ih _ h]

theorem getLastD_map {α β : Type} {f : α → β} {xs ys : List α} {d d' : α} (h : xs.map f = ys.map f) (hd : f d = f d') :
    f (xs.getLastD d) = f (ys.getLastD d') := by
  have hmap : ∀ (xs : List α) (d : α), f (xs.getLastD d) = (xs.map f).getLastD (f d) := by
    intro xs d
    rw [List.getLastD_eq_getLast?, List.getLastD_eq_getLast?, List.getLast?_map, Option.getD_map]
  rw [hmap, hmap, h, hd]

theorem scanFormats_ladder (formats : List FormatDesc) {sel sel' : Selection} (h : sel.ladder = sel'.ladder) :
    (scanFormats g peer limits uninitialised formats sel).map Selection.ladder =
      (scanFormats g peer' limits uninitialised' formats sel').map Selection.ladder := by
  induction formats generalizing sel sel' with
  | nil => rfl
  | cons format rest ih =>
    unfold scanFormats
    split
    · exact ih h
    · next codec _ =>
      have hhere : (scanFrames g peer limits uninitialised codec (templateStructure codec) format.frameDescs sel).map
            Selection.ladder =
          (scanFrames g peer' limits uninitialised' codec (templateStructure codec) format.frameDescs sel').map
            Selection.ladder :=
        scanFrames_ladder codec format.frameDescs (templateStructure codec) h
      rw [List.map_append, List.map_append, hhere, ih (getLastD_map hhere h)]

/-- The ladder is not for the peer to decide. -/
theorem selectMode_ladder (formats : List FormatDesc) :
    (selectMode g peer limits uninitialised formats).ladder = (selectMode g peer' limits uninitialised' formats).ladder :=
  getLastD_map (scanFormats_ladder formats rfl) rfl

/-! ## The selection for any peer -/

/-- The ladder offers what was selected. -/
def Climbs (sel : Selection) : Prop :=
  ∀ s rest, sel.bestCaps = some (s :: rest) → ∀ f, s.framerate = .fraction f → Offered sel.ladder (s.mode (some f.value))

theorem considerFrame_climbs {codec : Codec} {frame : FrameDesc} {d : Structure Codec} {sel : Selection}
    (hframe : frame.intervals.isSome = true) (hd : DeliverableOf g limits codec frame d) (h : Climbs sel) :
    Climbs (considerFrame g peer uninitialised codec frame [d] sel) := by
  obtain ⟨hfields, hwidth, hheight⟩ := hd.geometry
  obtain ⟨fs, hrates, -⟩ := hd.rates hframe
  unfold considerFrame
  simp only []
  split_ifs with hchosen
  · intro s rest hbest f hf
    obtain ⟨s', rest', hcaps⟩ := List.exists_cons_of_ne_nil hchosen.1
    have hmem : s' ∈ peer.intersect d := hcaps ▸ List.mem_cons_self
    obtain ⟨hsf, hsw, hsh⟩ := peer.sound d s' hmem (by rw [hwidth]; rfl) (by rw [hheight]; rfl)
    obtain ⟨rates, hfixed, hfix⟩ := fixateFirst_cons (g := g) s' rest' (topRate d.framerate)
    have hbest' := Option.some.inj hbest
    rw [hcaps, hfixed] at hbest'
    obtain ⟨rfl, -⟩ := List.cons.inj hbest'
    have hoffers : s'.framerate.Offers (some f.value) := by
      rcases hfix f hf with hfix | ⟨-, hfix⟩
      · exact g.fixate_offers _ _ _ hfix
      · rw [hfix]
        rfl
    have hd' := peer.rates d s' hmem (by rw [hrates]; nofun) _ hoffers
    exact ⟨d, List.mem_append_right _ (List.mem_singleton_self d), hsf, hsw, hsh, hd'⟩
  · intro s rest hbest f hf
    obtain ⟨s', hs', hoffers⟩ := h s rest hbest f hf
    exact ⟨s', List.mem_append_left _ hs', hoffers⟩

theorem selectMode_climbs {formats : List FormatDesc} (hdiscrete : Discrete formats) :
    Climbs (selectMode g peer limits uninitialised formats) :=
  getLastD_forall
    (scanFormats_forall formats
      (fun format hformat _ _ frame hframe _ hd _ h =>
        considerFrame_climbs (hdiscrete format hformat frame hframe) hd h)
      fun _ _ h => absurd h nofun)
    fun _ _ h => absurd h nofun

end Ladder

/-! ## Negotiation -/

/-- The limits that a device is under. -/
def deviceLimits (ids : Option (UInt16 × UInt16)) : QuirkLimits :=
  match ids with
  | some (vid, pid) => uvcQuirksLimits vid pid
  | none => ⟨0, 0⟩

section Negotiation
variable {env : Env} {g : Gst}

theorem request_reply (req : Request) (w : World) :
    wp (fun _ => True) (request env req) (fun reply _ => ∃ log, reply = env.reply log req) w := by
  unfold request
  rw [wp_bind]
  refine wp_true (fun _ => trivial) fun _ w' => ?_
  rw [wp_bind, wp_ask, wp_bind]
  exact wp_true (fun _ => trivial) fun _ _ => ⟨w'.log, rfl⟩

theorem getStreamCtrlFormatSize_nonneg (hprobe : ∀ log mode, 0 ≤ (env.reply log (.probe mode)).res)
    (width height fps : Int) (w : World) :
    wp (fun _ => True) (getStreamCtrlFormatSize env width height fps) (fun res _ => 0 ≤ res) w := by
  unfold getStreamCtrlFormatSize
  rw [wp_bind, wp_get, wp_bind]
  refine wp_mono (request_reply _ w) fun reply w' hreply => ?_
  obtain ⟨log, rfl⟩ := hreply
  rw [wp_bind, wp_modifyOwn, wp_pure]
  exact hprobe log _

theorem negotiateMode_succeeds (hprobe : ∀ log mode, 0 ≤ (env.reply log (.probe mode)).res) (sel : Selection)
    (caps : List (Structure Codec)) (w : World) :
    wp (fun _ => True) (negotiateMode env sel caps) (fun ok _ => ok = true) w := by
  unfold negotiateMode probeStreamCtrl
  rw [wp_bind, wp_bind, wp_when]
  refine ⟨fun hdouble => absurd hdouble nofun, fun _ => ?_⟩
  rw [wp_bind]
  refine wp_mono (getStreamCtrlFormatSize_nonneg hprobe _ _ _ w) fun res w' hres => ?_
  rw [if_neg (by rintro ⟨-, rfl⟩; exact absurd hres (by decide)), wp_pure, if_neg (by omega)]
  rw [wp_bind]
  refine wp_true (fun _ => trivial) fun _ w' => ?_
  rw [wp_bind, wp_modifyStream, wp_bind, wp_modifyOwn, wp_bind]
  refine wp_true (fun _ => trivial) fun _ w' => ?_
  rw [wp_bind, wp_get, wp_bind]
  exact wp_true (fun _ => trivial) fun _ w' => rfl

/-- Without a format there is no selection. -/
theorem selectMode_none {peer : Peer} {limits : QuirkLimits} {uninitialised : Int × Int} {formats : List FormatDesc}
    (hall : (formats.all fun format => (codecOf format).isNone) = true) :
    (selectMode g peer limits uninitialised formats).accepted = none := by
  have hscan : scanFormats g peer limits uninitialised formats .init = [] := by
    induction formats with
    | nil => rfl
    | cons format rest ih =>
      rw [List.all_cons, Bool.and_eq_true] at hall
      unfold scanFormats
      rw [Option.isNone_iff_eq_none.mp hall.1]
      exact ih hall.2
  unfold selectMode
  rw [hscan]
  rfl

theorem uvcGetFormatDescs_answer (w : World) :
    wp (fun _ => True) (uvcGetFormatDescs env)
      (fun formats w' => ∃ log, w.log <:+ log ∧ log <:+ w'.log ∧ formats = env.formatDescs log) w := by
  unfold uvcGetFormatDescs
  rw [wp_bind]
  refine turn_talks.wp (fun _ _ => trivial) fun _ w₁ h₁ => ?_
  rw [wp_bind, wp_ask, wp_bind]
  refine (withHandle_talks fun _ _ => ⟨rfl, rfl⟩).wp (fun _ _ => trivial) fun _ w₂ h₂ => ?_
  exact ⟨w₁.log, h₁.grown, h₂.grown, rfl⟩

/-- What a negotiation does with its selection. -/
def negotiateSelection (env : Env) (formats : List FormatDesc) (sel : Selection) : Prog World Bool := do
  if formats.all fun format => (codecOf format).isNone then
    let _ ← uvcGetFormatDescs env
    record (.error (.uvc uvcErrorNotSupported "negotiating caps: device exposes no H264/H265 format"))
    return false
  else
    match sel.accepted with
    | none => return false
    | some caps => negotiateMode env sel caps

theorem negotiateSelection_talks (formats : List FormatDesc) (sel : Selection) :
    Stays Talks (negotiateSelection env formats sel) := by
  unfold negotiateSelection
  refine stays_ite ?_ ?_
  · refine stays_bind uvcGetFormatDescs_talks fun _ => stays_bind (record_talks fun _ => ⟨rfl, rfl⟩) fun _ => ?_
    exact stays_pure _
  · cases sel.accepted with
    | none => exact stays_pure _
    | some caps => exact negotiateMode_talks sel caps

/-- If no probe is refused, it is up to the selection. -/
theorem negotiateSelection_succeeds (hprobe : ∀ log mode, 0 ≤ (env.reply log (.probe mode)).res) {peer : Peer}
    {limits : QuirkLimits} {uninitialised : Int × Int} (formats : List FormatDesc) (w : World) :
    wp (fun _ => True) (negotiateSelection env formats (selectMode g peer limits uninitialised formats))
      (fun ok _ => ok = (selectMode g peer limits uninitialised formats).accepted.isSome) w := by
  unfold negotiateSelection
  rw [wp_ite]
  constructor
  · intro hall
    rw [wp_bind]
    refine wp_true (fun _ => trivial) fun _ w' => ?_
    rw [wp_bind, wp_record, wp_pure, selectMode_none hall]
    rfl
  · intro _
    split
    · next hnone => exact (congrArg Option.isSome hnone).symm
    · next caps hcaps =>
      refine wp_mono (negotiateMode_succeeds hprobe _ caps w) fun ok _ hok => ?_
      exact hok.trans (congrArg Option.isSome hcaps).symm

/-- **What a negotiation publishes and returns**, by what it was answered on the way. However it ends it is the ladder,
and if no probe is refused, whether a mode was selected that the exits let through. -/
theorem negotiate_publishes (w : World) :
    wp (fun _ => True) (negotiate env g)
      (fun ok w' => ∃ log log' log'', w.log <:+ log ∧ log <:+ log' ∧ log' <:+ log'' ∧ log'' <:+ w'.log ∧
        let sel := selectMode g (env.peer log) (deviceLimits (env.deviceIds log)) (env.uninitialised log'')
          (env.formatDescs log')
        w'.own.deliverableCaps = some sel.ladder ∧
          ((∀ log mode, 0 ≤ (env.reply log (.probe mode)).res) → ok = sel.accepted.isSome)) w := by
  unfold negotiate
  rw [wp_bind]
  refine turn_talks.wp (fun _ _ => trivial) fun _ w₁ h₁ => ?_
  rw [wp_bind, wp_ask, wp_bind, wp_ask, wp_bind]
  refine wp_mono (uvcGetFormatDescs_answer w₁) fun formats w₂ ⟨log', hlog, hlog', hformats⟩ => ?_
  subst hformats
  rw [wp_bind, wp_ask, wp_bind, wp_record, wp_bind]
  refine (writeFormats_talks _).wp (fun _ _ => trivial) fun _ w₃ h₃ => ?_
  have hgrown : w₂.log <:+ w₃.log := (List.suffix_cons _ _).trans h₃.grown
  rw [wp_bind]
  show wp _ (negotiateSelection env (env.formatDescs log') (selectMode g (env.peer w₁.log)
    (deviceLimits (env.deviceIds w₁.log)) (env.uninitialised w₂.log) (env.formatDescs log'))) _ w₃
  have hok : wp (fun _ => True) (negotiateSelection env (env.formatDescs log') (selectMode g (env.peer w₁.log)
      (deviceLimits (env.deviceIds w₁.log)) (env.uninitialised w₂.log) (env.formatDescs log')))
      (fun ok _ => (∀ log mode, 0 ≤ (env.reply log (.probe mode)).res) → ok = (selectMode g (env.peer w₁.log)
        (deviceLimits (env.deviceIds w₁.log)) (env.uninitialised w₂.log) (env.formatDescs log')).accepted.isSome) w₃ := by
    by_cases hprobe : ∀ log mode, 0 ≤ (env.reply log (.probe mode)).res
    · exact wp_mono (negotiateSelection_succeeds hprobe _ w₃) fun _ _ hok _ => hok
    · exact wp_true (fun _ => trivial) fun _ _ h => absurd h hprobe
  refine wp_mono (wp_and hok ((negotiateSelection_talks _ _).wp (fun _ _ => trivial) fun _ _ h => h.grown))
    fun ok w₄ ⟨hok, h₄⟩ => ?_
  rw [wp_bind]
  unfold publishLadder
  rw [wp_bind]
  refine turn_talks.wp (fun _ _ => trivial) fun _ w₅ h₅ => ?_
  rw [wp_modifyOwn, wp_pure]
  exact ⟨w₁.log, log', w₂.log, h₁.grown, hlog, hlog', hgrown.trans (h₄.trans h₅.grown), rfl, hok⟩

end Negotiation

/-- What the environment answers to a negotiation. -/
structure Answers (env : Env) (peer : Peer) (limits : QuirkLimits) (uninitialised : Int × Int)
    (formats : List FormatDesc) : Prop where
  peer : ∀ log, env.peer log = peer
  limits : ∀ log, deviceLimits (env.deviceIds log) = limits
  uninitialised : ∀ log, env.uninitialised log = uninitialised
  formats : ∀ log, env.formatDescs log = formats
  probe : ∀ log mode, 0 ≤ (env.reply log (.probe mode)).res

/-- **Offered modes and taken modes.** A mode of the ladder is taken by a negotiation whose peer has exactly
this mode if and only if it has a whole frame a second and an area that is a positive machine integer. With
any peer, the mode that a negotiation fixates is one of the ladder. The ladder is what `negotiate` publishes,
and a taken mode is what it succeeds with if no probe is refused. -/
theorem offered_modes_taken (g : Gst) (peer : Peer) (limits : QuirkLimits) (uninitialised : Int × Int)
    (formats : List FormatDesc) (hdiscrete : Discrete formats) :
    (∀ codec width height f,
      Offered (selectMode g peer limits uninitialised formats).ladder (modeOf codec width height f) →
      ((selectMode g (fixedPeer codec width height f) limits uninitialised formats).Takes codec width height f ↔
        AreaFits width height ∧ 1 ≤ f.value)) ∧
    (∀ codec width height f rest,
      (selectMode g peer limits uninitialised formats).accepted =
        some (⟨codec, some width, some height, .fraction f⟩ :: rest) →
      Offered (selectMode g peer limits uninitialised formats).ladder (modeOf codec width height f)) ∧
    (∀ env, Answers env peer limits uninitialised formats → ∀ w ok w', negotiate env g w = (some ok, w') →
      w'.own.deliverableCaps = some (selectMode g peer limits uninitialised formats).ladder ∧
      ok = (selectMode g peer limits uninitialised formats).accepted.isSome) := by
  refine ⟨fun codec width height f hoffered => ?_, fun codec width height f rest haccepted => ?_,
    fun env henv w ok w' hrun => ?_⟩
  · have hpinned : Pinned codec width height f (selectMode g (fixedPeer codec width height f) limits
        uninitialised formats) := selectMode_pinned hdiscrete
    have hladder : (selectMode g peer limits uninitialised formats).ladder =
        (selectMode g (fixedPeer codec width height f) limits uninitialised formats).ladder := selectMode_ladder formats
    rw [hladder] at hoffered
    exact hpinned.takes_iff hoffered
  · exact selectMode_climbs hdiscrete _ rest (Selection.accepted_eq haccepted) f rfl
  · obtain ⟨log, log', log'', -, -, -, -, hladder, hok⟩ := wp_elim (negotiate_publishes w) hrun
    rw [henv.peer, henv.limits, henv.uninitialised, henv.formats] at hladder hok
    exact ⟨hladder, hok henv.probe⟩

/-- The mode of the camera is taken for a peer that has exactly this mode. -/
theorem offered_modes_taken_camera :
    (selectMode plainGst (fixedPeer .h264 1920 1080 (intervalFps 333333)) ⟨0, 0⟩ (0, 0) cameraFormats).Takes
      .h264 1920 1080 (intervalFps 333333) := by
  have hdiscrete : Discrete cameraFormats := by decide
  have hmem : ∃ s ∈ (selectMode plainGst anyPeer ⟨0, 0⟩ (0, 0) cameraFormats).ladder,
      s = ⟨.h264, some 1920, some 1080, .list [intervalFps 333333]⟩ := by
    decide +kernel
  obtain ⟨s, hs, rfl⟩ := hmem
  have htaken := (offered_modes_taken plainGst anyPeer ⟨0, 0⟩ (0, 0) cameraFormats hdiscrete).1 .h264 1920 1080
    (intervalFps 333333) ⟨_, hs, rfl, rfl, rfl, _, List.mem_singleton_self _, rfl⟩
  refine htaken.mpr ⟨by decide, ?_⟩
  show (1 : ℚ) ≤ (Fraction.whole 30 _).value
  rw [Fraction.value_whole]
  norm_num

/-- The camera has a mode of one frame in two seconds. -/
def slowFormats : List FormatDesc :=
  [⟨ascii ['H', '2', '6', '4'], [⟨1920, 1080, some [333333, 20000000], 333333, 20000000⟩]⟩]

/-- A rate that rounds to no frame a second is offered, and not taken. -/
theorem not_offered_modes_taken :
    ¬ ∀ (g : Gst) (peer : Peer) (limits : QuirkLimits) (uninitialised : Int × Int) (formats : List FormatDesc),
      Discrete formats → ∀ codec width height f,
      Offered (selectMode g peer limits uninitialised formats).ladder (modeOf codec width height f) →
      (selectMode g (fixedPeer codec width height f) limits uninitialised formats).Takes codec width height f := by
  intro hall
  have hdiscrete : Discrete slowFormats := by decide
  have hmem : ∃ s ∈ (selectMode plainGst anyPeer ⟨0, 0⟩ (0, 0) slowFormats).ladder,
      s = ⟨.h264, some 1920, some 1080, .list [intervalFps 333333, intervalFps 20000000]⟩ := by
    decide +kernel
  obtain ⟨s, hs, rfl⟩ := hmem
  obtain ⟨-, -, -, -, f', haccepted, -⟩ := hall plainGst anyPeer ⟨0, 0⟩ (0, 0) slowFormats hdiscrete .h264 1920 1080
    (intervalFps 20000000) ⟨_, hs, rfl, rfl, rfl, _, List.mem_cons_of_mem _ (List.mem_singleton_self _), rfl⟩
  have hnone : (selectMode plainGst (fixedPeer .h264 1920 1080 (intervalFps 20000000)) ⟨0, 0⟩ (0, 0)
      slowFormats).accepted = none := by
    decide +kernel
  exact absurd (hnone.symm.trans haccepted) nofun

end LibuvcH264Src
