import Mathlib.Data.List.TakeWhile
import LibuvcH264Src.BestMode

/-!
# The arithmetic of the selection

* `Arith`, `Arith.Defined` : a signed multiplication, a division or a conversion of a double, and where C defines it;
* `scanFormatsArith` : all that the selection loop computes, in its order;
* `builtRange` : the range that the loop builds for a continuous descriptor;
* `Safe`, `safe_iff` : nothing of it is undefined and no range is empty, and the descriptors for which this is so.
-/

namespace LibuvcH264Src
open AnnexB Caps Prog Contest

/-! ## Operations -/

inductive Arith where
  /-- The product of two `gint`s. -/
  | mul (a b : Int)
  /-- The quotient of two signed integers of so many bits. -/
  | div (bits : Nat) (a b : Int)
  /-- The quotient of two unsigned ones. -/
  | udiv (a b : Nat)
  /-- `(gint)(1e7 / interval)`. -/
  | convert (interval : UInt32)

def Arith.Defined : Arith → Prop
  | .mul a b => -2147483648 ≤ a * b ∧ a * b ≤ 2147483647
  | .div bits a b => b ≠ 0 ∧ ¬ (a = -2 ^ (bits - 1) ∧ b = -1)
  | .udiv _ b => b ≠ 0
  | .convert interval => interval ≠ 0 ∧ (10000000 : ℚ) / interval.toNat < 2147483648

section Loop
variable (g : Gst) (peer : Peer) (limits : QuirkLimits) (uninitialised : Int × Int)

/-- The fps of the intervals. -/
def describeArith (frame : FrameDesc) : List Arith :=
  match frame.intervals with
  | some intervals => (intervals.takeWhile (· ≠ 0)).map .convert
  | none =>
    if frame.dwMinFrameInterval = 0 ∨ frame.dwMaxFrameInterval = 0 then []
    else [.convert frame.dwMaxFrameInterval, .convert frame.dwMinFrameInterval]

/-- `quirks_fraction_fps`, in 64 bits. -/
def fractionFpsArith (fraction : Fraction) : List Arith :=
  if fraction.num ≤ 0 ∨ fraction.den ≤ 0 then [] else [.div 64 (fraction.num + fraction.den - 1) fraction.den]

/-- `uvc_quirk_max_fps`. -/
def maxFpsArith (width height : Nat) : List Arith :=
  if limits.maxPixelRate = 0 then []
  else
    let pixels := width * height % 2 ^ 64
    if pixels = 0 then [] else [.udiv limits.maxPixelRate.toNat pixels]

/-- `uvc_quirks_filter_caps` of one structure. -/
def filterArith (s : Structure Codec) : List Arith :=
  if limits.maxPixelRate = 0 then []
  else
    match s.width, s.height with
    | some width, some height =>
      match s.framerate with
      | .range min max =>
        let cap := uvcQuirkMaxFps (some limits) (toGuint width) (toGuint height)
        maxFpsArith limits (toGuint width) (toGuint height) ++
          if cap = gMaxuint then []
          else
            fractionFpsArith max ++
              if quirksFractionFps max ≤ cap ∨ min.den ≤ 0 then [] else fractionFpsArith min
      | .fraction rate => fractionFpsArith rate
      | .list rates => rates.flatMap fractionFpsArith
      | _ => []
    | _, _ => []

def topRateArith (rates : Rates) : List Arith :=
  match rates with
  | .list fs => (fs.filter (·.den > 0)).map fun f => .div 32 f.num f.den
  | _ => []

/-- `fr_num / fr_den`. -/
def fixatedArith (caps : List (Structure Codec)) : Arith :=
  match caps with
  | ⟨_, _, _, .fraction f⟩ :: _ => .div 32 f.num f.den
  | _ => .div 32 uninitialised.1 uninitialised.2

def considerArith (frame : FrameDesc) (deliverable : List (Structure Codec)) (sel : Selection) : List Arith :=
  match deliverable with
  | [] => []
  | d :: _ =>
    let fps := topRate d.framerate
    let resolution := gintMul frame.wWidth.toNat frame.wHeight.toNat
    let area := gintMul sel.width sel.height
    topRateArith d.framerate ++
      if peer.intersect d ≠ [] then
        .mul sel.width sel.height ::
          if resolution > area ∨ resolution = area ∧ fps > sel.framerate then
            [fixatedArith uninitialised (fixateFirst g (peer.intersect d) fps)]
          else []
      else []

def scanFramesArith (codec : Codec) : Structure Codec → List FrameDesc → Selection → List Arith
  | _, [], _ => []
  | tmp, frame :: rest, sel =>
    let described := describeFrame g tmp frame
    let deliverable := uvcQuirksFilterCaps g.toRangeSetter (some limits) [described.1]
    .mul frame.wWidth.toNat frame.wHeight.toNat :: describeArith frame ++
      if described.2 then
        filterArith limits described.1 ++ considerArith g peer uninitialised frame deliverable sel ++
          scanFramesArith codec described.1 rest (considerFrame g peer uninitialised codec frame deliverable sel)
      else scanFramesArith codec described.1 rest sel

def scanFormatsArith : List FormatDesc → Selection → List Arith
  | [], _ => []
  | format :: rest, sel =>
    match codecOf format with
    | none => scanFormatsArith rest sel
    | some codec =>
      scanFramesArith g peer limits uninitialised codec (templateStructure codec) format.frameDescs sel ++
        scanFormatsArith rest ((scanFrames g peer limits uninitialised codec (templateStructure codec)
          format.frameDescs sel).getLastD sel)

end Loop

/-- The range of a continuous descriptor that is not skipped. -/
def builtRange (frame : FrameDesc) : Option (Fraction × Fraction) :=
  match frame.intervals with
  | some _ => none
  | none =>
    if frame.dwMinFrameInterval = 0 ∨ frame.dwMaxFrameInterval = 0 then none
    else some (intervalFps frame.dwMaxFrameInterval, intervalFps frame.dwMinFrameInterval)

/-- The frame descriptors of the H.264 and H.265 formats. -/
def codedFrames (formats : List FormatDesc) : List FrameDesc :=
  formats.flatMap fun format => if (codecOf format).isSome then format.frameDescs else []

/-- All that the loop computes is defined, as is the frame interval behind it, and no range that it builds is
empty or a single rate. -/
structure Safe (g : Gst) (peer : Peer) (limits : QuirkLimits) (uninitialised : Int × Int)
    (formats : List FormatDesc) : Prop where
  defined : ∀ op ∈ scanFormatsArith g peer limits uninitialised formats .init, op.Defined
  interval : (selectMode g peer limits uninitialised formats).accepted.isSome = true →
    (Arith.div 64 1000000000 (selectMode g peer limits uninitialised formats).framerate).Defined
  ranges : ∀ frame ∈ codedFrames formats, ∀ range ∈ builtRange frame, range.1.value < range.2.value

/-! ## What is defined everywhere -/

theorem convert_defined {interval : UInt32} (h : interval ≠ 0) : (Arith.convert interval).Defined := by
  have hpos : 0 < interval.toNat := by
    apply Nat.pos_of_ne_zero
    intro hzero
    exact h (UInt32.toNat_inj.mp hzero)
  refine ⟨h, ?_⟩
  calc (10000000 : ℚ) / interval.toNat ≤ 10000000 := by
        apply div_le_self (by norm_num)
        exact_mod_cast hpos
    _ < 2147483648 := by norm_num

theorem div_defined {bits : Nat} {a b : Int} (h : 0 < b) : (Arith.div bits a b).Defined :=
  ⟨by omega, by omega⟩

theorem describeArith_defined (frame : FrameDesc) : ∀ op ∈ describeArith frame, op.Defined := by
  intro op hop
  unfold describeArith at hop
  split at hop
  · obtain ⟨interval, hinterval, rfl⟩ := List.mem_map.mp hop
    have hnonzero := List.mem_takeWhile_imp hinterval
    exact convert_defined (of_decide_eq_true hnonzero)
  · split_ifs at hop with hzero
    · exact absurd hop List.not_mem_nil
    · rw [not_or] at hzero
      rcases List.mem_cons.mp hop with rfl | hop
      · exact convert_defined hzero.2
      · rw [List.mem_singleton.mp hop]
        exact convert_defined hzero.1

theorem fractionFpsArith_defined (f : Fraction) : ∀ op ∈ fractionFpsArith f, op.Defined := by
  intro op hop
  unfold fractionFpsArith at hop
  split_ifs at hop
  · exact absurd hop List.not_mem_nil
  · rw [List.mem_singleton.mp hop]
    exact div_defined f.den_pos

theorem maxFpsArith_defined (limits : QuirkLimits) (width height : Nat) :
    ∀ op ∈ maxFpsArith limits width height, op.Defined := by
  intro op hop
  unfold maxFpsArith at hop
  simp only [] at hop
  split_ifs at hop with hlimit hpixels
  · exact absurd hop List.not_mem_nil
  · exact absurd hop List.not_mem_nil
  · rw [List.mem_singleton.mp hop]
    exact hpixels

theorem filterArith_defined (limits : QuirkLimits) (s : Structure Codec) :
    ∀ op ∈ filterArith limits s, op.Defined := by
  intro op hop
  unfold filterArith at hop
  split_ifs at hop
  · exact absurd hop List.not_mem_nil
  split at hop
  · split at hop
    · rcases List.mem_append.mp hop with hop | hop
      · exact maxFpsArith_defined _ _ _ op hop
      · split_ifs at hop
        · exact absurd hop List.not_mem_nil
        · rw [List.append_nil] at hop
          exact fractionFpsArith_defined _ op hop
        · rcases List.mem_append.mp hop with hop | hop <;> exact fractionFpsArith_defined _ op hop
    · exact fractionFpsArith_defined _ op hop
    · obtain ⟨f, -, hop⟩ := List.mem_flatMap.mp hop
      exact fractionFpsArith_defined f op hop
    · exact absurd hop List.not_mem_nil
  · exact absurd hop List.not_mem_nil

theorem topRateArith_defined (rates : Rates) : ∀ op ∈ topRateArith rates, op.Defined := by
  intro op hop
  unfold topRateArith at hop
  split at hop
  · obtain ⟨f, -, rfl⟩ := List.mem_map.mp hop
    exact div_defined f.den_pos
  · exact absurd hop List.not_mem_nil

/-! ## The loop by candidates -/

section Steps
variable (g : Gst) (peer : Peer) (uninitialised : Int × Int)

/-- All that the loop computes for the candidates is defined. -/
def Steps : List Candidate → Selection → Prop
  | [], _ => True
  | c :: cs, sel => (∀ op ∈ considerArith g peer uninitialised c.frame [c.deliverable] sel, op.Defined) ∧
      Steps cs (consider g peer uninitialised sel c)

theorem steps_cons (c : Candidate) (cs : List Candidate) (sel : Selection) :
    Steps g peer uninitialised (c :: cs) sel ↔
      (∀ op ∈ considerArith g peer uninitialised c.frame [c.deliverable] sel, op.Defined) ∧
        Steps g peer uninitialised cs (consider g peer uninitialised sel c) := Iff.rfl

theorem steps_append (cs cs' : List Candidate) (sel : Selection) :
    Steps g peer uninitialised (cs ++ cs') sel ↔ Steps g peer uninitialised cs sel ∧
      Steps g peer uninitialised cs' (cs.foldl (consider g peer uninitialised) sel) := by
  induction cs generalizing sel with
  | nil => exact ⟨fun h => ⟨trivial, h⟩, fun h => h.2⟩
  | cons c cs ih => rw [List.cons_append, steps_cons, steps_cons, List.foldl_cons, ih, and_assoc]

variable (limits : QuirkLimits)

/-- What the loop computes for one descriptor and for those behind it. -/
theorem scanFramesArith_defined (codec : Codec) (frames : List FrameDesc) (tmp : Structure Codec) (sel : Selection) :
    (∀ op ∈ scanFramesArith g peer limits uninitialised codec tmp frames sel, op.Defined) ↔
      (∀ frame ∈ frames, (Arith.mul frame.wWidth.toNat frame.wHeight.toNat).Defined) ∧
        Steps g peer uninitialised (frameCandidates g limits codec tmp frames) sel := by
  induction frames generalizing tmp sel with
  | nil => exact ⟨fun _ => ⟨fun _ h => absurd h List.not_mem_nil, trivial⟩, fun _ _ h => absurd h List.not_mem_nil⟩
  | cons frame rest ih =>
    have hdescribe := describeArith_defined frame
    have hfilter := filterArith_defined limits (describeFrame g tmp frame).1
    unfold scanFramesArith frameCandidates
    simp only []
    rw [List.forall_mem_append, List.forall_mem_cons, List.forall_mem_cons, and_iff_left hdescribe, and_assoc,
      steps_append]
    apply and_congr_right
    intro _
    split_ifs with hdescribed
    · rw [List.forall_mem_append, List.forall_mem_append, and_iff_right hfilter, ih, and_left_comm]
      apply and_congr_right
      intro _
      rcases uvcQuirksFilterCaps_cases g limits (describeFrame g tmp frame).1 with hnone | ⟨d, hd⟩
      · rw [hnone]
        exact ⟨fun h => ⟨trivial, h.2⟩, fun h => ⟨fun _ hop => absurd hop List.not_mem_nil, h.2⟩⟩
      · rw [hd]
        exact ⟨fun h => ⟨⟨h.1, trivial⟩, h.2⟩, fun h => ⟨h.1.1, h.2⟩⟩
    · rw [ih]
      exact ⟨fun h => ⟨h.1, trivial, h.2⟩, fun h => ⟨h.1, h.2.2⟩⟩

theorem scanFormatsArith_defined (formats : List FormatDesc) (sel : Selection) :
    (∀ op ∈ scanFormatsArith g peer limits uninitialised formats sel, op.Defined) ↔
      (∀ frame ∈ codedFrames formats, (Arith.mul frame.wWidth.toNat frame.wHeight.toNat).Defined) ∧
        Steps g peer uninitialised (candidates g limits formats) sel := by
  induction formats generalizing sel with
  | nil => exact ⟨fun _ => ⟨fun _ h => absurd h List.not_mem_nil, trivial⟩, fun _ _ h => absurd h List.not_mem_nil⟩
  | cons format rest ih =>
    unfold scanFormatsArith candidates codedFrames
    rw [List.flatMap_cons]
    cases hcodec : codecOf format with
    | none => exact ih sel
    | some codec =>
      simp only [Option.isSome_some, if_true]
      rw [List.forall_mem_append, List.forall_mem_append, scanFramesArith_defined, ih, steps_append,
        scanFrames_getLastD]
      exact and_and_and_comm

end Steps

/-! ## The loop as a contest -/

section Contest
variable {g : Gst} {peer : Peer} {uninitialised : Int × Int} {sel : Selection} {held : Held Candidate}

theorem fixatedArith_defined (c : Candidate) :
    (fixatedArith uninitialised (c.best g peer)).Defined ↔
      (c.choice g peer = none → (Arith.div 32 uninitialised.1 uninitialised.2).Defined) := by
  unfold fixatedArith Candidate.choice
  rcases c.best g peer with _ | ⟨⟨codec, width, height, rates⟩, rest⟩
  · exact ⟨fun h _ => h, fun h => h rfl⟩
  · cases rates with
    | fraction f => exact ⟨fun _ hnone => absurd hnone (Option.some_ne_none f), fun _ => div_defined f.den_pos⟩
    | absent | list | range | other => exact ⟨fun h _ => h, fun h => h rfl⟩

theorem considerArith_incompatible (c : Candidate) (hc : ¬ c.Compatible peer) :
    ∀ op ∈ considerArith g peer uninitialised c.frame [c.deliverable] sel, op.Defined := by
  intro op hop
  have hnil : ¬ peer.intersect c.deliverable ≠ [] := hc
  unfold considerArith at hop
  simp only [] at hop
  rw [if_neg hnil, List.append_nil] at hop
  exact topRateArith_defined _ op hop

theorem considerArith_compatible (c : Candidate) (hc : c.Compatible peer) (h : sel.Holds g peer held) :
    (∀ op ∈ considerArith g peer uninitialised c.frame [c.deliverable] sel, op.Defined) ↔
      (Arith.mul sel.width sel.height).Defined ∧
        (Beaten (worth g peer uninitialised) held c → (fixatedArith uninitialised (c.best g peer)).Defined) := by
  have hrates := topRateArith_defined c.deliverable.framerate
  have hsome : peer.intersect c.deliverable ≠ [] := hc
  have hbeaten : Beaten (worth g peer uninitialised) held c ↔
      (gintMul c.frame.wWidth.toNat c.frame.wHeight.toNat > gintMul sel.width sel.height ∨
        gintMul c.frame.wWidth.toNat c.frame.wHeight.toNat = gintMul sel.width sel.height ∧
          topRate c.deliverable.framerate > sel.framerate) := by
    simp only [Beaten, worth, Candidate.area, gt_iff_lt, h.size, h.yield]
  unfold considerArith
  simp only [hbeaten]
  rw [List.forall_mem_append, and_iff_right hrates, if_pos hsome, List.forall_mem_cons]
  apply and_congr_right
  intro _
  split_ifs with hwins
  · exact ⟨fun hall _ => hall _ List.mem_cons_self, fun hall op hop => List.mem_singleton.mp hop ▸ hall hwins⟩
  · exact ⟨fun _ hwins' => absurd hwins' hwins, fun _ op hop => absurd hop List.not_mem_nil⟩

theorem consider_mul_defined (g : Gst) (peer : Peer) (uninitialised : Int × Int) (c : Candidate) (hsel : (Arith.mul sel.width sel.height).Defined)
    (hc : (Arith.mul c.frame.wWidth.toNat c.frame.wHeight.toNat).Defined) :
    (Arith.mul (consider g peer uninitialised sel c).width (consider g peer uninitialised sel c).height).Defined := by
  unfold consider considerFrame
  simp only []
  split_ifs
  · exact hc
  · exact hsel

/-- The loop is safe where no candidate without a fixated rate takes the place of another. -/
theorem steps_iff {cs : List Candidate} (h : sel.Holds g peer held) (hsel : (Arith.mul sel.width sel.height).Defined)
    (hcs : ∀ c ∈ cs, (Arith.mul c.frame.wWidth.toNat c.frame.wHeight.toNat).Defined) :
    Steps g peer uninitialised cs sel ↔
      ∀ before c after, cs.filter (Candidate.Compatible peer) = before ++ c :: after →
        Beaten (worth g peer uninitialised) (contest (worth g peer uninitialised) held before) c →
        (fixatedArith uninitialised (c.best g peer)).Defined := by
  induction cs generalizing sel held with
  | nil =>
    refine ⟨fun _ before c after hsplit => ?_, fun _ => trivial⟩
    rw [List.filter_nil] at hsplit
    exact absurd hsplit (by simp)
  | cons c cs ih =>
    have hnext := consider_mul_defined g peer uninitialised c hsel
      (hcs c List.mem_cons_self)
    have hrest : ∀ c' ∈ cs, (Arith.mul c'.frame.wWidth.toNat c'.frame.wHeight.toNat).Defined :=
      fun c' hc' => hcs c' (List.mem_cons_of_mem c hc')
    rw [steps_cons]
    by_cases hc : c.Compatible peer
    · rw [considerArith_compatible c hc h, and_iff_right hsel, ih (consider_compatible c hc h) hnext hrest,
        List.filter_cons_of_pos (by simpa using hc)]
      refine ⟨fun ⟨hhead, htail⟩ before c' after hsplit => ?_, fun hall => ⟨?_, fun before c' after hsplit => ?_⟩⟩
      · rcases before with _ | ⟨b, before⟩
        · obtain ⟨rfl, -⟩ := List.cons.inj hsplit
          exact hhead
        · obtain ⟨rfl, hbehind⟩ := List.cons.inj hsplit
          exact htail before c' after hbehind
      · exact hall [] c _ rfl
      · exact hall (c :: before) c' after (by rw [hsplit]; rfl)
    · rw [and_iff_right (considerArith_incompatible c hc), ih (consider_incompatible c hc h) hnext hrest,
        List.filter_cons_of_neg (by simpa using hc)]

end Contest

/-! ## Rates of sound descriptors -/

/-- A refused range leaves the field as it was, or is written as it is. -/
def RangeSetter.Stores (g : RangeSetter) : Prop :=
  ∀ old (lo hi : Fraction), ¬ lo.value < hi.value →
    g.set old lo.num lo.den hi.num hi.den = old ∨ g.set old lo.num lo.den hi.num hi.den = .range lo hi

/-- A list, or a range that is not empty, without negative rates. -/
def SoundRates (rates : Rates) : Prop :=
  (∃ fs, rates = .list fs ∧ ∀ f ∈ fs, 0 ≤ f.value) ∨
    ∃ lo hi, rates = .range lo hi ∧ 0 ≤ lo.value ∧ lo.value ≤ hi.value

section Sound
variable {g : Gst} {peer : Peer} {limits : QuirkLimits} {rates : Rates}

theorem SoundRates.field (h : SoundRates rates) : rates ≠ .absent := by
  rcases h with ⟨fs, rfl, -⟩ | ⟨lo, hi, rfl, -⟩ <;> nofun

theorem SoundRates.nonneg (h : SoundRates rates) {q : ℚ} (hq : rates.Offers (some q)) : 0 ≤ q := by
  rcases h with ⟨fs, rfl, hfs⟩ | ⟨lo, hi, rfl, hlo, -⟩
  · obtain ⟨f, hf, hvalue⟩ := hq
    rw [Option.some.inj hvalue]
    exact hfs f hf
  · obtain ⟨q', hvalue, hle, -⟩ := hq
    rw [Option.some.inj hvalue]
    exact hlo.trans hle

/-- One that offers nothing bids nothing. -/
theorem SoundRates.topRate_of_rateless {c : Candidate} (h : SoundRates c.deliverable.framerate) (hrate : c.Rateless) :
    topRate c.deliverable.framerate = -1 := by
  rcases h with ⟨fs, hfs, -⟩ | ⟨lo, hi, hrange, -⟩
  · rw [hfs, nil_of_rateless hfs hrate]
    rfl
  · rw [hrange]
    rfl

/-- The range of a clamp is not empty. -/
theorem clamped_sound (hstores : g.toRangeSetter.Stores) {lo hi : Fraction} {cap : Nat} (hlo : 0 ≤ lo.value)
    (hhi : lo.value ≤ hi.value) (hkeep : ¬ quirksFractionFps hi ≤ cap) (hdrop : ¬ cap < quirksFractionFps lo) :
    ∃ lo' hi', g.set (.range lo hi) lo.num lo.den (toGint cap) 1 = .range lo' hi' ∧ 0 ≤ lo'.value ∧
      lo'.value ≤ hi'.value := by
  have hlt := quirksFractionFps_lt hi
  have hcap : cap ≤ 2147483647 := by omega
  have hlow : lo.value ≤ (Fraction.whole cap hcap).value := by
    rw [Fraction.value_whole]
    exact quirksFractionFps_le.mp (not_lt.mp hdrop)
  have hcast : toGint cap = (Fraction.whole cap hcap).num := toGint_eq (by omega)
  rw [hcast]
  by_cases hbelow : lo.value < (Fraction.whole cap hcap).value
  · exact ⟨lo, _, g.accepts (.range lo hi) lo (Fraction.whole cap hcap) hbelow, hlo, hlow⟩
  · rcases hstores (.range lo hi) lo (Fraction.whole cap hcap) hbelow with hset | hset
    · exact ⟨lo, hi, hset, hlo, hhi⟩
    · exact ⟨lo, _, hset, hlo, hlow⟩

/-- What the filter leaves of sound rates. -/
theorem SoundRates.filtered (hstores : g.toRangeSetter.Stores) {s d : Structure Codec} (hs : SoundRates s.framerate)
    (hd : quirksFilterStructure g.toRangeSetter (some limits) s = some d) : SoundRates d.framerate := by
  unfold quirksFilterStructure at hd
  split at hd
  · rcases hs with ⟨fs, hfs, hnonneg⟩ | ⟨lo, hi, hrange, hlo, hhi⟩
    · simp only [hfs] at hd
      split_ifs at hd
      obtain rfl := Option.some.inj hd
      exact Or.inl ⟨_, rfl, fun f hf => hnonneg f (List.mem_of_mem_filter hf)⟩
    · simp only [hrange] at hd
      split_ifs at hd with hkeep hdrop
      · obtain rfl := Option.some.inj hd
        exact Or.inr ⟨lo, hi, hrange, hlo, hhi⟩
      · obtain rfl := Option.some.inj hd
        rw [not_or] at hkeep hdrop
        exact Or.inr (clamped_sound hstores hlo hhi hkeep.2 hdrop.2)
  · obtain rfl := Option.some.inj hd
    exact hs

theorem intervalFps_nonneg (interval : UInt32) : 0 ≤ (intervalFps interval).value := by
  unfold intervalFps
  rw [Fraction.value_whole]
  positivity

/-- What is described of a frame whose range is in order is sound. -/
theorem describeFrame_sound {tmp : Structure Codec} {frame : FrameDesc}
    (hrange : ∀ range ∈ builtRange frame, range.1.value < range.2.value)
    (hdescribed : (describeFrame g tmp frame).2 = true) : SoundRates (describeFrame g tmp frame).1.framerate := by
  unfold describeFrame builtRange at *
  cases hintervals : frame.intervals with
  | some intervals =>
    refine Or.inl ⟨_, rfl, fun f hf => ?_⟩
    obtain ⟨interval, -, rfl⟩ := List.mem_map.mp hf
    exact intervalFps_nonneg interval
  | none =>
    simp only [hintervals] at hrange hdescribed ⊢
    split_ifs at hrange hdescribed ⊢
    have hlt := hrange _ rfl
    refine Or.inr ⟨_, _, g.accepts tmp.framerate _ _ hlt, intervalFps_nonneg _, hlt.le⟩

theorem DeliverableOf.sound (hstores : g.toRangeSetter.Stores) {codec : Codec} {frame : FrameDesc}
    {d : Structure Codec} (hd : DeliverableOf g limits codec frame d)
    (hrange : ∀ range ∈ builtRange frame, range.1.value < range.2.value) : SoundRates d.framerate := by
  obtain ⟨tmp, -, hdescribed, hd⟩ := hd
  have hs := describeFrame_sound (g := g) hrange hdescribed
  rw [uvcQuirksFilterCaps_singleton] at hd
  split_ifs at hd
  · obtain rfl := List.head_eq_of_cons_eq hd
    exact hs
  · cases hfilter : quirksFilterStructure g.toRangeSetter (some limits) (describeFrame g tmp frame).1 with
    | none =>
      rw [hfilter] at hd
      cases hd
    | some d' =>
      rw [hfilter] at hd
      obtain rfl := List.head_eq_of_cons_eq hd
      exact hs.filtered hstores hfilter

end Sound

/-! ## Safe descriptors -/

section Safe
variable {g : Gst} {peer : Peer} {limits : QuirkLimits} {uninitialised : Int × Int} {formats : List FormatDesc}

theorem mul_defined_iff (frame : FrameDesc) :
    (Arith.mul frame.wWidth.toNat frame.wHeight.toNat).Defined ↔
      frame.wWidth.toNat * frame.wHeight.toNat < 2 ^ 31 := by
  unfold Arith.Defined
  constructor
  · intro ⟨_, hle⟩
    have hle' : frame.wWidth.toNat * frame.wHeight.toNat ≤ 2147483647 := by exact_mod_cast hle
    omega
  · intro hlt
    have hle : frame.wWidth.toNat * frame.wHeight.toNat ≤ 2147483647 := by omega
    exact ⟨by linarith [show (0 : Int) ≤ frame.wWidth.toNat * frame.wHeight.toNat by positivity], by exact_mod_cast hle⟩

/-- The range of a frame is in order where the shorter interval is a higher rate. -/
theorem builtRange_lt_iff (frame : FrameDesc) :
    (∀ range ∈ builtRange frame, range.1.value < range.2.value) ↔
      (frame.intervals = none → frame.dwMinFrameInterval ≠ 0 → frame.dwMaxFrameInterval ≠ 0 →
        10000000 / frame.dwMaxFrameInterval.toNat < 10000000 / frame.dwMinFrameInterval.toNat) := by
  have hvalue : ∀ interval : UInt32, (intervalFps interval).value = ((10000000 / interval.toNat : Nat) : ℚ) :=
    fun interval => Fraction.value_whole _ _
  unfold builtRange
  cases hintervals : frame.intervals with
  | some intervals => simp
  | none =>
    simp only []
    split_ifs with hzero
    · refine ⟨fun _ _ hmin hmax => absurd hzero (by simp [hmin, hmax]), fun _ range hr => by cases hr⟩
    · rw [not_or] at hzero
      simp only [Option.mem_some_iff, forall_eq', hvalue, Nat.cast_lt]
      exact ⟨fun h _ _ _ => h, fun h => h trivial hzero.1 hzero.2⟩

theorem mem_codedFrames {c : Candidate} (hc : c ∈ candidates g limits formats) : c.frame ∈ codedFrames formats := by
  obtain ⟨format, hformat, hcodec, hframe, -⟩ := mem_candidates hc
  apply List.mem_flatMap.mpr
  refine ⟨format, hformat, ?_⟩
  rw [hcodec]
  exact hframe

/-- What the loop does not see of a mode without a rate: it is never larger than the incumbent. -/
theorem not_beaten_of_rateless {held : Held Candidate} {c : Candidate} (hsound : SoundRates c.deliverable.framerate)
    (hrate : c.Rateless) (hsize : c.area ≤ held.size) (hyield : -1 ≤ held.yield) :
    ¬ Beaten (worth g peer uninitialised) held c := by
  intro hbeaten
  rcases hbeaten with hlt | ⟨-, hbid⟩
  · exact absurd hsize (not_le.mpr hlt)
  · have hbid' : held.yield < topRate c.deliverable.framerate := hbid
    rw [hsound.topRate_of_rateless hrate] at hbid'
    omega

/-- The facts about the compatible candidates that the two directions share. -/
structure Tame (g : Gst) (limits : QuirkLimits) (peer : Peer) (formats : List FormatDesc) : Prop where
  sound : ∀ c ∈ compatible g limits peer formats, SoundRates c.deliverable.framerate
  area : ∀ c ∈ compatible g limits peer formats, c.area = c.pixels

theorem tame_of_ranges (hstores : g.toRangeSetter.Stores)
    (hmul : ∀ frame ∈ codedFrames formats, frame.wWidth.toNat * frame.wHeight.toNat < 2 ^ 31)
    (hranges : ∀ frame ∈ codedFrames formats, ∀ range ∈ builtRange frame, range.1.value < range.2.value) :
    Tame g limits peer formats where
  sound c hc := by
    obtain ⟨format, hformat, hcodec, hframe, hd⟩ := mem_candidates (List.mem_of_mem_filter hc)
    exact hd.sound hstores (hranges c.frame (mem_codedFrames (List.mem_of_mem_filter hc)))
  area c hc := by
    apply (pixels_bound c).2.1
    have hlt := hmul c.frame (mem_codedFrames (List.mem_of_mem_filter hc))
    unfold Candidate.pixels
    exact_mod_cast hlt

/-- A mode without a rate comes behind one that is at least as large, if it has more than one pixel. -/
def RatelessBehind (cs : List Candidate) : Prop :=
  ∀ before c after, cs = before ++ c :: after → c.Rateless → c.pixels ≤ 1 ∨ ∃ b ∈ before, c.pixels ≤ b.pixels

theorem RatelessBehind.area_le (htame : Tame g limits peer formats)
    (hbehind : RatelessBehind (compatible g limits peer formats)) {before after : List Candidate} {c : Candidate}
    (hsplit : compatible g limits peer formats = before ++ c :: after) (hrate : c.Rateless) :
    c.area ≤ (contest (worth g peer uninitialised) noneHeld before).size := by
  obtain ⟨hstart, hall⟩ := contest_size (worth g peer uninitialised) noneHeld before
  have harea : ∀ x, x ∈ before ∨ x = c → x.area = x.pixels := by
    intro x hx
    apply htame.area
    rw [hsplit]
    rcases hx with hx | rfl
    · exact List.mem_append_left _ hx
    · exact List.mem_append_right _ List.mem_cons_self
  rw [harea c (Or.inr rfl)]
  rcases hbehind before c after hsplit hrate with hone | ⟨b, hb, hle⟩
  · exact hone.trans hstart
  · rw [← harea b (Or.inl hb)] at hle
    exact hle.trans (hall b hb)

/-- No incumbent is without a rate. -/
theorem RatelessBehind.yield (hkeeps : peer.Keeps) (htame : Tame g limits peer formats)
    (hbehind : RatelessBehind (compatible g limits peer formats)) (before after : List Candidate)
    (hsplit : compatible g limits peer formats = before ++ after) :
    -1 ≤ (contest (worth g peer uninitialised) noneHeld before).yield := by
  induction before using List.reverseRecOn generalizing after with
  | nil => exact le_refl _
  | append_singleton before x ih =>
    have hsplit' : compatible g limits peer formats = before ++ x :: after := by
      rw [hsplit, List.append_assoc, List.singleton_append]
    have hx : x ∈ compatible g limits peer formats := by
      rw [hsplit']
      exact List.mem_append_right _ List.mem_cons_self
    have hyield := ih (x :: after) hsplit'
    rw [contest_append, contest_cons, contest_nil]
    unfold challenge
    split_ifs with hbeaten
    · have hrate : ¬ x.Rateless := fun hrate => not_beaten_of_rateless (htame.sound x hx) hrate
        (hbehind.area_le htame hsplit' hrate) hyield hbeaten
      obtain ⟨f, hchoice, hoffers, -⟩ := choice_of_offers (g := g) hkeeps
        (of_decide_eq_true (List.mem_filter.mp hx).2) (htame.sound x hx).field hrate
      have hnonneg : ((0 : Int) : ℚ) ≤ f.value := by exact_mod_cast (htame.sound x hx).nonneg hoffers
      rw [Fraction.intCast_le_value, Int.zero_mul] at hnonneg
      have hquot : 0 ≤ f.num.tdiv f.den := Int.tdiv_nonneg hnonneg f.den_pos.le
      show -1 ≤ (worth g peer uninitialised).yield x
      rw [yield_eq, hchoice]
      exact le_trans (by decide) hquot
    · exact hyield

/-- What is left to show: a candidate that takes the place of another is fixated. -/
theorem fixated_iff (hkeeps : peer.Keeps) (htame : Tame g limits peer formats) :
    (∀ uninitialised before c after, compatible g limits peer formats = before ++ c :: after →
      Beaten (worth g peer uninitialised) (contest (worth g peer uninitialised) noneHeld before) c →
      (fixatedArith uninitialised (c.best g peer)).Defined) ↔ RatelessBehind (compatible g limits peer formats) := by
  constructor
  · intro hall before c after hsplit hrate
    by_contra hfirst
    push Not at hfirst
    obtain ⟨hone, hbefore⟩ := hfirst
    have hmem : ∀ x, x ∈ before ∨ x = c → x ∈ compatible g limits peer formats := by
      intro x hx
      rw [hsplit]
      rcases hx with hx | rfl
      · exact List.mem_append_left _ hx
      · exact List.mem_append_right _ List.mem_cons_self
    have hc := hmem c (Or.inr rfl)
    have hsize : (contest (worth g peer (0, 0)) noneHeld before).size < c.area := by
      rw [htame.area c hc]
      apply contest_size_lt hone
      intro x hx
      show x.area < c.pixels
      rw [htame.area x (hmem x (Or.inl hx))]
      exact hbefore x hx
    have hdefined := hall (0, 0) before c after hsplit (Or.inl hsize)
    have hnone := choice_eq_none (g := g) (of_decide_eq_true (List.mem_filter.mp hc).2) (htame.sound c hc).field hrate
    exact ((fixatedArith_defined c).mp hdefined hnone).1 rfl
  · intro hbehind uninitialised before c after hsplit hbeaten
    have hc : c ∈ compatible g limits peer formats := by
      rw [hsplit]
      exact List.mem_append_right _ List.mem_cons_self
    have hrate : ¬ c.Rateless := fun hrate => not_beaten_of_rateless (htame.sound c hc) hrate
      (hbehind.area_le htame hsplit hrate) (hbehind.yield hkeeps htame before (c :: after) hsplit) hbeaten
    obtain ⟨f, hchoice, -⟩ := choice_of_offers (g := g) hkeeps
      (of_decide_eq_true (List.mem_filter.mp hc).2) (htame.sound c hc).field hrate
    apply (fixatedArith_defined c).mpr
    intro hnone
    rw [hchoice] at hnone
    cases hnone

/-- The frame interval is divided by a rate that is not zero. -/
theorem interval_defined (h : (selectMode g peer limits uninitialised formats).accepted.isSome = true) :
    (Arith.div 64 1000000000 (selectMode g peer limits uninitialised formats).framerate).Defined := by
  apply div_defined
  unfold Selection.accepted at h
  split_ifs at h with hrefused
  · exact absurd h Bool.false_ne_true
  · omega

/-- **The arithmetic of the selection is safe**, whatever a mode without a rate leaves uninitialised, exactly
where every area fits a `gint`, the intervals of every continuous descriptor are two rates in order, and no mode
without a rate is the largest so far. -/
theorem safe_iff (hstores : g.toRangeSetter.Stores) (hkeeps : peer.Keeps) :
    (∀ uninitialised, Safe g peer limits uninitialised formats) ↔
      (∀ frame ∈ codedFrames formats, frame.wWidth.toNat * frame.wHeight.toNat < 2 ^ 31) ∧
      (∀ frame ∈ codedFrames formats, frame.intervals = none →
        frame.dwMinFrameInterval ≠ 0 → frame.dwMaxFrameInterval ≠ 0 →
        10000000 / frame.dwMaxFrameInterval.toNat < 10000000 / frame.dwMinFrameInterval.toNat) ∧
      RatelessBehind (compatible g limits peer formats) := by
  have hinit : ∀ uninitialised, (∀ c ∈ candidates g limits formats,
      (Arith.mul c.frame.wWidth.toNat c.frame.wHeight.toNat).Defined) →
      (Steps g peer uninitialised (candidates g limits formats) .init ↔
        ∀ before c after, compatible g limits peer formats = before ++ c :: after →
          Beaten (worth g peer uninitialised) (contest (worth g peer uninitialised) noneHeld before) c →
          (fixatedArith uninitialised (c.best g peer)).Defined) :=
    fun uninitialised hcs => steps_iff Selection.holds_init ⟨by decide, by decide⟩ hcs
  have hcandidates : (∀ frame ∈ codedFrames formats, (Arith.mul frame.wWidth.toNat frame.wHeight.toNat).Defined) →
      ∀ c ∈ candidates g limits formats, (Arith.mul c.frame.wWidth.toNat c.frame.wHeight.toNat).Defined :=
    fun hmul c hc => hmul c.frame (mem_codedFrames hc)
  constructor
  · intro hsafe
    have hdefined := fun uninitialised =>
      (scanFormatsArith_defined g peer uninitialised limits formats .init).mp (hsafe uninitialised).defined
    have hmul := (hdefined (0, 0)).1
    have hfits : ∀ frame ∈ codedFrames formats, frame.wWidth.toNat * frame.wHeight.toNat < 2 ^ 31 :=
      fun frame hframe => (mul_defined_iff frame).mp (hmul frame hframe)
    have hranges := (hsafe (0, 0)).ranges
    refine ⟨hfits, fun frame hframe => (builtRange_lt_iff frame).mp (hranges frame hframe), ?_⟩
    apply (fixated_iff hkeeps (tame_of_ranges hstores hfits hranges)).mp
    intro uninitialised
    exact (hinit uninitialised (hcandidates hmul)).mp (hdefined uninitialised).2
  · intro ⟨hfits, hintervals, hbehind⟩ uninitialised
    have hmul : ∀ frame ∈ codedFrames formats, (Arith.mul frame.wWidth.toNat frame.wHeight.toNat).Defined :=
      fun frame hframe => (mul_defined_iff frame).mpr (hfits frame hframe)
    have hranges : ∀ frame ∈ codedFrames formats, ∀ range ∈ builtRange frame, range.1.value < range.2.value :=
      fun frame hframe => (builtRange_lt_iff frame).mpr (hintervals frame hframe)
    have hfixated := (fixated_iff hkeeps (tame_of_ranges hstores hfits hranges)).mpr hbehind uninitialised
    refine ⟨?_, interval_defined, hranges⟩
    apply (scanFormatsArith_defined g peer uninitialised limits formats .init).mpr
    exact ⟨hmul, (hinit uninitialised (hcandidates hmul)).mpr hfixated⟩

end Safe

theorem plainGst_stores : plainGst.toRangeSetter.Stores := by
  intro old lo hi hlt
  rw [Fraction.value_lt] at hlt
  left
  exact dif_neg fun hc => hlt hc.2.2

/-- The camera has one mode, of any rate from 10 to 30 frames a second. -/
def steplessFormats : List FormatDesc :=
  [⟨ascii ['H', '2', '6', '5'], [⟨3840, 2160, none, 333333, 1000000⟩]⟩]

/-- Nothing is undefined for a camera of continuous rates. -/
theorem safe_iff_stepless : Safe plainGst anyPeer ⟨0, 0⟩ (0, 0) steplessFormats := by
  refine (safe_iff plainGst_stores anyPeer_keeps).mpr ?_ (0, 0)
  refine ⟨by decide, by decide, ?_⟩
  intro before c after hsplit hrate
  have hcompatible : compatible plainGst ⟨0, 0⟩ anyPeer steplessFormats =
      [⟨.h265, ⟨3840, 2160, none, 333333, 1000000⟩,
        ⟨.h265, some 3840, some 2160, .range (intervalFps 1000000) (intervalFps 333333)⟩⟩] := by
    decide +kernel
  have hc : c ∈ compatible plainGst ⟨0, 0⟩ anyPeer steplessFormats := by
    rw [hsplit]
    exact List.mem_append_right _ List.mem_cons_self
  rw [hcompatible] at hc
  rw [List.mem_singleton.mp hc] at hrate
  refine absurd ⟨_, rfl, le_refl _, ?_⟩ (hrate (intervalFps 1000000).value)
  apply (builtRange_lt_iff ⟨3840, 2160, none, 333333, 1000000⟩).mpr (by decide) _ rfl |>.le

/-- The camera has one mode, of one rate, as a continuous descriptor. -/
def steadyFormats : List FormatDesc :=
  [⟨ascii ['H', '2', '6', '4'], [⟨1920, 1080, none, 333333, 333333⟩]⟩]

/-- The camera has a mode of 65535x65535. -/
def wideFormats : List FormatDesc :=
  [⟨ascii ['H', '2', '6', '4'], [⟨65535, 65535, some [333333], 333333, 333333⟩]⟩]

/-- A continuous descriptor of one rate makes a range without room, and a large one an area that overflows. -/
theorem not_safe : ¬ Safe plainGst anyPeer ⟨0, 0⟩ (0, 0) steadyFormats ∧ ¬ Safe plainGst anyPeer ⟨0, 0⟩ (0, 0) wideFormats := by
  constructor
  · intro hsafe
    have hlt := hsafe.ranges ⟨1920, 1080, none, 333333, 333333⟩ (by decide) _ rfl
    exact lt_irrefl _ hlt
  · intro hsafe
    have hdefined := ((scanFormatsArith_defined plainGst anyPeer (0, 0) ⟨0, 0⟩ wideFormats .init).mp hsafe.defined).1
    have hfits := (mul_defined_iff _).mp (hdefined ⟨65535, 65535, some [333333], 333333, 333333⟩ (by decide))
    exact absurd hfits (by decide)

end LibuvcH264Src
