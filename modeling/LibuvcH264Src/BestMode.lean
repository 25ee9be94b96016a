import LibuvcH264Src.Candidates
import LibuvcH264Src.OfferedModes

/-!
# The best mode

* `Peer.Keeps` : an intersection is not empty in its framerate;
* `Candidate.Allows`, `Selection.Optimal` : the rates that the peer leaves of a candidate, and a selection of
  the largest area and, for that area, the highest rate;
* `Candidate.choice`, `Decided` : the rate that is fixated on a candidate, and a contest that goes to the best;
* `optimal_iff` : exactly then the selection is optimal.
-/

namespace LibuvcH264Src
open AnnexB Caps Prog Contest

/-! ## Rates of a candidate -/

/-- What intersects with a structure of some rate has some rate. -/
def Peer.Keeps (peer : Peer) : Prop :=
  ∀ d, (∃ q, d.framerate.Offers (some q)) → ∀ s ∈ peer.intersect d, ∃ q, s.framerate.Offers (some q)

section Candidate
variable (g : Gst) (peer : Peer) (c : Candidate)

/-- The area as it is. -/
def Candidate.pixels : Int := (c.frame.wWidth.toNat : Int) * c.frame.wHeight.toNat

/-- The rate is deliverable, and the peer takes it. -/
def Candidate.Allows (q : ℚ) : Prop := ∃ s ∈ peer.intersect c.deliverable, s.framerate.Offers (some q)

/-- There is no rate to deliver. -/
def Candidate.Rateless : Prop := ∀ q, ¬ c.deliverable.framerate.Offers (some q)

/-- The rate that is fixated. -/
def Candidate.choice : Option Fraction :=
  match c.best g peer with
  | ⟨_, _, _, .fraction f⟩ :: _ => some f
  | _ => none

end Candidate

/-- The selection is of a compatible mode of the largest area and, for this area, of the highest rate. -/
def Selection.Optimal (peer : Peer) (cs : List Candidate) (sel : Selection) : Prop :=
  sel.accepted.isSome = true ∧ ∃ c ∈ cs, sel.width = c.frame.wWidth.toNat ∧ sel.height = c.frame.wHeight.toNat ∧
    sel.frameFormat = some c.codec.format ∧ c.Allows peer sel.framerate ∧
    ∀ c' ∈ cs, ∀ q, c'.Allows peer q → c'.pixels ≤ c.pixels ∧ (c'.pixels = c.pixels → q ≤ sel.framerate)

/-- A candidate of the largest area is fixated to the highest rate, no top rate of this area behind it is above
that rate, and the first candidate of this area has a rate. -/
def Decided (g : Gst) (peer : Peer) (cs : List Candidate) : Prop :=
  ∃ before c after f, cs = before ++ c :: after ∧ c.choice g peer = some f ∧ 1 ≤ f.value ∧ 0 < c.pixels ∧
    (∀ x ∈ cs, x.area ≤ c.area) ∧ (∀ x ∈ cs, ¬ x.Rateless → x.pixels < 2 ^ 31) ∧
    (∀ x ∈ cs, x.area = c.area → ∀ q, x.Allows peer q → q ≤ f.value) ∧
    (∀ x ∈ after, x.area = c.area → (topRate x.deliverable.framerate : ℚ) ≤ f.value) ∧
    (1 < c.pixels → ∀ before' x after', cs = before' ++ x :: after' → x.area = c.area →
      (∀ y ∈ before', y.area < c.area) → ¬ x.Rateless)

section Facts
variable {g : Gst} {limits : QuirkLimits} {peer : Peer} {uninitialised : Int × Int}

theorem mem_frameCandidates {codec : Codec} {c : Candidate} (frames : List FrameDesc) (tmp : Structure Codec)
    (htmp : tmp.fields = codec) (hc : c ∈ frameCandidates g limits codec tmp frames) :
    c.codec = codec ∧ c.frame ∈ frames ∧ DeliverableOf g limits codec c.frame c.deliverable := by
  induction frames generalizing tmp with
  | nil => exact absurd hc List.not_mem_nil
  | cons frame rest ih =>
    unfold frameCandidates at hc
    rcases List.mem_append.mp hc with hc | hc
    · obtain ⟨d, hd, rfl⟩ := List.mem_map.mp hc
      split_ifs at hd with hdescribed
      · refine ⟨rfl, List.mem_cons_self, tmp, htmp, hdescribed, ?_⟩
        rcases uvcQuirksFilterCaps_cases g limits (describeFrame g tmp frame).1 with hnone | ⟨d', hd'⟩
        · rw [hnone] at hd
          exact absurd hd List.not_mem_nil
        · rw [hd'] at hd ⊢
          rw [List.mem_singleton.mp hd]
      · exact absurd hd List.not_mem_nil
    · obtain ⟨hcodec, hframe, hd⟩ := ih _ ((describeFrame_geometry tmp frame).1.trans htmp) hc
      exact ⟨hcodec, List.mem_cons_of_mem frame hframe, hd⟩

theorem mem_candidates {formats : List FormatDesc} {c : Candidate} (hc : c ∈ candidates g limits formats) :
    ∃ format ∈ formats, codecOf format = some c.codec ∧ c.frame ∈ format.frameDescs ∧
      DeliverableOf g limits c.codec c.frame c.deliverable := by
  induction formats with
  | nil => exact absurd hc List.not_mem_nil
  | cons format rest ih =>
    unfold candidates at hc
    cases hcodec : codecOf format with
    | none =>
      rw [hcodec] at hc
      obtain ⟨format', hformat', h⟩ := ih hc
      exact ⟨format', List.mem_cons_of_mem format hformat', h⟩
    | some codec =>
      rw [hcodec] at hc
      rcases List.mem_append.mp hc with hc | hc
      · obtain ⟨rfl, hframe, hd⟩ := mem_frameCandidates format.frameDescs (templateStructure codec) (Eq.refl codec) hc
        exact ⟨format, List.mem_cons_self, hcodec, hframe, hd⟩
      · obtain ⟨format', hformat', h⟩ := ih hc
        exact ⟨format', List.mem_cons_of_mem format hformat', h⟩

/-- A compatible candidate of discrete descriptors has a list of whole rates. -/
theorem rates_of_mem {formats : List FormatDesc} (hdiscrete : Discrete formats) {c : Candidate}
    (hc : c ∈ compatible g limits peer formats) :
    peer.intersect c.deliverable ≠ [] ∧
      ∃ fs, c.deliverable.framerate = .list fs ∧ ∀ f ∈ fs, ∃ interval, f = intervalFps interval := by
  obtain ⟨hmem, hcompatible⟩ := List.mem_filter.mp hc
  obtain ⟨format, hformat, -, hframe, hd⟩ := mem_candidates hmem
  exact ⟨of_decide_eq_true hcompatible, hd.rates (hdiscrete format hformat c.frame hframe)⟩

theorem pixels_bound (c : Candidate) : 0 ≤ c.pixels ∧ (c.pixels < 2 ^ 31 → c.area = c.pixels) ∧
    (2 ^ 31 ≤ c.pixels → c.area ≤ 0) := by
  have hw := c.frame.wWidth.toNat_lt
  have hh := c.frame.wHeight.toNat_lt
  have hle : (c.frame.wWidth.toNat : Int) * c.frame.wHeight.toNat ≤ 65535 * 65535 := by
    exact_mod_cast Nat.mul_le_mul (Nat.le_of_lt_succ hw) (Nat.le_of_lt_succ hh)
  have hnonneg : 0 ≤ (c.frame.wWidth.toNat : Int) * c.frame.wHeight.toNat := by positivity
  unfold Candidate.pixels Candidate.area gintMul
  rw [Int.bmod_def]
  refine ⟨hnonneg, ?_, ?_⟩ <;> intro hlt <;> split <;> omega

/-- What the loop makes of the fixated rate. -/
theorem yield_eq (c : Candidate) :
    (worth g peer uninitialised).yield c =
      match c.choice g peer with
      | some f => f.num.tdiv f.den
      | none => uninitialised.1.tdiv uninitialised.2 := by
  unfold worth Candidate.choice fixatedFramerate
  simp only []
  rcases c.best g peer with _ | ⟨⟨codec, width, height, rates⟩, rest⟩
  · rfl
  · cases rates <;> rfl

theorem intervalFps_le (interval : UInt32) : (intervalFps interval).num.tdiv (intervalFps interval).den ≤ 10000000 := by
  unfold intervalFps Fraction.whole
  simp only [Int.tdiv_one]
  exact_mod_cast Nat.div_le_self 10000000 interval.toNat

/-- The top rate is one of the list, if there is one. -/
theorem topRate_cases (fs : List Fraction) :
    topRate (.list fs) = -1 ∨ ∃ f ∈ fs, topRate (.list fs) = f.num.tdiv f.den := by
  have hfold : ∀ (fs : List Fraction) (top : Int),
      let top' := fs.foldl (fun top f => if f.den > 0 ∧ f.num.tdiv f.den > top then f.num.tdiv f.den else top) top
      top' = top ∨ ∃ f ∈ fs, top' = f.num.tdiv f.den := by
    intro fs
    induction fs with
    | nil => exact fun top => Or.inl rfl
    | cons f rest ih =>
      intro top
      rw [List.foldl_cons]
      by_cases hgreater : f.den > 0 ∧ f.num.tdiv f.den > top
      · rw [if_pos hgreater]
        rcases ih (f.num.tdiv f.den) with h | ⟨f', hf', h⟩
        · exact Or.inr ⟨f, List.mem_cons_self, h⟩
        · exact Or.inr ⟨f', List.mem_cons_of_mem f hf', h⟩
      · rw [if_neg hgreater]
        rcases ih top with h | ⟨f', hf', h⟩
        · exact Or.inl h
        · exact Or.inr ⟨f', List.mem_cons_of_mem f hf', h⟩
  exact hfold fs (-1)

theorem nil_of_rateless {c : Candidate} {fs : List Fraction} (hfs : c.deliverable.framerate = .list fs)
    (hrate : c.Rateless) : fs = [] := by
  rcases fs with _ | ⟨f, fs⟩
  · rfl
  · have hoffers : c.deliverable.framerate.Offers (some f.value) := by
      rw [hfs]
      exact ⟨f, List.mem_cons_self, rfl⟩
    exact absurd hoffers (hrate _)

/-- A compatible candidate with a rate is fixated to one that it offers and that the peer takes. -/
theorem choice_of_offers {c : Candidate} (hkeeps : peer.Keeps) (hc : c.Compatible peer)
    (hfield : c.deliverable.framerate ≠ .absent) (hrate : ¬ c.Rateless) :
    ∃ f, c.choice g peer = some f ∧ c.deliverable.framerate.Offers (some f.value) ∧ c.Allows peer f.value := by
  obtain ⟨s, rest, hs⟩ := List.exists_cons_of_ne_nil hc
  have hmem : s ∈ peer.intersect c.deliverable := hs ▸ List.mem_cons_self
  have hsome : ∃ q, c.deliverable.framerate.Offers (some q) := by
    unfold Candidate.Rateless at hrate
    push Not at hrate
    exact hrate
  obtain ⟨q, hq⟩ := hkeeps c.deliverable hsome s hmem
  obtain ⟨f, hfix, -⟩ := g.fixate_nearest s.framerate (topRate c.deliverable.framerate) q hq
  have hoffers := g.fixate_offers _ _ _ hfix
  refine ⟨f, ?_, peer.rates c.deliverable s hmem hfield _ hoffers, s, hmem, hoffers⟩
  unfold Candidate.choice Candidate.best fixateFirst
  rw [hs]
  simp only [hfix]

/-- One without a rate is not fixated. -/
theorem choice_eq_none {c : Candidate} (hc : c.Compatible peer) (hfield : c.deliverable.framerate ≠ .absent)
    (hrate : c.Rateless) : c.choice g peer = none := by
  obtain ⟨s, rest, hs⟩ := List.exists_cons_of_ne_nil hc
  have hmem : s ∈ peer.intersect c.deliverable := hs ▸ List.mem_cons_self
  have hnone : ∀ q, ¬ s.framerate.Offers (some q) := by
    intro q hq
    exact hrate q (peer.rates c.deliverable s hmem hfield _ hq)
  have hfix : g.fixate s.framerate (topRate c.deliverable.framerate) = none := by
    cases hfix : g.fixate s.framerate (topRate c.deliverable.framerate) with
    | none => rfl
    | some f => exact absurd (g.fixate_offers _ _ _ hfix) (hnone _)
  unfold Candidate.choice Candidate.best fixateFirst
  rw [hs]
  simp only [hfix]
  split
  · next f _ heq =>
    obtain ⟨rfl, -⟩ := List.cons.inj heq
    exact absurd (Eq.refl (some f.value)) (hnone f.value)
  · rfl

section Discrete
variable {formats : List FormatDesc} {c : Candidate}

/-- A candidate of whole rates is fixated to one of them. -/
theorem choice_of_rate (uninitialised : Int × Int) (hdiscrete : Discrete formats) (hkeeps : peer.Keeps) (hc : c ∈ compatible g limits peer formats)
    (hrate : ¬ c.Rateless) :
    ∃ f k, c.choice g peer = some f ∧ f.value = (k : Int) ∧ c.Allows peer f.value ∧
      (worth g peer uninitialised).yield c = k ∧ 0 ≤ k ∧ k ≤ topRate c.deliverable.framerate := by
  obtain ⟨hcompatible, fs, hfs, hwhole⟩ := rates_of_mem hdiscrete hc
  obtain ⟨f, hchoice, hdelivered, hallows⟩ :=
    choice_of_offers (g := g) hkeeps hcompatible (by rw [hfs]; nofun) hrate
  rw [hfs] at hdelivered
  obtain ⟨f', hf', hvalue⟩ := hdelivered
  obtain ⟨interval, rfl⟩ := hwhole f' hf'
  obtain ⟨hwholeValue, hnonneg⟩ := intervalFps_value interval
  have hk := (Option.some.inj hvalue).trans hwholeValue
  refine ⟨f, _, hchoice, hk, hallows, ?_, hnonneg, ?_⟩
  · rw [yield_eq, hchoice]
    exact tdiv_eq_value hk rfl
  · rw [hfs]
    exact le_topRate hf'

/-- A candidate without a rate is not fixated, and bids nothing. -/
theorem choice_of_rateless (hdiscrete : Discrete formats) (hc : c ∈ compatible g limits peer formats)
    (hrate : c.Rateless) : c.choice g peer = none ∧ topRate c.deliverable.framerate = -1 := by
  obtain ⟨hcompatible, fs, hfs, -⟩ := rates_of_mem hdiscrete hc
  refine ⟨choice_eq_none hcompatible (by rw [hfs]; nofun) hrate, ?_⟩
  rw [hfs, nil_of_rateless hfs hrate]
  rfl

/-- No candidate bids more than ten million. -/
theorem topRate_le (hdiscrete : Discrete formats) (hc : c ∈ compatible g limits peer formats) :
    topRate c.deliverable.framerate ≤ 10000000 := by
  obtain ⟨-, fs, hfs, hwhole⟩ := rates_of_mem hdiscrete hc
  rw [hfs]
  rcases topRate_cases fs with h | ⟨f, hf, h⟩
  · rw [h]
    decide
  · obtain ⟨interval, rfl⟩ := hwhole f hf
    rw [h]
    exact intervalFps_le interval

/-- The peer leaves no rate above the top rate. -/
theorem allows_le (hdiscrete : Discrete formats) (hc : c ∈ compatible g limits peer formats) {q : ℚ}
    (hq : c.Allows peer q) : ¬ c.Rateless ∧ q ≤ topRate c.deliverable.framerate := by
  obtain ⟨-, fs, hfs, hwhole⟩ := rates_of_mem hdiscrete hc
  obtain ⟨s, hs, hoffers⟩ := hq
  have hdelivered := peer.rates c.deliverable s hs (by rw [hfs]; nofun) _ hoffers
  refine ⟨fun hrateless => hrateless q hdelivered, ?_⟩
  rw [hfs] at hdelivered ⊢
  obtain ⟨f, hf, hvalue⟩ := hdelivered
  obtain ⟨interval, rfl⟩ := hwhole f hf
  obtain ⟨hwholeValue, -⟩ := intervalFps_value interval
  rw [Option.some.inj hvalue, hwholeValue]
  exact_mod_cast le_topRate hf

end Discrete

/-! ## Decided contests -/

section Decided
variable {formats : List FormatDesc} {c : Candidate} {f : Fraction}

/-- The incumbent is never larger than the best candidate, and one of its size is a candidate with a rate that
yields no more. -/
theorem contest_prefix (uninitialised : Int × Int) (hdiscrete : Discrete formats) (hkeeps : peer.Keeps) (hpos : 1 ≤ c.area) (hone : 1 ≤ f.value)
    (hsize : ∀ x ∈ compatible g limits peer formats, x.area ≤ c.area)
    (hbest : ∀ x ∈ compatible g limits peer formats, x.area = c.area → ∀ q, x.Allows peer q → q ≤ f.value)
    (hfirst : 1 < c.area → ∀ before x after, compatible g limits peer formats = before ++ x :: after →
      x.area = c.area → (∀ y ∈ before, y.area < c.area) → ¬ x.Rateless)
    (before after : List Candidate) (hsplit : compatible g limits peer formats = before ++ after) :
    (contest (worth g peer uninitialised) noneHeld before).size ≤ c.area ∧
      ((contest (worth g peer uninitialised) noneHeld before).size = c.area →
        -1 ≤ (contest (worth g peer uninitialised) noneHeld before).yield ∧
        ((contest (worth g peer uninitialised) noneHeld before).yield : ℚ) ≤ f.value ∧
        ∀ w, (contest (worth g peer uninitialised) noneHeld before).winner = some w → ¬ w.Rateless) := by
  induction before using List.reverseRecOn generalizing after with
  | nil =>
    rw [contest_nil]
    refine ⟨hpos, fun _ => ⟨le_refl _, ?_, fun w hw => by cases hw⟩⟩
    have hminus : ((-1 : Int) : ℚ) ≤ 1 := by norm_num
    exact hminus.trans hone
  | append_singleton before x ih =>
    have hsplit' : compatible g limits peer formats = before ++ x :: after := by
      rw [hsplit, List.append_assoc, List.singleton_append]
    have hx : x ∈ compatible g limits peer formats := by
      rw [hsplit']
      exact List.mem_append_right _ List.mem_cons_self
    obtain ⟨hle, hheld⟩ := ih (x :: after) hsplit'
    obtain ⟨hstart, hall⟩ := contest_size (worth g peer uninitialised) noneHeld before
    rw [contest_append, contest_cons, contest_nil]
    unfold challenge
    split_ifs with hbeaten
    · refine ⟨hsize x hx, fun harea => ?_⟩
      have harea' : x.area = c.area := harea
      have hrate : ¬ x.Rateless := by
        intro hrateless
        have htop := (choice_of_rateless hdiscrete hx hrateless).2
        rcases hbeaten with hlt | ⟨heq, hyield⟩
        · have hlt' : (contest (worth g peer uninitialised) noneHeld before).size < x.area := hlt
          have hstart' : (1 : Int) ≤ (contest (worth g peer uninitialised) noneHeld before).size := hstart
          refine hfirst (by omega) before x after hsplit' harea' (fun y hy => ?_) hrateless
          have hy' : y.area ≤ (contest (worth g peer uninitialised) noneHeld before).size := hall y hy
          omega
        · have hlow := (hheld (heq.symm.trans harea')).1
          have hbid : (contest (worth g peer uninitialised) noneHeld before).yield < topRate x.deliverable.framerate :=
            hyield
          omega
      obtain ⟨f', k, -, hk, hallows, hyield, hnonneg, -⟩ :=
        choice_of_rate uninitialised hdiscrete hkeeps hx hrate
      have hyield' : ((worth g peer uninitialised).held x).yield = k := hyield
      rw [hyield']
      refine ⟨by omega, ?_, fun w hw => ?_⟩
      · rw [← hk]
        exact hbest x hx harea' _ hallows
      · obtain rfl := Option.some.inj hw
        exact hrate
    · exact ⟨hle, hheld⟩

theorem mem_compatible_of_allows {c' : Candidate} (hc : c' ∈ candidates g limits formats) {q : ℚ}
    (hq : c'.Allows peer q) : c' ∈ compatible g limits peer formats := by
  obtain ⟨s, hs, -⟩ := hq
  apply List.mem_filter.mpr
  refine ⟨hc, decide_eq_true fun hnil => ?_⟩
  rw [hnil] at hs
  exact absurd hs List.not_mem_nil

/-- A decided contest is won by the best mode. -/
theorem optimal_of_decided (hdiscrete : Discrete formats) (hkeeps : peer.Keeps)
    (hdecided : Decided g peer (compatible g limits peer formats)) :
    (selectMode g peer limits uninitialised formats).Optimal peer (candidates g limits formats) := by
  obtain ⟨before, c, after, f, hsplit, hchoice, hone, hpixels, hsize, hfits, hbest, hafter, hfirst⟩ := hdecided
  have hc : c ∈ compatible g limits peer formats := by
    rw [hsplit]
    exact List.mem_append_right _ List.mem_cons_self
  have hrate : ¬ c.Rateless := by
    intro hrateless
    have hnone := (choice_of_rateless hdiscrete hc hrateless).1
    rw [hchoice] at hnone
    cases hnone
  have harea : c.area = c.pixels := (pixels_bound c).2.1 (hfits c hc hrate)
  have hpos : 1 ≤ c.area := by omega
  obtain ⟨f', k, hchoice', hk, hallows, hyield, hnonneg, htop⟩ :=
    choice_of_rate uninitialised hdiscrete hkeeps hc hrate
  obtain rfl := Option.some.inj (hchoice.symm.trans hchoice')
  have hinvariant := contest_prefix uninitialised hdiscrete hkeeps hpos hone hsize hbest
    (fun h => hfirst (harea ▸ h))
  obtain ⟨hle, hheld⟩ := hinvariant before (c :: after) hsplit
  have hone' : 1 ≤ k := by
    rw [hk] at hone
    exact_mod_cast hone
  -- `c` sets the size and the rate that are left in the end
  obtain ⟨hend, hrates⟩ : (contest (worth g peer uninitialised) noneHeld (compatible g limits peer formats)).size = c.area ∧
      (contest (worth g peer uninitialised) noneHeld (compatible g limits peer formats)).yield = k := by
    rw [hsplit, ← hyield]
    apply contest_of_split hle
    · intro heq
      have hlow := (hheld heq).2.1
      rw [hk] at hlow
      rw [hyield]
      exact_mod_cast hlow
    · rw [hyield]
      exact htop
    · intro y hy hbeaten
      have hmem : y ∈ compatible g limits peer formats := by
        rw [hsplit]
        exact List.mem_append_right _ (List.mem_cons_of_mem c hy)
      rcases hbeaten with hlt | ⟨heq, hbid⟩
      · exact absurd (hsize y hmem) (not_le.mpr hlt)
      · have hlow := hafter y hy heq
        rw [hk] at hlow
        have hlow' : topRate y.deliverable.framerate ≤ k := by exact_mod_cast hlow
        have hbid' : (worth g peer uninitialised).yield c < topRate y.deliverable.framerate := hbid
        omega
  -- the incumbent in the end is a candidate with a rate
  obtain ⟨w, hw, hwinner⟩ : ∃ w ∈ compatible g limits peer formats,
      contest (worth g peer uninitialised) noneHeld (compatible g limits peer formats) =
        (worth g peer uninitialised).held w := by
    rcases contest_split (worth g peer uninitialised) noneHeld (compatible g limits peer formats) with
      ⟨hstays, -⟩ | ⟨before', w, after', hsplit', -, -, hwinner⟩
    · rw [hstays] at hrates
      have hminus : (-1 : Int) = k := hrates
      omega
    · refine ⟨w, ?_, hwinner⟩
      rw [hsplit']
      exact List.mem_append_right _ List.mem_cons_self
  have hrated : ¬ w.Rateless := by
    apply ((hinvariant _ [] (List.append_nil _).symm).2 hend).2.2
    rw [hwinner]
    rfl
  rw [hwinner] at hend hrates
  have hwsize : w.area = c.area := hend
  obtain ⟨f', k', -, hk', hallows', hyield', -, -⟩ :=
    choice_of_rate uninitialised hdiscrete hkeeps hw hrated
  obtain rfl : k' = k := hyield'.symm.trans hrates
  have hwpixels : w.area = w.pixels := (pixels_bound w).2.1 (hfits w hw hrated)
  have hholds := selectMode_holds g peer limits uninitialised formats
  rw [hwinner] at hholds
  obtain ⟨hframerate, hwidth, hheight, hformat, haccepted⟩ := hholds.selected (w := w) (Eq.refl (some w))
  rw [hrates] at hframerate haccepted
  rw [hk'] at hallows'
  refine ⟨haccepted.mpr (by omega), w, List.mem_of_mem_filter hw, hwidth, hheight, hformat, ?_, ?_⟩
  · rw [hframerate]
    exact hallows'
  · intro x hx q hq
    have hmem := mem_compatible_of_allows hx hq
    have hxrate := (allows_le hdiscrete hmem hq).1
    have hxpixels : x.area = x.pixels := (pixels_bound x).2.1 (hfits x hmem hxrate)
    rw [← hxpixels, ← hwpixels, hwsize]
    refine ⟨hsize x hmem, fun heq => ?_⟩
    rw [hframerate, ← hk]
    exact hbest x hmem heq q hq

/-- A rate above all that a descriptor can list. -/
def unseen : Int × Int := (2147483647, 1)

theorem yield_of_rateless (hdiscrete : Discrete formats) (hc : c ∈ compatible g limits peer formats)
    (hrate : c.Rateless) : (worth g peer unseen).yield c = 2147483647 := by
  rw [yield_eq, (choice_of_rateless hdiscrete hc hrate).1]
  rfl

/-- An area of more than one pixel is not won by a rate once a candidate without one came first. -/
theorem rateless_first_stays (hdiscrete : Discrete formats) {before after : List Candidate} {x : Candidate}
    (hsplit : compatible g limits peer formats = before ++ x :: after) (hone : 1 < x.area)
    (hbefore : ∀ y ∈ before, y.area < x.area) (hsize : ∀ y ∈ compatible g limits peer formats, y.area ≤ x.area)
    (hrate : x.Rateless) :
    contest (worth g peer unseen) noneHeld (compatible g limits peer formats) = (worth g peer unseen).held x := by
  have hx : x ∈ compatible g limits peer formats := by
    rw [hsplit]
    exact List.mem_append_right _ List.mem_cons_self
  have hbeaten : Beaten (worth g peer unseen) (contest (worth g peer unseen) noneHeld before) x :=
    Or.inl (contest_size_lt hone hbefore)
  have hheld : challenge (worth g peer unseen) (contest (worth g peer unseen) noneHeld before) x =
      (worth g peer unseen).held x := if_pos hbeaten
  rw [hsplit, contest_append, contest_cons, hheld]
  apply contest_eq
  intro y hy hb
  have hmem : y ∈ compatible g limits peer formats := by
    rw [hsplit]
    exact List.mem_append_right _ (List.mem_cons_of_mem x hy)
  rcases hb with hlt | ⟨-, hbid⟩
  · exact absurd (hsize y hmem) (not_le.mpr hlt)
  · have hbid' : (worth g peer unseen).yield x < topRate y.deliverable.framerate := hbid
    rw [yield_of_rateless hdiscrete hx hrate] at hbid'
    have htop := topRate_le hdiscrete hmem
    omega

/-- A contest that the best mode wins, whatever the rate of a mode without one, is decided. -/
theorem decided_of_optimal (hdiscrete : Discrete formats) (hkeeps : peer.Keeps)
    (hoptimal : (selectMode g peer limits unseen formats).Optimal peer (candidates g limits formats)) :
    Decided g peer (compatible g limits peer formats) := by
  obtain ⟨hsome, best, hbestMem, hwidth, hheight, -, hallows, hall⟩ := hoptimal
  have hholds := selectMode_holds g peer limits unseen formats
  obtain ⟨hstart, hsizes⟩ :=
    contest_size (worth g peer unseen) noneHeld (compatible g limits peer formats)
  rcases contest_split (worth g peer unseen) noneHeld (compatible g limits peer formats) with
    ⟨hstays, -⟩ | ⟨before, c, after, hsplit, -, hafter, hwinner⟩
  · rw [hstays] at hholds
    obtain ⟨hnone, -, -, -⟩ := hholds.nothing (Eq.refl none)
    unfold Selection.accepted at hsome
    rw [if_pos (by omega)] at hsome
    exact absurd hsome Bool.false_ne_true
  rw [hwinner] at hholds hstart hsizes
  have hc : c ∈ compatible g limits peer formats := by
    rw [hsplit]
    exact List.mem_append_right _ List.mem_cons_self
  obtain ⟨hframerate, hcwidth, hcheight, -, haccepted⟩ := hholds.selected (w := c) (Eq.refl (some c))
  have hpositive := haccepted.mp hsome
  have hframerate' : (selectMode g peer limits unseen formats).framerate = (worth g peer unseen).yield c := hframerate
  have hsamePixels : best.pixels = c.pixels := by
    unfold Candidate.pixels
    rw [← hwidth, ← hheight, hcwidth, hcheight]
  have hlow : (worth g peer unseen).yield c ≤ 10000000 := by
    have hmem := mem_compatible_of_allows hbestMem hallows
    have hle := (allows_le hdiscrete hmem hallows).2
    have htop := topRate_le hdiscrete hmem
    rw [hframerate'] at hle
    have hle' : (worth g peer unseen).yield c ≤ topRate best.deliverable.framerate := by exact_mod_cast hle
    omega
  have hrate : ¬ c.Rateless := by
    intro hrateless
    rw [yield_of_rateless hdiscrete hc hrateless] at hlow
    omega
  obtain ⟨f, k, hchoice, hk, -, hyield, -, -⟩ := choice_of_rate unseen hdiscrete hkeeps hc hrate
  have hpos : 1 ≤ c.area := hstart
  obtain ⟨hnonneg, hfits, hwraps⟩ := pixels_bound c
  have hcfits : c.pixels < 2 ^ 31 := by
    by_contra hlarge
    have hle := hwraps (not_lt.mp hlarge)
    exact absurd (hpos.trans hle) (by decide)
  have hcarea := hfits hcfits
  have hxfits : ∀ x ∈ compatible g limits peer formats, ¬ x.Rateless → x.pixels < 2 ^ 31 := by
    intro x hx hxrate
    obtain ⟨f', -, -, -, hxallows, -⟩ := choice_of_rate unseen hdiscrete hkeeps hx hxrate
    have hle := (hall x (List.mem_of_mem_filter hx) _ hxallows).1
    rw [hsamePixels] at hle
    exact lt_of_le_of_lt hle hcfits
  have hone : 1 ≤ k := by
    rw [← hyield]
    exact hpositive
  refine ⟨before, c, after, f, hsplit, hchoice, ?_, ?_, hsizes, hxfits, ?_, ?_, ?_⟩
  · rw [hk]
    exact_mod_cast hone
  · rw [← hcarea]
    exact hpos
  · intro x hx harea q hq
    have hxarea := (pixels_bound x).2.1 (hxfits x hx (allows_le hdiscrete hx hq).1)
    have hle := (hall x (List.mem_of_mem_filter hx) q hq).2 (by rw [hsamePixels, ← hxarea, harea, hcarea])
    rw [hframerate', hyield] at hle
    rw [hk]
    exact hle
  · intro x hx harea
    have hnot := hafter x hx
    have hbid : ¬ (worth g peer unseen).yield c < topRate x.deliverable.framerate :=
      fun hlt => hnot (Or.inr ⟨harea, hlt⟩)
    rw [hyield] at hbid
    rw [hk]
    exact_mod_cast not_lt.mp hbid
  · intro hone' before' x after' hsplit' harea hbefore hxrate
    have hx : x ∈ compatible g limits peer formats := by
      rw [hsplit']
      exact List.mem_append_right _ List.mem_cons_self
    have hstays := rateless_first_stays hdiscrete hsplit' (by rw [harea, hcarea]; exact hone') (by rw [harea]; exact hbefore)
      (by rw [harea]; exact hsizes) hxrate
    rw [hwinner] at hstays
    have hsame : (worth g peer unseen).yield c = (worth g peer unseen).yield x := congrArg Held.yield hstays
    rw [yield_of_rateless hdiscrete hx hxrate] at hsame
    omega

/-- **The selected mode is the best one** of those that the peer takes, whatever a mode without a rate leaves in
the framerate, exactly where the contest is decided. -/
theorem optimal_iff (hdiscrete : Discrete formats) (hkeeps : peer.Keeps) :
    (∀ uninitialised, (selectMode g peer limits uninitialised formats).Optimal peer (candidates g limits formats)) ↔
      Decided g peer (compatible g limits peer formats) :=
  ⟨fun h => decided_of_optimal hdiscrete hkeeps (h unseen), fun h _ => optimal_of_decided hdiscrete hkeeps h⟩

end Decided

end Facts

def cameraCandidate : Candidate :=
  ⟨.h264, ⟨1920, 1080, some [333333], 333333, 333333⟩, ⟨.h264, some 1920, some 1080, .list [intervalFps 333333]⟩⟩

theorem cameraCandidate_offers (q : ℚ) : cameraCandidate.deliverable.framerate.Offers (some q) ↔ q = 30 := by
  have hvalue : (intervalFps 333333).value = ((30 : Nat) : ℚ) := Fraction.value_whole 30 (by decide)
  unfold cameraCandidate Rates.Offers
  simp only [List.mem_singleton, exists_eq_left, Option.some.injEq, hvalue]
  norm_num

theorem anyPeer_keeps : anyPeer.Keeps := by
  intro d hd s hs
  obtain rfl := List.mem_singleton.mp hs
  exact hd

/-- The one mode of the camera is the best one. -/
theorem optimal_iff_camera :
    (selectMode plainGst anyPeer ⟨0, 0⟩ (0, 0) cameraFormats).Optimal anyPeer
      (candidates plainGst ⟨0, 0⟩ cameraFormats) := by
  have hdiscrete : Discrete cameraFormats := by decide
  have hcompatible : compatible plainGst ⟨0, 0⟩ anyPeer cameraFormats = [cameraCandidate] := by decide +kernel
  have hvalue : (intervalFps 333333).value = 30 := (cameraCandidate_offers _).mp ⟨_, List.mem_singleton_self _, rfl⟩
  refine (optimal_iff hdiscrete anyPeer_keeps).mpr ?_ (0, 0)
  rw [hcompatible]
  refine ⟨[], cameraCandidate, [], intervalFps 333333, rfl, by decide +kernel, ?_, by decide +kernel, ?_, ?_, ?_, ?_, ?_⟩
  · rw [hvalue]
    norm_num
  · intro x hx
    rw [List.mem_singleton.mp hx]
  · intro x hx _
    rw [List.mem_singleton.mp hx]
    decide +kernel
  · intro x hx _ q hq
    rw [List.mem_singleton.mp hx] at hq
    obtain ⟨s, hs, hoffers⟩ := hq
    obtain rfl := List.mem_singleton.mp hs
    rw [hvalue, (cameraCandidate_offers q).mp hoffers]
  · intro x hx
    exact absurd hx List.not_mem_nil
  · intro _ before x after hsplit _ _ hrateless
    have hx : x ∈ [cameraCandidate] := by
      rw [hsplit]
      exact List.mem_append_right _ List.mem_cons_self
    rw [List.mem_singleton.mp hx] at hrateless
    exact hrateless 30 ((cameraCandidate_offers 30).mpr rfl)

/-- The rates up to `f`. -/
def ratesUpTo (f : Fraction) : Rates → Option Rates
  | .absent => some (.range (.whole 0 (by decide)) f)
  | .fraction f' => if f'.num * f.den ≤ f.num * f'.den then some (.fraction f') else none
  | .list fs =>
    match fs.filter fun f' => f'.num * f.den ≤ f.num * f'.den with
    | [] => none
    | [f'] => some (.fraction f')
    | fs' => some (.list fs')
  | .range lo hi =>
    if hi.num * f.den ≤ f.num * hi.den then some (.range lo hi)
    else if lo.num * f.den < f.num * lo.den then some (.range lo f)
    else if lo.num * f.den = f.num * lo.den then some (.fraction lo)
    else none
  | .other => none

theorem ratesUpTo_offers {f : Fraction} {rates rates' : Rates} (h : ratesUpTo f rates = some rates')
    (hrates : rates ≠ .absent) (r : Option ℚ) : rates'.Offers r ↔ rates.Offers r ∧ ∀ q ∈ r, q ≤ f.value := by
  cases rates with
  | absent => exact absurd rfl hrates
  | other => cases h
  | fraction f' =>
    simp only [ratesUpTo] at h
    split_ifs at h with hle
    obtain rfl := Option.some.inj h
    refine ⟨fun hr => ⟨hr, ?_⟩, fun hr => hr.1⟩
    obtain rfl : r = some f'.value := hr
    intro q hq
    rw [← Option.some.inj hq]
    exact Fraction.value_le.mpr hle
  | list fs =>
    have hmem : ∀ f' ∈ fs.filter (fun f' => f'.num * f.den ≤ f.num * f'.den), f' ∈ fs ∧ f'.value ≤ f.value := by
      intro f' hf'
      obtain ⟨hf', hle⟩ := List.mem_filter.mp hf'
      exact ⟨hf', Fraction.value_le.mpr (of_decide_eq_true hle)⟩
    have hlist : ∀ r, (Rates.list (fs.filter fun f' => f'.num * f.den ≤ f.num * f'.den)).Offers r ↔
        (Rates.list fs).Offers r ∧ ∀ q ∈ r, q ≤ f.value := by
      intro r
      constructor
      · rintro ⟨f', hf', rfl⟩
        obtain ⟨hmem', hle⟩ := hmem f' hf'
        refine ⟨⟨f', hmem', rfl⟩, ?_⟩
        rintro q hq
        obtain rfl := Option.some.inj hq
        exact hle
      · rintro ⟨⟨f', hf', rfl⟩, hle⟩
        exact ⟨f', List.mem_filter.mpr ⟨hf', decide_eq_true (Fraction.value_le.mp (hle f'.value rfl))⟩, rfl⟩
    rw [← hlist r]
    simp only [ratesUpTo] at h
    split at h
    · cases h
    · next f' hfilter =>
      obtain rfl := Option.some.inj h
      rw [hfilter]
      simp only [Rates.Offers, List.mem_singleton, exists_eq_left]
    · obtain rfl := Option.some.inj h
      exact Iff.rfl
  | range lo hi =>
    simp only [ratesUpTo] at h
    split_ifs at h with hhi hlo heq <;> rw [← Fraction.value_le] at hhi
    · obtain rfl := Option.some.inj h
      constructor
      · rintro ⟨q, rfl, hlow, hhigh⟩
        refine ⟨⟨q, rfl, hlow, hhigh⟩, ?_⟩
        rintro q' hq'
        obtain rfl := Option.some.inj hq'
        exact hhigh.trans hhi
      · exact And.left
    · obtain rfl := Option.some.inj h
      constructor
      · rintro ⟨q, rfl, hlow, hhigh⟩
        refine ⟨⟨q, rfl, hlow, hhigh.trans (not_le.mp hhi).le⟩, ?_⟩
        rintro q' hq'
        obtain rfl := Option.some.inj hq'
        exact hhigh
      · rintro ⟨⟨q, rfl, hlow, -⟩, hle⟩
        exact ⟨q, rfl, hlow, hle q rfl⟩
    · obtain rfl := Option.some.inj h
      have heq' : lo.value = f.value := Fraction.value_eq.mpr heq
      constructor
      · intro hr
        obtain rfl : r = some lo.value := hr
        refine ⟨⟨lo.value, rfl, le_refl _, ?_⟩, ?_⟩
        · rw [heq']
          exact (not_le.mp hhi).le
        · rintro q hq
          obtain rfl := Option.some.inj hq
          exact heq'.le
      · rintro ⟨⟨q, rfl, hlow, -⟩, hle⟩
        rw [le_antisymm ((hle q rfl).trans heq'.ge) hlow]
        exact rfl

/-- What is left offers something. -/
theorem ratesUpTo_some {f : Fraction} {rates rates' : Rates} (h : ratesUpTo f rates = some rates')
    (hsome : ∃ q, rates.Offers (some q)) : ∃ q, rates'.Offers (some q) := by
  cases rates with
  | absent => exact absurd hsome.choose_spec nofun
  | other => cases h
  | fraction f' =>
    simp only [ratesUpTo] at h
    split_ifs at h
    obtain rfl := Option.some.inj h
    exact ⟨f'.value, rfl⟩
  | list fs =>
    simp only [ratesUpTo] at h
    split at h
    · cases h
    · obtain rfl := Option.some.inj h
      exact ⟨_, rfl⟩
    · next hnil hone =>
      obtain rfl := Option.some.inj h
      obtain ⟨f', rest, hfilter⟩ := List.exists_cons_of_ne_nil hnil
      exact ⟨f'.value, f', hfilter ▸ List.mem_cons_self, rfl⟩
  | range lo hi =>
    obtain ⟨q, q', hq, hlow, hhigh⟩ := hsome
    simp only [ratesUpTo] at h
    split_ifs at h with hhi hlo heq <;> obtain rfl := Option.some.inj h
    · exact ⟨lo.value, lo.value, rfl, le_refl _, hlow.trans hhigh⟩
    · exact ⟨lo.value, lo.value, rfl, le_refl _, (Fraction.value_lt.mpr hlo).le⟩
    · exact ⟨lo.value, rfl⟩

/-- The peer takes every mode, up to `f` frames a second. -/
def cappedPeer (f : Fraction) : Peer where
  intersect d := ((ratesUpTo f d.framerate).map fun rates => { d with framerate := rates }).toList
  sound d s hs _ _ := by
    obtain ⟨rates, -, rfl⟩ := Option.map_eq_some_iff.mp (Option.mem_toList.mp hs)
    exact ⟨rfl, rfl, rfl⟩
  rates d s hs hrates r hr := by
    obtain ⟨rates, hrates', rfl⟩ := Option.map_eq_some_iff.mp (Option.mem_toList.mp hs)
    exact ((ratesUpTo_offers hrates' hrates r).mp hr).1

theorem cappedPeer_keeps (f : Fraction) : (cappedPeer f).Keeps := by
  intro d hd s hs
  obtain ⟨rates, hrates, rfl⟩ := Option.map_eq_some_iff.mp (Option.mem_toList.mp hs)
  exact ratesUpTo_some hrates hd

/-- The camera has the same geometry in both codecs, with rates of its own for each. -/
def twinFormats : List FormatDesc :=
  [⟨ascii ['H', '2', '6', '4'], [⟨1920, 1080, some [166666, 333333], 166666, 333333⟩]⟩,
    ⟨ascii ['H', '2', '6', '5'], [⟨1920, 1080, some [200000, 400000], 200000, 400000⟩]⟩]

/-- For a peer of up to 30 frames a second, the 25 of the second codec take the place of the 30 of the first,
because the top rate of the second, 50, is above 30. -/
theorem not_selected_best :
    ¬ ∀ (g : Gst) (limits : QuirkLimits) (peer : Peer) (uninitialised : Int × Int) (formats : List FormatDesc),
      Discrete formats → peer.Keeps → (∃ c ∈ candidates g limits formats, ∃ q, c.Allows peer q) →
      (selectMode g peer limits uninitialised formats).Optimal peer (candidates g limits formats) := by
  intro hall
  have hmem : (⟨.h264, ⟨1920, 1080, some [166666, 333333], 166666, 333333⟩,
      ⟨.h264, some 1920, some 1080, .list [intervalFps 166666, intervalFps 333333]⟩⟩ : Candidate) ∈
        candidates plainGst ⟨0, 0⟩ twinFormats := by decide +kernel
  have hintersect : (cappedPeer (intervalFps 333333)).intersect
      ⟨.h264, some 1920, some 1080, .list [intervalFps 166666, intervalFps 333333]⟩ =
        [⟨.h264, some 1920, some 1080, .fraction (intervalFps 333333)⟩] := by decide +kernel
  have hallows : Candidate.Allows (cappedPeer (intervalFps 333333)) ⟨.h264,
      ⟨1920, 1080, some [166666, 333333], 166666, 333333⟩,
      ⟨.h264, some 1920, some 1080, .list [intervalFps 166666, intervalFps 333333]⟩⟩ (intervalFps 333333).value :=
    ⟨⟨.h264, some 1920, some 1080, .fraction (intervalFps 333333)⟩, by
      rw [hintersect]
      exact List.mem_singleton_self _, rfl⟩
  obtain ⟨-, c, -, hwidth, hheight, -, -, hbest⟩ := hall plainGst ⟨0, 0⟩ (cappedPeer (intervalFps 333333)) (0, 0)
    twinFormats (by decide) (cappedPeer_keeps _) ⟨_, hmem, _, hallows⟩
  obtain ⟨hselected, hw, hh⟩ : (selectMode plainGst (cappedPeer (intervalFps 333333)) ⟨0, 0⟩ (0, 0) twinFormats).framerate = 25 ∧
      (selectMode plainGst (cappedPeer (intervalFps 333333)) ⟨0, 0⟩ (0, 0) twinFormats).width = 1920 ∧
      (selectMode plainGst (cappedPeer (intervalFps 333333)) ⟨0, 0⟩ (0, 0) twinFormats).height = 1080 := by
    decide +kernel
  rw [hw] at hwidth
  rw [hh] at hheight
  have hpixels : c.pixels = 1920 * 1080 := by
    unfold Candidate.pixels
    rw [← hwidth, ← hheight]
  have hrate := (hbest _ hmem _ hallows).2 (by rw [hpixels]; rfl)
  have hvalue : (intervalFps 333333).value = ((30 : Nat) : ℚ) := Fraction.value_whole 30 (by decide)
  rw [hselected, hvalue] at hrate
  norm_num at hrate

end LibuvcH264Src
