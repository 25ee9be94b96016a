import LibuvcH264Src.StreamCaps

/-!
# The latency query

* `query` : what the element answers to a query;
* `frameCallback_duration` : the durations of what a delivery pushes;
* `Paced` : `frame_interval` is that of the negotiated framerate;
* `latency_of_frame` : the answer is one frame of the caps, and of what is pushed, throughout a run.
-/

namespace LibuvcH264Src
open AnnexB Caps

/-! ## The query -/

/-- The queries that the element tells apart. -/
inductive QueryType where
  | latency
  | other
  deriving DecidableEq

/-- `gst_query_set_latency`. -/
structure Latency where
  live : Bool
  minLatency : UInt64
  maxLatency : UInt64
  deriving DecidableEq

/-- `gst_libuvc_h264_src_query`; the base class answers where it is `none`. -/
def query (self : StreamState) : QueryType → Option Latency
  | .latency =>
    let latency := if self.frameInterval > 0 then UInt64.ofInt self.frameInterval else clockTimeNone
    if latency ≠ clockTimeNone then some ⟨true, latency, latency⟩ else none
  | .other => none

/-! ## Durations -/

/-- A buffer with a time lasts as long as the negotiated frames do. -/
def LastsFrame (self : StreamState) (b : GstBuffer) : Prop := b.pts ≠ clockTimeNone → b.duration = frameDuration self

theorem auStep_interval (ts : UInt64) (self : StreamState) (au : List NalUnit) :
    (auStep ts self au).1.frameInterval = self.frameInterval := by
  have hstep := (deliverAu_step ts ⟨self, false, []⟩ au).1
  have hsettings := deliverAu_settings ts ⟨self, false, []⟩ au
  rw [hstep] at hsettings
  have hinterval := congrArg StreamState.frameInterval hsettings
  exact hinterval

theorem frameDuration_congr {s s' : StreamState} (h : s.frameInterval = s'.frameInterval) :
    frameDuration s = frameDuration s' := by
  unfold frameDuration
  rw [h]

theorem auStep_duration {ts : UInt64} {self : StreamState} {au : List NalUnit} {buffer : GstBuffer}
    (h : (auStep ts self au).2 = some buffer) : LastsFrame self buffer := by
  have hinterval := auStep_interval ts self au
  unfold auStep at h hinterval
  by_cases hdrop : dropsAu (latchSets self false au).1 au = true
  · simp only [hdrop, if_true] at h
    exact absurd h nofun
  · simp only [hdrop, if_false, Bool.false_eq_true] at h hinterval
    obtain rfl := Option.some.inj h
    intro hpts
    unfold pushAu at hpts hinterval ⊢
    cases hslice : hasSlice au with
    | false =>
      rw [hslice] at hpts
      exact absurd rfl hpts
    | true =>
      rw [hslice] at hinterval
      exact frameDuration_congr hinterval

theorem auRun_duration (ts : UInt64) (self : StreamState) (aus : List (List NalUnit)) :
    ∀ b ∈ (auRun ts self aus).reduceOption, LastsFrame self b := by
  induction aus generalizing self with
  | nil =>
    intro b hb
    exact absurd hb List.not_mem_nil
  | cons au aus ih =>
    intro b hb
    rw [List.reduceOption_mem_iff] at hb
    rcases List.mem_cons.mp hb with hhead | htail
    · exact auStep_duration hhead.symm
    · intro hpts
      have hlater := ih _ b (List.reduceOption_mem_iff.mpr htail) hpts
      exact hlater.trans (frameDuration_congr (auStep_interval ts self au))

/-- What a delivery pushes. -/
theorem frameCallback_duration (self : StreamState) (arrival : Arrival) (data : Option (List Byte)) :
    ∀ b ∈ (frameCallback self arrival data).pushed, LastsFrame self b := by
  unfold frameCallback
  cases acceptsFrame data with
  | none => exact fun b hb => absurd hb List.not_mem_nil
  | some data =>
    cases snapshotClock self with
    | none => exact fun b hb => absurd hb List.not_mem_nil
    | some snapshot =>
      intro b hb hpts
      have hlatch : (latchBaseTime self snapshot arrival.elementBaseTime).1.frameInterval = self.frameInterval := by
        unfold latchBaseTime
        split <;> rfl
      simp only [foldl_deliverAu, List.nil_append] at hb
      exact (auRun_duration _ _ _ b hb hpts).trans (frameDuration_congr hlatch)

/-! ## The invariant -/

/-- The interval is that of the framerate; both are zero until a mode is negotiated. -/
structure Paced (s : Stage) (w : World) : Prop where
  interval : w.stream.frameInterval = Int.tdiv 1000000000 w.own.negotiatedFramerate
  rate : 0 ≤ w.own.negotiatedFramerate
  settled : s.progress.isFresh = false → 1 ≤ w.own.negotiatedFramerate

section Run
variable {g : Gst} {s s' : Stage} {w w' : World}

theorem Paced.rewritten (h : Paced s w) (hfresh : s'.progress.isFresh = false → s.progress.isFresh = false)
    (hinterval : w'.stream.frameInterval = w.stream.frameInterval)
    (hrate : w'.own.negotiatedFramerate = w.own.negotiatedFramerate) : Paced s' w' := by
  refine ⟨?_, ?_, ?_⟩
  · rw [hinterval, hrate]
    exact h.interval
  · rw [hrate]
    exact h.rate
  · rw [hrate]
    exact fun hsettled => h.settled (hfresh hsettled)

theorem one_le_of_accepted {sel : Selection} (h : sel.accepted.isSome) : 1 ≤ sel.framerate := by
  by_contra hrate
  unfold Selection.accepted at h
  rw [if_pos (by omega)] at h
  exact absurd h (by decide)

theorem interfere_interval (w : World) (i : Interference) :
    (interfere w i).stream.frameInterval = w.stream.frameInterval := by
  cases i with
  | frame arrival data =>
    have hsettings := congrArg StreamState.frameInterval (frameCallback_settings w.stream arrival data)
    show (feed w arrival data).stream.frameInterval = _
    unfold feed
    split
    · rfl
    · exact hsettings
  | unlock | unlockStop => rfl
  | setClock clock => cases clock <;> rfl
  | changeState transition => cases transition <;> rfl
  | setProperty property => cases property <;> rfl

theorem foldl_interfere_interval (others : List Interference) (w : World) :
    (others.foldl interfere w).stream.frameInterval = w.stream.frameInterval := by
  induction others generalizing w with
  | nil => rfl
  | cons i rest ih => rw [List.foldl_cons, ih, interfere_interval]

theorem foldl_loadUnit_interval (units : List NalUnit) (self : StreamState) :
    (units.foldl loadSpspps.loadUnit self).frameInterval = self.frameInterval := by
  induction units generalizing self with
  | nil => rfl
  | cons unit rest ih =>
    rw [List.foldl_cons, ih]
    unfold loadSpspps.loadUnit
    split
    · rfl
    · cases unit.type <;> rfl

/-- The accepted selection alone writes the two. -/
theorem Step.paced (hs : Step g s w s' w') (h : Paced s w) : Paced s' w' := by
  cases hs
  case others others budget =>
    refine h.rewritten id ?_ ?_
    · exact foldl_interfere_interval others _
    · rw [others_own]
  case call call htakes =>
    refine h.rewritten ?_ rfl rfl
    unfold Stage.called
    cases call with
    | negotiate => cases s.grip <;> exact nofun
    | create => cases s.grip <;> exact id
    | start | stop | finalize => exact id
  case pop grip recovery => cases recovery <;> exact h.rewritten id rfl rfl
  case drop grip recovery items hitems => cases recovery <;> exact h.rewritten id rfl rfl
  case calmed grip n hn => rcases hn with ⟨reset, rfl⟩ | ⟨rfl, -⟩ | rfl <;> exact h.rewritten id rfl rfl
  case session n => exact h.rewritten nofun rfl rfl
  case lookFor n devs => cases devs <;> exact h.rewritten id rfl rfl
  case writeMode sel haccepted hgrip hsel =>
    have hrate := one_le_of_accepted haccepted
    exact ⟨rfl, Int.le_trans (by decide) hrate, fun _ => hrate⟩
  case load key file hgrip =>
    refine h.rewritten id ?_ rfl
    cases file with
    | none => rfl
    | some bytes => exact foldl_loadUnit_interval _ w.stream
  case settle grip hgrip caps hcaps hmode hformat hpad hagrees =>
    have hrate := congrArg StreamMode.fps hmode
    refine ⟨h.interval, h.rate, fun _ => ?_⟩
    show 1 ≤ w.mode.fps
    rw [hrate]
    apply one_le_of_accepted
    rw [hcaps]
    rfl
  all_goals exact h.rewritten id rfl rfl

theorem Staged.paced {budget : Nat} (h : Staged g budget s w) : Paced s w := by
  induction h with
  | init => exact ⟨rfl, le_refl 0, nofun⟩
  | step _ hs ih => exact hs.paced ih

end Run

/-! ## The answer -/

/-- One frame at `rate`, in nanoseconds. -/
def frameTime (rate : Int) : UInt64 := UInt64.ofNat (1000000000 / rate.toNat)

theorem Paced.query {s : Stage} {w : World} (h : Paced s w) : query w.stream .latency =
    if 1 ≤ w.own.negotiatedFramerate ∧ w.own.negotiatedFramerate ≤ 1000000000 then
      some ⟨true, frameTime w.own.negotiatedFramerate, frameTime w.own.negotiatedFramerate⟩
    else none := by
  obtain ⟨n, hn⟩ := Int.eq_ofNat_of_zero_le h.rate
  have hinterval : w.stream.frameInterval = ((1000000000 / n : Nat) : Int) := by
    rw [h.interval, hn]
    exact (Int.natCast_ediv 1000000000 n).symm
  unfold LibuvcH264Src.query frameTime
  rw [hinterval, hn]
  by_cases hrate : 1 ≤ n ∧ n ≤ 1000000000
  · have hpos : 0 < 1000000000 / n := Nat.div_pos hrate.2 hrate.1
    have hle : 1000000000 / n ≤ 1000000000 := Nat.div_le_self _ _
    have hsome : (1 : Int) ≤ n ∧ (n : Int) ≤ 1000000000 := by omega
    simp only [Int.toNat_natCast, if_pos hsome]
    generalize 1000000000 / n = m at hpos hle
    have hvalid : UInt64.ofNat m ≠ clockTimeNone := by
      have hsize : m < UInt64.size := by
        have hbig : UInt64.size = 2 ^ 64 := rfl
        omega
      intro heq
      have hnat := congrArg UInt64.toNat heq
      rw [UInt64.toNat_ofNat_of_lt' hsize] at hnat
      have hnone : clockTimeNone.toNat = 2 ^ 64 - 1 := rfl
      omega
    have hofInt : UInt64.ofInt (m : Int) = UInt64.ofNat m := by
      unfold UInt64.ofInt
      congr 1
      omega
    have hpositive : (m : Int) > 0 := by omega
    rw [if_pos hpositive, hofInt, if_pos hvalid]
  · have hzero : 1000000000 / n = 0 := by
      rcases Nat.eq_zero_or_pos n with rfl | hpos
      · rfl
      · exact Nat.div_eq_of_lt (by omega)
    have hnone : ¬ ((1 : Int) ≤ n ∧ (n : Int) ≤ 1000000000) := by omega
    rw [hzero, if_neg hnone]
    rfl

theorem frameDuration_eq (self : StreamState) :
    frameDuration self = (query self .latency).elim clockTimeNone Latency.minLatency := by
  unfold query frameDuration
  by_cases hvalid : (if self.frameInterval > 0 then UInt64.ofInt self.frameInterval else clockTimeNone) = clockTimeNone
  · simp only [hvalid, ne_eq, not_true_eq_false, if_false, Option.elim_none]
  · simp only [hvalid, ne_eq, not_false_eq_true, if_true, Option.elim_some]

/-- **The latency of one frame.** At any point of a run between two calls, a latency query that the element answers
reports one frame at the negotiated rate, as the least and as the largest latency, and every buffer with a time that the
callback pushes there lasts that long; the base class answers until a mode is negotiated, and for rates above a
gigahertz. Behind a successful negotiation there is a rate, and where the caps of the selection have a whole rate it is
that of the pad. -/
theorem latency_of_frame (env : Env) (g : Gst) (budget : Nat) (es : List HostEvent) (h : Host)
    (hr : Reaches env g budget es h) :
    let self := h.world.stream
    let rate := h.world.own.negotiatedFramerate
    (query self .latency =
      if 1 ≤ rate ∧ rate ≤ 1000000000 then some ⟨true, frameTime rate, frameTime rate⟩ else none) ∧
    (∀ arrival data, ∀ b ∈ (frameCallback self arrival data).pushed, b.pts ≠ clockTimeNone →
      b.duration = (query self .latency).elim clockTimeNone Latency.minLatency) ∧
    (h.phase = .started true → 1 ≤ rate ∧ ∀ caps, negotiatedCaps g h.world.log = some caps → WholeRate caps →
      ∃ codec width height f, padCaps h.world.log = some [⟨codec, some width, some height, .fraction f⟩] ∧
        f.value = rate) := by
  intro self rate
  obtain ⟨s, hfits, hs⟩ := reaches_staged hr
  have hpaced := hs.paced
  refine ⟨hpaced.query, fun arrival data b hb hpts => ?_, fun hphase => ?_⟩
  · rw [frameCallback_duration self arrival data b hb hpts, frameDuration_eq]
  · rw [hphase] at hfits
    have hsettled : s.progress.isFresh = false := by
      rw [hfits.2.2]
      rfl
    refine ⟨hpaced.settled hsettled, fun caps hcaps hwhole => ?_⟩
    obtain ⟨caps', hpad, codec, f, hone, -, hrate⟩ := hs.announced.described hsettled caps hcaps hwhole
    rw [hone] at hpad
    exact ⟨codec, _, _, f, hpad, hrate⟩

/-- A camera of 30 frames a second. -/
theorem latency_of_frame_camera :
    ∃ h, Reaches oneCamera plainGst 20 [.call .start, .call .negotiate] h ∧
      query h.world.stream .latency = some ⟨true, 33333333, 33333333⟩ ∧
      ∃ codec width height f, padCaps h.world.log = some [⟨codec, some width, some height, .fraction f⟩] ∧
        f.value = (30 : Int) := by
  have hrun : ∃ h ∈ Runs.run (hostStep oneCamera plainGst) (.init 20) [.call .start, .call .negotiate],
      h.phase = .started true ∧ h.world.own.negotiatedFramerate = 30 ∧
      ∃ caps ∈ negotiatedCaps plainGst h.world.log, WholeRate caps := by
    decide +kernel
  obtain ⟨h, hr, hphase, hrate, caps, hcaps, hwhole⟩ := hrun
  obtain ⟨hanswer, -, hsettled⟩ := latency_of_frame oneCamera plainGst 20 _ h hr
  have hpad := (hsettled hphase).2 caps hcaps hwhole
  rw [hrate] at hanswer hpad
  exact ⟨h, hr, hanswer, hpad⟩

end LibuvcH264Src
