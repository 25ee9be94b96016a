import LibuvcH264Src.OfferedModes

/-!
# Two ways to the deliverable caps

* `advertisedCaps` : the caps of the descriptors, before any quirk;
* `filterDeliverableCaps` : the action, over the caps of its caller;
* `selectMode_filters` : the ladder of a negotiation is what the filter leaves of the advertised caps;
* `deliverable_caps_agree` : the property and the action agree, and say which modes a negotiation can end with.
-/

namespace LibuvcH264Src
open AnnexB Caps Prog

/-- The working structure behind each frame descriptor that has one. -/
def describedFrames (g : Gst) : Structure Codec → List FrameDesc → List (Structure Codec)
  | _, [] => []
  | tmp, frame :: rest =>
    let described := describeFrame g tmp frame
    if described.2 then described.1 :: describedFrames g described.1 rest else describedFrames g described.1 rest

/-- The caps of the descriptors. -/
def advertisedCaps (g : Gst) (formats : List FormatDesc) : List (Structure Codec) :=
  formats.flatMap fun format =>
    match codecOf format with
    | none => []
    | some codec => describedFrames g (templateStructure codec) format.frameDescs

/-- `gst_libuvc_h264_src_filter_deliverable_caps`; `none` for `NULL`. -/
def filterDeliverableCaps {α : Type} (g : RangeSetter) (advertised : Option (List (Structure α)))
    (vendorId productId : UInt32) : Option (List (Structure α)) :=
  match advertised with
  | none => none
  | some advertised =>
    let limits := uvcQuirksLimits vendorId.toUInt16 productId.toUInt16
    some (uvcQuirksFilterCaps g (some limits) advertised)

section Scan
variable {g : Gst} {peer : Peer} {limits : QuirkLimits} {uninitialised : Int × Int}

theorem uvcQuirksFilterCaps_nil {α : Type} (g : RangeSetter) (limits : QuirkLimits) :
    uvcQuirksFilterCaps g (some limits) ([] : List (Structure α)) = [] := by
  by_cases h : limits.maxPixelRate = 0
  · exact if_pos h
  · rw [uvcQuirksFilterCaps_eq g limits h]
    rfl

theorem scanFrames_filters (codec : Codec) (frames : List FrameDesc) (tmp : Structure Codec) (sel : Selection) :
    ((scanFrames g peer limits uninitialised codec tmp frames sel).getLastD sel).ladder =
      sel.ladder ++ uvcQuirksFilterCaps g.toRangeSetter (some limits) (describedFrames g tmp frames) := by
  induction frames generalizing tmp sel with
  | nil =>
    rw [describedFrames, uvcQuirksFilterCaps_nil, List.append_nil]
    rfl
  | cons frame rest ih =>
    unfold scanFrames describedFrames
    simp only []
    split_ifs with hdescribed
    · rw [List.getLastD_cons, ih, considerFrame_ladder, List.append_assoc, ← uvcQuirksFilterCaps_append]
      rfl
    · rw [List.getLastD_cons, ih]

theorem scanFormats_filters (formats : List FormatDesc) (sel : Selection) :
    ((scanFormats g peer limits uninitialised formats sel).getLastD sel).ladder =
      sel.ladder ++ uvcQuirksFilterCaps g.toRangeSetter (some limits) (advertisedCaps g formats) := by
  induction formats generalizing sel with
  | nil =>
    rw [advertisedCaps, List.flatMap_nil, uvcQuirksFilterCaps_nil, List.append_nil]
    rfl
  | cons format rest ih =>
    have hsplit : advertisedCaps g (format :: rest) = (match codecOf format with
        | none => []
        | some codec => describedFrames g (templateStructure codec) format.frameDescs) ++ advertisedCaps g rest :=
      List.flatMap_cons
    rw [hsplit, uvcQuirksFilterCaps_append]
    unfold scanFormats
    cases codecOf format with
    | none =>
      simp only []
      rw [uvcQuirksFilterCaps_nil, List.nil_append]
      exact ih sel
    | some codec =>
      simp only []
      rw [getLastD_append, ih, scanFrames_filters, List.append_assoc]

/-- **The ladder** is what the filter leaves of the advertised caps, for any peer. -/
theorem selectMode_filters (formats : List FormatDesc) :
    (selectMode g peer limits uninitialised formats).ladder =
      uvcQuirksFilterCaps g.toRangeSetter (some limits) (advertisedCaps g formats) :=
  scanFormats_filters formats .init

/-- The modes of the ladder, with an area and a rate that the exits let through, are those a negotiation for them takes. -/
theorem offered_iff_takes {formats : List FormatDesc} (hdiscrete : Discrete formats) {codec : Codec} {width height : Int}
    {f : Fraction} (harea : AreaFits width height) (hrate : 1 ≤ f.value) :
    Offered (selectMode g peer limits uninitialised formats).ladder (modeOf codec width height f) ↔
      (selectMode g (fixedPeer codec width height f) limits uninitialised formats).Takes codec width height f := by
  have hladder : (selectMode g peer limits uninitialised formats).ladder =
      (selectMode g (fixedPeer codec width height f) limits uninitialised formats).ladder := selectMode_ladder formats
  rw [hladder]
  constructor
  · intro hoffered
    exact ((selectMode_pinned hdiscrete).takes_iff hoffered).mpr ⟨harea, hrate⟩
  · rintro ⟨-, -, -, -, f', haccepted, hvalue⟩
    have hoffered := selectMode_climbs hdiscrete _ [] (Selection.accepted_eq haccepted) f' rfl
    rw [hvalue] at hoffered
    exact hoffered

/-- A selection for a fixed peer that the exits let through is of its mode. -/
theorem Pinned.accepted_iff {codec : Codec} {width height : Int} {f : Fraction} {sel : Selection}
    (h : Pinned codec width height f sel) : sel.accepted.isSome = true ↔ sel.Takes codec width height f := by
  constructor
  · intro hsome
    obtain ⟨caps, hcaps⟩ := Option.isSome_iff_exists.mp hsome
    obtain ⟨-, -, -, hwidth, hheight, hrate, hformat, f', rfl, hvalue⟩ := h.taken caps (Selection.accepted_eq hcaps)
    exact ⟨hwidth, hheight, hrate, hformat, f', hcaps, hvalue⟩
  · rintro ⟨-, -, -, -, f', haccepted, -⟩
    rw [haccepted]
    rfl

end Scan

/-- **The property and the action agree.** However a negotiation ends, it publishes what the action answers for the ids of
the device and its advertised caps, or all of these if the device has no ids. And where the descriptors list their
intervals and the device accepts the probes, a negotiation whose peer has exactly one mode, of an area and a rate that the
exits let through, succeeds if and only if the action offers this mode. -/
theorem deliverable_caps_agree (g : Gst) (env : Env) (w w' : World) (ok : Bool) (hrun : negotiate env g w = (some ok, w')) :
    (∃ log log', w.log <:+ log ∧ log <:+ log' ∧ log' <:+ w'.log ∧ w'.own.deliverableCaps =
      match env.deviceIds log with
      | some (vid, pid) =>
        filterDeliverableCaps g.toRangeSetter (some (advertisedCaps g (env.formatDescs log'))) vid.toUInt32 pid.toUInt32
      | none => some (advertisedCaps g (env.formatDescs log'))) ∧
    ∀ codec width height f vid pid uninitialised formats, Discrete formats → AreaFits width height → 1 ≤ f.value →
      Answers env (fixedPeer codec width height f) (uvcQuirksLimits vid.toUInt16 pid.toUInt16) uninitialised formats →
      ∀ answer, filterDeliverableCaps g.toRangeSetter (some (advertisedCaps g formats)) vid pid = some answer →
        (ok = true ↔ Offered answer (modeOf codec width height f)) := by
  constructor
  · obtain ⟨log, log', log'', hlog, hlog', hlog'', hend, hladder, -⟩ := wp_elim (negotiate_publishes w) hrun
    refine ⟨log, log', hlog, hlog', hlog''.trans hend, ?_⟩
    rw [hladder, selectMode_filters]
    cases env.deviceIds log with
    | none =>
      unfold deviceLimits uvcQuirksFilterCaps
      exact congrArg some (if_pos rfl)
    | some ids =>
      simp only [filterDeliverableCaps, UInt16.toUInt16_toUInt32]
      rfl
  · intro codec width height f vid pid uninitialised formats hdiscrete harea hrate henv answer hanswer
    obtain ⟨log, log', log'', -, -, -, -, -, hok⟩ := wp_elim (negotiate_publishes w) hrun
    have hok := hok henv.probe
    rw [henv.peer, henv.limits, henv.uninitialised, henv.formats] at hok
    have hanswer' : (selectMode g (fixedPeer codec width height f) (uvcQuirksLimits vid.toUInt16 pid.toUInt16)
        uninitialised formats).ladder = answer := (selectMode_filters formats).trans (Option.some.inj hanswer)
    rw [hok, (selectMode_pinned hdiscrete).accepted_iff, ← offered_iff_takes hdiscrete harea hrate, hanswer']

/-- A camera under a quirk, at 30 and at 60 frames a second, of which the peer wants 60. -/
def limitedFormats : List FormatDesc :=
  [⟨ascii ['H', '2', '6', '4'], [⟨3840, 2160, some [333333, 166666], 166666, 333333⟩]⟩]

def limitedCamera : Env :=
  { oneCamera with
    formatDescs := fun _ => limitedFormats
    deviceIds := fun _ => some (0x2ca3, 0x0023)
    peer := fun _ => fixedPeer .h264 3840 2160 (intervalFps 166666) }

/-- It has just been opened. -/
def limitedWorld : World :=
  { World.init 50 with
    own := { Own.init with uvcDevh := some 0 }
    log := [.openDevice camera 0 0] }

/-- The negotiation fails, and the action does not offer the mode. -/
theorem deliverable_caps_agree_limited :
    (negotiate limitedCamera plainGst limitedWorld).1 = some false ∧
    ∀ answer, filterDeliverableCaps plainGst.toRangeSetter (some (advertisedCaps plainGst limitedFormats)) 0x2ca3 0x0023 =
      some answer → ¬ Offered answer (modeOf .h264 3840 2160 (intervalFps 166666)) := by
  have hfails : (negotiate limitedCamera plainGst limitedWorld).1 = some false := by decide +kernel
  have hrate : 1 ≤ (intervalFps 166666).value := by
    show (1 : ℚ) ≤ (Fraction.whole 60 _).value
    rw [Fraction.value_whole]
    norm_num
  have hagree := (deliverable_caps_agree plainGst limitedCamera limitedWorld _ false (Prod.ext hfails rfl)).2
  refine ⟨hfails, fun answer hanswer hoffered => ?_⟩
  have henv : Answers limitedCamera (fixedPeer .h264 3840 2160 (intervalFps 166666))
      (uvcQuirksLimits (0x2ca3 : UInt32).toUInt16 (0x0023 : UInt32).toUInt16) (0, 0) limitedFormats :=
    ⟨fun _ => rfl, fun _ => rfl, fun _ => rfl, fun _ => rfl, fun _ _ => Int.le_refl 0⟩
  have hok := (hagree _ _ _ _ 0x2ca3 0x0023 _ _ (by decide) (by decide) hrate henv answer hanswer).mpr hoffered
  exact absurd hok (by decide)

end LibuvcH264Src
