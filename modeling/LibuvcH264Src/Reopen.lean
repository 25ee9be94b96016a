import LibuvcH264Src.Calls

/-!
# The first start and a reopen

* `DeviceBehaviour`, `Behaves` : a device that answers by what it was asked since it was opened;
* `Talking` : what such a device was asked so far, and the control block that came of it;
* `Opening`, `payloadStep`, `transferStep` : the exchange in front of a start, as a function of the
  answers;
* `RetryNeeded`, `FallbackNeeded` : the two second chances that only the first start gives;
* `reopen_agrees_iff` : a reopen brings up what a first start does, unless that takes one of them.
-/

namespace LibuvcH264Src
open AnnexB Caps Prog

/-! ## The device -/

/-- The answers of a device, by the requests since it was opened, newest first. -/
abbrev DeviceBehaviour := List Request → Request → Reply

def requestsSinceOpen : List Event → List Request
  | [] => []
  | .openDevice _ _ res :: log => if res < 0 then requestsSinceOpen log else []
  | .request _ req _ :: log => req :: requestsSinceOpen log
  | _ :: log => requestsSinceOpen log

/-- The readback of libuvc, for such a device. -/
structure DeviceBehaviour.ReadsBack (device : DeviceBehaviour) : Prop where
  probed : ∀ asked mode, (device asked (.probe mode)).Leaves (some mode)
  reprobed : ∀ asked ctrl, (device asked (.payload ctrl)).Leaves ctrl.mode

/-- The device behaves so, and nobody interferes. -/
structure Behaves (env : Env) (device : DeviceBehaviour) : Prop where
  alone : ∀ log, env.meanwhile log = []
  reply : ∀ log req, env.reply log req = device (requestsSinceOpen log) req

/-! ## The exchange in front of a start -/

/-- What a device was asked, and the control block of the instance. -/
structure Opening where
  asked : List Request
  ctrl : StreamCtrl

section Exchange
variable (device : DeviceBehaviour) (props : Props) (mode : StreamMode)

/-- The device's answer to a probe of the mode. -/
def probeReply (o : Opening) : Reply := device o.asked (.probe mode)

def probeStep (o : Opening) : Opening where
  asked := .probe mode :: o.asked
  ctrl := (probeReply device mode o).ctrl

/-- The probe of `negotiate`, tried again where it fails with `UVC_ERROR_INVALID_MODE`, and its status. -/
def retriedProbe (o : Opening) : Opening × Int :=
  if (probeReply device mode o).res = uvcErrorInvalidMode then
    (probeStep device mode (probeStep device mode o),
      (probeReply device mode (probeStep device mode o)).res)
  else (probeStep device mode o, (probeReply device mode o).res)

/-- The control block with the clamped request, and what the device makes of it. -/
def overridden (o : Opening) : StreamCtrl :=
  { o.ctrl with dwMaxPayloadTransferSize := clampMaxPayload props.maxPayload }

def overrideReply (o : Opening) : Reply := device o.asked (.payload (overridden props o))

def overrideStep (o : Opening) : Opening where
  asked := .payload (overridden props o) :: o.asked
  ctrl := (overrideReply device props o).ctrl

/-- The override holds: the device took it and read it back. -/
def overrideHolds (o : Opening) : Prop :=
  ¬ ((overrideReply device props o).res < 0 ∨
    (overrideStep device props o).ctrl.dwMaxPayloadTransferSize ≠ clampMaxPayload props.maxPayload)

instance (o : Opening) : Decidable (overrideHolds device props o) :=
  inferInstanceAs (Decidable (¬ _))

def payloadStep (o : Opening) : Opening :=
  if props.maxPayload = 0 then o
  else if overrideHolds device props o then overrideStep device props o
  else probeStep device mode (overrideStep device props o)

def transferStep (o : Opening) : Opening :=
  if props.transferBuffers = 0 then o
  else { o with asked := .transferBuffers (clampTransferBuffers props.transferBuffers).toUInt8 :: o.asked }

def startReply (o : Opening) : Reply := device o.asked (.start o.ctrl)

def startStep (o : Opening) : Opening := { o with asked := .start o.ctrl :: o.asked }

/-- The stream starts. -/
def Starts (o : Opening) : Prop := ¬ (startReply device o).res < 0

instance (o : Opening) : Decidable (Starts device o) := inferInstanceAs (Decidable (¬ _))

/-- The exchange between a probe and the start. -/
def prepared (o : Opening) : Opening := transferStep props (payloadStep device props mode o)

/-- The start is refused, and the one with the device's own payload is not. -/
def FallbackStarts (o : Opening) : Prop :=
  ¬ Starts device o ∧ props.maxPayload > 0 ∧ ¬ (probeReply device mode (startStep o)).res < 0 ∧
    Starts device (probeStep device mode (startStep o))

/-- A handle that was just opened. -/
def fresh : Opening := ⟨[], ⟨none, 0⟩⟩

/-- The first probe fails with `UVC_ERROR_INVALID_MODE`, and with the second one the stream comes up. -/
def RetryNeeded : Prop :=
  (probeReply device mode fresh).res = uvcErrorInvalidMode ∧
    ¬ (probeReply device mode (probeStep device mode fresh)).res < 0 ∧
    (Starts device (prepared device props mode (probeStep device mode (probeStep device mode fresh))) ∨
      FallbackStarts device props mode
        (prepared device props mode (probeStep device mode (probeStep device mode fresh))))

/-- The first probe succeeds, and the stream comes up with the start behind the clean re-negotiation. -/
def FallbackNeeded : Prop :=
  ¬ (probeReply device mode fresh).res < 0 ∧
    FallbackStarts device props mode (prepared device props mode (probeStep device mode fresh))

/-- The first probe succeeds and the first start does. -/
def FirstTry : Prop :=
  ¬ (probeReply device mode fresh).res < 0 ∧
    Starts device (prepared device props mode (probeStep device mode fresh))

end Exchange

/-! ## What the programs ask -/

section Specs
variable {env : Env} {device : DeviceBehaviour} {props : Props} {mode : StreamMode} {N : Prop}

/-- The instance in the middle of an exchange, observed for at least `k` more turns. Where `N` holds the
negotiated fields are those of the mode. -/
structure Talking (props : Props) (mode : StreamMode) (N : Prop) (o : Opening) (k : Nat) (w : World) :
    Prop where
  handle : ∃ h, w.own.uvcDevh = some h ∧ h ∈ openHandles w.log
  asked : requestsSinceOpen w.log = o.asked
  ctrl : w.own.uvcCtrl = o.ctrl
  format : w.stream.frameFormat = mode.format
  props : w.props = props
  negotiated : N → w.stream.negotiatedWidth = mode.width ∧ w.stream.negotiatedHeight = mode.height ∧
    w.own.negotiatedFramerate = mode.fps
  budget : k ≤ w.budget

variable {o : Opening} {k : Nat} {w : World}

theorem Talking.mono (h : Talking props mode N o k w) {k' : Nat} (hk : k' ≤ k) :
    Talking props mode N o k' w :=
  { h with budget := hk.trans h.budget }

theorem turn_alone (he : Behaves env device) (hb : 0 < w.budget) :
    turn env w = (some (), { w with log := .meanwhile [] :: w.log, budget := w.budget - 1 }) := by
  unfold turn
  rw [if_neg (by omega), he.alone]
  rfl

theorem wp_turn_alone (he : Behaves env device) {I : World → Prop} {Q : Unit → World → Prop}
    (hb : 0 < w.budget)
    (h : Q () { w with log := .meanwhile [] :: w.log, budget := w.budget - 1 }) :
    wp I (turn env) Q w := by
  unfold wp
  rw [turn_alone he hb]
  exact h

theorem Talking.turn (h : Talking props mode N o (k + 1) w) :
    Talking props mode N o k { w with log := .meanwhile [] :: w.log, budget := w.budget - 1 } where
  handle := h.handle
  asked := h.asked
  ctrl := h.ctrl
  format := h.format
  props := h.props
  negotiated := h.negotiated
  budget := by
    have := h.budget
    show k ≤ w.budget - 1
    omega

theorem readProps_talking (he : Behaves env device) (h : Talking props mode N o (k + 1) w) :
    wp (fun _ => False) (readProps env) (fun p w' => p = props ∧ Talking props mode N o k w') w := by
  unfold readProps
  rw [wp_bind]
  refine wp_turn_alone he (by have := h.budget; omega) ?_
  rw [wp_bind, wp_get, wp_pure]
  exact ⟨h.props, h.turn⟩

theorem request_talking (he : Behaves env device) (h : Talking props mode N o (k + 1) w)
    (req : Request) :
    wp (fun _ => False) (request env req) (fun reply w' => reply = device o.asked req ∧
      Talking props mode N { o with asked := req :: o.asked } k w') w := by
  obtain ⟨n, hn, hopen⟩ := h.handle
  unfold request
  rw [wp_bind]
  refine wp_turn_alone he (by have := h.budget; omega) ?_
  rw [wp_bind]
  show wp _ ((withHandle _) >>= _) _ _
  have hreply : env.reply (.meanwhile [] :: w.log) req = device o.asked req := by
    rw [he.reply]
    exact congrArg (device · req) h.asked
  unfold withHandle
  rw [wp_bind, wp_bind, wp_get, wp_bind]
  simp only [record, wp_modify, hn]
  rw [if_pos (show n ∈ openHandles (.meanwhile [] :: w.log) from hopen), wp_pure, wp_pure]
  refine ⟨hreply, ?_⟩
  exact {
    handle := ⟨n, hn, hopen⟩
    asked := congrArg (req :: ·) h.asked
    ctrl := h.ctrl
    format := h.format
    props := h.props
    negotiated := h.negotiated
    budget := h.turn.budget }

theorem Talking.own (h : Talking props mode N o k w) {s : Own} {ctrl : StreamCtrl}
    (hd : s.uvcDevh = w.own.uvcDevh) (hf : s.negotiatedFramerate = w.own.negotiatedFramerate)
    (hc : s.uvcCtrl = ctrl) :
    Talking props mode N { o with ctrl := ctrl } k { w with own := s } where
  handle := by
    rw [hd]
    exact h.handle
  asked := h.asked
  ctrl := hc
  format := h.format
  props := h.props
  negotiated := by
    rw [hf]
    exact h.negotiated
  budget := h.budget

/-- An update that does not touch the control block. -/
theorem Talking.ownSame (h : Talking props mode N o k w) {s : Own}
    (hd : s.uvcDevh = w.own.uvcDevh) (hf : s.negotiatedFramerate = w.own.negotiatedFramerate)
    (hc : s.uvcCtrl = w.own.uvcCtrl) : Talking props mode N o k { w with own := s } :=
  h.own hd hf (hc.trans h.ctrl)

theorem getStreamCtrlFormatSize_talking (he : Behaves env device)
    (h : Talking props mode N o (k + 1) w) :
    wp (fun _ => False) (getStreamCtrlFormatSize env mode.width mode.height mode.fps)
      (fun res w' => res = (probeReply device mode o).res ∧
        Talking props mode N (probeStep device mode o) k w') w := by
  unfold getStreamCtrlFormatSize
  rw [wp_bind, wp_get]
  have hmode : (⟨w.stream.frameFormat, mode.width, mode.height, mode.fps⟩ : StreamMode) = mode := by
    rw [h.format]
  simp only [hmode]
  rw [wp_bind]
  refine wp_mono (request_talking he h (.probe mode)) ?_
  rintro reply w' ⟨rfl, hw'⟩
  rw [wp_bind, wp_modifyOwn, wp_pure]
  exact ⟨rfl, hw'.own rfl rfl rfl⟩

theorem uvcProbeStreamCtrl_talking (he : Behaves env device)
    (h : Talking props mode N { o with ctrl := overridden props o } (k + 1) w) :
    wp (fun _ => False) (uvcProbeStreamCtrl env)
      (fun res w' => res = (overrideReply device props o).res ∧
        Talking props mode N (overrideStep device props o) k w') w := by
  unfold uvcProbeStreamCtrl
  rw [wp_bind, wp_get]
  simp only [h.ctrl]
  rw [wp_bind]
  refine wp_mono (request_talking he h (.payload (overridden props o))) ?_
  rintro reply w' ⟨rfl, hw'⟩
  rw [wp_bind, wp_modifyOwn, wp_pure]
  exact ⟨rfl, hw'.own rfl rfl rfl⟩

theorem uvcStartStreaming_talking (he : Behaves env device) (h : Talking props mode N o (k + 1) w) :
    wp (fun _ => False) (uvcStartStreaming env)
      (fun res w' => res = (startReply device o).res ∧
        Talking props mode N (startStep o) k w') w := by
  unfold uvcStartStreaming
  rw [wp_bind, wp_get]
  simp only [h.ctrl]
  rw [wp_bind]
  refine wp_mono (request_talking he h (.start o.ctrl)) ?_
  rintro reply w' ⟨rfl, hw'⟩
  exact ⟨rfl, hw'⟩

theorem Talking.record (h : Talking props mode N o k w) {e : Event}
    (ha : requestsSinceOpen (e :: w.log) = requestsSinceOpen w.log)
    (ho : openHandles (e :: w.log) = openHandles w.log) :
    Talking props mode N o k { w with log := e :: w.log } where
  handle := by
    rw [ho]
    exact h.handle
  asked := ha.trans h.asked
  ctrl := h.ctrl
  format := h.format
  props := h.props
  negotiated := h.negotiated
  budget := h.budget

theorem negotiateCleanPayload_talking (he : Behaves env device)
    (h : Talking props mode N o (k + 1) w) :
    wp (fun _ => False) (negotiateCleanPayload env mode.width mode.height mode.fps)
      (fun ok w' => (ok = true ↔ ¬ (probeReply device mode o).res < 0) ∧
        Talking props mode N (probeStep device mode o) k w') w := by
  unfold negotiateCleanPayload
  rw [wp_bind]
  refine wp_mono (getStreamCtrlFormatSize_talking he h) ?_
  rintro res w' ⟨rfl, hw'⟩
  rw [wp_bind, wp_get, wp_ite]
  refine ⟨fun hres => ?_, fun hres => ?_⟩
  · rw [wp_bind, wp_record, wp_pure]
    exact ⟨by simp [hres], hw'.record rfl rfl⟩
  · rw [wp_bind, wp_modifyOwn, wp_pure]
    exact ⟨by simp [hres], hw'.ownSame rfl rfl rfl⟩

theorem applyMaxPayload_talking (he : Behaves env device) (h : Talking props mode N o (k + 3) w) :
    wp (fun _ => False) (applyMaxPayload env mode.width mode.height mode.fps)
      (fun _ w' => Talking props mode N (payloadStep device props mode o) k w') w := by
  unfold applyMaxPayload
  rw [wp_bind]
  refine wp_mono (readProps_talking he h) ?_
  rintro p w' ⟨rfl, hw'⟩
  unfold payloadStep
  rw [wp_ite]
  refine ⟨fun hzero => ?_, fun hset => ?_⟩
  · rw [if_pos hzero, wp_modifyOwn]
    exact (hw'.mono (Nat.le_add_right k 2)).ownSame rfl rfl rfl
  · rw [if_neg hset, wp_bind, wp_modifyOwn, wp_bind]
    have hover : Talking p mode N { o with ctrl := overridden p o } (k + 2) _ :=
      hw'.own (s := { w'.own with
        uvcCtrl := { w'.own.uvcCtrl with dwMaxPayloadTransferSize := clampMaxPayload p.maxPayload } })
        rfl rfl (by rw [hw'.ctrl]; rfl)
    refine wp_mono (uvcProbeStreamCtrl_talking he hover) ?_
    rintro res w'' ⟨rfl, hw''⟩
    rw [wp_bind, wp_get, wp_ite, hw''.ctrl]
    refine ⟨fun hrefused => ?_, fun hheld => ?_⟩
    · rw [if_neg (show ¬ overrideHolds device p o from not_not_intro hrefused), wp_bind]
      refine wp_mono (negotiateCleanPayload_talking he hw'') ?_
      rintro ok w₃ ⟨-, hw₃⟩
      exact hw₃
    · rw [if_pos (show overrideHolds device p o from hheld), wp_modifyOwn]
      exact (hw''.mono (Nat.le_add_right k 1)).ownSame rfl rfl rfl

theorem applyTransferBuffers_talking (he : Behaves env device)
    (h : Talking props mode N o (k + 2) w) :
    wp (fun _ => False) (applyTransferBuffers env)
      (fun _ w' => Talking props mode N (transferStep props o) k w') w := by
  unfold applyTransferBuffers
  rw [wp_bind]
  refine wp_mono (readProps_talking he h) ?_
  rintro p w' ⟨rfl, hw'⟩
  unfold transferStep
  rw [wp_when]
  refine ⟨fun hset => ?_, fun hzero => ?_⟩
  · rw [if_neg hset, wp_bind]
    refine wp_mono (request_talking he hw' _) ?_
    rintro reply w'' ⟨rfl, hw''⟩
    rw [wp_when]
    refine ⟨fun _ => ?_, fun _ => hw''⟩
    rw [wp_modifyOwn]
    exact hw''.ownSame rfl rfl rfl
  · rw [if_pos (not_not.mp hzero)]
    exact hw'.mono (Nat.le_add_right k 1)

theorem Talking.stream (h : Talking props mode N o k w) {s : StreamState}
    (hf : s.frameFormat = w.stream.frameFormat)
    (hw : s.negotiatedWidth = w.stream.negotiatedWidth)
    (hh : s.negotiatedHeight = w.stream.negotiatedHeight) :
    Talking props mode N o k { w with stream := s } where
  handle := h.handle
  asked := h.asked
  ctrl := h.ctrl
  format := hf.trans h.format
  props := h.props
  negotiated := by
    rw [hw, hh]
    exact h.negotiated
  budget := h.budget

/-! ## The first start -/

theorem startFallback_talking (he : Behaves env device) (hN : N)
    (h : Talking props mode N (startStep o) (k + 3) w) {res : Int} (hres : res < 0)
    (hfirst : ¬ Starts device o) :
    wp (fun _ => False) (startFallback env res)
      (fun res' _ => ¬ res' < 0 ↔ FallbackStarts device props mode o) w := by
  unfold startFallback
  rw [wp_bind]
  refine wp_mono (readProps_talking he h) ?_
  rintro p w' ⟨rfl, hw'⟩
  rw [wp_ite]
  refine ⟨fun hset => ?_, fun hunset => ?_⟩
  · obtain ⟨hwidth, hheight, hfps⟩ := hw'.negotiated hN
    rw [wp_bind, wp_get, hwidth, hheight, hfps, wp_bind]
    refine wp_mono (negotiateCleanPayload_talking he hw') ?_
    rintro ok w'' ⟨hok, hw''⟩
    rw [wp_ite]
    refine ⟨fun htrue => ?_, fun hfalse => ?_⟩
    · refine wp_mono (uvcStartStreaming_talking he hw'') ?_
      rintro res' w₃ ⟨rfl, -⟩
      exact ⟨fun hstart => ⟨hfirst, hset, hok.mp htrue, hstart⟩, fun hf => hf.2.2.2⟩
    · rw [wp_pure]
      exact ⟨fun hn => absurd hres hn, fun hf => absurd (hok.mpr hf.2.2.1) hfalse⟩
  · rw [wp_pure]
    exact ⟨fun hn => absurd hres hn, fun hf => absurd hf.2.1 hunset⟩

/-- `create` brings the stream up at once or with its fallback. -/
theorem createStart_talking (he : Behaves env device) (hN : N)
    (h : Talking props mode N o (k + 6) w) :
    wp (fun _ => False) (createStart env) (fun ok _ => ok = true ↔
      Starts device (transferStep props o) ∨
        FallbackStarts device props mode (transferStep props o)) w := by
  unfold createStart
  rw [wp_bind, wp_modifyStream, wp_bind, wp_modifyOwn, wp_bind]
  have hin := (h.stream (s := { w.stream with baseTime := clockTimeNone, prevPts := clockTimeNone })
    rfl rfl rfl).ownSame (s := { w.own with streaming := true }) rfl rfl rfl
  refine wp_mono (applyTransferBuffers_talking he hin) ?_
  rintro - w' hw'
  rw [wp_bind]
  refine wp_mono (uvcStartStreaming_talking he hw') ?_
  rintro first w'' ⟨rfl, hw''⟩
  rw [wp_bind, wp_ite]
  refine ⟨fun hrefused => ?_, fun hstarts => ?_⟩
  · have hfirst : ¬ Starts device (transferStep props o) := not_not_intro hrefused
    refine wp_mono (startFallback_talking he hN hw'' hrefused hfirst) ?_
    intro res w₃ hres
    rw [wp_ite]
    refine ⟨fun hneg => ?_, fun hnonneg => ?_⟩
    · rw [wp_bind, wp_modifyOwn, wp_bind, wp_record, wp_pure]
      simpa [hfirst] using fun hf => hres.mpr hf hneg
    · rw [wp_pure]
      simpa [hfirst] using hres.mp hnonneg
  · rw [wp_pure, wp_ite]
    refine ⟨fun hneg => absurd hneg hstarts, fun _ => ?_⟩
    rw [wp_pure]
    exact ⟨fun _ => .inl hstarts, fun _ => rfl⟩

/-- The retry policy of `negotiate`. -/
theorem probeStreamCtrl_talking (he : Behaves env device) (h : Talking props mode N o (k + 2) w) :
    wp (fun _ => False) (probeStreamCtrl env mode.width mode.height mode.fps .retry)
      (fun res w' => res = (retriedProbe device mode o).2 ∧
        Talking props mode N (retriedProbe device mode o).1 k w') w := by
  unfold probeStreamCtrl
  rw [wp_bind, wp_when]
  refine ⟨fun hd => absurd hd (by decide), fun _ => ?_⟩
  rw [wp_bind]
  refine wp_mono (getStreamCtrlFormatSize_talking he h) ?_
  rintro res w' ⟨rfl, hw'⟩
  unfold retriedProbe
  rw [wp_ite]
  refine ⟨fun hinvalid => ?_, fun hvalid => ?_⟩
  · simp only [if_pos hinvalid.2]
    exact getStreamCtrlFormatSize_talking he hw'
  · simp only [if_neg fun hi => hvalid ⟨rfl, hi⟩]
    exact ⟨rfl, hw'.mono (Nat.le_add_right k 1)⟩

/-- `negotiate` from the selected mode on, and then the start of `create`. -/
def firstStart (env : Env) (sel : Selection) (caps : List (Structure Codec)) : Prog World Bool := do
  if ← negotiateMode env sel caps then createStart env else return false

/-- What brings the stream up behind a successful probe. -/
def UpFrom (device : DeviceBehaviour) (props : Props) (mode : StreamMode) (o : Opening) : Prop :=
  Starts device (prepared device props mode o) ∨
    FallbackStarts device props mode (prepared device props mode o)

theorem loadSpspps_talking (he : Behaves env device) (h : Talking props mode N o (k + 1) w)
    (key : SpsppsKey) :
    wp (fun _ => False) (loadSpspps env key) (fun _ w' => Talking props mode N o k w') w := by
  unfold loadSpspps
  rw [wp_bind]
  refine wp_turn_alone he (by have := h.budget; omega) ?_
  rw [wp_bind, wp_ask, wp_bind, wp_record]
  have hin := h.turn.record (e := .load key (env.readFile (.meanwhile [] :: w.log) key)) rfl rfl
  split
  · exact hin
  · next bytes _ =>
    rw [wp_modifyStream]
    obtain ⟨hf, hwh⟩ := Prod.mk.inj (foldl_loadUnit_media
      (parseNalUnits w.stream.frameFormat 3 (bytes.take (spsppsBufSz * 3))) w.stream)
    obtain ⟨hw, hh⟩ := Prod.mk.inj hwh
    exact hin.stream hf hw hh

theorem baseSrcSetCaps_talking (he : Behaves env device) (h : Talking props mode N o (k + 1) w)
    (caps : List (Structure Codec)) :
    wp (fun _ => False) (baseSrcSetCaps env caps) (fun _ w' => Talking props mode N o k w') w := by
  unfold baseSrcSetCaps
  rw [wp_bind]
  refine wp_turn_alone he (by have := h.budget; omega) ?_
  rw [wp_when, wp_record]
  exact ⟨fun _ => h.turn.record rfl rfl, fun _ => h.turn⟩

theorem negotiateMode_talking (he : Behaves env device) {sel : Selection}
    (hsel : sel.width = mode.width ∧ sel.height = mode.height ∧ sel.framerate = mode.fps)
    (caps : List (Structure Codec)) (h : Talking props mode False o (k + 7) w) :
    wp (fun _ => False) (negotiateMode env sel caps)
      (fun ok w' => (ok = true ↔ ¬ (retriedProbe device mode o).2 < 0) ∧
        (ok = true → Talking props mode True
          (payloadStep device props mode (retriedProbe device mode o).1) k w')) w := by
  obtain ⟨hwidth, hheight, hfps⟩ := hsel
  unfold negotiateMode
  rw [wp_bind, hwidth, hheight, hfps]
  refine wp_mono (probeStreamCtrl_talking he h) ?_
  rintro res w' ⟨rfl, hw'⟩
  rw [wp_ite]
  refine ⟨fun hneg => ?_, fun hnonneg => ?_⟩
  · rw [wp_pure]
    exact ⟨by simp [hneg], by simp⟩
  · rw [wp_bind]
    refine wp_mono (applyMaxPayload_talking he (k := k + 2) hw') ?_
    rintro - w'' hw''
    rw [wp_bind, wp_modifyStream, wp_bind, wp_modifyOwn, wp_bind]
    have hnow : Talking props mode True (payloadStep device props mode (retriedProbe device mode o).1)
        (k + 2)
        { w'' with
          stream := { w''.stream with
            frameInterval := Int.tdiv 1000000000 mode.fps
            negotiatedWidth := mode.width
            negotiatedHeight := mode.height }
          own := { w''.own with negotiatedFramerate := mode.fps } } :=
      ⟨hw''.handle, hw''.asked, hw''.ctrl, hw''.format, hw''.props, fun _ => ⟨rfl, rfl, rfl⟩,
        hw''.budget⟩
    refine wp_mono (baseSrcSetCaps_talking he hnow caps) ?_
    rintro - w₃ hw₃
    rw [wp_bind, wp_get, wp_bind]
    refine wp_mono (loadSpspps_talking he hw₃ _) ?_
    rintro - w₄ hw₄
    rw [wp_pure]
    exact ⟨by simp [hnonneg], fun _ => hw₄⟩

theorem firstStart_talking (he : Behaves env device) {sel : Selection}
    (hsel : sel.width = mode.width ∧ sel.height = mode.height ∧ sel.framerate = mode.fps)
    (caps : List (Structure Codec)) (h : Talking props mode False o (k + 13) w) :
    wp (fun _ => False) (firstStart env sel caps)
      (fun ok _ => ok = true ↔ ¬ (retriedProbe device mode o).2 < 0 ∧
        UpFrom device props mode (retriedProbe device mode o).1) w := by
  unfold firstStart
  rw [wp_bind]
  refine wp_mono (negotiateMode_talking he hsel caps (k := k + 6) h) ?_
  rintro ok w' ⟨hok, hw'⟩
  rw [wp_ite]
  refine ⟨fun htrue => ?_, fun hfalse => ?_⟩
  · refine wp_mono (createStart_talking he trivial (hw' htrue)) ?_
    intro up w'' hup
    rw [hup]
    exact ⟨fun h' => ⟨hok.mp htrue, h'⟩, And.right⟩
  · rw [wp_pure]
    exact ⟨fun h' => absurd h' (by decide), fun h' => absurd (hok.mpr h'.1) hfalse⟩

/-! ## The reopen -/

theorem closeAndUnref_talking (he : Behaves env device) (h : Talking props mode N o 1 w) :
    wp (fun _ => False) (closeAndUnref env) (fun _ _ => True) w := by
  obtain ⟨n, hn, -⟩ := h.handle
  unfold closeAndUnref closeDevh unrefDevice uvcClose
  rw [wp_bind, wp_bind, wp_get, hn, wp_bind]
  refine wp_turn_alone he (by have := h.budget; omega) ?_
  rw [wp_bind, wp_record, wp_modifyOwn, wp_bind, wp_get]
  split <;> trivial

/-- `reopen_once` behind its probe. -/
theorem rearmAndStart_talking (he : Behaves env device) (hN : N)
    (h : Talking props mode N o (k + 7) w) :
    wp (fun _ => False) (rearmAndStart env 0)
      (fun ok _ => ok = true ↔ Starts device (prepared device props mode o)) w := by
  obtain ⟨hwidth, hheight, hfps⟩ := h.negotiated hN
  unfold rearmAndStart
  rw [wp_bind, wp_get, hwidth, hheight, hfps, wp_bind]
  refine wp_mono (applyMaxPayload_talking he (k := k + 4) h) ?_
  rintro - w' hw'
  rw [wp_bind, wp_modifyStream, wp_bind]
  have hrearmed := hw'.stream (s := rearmStream w'.stream) rfl rfl rfl
  refine wp_mono (applyTransferBuffers_talking he (k := k + 2) hrearmed) ?_
  rintro - w'' hw''
  show wp _ (pastDeadline env 0 >>= _) _ _
  unfold pastDeadline
  rw [if_pos rfl, wp_bind, wp_pure]
  simp only [Bool.false_eq_true, if_false]
  rw [wp_bind]
  refine wp_mono (uvcStartStreaming_talking he (k := k + 1) hw'') ?_
  rintro res w₃ ⟨rfl, hw₃⟩
  rw [wp_ite]
  refine ⟨fun hrefused => ?_, fun hstarts => ?_⟩
  · rw [wp_bind]
    refine wp_mono (closeAndUnref_talking he (hw₃.mono (Nat.le_add_left 1 k))) ?_
    rintro - w₄ -
    rw [wp_pure]
    exact ⟨fun h' => absurd h' (by decide), fun h' => absurd hrefused h'⟩
  · rw [wp_bind, wp_modifyOwn, wp_pure]
    exact ⟨fun _ => hstarts, fun _ => rfl⟩

/-- The instance in front of a reopen, its last mode negotiated. -/
structure Reopening (props : Props) (mode : StreamMode) (k : Nat) (w : World) : Prop where
  format : w.stream.frameFormat = mode.format
  props : w.props = props
  width : w.stream.negotiatedWidth = mode.width
  height : w.stream.negotiatedHeight = mode.height
  fps : w.own.negotiatedFramerate = mode.fps
  budget : k ≤ w.budget

/-- The device is on the bus and opens. -/
structure Present (env : Env) (selector : DeviceSelector) : Prop where
  found : ∀ log, ((env.uvcFindDevices log).bind (findMatching selector 0)).isSome
  opens : ∀ log dev, ¬ env.uvcOpen log dev < 0

theorem resolveDevice_present (he : Behaves env device) {selector : DeviceSelector}
    (hp : Present env selector) (h : Reopening props mode (k + 1) w) :
    wp (fun _ => False) (resolveDevice env selector 0)
      (fun found w' => (∃ dev i, found = .ok (dev, i)) ∧ Reopening props mode k w') w := by
  unfold resolveDevice forever loop
  show wp _ (iterate _ (w.budget + 1) resetPollInitialMs) _ _
  unfold iterate uvcFindDevices
  rw [wp_bind, wp_bind, wp_bind]
  refine wp_turn_alone he (by have := h.budget; omega) ?_
  rw [wp_bind, wp_ask, wp_bind, wp_record, wp_pure]
  obtain ⟨⟨dev, i⟩, hfound⟩ := Option.isSome_iff_exists.mp (hp.found (.meanwhile [] :: w.log))
  simp only [hfound]
  rw [wp_bind, wp_record, wp_bind, wp_record, wp_pure, wp_pure]
  exact ⟨⟨dev, i, rfl⟩, h.format, h.props, h.width, h.height, h.fps, by
    have := h.budget
    show k ≤ w.budget - 1
    omega⟩

theorem uvcOpen_present (he : Behaves env device) {selector : DeviceSelector}
    (hp : Present env selector) (h : Reopening props mode (k + 1) w) (dev : Device) :
    wp (fun _ => False) (uvcOpen env dev) (fun res w' => ¬ res < 0 ∧
      Talking props mode True ⟨[], w.own.uvcCtrl⟩ k w') w := by
  have hres := hp.opens (.meanwhile [] :: w.log) dev
  unfold uvcOpen
  rw [wp_bind]
  refine wp_turn_alone he (by have := h.budget; omega) ?_
  rw [wp_bind, wp_ask, wp_bind, wp_ask, wp_bind, wp_record, wp_bind, wp_modifyOwn, wp_pure]
  refine ⟨hres, ?_⟩
  exact {
    handle := ⟨nextHandle (.meanwhile [] :: w.log), by simp only [if_neg hres], by
      simp only [openHandles, if_neg hres]
      exact List.mem_cons_self⟩
    asked := by simp only [requestsSinceOpen, if_neg hres]
    ctrl := rfl
    format := h.format
    props := h.props
    negotiated := fun _ => ⟨h.width, h.height, h.fps⟩
    budget := by
      have := h.budget
      show k ≤ w.budget - 1
      omega }

theorem reopenOnce_talking (he : Behaves env device) {selector : DeviceSelector}
    (hp : Present env selector) (h : Reopening props mode (k + 10) w) :
    wp (fun _ => False) (reopenOnce env selector 0)
      (fun ok _ => ok = true ↔ FirstTry device props mode) w := by
  unfold reopenOnce
  rw [wp_bind]
  refine wp_mono (resolveDevice_present he hp (k := k + 9) h) ?_
  rintro found w' ⟨⟨dev, i, rfl⟩, hw'⟩
  show wp _ (pastDeadline env 0 >>= _) _ _
  unfold pastDeadline
  rw [if_pos rfl, wp_bind, wp_pure]
  simp only [Bool.false_eq_true, if_false]
  rw [wp_bind]
  refine wp_mono (uvcOpen_present he hp (k := k + 8) hw' dev) ?_
  rintro res w'' ⟨hres, hw''⟩
  rw [if_neg hres, wp_bind, wp_modifyOwn, wp_bind, wp_get, wp_bind, wp_pure]
  have hopened := hw''.ownSame (s := { w''.own with uvcDev := some dev }) rfl rfl rfl
  obtain ⟨hwidth, hheight, hfps⟩ := hw''.negotiated trivial
  simp only [Bool.false_eq_true, if_false]
  rw [wp_bind]
  have hprobe := getStreamCtrlFormatSize_talking he (k := k + 7) hopened
  rw [← hwidth, ← hheight, ← hfps] at hprobe
  refine wp_mono hprobe ?_
  rintro res w₃ ⟨rfl, hw₃⟩
  rw [wp_ite]
  refine ⟨fun hrefused => ?_, fun hprobed => ?_⟩
  · rw [wp_bind]
    refine wp_mono (closeAndUnref_talking he (hw₃.mono (Nat.le_add_left 1 _))) ?_
    rintro - w₄ -
    rw [wp_pure]
    exact ⟨fun h' => absurd h' (by decide), fun h' => absurd hrefused h'.1⟩
  · refine wp_mono (rearmAndStart_talking he trivial hw₃) ?_
    intro ok w₄ hok
    rw [hok]
    exact ⟨fun hs => ⟨hprobed, hs⟩, And.right⟩

end Specs

/-! ## Agreement -/

/-- The same world, observed for `n` turns. -/
def World.within (w : World) (n : Nat) : World := { w with budget := n }

/-- Observed for long enough, `p` brings the stream up. -/
def BringsUp (p : Prog World Bool) (w : World) : Prop :=
  ∃ N, ∀ n ≥ N, (p (w.within n)).1 = some true

theorem bringsUp_iff {p : Prog World Bool} {w : World} {P : Prop} {N : Nat}
    (h : ∀ n ≥ N, wp (fun _ => False) p (fun ok _ => ok = true ↔ P) (w.within n)) :
    BringsUp p w ↔ P := by
  have hval : ∀ n ≥ N, ∃ ok, (p (w.within n)).1 = some ok ∧ (ok = true ↔ P) := by
    intro n hn
    have hw := h n hn
    unfold wp at hw
    rcases hp : p (w.within n) with ⟨_ | ok, w'⟩ <;> rw [hp] at hw
    · exact hw.elim
    · exact ⟨ok, rfl, hw⟩
  refine ⟨fun ⟨N', hN'⟩ => ?_, fun hP => ⟨N, fun n hn => ?_⟩⟩
  · obtain ⟨ok, hok, hiff⟩ := hval (max N N') (le_max_left N N')
    exact hiff.mp (Option.some.inj (hok.symm.trans (hN' _ (le_max_right N N'))))
  · obtain ⟨ok, hok, hiff⟩ := hval n hn
    rw [hok, hiff.mpr hP]

theorem retriedProbe_up_iff {device : DeviceBehaviour} {props : Props} {mode : StreamMode} :
    (¬ (retriedProbe device mode fresh).2 < 0 ∧
        UpFrom device props mode (retriedProbe device mode fresh).1) ↔
      RetryNeeded device props mode ∨ FirstTry device props mode ∨
        FallbackNeeded device props mode := by
  unfold retriedProbe RetryNeeded FirstTry FallbackNeeded UpFrom
  by_cases hinvalid : (probeReply device mode fresh).res = uvcErrorInvalidMode
  · have hneg : uvcErrorInvalidMode < 0 := by decide
    rw [if_pos hinvalid]
    simp only [hinvalid, hneg, true_and, not_true_eq_false, false_and, or_false]
  · rw [if_neg hinvalid]
    simp only [hinvalid, false_and, false_or, and_or_left]

/-- What was in the control block when the handle was opened does not matter. -/
theorem retriedProbe_opened {device : DeviceBehaviour} {mode : StreamMode} (ctrl : StreamCtrl) :
    retriedProbe device mode ⟨[], ctrl⟩ = retriedProbe device mode fresh := rfl

theorem not_fallbackNeeded_of_firstTry {device : DeviceBehaviour} {props : Props} {mode : StreamMode}
    (h : FirstTry device props mode) :
    ¬ RetryNeeded device props mode ∧ ¬ FallbackNeeded device props mode := by
  refine ⟨fun hr => h.1 ?_, fun hf => hf.2.1 h.2⟩
  rw [hr.1]
  decide

section Agreement
variable {env : Env} {device : DeviceBehaviour} {props : Props} {mode : StreamMode}

theorem firstStart_bringsUp (he : Behaves env device) {sel : Selection}
    (hsel : sel.width = mode.width ∧ sel.height = mode.height ∧ sel.framerate = mode.fps)
    (caps : List (Structure Codec)) {w : World}
    (hw : Talking props mode False ⟨[], w.own.uvcCtrl⟩ 0 w) :
    BringsUp (firstStart env sel caps) w ↔ RetryNeeded device props mode ∨
      FirstTry device props mode ∨ FallbackNeeded device props mode := by
  rw [← retriedProbe_up_iff]
  refine bringsUp_iff (N := 13) fun n hn => ?_
  rw [← retriedProbe_opened w.own.uvcCtrl]
  exact firstStart_talking he hsel caps (k := n - 13)
    { hw with budget := by show n - 13 + 13 ≤ n; omega }

theorem reopenOnce_bringsUp (he : Behaves env device) {selector : DeviceSelector}
    (hp : Present env selector) {w : World} (hw : Reopening props mode 0 w) :
    BringsUp (reopenOnce env selector 0) w ↔ FirstTry device props mode :=
  bringsUp_iff (N := 10) fun n hn => reopenOnce_talking he hp (k := n - 10)
    { hw with budget := by show n - 10 + 10 ≤ n; omega }

end Agreement

/-- **A reopen brings up what a first start does**, on a device that behaves the same, unless the first
start takes its retry or its fallback. -/
theorem reopen_agrees_iff (env : Env) (device : DeviceBehaviour) (selector : DeviceSelector)
    (props : Props) (mode : StreamMode) (sel : Selection) (caps : List (Structure Codec)) (w w' : World)
    (he : Behaves env device) (hp : Present env selector)
    (hsel : sel.width = mode.width ∧ sel.height = mode.height ∧ sel.framerate = mode.fps)
    (hw : Talking props mode False ⟨[], w.own.uvcCtrl⟩ 0 w) (hw' : Reopening props mode 0 w') :
    (BringsUp (firstStart env sel caps) w → BringsUp (reopenOnce env selector 0) w') ↔
      ¬ RetryNeeded device props mode ∧ ¬ FallbackNeeded device props mode := by
  rw [firstStart_bringsUp he hsel caps hw, reopenOnce_bringsUp he hp hw']
  refine ⟨fun h => ⟨fun hr => ?_, fun hf => ?_⟩, fun ⟨hr, hf⟩ => ?_⟩
  · exact (not_fallbackNeeded_of_firstTry (h (.inl hr))).1 hr
  · exact (not_fallbackNeeded_of_firstTry (h (.inr (.inr hf)))).2 hf
  · rintro (h | h | h)
    · exact absurd h hr
    · exact h
    · exact absurd h hf

/-! ## One camera -/

/-- The camera, answering by what it was asked since it was opened. -/
def cameraEnv (device : DeviceBehaviour) (h : device.ReadsBack) : Env :=
  { oneCamera with
    reply := fun log req => device (requestsSinceOpen log) req
    probed := fun log mode => h.probed (requestsSinceOpen log) mode
    reprobed := fun log ctrl => h.reprobed (requestsSinceOpen log) ctrl }

theorem cameraEnv_behaves {device : DeviceBehaviour} (h : device.ReadsBack) : Behaves (cameraEnv device h) device where
  alone _ := rfl
  reply _ _ := rfl

theorem cameraEnv_present {device : DeviceBehaviour} (h : device.ReadsBack) : Present (cameraEnv device h) (.ordinal 0) where
  found _ := rfl
  opens _ _ := by
    show ¬ (0 : Int) < 0
    decide

def cameraMode : StreamMode := ⟨.h264, 1920, 1080, 30⟩

def cameraSelection : Selection := { Selection.init with width := 1920, height := 1080, framerate := 30 }

/-- The camera was just opened. -/
def justOpened : World :=
  { World.init 0 with
    own := { Own.init with uvcDevh := some 0 }
    stream := { StreamState.init with frameFormat := .h264 }
    log := [.openDevice camera 0 0] }

theorem justOpened_talking :
    Talking Props.init cameraMode False ⟨[], justOpened.own.uvcCtrl⟩ 0 justOpened where
  handle := ⟨0, rfl, by decide⟩
  asked := rfl
  ctrl := rfl
  format := rfl
  props := rfl
  negotiated := False.elim
  budget := le_refl 0

/-- The camera is gone, the mode still known. -/
def disconnected : World :=
  { World.init 0 with
    own := { Own.init with negotiatedFramerate := 30 }
    stream := { StreamState.init with
      frameFormat := .h264
      negotiatedWidth := 1920
      negotiatedHeight := 1080 } }

theorem disconnected_reopening : Reopening Props.init cameraMode 0 disconnected where
  format := rfl
  props := rfl
  width := rfl
  height := rfl
  fps := rfl
  budget := le_refl 0

theorem willing_readsBack : DeviceBehaviour.ReadsBack (fun _ => willing) where
  probed _ _ _ := rfl
  reprobed _ _ _ := rfl

/-- A camera that does what it is asked comes up, and comes up again. -/
theorem reopen_agrees_iff_willing :
    BringsUp (firstStart (cameraEnv _ willing_readsBack) cameraSelection []) justOpened ∧
      BringsUp (reopenOnce (cameraEnv _ willing_readsBack) (.ordinal 0) 0) disconnected := by
  have hfirst : BringsUp (firstStart (cameraEnv _ willing_readsBack) cameraSelection []) justOpened :=
    (firstStart_bringsUp (cameraEnv_behaves _) ⟨rfl, rfl, rfl⟩ [] justOpened_talking).mpr
      (.inr (.inl ⟨by decide, by decide⟩))
  refine ⟨hfirst, ?_⟩
  exact (reopen_agrees_iff (cameraEnv _ willing_readsBack) (fun _ => willing) (.ordinal 0) .init cameraMode
    cameraSelection [] justOpened disconnected (cameraEnv_behaves _) (cameraEnv_present _)
    ⟨rfl, rfl, rfl⟩ justOpened_talking disconnected_reopening).mpr
    ⟨fun h => absurd h.1 (by decide), fun h => h.2.1 (by decide)⟩ hfirst

/-- A camera that answers the first probe with the mode it had before. -/
def staleReadback : DeviceBehaviour
  | [], .probe _ => ⟨uvcErrorInvalidMode, ⟨none, 0⟩⟩
  | _, req => willing req

theorem staleReadback_readsBack : staleReadback.ReadsBack where
  probed asked mode haccepted := by
    cases asked
    · exact absurd (by show uvcErrorInvalidMode < 0; decide) haccepted
    · rfl
  reprobed asked _ _ := by cases asked <;> rfl

/-- What comes up at first does not come up again. -/
theorem reopen_disagrees :
    ¬ (BringsUp (firstStart (cameraEnv _ staleReadback_readsBack) cameraSelection []) justOpened →
      BringsUp (reopenOnce (cameraEnv _ staleReadback_readsBack) (.ordinal 0) 0) disconnected) := by
  rw [firstStart_bringsUp (cameraEnv_behaves _) ⟨rfl, rfl, rfl⟩ [] justOpened_talking,
    reopenOnce_bringsUp (cameraEnv_behaves _) (cameraEnv_present _) disconnected_reopening]
  intro h
  have hretry : RetryNeeded staleReadback .init cameraMode := ⟨rfl, by decide, .inl (by decide)⟩
  exact (h (.inl hretry)).1 (by decide)

end LibuvcH264Src
