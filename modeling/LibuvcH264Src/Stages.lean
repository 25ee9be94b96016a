import LibuvcH264Src.Calls

/-!
# The stages of the element

* `Grip` : how far the element has got hold of the device;
* `Step` : all that can happen to the element at a stage, one constructor for each place in the code that
  writes a field or makes a call;
* `Staged` : the stages and worlds that a chain of steps gets to.

Every run of the virtual methods is such a chain, so an invariant of a step is one of all runs.
-/

namespace LibuvcH264Src
open AnnexB Caps Prog

/-! ## What the guards read off the log -/

/-- The item of the last pop; `none` for a pop that timed out. -/
def lastPop : List Event → Option QueueItem
  | [] => none
  | .pop item :: _ => item
  | _ :: log => lastPop log

/-- What an interference makes of the properties. -/
def Props.set (props : Props) : Interference → Props
  | .setProperty property => (setProperty { World.init 0 with props := props } property).props
  | _ => props

/-- The properties that the log leaves. -/
def propsOf : List Event → Props
  | [] => .init
  | .meanwhile others :: log => others.foldl Props.set (propsOf log)
  | _ :: log => propsOf log

/-- What the running negotiation selects from. -/
def lastSelecting : List Event → Option (Peer × QuirkLimits × List FormatDesc × (Int × Int))
  | [] => none
  | .called _ :: _ => none
  | .selecting peer limits formats uninitialised :: _ => some (peer, limits, formats, uninitialised)
  | _ :: log => lastSelecting log

/-- The control block may stand for another mode than the one that was asked for: a clean re-negotiation
left it so, and no probe was accepted since. -/
def stale : List Event → Bool
  | [] => false
  | .cleanRefused mode left :: _ => decide (left.mode ≠ some mode)
  | .request _ (.probe _) reply :: log => if reply.res < 0 then stale log else false
  | _ :: log => stale log

/-- The control block stands for the mode, as far as the log knows. -/
def Agrees (mode : StreamMode) (w : World) : Prop := w.own.uvcCtrl.mode = some mode ∨ stale w.log = true

section Step
variable (g : Gst)

/-- The selections that the running negotiation went through. -/
def scanned (log : List Event) : List Selection :=
  match lastSelecting log with
  | some (peer, limits, formats, uninitialised) => scanFormats g peer limits uninitialised formats .init
  | none => []

/-- The one it came to. -/
def selected (log : List Event) : Selection := (scanned g log).getLastD .init

/-! ## Stages -/

/-- How far the element has got hold of a device: no context; a context and no device; a reference to one
that no field holds yet; a reference in its field; an open handle; one whose control block is agreed on;
the start of the stream under way; a stream; and a call without a handle. -/
inductive Grip where
  | bare
  | vacant
  | found (dev : Device)
  | held
  | opened
  | ready
  | starting
  | running
  | stray
  deriving DecidableEq

/-- Where the session stands: not negotiated; negotiated; in a wedge recovery, before the port reset or
behind it, settling, or behind the frame that proves it; and with the item of a pop in hand, of the recovery
or of `create`. -/
inductive Progress where
  | fresh
  | negotiated
  | recovering (reset : Bool)
  | settling
  | proven
  | holding (recovery : Bool)
  deriving DecidableEq

/-- Where the turns of the two loops over the queue begin. -/
def Progress.turn : Bool → Progress
  | false => .negotiated
  | true => .settling

structure Stage where
  grip : Grip
  progress : Progress
  deriving DecidableEq

/-- The grips at which the device is open. -/
def Grip.isOpen : Grip → Bool
  | .opened | .ready | .starting | .running => true
  | _ => false

/-- The grips at which a field refers to the device. -/
def Grip.isHeld (grip : Grip) : Bool := decide (grip = .held) || grip.isOpen

/-- The grips at which `streaming` is set. -/
def Grip.isStreaming : Grip → Bool
  | .starting | .running => true
  | _ => false

/-- The grips between two calls of the base class. -/
def Grip.AtRest : Grip → Prop
  | .bare | .vacant | .opened | .ready | .running => True
  | _ => False

def Progress.AtRest : Progress → Prop
  | .fresh | .negotiated => True
  | _ => False

/-- The stages between two calls. -/
def Stage.AtRest (s : Stage) : Prop := s.grip.AtRest ∧ s.progress.AtRest

def Stage.Takes (s : Stage) : VCall → Prop
  | .create => s.AtRest ∧ s.grip ≠ .opened ∧ s.progress = .negotiated
  | _ => s.AtRest

/-- The stage in which a call runs. -/
def Stage.called (s : Stage) : VCall → Stage
  | .negotiate =>
    match s.grip with
    | .opened | .ready => ⟨.opened, .fresh⟩
    | .running => ⟨.running, .fresh⟩
    | _ => ⟨.stray, .fresh⟩
  | .create =>
    match s.grip with
    | .ready | .running => s
    | _ => ⟨.stray, s.progress⟩
  | _ => s

/-- A negotiation may talk to the device: there is no stream, or the negotiation is not done. -/
def Stage.Open (s : Stage) : Prop := s.grip = .opened ∨ s.grip = .running ∧ s.progress = .fresh

/-- A negotiation is under way. -/
def Stage.Negotiating (s : Stage) : Prop := (s.grip = .opened ∨ s.grip = .running) ∧ s.progress = .fresh

theorem Stage.Negotiating.open {s : Stage} (h : s.Negotiating) : s.Open := h.1.imp id fun hg => ⟨hg, h.2⟩

/-- An entry behind which nothing else changes. -/
def Event.Plain : Event → Prop
  | .time _ | .error _ | .deepOutcome _ => True
  | _ => False

/-! ## Steps -/

inductive Step : Stage → World → Stage → World → Prop where
  -- the other threads, the base class and the notes
  | others {s w} (others : List Interference) (budget : Nat) : Step s w s (w.others others budget)
  | plain {s w} (e : Event) (he : e.Plain) : Step s w s (w.note e)
  | call {s w} (call : VCall) (h : s.Takes call) : Step s w (s.called call) (w.note (.called call))
  -- the queue
  | pop {grip w} (recovery : Bool) :
      Step ⟨grip, .turn recovery⟩ w ⟨grip, .holding recovery⟩
        ({ w with queue := w.queue.tail }.note (.pop w.queue.head?))
  | putBack {grip w} (buf : GstBuffer) (h : lastPop w.log = some (.buffer buf)) :
      Step ⟨grip, .holding true⟩ w ⟨grip, .proven⟩ { w with queue := .buffer buf :: w.queue }
  | drop {grip w} (recovery : Bool) (items : List QueueItem) (h : items = (lastPop w.log).toList) :
      Step ⟨grip, .holding recovery⟩ w ⟨grip, .turn recovery⟩ (w.note (.discarded items))
  | letGo {grip w} (h : ∀ buf, lastPop w.log ≠ some (.buffer buf)) :
      Step ⟨grip, .holding true⟩ w ⟨grip, .settling⟩ w
  | drain {s w} (hgrip : s.grip.isStreaming = false) :
      Step s w s ({ w with queue := [] }.note (.discarded w.queue))
  -- the count of the silence
  | timeout {grip w} (h : lastPop w.log = none) :
      Step ⟨grip, .holding false⟩ w ⟨grip, .negotiated⟩
        { w with own := { w.own with consecutiveTimeouts := w.own.consecutiveTimeouts + 1 } }
  | silent {grip w} (h : disconnectTimeoutCount ≤ w.own.consecutiveTimeouts) (hpop : lastPop w.log = none) :
      Step ⟨grip, .negotiated⟩ w ⟨grip, .negotiated⟩ (w.note .silent)
  | skip {grip w} (h : lastPop w.log = some .flushSentinel) :
      Step ⟨grip, .holding false⟩ w ⟨grip, .negotiated⟩ { w with own := { w.own with consecutiveTimeouts := 0 } }
  | heard {grip w} (buf : GstBuffer) (h : lastPop w.log = some (.buffer buf)) :
      Step ⟨grip, .holding false⟩ w ⟨grip, .holding false⟩ { w with own := { w.own with consecutiveTimeouts := 0 } }
  | recovered {n w} :
      Step ⟨.running, n⟩ w ⟨.running, n⟩ { w with own := { w.own with consecutiveTimeouts := 0 } }
  -- the latches
  | wedge {grip w} (h : w.own.resetRecoveryUsed = false) (hauto : (propsOf w.log).autoPortReset = true)
      (idle log : List Event) (hlog : w.log = idle ++ log) (hidle : ∀ e ∈ idle, e.Idle)
      (hreconnect : (propsOf log).reconnect = false) :
      Step ⟨grip, .negotiated⟩ w ⟨grip, .recovering false⟩
        ({ w with own := { w.own with resetRecoveryUsed := true, framesSinceReset := 0 } }.note .wedgeRecovery)
  | portReset {grip w} (rc : Int) :
      Step ⟨grip, .recovering false⟩ w ⟨grip, .recovering true⟩ (w.note (.portReset rc))
  | calmed {grip n w}
      (h : (∃ reset, n = .recovering reset) ∨ n = .settling ∧ grip ≠ .running ∨ n = .proven) :
      Step ⟨grip, n⟩ w ⟨grip, .negotiated⟩ w
  | tornDown {w} : Step ⟨.vacant, .recovering true⟩ w ⟨.vacant, .settling⟩ w
  | deep {grip w} (h : w.own.deepRecoveryUsed = false) :
      Step ⟨grip, .settling⟩ w ⟨grip, .settling⟩
        ({ w with own := { w.own with deepRecoveryUsed := true } }.note .deepRecovery)
  | returnCounted {w} (h : w.own.resetRecoveryUsed = true) (buf : GstBuffer)
      (hpop : lastPop w.log = some (.buffer buf)) (hheard : w.own.consecutiveTimeouts = 0) :
      Step ⟨.running, .holding false⟩ w ⟨.running, .negotiated⟩
        ({ w with
            own := { w.own with
              framesSinceReset := w.own.framesSinceReset + 1
              resetRecoveryUsed := decide (w.own.framesSinceReset + 1 < w.props.resetRearmFrames) } }.note
          (.returned (some w.props.resetRearmFrames)))
  | returnPlain {w} (h : w.own.resetRecoveryUsed = false) (buf : GstBuffer)
      (hpop : lastPop w.log = some (.buffer buf)) (hheard : w.own.consecutiveTimeouts = 0) :
      Step ⟨.running, .holding false⟩ w ⟨.running, .negotiated⟩ (w.note (.returned none))
  | target {s w} (target : Option UsbRecoveryTarget) :
      Step s w s { w with own := { w.own with recoveryTarget := target } }
  | ladder {s w} (ladder : List (Structure Codec)) :
      Step s w s { w with own := { w.own with deliverableCaps := some ladder } }
  -- the session and the context
  | session {n w} :
      Step ⟨.bare, n⟩ w ⟨.bare, .fresh⟩
        ({ w with stream := resetStream w.stream, own := resetSession w.own }.note .sessionReset)
  | init {n w} (res : Int) :
      Step ⟨.bare, n⟩ w ⟨if res < 0 then .bare else .vacant, n⟩
        ({ w with own := { w.own with uvcCtx := if res < 0 then w.own.uvcCtx else true } }.note (.init res))
  | exit {n w} :
      Step ⟨.vacant, n⟩ w ⟨.bare, n⟩ ({ w with own := { w.own with uvcCtx := false } }.note .exit)
  -- the reference to a device
  | lookFor {n w} (devs : Option (List Device)) :
      Step ⟨.vacant, n⟩ w ⟨.vacant, n⟩
        (if devs.isSome then (w.note (.findDevices devs)).note .freeDeviceList else w.note (.findDevices devs))
  | find {n w} (devs : Option (List Device)) (dev : Device) (h : ∃ list, devs = some list ∧ dev ∈ list) :
      Step ⟨.vacant, n⟩ w ⟨.found dev, n⟩
        (((w.note (.findDevices devs)).note (.refDevice dev)).note .freeDeviceList)
  | hold {n w} (dev : Device) :
      Step ⟨.found dev, n⟩ w ⟨.held, n⟩ { w with own := { w.own with uvcDev := some dev } }
  | release {n w} (dev : Device) : Step ⟨.found dev, n⟩ w ⟨.vacant, n⟩ (w.note (.unrefDevice dev))
  | unref {n w} (dev : Device) (h : w.own.uvcDev = some dev) :
      Step ⟨.held, n⟩ w ⟨.vacant, n⟩
        ({ w with own := { w.own with uvcDev := none } }.note (.unrefDevice dev))
  -- the handle
  | refused {n w} (dev : Device) (grip : Grip)
      (h : grip = .found dev ∨ grip = .held ∧ w.own.uvcDev = some dev) (res : Int) (hres : res < 0) :
      Step ⟨grip, n⟩ w ⟨grip, n⟩ (w.note (.openDevice dev (nextHandle w.log) res))
  | openHeld {n w} (dev : Device) (h : w.own.uvcDev = some dev) (res : Int) (hres : ¬ res < 0) :
      Step ⟨.held, n⟩ w ⟨.opened, n⟩
        ({ w with own := { w.own with uvcDevh := some (nextHandle w.log) } }.note
          (.openDevice dev (nextHandle w.log) res))
  | openFound {n w} (dev : Device) (res : Int) (hres : ¬ res < 0) :
      Step ⟨.found dev, n⟩ w ⟨.opened, n⟩
        ({ w with own := { w.own with uvcDevh := some (nextHandle w.log), uvcDev := some dev } }.note
          (.openDevice dev (nextHandle w.log) res))
  | close {n w} (grip : Grip) (hgrip : grip = .opened ∨ grip = .ready) (h : Nat)
      (hdevh : w.own.uvcDevh = some h) :
      Step ⟨grip, n⟩ w ⟨.held, n⟩ ({ w with own := { w.own with uvcDevh := none } }.note (.close h))
  -- what is asked of the device
  | transfer {s w} (hgrip : s.grip = .ready ∨ s.grip = .starting) (requested : UInt32) (reply : Reply) :
      Step s w s
        ({ w with
            own := { w.own with
              transferBuffersEffective :=
                if reply.res < 0 then w.own.transferBuffersEffective
                else clampTransferBuffers requested } }.note
          (.request w.own.uvcDevh (.transferBuffers (clampTransferBuffers requested).toUInt8) reply))
  | probe {s w} (hgrip : s.Open) (mode : StreamMode)
      (reply : Reply) :
      Step s w s
        ({ w with own := { w.own with uvcCtrl := reply.ctrl } }.note (.request w.own.uvcDevh (.probe mode) reply))
  | override {s w} (hgrip : s.Open) (size : UInt32) :
      Step s w s
        { w with own := { w.own with uvcCtrl := { w.own.uvcCtrl with dwMaxPayloadTransferSize := size } } }
  | payload {s w} (hgrip : s.Open) (reply : Reply) :
      Step s w s
        ({ w with own := { w.own with uvcCtrl := reply.ctrl } }.note
          (.request w.own.uvcDevh (.payload w.own.uvcCtrl) reply))
  | effective {s w} (hgrip : s.Open) :
      Step s w s
        { w with own := { w.own with maxPayloadEffective := w.own.uvcCtrl.dwMaxPayloadTransferSize } }
  | clean {s w} (mode : StreamMode)
      (hgrip : s.Open ∨ s.grip = .starting ∧ mode = w.mode)
      (reply : Reply) (hleft : reply.ctrl.mode = some mode) :
      Step s w s
        ({ w with
            own := { w.own with
              uvcCtrl := reply.ctrl
              maxPayloadEffective := reply.ctrl.dwMaxPayloadTransferSize } }.note
          (.request w.own.uvcDevh (.probe mode) reply))
  | cleanRefused {s w} (mode : StreamMode)
      (hgrip : s.Open ∨ s.grip = .starting ∧ mode = w.mode)
      (reply : Reply) (hres : reply.res < 0) :
      Step s w s
        (({ w with own := { w.own with uvcCtrl := reply.ctrl } }.note
          (.request w.own.uvcDevh (.probe mode) reply)).note (.cleanRefused mode reply.ctrl))
  | formatDescs {s w} (hgrip : s.grip.isOpen = true) : Step s w s (w.note (.formatDescs w.own.uvcDevh))
  -- the stream
  | agree {n w} (h : Agrees w.mode w) : Step ⟨.opened, n⟩ w ⟨.ready, n⟩ w
  | rearm {n w} : Step ⟨.ready, n⟩ w ⟨.ready, n⟩ { w with stream := rearmStream w.stream }
  | begin {n w} (grip : Grip) (hgrip : grip = .ready ∨ grip = .stray) :
      Step ⟨grip, n⟩ w ⟨if grip = .ready then .starting else .stray, n⟩
        { w with
          stream := { w.stream with baseTime := clockTimeNone, prevPts := clockTimeNone }
          own := { w.own with streaming := true } }
  | startRefused {s w} (hgrip : s.grip = .ready ∨ s.grip = .starting) (reply : Reply) (hres : reply.res < 0) :
      Step s w s (w.note (.request w.own.uvcDevh (.start w.own.uvcCtrl) reply))
  | start {n w} (grip : Grip) (hgrip : grip = .ready ∨ grip = .starting) (hn : n ≠ .fresh) (reply : Reply)
      (hres : ¬ reply.res < 0) :
      Step ⟨grip, n⟩ w ⟨.running, n⟩
        ({ w with own := { w.own with streaming := true } }.note
          (.request w.own.uvcDevh (.start w.own.uvcCtrl) reply))
  | giveUp {n w} : Step ⟨.starting, n⟩ w ⟨.ready, n⟩ { w with own := { w.own with streaming := false } }
  | stopStream {n w} (h : Nat) (hdevh : w.own.uvcDevh = some h) :
      Step ⟨.running, n⟩ w ⟨.ready, n⟩
        ({ w with own := { w.own with streaming := false } }.note (.stopStreaming h))
  -- calls without a handle
  | strayRequest {n w} (req : Request) (reply : Reply) :
      Step ⟨.stray, n⟩ w ⟨.stray, n⟩ (w.note (.request w.own.uvcDevh req reply))
  | strayFormatDescs {n w} : Step ⟨.stray, n⟩ w ⟨.stray, n⟩ (w.note (.formatDescs w.own.uvcDevh))
  -- negotiation
  | selecting {s w} (hgrip : s.Negotiating) (peer : Peer) (limits : QuirkLimits)
      (formats : List FormatDesc) (uninitialised : Int × Int) :
      Step s w s (w.note (.selecting peer limits formats uninitialised))
  | writeFormat {s w} (hgrip : s.Negotiating) (sel : Selection)
      (hsel : sel ∈ scanned g w.log) :
      Step s w s { w with stream := { w.stream with frameFormat := sel.frameFormat.getD w.stream.frameFormat } }
  | writeMode {s w} (hgrip : s.Negotiating) (sel : Selection)
      (hsel : sel = selected g w.log) (haccepted : sel.accepted.isSome) :
      Step s w s
        { w with
          stream := { w.stream with
            frameInterval := Int.tdiv 1000000000 sel.framerate
            negotiatedWidth := sel.width
            negotiatedHeight := sel.height }
          own := { w.own with negotiatedFramerate := sel.framerate } }
  | setCaps {s w} (hgrip : s.Negotiating) (caps : List (Structure Codec))
      (hcaps : (selected g w.log).accepted = some caps) (hfixed : capsFixed caps = true) :
      Step s w s (w.note (.setCaps caps))
  | load {s w} (hgrip : s.Negotiating) (key : SpsppsKey) (file : Option (List Byte)) :
      Step s w s
        ({ w with
            stream := match file with
              | none => w.stream
              | some bytes =>
                (parseNalUnits w.stream.frameFormat 3 (bytes.take (spsppsBufSz * 3))).foldl
                  loadSpspps.loadUnit w.stream }.note (.load key file))
  | settle {grip w} (hgrip : grip = .opened ∨ grip = .running) (caps : List (Structure Codec))
      (hcaps : (selected g w.log).accepted = some caps)
      (hmode : w.mode = ⟨w.stream.frameFormat, (selected g w.log).width, (selected g w.log).height,
        (selected g w.log).framerate⟩)
      (hformat : some w.stream.frameFormat = (selected g w.log).frameFormat)
      (hpad : capsFixed caps = true → padCaps w.log = some caps) (hagrees : Agrees w.mode w) :
      Step ⟨grip, .fresh⟩ w ⟨if grip = .opened then .ready else grip, .negotiated⟩ w

/-- What a chain of steps gets to from a new element. -/
inductive Staged (budget : Nat) : Stage → World → Prop where
  | init : Staged budget ⟨.bare, .fresh⟩ (.init budget)
  | step {s w s' w'} : Staged budget s w → Step g s w s' w' → Staged budget s' w'

end Step

/-! ## What the fields hold at a grip -/

/-- What the grip says about the fields of the instance; `handles` are the open ones. -/
structure Grip.Fields (grip : Grip) (uvcCtx : Bool) (uvcDev : Option Device) (uvcDevh : Option Nat)
    (isStreaming : Bool) (handles : List Nat) : Prop where
  ctx : grip ≠ .stray → uvcCtx = decide (grip ≠ .bare)
  dev : uvcDev.isSome = grip.isHeld
  devh : uvcDevh.isSome = grip.isOpen
  valid : ∀ h, uvcDevh = some h → h ∈ handles
  streaming : grip ≠ .stray → isStreaming = grip.isStreaming

def Grip.Holds (grip : Grip) (w : World) : Prop :=
  grip.Fields w.own.uvcCtx w.own.uvcDev w.own.uvcDevh w.own.streaming (openHandles w.log)

/-- A grip that differs in nothing that shows. -/
theorem Grip.Holds.congr {grip grip' : Grip} {w : World} (h : grip.Holds w) (hstray : grip ≠ .stray)
    (hbare : grip' = .bare ↔ grip = .bare) (hheld : grip'.isHeld = grip.isHeld)
    (hopen : grip'.isOpen = grip.isOpen) (hstreaming : grip'.isStreaming = grip.isStreaming) : grip'.Holds w where
  ctx _ := by
    rw [h.ctx hstray]
    simp only [ne_eq, hbare]
  dev := h.dev.trans hheld.symm
  devh := h.devh.trans hopen.symm
  valid := h.valid
  streaming _ := (h.streaming hstray).trans hstreaming.symm

theorem openHandles_others (w : World) (others : List Interference) (budget : Nat) :
    openHandles (w.others others budget).log = openHandles w.log :=
  (others_calm w others budget).eq (f := fun _ log => openHandles log) fun _ e _ he => by
    cases e <;> first | rfl | exact he.elim

theorem called_holds {s : Stage} {w : World} {call : VCall} (htakes : s.Takes call) (h : s.grip.Holds w) :
    (s.called call).grip.Holds w := by
  have hstray : s.grip = .bare ∨ s.grip = .vacant → Grip.stray.Holds w := by
    intro hgrip
    refine ⟨by simp, ?_, ?_, h.valid, by simp⟩
    · rw [h.dev]
      rcases hgrip with hgrip | hgrip <;> rw [hgrip] <;> rfl
    · rw [h.devh]
      rcases hgrip with hgrip | hgrip <;> rw [hgrip] <;> rfl
  obtain ⟨grip, progress⟩ := s
  cases call
  case negotiate =>
    cases grip
    case ready => exact h.congr (by simp) (by simp [Stage.called]) rfl rfl rfl
    case opened | running => exact h
    case bare => exact hstray (Or.inl rfl)
    case vacant => exact hstray (Or.inr rfl)
    all_goals exact htakes.1.elim
  case create =>
    cases grip
    case ready | running => exact h
    case bare => exact hstray (Or.inl rfl)
    case vacant => exact hstray (Or.inr rfl)
    case opened => exact absurd rfl htakes.2.1
    all_goals exact htakes.1.1.elim
  all_goals exact h

theorem Step.holds {g : Gst} {s s' : Stage} {w w' : World} (hs : Step g s w s' w') (h : s.grip.Holds w) :
    s'.grip.Holds w' := by
  cases hs
  case others others budget =>
    unfold Grip.Holds
    rw [openHandles_others, others_own]
    exact h
  case plain e he => cases e <;> first | exact h | exact he.elim
  case call call htakes => exact called_holds htakes h
  case init n res =>
    by_cases hres : res < 0
    · simp only [if_pos hres]
      exact h
    · simp only [if_neg hres]
      exact ⟨fun _ => rfl, h.dev, h.devh, h.valid, fun _ => h.streaming nofun⟩
  case exit => exact ⟨fun _ => rfl, h.dev, h.devh, h.valid, fun _ => h.streaming nofun⟩
  case lookFor n devs => cases devs <;> exact h
  case find => exact h.congr (by simp) (by simp) rfl rfl rfl
  case hold dev => exact ⟨fun _ => h.ctx nofun, rfl, h.devh, h.valid, fun _ => h.streaming nofun⟩
  case release => exact h.congr (by simp) (by simp) rfl rfl rfl
  case unref => exact ⟨fun _ => h.ctx nofun, rfl, h.devh, h.valid, fun _ => h.streaming nofun⟩
  case refused n dev grip res hres hgrip =>
    have hopen : openHandles (w.note (.openDevice dev (nextHandle w.log) res)).log = openHandles w.log :=
      if_pos hres
    unfold Grip.Holds
    rw [hopen]
    exact h
  case openHeld n dev res hres hdev =>
    refine ⟨fun _ => h.ctx nofun, h.dev, rfl, fun k hk => ?_, fun _ => h.streaming nofun⟩
    obtain rfl := Option.some.inj hk
    show _ ∈ (if res < 0 then _ else _)
    rw [if_neg hres]
    exact List.mem_cons_self
  case openFound n dev res hres =>
    refine ⟨fun _ => h.ctx nofun, rfl, rfl, fun k hk => ?_, fun _ => h.streaming nofun⟩
    obtain rfl := Option.some.inj hk
    show _ ∈ (if res < 0 then _ else _)
    rw [if_neg hres]
    exact List.mem_cons_self
  case close n grip hgrip k hdevh =>
    rcases hgrip with rfl | rfl <;> exact ⟨fun _ => h.ctx nofun, h.dev, rfl, nofun, fun _ => h.streaming nofun⟩
  case agree => exact h.congr (by simp) (by simp) rfl rfl rfl
  case begin n grip hgrip =>
    rcases hgrip with rfl | rfl
    · exact ⟨fun _ => h.ctx nofun, h.dev, h.devh, h.valid, fun _ => rfl⟩
    · exact ⟨fun hs => absurd rfl hs, h.dev, h.devh, h.valid, fun hs => absurd rfl hs⟩
  case start n grip hgrip hn reply hres =>
    rcases hgrip with rfl | rfl <;>
      exact ⟨fun _ => h.ctx nofun, h.dev, h.devh, h.valid, fun _ => rfl⟩
  case giveUp => exact ⟨fun _ => h.ctx nofun, h.dev, h.devh, h.valid, fun _ => rfl⟩
  case stopStream => exact ⟨fun _ => h.ctx nofun, h.dev, h.devh, h.valid, fun _ => rfl⟩
  case settle grip hgrip caps hcaps hmode hformat hpad hagrees =>
    rcases hgrip with rfl | rfl
    · exact h.congr (by simp) (by simp) rfl rfl rfl
    · exact h
  all_goals exact h

theorem Staged.holds {g : Gst} {budget : Nat} {s : Stage} {w : World} (h : Staged g budget s w) :
    s.grip.Holds w := by
  induction h with
  | init => exact ⟨fun _ => rfl, rfl, rfl, nofun, fun _ => rfl⟩
  | step _ hs ih => exact hs.holds ih

/-! ## The properties -/

theorem interfere_props (w : World) (i : Interference) : (interfere w i).props = w.props.set i := by
  match i with
  | .frame arrival data =>
    show (feed w arrival data).props = w.props
    unfold feed
    split <;> rfl
  | .unlock | .unlockStop | .setClock _ | .changeState _ => rfl
  | .setProperty property => cases property <;> rfl

theorem foldl_interfere_props (others : List Interference) (w : World) :
    (others.foldl interfere w).props = others.foldl Props.set w.props := by
  induction others generalizing w with
  | nil => rfl
  | cons i rest ih => rw [List.foldl_cons, ih, interfere_props, List.foldl_cons]

theorem propsOf_interfere (w : World) (i : Interference) : propsOf (interfere w i).log = propsOf w.log := by
  match i with
  | .frame arrival data =>
    show propsOf (feed w arrival data).log = _
    unfold feed
    split
    · rfl
    · show propsOf (List.map _ _ ++ w.log) = _
      generalize (frameCallback w.stream arrival data).pushed.reverse = bufs
      induction bufs with
      | nil => rfl
      | cons buf rest ih => exact ih
  | .unlock | .unlockStop | .setClock _ | .changeState _ => rfl
  | .setProperty property => cases property <;> rfl

theorem propsOf_foldl_interfere (others : List Interference) (w : World) :
    propsOf (others.foldl interfere w).log = propsOf w.log := by
  induction others generalizing w with
  | nil => rfl
  | cons i rest ih => rw [List.foldl_cons, ih, propsOf_interfere]

theorem Step.props {g : Gst} {s s' : Stage} {w w' : World} (hs : Step g s w s' w')
    (h : w.props = propsOf w.log) : w'.props = propsOf w'.log := by
  cases hs
  case others others budget =>
    show (others.foldl interfere _).props = propsOf (others.foldl interfere _).log
    rw [foldl_interfere_props, propsOf_foldl_interfere]
    exact congrArg (others.foldl Props.set) h
  case plain e he => cases e <;> first | exact h | exact he.elim
  case lookFor n devs => cases devs <;> exact h
  all_goals exact h

theorem Staged.props {g : Gst} {budget : Nat} {s : Stage} {w : World} (h : Staged g budget s w) :
    w.props = propsOf w.log := by
  induction h with
  | init => rfl
  | step _ hs ih => exact hs.props ih

end LibuvcH264Src
