import LibuvcH264Src.DeviceSelector
import LibuvcH264Src.FrameOutput
import LibuvcH264Src.Quirks
import LibuvcH264Src.Prog

/-!
# The element and what is around it

* `Own`, `Props`, `World` : the instance, its frame queue and the log of what it asked of libuvc and
  GStreamer;
* `Interference` : what the other threads do between two calls;
* `Env` : the answers, each a function of the log;
* `turn`, `ask`, `record` : the three ways in which a program touches the world outside;
* `openHandles`, `runningStream` : what the log says about libuvc.
-/

namespace LibuvcH264Src
open AnnexB Caps Prog

/-! ## Stream controls -/

/-- What `uvc_get_stream_ctrl_format_size` is asked for. -/
structure StreamMode where
  format : FrameFormat
  width : Int
  height : Int
  fps : Int
  deriving DecidableEq

/-- `uvc_stream_ctrl_t`, as far as the element is concerned: the mode that its indices and its frame
interval stand for, if they stand for one, and the payload size. -/
structure StreamCtrl where
  mode : Option StreamMode
  dwMaxPayloadTransferSize : UInt32
  deriving DecidableEq

/-- A call on an open handle. -/
inductive Request where
  | probe (mode : StreamMode)
  | payload (ctrl : StreamCtrl)
  | transferBuffers (count : UInt8)
  | start (ctrl : StreamCtrl)
  deriving DecidableEq

/-- Its answer: the status, and the control block that the call left behind. -/
structure Reply where
  res : Int
  ctrl : StreamCtrl
  deriving DecidableEq

/-- A call that succeeds leaves the mode it was asked for. -/
def Reply.Leaves (reply : Reply) (mode : Option StreamMode) : Prop := ¬ reply.res < 0 → reply.ctrl.mode = mode

/-- `UVC_ERROR_INVALID_MODE`. -/
def uvcErrorInvalidMode : Int := -51

/-- `UVC_ERROR_NOT_SUPPORTED`. -/
def uvcErrorNotSupported : Int := -12

/-! ## Descriptors and caps -/

structure FrameDesc where
  wWidth : UInt16
  wHeight : UInt16
  intervals : Option (List UInt32)
  dwMinFrameInterval : UInt32
  dwMaxFrameInterval : UInt32
  deriving DecidableEq

structure FormatDesc where
  fourccFormat : List Byte
  frameDescs : List FrameDesc
  deriving DecidableEq

/-- What the peer's caps and the template leave of one structure, by `gst_caps_intersect`. -/
structure Peer where
  intersect : Structure Codec → List (Structure Codec)
  sound : ∀ d, ∀ s ∈ intersect d, d.width.isSome → d.height.isSome →
    s.fields = d.fields ∧ s.width = d.width ∧ s.height = d.height
  rates : ∀ d, ∀ s ∈ intersect d, d.framerate ≠ .absent → ∀ r, s.framerate.Offers r → d.framerate.Offers r

/-! ## The instance -/

/-- `UsbRecoveryTarget`. -/
structure UsbRecoveryTarget where
  devicePath : List Byte
  portPath : List Byte
  vendorId : UInt16
  productId : UInt16
  deriving DecidableEq

/-- `UsbDeepRecoveryOutcome`. -/
inductive UsbDeepRecoveryOutcome where
  | noTarget
  | refusedSharedHub
  | refusedIdentity
  | unavailable
  | denied
  | failed
  | deviceReprobed
  | portCycled
  deriving DecidableEq

/-- The fields that only the calls of the base class write. -/
structure Own where
  uvcCtx : Bool
  uvcDev : Option Device
  uvcDevh : Option Nat
  uvcCtrl : StreamCtrl
  negotiatedFramerate : Int
  deliverableCaps : Option (List (Structure Codec))
  streaming : Bool
  consecutiveTimeouts : Nat
  resetRecoveryUsed : Bool
  framesSinceReset : UInt32
  maxPayloadEffective : UInt32
  transferBuffersEffective : UInt32
  deepRecoveryUsed : Bool
  recoveryTarget : Option UsbRecoveryTarget
  deriving DecidableEq

def Own.init : Own where
  uvcCtx := false
  uvcDev := none
  uvcDevh := none
  uvcCtrl := ⟨none, 0⟩
  negotiatedFramerate := 0
  deliverableCaps := none
  streaming := false
  consecutiveTimeouts := 0
  resetRecoveryUsed := false
  framesSinceReset := 0
  maxPayloadEffective := 0
  transferBuffersEffective := 0
  deepRecoveryUsed := false
  recoveryTarget := none

/-- The properties that the streaming thread reads; `index` is part of the stream state. -/
structure Props where
  reconnect : Bool
  maxPayload : UInt32
  transferBuffers : UInt32
  resetSettleMaxMs : UInt32
  resetRearmFrames : UInt32
  autoPortReset : Bool
  deepPortRecovery : Bool
  deriving DecidableEq

def Props.init : Props where
  reconnect := false
  maxPayload := 0
  transferBuffers := 0
  resetSettleMaxMs := 8000
  resetRearmFrames := 30
  autoPortReset := true
  deepPortRecovery := false

inductive Property where
  | index (value : Option (List Byte))
  | reconnect (value : Bool)
  | maxPayload (value : UInt32)
  | transferBuffers (value : UInt32)
  | resetSettleMaxMs (value : UInt32)
  | resetRearmFrames (value : UInt32)
  | autoPortReset (value : Bool)
  | deepPortRecovery (value : Bool)
  deriving DecidableEq

/-- What is in `frame_queue`. -/
inductive QueueItem where
  | buffer (buf : GstBuffer)
  | flushSentinel
  deriving DecidableEq

/-- What the other threads do: the feeder, the application and whoever unlocks the element. -/
inductive Interference where
  | frame (arrival : Arrival) (data : Option (List Byte))
  | unlock
  | unlockStop
  | setClock (clock : Bool)
  | changeState (transition : StateChange)
  | setProperty (property : Property)

/-- The calls of the base class, and the last one, of GObject. -/
inductive VCall where
  | start
  | negotiate
  | create
  | stop
  | finalize
  deriving DecidableEq

/-- What the element posts on the bus. -/
inductive ElementError where
  | invalidIndex (index : Option (List Byte)) (reason : String)
  | noDevices
  | noMatch (index : Option (List Byte))
  | openFailed (ordinal : Nat) (res : Int)
  | uvc (res : Int) (context : String)
  | disconnected

/-- One entry of the log. Some are no calls but notes: `sessionReset`, `silent`, `wedgeRecovery` and
`deepRecovery`, that the instance got there; `selecting`, what a mode is selected from; `cleanRefused`,
the mode that a clean re-negotiation was refused and the control block it left; `pushed`, a buffer that
the feeder queued; `discarded`, what was taken from the queue and dropped; `returned`, a buffer that
`create` returns, with the frames it asked for if it counted them. -/
inductive Event where
  | meanwhile (others : List Interference)
  | called (call : VCall)
  | init (res : Int)
  | exit
  | findDevices (devs : Option (List Device))
  | freeDeviceList
  | refDevice (dev : Device)
  | unrefDevice (dev : Device)
  | openDevice (dev : Device) (handle : Nat) (res : Int)
  | close (handle : Nat)
  | stopStreaming (handle : Nat)
  | formatDescs (handle : Option Nat)
  | request (handle : Option Nat) (req : Request) (reply : Reply)
  | selecting (peer : Peer) (limits : QuirkLimits) (formats : List FormatDesc)
      (uninitialised : Int × Int)
  | setCaps (caps : List (Structure Codec))
  | cleanRefused (mode : StreamMode) (left : StreamCtrl)
  | load (key : SpsppsKey) (file : Option (List Byte))
  | sessionReset
  | silent
  | wedgeRecovery
  | portReset (rc : Int)
  | deepRecovery
  | deepOutcome (outcome : UsbDeepRecoveryOutcome)
  | pop (item : Option QueueItem)
  | pushed (buf : GstBuffer)
  | discarded (items : List QueueItem)
  | returned (rearm : Option UInt32)
  | time (now : Int)
  | error (error : ElementError)

/-- The element with its queue, and the log, newest first. A run is observed for `budget` turns. -/
structure World where
  own : Own
  stream : StreamState
  props : Props
  flushing : Bool
  queue : List QueueItem
  log : List Event
  budget : Nat

def World.init (budget : Nat) : World where
  own := .init
  stream := .init
  props := .init
  flushing := false
  queue := []
  log := []
  budget := budget

/-! ## What the log says about libuvc -/

/-- The handles that are open. -/
def openHandles : List Event → List Nat
  | [] => []
  | .openDevice _ h res :: log => if res < 0 then openHandles log else h :: openHandles log
  | .close h :: log => (openHandles log).erase h
  | _ :: log => openHandles log

/-- The next handle, which no open one is equal to. -/
def nextHandle : List Event → Nat
  | [] => 0
  | .openDevice _ _ _ :: log => nextHandle log + 1
  | _ :: log => nextHandle log

/-- The running stream and the control block that it was started with. -/
def runningStream : List Event → Option (Nat × StreamCtrl)
  | [] => none
  | .request (some h) (.start ctrl) reply :: log =>
    if reply.res < 0 then runningStream log else some (h, ctrl)
  | .stopStreaming h :: log => (runningStream log).filter fun s => s.1 ≠ h
  | .close h :: log => (runningStream log).filter fun s => s.1 ≠ h
  | _ :: log => runningStream log

/-- The caps last set on the pad. -/
def padCaps : List Event → Option (List (Structure Codec))
  | [] => none
  | .setCaps caps :: _ => some caps
  | _ :: log => padCaps log

/-! ## The other threads -/

def unlock (w : World) : World := { w with flushing := true, queue := w.queue ++ [.flushSentinel] }

def unlockStop (w : World) : World :=
  { w with flushing := false, queue := [], log := .discarded w.queue :: w.log }

def setProperty (w : World) : Property → World
  | .index value => { w with stream := { w.stream with index := value } }
  | .reconnect value => { w with props := { w.props with reconnect := value } }
  | .maxPayload value => { w with props := { w.props with maxPayload := value } }
  | .transferBuffers value => { w with props := { w.props with transferBuffers := value } }
  | .resetSettleMaxMs value => { w with props := { w.props with resetSettleMaxMs := value } }
  | .resetRearmFrames value => { w with props := { w.props with resetRearmFrames := value } }
  | .autoPortReset value => { w with props := { w.props with autoPortReset := value } }
  | .deepPortRecovery value => { w with props := { w.props with deepPortRecovery := value } }

/-- The callback of the feeder, which only runs behind `uvc_start_streaming`. -/
def feed (w : World) (arrival : Arrival) (data : Option (List Byte)) : World :=
  if (runningStream w.log).isNone then w
  else
    let out := frameCallback w.stream arrival data
    { w with
      stream := out.self
      queue := w.queue ++ out.pushed.map .buffer
      log := out.pushed.reverse.map .pushed ++ w.log }

def interfere (w : World) : Interference → World
  | .frame arrival data => feed w arrival data
  | .unlock => unlock w
  | .unlockStop => unlockStop w
  | .setClock clock => { w with stream := setClock w.stream clock }
  | .changeState transition => { w with stream := changeState w.stream transition }
  | .setProperty property => setProperty w property

/-! ## The answers -/

/-- What is around the element: every answer may depend on all that was asked before. -/
structure Env where
  meanwhile : List Event → List Interference
  uvcInit : List Event → Int
  uvcFindDevices : List Event → Option (List Device)
  uvcOpen : List Event → Device → Int
  reply : List Event → Request → Reply
  /-- libuvc reads back what a probe has set, and refuses a disagreement. -/
  probed : ∀ log mode, (reply log (.probe mode)).Leaves (some mode)
  reprobed : ∀ log ctrl, (reply log (.payload ctrl)).Leaves ctrl.mode
  formatDescs : List Event → List FormatDesc
  /-- `uvc_get_device_descriptor` of the open device: vendor and product. -/
  deviceIds : List Event → Option (UInt16 × UInt16)
  peer : List Event → Peer
  /-- What is in `fr_num` and `fr_den` where nothing was stored in them. -/
  uninitialised : List Event → Int × Int
  readFile : List Event → SpsppsKey → Option (List Byte)
  monotonicTime : List Event → Int
  /-- `g_cond_wait_until`: woken before the deadline. -/
  signalled : List Event → Int → Bool
  /-- `libusb_reset_device`; `none` where there is no libusb handle. -/
  resetDevice : List Event → Option Int
  captureTarget : List Event → UInt8 → UInt8 → Option UsbRecoveryTarget
  deepRecoveryRun : List Event → UsbRecoveryTarget → UsbDeepRecoveryOutcome

section Primitives
variable (env : Env)

/-- The other threads have their turn. -/
def turn : Prog World Unit := fun w =>
  if w.budget = 0 then (none, w)
  else
    let others := env.meanwhile w.log
    let w' := others.foldl interfere { w with log := .meanwhile others :: w.log }
    (some (), { w' with budget := w.budget - 1 })

def ask {α : Type} (answer : List Event → α) : Prog World α := fun w => (some (answer w.log), w)

def record (e : Event) : Prog World Unit := modify fun w => { w with log := e :: w.log }

def modifyOwn (f : Own → Own) : Prog World Unit := modify fun w => { w with own := f w.own }

def modifyStream (f : StreamState → StreamState) : Prog World Unit :=
  modify fun w => { w with stream := f w.stream }

@[simp] theorem wp_record {I : World → Prop} {Q : Unit → World → Prop} {w : World} {e : Event} :
    wp I (record e) Q w ↔ Q () { w with log := e :: w.log } := Iff.rfl

@[simp] theorem wp_modifyOwn {I : World → Prop} {Q : Unit → World → Prop} {w : World}
    {f : Own → Own} : wp I (modifyOwn f) Q w ↔ Q () { w with own := f w.own } := Iff.rfl

@[simp] theorem wp_modifyStream {I : World → Prop} {Q : Unit → World → Prop} {w : World}
    {f : StreamState → StreamState} :
    wp I (modifyStream f) Q w ↔ Q () { w with stream := f w.stream } := Iff.rfl

@[simp] theorem wp_ask {α : Type} {I : World → Prop} {Q : α → World → Prop} {w : World}
    {answer : List Event → α} : wp I (ask answer) Q w ↔ Q (answer w.log) w := Iff.rfl

/-! ## The calls -/

/-- The atomic read of `flushing`. -/
def isFlushing : Prog World Bool := do
  turn env
  return (← get).flushing

/-- A locked read of the properties. -/
def readProps : Prog World Props := do
  turn env
  return (← get).props

def monotonicTime : Prog World Int := do
  turn env
  let now ← ask env.monotonicTime
  record (.time now)
  return now

def uvcInit : Prog World Int := do
  turn env
  let res ← ask env.uvcInit
  record (.init res)
  modifyOwn fun self => { self with uvcCtx := if res < 0 then self.uvcCtx else true }
  return res

/-- `uvc_exit`, and the `NULL` that is stored behind it. -/
def uvcExit : Prog World Unit := do
  turn env
  record .exit
  modifyOwn fun self => { self with uvcCtx := false }

/-- `uvc_open`. A refused open leaves the handle field alone. -/
def uvcOpen (dev : Device) : Prog World Int := do
  turn env
  let res ← ask fun log => env.uvcOpen log dev
  let handle ← ask nextHandle
  record (.openDevice dev handle res)
  modifyOwn fun self => { self with uvcDevh := if res < 0 then self.uvcDevh else some handle }
  return res

/-- `uvc_close`, and the `NULL` that is stored behind it. -/
def uvcClose (handle : Nat) : Prog World Unit := do
  turn env
  record (.close handle)
  modifyOwn fun self => { self with uvcDevh := none }

def uvcStopStreaming (handle : Nat) : Prog World Unit := do
  turn env
  record (.stopStreaming handle)

/-- `uvc_unref_device` of the device field, and the `NULL` that is stored behind it. -/
def unrefDevice : Prog World Unit := do
  match (← get).own.uvcDev with
  | none => return ()
  | some dev =>
    record (.unrefDevice dev)
    modifyOwn fun self => { self with uvcDev := none }

/-- A call that takes the device handle. Behind one without an open handle there is nothing to say: the
run ends there. -/
def withHandle (e : Option Nat → Event) : Prog World Unit := do
  let w ← get
  record (e w.own.uvcDevh)
  match w.own.uvcDevh with
  | none => cut
  | some handle => if handle ∈ openHandles w.log then return () else cut

def request (req : Request) : Prog World Reply := do
  turn env
  let reply ← ask fun log => env.reply log req
  withHandle fun handle => .request handle req reply
  return reply

def uvcGetFormatDescs : Prog World (List FormatDesc) := do
  turn env
  let formats ← ask env.formatDescs
  withHandle .formatDescs
  return formats

/-- `uvc_get_stream_ctrl_format_size` on the control block of the instance. -/
def getStreamCtrlFormatSize (width height fps : Int) : Prog World Int := do
  let mode : StreamMode := ⟨(← get).stream.frameFormat, width, height, fps⟩
  let reply ← request env (.probe mode)
  modifyOwn fun self => { self with uvcCtrl := reply.ctrl }
  return reply.res

/-- `uvc_probe_stream_ctrl` of the control block of the instance. -/
def uvcProbeStreamCtrl : Prog World Int := do
  let ctrl := (← get).own.uvcCtrl
  let reply ← request env (.payload ctrl)
  modifyOwn fun self => { self with uvcCtrl := reply.ctrl }
  return reply.res

/-- `uvc_start_streaming` with the control block of the instance. -/
def uvcStartStreaming : Prog World Int := do
  let ctrl := (← get).own.uvcCtrl
  let reply ← request env (.start ctrl)
  return reply.res

/-- `g_async_queue_timeout_pop`: the others may push while it waits. -/
def queueTimeoutPop : Prog World (Option QueueItem) := do
  turn env
  let item := (← get).queue.head?
  modify fun w => { w with queue := w.queue.tail }
  record (.pop item)
  return item

/-- A loop for as long as the run is observed. Each of its turns is a turn of the others. -/
def forever {α β : Type} (body : β → Prog World (β ⊕ α)) (b : β) : Prog World α :=
  loop World.budget body b

/-- The wait on `reconnect_cond` up to a deadline. -/
def parkUntil (deadline : Int) : Prog World Unit :=
  forever (fun _ => do
    if ← isFlushing env then return .inr ()
    else
      turn env
      let woken ← ask fun log => env.signalled log deadline
      return if woken then .inl () else .inr ()) ()

def interruptibleWait (waitUs : Int) : Prog World Bool := do
  when (waitUs > 0) do
    let now ← monotonicTime env
    parkUntil env (now + waitUs)
  return !(← isFlushing env)

end Primitives

end LibuvcH264Src
