import LibuvcH264Src.Recovery
import LibuvcH264Src.Runs

/-!
# The virtual methods and the runs of the element

* `start`, `stop`, `create` : the calls of the base class, `negotiate` being the fourth;
* `Host`, `hostStep` : the order in which the base class makes them, among what the other threads do.
-/

namespace LibuvcH264Src
open AnnexB Caps Prog

/-- `DISCONNECT_TIMEOUT_COUNT`. -/
def disconnectTimeoutCount : Nat := 5

section VMethods
variable (env : Env)

/-! ## Stop and start -/

def stop : Prog World Unit := do
  modifyOwn fun self => { self with recoveryTarget := none }
  let self := (← get).own
  when (self.streaming = true) (stopDevh env)
  drainQueue env
  closeDevh env
  unrefDevice
  when (self.uvcCtx = true) (uvcExit env)

/-- What `finalize` releases besides is memory of its own. -/
def finalize : Prog World Unit := stop env

/-- The per-session state that `start` resets. -/
def resetSession (self : Own) : Own :=
  { self with
    consecutiveTimeouts := 0
    resetRecoveryUsed := false
    framesSinceReset := 0
    deepRecoveryUsed := false
    recoveryTarget := none }

/-- From the open context to the open handle. -/
def openSelected (selector : DeviceSelector) (deadline : Int) : Prog World Bool := do
  let found ← resolveDevice env selector deadline
  let index := (← get).stream.index
  match found with
  | .error enumFailed =>
    record (.error (if enumFailed then .noDevices else .noMatch index))
    uvcExit env
    return false
  | .ok (dev, ordinal) =>
    modifyOwn fun self => { self with uvcDev := some dev }
    let res ← uvcOpen env dev
    if res < 0 then
      record (.error (.openFailed ordinal res))
      unrefDevice
      uvcExit env
      return false
    else return true

/-- Only a start behind a forced cleanup polls for the device. -/
def resolveDeadline (forcedCleanup : Bool) : Prog World Int := do
  if forcedCleanup then
    let budgetMs := (← readProps env).resetSettleMaxMs
    let now ← monotonicTime env
    return now + budgetMs.toNat * 1000
  else return 0

/-- The start behind the cleanup. -/
def startSession (forcedCleanup : Bool) : Prog World Bool := do
  modifyStream resetStream
  modifyOwn resetSession
  record .sessionReset
  let index := (← get).stream.index
  match parseSelector index with
  | .error reason =>
    record (.error (.invalidIndex index reason))
    return false
  | .ok selector =>
    let res ← uvcInit env
    if res < 0 then return false
    else
      let deadline ← resolveDeadline env forcedCleanup
      openSelected env selector deadline

def start : Prog World Bool := do
  let self := (← get).own
  let forcedCleanup := self.uvcCtx || self.uvcDevh.isSome
  when (forcedCleanup = true) (stop env)
  startSession env forcedCleanup

/-! ## Create -/

inductive FlowReturn where
  | ok (buf : GstBuffer)
  | flushing
  | error
  deriving DecidableEq

/-- The second start, for a refused payload override. -/
def startFallback (res : Int) : Prog World Int := do
  let requested := (← readProps env).maxPayload
  if requested > 0 then
    let w ← get
    if ← negotiateCleanPayload env w.stream.negotiatedWidth w.stream.negotiatedHeight
        w.own.negotiatedFramerate then
      uvcStartStreaming env
    else return res
  else return res

/-- The start of the stream; `false` where it failed for good. -/
def createStart : Prog World Bool := do
  modifyStream fun self => { self with baseTime := clockTimeNone, prevPts := clockTimeNone }
  modifyOwn fun self => { self with streaming := true }
  applyTransferBuffers env
  let first ← uvcStartStreaming env
  let res ← (if first < 0 then startFallback env first else pure first)
  if res < 0 then
    modifyOwn fun self => { self with streaming := false }
    record (.error (.uvc res "starting UVC stream"))
    return false
  else return true

/-- What is tried behind sustained silence. -/
def recoverSilence : Prog World Bool := do
  if (← readProps env).reconnect then reconnect env
  else if (← get).own.resetRecoveryUsed then return false
  else if (← readProps env).autoPortReset then
    modifyOwn fun self => { self with resetRecoveryUsed := true, framesSinceReset := 0 }
    record .wedgeRecovery
    recoverWedgedDevice env
  else return false

/-- A pop that timed out. -/
def createTimeout : Prog World (Unit ⊕ FlowReturn) := do
  modifyOwn fun self => { self with consecutiveTimeouts := self.consecutiveTimeouts + 1 }
  if (← get).own.consecutiveTimeouts < disconnectTimeoutCount then return .inl ()
  else
    record .silent
    if ← recoverSilence env then
      modifyOwn fun self => { self with consecutiveTimeouts := 0 }
      return .inl ()
    else if ← isFlushing env then return .inr .flushing
    else
      record (.error .disconnected)
      return .inr .error

/-- The count of the frames behind a port reset, up to the one that arms it again. -/
def countFrame : Prog World Unit := do
  if (← get).own.resetRecoveryUsed then
    let rearmFrames := (← readProps env).resetRearmFrames
    modifyOwn fun self =>
      { self with
        framesSinceReset := self.framesSinceReset + 1
        resetRecoveryUsed := decide (self.framesSinceReset + 1 < rearmFrames) }
    record (.returned (some rearmFrames))
  else record (.returned none)

def createTurn (_ : Unit) : Prog World (Unit ⊕ FlowReturn) := do
  let item ← queueTimeoutPop env
  if ← isFlushing env then
    record (.discarded item.toList)
    return .inr .flushing
  else
    match item with
    | none => createTimeout env
    | some .flushSentinel =>
      modifyOwn fun self => { self with consecutiveTimeouts := 0 }
      return .inl ()
    | some (.buffer buf) =>
      modifyOwn fun self => { self with consecutiveTimeouts := 0 }
      countFrame env
      return .inr (.ok buf)

def create : Prog World FlowReturn := do
  let started ← (if (← get).own.streaming then pure true else createStart env)
  if started then forever (createTurn env) ()
  else return .error

end VMethods

/-! ## The base class -/

/-- Where the element stands: `stopped`, or started, with the last negotiation of the session having
succeeded or not, or in the middle of a call where the observation ends. -/
inductive Phase where
  | stopped
  | started (negotiated : Bool)
  | ended
  deriving DecidableEq

structure Host where
  phase : Phase
  world : World

/-- The base class makes a call, or another thread does something between two calls. -/
inductive HostEvent where
  | call (call : VCall)
  | other (interference : Interference)

section Host
variable (env : Env) (g : Gst)

/-- The phase behind a call. -/
def Host.after {α : Type} (p : Prog World α) (next : α → Phase) (w : World) : Host :=
  match p w with
  | (some a, w') => ⟨next a, w'⟩
  | (none, w') => ⟨.ended, w'⟩

/-- The log notes what comes. -/
def World.note (w : World) (e : Event) : World := { w with log := e :: w.log }

/-- `negotiate` and `create` only run in a started element, and `create` only behind a successful
negotiation. The element can be started again, and given up, without a stop: both clean up by themselves. -/
def hostStep (h : Host) (e : HostEvent) : Option Host :=
  match e, h.phase with
  | _, .ended => none
  | .other others, _ => some { h with world := interfere (h.world.note (.meanwhile [others])) others }
  | .call .start, _ =>
    some (Host.after (start env) (fun ok => if ok then .started false else .stopped)
      (h.world.note (.called .start)))
  | .call .negotiate, .started _ =>
    some (Host.after (negotiate env g) .started (h.world.note (.called .negotiate)))
  | .call .create, .started true =>
    some (Host.after (create env) (fun _ => .started true) (h.world.note (.called .create)))
  | .call .stop, _ => some (Host.after (stop env) (fun _ => .stopped) (h.world.note (.called .stop)))
  | .call .finalize, _ => some (Host.after (finalize env) (fun _ => .ended) (h.world.note (.called .finalize)))
  | _, _ => none

/-- A new element, observed for `budget` turns. -/
def Host.init (budget : Nat) : Host := ⟨.stopped, .init budget⟩

/-- The hosts that a new element can get to. -/
def Reaches (budget : Nat) (es : List HostEvent) (h : Host) : Prop :=
  Runs.run (hostStep env g) (.init budget) es = some h

end Host

/-! ## One camera -/

def camera : Device := ⟨0, 1, 1, some ⟨0x1234, 0x5678, none⟩⟩

/-- The camera has one H.264 mode. -/
def cameraFormats : List FormatDesc :=
  [⟨ascii ['H', '2', '6', '4'], [⟨1920, 1080, some [333333], 333333, 333333⟩]⟩]

/-- A peer that takes any caps. -/
def anyPeer : Peer where
  intersect d := [d]
  sound d s hs _ _ := by
    rw [List.mem_singleton.mp hs]
    exact ⟨rfl, rfl, rfl⟩
  rates d s hs _ r hr := by
    rw [List.mem_singleton.mp hs] at hr
    exact hr

/-- It does what it is asked. -/
def willing : Request → Reply
  | .probe mode => ⟨0, ⟨some mode, 3072⟩⟩
  | .payload ctrl => ⟨0, ctrl⟩
  | .transferBuffers _ => ⟨0, ⟨none, 0⟩⟩
  | .start ctrl => ⟨0, ctrl⟩

/-- The camera is on the bus, and nobody interferes. -/
def oneCamera : Env where
  meanwhile _ := []
  uvcInit _ := 0
  uvcFindDevices _ := some [camera]
  uvcOpen _ _ := 0
  reply _ := willing
  probed _ _ _ := rfl
  reprobed _ _ _ := rfl
  formatDescs _ := cameraFormats
  deviceIds _ := none
  peer _ := anyPeer
  uninitialised _ := (0, 0)
  readFile _ _ := none
  monotonicTime _ := 0
  signalled _ _ := false
  resetDevice _ := some 0
  captureTarget _ _ _ := none
  deepRecoveryRun _ _ := .noTarget

end LibuvcH264Src
