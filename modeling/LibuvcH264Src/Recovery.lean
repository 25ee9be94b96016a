import LibuvcH264Src.Negotiate

/-!
# Reconnect and recovery

* `resolveDevice`, `reopenOnce` : one way back to a running stream;
* `reconnectBounded` : the ladder of attempts behind growing waits;
* `recoverWedgedDevice` : the port reset, then reopens until a frame arrives, then one escalation.
-/

namespace LibuvcH264Src
open AnnexB Caps Prog

/-- `RESET_POLL_INITIAL_MS` and `RESET_POLL_MAX_MS`. -/
def resetPollInitialMs : Nat := 25

def resetPollMaxMs : Nat := 200

/-- `RECONNECT_MAX_RETRIES`. -/
def reconnectMaxRetries : Nat := 5

/-- `TIMEOUT_DURATION`, in microseconds. -/
def timeoutDuration : Int := 1000000

section Recovery
variable (env : Env)

/-- `uvc_find_devices`. -/
def uvcFindDevices : Prog World (Option (List Device)) := do
  turn env
  let devs ← ask env.uvcFindDevices
  record (.findDevices devs)
  return devs

/-- A referenced device and its ordinal, or whether the enumeration failed. -/
def resolveDevice (selector : DeviceSelector) (deadline : Int) : Prog World (Except Bool (Device × Nat)) :=
  forever (fun intervalMs => do
    let devs ← uvcFindDevices env
    match devs.bind (findMatching selector 0) with
    | some found =>
      record (.refDevice found.1)
      record .freeDeviceList
      return .inr (.ok found)
    | none =>
      when devs.isSome (record .freeDeviceList)
      if deadline = 0 then return .inr (.error devs.isNone)
      else
        let now ← monotonicTime env
        if now ≥ deadline then return .inr (.error devs.isNone)
        else
          let awake ← interruptibleWait env (intervalMs * 1000 : Nat)
          return if awake then .inl (min (intervalMs * 2) resetPollMaxMs)
            else .inr (.error devs.isNone)) resetPollInitialMs

/-- `deadline != 0 && g_get_monotonic_time() >= deadline`. -/
def pastDeadline (deadline : Int) : Prog World Bool := do
  if deadline = 0 then return false
  else
    let now ← monotonicTime env
    return now ≥ deadline

def closeDevh : Prog World Unit := do
  match (← get).own.uvcDevh with
  | none => return ()
  | some handle => uvcClose env handle

/-- The failure exit of `reopen_once` behind the open. -/
def closeAndUnref : Prog World Unit := do
  closeDevh env
  unrefDevice

/-- From the open handle to the running stream. -/
def rearmAndStart (deadline : Int) : Prog World Bool := do
  let w ← get
  applyMaxPayload env w.stream.negotiatedWidth w.stream.negotiatedHeight w.own.negotiatedFramerate
  modifyStream rearmStream
  applyTransferBuffers env
  let late ← pastDeadline env deadline
  let res ← (if late then pure (-1) else uvcStartStreaming env)
  if res < 0 then
    closeAndUnref env
    return false
  else
    modifyOwn fun self => { self with streaming := true }
    return true

def reopenOnce (selector : DeviceSelector) (deadline : Int) : Prog World Bool := do
  let found ← resolveDevice env selector deadline
  match found with
  | .error _ => return false
  | .ok (selected, _) =>
    if ← pastDeadline env deadline then
      record (.unrefDevice selected)
      return false
    else
      let res ← uvcOpen env selected
      if res < 0 then
        modifyOwn fun self => { self with uvcDevh := none }
        record (.unrefDevice selected)
        return false
      else
        modifyOwn fun self => { self with uvcDev := some selected }
        let w ← get
        let late ← pastDeadline env deadline
        let res ← (if late then pure (-1) else
          getStreamCtrlFormatSize env w.stream.negotiatedWidth w.stream.negotiatedHeight
            w.own.negotiatedFramerate)
        if res < 0 then
          closeAndUnref env
          return false
        else rearmAndStart env deadline

/-- The stop of a stream on the handle, if there is one. -/
def stopDevh : Prog World Unit := do
  match (← get).own.uvcDevh with
  | none => return ()
  | some handle =>
    uvcStopStreaming env handle
    modifyOwn fun self => { self with streaming := false }

def teardownHandle : Prog World Unit := do
  stopDevh env
  closeDevh env
  unrefDevice

/-- Pops until the queue is empty. -/
def drainQueue : Prog World Unit := do
  turn env
  modify fun w => { w with queue := [], log := .discarded w.queue :: w.log }

/-! ## The reconnect ladder -/

/-- The wait in front of an attempt and the attempt, with what follows one that failed. -/
def reconnectAttempt (selector : DeviceSelector) (backoffS : Nat) (further : Prog World Bool) :
    Prog World Bool := do
  if ← interruptibleWait env (backoffS * 1000000 : Nat) then
    if ← reopenOnce env selector 0 then return true
    else further
  else return false

/-- The attempts that are left. -/
def reconnectAttempts (selector : DeviceSelector) : Nat → Nat → Prog World Bool
  | 0, _ => return false
  | left + 1, backoffS =>
    reconnectAttempt env selector backoffS (reconnectAttempts selector left (backoffS * 2))

def reconnectBounded (maxRetries : Nat) : Prog World Bool := do
  match parseSelector (← get).stream.index with
  | .error _ => return false
  | .ok selector =>
    teardownHandle env
    drainQueue env
    reconnectAttempts env selector maxRetries 1

def reconnect : Prog World Bool := reconnectBounded env reconnectMaxRetries

/-! ## The wedge recovery -/

/-- `gst_libuvc_h264_src_await_first_frame`: the frame is put back in front. -/
def awaitFirstFrame (waitUs : Int) : Prog World Bool := do
  let now ← monotonicTime env
  forever (fun deadline => do
    let now ← monotonicTime env
    if deadline - now ≤ 0 then return .inr false
    else
      let item ← queueTimeoutPop env
      match item with
      | none => return .inr false
      | some item =>
        if ← isFlushing env then
          record (.discarded [item])
          return .inr false
        else if item = .flushSentinel then return .inl deadline
        else
          modify fun w => { w with queue := item :: w.queue }
          return .inr true) (now + waitUs)

/-- `libusb_reset_device` on the live handle. `LIBUSB_ERROR_NOT_FOUND` (-5) stands for a device that
was enumerated again. -/
def resetSilentDevice : Prog World Bool := do
  match (← get).own.uvcDevh with
  | none => return false
  | some _ =>
    turn env
    match ← ask env.resetDevice with
    | none => return false
    | some rc =>
      record (.portReset rc)
      return rc = 0 ∨ rc = -5

def captureRecoveryTarget : Prog World Unit := do
  match (← get).own.uvcDev with
  | none => modifyOwn fun self => { self with recoveryTarget := none }
  | some dev =>
    turn env
    let target ← ask fun log => env.captureTarget log dev.bus dev.addr
    modifyOwn fun self => { self with recoveryTarget := target }

/-- `usb_deep_recovery_run` on the captured target. -/
def usbDeepRecoveryRun : Prog World UsbDeepRecoveryOutcome := do
  turn env
  match (← get).own.recoveryTarget with
  | none => return .noTarget
  | some target => ask fun log => env.deepRecoveryRun log target

def deepRecovery : Prog World Bool := do
  let enabled := (← readProps env).deepPortRecovery
  if !enabled || (← get).own.deepRecoveryUsed then return false
  else
    modifyOwn fun self => { self with deepRecoveryUsed := true }
    record .deepRecovery
    let outcome ← usbDeepRecoveryRun env
    record (.deepOutcome outcome)
    return outcome = .deviceReprobed ∨ outcome = .portCycled

/-- The loop polls, reopens and asks for a frame until the deadline. -/
def settleUntilFrame (selector : DeviceSelector) (deadline : Int) : Prog World Bool :=
  forever (fun retryMs => do
    if ← isFlushing env then return .inr false
    else
      let now ← monotonicTime env
      if now ≥ deadline then return .inr false
      else if ← reopenOnce env selector deadline then
        let now ← monotonicTime env
        let proofUs := min (deadline - now) timeoutDuration
        let proven ← (if proofUs > 0 then awaitFirstFrame env proofUs else pure false)
        if proven then return .inr true
        else
          teardownHandle env
          drainQueue env
          return .inl retryMs
      else
        let awake ← interruptibleWait env (retryMs * 1000 : Nat)
        return if awake then .inl (min (retryMs * 2) resetPollMaxMs) else .inr false)
    resetPollInitialMs

/-- `uvc_exit` and `uvc_init`: a context must not straddle an enumeration. -/
def renewContext : Prog World Bool := do
  uvcExit env
  let res ← uvcInit env
  if res < 0 then
    modifyOwn fun self => { self with uvcCtx := false }
    return false
  else return true

/-- The escalation, and the second pass behind it. -/
def escalate (selector : DeviceSelector) (budgetMs : UInt32) : Prog World Bool := do
  if ← isFlushing env then return false
  else if ← deepRecovery env then
    if ← renewContext env then
      let now ← monotonicTime env
      settleUntilFrame env selector (now + budgetMs.toNat * 1000)
    else return false
  else return false

def recoverWedgedDevice : Prog World Bool := do
  match parseSelector (← get).stream.index with
  | .error _ => return false
  | .ok selector =>
    captureRecoveryTarget env
    if ← resetSilentDevice env then
      let budgetMs := (← readProps env).resetSettleMaxMs
      let started ← monotonicTime env
      teardownHandle env
      drainQueue env
      if ← renewContext env then
        if ← settleUntilFrame env selector (started + budgetMs.toNat * 1000) then return true
        else escalate env selector budgetMs
      else return false
    else return false

end Recovery

end LibuvcH264Src
