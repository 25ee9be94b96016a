import LibuvcH264Src.Lifecycle
import LibuvcH264Src.Calls

/-!
# What the calls post on the bus

* `Blind` : the relations that do not see what the device is asked, nor the clock, the queue or the other threads;
* `Blind.*` : the programs that stay in every such relation;
* `posted` : the errors on the bus;
* `calls_report` : each call posts the error of its own failure, and no other.
-/

namespace LibuvcH264Src
open AnnexB Caps Prog

/-! ## Relations that do not see -/

/-- The fields by which `create` counts. -/
def Own.counters (self : Own) : Nat × Bool × UInt32 :=
  (self.consecutiveTimeouts, self.resetRecoveryUsed, self.framesSinceReset)

def Event.isError : Event → Bool
  | .error _ => true
  | _ => false

/-- What `R` does not see: the turn of the others, every entry of the log but an error, and every field but the
counters. -/
structure Blind (env : Env) (R : World → World → Prop) : Prop where
  turn : Stays R (turn env)
  record : ∀ {e : Event}, e.isError = false → Stays R (record e)
  own : ∀ {f : Own → Own}, (∀ self, (f self).counters = self.counters) → Stays R (modifyOwn f)
  stream : ∀ f : StreamState → StreamState, Stays R (modifyStream f)
  queue : ∀ (w : World) (items : List QueueItem), R w { w with queue := items }

namespace Blind

variable {env : Env} {R : World → World → Prop} [IsPreorder World R]

theorem ask {α : Type} (answer : List Event → α) : Stays R (ask answer) := fun w => Std.Refl.refl w

variable (h : Blind env R)
include h

/-! ### Reads and waits -/

theorem isFlushing : Stays R (isFlushing env) := by
  unfold LibuvcH264Src.isFlushing
  exact stays_bind h.turn fun _ => stays_bind stays_get fun _ => stays_pure _

theorem readProps : Stays R (readProps env) := by
  unfold LibuvcH264Src.readProps
  exact stays_bind h.turn fun _ => stays_bind stays_get fun _ => stays_pure _

theorem monotonicTime : Stays R (monotonicTime env) := by
  unfold LibuvcH264Src.monotonicTime
  refine stays_bind h.turn fun _ => stays_bind (ask _) fun now => ?_
  exact stays_bind (h.record rfl) fun _ => stays_pure _

theorem pastDeadline (deadline : Int) : Stays R (pastDeadline env deadline) := by
  unfold LibuvcH264Src.pastDeadline
  exact stays_ite (stays_pure _) (stays_bind h.monotonicTime fun _ => stays_pure _)

theorem interruptibleWait (waitUs : Int) : Stays R (interruptibleWait env waitUs) := by
  have hpark : ∀ deadline, Stays R (parkUntil env deadline) := by
    intro deadline
    unfold parkUntil forever
    refine stays_loop (fun _ => stays_bind h.isFlushing fun flushing => ?_) ()
    refine stays_ite (stays_pure _) (stays_bind h.turn fun _ => stays_bind (ask _) fun woken => ?_)
    exact stays_pure _
  unfold LibuvcH264Src.interruptibleWait
  refine stays_bind (stays_when (stays_bind h.monotonicTime fun now => hpark _)) fun _ => ?_
  exact stays_bind h.isFlushing fun _ => stays_pure _

theorem queueTimeoutPop : Stays R (queueTimeoutPop env) := by
  unfold LibuvcH264Src.queueTimeoutPop
  refine stays_bind h.turn fun _ => stays_bind stays_get fun w => ?_
  refine stays_bind (stays_modify fun w => h.queue w _) fun _ => ?_
  exact stays_bind (h.record rfl) fun _ => stays_pure _

theorem drainQueue : Stays R (drainQueue env) := by
  unfold LibuvcH264Src.drainQueue
  refine stays_bind h.turn fun _ => stays_modify fun w => ?_
  exact IsTrans.trans _ _ _ (h.queue w []) (h.record (e := .discarded w.queue) rfl { w with queue := [] })

/-! ### The context, the device and the handle -/

theorem uvcInit : Stays R (uvcInit env) := by
  unfold LibuvcH264Src.uvcInit
  refine stays_bind h.turn fun _ => stays_bind (ask _) fun res => stays_bind (h.record rfl) fun _ => ?_
  exact stays_bind (h.own fun _ => rfl) fun _ => stays_pure _

theorem uvcExit : Stays R (uvcExit env) := by
  unfold LibuvcH264Src.uvcExit
  exact stays_bind h.turn fun _ => stays_bind (h.record rfl) fun _ => h.own fun _ => rfl

theorem renewContext : Stays R (renewContext env) := by
  unfold LibuvcH264Src.renewContext
  refine stays_bind h.uvcExit fun _ => stays_bind h.uvcInit fun res => stays_ite ?_ (stays_pure _)
  exact stays_bind (h.own fun _ => rfl) fun _ => stays_pure _

theorem uvcOpen (dev : Device) : Stays R (uvcOpen env dev) := by
  unfold LibuvcH264Src.uvcOpen
  refine stays_bind h.turn fun _ => stays_bind (ask _) fun res => stays_bind (ask _) fun handle => ?_
  exact stays_bind (h.record rfl) fun _ => stays_bind (h.own fun _ => rfl) fun _ => stays_pure _

theorem closeDevh : Stays R (closeDevh env) := by
  unfold LibuvcH264Src.closeDevh uvcClose
  refine stays_bind stays_get fun w => ?_
  split
  · exact stays_pure _
  · exact stays_bind h.turn fun _ => stays_bind (h.record rfl) fun _ => h.own fun _ => rfl

theorem stopDevh : Stays R (stopDevh env) := by
  unfold LibuvcH264Src.stopDevh uvcStopStreaming
  refine stays_bind stays_get fun w => ?_
  split
  · exact stays_pure _
  · exact stays_bind (stays_bind h.turn fun _ => h.record rfl) fun _ => h.own fun _ => rfl

theorem unrefDevice : Stays R unrefDevice := by
  unfold LibuvcH264Src.unrefDevice
  refine stays_bind stays_get fun w => ?_
  split
  · exact stays_pure _
  · exact stays_bind (h.record rfl) fun _ => h.own fun _ => rfl

theorem closeAndUnref : Stays R (closeAndUnref env) := stays_bind h.closeDevh fun _ => h.unrefDevice

theorem teardownHandle : Stays R (teardownHandle env) :=
  stays_bind h.stopDevh fun _ => stays_bind h.closeDevh fun _ => h.unrefDevice

theorem stop : Stays R (stop env) := by
  unfold LibuvcH264Src.stop
  refine stays_bind (h.own fun _ => rfl) fun _ => stays_bind stays_get fun w => ?_
  refine stays_bind (stays_when h.stopDevh) fun _ => stays_bind h.drainQueue fun _ => ?_
  refine stays_bind h.closeDevh fun _ => stays_bind h.unrefDevice fun _ => ?_
  exact stays_when h.uvcExit

/-! ### Requests -/

theorem withHandle {e : Option Nat → Event} (he : ∀ handle, (e handle).isError = false) : Stays R (withHandle e) := by
  unfold LibuvcH264Src.withHandle
  refine stays_bind stays_get fun w => stays_bind (h.record (he _)) fun _ => ?_
  split
  · exact stays_cut
  · exact stays_ite (stays_pure _) stays_cut

theorem request (req : Request) : Stays R (request env req) := by
  unfold LibuvcH264Src.request
  refine stays_bind h.turn fun _ => stays_bind (ask _) fun reply => ?_
  exact stays_bind (h.withHandle fun _ => rfl) fun _ => stays_pure _

theorem uvcGetFormatDescs : Stays R (uvcGetFormatDescs env) := by
  unfold LibuvcH264Src.uvcGetFormatDescs
  refine stays_bind h.turn fun _ => stays_bind (ask _) fun formats => ?_
  exact stays_bind (h.withHandle fun _ => rfl) fun _ => stays_pure _

theorem getStreamCtrlFormatSize (width height fps : Int) : Stays R (getStreamCtrlFormatSize env width height fps) := by
  unfold LibuvcH264Src.getStreamCtrlFormatSize
  refine stays_bind stays_get fun w => stays_bind (h.request _) fun reply => ?_
  exact stays_bind (h.own fun _ => rfl) fun _ => stays_pure _

theorem uvcProbeStreamCtrl : Stays R (uvcProbeStreamCtrl env) := by
  unfold LibuvcH264Src.uvcProbeStreamCtrl
  refine stays_bind stays_get fun w => stays_bind (h.request _) fun reply => ?_
  exact stays_bind (h.own fun _ => rfl) fun _ => stays_pure _

theorem uvcStartStreaming : Stays R (uvcStartStreaming env) := by
  unfold LibuvcH264Src.uvcStartStreaming
  exact stays_bind stays_get fun w => stays_bind (h.request _) fun reply => stays_pure _

theorem probeStreamCtrl (width height framerate : Int) (policy : ProbePolicy) :
    Stays R (probeStreamCtrl env width height framerate policy) := by
  have hprobe := h.getStreamCtrlFormatSize width height framerate
  unfold LibuvcH264Src.probeStreamCtrl
  refine stays_bind (stays_when (stays_bind hprobe fun _ => stays_pure _)) fun _ => stays_bind hprobe fun res => ?_
  exact stays_ite hprobe (stays_pure _)

theorem negotiateCleanPayload (width height fps : Int) : Stays R (negotiateCleanPayload env width height fps) := by
  unfold LibuvcH264Src.negotiateCleanPayload
  refine stays_bind (h.getStreamCtrlFormatSize width height fps) fun res => stays_bind stays_get fun w => ?_
  apply stays_ite
  · exact stays_bind (h.record rfl) fun _ => stays_pure _
  · exact stays_bind (h.own fun _ => rfl) fun _ => stays_pure _

theorem applyMaxPayload (width height fps : Int) : Stays R (applyMaxPayload env width height fps) := by
  unfold LibuvcH264Src.applyMaxPayload
  refine stays_bind h.readProps fun props => stays_ite (h.own fun _ => rfl) ?_
  refine stays_bind (h.own fun _ => rfl) fun _ => stays_bind h.uvcProbeStreamCtrl fun res => ?_
  refine stays_bind stays_get fun w => stays_ite ?_ (h.own fun _ => rfl)
  exact stays_bind (h.negotiateCleanPayload width height fps) fun _ => stays_pure _

theorem applyTransferBuffers : Stays R (applyTransferBuffers env) := by
  unfold LibuvcH264Src.applyTransferBuffers
  refine stays_bind h.readProps fun props => stays_when ?_
  exact stays_bind (h.request _) fun reply => stays_when (h.own fun _ => rfl)

/-! ### Negotiation -/

theorem loadSpspps (key : SpsppsKey) : Stays R (loadSpspps env key) := by
  unfold LibuvcH264Src.loadSpspps
  refine stays_bind h.turn fun _ => stays_bind (ask _) fun file => stays_bind (h.record rfl) fun _ => ?_
  split
  · exact stays_pure _
  · exact h.stream _

theorem writeFormats (selections : List Selection) : Stays R (writeFormats env selections) := by
  induction selections with
  | nil => exact stays_pure _
  | cons sel rest ih => exact stays_bind (h.stream _) fun _ => stays_bind h.turn fun _ => ih

theorem publishLadder (ladder : List (Structure Codec)) : Stays R (publishLadder env ladder) := by
  unfold LibuvcH264Src.publishLadder
  exact stays_bind h.turn fun _ => h.own fun _ => rfl

theorem negotiateMode (sel : Selection) (caps : List (Structure Codec)) : Stays R (negotiateMode env sel caps) := by
  unfold LibuvcH264Src.negotiateMode baseSrcSetCaps
  refine stays_bind (h.probeStreamCtrl _ _ _ _) fun res => stays_ite (stays_pure _) ?_
  refine stays_bind (h.applyMaxPayload _ _ _) fun _ => stays_bind (h.stream _) fun _ => ?_
  refine stays_bind (h.own fun _ => rfl) fun _ => ?_
  refine stays_bind (stays_bind h.turn fun _ => stays_when (h.record rfl)) fun _ => ?_
  exact stays_bind stays_get fun w => stays_bind (h.loadSpspps _) fun _ => stays_pure _

/-! ### Reconnect and recovery -/

theorem resolveDevice (selector : DeviceSelector) (deadline : Int) : Stays R (resolveDevice env selector deadline) := by
  have hfind : Stays R (uvcFindDevices env) := by
    unfold uvcFindDevices
    refine stays_bind h.turn fun _ => stays_bind (ask _) fun devs => ?_
    exact stays_bind (h.record rfl) fun _ => stays_pure _
  unfold LibuvcH264Src.resolveDevice forever
  refine stays_loop (fun intervalMs => stays_bind hfind fun devs => ?_) resetPollInitialMs
  split
  · exact stays_bind (h.record rfl) fun _ => stays_bind (h.record rfl) fun _ => stays_pure _
  · refine stays_bind (stays_when (h.record rfl)) fun _ => stays_ite (stays_pure _) ?_
    refine stays_bind h.monotonicTime fun now => stays_ite (stays_pure _) ?_
    exact stays_bind (h.interruptibleWait _) fun awake => stays_pure _

theorem rearmAndStart (deadline : Int) : Stays R (rearmAndStart env deadline) := by
  unfold LibuvcH264Src.rearmAndStart
  refine stays_bind stays_get fun w => stays_bind (h.applyMaxPayload _ _ _) fun _ => ?_
  refine stays_bind (h.stream _) fun _ => stays_bind h.applyTransferBuffers fun _ => ?_
  refine stays_bind (h.pastDeadline deadline) fun late => ?_
  refine stays_bind (stays_ite (stays_pure _) h.uvcStartStreaming) fun res => stays_ite ?_ ?_
  · exact stays_bind h.closeAndUnref fun _ => stays_pure _
  · exact stays_bind (h.own fun _ => rfl) fun _ => stays_pure _

theorem reopenOnce (selector : DeviceSelector) (deadline : Int) : Stays R (reopenOnce env selector deadline) := by
  unfold LibuvcH264Src.reopenOnce
  refine stays_bind (h.resolveDevice selector deadline) fun found => ?_
  split
  · exact stays_pure _
  · refine stays_bind (h.pastDeadline deadline) fun late => stays_ite (stays_bind (h.record rfl) fun _ => stays_pure _) ?_
    refine stays_bind (h.uvcOpen _) fun res => stays_ite ?_ ?_
    · exact stays_bind (h.own fun _ => rfl) fun _ => stays_bind (h.record rfl) fun _ => stays_pure _
    · refine stays_bind (h.own fun _ => rfl) fun _ => stays_bind stays_get fun w => ?_
      refine stays_bind (h.pastDeadline deadline) fun late => ?_
      refine stays_bind (stays_ite (stays_pure _) (h.getStreamCtrlFormatSize _ _ _)) fun res => ?_
      exact stays_ite (stays_bind h.closeAndUnref fun _ => stays_pure _) (h.rearmAndStart deadline)

theorem reconnect : Stays R (reconnect env) := by
  have hattempts : ∀ selector left backoffS, Stays R (reconnectAttempts env selector left backoffS) := by
    intro selector left
    induction left with
    | zero => exact fun _ => stays_pure _
    | succ left ih =>
      intro backoffS
      unfold reconnectAttempts reconnectAttempt
      refine stays_bind (h.interruptibleWait _) fun awake => stays_ite ?_ (stays_pure _)
      exact stays_bind (h.reopenOnce selector 0) fun ok => stays_ite (stays_pure _) (ih _)
  unfold LibuvcH264Src.reconnect reconnectBounded
  refine stays_bind stays_get fun w => ?_
  split
  · exact stays_pure _
  · exact stays_bind h.teardownHandle fun _ => stays_bind h.drainQueue fun _ => hattempts _ _ _

theorem awaitFirstFrame (waitUs : Int) : Stays R (awaitFirstFrame env waitUs) := by
  unfold LibuvcH264Src.awaitFirstFrame forever
  refine stays_bind h.monotonicTime fun now => stays_loop (fun deadline => ?_) _
  refine stays_bind h.monotonicTime fun now => stays_ite (stays_pure _) (stays_bind h.queueTimeoutPop fun item => ?_)
  split
  · exact stays_pure _
  · refine stays_bind h.isFlushing fun flushing => stays_ite (stays_bind (h.record rfl) fun _ => stays_pure _) ?_
    exact stays_ite (stays_pure _) (stays_bind (stays_modify fun w => h.queue w _) fun _ => stays_pure _)

theorem settleUntilFrame (selector : DeviceSelector) (deadline : Int) :
    Stays R (settleUntilFrame env selector deadline) := by
  unfold LibuvcH264Src.settleUntilFrame forever
  refine stays_loop (fun retryMs => ?_) resetPollInitialMs
  refine stays_bind h.isFlushing fun flushing => stays_ite (stays_pure _) ?_
  refine stays_bind h.monotonicTime fun now => stays_ite (stays_pure _) ?_
  refine stays_bind (h.reopenOnce selector deadline) fun ok => stays_ite ?_ ?_
  · refine stays_bind h.monotonicTime fun now => ?_
    refine stays_bind (stays_ite (h.awaitFirstFrame _) (stays_pure _)) fun proven => stays_ite (stays_pure _) ?_
    exact stays_bind h.teardownHandle fun _ => stays_bind h.drainQueue fun _ => stays_pure _
  · exact stays_bind (h.interruptibleWait _) fun awake => stays_pure _

theorem resetSilentDevice : Stays R (resetSilentDevice env) := by
  unfold LibuvcH264Src.resetSilentDevice
  refine stays_bind stays_get fun w => ?_
  split
  · exact stays_pure _
  · refine stays_bind h.turn fun _ => stays_bind (ask _) fun rc => ?_
    split
    · exact stays_pure _
    · exact stays_bind (h.record rfl) fun _ => stays_pure _

theorem captureRecoveryTarget : Stays R (captureRecoveryTarget env) := by
  unfold LibuvcH264Src.captureRecoveryTarget
  refine stays_bind stays_get fun w => ?_
  split
  · exact h.own fun _ => rfl
  · exact stays_bind h.turn fun _ => stays_bind (ask _) fun target => h.own fun _ => rfl

theorem deepRecovery : Stays R (deepRecovery env) := by
  have hrun : Stays R (usbDeepRecoveryRun env) := by
    unfold usbDeepRecoveryRun
    refine stays_bind h.turn fun _ => stays_bind stays_get fun w => ?_
    split
    · exact stays_pure _
    · exact ask _
  unfold LibuvcH264Src.deepRecovery
  refine stays_bind h.readProps fun props => stays_bind stays_get fun w => stays_ite (stays_pure _) ?_
  refine stays_bind (h.own fun _ => rfl) fun _ => stays_bind (h.record rfl) fun _ => stays_bind hrun fun outcome => ?_
  exact stays_bind (h.record rfl) fun _ => stays_pure _

theorem recoverWedgedDevice : Stays R (recoverWedgedDevice env) := by
  have hescalate : ∀ selector budgetMs, Stays R (escalate env selector budgetMs) := by
    intro selector budgetMs
    unfold escalate
    refine stays_bind h.isFlushing fun flushing => stays_ite (stays_pure _) ?_
    refine stays_bind h.deepRecovery fun acted => stays_ite ?_ (stays_pure _)
    refine stays_bind h.renewContext fun ok => stays_ite ?_ (stays_pure _)
    exact stays_bind h.monotonicTime fun now => h.settleUntilFrame _ _
  unfold LibuvcH264Src.recoverWedgedDevice
  refine stays_bind stays_get fun w => ?_
  split
  · exact stays_pure _
  · refine stays_bind h.captureRecoveryTarget fun _ => stays_bind h.resetSilentDevice fun ok => ?_
    refine stays_ite ?_ (stays_pure _)
    refine stays_bind h.readProps fun props => stays_bind h.monotonicTime fun started => ?_
    refine stays_bind h.teardownHandle fun _ => stays_bind h.drainQueue fun _ => ?_
    refine stays_bind h.renewContext fun ok => stays_ite ?_ (stays_pure _)
    exact stays_bind (h.settleUntilFrame _ _) fun ok => stays_ite (stays_pure _) (hescalate _ _)

end Blind

/-! ## The bus -/

/-- The errors that were posted, newest first. -/
def posted : List Event → List ElementError
  | [] => []
  | .error e :: log => e :: posted log
  | _ :: log => posted log

/-- Nothing is posted. -/
abbrev PostsNothing : World → World → Prop := Same fun w => posted w.log

instance : IsPreorder World PostsNothing where

theorem posted_idle {e : Event} (log : List Event) (he : e.Idle) : posted (e :: log) = posted log := by
  cases e <;> first | rfl | exact he.elim

theorem posted_plain {e : Event} (log : List Event) (he : e.isError = false) : posted (e :: log) = posted log := by
  cases e <;> first | rfl | exact absurd he nofun

theorem postsNothing_blind (env : Env) : Blind env PostsNothing where
  turn w := by
    have hothers : PostsNothing w (w.others (env.meanwhile w.log) (w.budget - 1)) :=
      (others_calm w _ _).eq (f := fun _ log => posted log) fun _ e log he => posted_idle log he
    show PostsNothing w (if w.budget = 0 then (none, w) else (some (), w.others (env.meanwhile w.log) (w.budget - 1))).2
    split
    · rfl
    · exact hothers
  record he w := posted_plain w.log he
  own _ _ := rfl
  stream _ _ := rfl
  queue _ _ := rfl

theorem modifyOwn_postsNothing (f : Own → Own) : Stays PostsNothing (modifyOwn f) := fun _ => rfl

section Calls
variable {env : Env} {w : World} {before : List ElementError}

/-- A program that posts nothing. -/
theorem wp_postsNothing {α : Type} {p : Prog World α} {I : World → Prop} {Q : α → World → Prop}
    (h : Stays PostsNothing p) (hw : posted w.log = before) (hI : ∀ w', posted w'.log = before → I w')
    (hQ : ∀ a w', posted w'.log = before → Q a w') : wp I p Q w :=
  h.wp (fun w' hw' => hI w' (Eq.trans hw' hw)) fun a w' hw' => hQ a w' (Eq.trans hw' hw)

/-! ### Create -/

/-- What a call of `create` leaves on the bus. -/
def CreateReports (before after : List ElementError) : FlowReturn → Prop
  | .error => ∃ e, after = e :: before ∧ (e = .disconnected ∨ ∃ res, res < 0 ∧ e = .uvc res "starting UVC stream")
  | _ => after = before

theorem createStart_reports (hw : posted w.log = before) :
    wp (fun w' => posted w'.log = before) (createStart env)
      (fun ok w' => if ok then posted w'.log = before else CreateReports before (posted w'.log) .error) w := by
  have hblind := postsNothing_blind env
  have hfallback : ∀ res, Stays PostsNothing (startFallback env res) := by
    intro res
    unfold startFallback
    refine stays_bind hblind.readProps fun props => stays_ite (stays_bind stays_get fun w => ?_) (stays_pure _)
    refine stays_bind (hblind.negotiateCleanPayload _ _ _) fun ok => stays_ite ?_ (stays_pure _)
    exact hblind.uvcStartStreaming
  unfold createStart
  rw [wp_bind, wp_modifyStream, wp_bind, wp_modifyOwn, wp_bind]
  refine wp_postsNothing hblind.applyTransferBuffers hw (fun _ h => h) fun _ w₁ hw₁ => ?_
  rw [wp_bind]
  refine wp_postsNothing hblind.uvcStartStreaming hw₁ (fun _ h => h) fun first w₂ hw₂ => ?_
  rw [wp_bind]
  refine wp_postsNothing (stays_ite (hfallback first) (stays_pure _)) hw₂ (fun _ h => h) fun res w₃ hw₃ => ?_
  rw [wp_ite]
  refine ⟨fun hres => ?_, fun _ => hw₃⟩
  rw [wp_bind, wp_modifyOwn, wp_bind, wp_record, wp_pure]
  exact ⟨_, congrArg _ hw₃, .inr ⟨res, hres, rfl⟩⟩

theorem recoverSilence_postsNothing : Stays PostsNothing (recoverSilence env) := by
  have hblind := postsNothing_blind env
  unfold recoverSilence
  refine stays_bind hblind.readProps fun props => stays_ite hblind.reconnect ?_
  refine stays_bind stays_get fun w => stays_ite (stays_pure _) (stays_bind hblind.readProps fun props => ?_)
  refine stays_ite (stays_bind (modifyOwn_postsNothing _) fun _ => ?_) (stays_pure _)
  exact stays_bind (hblind.record rfl) fun _ => hblind.recoverWedgedDevice

theorem countFrame_postsNothing : Stays PostsNothing (countFrame env) := by
  have hblind := postsNothing_blind env
  unfold countFrame
  refine stays_bind stays_get fun w => stays_ite ?_ (hblind.record rfl)
  refine stays_bind hblind.readProps fun props => stays_bind (modifyOwn_postsNothing _) fun _ => ?_
  exact hblind.record rfl

/-- A turn of the loop. -/
def TurnReports (before after : List ElementError) : Unit ⊕ FlowReturn → Prop
  | .inl () => after = before
  | .inr result => CreateReports before after result

theorem createTimeout_reports (hw : posted w.log = before) :
    wp (fun w' => posted w'.log = before) (createTimeout env) (fun next w' => TurnReports before (posted w'.log) next) w := by
  unfold createTimeout
  rw [wp_bind, wp_modifyOwn, wp_bind, wp_get, wp_ite, wp_pure, wp_bind, wp_record, wp_bind]
  refine ⟨fun _ => hw, fun _ => ?_⟩
  refine wp_postsNothing recoverSilence_postsNothing hw (fun _ h => h) fun ok w₁ hw₁ => ?_
  rw [wp_ite, wp_bind, wp_modifyOwn, wp_pure, wp_bind]
  refine ⟨fun _ => hw₁, fun _ => ?_⟩
  refine wp_postsNothing (postsNothing_blind env).isFlushing hw₁ (fun _ h => h) fun flushing w₂ hw₂ => ?_
  rw [wp_ite, wp_pure, wp_bind, wp_record, wp_pure]
  exact ⟨fun _ => hw₂, fun _ => ⟨_, congrArg _ hw₂, .inl rfl⟩⟩

theorem createTurn_reports (hw : posted w.log = before) :
    wp (fun w' => posted w'.log = before) (createTurn env ()) (fun next w' => TurnReports before (posted w'.log) next) w := by
  have hblind := postsNothing_blind env
  unfold createTurn
  rw [wp_bind]
  refine wp_postsNothing hblind.queueTimeoutPop hw (fun _ h => h) fun item w₁ hw₁ => ?_
  rw [wp_bind]
  refine wp_postsNothing hblind.isFlushing hw₁ (fun _ h => h) fun flushing w₂ hw₂ => ?_
  rw [wp_ite, wp_bind, wp_record, wp_pure]
  refine ⟨fun _ => hw₂, fun _ => ?_⟩
  split
  · exact createTimeout_reports hw₂
  · exact hw₂
  · rw [wp_bind, wp_modifyOwn, wp_bind]
    exact wp_postsNothing countFrame_postsNothing hw₂ (fun _ h => h) fun _ _ hw₃ => hw₃

theorem create_reports : wp (fun w' => posted w'.log = posted w.log) (create env)
    (fun result w' => CreateReports (posted w.log) (posted w'.log) result) w := by
  have hloop : ∀ w₁ : World, posted w₁.log = posted w.log → wp (fun w' => posted w'.log = posted w.log)
      (forever (createTurn env) ()) (fun result w' => CreateReports (posted w.log) (posted w'.log) result) w₁ := by
    intro w₁ hw₁
    refine wp_loop (J := fun _ w' => posted w'.log = posted w.log) (fun _ w₂ hw₂ => ?_) (fun _ _ h => h) hw₁
    refine wp_mono (createTurn_reports hw₂) fun next w₃ hw₃ => ?_
    cases next <;> exact hw₃
  unfold create
  rw [wp_bind, wp_get, wp_bind, wp_ite, wp_pure]
  refine ⟨fun _ => hloop w rfl, fun _ => ?_⟩
  refine wp_mono (createStart_reports rfl) fun ok w₁ hw₁ => ?_
  rw [wp_ite, wp_pure]
  refine ⟨fun hok => hloop w₁ ?_, fun hok => ?_⟩
  · rwa [if_pos hok] at hw₁
  · rwa [if_neg hok] at hw₁

/-! ### Start -/

/-- Why a call of `start` failed. -/
inductive StartError : ElementError → Prop where
  | invalidIndex {index : Option (List Byte)} {reason : String} (h : parseSelector index = .error reason) :
    StartError (.invalidIndex index reason)
  | noDevices : StartError .noDevices
  | noMatch (index : Option (List Byte)) : StartError (.noMatch index)
  | openFailed (ordinal : Nat) {res : Int} (h : res < 0) : StartError (.openFailed ordinal res)

/-- What a call of `start` leaves on the bus. A libuvc that cannot be initialised is not told there, only in the log of
the element. -/
def StartReports (before : List ElementError) (ok : Bool) (w : World) : Prop :=
  if ok then posted w.log = before
  else (∃ e, posted w.log = e :: before ∧ StartError e) ∨
    posted w.log = before ∧ ∃ res older, res < 0 ∧ w.log = .init res :: older

theorem openSelected_reports {selector : DeviceSelector} {deadline : Int} (hw : posted w.log = before) :
    wp (fun _ => True) (openSelected env selector deadline) (fun ok w' => StartReports before ok w') w := by
  have hblind := postsNothing_blind env
  unfold openSelected
  rw [wp_bind]
  refine wp_postsNothing (hblind.resolveDevice selector deadline) hw (fun _ _ => trivial) fun found w₁ hw₁ => ?_
  rw [wp_bind, wp_get]
  split
  · next enumFailed =>
    rw [wp_bind, wp_record, wp_bind]
    refine wp_postsNothing hblind.uvcExit (congrArg (List.cons _) hw₁) (fun _ _ => trivial) fun _ w₂ hw₂ => ?_
    refine .inl ⟨_, hw₂, ?_⟩
    cases enumFailed
    · exact .noMatch _
    · exact .noDevices
  · next dev ordinal =>
    rw [wp_bind, wp_modifyOwn, wp_bind]
    refine wp_postsNothing (hblind.uvcOpen _) hw₁ (fun _ _ => trivial) fun res w₂ hw₂ => ?_
    rw [wp_ite, wp_bind, wp_record, wp_bind, wp_pure]
    refine ⟨fun hres => ?_, fun _ => hw₂⟩
    refine wp_postsNothing hblind.unrefDevice (congrArg (List.cons _) hw₂) (fun _ _ => trivial) fun _ w₃ hw₃ => ?_
    rw [wp_bind]
    refine wp_postsNothing hblind.uvcExit hw₃ (fun _ _ => trivial) fun _ w₄ hw₄ => ?_
    exact .inl ⟨_, hw₄, .openFailed ordinal hres⟩

theorem start_reports :
    wp (fun _ => True) (start env) (fun ok w' => StartReports (posted w.log) ok w') w := by
  have hblind := postsNothing_blind env
  unfold start
  rw [wp_bind, wp_get, wp_bind]
  refine wp_postsNothing (stays_when hblind.stop) rfl (fun _ _ => trivial) fun _ w₁ hw₁ => ?_
  unfold startSession
  rw [wp_bind, wp_modifyStream, wp_bind, wp_modifyOwn, wp_bind, wp_record, wp_bind, wp_get]
  dsimp only
  split
  · next hindex =>
    rw [wp_bind, wp_record, wp_pure]
    exact .inl ⟨_, congrArg _ hw₁, .invalidIndex hindex⟩
  · rw [wp_bind]
    have hinit : wp (fun _ => True) (uvcInit env)
        (fun res w' => posted w'.log = posted w.log ∧ ∃ older, w'.log = .init res :: older)
        { w₁ with stream := resetStream w₁.stream, own := resetSession w₁.own, log := .sessionReset :: w₁.log } := by
      unfold uvcInit
      rw [wp_bind]
      refine wp_postsNothing hblind.turn hw₁ (fun _ _ => trivial) fun _ w₂ hw₂ => ?_
      exact ⟨hw₂, w₂.log, rfl⟩
    refine wp_mono hinit fun res w₂ hw₂ => ?_
    obtain ⟨hw₂, older, hlog⟩ := hw₂
    rw [wp_ite, wp_pure, wp_bind]
    refine ⟨fun hres => .inr ⟨hw₂, res, older, hres, hlog⟩, fun _ => ?_⟩
    have hdeadline : ∀ forced, Stays PostsNothing (resolveDeadline env forced) := by
      intro forced
      unfold resolveDeadline
      refine stays_ite (stays_bind hblind.readProps fun props => ?_) (stays_pure _)
      exact stays_bind hblind.monotonicTime fun now => stays_pure _
    refine wp_postsNothing (hdeadline _) hw₂ (fun _ _ => trivial) fun deadline w₃ hw₃ => ?_
    exact openSelected_reports hw₃

/-! ### Negotiate -/

/-- A device without an H.264 or H.265 format. -/
def noFormat : ElementError := .uvc uvcErrorNotSupported "negotiating caps: device exposes no H264/H265 format"

/-- What a call of `negotiate` leaves on the bus: of the other failures the base class tells. -/
def NegotiateReports (before after : List ElementError) (ok : Bool) : Prop :=
  after = before ∨ ok = false ∧ after = noFormat :: before

theorem negotiate_reports {g : Gst} :
    wp (fun _ => True) (negotiate env g) (fun ok w' => NegotiateReports (posted w.log) (posted w'.log) ok) w := by
  have hblind := postsNothing_blind env
  unfold negotiate
  rw [wp_bind]
  refine wp_postsNothing hblind.turn rfl (fun _ _ => trivial) fun _ w₁ hw₁ => ?_
  rw [wp_bind, wp_ask, wp_bind, wp_ask, wp_bind]
  refine wp_postsNothing hblind.uvcGetFormatDescs hw₁ (fun _ _ => trivial) fun formats w₂ hw₂ => ?_
  rw [wp_bind, wp_ask, wp_bind, wp_record, wp_bind]
  refine wp_postsNothing (hblind.writeFormats _) hw₂ (fun _ _ => trivial) fun _ w₃ hw₃ => ?_
  rw [wp_bind]
  refine wp_mono
    (?_ : wp (fun _ => True) _ (fun ok w' => NegotiateReports (posted w.log) (posted w'.log) ok) w₃) fun ok w₄ hw₄ => ?_
  · rw [wp_ite, wp_bind]
    refine ⟨fun _ => ?_, fun _ => ?_⟩
    · refine wp_postsNothing hblind.uvcGetFormatDescs hw₃ (fun _ _ => trivial) fun _ w₄ hw₄ => ?_
      rw [wp_bind, wp_record, wp_pure]
      exact .inr ⟨rfl, congrArg _ hw₄⟩
    · split
      · exact .inl hw₃
      · exact wp_postsNothing (hblind.negotiateMode _ _) hw₃ (fun _ _ => trivial) fun _ _ hw₄ => .inl hw₄
  rw [wp_bind]
  refine wp_postsNothing (hblind.publishLadder _) rfl (fun _ _ => trivial) fun _ w₅ hw₅ => ?_
  rw [wp_pure, hw₅]
  exact hw₄

end Calls

end LibuvcH264Src
