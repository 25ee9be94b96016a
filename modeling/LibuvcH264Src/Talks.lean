import LibuvcH264Src.PayloadFallback

/-!
# Programs that only talk

* `portResets`, `deepRuns`, `delivered` : what the log says about recoveries and about the last stream;
* `Talks` : the device, the stream and the recoveries are as they were, the log grew, and so did the queue by what the
  stream delivered;
* `*_talks` : the programs of which this holds, whatever they are answered.
-/

namespace LibuvcH264Src
open AnnexB Caps Prog

variable {env : Env} {w w' w'' : World}

/-! ## What the log says -/

/-- The outcomes of the port resets. -/
def portResets : List Event → List Int
  | [] => []
  | .portReset rc :: log => rc :: portResets log
  | _ :: log => portResets log

/-- How often the deep recovery ran. -/
def deepRuns : List Event → Nat
  | [] => 0
  | .deepRecovery :: log => deepRuns log + 1
  | _ :: log => deepRuns log

/-- The buffers that the last stream delivered, newest first. -/
def delivered : List Event → List GstBuffer
  | [] => []
  | .pushed buf :: log => buf :: delivered log
  | .request _ (.start _) reply :: log => if reply.res < 0 then delivered log else []
  | _ :: log => delivered log

/-- All of it that a talk does not change. -/
structure Said where
  portResets : List Int
  deepRuns : Nat
  openHandles : List Nat
  runningStream : Option (Nat × StreamCtrl)

def said (log : List Event) : Said := ⟨portResets log, deepRuns log, openHandles log, runningStream log⟩

/-- The buffers in the queue. -/
def queued (w : World) : List GstBuffer :=
  w.queue.filterMap fun item =>
    match item with
    | .buffer buf => some buf
    | .flushSentinel => none

/-- The fields of the instance that a talk does not write. -/
def Own.grasp (self : Own) : Option Nat × Option Device × Bool × Bool :=
  (self.uvcDevh, self.uvcDev, self.streaming, self.deepRecoveryUsed)

/-- The buffers in hand and in the queue were delivered by the last stream, in this order. -/
def InOrder (hand : List GstBuffer) (w : World) : Prop := (hand ++ queued w).Sublist (delivered w.log).reverse

/-! ## The relation -/

structure Talks (w w' : World) : Prop where
  grasp : w'.own.grasp = w.own.grasp
  said : said w'.log = said w.log
  quiet : runningStream w.log = none → queued w = [] → queued w' = []
  inOrder : ∀ hand, InOrder hand w → InOrder hand w'
  grown : w.log <:+ w'.log

instance : Std.Refl Talks where
  refl _ := ⟨rfl, rfl, fun _ h => h, fun _ h => h, List.suffix_rfl⟩

instance : IsTrans World Talks where
  trans := by
    rintro w w' w'' h h'
    have hstream : runningStream w'.log = runningStream w.log := congrArg Said.runningStream h.said
    exact ⟨h'.grasp.trans h.grasp, h'.said.trans h.said,
      fun hnone hempty => h'.quiet (hstream.trans hnone) (h.quiet hnone hempty),
      fun hand hinorder => h'.inOrder hand (h.inOrder hand hinorder), h.grown.trans h'.grown⟩

/-! ## The other threads -/

theorem said_idle {e : Event} (log : List Event) (he : e.Idle) : said (e :: log) = said log := by
  cases e <;> first | rfl | exact he.elim

theorem said_calm (h : Calm w w') : said w'.log = said w.log :=
  h.eq (f := fun _ log => said log) fun _ _ log he => said_idle log he

theorem delivered_pushed (bufs : List GstBuffer) (log : List Event) :
    delivered (bufs.map .pushed ++ log) = bufs ++ delivered log := by
  induction bufs with
  | nil => rfl
  | cons buf rest ih => exact congrArg (List.cons buf) ih

theorem queued_append (w : World) (items : List QueueItem) :
    queued { w with queue := w.queue ++ items } = queued w ++ queued { w with queue := items } :=
  List.filterMap_append

theorem queued_buffers (w : World) (bufs : List GstBuffer) :
    queued { w with queue := bufs.map .buffer } = bufs := by
  unfold queued
  rw [List.filterMap_map]
  exact List.filterMap_some

/-- What the stream delivers goes to the end of both. -/
theorem feed_talks (w : World) (arrival : Arrival) (data : Option (List Byte)) : Talks w (feed w arrival data) := by
  have hsaid := said_calm (feed_calm w arrival data)
  have hgrown := (feed_calm w arrival data).grown
  unfold feed at hsaid hgrown ⊢
  by_cases hstream : (runningStream w.log).isNone
  · rw [if_pos hstream]
    exact Std.Refl.refl w
  · rw [if_neg hstream] at hsaid hgrown ⊢
    refine ⟨rfl, hsaid, fun hnone => absurd (Option.isNone_iff_eq_none.mpr hnone) hstream,
      fun hand hinorder => ?_, hgrown⟩
    unfold InOrder at hinorder ⊢
    have hqueued := (queued_append w _).trans
      (congrArg (queued w ++ ·) (queued_buffers w (frameCallback w.stream arrival data).pushed))
    show (hand ++ queued { w with queue := _ }).Sublist
      (delivered ((frameCallback w.stream arrival data).pushed.reverse.map .pushed ++ w.log)).reverse
    rw [hqueued, delivered_pushed, List.reverse_append, List.reverse_reverse, ← List.append_assoc]
    exact List.Sublist.append_right hinorder _

theorem interfere_talks (w : World) (i : Interference) : Talks w (interfere w i) := by
  match i with
  | .frame arrival data => exact feed_talks w arrival data
  | .unlock =>
    have hqueued : queued (unlock w) = queued w := (queued_append w [.flushSentinel]).trans (List.append_nil _)
    refine ⟨rfl, rfl, fun _ hempty => hqueued.trans hempty, fun hand hinorder => ?_, List.suffix_rfl⟩
    unfold InOrder
    show (hand ++ queued (unlock w)).Sublist _
    rw [hqueued]
    exact hinorder
  | .unlockStop =>
    refine ⟨rfl, rfl, fun _ _ => rfl, fun hand hinorder => ?_, List.suffix_cons _ _⟩
    have hhand : (hand ++ []).Sublist (hand ++ queued w) := List.Sublist.append_left (List.nil_sublist _) hand
    exact hhand.trans hinorder
  | .setClock _ | .changeState _ => exact ⟨rfl, rfl, fun _ h => h, fun _ h => h, List.suffix_rfl⟩
  | .setProperty property => cases property <;> exact ⟨rfl, rfl, fun _ h => h, fun _ h => h, List.suffix_rfl⟩

theorem foldl_interfere_talks (others : List Interference) (w : World) : Talks w (others.foldl interfere w) := by
  induction others generalizing w with
  | nil => exact Std.Refl.refl w
  | cons i rest ih => exact IsTrans.trans _ _ _ (interfere_talks w i) (ih (interfere w i))

/-! ## Programs -/

theorem turn_talks : Stays Talks (turn env) := by
  intro w
  have hturn : Talks w (w.others (env.meanwhile w.log) (w.budget - 1)) := by
    obtain ⟨hgrasp, hsaid, hquiet, hinorder, hgrown⟩ :=
      foldl_interfere_talks (env.meanwhile w.log) (w.note (.meanwhile (env.meanwhile w.log)))
    exact ⟨hgrasp, hsaid, hquiet, hinorder, (List.suffix_cons _ _).trans hgrown⟩
  have heq : turn env w = if w.budget = 0 then (none, w)
      else (some (), w.others (env.meanwhile w.log) (w.budget - 1)) := rfl
  rw [heq]
  split_ifs
  · exact Std.Refl.refl w
  · exact hturn

theorem ask_talks {α : Type} (answer : List Event → α) : Stays Talks (ask answer) := fun w => Std.Refl.refl w

/-- An entry that says nothing about the device, the stream or the recoveries. -/
def Event.Mute (e : Event) : Prop :=
  ∀ log, said (e :: log) = said log ∧ delivered (e :: log) = delivered log

theorem record_talks {e : Event} (he : e.Mute) : Stays Talks (record e) := by
  intro w
  refine ⟨rfl, (he w.log).1, fun _ h => h, fun hand hinorder => ?_, List.suffix_cons _ _⟩
  unfold InOrder at hinorder ⊢
  show (hand ++ queued w).Sublist (delivered (e :: w.log)).reverse
  rw [(he w.log).2]
  exact hinorder

theorem modifyOwn_talks {f : Own → Own} (hf : ∀ self, (f self).grasp = self.grasp) : Stays Talks (modifyOwn f) :=
  stays_modify fun w => ⟨hf w.own, rfl, fun _ h => h, fun _ h => h, List.suffix_rfl⟩

theorem modifyStream_talks {f : StreamState → StreamState} : Stays Talks (modifyStream f) :=
  stays_modify fun _ => ⟨rfl, rfl, fun _ h => h, fun _ h => h, List.suffix_rfl⟩

theorem isFlushing_talks : Stays Talks (isFlushing env) := by
  unfold isFlushing
  exact stays_bind turn_talks fun _ => stays_bind stays_get fun _ => stays_pure _

theorem readProps_talks : Stays Talks (readProps env) := by
  unfold readProps
  exact stays_bind turn_talks fun _ => stays_bind stays_get fun _ => stays_pure _

theorem monotonicTime_talks : Stays Talks (monotonicTime env) := by
  unfold monotonicTime
  refine stays_bind turn_talks fun _ => stays_bind (ask_talks _) fun now => ?_
  exact stays_bind (record_talks fun _ => ⟨rfl, rfl⟩) fun _ => stays_pure _

theorem pastDeadline_talks (deadline : Int) : Stays Talks (pastDeadline env deadline) := by
  unfold pastDeadline
  exact stays_ite (stays_pure _) (stays_bind monotonicTime_talks fun _ => stays_pure _)

theorem interruptibleWait_talks (waitUs : Int) : Stays Talks (interruptibleWait env waitUs) := by
  have hpark : ∀ deadline, Stays Talks (parkUntil env deadline) := by
    intro deadline
    unfold parkUntil forever
    refine stays_loop (fun _ => stays_bind isFlushing_talks fun flushing => ?_) ()
    refine stays_ite (stays_pure _) (stays_bind turn_talks fun _ => stays_bind (ask_talks _) fun woken => ?_)
    exact stays_pure _
  unfold interruptibleWait
  refine stays_bind (stays_when (stays_bind monotonicTime_talks fun now => hpark _)) fun _ => ?_
  exact stays_bind isFlushing_talks fun _ => stays_pure _

theorem uvcInit_talks : Stays Talks (uvcInit env) := by
  unfold uvcInit
  refine stays_bind turn_talks fun _ => stays_bind (ask_talks _) fun res => ?_
  refine stays_bind (record_talks fun _ => ⟨rfl, rfl⟩) fun _ => ?_
  exact stays_bind (modifyOwn_talks fun _ => rfl) fun _ => stays_pure _

theorem uvcExit_talks : Stays Talks (uvcExit env) := by
  unfold uvcExit
  refine stays_bind turn_talks fun _ => stays_bind (record_talks fun _ => ⟨rfl, rfl⟩) fun _ => ?_
  exact modifyOwn_talks fun _ => rfl

theorem renewContext_talks : Stays Talks (renewContext env) := by
  unfold renewContext
  refine stays_bind uvcExit_talks fun _ => stays_bind uvcInit_talks fun res => ?_
  exact stays_ite (stays_bind (modifyOwn_talks fun _ => rfl) fun _ => stays_pure _) (stays_pure _)

theorem resolveDevice_talks (selector : DeviceSelector) (deadline : Int) :
    Stays Talks (resolveDevice env selector deadline) := by
  have hfind : Stays Talks (uvcFindDevices env) := by
    unfold uvcFindDevices
    refine stays_bind turn_talks fun _ => stays_bind (ask_talks _) fun devs => ?_
    exact stays_bind (record_talks fun _ => ⟨rfl, rfl⟩) fun _ => stays_pure _
  unfold resolveDevice forever
  refine stays_loop (fun intervalMs => stays_bind hfind fun devs => ?_) resetPollInitialMs
  split
  · refine stays_bind (record_talks fun _ => ⟨rfl, rfl⟩) fun _ => ?_
    exact stays_bind (record_talks fun _ => ⟨rfl, rfl⟩) fun _ => stays_pure _
  · refine stays_bind (stays_when (record_talks fun _ => ⟨rfl, rfl⟩)) fun _ => ?_
    refine stays_ite (stays_pure _) (stays_bind monotonicTime_talks fun now => ?_)
    exact stays_ite (stays_pure _) (stays_bind (interruptibleWait_talks _) fun awake => stays_pure _)

/-! ## Talks with the device -/

theorem withHandle_talks {e : Option Nat → Event} (he : ∀ handle, (e handle).Mute) :
    Stays Talks (withHandle e) := by
  unfold withHandle
  refine stays_bind stays_get fun w => stays_bind (record_talks (he _)) fun _ => ?_
  split
  · exact stays_cut
  · exact stays_ite (stays_pure _) stays_cut

/-- A request that starts no stream. -/
theorem request_talks {req : Request} (hreq : ∀ ctrl, req ≠ .start ctrl) : Stays Talks (request env req) := by
  have hmute : ∀ handle reply, (Event.request handle req reply).Mute := by
    intro handle reply log
    cases req with
    | start ctrl => exact absurd rfl (hreq ctrl)
    | _ => cases handle <;> exact ⟨rfl, rfl⟩
  unfold request
  refine stays_bind turn_talks fun _ => stays_bind (ask_talks _) fun reply => ?_
  exact stays_bind (withHandle_talks fun handle => hmute handle reply) fun _ => stays_pure _

theorem getStreamCtrlFormatSize_talks (width height fps : Int) :
    Stays Talks (getStreamCtrlFormatSize env width height fps) := by
  unfold getStreamCtrlFormatSize
  refine stays_bind stays_get fun w => stays_bind (request_talks nofun) fun reply => ?_
  exact stays_bind (modifyOwn_talks fun _ => rfl) fun _ => stays_pure _

theorem negotiateCleanPayload_talks (width height fps : Int) :
    Stays Talks (negotiateCleanPayload env width height fps) := by
  unfold negotiateCleanPayload
  refine stays_bind (getStreamCtrlFormatSize_talks width height fps) fun res => stays_bind stays_get fun w => ?_
  refine stays_ite ?_ ?_
  · exact stays_bind (record_talks fun _ => ⟨rfl, rfl⟩) fun _ => stays_pure _
  · exact stays_bind (modifyOwn_talks fun _ => rfl) fun _ => stays_pure _

theorem applyMaxPayload_talks (width height fps : Int) : Stays Talks (applyMaxPayload env width height fps) := by
  have hprobe : Stays Talks (uvcProbeStreamCtrl env) := by
    unfold uvcProbeStreamCtrl
    refine stays_bind stays_get fun w => stays_bind (request_talks nofun) fun reply => ?_
    exact stays_bind (modifyOwn_talks fun _ => rfl) fun _ => stays_pure _
  unfold applyMaxPayload
  refine stays_bind readProps_talks fun props => stays_ite (modifyOwn_talks fun _ => rfl) ?_
  refine stays_bind (modifyOwn_talks fun _ => rfl) fun _ => stays_bind hprobe fun res => ?_
  refine stays_bind stays_get fun w => stays_ite ?_ (modifyOwn_talks fun _ => rfl)
  exact stays_bind (negotiateCleanPayload_talks width height fps) fun _ => stays_pure _

theorem applyTransferBuffers_talks : Stays Talks (applyTransferBuffers env) := by
  unfold applyTransferBuffers
  refine stays_bind readProps_talks fun props => stays_when ?_
  exact stays_bind (request_talks nofun) fun reply => stays_when (modifyOwn_talks fun _ => rfl)

/-! ### The negotiation -/

theorem uvcGetFormatDescs_talks : Stays Talks (uvcGetFormatDescs env) := by
  unfold uvcGetFormatDescs
  refine stays_bind turn_talks fun _ => stays_bind (ask_talks _) fun formats => ?_
  exact stays_bind (withHandle_talks fun _ _ => ⟨rfl, rfl⟩) fun _ => stays_pure _

theorem writeFormats_talks (sels : List Selection) : Stays Talks (writeFormats env sels) := by
  induction sels with
  | nil => exact stays_pure _
  | cons sel rest ih =>
    unfold writeFormats
    exact stays_bind modifyStream_talks fun _ => stays_bind turn_talks fun _ => ih

theorem loadSpspps_talks (key : SpsppsKey) : Stays Talks (loadSpspps env key) := by
  unfold loadSpspps
  refine stays_bind turn_talks fun _ => stays_bind (ask_talks _) fun file => ?_
  refine stays_bind (record_talks fun _ => ⟨rfl, rfl⟩) fun _ => ?_
  split
  · exact stays_pure _
  · exact modifyStream_talks

theorem probeStreamCtrl_talks (width height fps : Int) (policy : ProbePolicy) :
    Stays Talks (probeStreamCtrl env width height fps policy) := by
  have hprobe : Stays Talks (getStreamCtrlFormatSize env width height fps) := getStreamCtrlFormatSize_talks _ _ _
  unfold probeStreamCtrl
  refine stays_bind (stays_when (stays_bind hprobe fun _ => stays_pure _)) fun _ => stays_bind hprobe fun res => ?_
  exact stays_ite hprobe (stays_pure _)

theorem negotiateMode_talks (sel : Selection) (caps : List (Structure Codec)) :
    Stays Talks (negotiateMode env sel caps) := by
  have hcaps : Stays Talks (baseSrcSetCaps env caps) := by
    unfold baseSrcSetCaps
    exact stays_bind turn_talks fun _ => stays_when (record_talks fun _ => ⟨rfl, rfl⟩)
  unfold negotiateMode
  refine stays_bind (probeStreamCtrl_talks _ _ _ _) fun res => stays_ite (stays_pure _) ?_
  refine stays_bind (applyMaxPayload_talks _ _ _) fun _ => stays_bind modifyStream_talks fun _ => ?_
  refine stays_bind (modifyOwn_talks fun _ => rfl) fun _ => stays_bind hcaps fun _ => stays_bind stays_get fun w => ?_
  exact stays_bind (loadSpspps_talks _) fun _ => stays_pure _

/-! ### The recovery -/

theorem captureRecoveryTarget_talks : Stays Talks (captureRecoveryTarget env) := by
  unfold captureRecoveryTarget
  refine stays_bind stays_get fun w => ?_
  split
  · exact modifyOwn_talks fun _ => rfl
  · refine stays_bind turn_talks fun _ => stays_bind (ask_talks _) fun target => ?_
    exact modifyOwn_talks fun _ => rfl

theorem usbDeepRecoveryRun_talks : Stays Talks (usbDeepRecoveryRun env) := by
  unfold usbDeepRecoveryRun
  refine stays_bind turn_talks fun _ => stays_bind stays_get fun w => ?_
  split
  · exact stays_pure _
  · exact ask_talks _

end LibuvcH264Src
