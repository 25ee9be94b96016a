import LibuvcH264Src.Talks
import LibuvcH264Src.StreamCaps

/-!
# The handle in the wedge recovery

* `Owned` : the stream and the open handle are those of the instance;
* `Idles`, `Gone`, `Streams` : how far a handle is let go or taken up again;
* `Proven` : it streams, and a frame of its own is in front;
* `teardown_gone`, `reopenOnce_streams`, `settleUntilFrame_settles`, `escalate_settles` : what each part of the
  recovery leaves.
-/

namespace LibuvcH264Src
open AnnexB Caps Prog

variable {env : Env} {w w' w'' : World}

/-! ## The handle and the stream -/

/-- The open handle is the instance's, and so is the stream. -/
structure Owned (w : World) : Prop where
  handles : openHandles w.log = w.own.uvcDevh.toList
  stream : ∀ s, runningStream w.log = some s → w.own.uvcDevh = some s.1

/-- No stream, and no handle but this one. -/
structure Idles (handle : Option Nat) (w : World) : Prop where
  uvcDevh : w.own.uvcDevh = handle
  streaming : w.own.streaming = false
  handles : openHandles w.log = handle.toList
  stream : runningStream w.log = none

/-- The handle is closed and the device let go, and nothing of it is in the queue. -/
structure Gone (w : World) : Prop extends Idles none w where
  uvcDev : w.own.uvcDev = none
  queued : queued w = []

/-- A handle streams, and what is in hand and in the queue is its own. -/
structure Streams (k : Nat) (hand : List GstBuffer) (w : World) : Prop where
  uvcDevh : w.own.uvcDevh = some k
  streaming : w.own.streaming = true
  handles : openHandles w.log = [k]
  stream : ∃ ctrl, runningStream w.log = some (k, ctrl)
  inOrder : InOrder hand w

theorem Talks.fields (h : Talks w w') : w'.own.uvcDevh = w.own.uvcDevh ∧ w'.own.uvcDev = w.own.uvcDev ∧
    w'.own.streaming = w.own.streaming ∧ openHandles w'.log = openHandles w.log ∧
    runningStream w'.log = runningStream w.log := by
  have hgrasp := h.grasp
  obtain ⟨hdevh, hrest⟩ := Prod.mk.inj hgrasp
  obtain ⟨hdev, hrest⟩ := Prod.mk.inj hrest
  obtain ⟨hstreaming, -⟩ := Prod.mk.inj hrest
  exact ⟨hdevh, hdev, hstreaming, congrArg Said.openHandles h.said, congrArg Said.runningStream h.said⟩

theorem Talks.owned (ht : Talks w w') (h : Owned w) : Owned w' := by
  obtain ⟨hdevh, -, -, hhandles, hstream⟩ := ht.fields
  refine ⟨?_, ?_⟩
  · rw [hhandles, hdevh]
    exact h.handles
  · rw [hstream, hdevh]
    exact h.stream

theorem Talks.idles {handle : Option Nat} (ht : Talks w w') (h : Idles handle w) : Idles handle w' := by
  obtain ⟨hdevh, -, hstreaming, hhandles, hstream⟩ := ht.fields
  exact ⟨hdevh.trans h.uvcDevh, hstreaming.trans h.streaming, hhandles.trans h.handles, hstream.trans h.stream⟩

theorem Talks.gone (ht : Talks w w') (h : Gone w) : Gone w' := by
  obtain ⟨-, hdev, -, -, -⟩ := ht.fields
  exact ⟨ht.idles h.toIdles, hdev.trans h.uvcDev, ht.quiet h.stream h.queued⟩

theorem Talks.streams {k : Nat} {hand : List GstBuffer} (ht : Talks w w') (h : Streams k hand w) :
    Streams k hand w' := by
  obtain ⟨hdevh, -, hstreaming, hhandles, hstream⟩ := ht.fields
  refine ⟨hdevh.trans h.uvcDevh, hstreaming.trans h.streaming, hhandles.trans h.handles, ?_,
    ht.inOrder hand h.inOrder⟩
  rw [hstream]
  exact h.stream

theorem Streams.owned {k : Nat} {hand : List GstBuffer} (h : Streams k hand w) : Owned w := by
  obtain ⟨ctrl, hstream⟩ := h.stream
  refine ⟨?_, fun s hs => ?_⟩
  · rw [h.handles, h.uvcDevh]
    rfl
  · rw [← Option.some.inj (hstream.symm.trans hs)]
    exact h.uvcDevh

/-- What is left to show behind a talk. -/
theorem wp_talks {α : Type} {p : Prog World α} {Q : α → World → Prop} (hp : Stays Talks p)
    (hQ : ∀ a w', Talks w w' → Q a w') : wp (fun _ => True) p Q w :=
  hp.wp (fun _ _ => trivial) hQ

theorem wp_turn_talks {Q : Unit → World → Prop} (hQ : ∀ w', Talks w w' → Q () w') :
    wp (fun _ => True) (turn env) Q w := wp_talks turn_talks fun _ => hQ

theorem openHandles_eq (log : List Event) : openHandles log = Ledger.outstanding handleUse log := by
  induction log with
  | nil => rfl
  | cons e log ih =>
    cases e with
    | openDevice dev k res =>
      unfold openHandles
      by_cases hres : res < 0
      · rw [if_pos hres, Ledger.outstanding_neither (show handleUse (.openDevice dev k res) = .neither from if_pos hres)]
        exact ih
      · rw [if_neg hres, Ledger.outstanding_takes (show handleUse (.openDevice dev k res) = .takes k from if_neg hres)]
        exact congrArg (List.cons k) ih
    | close k => exact congrArg (List.erase · k) ih
    | _ => exact ih

/-- Every state that the element gets to is of this kind. -/
theorem Staged.owned {g : Gst} {budget : Nat} {s : Stage} (h : Staged g budget s w) : Owned w where
  handles := (openHandles_eq w.log).trans h.inventory.handles
  stream t ht := (h.announced.held t.1 t.2 ht).2

/-! ## Letting go -/

theorem closeDevh_idles {k : Nat} (h : Idles (some k) w) :
    wp (fun _ => True) (closeDevh env) (fun _ w' => Idles none w' ∧ (queued w = [] → queued w' = [])) w := by
  unfold closeDevh
  rw [wp_bind, wp_get, h.uvcDevh]
  unfold uvcClose
  rw [wp_bind]
  apply wp_turn_talks
  intro w' ht
  have h' := ht.idles h
  rw [wp_bind, wp_record, wp_modifyOwn]
  refine ⟨⟨rfl, h'.streaming, ?_, ?_⟩, ht.quiet h.stream⟩
  · show (openHandles w'.log).erase k = []
    rw [h'.handles]
    exact List.erase_cons_head k []
  · show (runningStream w'.log).filter (fun s => s.1 ≠ k) = none
    rw [h'.stream]
    rfl

theorem unrefDevice_idles (h : Idles none w) :
    wp (fun _ => True) unrefDevice
      (fun _ w' => Idles none w' ∧ w'.own.uvcDev = none ∧ w'.queue = w.queue) w := by
  unfold unrefDevice
  rw [wp_bind, wp_get]
  split
  · next hdev => exact ⟨h, hdev, rfl⟩
  · rw [wp_bind, wp_record, wp_modifyOwn]
    exact ⟨⟨h.uvcDevh, h.streaming, h.handles, h.stream⟩, rfl, rfl⟩

theorem queued_congr (h : w'.queue = w.queue) : queued w' = queued w := by
  unfold queued
  rw [h]

theorem closeAndUnref_gone {k : Nat} (h : Idles (some k) w) (hqueued : queued w = []) :
    wp (fun _ => True) (closeAndUnref env) (fun _ w' => Gone w') w := by
  unfold closeAndUnref
  rw [wp_bind]
  refine wp_mono (closeDevh_idles h) fun _ w₁ h₁ => ?_
  refine wp_mono (unrefDevice_idles h₁.1) fun _ w₂ h₂ => ?_
  exact ⟨h₂.1, h₂.2.1, (queued_congr h₂.2.2).trans (h₁.2 hqueued)⟩

/-- The end of the stream of the instance is the end of the stream. -/
theorem stopDevh_idles {k : Nat} (h : Owned w) (hdevh : w.own.uvcDevh = some k) :
    wp (fun _ => True) (stopDevh env) (fun _ w' => Idles (some k) w') w := by
  unfold stopDevh
  rw [wp_bind, wp_get, hdevh]
  unfold uvcStopStreaming
  rw [wp_bind, wp_bind]
  apply wp_turn_talks
  intro w' ht
  obtain ⟨hdevh', -, -, -, -⟩ := ht.fields
  have h' := ht.owned h
  rw [wp_record, wp_modifyOwn]
  refine ⟨hdevh'.trans hdevh, rfl, ?_, ?_⟩
  · show openHandles w'.log = _
    rw [h'.handles, hdevh', hdevh]
  · show (runningStream w'.log).filter (fun s => s.1 ≠ k) = none
    cases hs : runningStream w'.log with
    | none => rfl
    | some s =>
      have hk : some s.1 = some k := (h'.stream s hs).symm.trans (hdevh'.trans hdevh)
      exact if_neg (by simpa using Option.some.inj hk)

/-- Behind a teardown and a drain, all of the handle is gone. -/
theorem teardown_gone {α : Type} {k : Nat} {p : Prog World α} {Q : α → World → Prop} (h : Owned w)
    (hdevh : w.own.uvcDevh = some k) (hp : ∀ w', Gone w' → wp (fun _ => True) p Q w') :
    wp (fun _ => True) (do
      teardownHandle env
      drainQueue env
      p) Q w := by
  unfold teardownHandle drainQueue
  rw [wp_bind, wp_bind]
  refine wp_mono (stopDevh_idles h hdevh) fun _ w₁ h₁ => ?_
  rw [wp_bind]
  refine wp_mono (closeDevh_idles h₁) fun _ w₂ h₂ => ?_
  refine wp_mono (unrefDevice_idles h₂.1) fun _ w₃ h₃ => ?_
  rw [wp_bind, wp_bind]
  apply wp_turn_talks
  intro w₄ ht
  obtain ⟨-, hdev, -, -, -⟩ := ht.fields
  have h₄ := ht.idles h₃.1
  rw [wp_modify]
  exact hp _ ⟨⟨h₄.uvcDevh, h₄.streaming, h₄.handles, h₄.stream⟩, hdev.trans h₃.2.1, rfl⟩

/-! ## Taking up again -/

/-- What an attempt to reopen leaves. -/
def Reopened (ok : Bool) (w : World) : Prop := if ok then ∃ k, Streams k [] w else Gone w

theorem uvcOpen_idles (dev : Device) (h : Gone w) :
    wp (fun _ => True) (uvcOpen env dev)
      (fun res w' => if res < 0 then Gone w' else ∃ k, Idles (some k) w' ∧ queued w' = []) w := by
  unfold uvcOpen
  rw [wp_bind]
  apply wp_turn_talks
  intro w' ht
  have h' := ht.gone h
  rw [wp_bind, wp_ask, wp_bind, wp_ask, wp_bind, wp_record, wp_bind, wp_modifyOwn, wp_pure]
  by_cases hres : env.uvcOpen w'.log dev < 0
  · rw [if_pos hres]
    simp only [if_pos hres]
    refine ⟨⟨h'.uvcDevh, h'.streaming, ?_, h'.stream⟩, h'.uvcDev, h'.queued⟩
    show (if _ then _ else _) = _
    rw [if_pos hres]
    exact h'.handles
  · rw [if_neg hres]
    simp only [if_neg hres]
    refine ⟨nextHandle w'.log, ⟨rfl, h'.streaming, ?_, h'.stream⟩, h'.queued⟩
    show (if _ then _ else _) = _
    rw [if_neg hres, h'.handles]
    rfl

theorem uvcStartStreaming_streams {k : Nat} (h : Idles (some k) w) (hqueued : queued w = []) :
    wp (fun _ => True) (uvcStartStreaming env)
      (fun res w' => if res < 0 then Idles (some k) w' ∧ queued w' = []
        else Streams k [] { w' with own := { w'.own with streaming := true } }) w := by
  unfold uvcStartStreaming request
  rw [wp_bind, wp_get, wp_bind, wp_bind]
  apply wp_turn_talks
  intro w' ht
  have h' := ht.idles h
  have hqueued' := ht.quiet h.stream hqueued
  rw [wp_bind, wp_ask, wp_bind]
  unfold withHandle
  rw [wp_bind, wp_get, wp_bind, wp_record, h'.uvcDevh, wp_ite]
  refine ⟨fun _ => ?_, fun _ => trivial⟩
  rw [wp_pure, wp_pure, wp_pure]
  generalize env.reply w'.log (.start w.own.uvcCtrl) = reply
  by_cases hres : reply.res < 0
  · rw [if_pos hres]
    refine ⟨⟨h'.uvcDevh, h'.streaming, h'.handles, ?_⟩, hqueued'⟩
    show (if _ then _ else _) = _
    rw [if_pos hres]
    exact h'.stream
  · rw [if_neg hres]
    refine ⟨h'.uvcDevh, rfl, h'.handles, ⟨w.own.uvcCtrl, ?_⟩, ?_⟩
    · show (if _ then _ else _) = _
      rw [if_neg hres]
    · show (queued w').Sublist _
      rw [hqueued']
      exact List.nil_sublist _

theorem rearmAndStart_streams {k : Nat} (deadline : Int) (h : Idles (some k) w) (hqueued : queued w = []) :
    wp (fun _ => True) (rearmAndStart env deadline) Reopened w := by
  unfold rearmAndStart
  rw [wp_bind, wp_get, wp_bind]
  apply wp_talks (applyMaxPayload_talks _ _ _)
  intro _ w₁ h₁
  rw [wp_bind]
  apply wp_talks modifyStream_talks
  intro _ w₂ h₂
  rw [wp_bind]
  apply wp_talks applyTransferBuffers_talks
  intro _ w₃ h₃
  rw [wp_bind]
  apply wp_talks (pastDeadline_talks deadline)
  intro late w₄ h₄
  have ht : Talks w w₄ := IsTrans.trans _ _ _ (IsTrans.trans _ _ _ (IsTrans.trans _ _ _ h₁ h₂) h₃) h₄
  have hidles := ht.idles h
  have hqueued' := ht.quiet h.stream hqueued
  rw [wp_bind]
  have hstart : wp (fun _ => True) (if late = true then pure (-1) else uvcStartStreaming env)
      (fun res w' => if res < 0 then Idles (some k) w' ∧ queued w' = []
        else Streams k [] { w' with own := { w'.own with streaming := true } }) w₄ := by
    rw [wp_ite]
    exact ⟨fun _ => ⟨hidles, hqueued'⟩, fun _ => uvcStartStreaming_streams hidles hqueued'⟩
  refine wp_mono hstart fun res w₅ h₅ => ?_
  rw [wp_ite]
  constructor
  · intro hres
    rw [if_pos hres] at h₅
    rw [wp_bind]
    exact wp_mono (closeAndUnref_gone h₅.1 h₅.2) fun _ _ hgone => hgone
  · intro hres
    rw [if_neg hres] at h₅
    rw [wp_bind, wp_modifyOwn, wp_pure]
    exact ⟨k, h₅⟩

theorem reopenOnce_streams (selector : DeviceSelector) (deadline : Int) (h : Gone w) :
    wp (fun _ => True) (reopenOnce env selector deadline) Reopened w := by
  unfold reopenOnce
  rw [wp_bind]
  apply wp_talks (resolveDevice_talks selector deadline)
  intro found w₁ h₁
  have hgone₁ := h₁.gone h
  split
  · exact hgone₁
  · next selected _ =>
    rw [wp_bind]
    apply wp_talks (pastDeadline_talks deadline)
    intro late w₂ h₂
    have hgone₂ := h₂.gone hgone₁
    rw [wp_ite]
    refine ⟨fun _ => ?_, fun _ => ?_⟩
    · rw [wp_bind]
      apply wp_talks (record_talks fun _ => ⟨rfl, rfl⟩)
      exact fun _ w₃ h₃ => h₃.gone hgone₂
    · rw [wp_bind]
      refine wp_mono (uvcOpen_idles selected hgone₂) fun res w₃ h₃ => ?_
      rw [wp_ite]
      constructor
      · intro hres
        rw [if_pos hres] at h₃
        rw [wp_bind, wp_modifyOwn, wp_bind]
        have hgone : Gone { w₃ with own := { w₃.own with uvcDevh := none } } :=
          ⟨⟨rfl, h₃.streaming, h₃.handles, h₃.stream⟩, h₃.uvcDev, h₃.queued⟩
        apply wp_talks (record_talks fun _ => ⟨rfl, rfl⟩)
        exact fun _ w₄ h₄ => h₄.gone hgone
      · intro hres
        rw [if_neg hres] at h₃
        obtain ⟨k, hidles, hqueued⟩ := h₃
        rw [wp_bind, wp_modifyOwn, wp_bind, wp_get, wp_bind]
        have hheld : Idles (some k) { w₃ with own := { w₃.own with uvcDev := some selected } } :=
          ⟨hidles.uvcDevh, hidles.streaming, hidles.handles, hidles.stream⟩
        apply wp_talks (pastDeadline_talks deadline)
        intro late w₄ h₄
        have hidles₄ := h₄.idles hheld
        have hqueued₄ := h₄.quiet hidles.stream hqueued
        rw [wp_bind]
        have hprobe : Stays Talks (if late = true then pure (-1) else
            getStreamCtrlFormatSize env w₃.stream.negotiatedWidth w₃.stream.negotiatedHeight
              w₃.own.negotiatedFramerate) :=
          stays_ite (stays_pure _) (getStreamCtrlFormatSize_talks _ _ _)
        apply wp_talks hprobe
        intro res w₅ h₅
        have hidles₅ := h₅.idles hidles₄
        have hqueued₅ := h₅.quiet hidles₄.stream hqueued₄
        rw [wp_ite]
        constructor
        · intro _
          rw [wp_bind]
          exact wp_mono (closeAndUnref_gone hidles₅ hqueued₅) fun _ _ hgone => hgone
        · intro _
          exact rearmAndStart_streams deadline hidles₅ hqueued₅

/-! ## The proof -/

/-- What a popped item leaves in hand. -/
def QueueItem.hand : QueueItem → List GstBuffer
  | .buffer buf => [buf]
  | .flushSentinel => []

theorem queued_cons (w : World) (item : QueueItem) (rest : List QueueItem) :
    queued { w with queue := item :: rest } = item.hand ++ queued { w with queue := rest } := by
  cases item <;> rfl

theorem queueTimeoutPop_streams {k : Nat} (h : Streams k [] w) :
    wp (fun _ => True) (queueTimeoutPop env)
      (fun item w' => Streams k (item.elim [] QueueItem.hand) w') w := by
  unfold queueTimeoutPop
  rw [wp_bind]
  apply wp_turn_talks
  intro w' ht
  have h' := ht.streams h
  rw [wp_bind, wp_get, wp_bind, wp_modify, wp_bind, wp_record, wp_pure]
  refine ⟨h'.uvcDevh, h'.streaming, h'.handles, h'.stream, ?_⟩
  have hinorder := h'.inOrder
  unfold InOrder at hinorder ⊢
  have hpopped : w'.queue.head?.elim [] QueueItem.hand ++ queued { w' with queue := w'.queue.tail } = queued w' := by
    cases hqueue : w'.queue with
    | nil => exact (queued_congr hqueue).symm
    | cons item rest => exact ((queued_cons w' item rest).symm.trans (queued_congr hqueue.symm))
  show (_ ++ queued { w' with queue := w'.queue.tail }).Sublist (delivered w'.log).reverse
  rw [hpopped]
  exact hinorder

/-- A frame of its own stream is in front. -/
def Proven (w : World) : Prop := ∃ k, Streams k [] w ∧ ∃ buf rest, w.queue = .buffer buf :: rest

theorem Streams.drop {k : Nat} {hand : List GstBuffer} (h : Streams k hand w) : Streams k [] w where
  uvcDevh := h.uvcDevh
  streaming := h.streaming
  handles := h.handles
  stream := h.stream
  inOrder := (List.sublist_append_right hand (queued w)).trans h.inOrder

theorem awaitFirstFrame_proves {k : Nat} (waitUs : Int) (h : Streams k [] w) :
    wp (fun _ => True) (awaitFirstFrame env waitUs)
      (fun ok w' => if ok then Proven w' else Streams k [] w') w := by
  unfold awaitFirstFrame
  rw [wp_bind]
  apply wp_talks monotonicTime_talks
  intro now w₁ h₁
  unfold forever
  refine wp_loop (J := fun _ w => Streams k [] w) ?_ (fun _ _ _ => trivial) (h₁.streams h)
  intro deadline w₂ h₂
  rw [wp_bind]
  apply wp_talks monotonicTime_talks
  intro now w₃ h₃
  have hstreams₃ := h₃.streams h₂
  rw [wp_ite]
  refine ⟨fun _ => hstreams₃, fun _ => ?_⟩
  rw [wp_bind]
  refine wp_mono (queueTimeoutPop_streams hstreams₃) fun item w₄ h₄ => ?_
  cases item with
  | none => exact h₄
  | some item =>
    rw [wp_bind]
    apply wp_talks isFlushing_talks
    intro flushing w₅ h₅
    have hstreams₅ := h₅.streams h₄
    rw [wp_ite]
    refine ⟨fun _ => ?_, fun _ => ?_⟩
    · rw [wp_bind]
      apply wp_talks (record_talks fun _ => ⟨rfl, rfl⟩)
      exact fun _ w₆ h₆ => (h₆.streams hstreams₅).drop
    · rw [wp_ite]
      constructor
      · intro _
        exact hstreams₅.drop
      · intro hitem
        rw [wp_bind, wp_modify, wp_pure]
        cases item with
        | flushSentinel => exact absurd rfl hitem
        | buffer buf =>
          -- what was in hand is in front again
          refine ⟨k, ⟨hstreams₅.uvcDevh, hstreams₅.streaming, hstreams₅.handles, hstreams₅.stream, ?_⟩,
            buf, w₅.queue, rfl⟩
          exact hstreams₅.inOrder

/-- What a pass of the recovery leaves. -/
def Settled (ok : Bool) (w : World) : Prop := if ok then Proven w else Gone w

theorem settleUntilFrame_settles (selector : DeviceSelector) (deadline : Int) (h : Gone w) :
    wp (fun _ => True) (settleUntilFrame env selector deadline) Settled w := by
  unfold settleUntilFrame forever
  refine wp_loop (J := fun _ w => Gone w) ?_ (fun _ _ _ => trivial) h
  intro retryMs w₁ hgone₁
  rw [wp_bind]
  apply wp_talks isFlushing_talks
  intro flushing w₂ h₂
  have hgone₂ := h₂.gone hgone₁
  rw [wp_ite]
  refine ⟨fun _ => hgone₂, fun _ => ?_⟩
  rw [wp_bind]
  apply wp_talks monotonicTime_talks
  intro now w₃ h₃
  have hgone₃ := h₃.gone hgone₂
  rw [wp_ite]
  refine ⟨fun _ => hgone₃, fun _ => ?_⟩
  rw [wp_bind]
  refine wp_mono (reopenOnce_streams selector deadline hgone₃) fun ok w₄ h₄ => ?_
  unfold Reopened at h₄
  rw [wp_ite]
  constructor
  · intro hok
    rw [if_pos hok] at h₄
    obtain ⟨k, hstreams⟩ := h₄
    rw [wp_bind]
    apply wp_talks monotonicTime_talks
    intro now w₅ h₅
    have hstreams₅ := h₅.streams hstreams
    rw [wp_bind]
    have hproof : wp (fun _ => True)
        (if min (deadline - now) timeoutDuration > 0 then
          awaitFirstFrame env (min (deadline - now) timeoutDuration) else pure false)
        (fun ok w' => if ok then Proven w' else Streams k [] w') w₅ := by
      rw [wp_ite]
      exact ⟨fun _ => awaitFirstFrame_proves _ hstreams₅, fun _ => hstreams₅⟩
    refine wp_mono hproof fun proven w₆ h₆ => ?_
    rw [wp_ite]
    constructor
    · intro hproven
      rw [if_pos hproven] at h₆
      exact h₆
    · intro hproven
      rw [if_neg hproven] at h₆
      exact teardown_gone h₆.owned h₆.uvcDevh fun _ hgone => hgone
  · intro hok
    rw [if_neg hok] at h₄
    rw [wp_bind]
    apply wp_talks (interruptibleWait_talks _)
    intro awake w₅ h₅
    rw [wp_pure]
    split <;> exact h₅.gone h₄

theorem deepRecovery_gone (h : Gone w) : wp (fun _ => True) (deepRecovery env) (fun _ w' => Gone w') w := by
  unfold deepRecovery
  rw [wp_bind]
  apply wp_talks readProps_talks
  intro props w₁ h₁
  have hgone₁ := h₁.gone h
  rw [wp_bind, wp_get, wp_ite]
  refine ⟨fun _ => hgone₁, fun _ => ?_⟩
  rw [wp_bind, wp_modifyOwn, wp_bind, wp_record, wp_bind]
  have hran : Gone { w₁ with
      own := { w₁.own with deepRecoveryUsed := true }
      log := .deepRecovery :: w₁.log } :=
    ⟨⟨hgone₁.uvcDevh, hgone₁.streaming, hgone₁.handles, hgone₁.stream⟩, hgone₁.uvcDev, hgone₁.queued⟩
  apply wp_talks usbDeepRecoveryRun_talks
  intro outcome w₂ h₂
  rw [wp_bind]
  apply wp_talks (record_talks fun _ => ⟨rfl, rfl⟩)
  exact fun _ w₃ h₃ => h₃.gone (h₂.gone hran)

theorem escalate_settles (selector : DeviceSelector) (budgetMs : UInt32) (h : Gone w) :
    wp (fun _ => True) (escalate env selector budgetMs) Settled w := by
  unfold escalate
  rw [wp_bind]
  apply wp_talks isFlushing_talks
  intro flushing w₁ h₁
  have hgone₁ := h₁.gone h
  rw [wp_ite]
  refine ⟨fun _ => hgone₁, fun _ => ?_⟩
  rw [wp_bind]
  refine wp_mono (deepRecovery_gone hgone₁) fun acted w₂ hgone₂ => ?_
  rw [wp_ite]
  refine ⟨fun _ => ?_, fun _ => hgone₂⟩
  rw [wp_bind]
  apply wp_talks renewContext_talks
  intro ok w₃ h₃
  have hgone₃ := h₃.gone hgone₂
  rw [wp_ite]
  refine ⟨fun _ => ?_, fun _ => hgone₃⟩
  rw [wp_bind]
  apply wp_talks monotonicTime_talks
  exact fun now w₄ h₄ => settleUntilFrame_settles selector _ (h₄.gone hgone₃)

end LibuvcH264Src
