import LibuvcH264Src.Stages
import LibuvcH264Src.Selection

/-!
# The calls are chains of steps

* `wp_turn`, `wp_request` : what is left to show behind a turn of the others and behind a request;
* `*_staged` : where each call gets to from the stage in which it is made, and where it may be cut short;
* `reaches_staged` : every run of the virtual methods is a chain of steps.
-/

namespace LibuvcH264Src
open AnnexB Caps Prog

variable {env : Env} {g : Gst} {b : Nat} {n : Progress} {s : Stage} {w : World}

/-- Some stage has the world. -/
def Anywhere (g : Gst) (b : Nat) (w : World) : Prop := ∃ s, Staged g b s w

theorem Staged.anywhere (h : Staged g b s w) : Anywhere g b w := ⟨s, h⟩

/-! ## Turns -/

/-- Nothing but the others happened. -/
structure Quiet (w w' : World) : Prop where
  own : w'.own = w.own
  calm : Calm w w'

theorem Quiet.refl (w : World) : Quiet w w := ⟨rfl, Calm.refl w⟩

theorem Quiet.trans {w w' w'' : World} (h : Quiet w w') (h' : Quiet w' w'') : Quiet w w'' :=
  ⟨h'.own.trans h.own, h.calm.trans h'.calm⟩

theorem Quiet.mode {w w' : World} (h : Quiet w w') : w'.mode = w.mode := congrArg Core.mode h.calm.core

theorem Quiet.lastPop {w w' : World} (h : Quiet w w') : lastPop w'.log = lastPop w.log :=
  h.calm.eq (f := fun _ log => LibuvcH264Src.lastPop log) fun _ e _ he => by
    cases e <;> first | rfl | exact he.elim

theorem Quiet.stale {w w' : World} (h : Quiet w w') : stale w'.log = stale w.log :=
  h.calm.eq (f := fun _ log => LibuvcH264Src.stale log) fun _ e _ he => by
    cases e <;> first | rfl | exact he.elim

theorem wp_turn {Q : Unit → World → Prop} (h : Staged g b s w)
    (hQ : ∀ w', Staged g b s w' → Quiet w w' → Q () w') : wp (Anywhere g b) (turn env) Q w := by
  have heq : turn env w = if w.budget = 0 then (none, w)
      else (some (), w.others (env.meanwhile w.log) (w.budget - 1)) := rfl
  unfold wp
  rw [heq]
  by_cases hb : w.budget = 0
  · rw [if_pos hb]
    exact h.anywhere
  · rw [if_neg hb]
    exact hQ _ (h.step (.others (env.meanwhile w.log) (w.budget - 1))) ⟨others_own _ _ _, others_calm _ _ _⟩

theorem wp_isFlushing {Q : Bool → World → Prop} (h : Staged g b s w)
    (hQ : ∀ flushing w', Staged g b s w' → Quiet w w' → Q flushing w') :
    wp (Anywhere g b) (isFlushing env) Q w := by
  unfold isFlushing
  rw [wp_bind]
  refine wp_turn h fun w' hw hq => ?_
  exact hQ w'.flushing w' hw hq

theorem wp_readProps {Q : Props → World → Prop} (h : Staged g b s w)
    (hQ : ∀ w', Staged g b s w' → Quiet w w' → Q w'.props w') :
    wp (Anywhere g b) (readProps env) Q w := by
  unfold readProps
  rw [wp_bind]
  exact wp_turn h hQ

theorem wp_monotonicTime {Q : Int → World → Prop} (h : Staged g b s w)
    (hQ : ∀ now w', Staged g b s w' → Quiet w w' → Q now w') :
    wp (Anywhere g b) (monotonicTime env) Q w := by
  unfold monotonicTime
  rw [wp_bind]
  refine wp_turn h fun w' hw hq => ?_
  rw [wp_bind, wp_ask, wp_bind, wp_record, wp_pure]
  exact hQ _ _ (hw.step (.plain (.time _) trivial)) (hq.trans ⟨rfl, Calm.record trivial⟩)

theorem wp_pastDeadline {Q : Bool → World → Prop} (deadline : Int) (h : Staged g b s w)
    (hQ : ∀ late w', Staged g b s w' → Quiet w w' → Q late w') :
    wp (Anywhere g b) (pastDeadline env deadline) Q w := by
  unfold pastDeadline
  rw [wp_ite]
  refine ⟨fun _ => hQ _ w h (Quiet.refl w), fun _ => ?_⟩
  rw [wp_bind]
  exact wp_monotonicTime h fun now w' hw hq => hQ _ w' hw hq

theorem wp_interruptibleWait {Q : Bool → World → Prop} (waitUs : Int) (h : Staged g b s w)
    (hQ : ∀ awake w', Staged g b s w' → Q awake w') :
    wp (Anywhere g b) (interruptibleWait env waitUs) Q w := by
  have hpark : ∀ deadline w, Staged g b s w →
      wp (Anywhere g b) (parkUntil env deadline) (fun _ w' => Staged g b s w') w := by
    intro deadline w h
    unfold parkUntil forever
    refine wp_loop (J := fun _ w => Staged g b s w) ?_ (fun _ _ h => h.anywhere) h
    intro _ w h
    rw [wp_bind]
    refine wp_isFlushing h fun flushing w h _ => ?_
    rw [wp_ite]
    refine ⟨fun _ => h, fun _ => ?_⟩
    rw [wp_bind]
    refine wp_turn h fun w h _ => ?_
    rw [wp_bind, wp_ask, wp_pure]
    split <;> exact h
  unfold interruptibleWait
  rw [wp_bind, wp_when]
  have hend : ∀ w, Staged g b s w →
      wp (Anywhere g b) (do return !(← isFlushing env)) Q w := by
    intro w h
    rw [wp_bind]
    exact wp_isFlushing h fun flushing w' hw _ => hQ _ w' hw
  refine ⟨fun _ => ?_, fun _ => hend w h⟩
  rw [wp_bind]
  refine wp_monotonicTime h fun now w h _ => ?_
  exact wp_mono (hpark _ w h) fun _ w' hw => hend w' hw

/-! ## The context and the queue -/

theorem uvcInit_staged (h : Staged g b ⟨.bare, n⟩ w) :
    wp (Anywhere g b) (uvcInit env)
      (fun res w' => Staged g b ⟨if res < 0 then .bare else .vacant, n⟩ w') w := by
  unfold uvcInit
  rw [wp_bind]
  refine wp_turn h fun w h _ => ?_
  rw [wp_bind, wp_ask, wp_bind, wp_record, wp_bind, wp_modifyOwn, wp_pure]
  exact h.step (.init (env.uvcInit w.log))

theorem uvcExit_staged (h : Staged g b ⟨.vacant, n⟩ w) :
    wp (Anywhere g b) (uvcExit env) (fun _ w' => Staged g b ⟨.bare, n⟩ w') w := by
  unfold uvcExit
  rw [wp_bind]
  refine wp_turn h fun w h _ => ?_
  rw [wp_bind, wp_record, wp_modifyOwn]
  exact h.step .exit

theorem drainQueue_staged (h : Staged g b s w) (hgrip : s.grip.isStreaming = false) :
    wp (Anywhere g b) (drainQueue env) (fun _ w' => Staged g b s w') w := by
  unfold drainQueue
  rw [wp_bind]
  refine wp_turn h fun w h _ => ?_
  rw [wp_modify]
  exact h.step (.drain hgrip)

theorem wp_queueTimeoutPop {grip : Grip} {Q : Option QueueItem → World → Prop} (recovery : Bool)
    (h : Staged g b ⟨grip, .turn recovery⟩ w)
    (hQ : ∀ item w', Staged g b ⟨grip, .holding recovery⟩ w' → lastPop w'.log = item → w'.own = w.own → Q item w') :
    wp (Anywhere g b) (queueTimeoutPop env) Q w := by
  unfold queueTimeoutPop
  rw [wp_bind]
  refine wp_turn h fun w' hw hq => ?_
  rw [wp_bind, wp_get, wp_bind, wp_modify, wp_bind, wp_record, wp_pure]
  exact hQ _ _ (hw.step (.pop recovery)) rfl hq.own

/-! ## The device and its handle -/

theorem wp_when_record {I : World → Prop} {Q : Unit → World → Prop} {c : Prop} [Decidable c] {e : Event} :
    wp I (when c (record e)) Q w ↔ Q () (if c then w.note e else w) := by
  rw [wp_when]
  split <;> simp_all [World.note]

theorem resolveDevice_staged (selector : DeviceSelector) (deadline : Int) (h : Staged g b ⟨.vacant, n⟩ w) :
    wp (Anywhere g b) (resolveDevice env selector deadline)
      (fun found w' => Staged g b
        ⟨match found with | .error _ => .vacant | .ok (dev, _) => .found dev, n⟩ w') w := by
  unfold resolveDevice forever
  refine wp_loop (J := fun _ w => Staged g b ⟨.vacant, n⟩ w) ?_ (fun _ _ h => h.anywhere) h
  intro intervalMs w h
  unfold uvcFindDevices
  rw [wp_bind, wp_bind]
  refine wp_turn h fun w h _ => ?_
  rw [wp_bind, wp_ask, wp_bind, wp_record, wp_pure]
  split
  · next found hfound =>
    rw [wp_bind, wp_record, wp_bind, wp_record, wp_pure]
    obtain ⟨list, hlist, hmatch⟩ := Option.bind_eq_some_iff.mp hfound
    exact h.step (.find _ found.1 ⟨list, hlist, (findMatching_mem hmatch).1⟩)
  · rw [wp_bind, wp_when_record, wp_ite]
    generalize hw : (if (env.uvcFindDevices w.log).isSome = true then _ else _) = w'
    have hnone : Staged g b ⟨.vacant, n⟩ w' := hw ▸ h.step (.lookFor (env.uvcFindDevices w.log))
    refine ⟨fun _ => hnone, fun _ => ?_⟩
    rw [wp_bind]
    refine wp_monotonicTime hnone fun now w h _ => ?_
    rw [wp_ite]
    refine ⟨fun _ => h, fun _ => ?_⟩
    rw [wp_bind]
    refine wp_interruptibleWait _ h fun awake w h => ?_
    rw [wp_pure]
    split <;> exact h

theorem Staged.handle (h : Staged g b s w) (hopen : s.grip.isOpen = true) :
    ∃ k, w.own.uvcDevh = some k ∧ k ∈ openHandles w.log := by
  obtain ⟨k, hk⟩ := Option.isSome_iff_exists.mp (h.holds.devh.trans hopen)
  exact ⟨k, hk, h.holds.valid k hk⟩

theorem Staged.noHandle (h : Staged g b s w) (hopen : s.grip.isOpen = false) : w.own.uvcDevh = none :=
  Option.isSome_eq_false_iff.mp (h.holds.devh.trans hopen) |> Option.isNone_iff_eq_none.mp

theorem wp_withHandle {e : Option Nat → Event} {Q : Unit → World → Prop} (h : Staged g b s w)
    (hopen : s.grip.isOpen = true) (hQ : Q () (w.note (e w.own.uvcDevh))) :
    wp (Anywhere g b) (withHandle e) Q w := by
  obtain ⟨k, hk, hmem⟩ := h.handle hopen
  unfold withHandle
  rw [wp_bind, wp_get, wp_bind, wp_record]
  rw [hk] at hQ ⊢
  simp only [if_pos hmem]
  exact hQ

/-- Without a handle the run ends in the call. -/
theorem wp_withHandle_stray {e : Option Nat → Event} {Q : Unit → World → Prop}
    (hdevh : w.own.uvcDevh = none) (he : Anywhere g b (w.note (e w.own.uvcDevh))) :
    wp (Anywhere g b) (withHandle e) Q w := by
  unfold withHandle
  rw [wp_bind, wp_get, wp_bind, wp_record]
  rw [hdevh] at he ⊢
  exact he

theorem wp_request {req : Request} {Q : Reply → World → Prop} (h : Staged g b s w)
    (hopen : s.grip.isOpen = true)
    (hQ : ∀ reply w', reply = env.reply w'.log req → Staged g b s w' → Quiet w w' →
      Q reply (w'.note (.request w'.own.uvcDevh req reply))) :
    wp (Anywhere g b) (request env req) Q w := by
  unfold request
  rw [wp_bind]
  refine wp_turn h fun w h hq => ?_
  rw [wp_bind, wp_ask, wp_bind]
  exact wp_withHandle h hopen (hQ _ w rfl h hq)

theorem wp_request_stray {req : Request} {Q : Reply → World → Prop} (h : Staged g b ⟨.stray, n⟩ w) :
    wp (Anywhere g b) (request env req) Q w := by
  unfold request
  rw [wp_bind]
  refine wp_turn h fun w h _ => ?_
  rw [wp_bind, wp_ask, wp_bind]
  exact wp_withHandle_stray (h.noHandle rfl) (h.step (.strayRequest req _)).anywhere

theorem wp_uvcGetFormatDescs {Q : List FormatDesc → World → Prop} (h : Staged g b s w)
    (hopen : s.grip.isOpen = true)
    (hQ : ∀ formats w', Staged g b s w' → Q formats w') :
    wp (Anywhere g b) (uvcGetFormatDescs env) Q w := by
  unfold uvcGetFormatDescs
  rw [wp_bind]
  refine wp_turn h fun w h _ => ?_
  rw [wp_bind, wp_ask, wp_bind]
  exact wp_withHandle h hopen (hQ _ _ (h.step (.formatDescs hopen)))

/-! ## What is asked of the device -/

/-- What the talk with the device leaves alone. -/
structure Keeps (w w' : World) : Prop where
  mode : w'.mode = w.mode
  pad : padCaps w'.log = padCaps w.log
  selecting : lastSelecting w'.log = lastSelecting w.log

theorem Keeps.trans {w w' w'' : World} (h : Keeps w w') (h' : Keeps w' w'') : Keeps w w'' :=
  ⟨h'.mode.trans h.mode, h'.pad.trans h.pad, h'.selecting.trans h.selecting⟩

theorem Quiet.keeps {w w' : World} (h : Quiet w w') : Keeps w w' where
  mode := h.mode
  pad := h.calm.eq (f := fun _ log => padCaps log) fun _ e _ he => by
    cases e <;> first | rfl | exact he.elim
  selecting := h.calm.eq (f := fun _ log => lastSelecting log) fun _ e _ he => by
    cases e <;> first | rfl | exact he.elim

theorem Quiet.agrees {w w' : World} (h : Quiet w w') {mode : StreamMode} (ho : Agrees mode w) :
    Agrees mode w' := by
  unfold Agrees
  rw [h.own, h.stale]
  exact ho

/-- The mode that `uvc_get_stream_ctrl_format_size` is asked for. -/
def World.asked (w : World) (width height fps : Int) : StreamMode := ⟨w.stream.frameFormat, width, height, fps⟩

theorem Keeps.asked {w w' : World} (h : Keeps w w') (width height fps : Int) :
    w'.asked width height fps = w.asked width height fps := by
  have hformat : w'.stream.frameFormat = w.stream.frameFormat := congrArg StreamMode.format h.mode
  unfold World.asked
  rw [hformat]

theorem Stage.Open.isOpen (h : s.Open) : s.grip.isOpen = true := by
  rcases h with h | ⟨h, -⟩ <;> rw [h] <;> rfl

theorem getStreamCtrlFormatSize_staged (width height fps : Int) (h : Staged g b s w) (ho : s.Open) :
    wp (Anywhere g b) (getStreamCtrlFormatSize env width height fps)
      (fun res w' => Staged g b s w' ∧ Keeps w w' ∧ (¬ res < 0 → Agrees (w.asked width height fps) w')) w := by
  unfold getStreamCtrlFormatSize
  rw [wp_bind, wp_get, wp_bind]
  refine wp_request h ho.isOpen fun reply w' hreply hw hq => ?_
  rw [wp_bind, wp_modifyOwn, wp_pure]
  refine ⟨hw.step (.probe ho _ reply), hq.keeps.trans ⟨rfl, rfl, rfl⟩, fun hres => Or.inl ?_⟩
  subst hreply
  exact env.probed w'.log _ hres

theorem uvcProbeStreamCtrl_staged {mode : StreamMode} (h : Staged g b s w) (ho : s.Open) (ha : Agrees mode w) :
    wp (Anywhere g b) (uvcProbeStreamCtrl env)
      (fun res w' => Staged g b s w' ∧ Keeps w w' ∧ (¬ res < 0 → Agrees mode w')) w := by
  unfold uvcProbeStreamCtrl
  rw [wp_bind, wp_get, wp_bind]
  refine wp_request h ho.isOpen fun reply w' hreply hw hq => ?_
  rw [wp_bind, wp_modifyOwn, wp_pure]
  have hctrl : w.own.uvcCtrl = w'.own.uvcCtrl := by rw [hq.own]
  rw [hctrl] at hreply ⊢
  refine ⟨hw.step (.payload ho reply), hq.keeps.trans ⟨rfl, rfl, rfl⟩, fun hres => ?_⟩
  rcases hq.agrees ha with hmode | hstale
  · subst hreply
    exact Or.inl ((env.reprobed w'.log _ hres).trans hmode)
  · exact Or.inr hstale

theorem probeStreamCtrl_staged (width height fps : Int) (policy : ProbePolicy) (h : Staged g b s w)
    (ho : s.Open) :
    wp (Anywhere g b) (probeStreamCtrl env width height fps policy)
      (fun res w' => Staged g b s w' ∧ Keeps w w' ∧ (¬ res < 0 → Agrees (w.asked width height fps) w')) w := by
  have hagain : ∀ w', Staged g b s w' → Keeps w w' →
      wp (Anywhere g b) (getStreamCtrlFormatSize env width height fps)
        (fun res w'' => Staged g b s w'' ∧ Keeps w w'' ∧
          (¬ res < 0 → Agrees (w.asked width height fps) w'')) w' := by
    intro w' hw hk
    refine wp_mono (getStreamCtrlFormatSize_staged width height fps hw ho) ?_
    rintro res w'' ⟨hw', hk', ha⟩
    rw [hk.asked] at ha
    exact ⟨hw', hk.trans hk', ha⟩
  have hlast : ∀ w', Staged g b s w' → Keeps w w' →
      wp (Anywhere g b) (do
        let res ← getStreamCtrlFormatSize env width height fps
        if policy = .retry ∧ res = uvcErrorInvalidMode then getStreamCtrlFormatSize env width height fps
        else return res)
        (fun res w'' => Staged g b s w'' ∧ Keeps w w'' ∧
          (¬ res < 0 → Agrees (w.asked width height fps) w'')) w' := by
    intro w' hw hk
    rw [wp_bind]
    refine wp_mono (hagain w' hw hk) ?_
    rintro res w'' ⟨hw', hk', ha⟩
    rw [wp_ite]
    exact ⟨fun _ => hagain w'' hw' hk', fun _ => ⟨hw', hk', ha⟩⟩
  unfold probeStreamCtrl
  rw [wp_bind, wp_when]
  refine ⟨fun _ => ?_, fun _ => hlast w h ⟨rfl, rfl, rfl⟩⟩
  rw [wp_bind]
  refine wp_mono (hagain w h ⟨rfl, rfl, rfl⟩) ?_
  rintro res w' ⟨hw, hk, -⟩
  exact hlast w' hw hk

theorem negotiateCleanPayload_staged (width height fps : Int) (h : Staged g b s w)
    (ho : s.Open ∨ s.grip = .starting ∧ w.asked width height fps = w.mode) :
    wp (Anywhere g b) (negotiateCleanPayload env width height fps)
      (fun _ w' => Staged g b s w' ∧ Keeps w w' ∧ Agrees (w.asked width height fps) w') w := by
  have hopen : s.grip.isOpen = true := by
    rcases ho with ho | ⟨ho, -⟩
    · exact ho.isOpen
    · rw [ho]
      rfl
  unfold negotiateCleanPayload getStreamCtrlFormatSize
  rw [wp_bind, wp_bind, wp_get, wp_bind]
  refine wp_request h hopen fun reply w' hreply hw hq => ?_
  rw [wp_bind, wp_modifyOwn, wp_pure, wp_bind, wp_get, wp_ite]
  have hasked : w'.asked width height fps = w.asked width height fps := hq.keeps.asked width height fps
  have ho' : s.Open ∨ s.grip = .starting ∧ w.asked width height fps = w'.mode := by rwa [hq.mode]
  constructor
  · intro hres
    rw [wp_bind, wp_record, wp_pure]
    show Staged g b s (World.note _ (.cleanRefused (w'.asked width height fps) _)) ∧ _
    rw [hasked]
    refine ⟨hw.step (.cleanRefused _ ho' reply hres), hq.keeps.trans ⟨rfl, rfl, rfl⟩, ?_⟩
    by_cases hmode : reply.ctrl.mode = some (w.asked width height fps)
    · exact Or.inl hmode
    · refine Or.inr (?_ : stale (.cleanRefused (w'.asked width height fps) _ :: _) = true)
      rw [hasked]
      exact decide_eq_true hmode
  · intro hres
    rw [wp_bind, wp_modifyOwn, wp_pure]
    have hleft : reply.ctrl.mode = some (w.asked width height fps) := by
      subst hreply
      exact env.probed w'.log _ hres
    exact ⟨hw.step (.clean _ ho' reply hleft), hq.keeps.trans ⟨rfl, rfl, rfl⟩, Or.inl hleft⟩

theorem applyMaxPayload_staged (width height fps : Int) (h : Staged g b s w) (ho : s.Open)
    (ha : Agrees (w.asked width height fps) w) :
    wp (Anywhere g b) (applyMaxPayload env width height fps)
      (fun _ w' => Staged g b s w' ∧ Keeps w w' ∧ Agrees (w.asked width height fps) w') w := by
  unfold applyMaxPayload
  rw [wp_bind]
  refine wp_readProps h fun w' hw hq => ?_
  have ha' := hq.agrees ha
  rw [wp_ite]
  constructor
  · intro _
    exact ⟨hw.step (.effective ho), hq.keeps.trans ⟨rfl, rfl, rfl⟩, ha'⟩
  · intro _
    rw [wp_bind, wp_modifyOwn, wp_bind]
    refine wp_mono (uvcProbeStreamCtrl_staged (hw.step (.override ho _)) ho ha') ?_
    rintro res w'' ⟨hw'', hk, ha''⟩
    have hkeeps : Keeps w w'' := hq.keeps.trans ⟨hk.mode, hk.pad, hk.selecting⟩
    rw [wp_bind, wp_get, wp_ite]
    constructor
    · intro _
      rw [wp_bind]
      refine wp_mono (negotiateCleanPayload_staged width height fps hw'' (Or.inl ho)) ?_
      rintro _ w3 ⟨hw3, hk3, ha3⟩
      rw [hkeeps.asked] at ha3
      exact ⟨hw3, hkeeps.trans hk3, ha3⟩
    · intro hres
      exact ⟨hw''.step (.effective ho), hkeeps.trans ⟨rfl, rfl, rfl⟩, ha'' fun hneg => hres (Or.inl hneg)⟩

theorem applyTransferBuffers_staged (h : Staged g b s w) (hgrip : s.grip = .ready ∨ s.grip = .starting) :
    wp (Anywhere g b) (applyTransferBuffers env) (fun _ w' => Staged g b s w' ∧ Keeps w w') w := by
  have hopen : s.grip.isOpen = true := by
    rcases hgrip with hgrip | hgrip <;> rw [hgrip] <;> rfl
  unfold applyTransferBuffers
  rw [wp_bind]
  refine wp_readProps h fun w' hw hq => ?_
  rw [wp_when]
  refine ⟨fun _ => ?_, fun _ => ⟨hw, hq.keeps⟩⟩
  rw [wp_bind]
  refine wp_request hw hopen fun reply w'' _ hw'' hq'' => ?_
  have hstep := hw''.step (.transfer hgrip w'.props.transferBuffers reply)
  rw [wp_when]
  constructor
  · intro hres
    rw [if_neg hres] at hstep
    exact ⟨hstep, (hq.trans hq'').keeps.trans ⟨rfl, rfl, rfl⟩⟩
  · intro hres
    rw [if_pos (not_not.mp hres)] at hstep
    exact ⟨hstep, (hq.trans hq'').keeps.trans ⟨rfl, rfl, rfl⟩⟩

theorem applyTransferBuffers_stray (h : Staged g b ⟨.stray, n⟩ w) :
    wp (Anywhere g b) (applyTransferBuffers env) (fun _ w' => Staged g b ⟨.stray, n⟩ w') w := by
  unfold applyTransferBuffers
  rw [wp_bind]
  refine wp_readProps h fun w' hw hq => ?_
  rw [wp_when]
  refine ⟨fun _ => ?_, fun _ => hw⟩
  rw [wp_bind]
  exact wp_request_stray hw

/-! ## Closing and reopening -/

theorem closeDevh_staged {grip : Grip} (h : Staged g b ⟨grip, n⟩ w) (hgrip : grip = .opened ∨ grip = .ready) :
    wp (Anywhere g b) (closeDevh env) (fun _ w' => Staged g b ⟨.held, n⟩ w') w := by
  obtain ⟨k, hk, -⟩ := h.handle (by rcases hgrip with rfl | rfl <;> rfl)
  unfold closeDevh uvcClose
  rw [wp_bind, wp_get, hk]
  simp only []
  rw [wp_bind]
  refine wp_turn h fun w' hw hq => ?_
  rw [wp_bind, wp_record, wp_modifyOwn]
  exact hw.step (.close grip hgrip k (by rw [hq.own, hk]))

/-- Where no handle is, there is none to close. -/
theorem closeDevh_none {I : World → Prop} {Q : Unit → World → Prop} (hdevh : w.own.uvcDevh = none)
    (hQ : Q () w) : wp I (closeDevh env) Q w := by
  unfold closeDevh
  rw [wp_bind, wp_get, hdevh]
  exact hQ

theorem unrefDevice_staged {I : World → Prop} (h : Staged g b ⟨.held, n⟩ w) :
    wp I unrefDevice (fun _ w' => Staged g b ⟨.vacant, n⟩ w') w := by
  obtain ⟨dev, hdev⟩ := Option.isSome_iff_exists.mp (h.holds.dev.trans rfl)
  unfold unrefDevice
  rw [wp_bind, wp_get, hdev]
  simp only []
  rw [wp_bind, wp_record, wp_modifyOwn]
  exact h.step (.unref dev hdev)

theorem unrefDevice_none {I : World → Prop} {Q : Unit → World → Prop} (hdev : w.own.uvcDev = none)
    (hQ : Q () w) : wp I unrefDevice Q w := by
  unfold unrefDevice
  rw [wp_bind, wp_get, hdev]
  exact hQ

theorem closeAndUnref_staged {grip : Grip} (h : Staged g b ⟨grip, n⟩ w)
    (hgrip : grip = .opened ∨ grip = .ready) :
    wp (Anywhere g b) (closeAndUnref env) (fun _ w' => Staged g b ⟨.vacant, n⟩ w') w := by
  unfold closeAndUnref
  rw [wp_bind]
  exact wp_mono (closeDevh_staged h hgrip) fun _ w' hw => unrefDevice_staged hw

theorem stopDevh_staged (h : Staged g b ⟨.running, n⟩ w) :
    wp (Anywhere g b) (stopDevh env) (fun _ w' => Staged g b ⟨.ready, n⟩ w') w := by
  obtain ⟨k, hk, -⟩ := h.handle rfl
  unfold stopDevh uvcStopStreaming
  rw [wp_bind, wp_get, hk]
  simp only []
  rw [wp_bind, wp_bind]
  refine wp_turn h fun w' hw hq => ?_
  rw [wp_record, wp_modifyOwn]
  exact hw.step (.stopStream k (by rw [hq.own, hk]))

theorem teardownHandle_staged (h : Staged g b ⟨.running, n⟩ w) :
    wp (Anywhere g b) (teardownHandle env) (fun _ w' => Staged g b ⟨.vacant, n⟩ w') w := by
  unfold teardownHandle
  rw [wp_bind]
  refine wp_mono (stopDevh_staged h) fun _ w' hw => ?_
  rw [wp_bind]
  exact wp_mono (closeDevh_staged hw (Or.inr rfl)) fun _ w'' hw'' => unrefDevice_staged hw''

theorem rearmAndStart_staged (deadline : Int) (h : Staged g b ⟨.opened, n⟩ w) (hn : n ≠ .fresh)
    (ha : Agrees w.mode w) :
    wp (Anywhere g b) (rearmAndStart env deadline)
      (fun ok w' => Staged g b ⟨if ok then .running else .vacant, n⟩ w') w := by
  unfold rearmAndStart
  rw [wp_bind, wp_get, wp_bind]
  refine wp_mono (applyMaxPayload_staged _ _ _ h (Or.inl rfl) ha) ?_
  rintro _ w' ⟨hw, hk, ha'⟩
  have hready : Staged g b ⟨.ready, n⟩ w' := by
    refine hw.step (.agree ?_)
    rw [hk.mode]
    exact ha'
  rw [wp_bind, wp_modifyStream, wp_bind]
  refine wp_mono (applyTransferBuffers_staged (hready.step .rearm) (Or.inl rfl)) ?_
  rintro _ w'' ⟨hw'', -⟩
  rw [wp_bind]
  refine wp_pastDeadline deadline hw'' fun late w3 hw3 _ => ?_
  have hfail : ∀ w, Staged g b ⟨.ready, n⟩ w →
      wp (Anywhere g b) (do closeAndUnref env; return false)
        (fun ok w' => Staged g b ⟨if ok then .running else .vacant, n⟩ w') w := by
    intro w h
    rw [wp_bind]
    exact wp_mono (closeAndUnref_staged h (Or.inr rfl)) fun _ w' hw => hw
  rw [wp_bind, wp_ite]
  constructor
  · intro _
    rw [wp_pure, wp_ite]
    exact ⟨fun _ => hfail w3 hw3, fun hn => absurd (by decide) hn⟩
  · intro _
    unfold uvcStartStreaming
    rw [wp_bind, wp_get, wp_bind]
    refine wp_request hw3 rfl fun reply w4 _ hw4 hq4 => ?_
    have hctrl : w3.own.uvcCtrl = w4.own.uvcCtrl := by rw [hq4.own]
    rw [hctrl, wp_pure, wp_ite]
    refine ⟨fun hres => hfail _ (hw4.step (.startRefused (Or.inl rfl) reply hres)), fun hres => ?_⟩
    rw [wp_bind, wp_modifyOwn, wp_pure]
    exact hw4.step (.start .ready (Or.inl rfl) hn reply hres)

theorem reopenOnce_staged (selector : DeviceSelector) (deadline : Int) (h : Staged g b ⟨.vacant, n⟩ w)
    (hn : n ≠ .fresh) :
    wp (Anywhere g b) (reopenOnce env selector deadline)
      (fun ok w' => Staged g b ⟨if ok then .running else .vacant, n⟩ w') w := by
  unfold reopenOnce
  rw [wp_bind]
  refine wp_mono (resolveDevice_staged selector deadline h) ?_
  rintro (failed | ⟨dev, ordinal⟩) w hw
  · exact hw
  · show wp _ (pastDeadline env deadline >>= _) _ w
    rw [wp_bind]
    refine wp_pastDeadline deadline hw fun late w hw _ => ?_
    rw [wp_ite]
    refine ⟨fun _ => hw.step (.release dev), fun _ => ?_⟩
    unfold uvcOpen
    rw [wp_bind, wp_bind]
    refine wp_turn hw fun w hw _ => ?_
    rw [wp_bind, wp_ask, wp_bind, wp_ask, wp_bind, wp_record, wp_bind, wp_modifyOwn, wp_pure, wp_ite]
    have hdevh : w.own.uvcDevh = none := hw.noHandle rfl
    constructor
    · intro hres
      rw [wp_bind, wp_modifyOwn, wp_bind, wp_record, wp_pure]
      have hstep := (hw.step (.refused dev _ (Or.inl rfl) (env.uvcOpen w.log dev) hres)).step (.release dev)
      have hown : ({ w.own with uvcDevh := none } : Own) = w.own := by rw [← hdevh]
      show Staged g b _ (World.note { w with own := { w.own with uvcDevh := none }, log := _ } _)
      rw [hown]
      exact hstep
    · intro hres
      simp only [if_neg hres]
      have hopened := hw.step (.openFound dev (env.uvcOpen w.log dev) hres)
      rw [wp_bind, wp_modifyOwn, wp_bind, wp_get, wp_bind]
      refine wp_pastDeadline deadline hopened fun late w' hw' hq => ?_
      have hfail : ∀ w, Staged g b ⟨.opened, n⟩ w →
          wp (Anywhere g b) (do closeAndUnref env; return false)
            (fun ok w' => Staged g b ⟨if ok then .running else .vacant, n⟩ w') w := by
        intro w h
        rw [wp_bind]
        exact wp_mono (closeAndUnref_staged h (Or.inl rfl)) fun _ w' hw => hw
      rw [wp_bind, wp_ite]
      constructor
      · intro _
        rw [wp_pure, wp_ite]
        exact ⟨fun _ => hfail w' hw', fun hn => absurd (by decide) hn⟩
      · intro _
        refine wp_mono (getStreamCtrlFormatSize_staged _ _ _ hw' (Or.inl rfl)) ?_
        rintro res w'' ⟨hw'', hk, ha⟩
        rw [wp_ite]
        refine ⟨fun _ => hfail w'' hw'', fun hres' => rearmAndStart_staged deadline hw'' hn ?_⟩
        have hmode : w''.mode = w'.mode := hk.mode
        rw [hmode]
        have hasked : w'.mode = w'.asked w.stream.negotiatedWidth w.stream.negotiatedHeight
            w.own.negotiatedFramerate := by
          have hm := hq.mode
          unfold World.mode at hm ⊢
          unfold World.asked
          injection hm with hformat hwidth hheight hfps
          rw [hwidth, hheight, hfps]
        rw [hasked]
        exact ha hres'

/-! ## Reconnect and recovery -/

theorem reconnectAttempts_staged (selector : DeviceSelector) (left backoffS : Nat)
    (h : Staged g b ⟨.vacant, n⟩ w) (hn : n ≠ .fresh) :
    wp (Anywhere g b) (reconnectAttempts env selector left backoffS)
      (fun ok w' => Staged g b ⟨if ok then .running else .vacant, n⟩ w') w := by
  induction left generalizing backoffS w with
  | zero =>
    rw [reconnectAttempts, wp_pure]
    exact h
  | succ left ih =>
    rw [reconnectAttempts]
    unfold reconnectAttempt
    rw [wp_bind]
    refine wp_interruptibleWait _ h fun awake w h => ?_
    rw [wp_ite]
    refine ⟨fun _ => ?_, fun _ => h⟩
    rw [wp_bind]
    refine wp_mono (reopenOnce_staged selector 0 h hn) fun ok w hw => ?_
    rw [wp_ite]
    constructor
    · intro hok
      rw [if_pos hok] at hw
      exact hw
    · intro hok
      rw [if_neg hok] at hw
      exact ih _ hw

/-- What a recovery leaves of a stream: the stream, or less. -/
def AfterRecovery (g : Gst) (b : Nat) (n : Progress) (ok : Bool) (w : World) : Prop :=
  ∃ grip : Grip, grip.AtRest ∧ grip ≠ .opened ∧ (ok = true → grip = .running) ∧ Staged g b ⟨grip, n⟩ w

theorem Staged.after {grip : Grip} (h : Staged g b ⟨grip, n⟩ w) (hrest : grip.AtRest) (hopened : grip ≠ .opened)
    {ok : Bool} (hok : ok = true → grip = .running) : AfterRecovery g b n ok w :=
  ⟨grip, hrest, hopened, hok, h⟩

theorem Staged.afterReopen {ok : Bool} (h : Staged g b ⟨if ok then .running else .vacant, n⟩ w) :
    AfterRecovery g b n ok w := by
  cases ok
  · exact h.after trivial nofun nofun
  · exact h.after trivial nofun fun _ => rfl

theorem reconnect_staged (h : Staged g b ⟨.running, n⟩ w) (hn : n ≠ .fresh) :
    wp (Anywhere g b) (reconnect env) (fun ok w' => AfterRecovery g b n ok w') w := by
  unfold reconnect reconnectBounded
  rw [wp_bind, wp_get]
  split
  · exact h.after trivial nofun nofun
  · rw [wp_bind]
    refine wp_mono (teardownHandle_staged h) fun _ w hw => ?_
    rw [wp_bind]
    refine wp_mono (drainQueue_staged hw rfl) fun _ w hw => ?_
    exact wp_mono (reconnectAttempts_staged _ _ _ hw hn) fun ok w hw => hw.afterReopen

theorem awaitFirstFrame_staged {grip : Grip} (waitUs : Int) (h : Staged g b ⟨grip, .settling⟩ w) :
    wp (Anywhere g b) (awaitFirstFrame env waitUs)
      (fun ok w' => Staged g b ⟨grip, if ok then .proven else .settling⟩ w') w := by
  unfold awaitFirstFrame forever
  rw [wp_bind]
  refine wp_monotonicTime h fun now w h _ => ?_
  refine wp_loop (J := fun _ w => Staged g b ⟨grip, .settling⟩ w) ?_ (fun _ _ h => h.anywhere) h
  intro deadline w h
  rw [wp_bind]
  refine wp_monotonicTime h fun now w h _ => ?_
  rw [wp_ite]
  refine ⟨fun _ => h, fun _ => ?_⟩
  rw [wp_bind]
  refine wp_queueTimeoutPop true h fun item w h hitem _ => ?_
  match item with
  | none => exact h.step (.letGo (by rw [hitem]; nofun))
  | some item =>
    rw [wp_bind]
    refine wp_isFlushing h fun flushing w h hq => ?_
    have hlast : lastPop w.log = some item := hq.lastPop.trans hitem
    rw [wp_ite]
    constructor
    · intro _
      rw [wp_bind, wp_record, wp_pure]
      exact h.step (.drop true [item] (by rw [hlast]; rfl))
    · intro _
      rw [wp_ite]
      constructor
      · rintro rfl
        exact h.step (.letGo (by rw [hlast]; nofun))
      · intro hitem'
        rw [wp_bind, wp_modify, wp_pure]
        match item, hitem' with
        | .buffer buf, _ => exact h.step (.putBack buf hlast)
        | .flushSentinel, hitem' => exact absurd rfl hitem'

theorem captureRecoveryTarget_staged (h : Staged g b s w) :
    wp (Anywhere g b) (captureRecoveryTarget env) (fun _ w' => Staged g b s w') w := by
  unfold captureRecoveryTarget
  rw [wp_bind, wp_get]
  split
  · exact h.step (.target none)
  · rw [wp_bind]
    refine wp_turn h fun w h _ => ?_
    rw [wp_bind, wp_ask, wp_modifyOwn]
    exact h.step (.target _)

theorem resetSilentDevice_staged {grip : Grip} (h : Staged g b ⟨grip, .recovering false⟩ w) :
    wp (Anywhere g b) (resetSilentDevice env)
      (fun ok w' => ∃ reset, (ok = true → reset = true) ∧ Staged g b ⟨grip, .recovering reset⟩ w') w := by
  unfold resetSilentDevice
  rw [wp_bind, wp_get]
  split
  · exact ⟨false, nofun, h⟩
  · rw [wp_bind]
    refine wp_turn h fun w h _ => ?_
    rw [wp_bind, wp_ask]
    split
    · exact ⟨false, nofun, h⟩
    · rw [wp_bind, wp_record, wp_pure]
      exact ⟨true, fun _ => rfl, h.step (.portReset _)⟩

theorem deepRecovery_staged {grip : Grip} (h : Staged g b ⟨grip, .settling⟩ w) :
    wp (Anywhere g b) (deepRecovery env) (fun _ w' => Staged g b ⟨grip, .settling⟩ w') w := by
  unfold deepRecovery
  rw [wp_bind]
  refine wp_readProps h fun w h _ => ?_
  rw [wp_bind, wp_get, wp_ite]
  refine ⟨fun _ => h, fun hoff => ?_⟩
  rw [Bool.or_eq_true, not_or] at hoff
  rw [wp_bind, wp_modifyOwn, wp_bind, wp_record, wp_bind]
  have hdeep := h.step (.deep (Bool.eq_false_iff.mpr hoff.2))
  unfold usbDeepRecoveryRun
  rw [wp_bind]
  refine wp_turn hdeep fun w h _ => ?_
  rw [wp_bind, wp_get]
  split
  · rw [wp_pure, wp_bind, wp_record, wp_pure]
    exact h.step (.plain (.deepOutcome _) trivial)
  · rw [wp_ask, wp_bind, wp_record, wp_pure]
    exact h.step (.plain (.deepOutcome _) trivial)

theorem settleUntilFrame_staged (selector : DeviceSelector) (deadline : Int)
    (h : Staged g b ⟨.vacant, .settling⟩ w) :
    wp (Anywhere g b) (settleUntilFrame env selector deadline)
      (fun ok w' => Staged g b (if ok then ⟨.running, .proven⟩ else ⟨.vacant, .settling⟩) w') w := by
  unfold settleUntilFrame forever
  refine wp_loop (J := fun _ w => Staged g b ⟨.vacant, .settling⟩ w) ?_ (fun _ _ h => h.anywhere) h
  intro retryMs w h
  rw [wp_bind]
  refine wp_isFlushing h fun flushing w h _ => ?_
  rw [wp_ite]
  refine ⟨fun _ => h, fun _ => ?_⟩
  rw [wp_bind]
  refine wp_monotonicTime h fun now w h _ => ?_
  rw [wp_ite]
  refine ⟨fun _ => h, fun _ => ?_⟩
  rw [wp_bind]
  refine wp_mono (reopenOnce_staged selector deadline h nofun) fun ok w hw => ?_
  rw [wp_ite]
  constructor
  · intro hok
    rw [if_pos hok] at hw
    rw [wp_bind]
    refine wp_monotonicTime hw fun now w hw _ => ?_
    rw [wp_bind]
    have hproof : wp (Anywhere g b)
        (if min (deadline - now) timeoutDuration > 0 then
          awaitFirstFrame env (min (deadline - now) timeoutDuration) else pure false)
        (fun ok w' => Staged g b ⟨.running, if ok then .proven else .settling⟩ w') w := by
      rw [wp_ite]
      exact ⟨fun _ => awaitFirstFrame_staged _ hw, fun _ => hw⟩
    refine wp_mono hproof fun proven w hw => ?_
    rw [wp_ite]
    constructor
    · intro hproven
      rw [if_pos hproven] at hw
      exact hw
    · intro hproven
      rw [if_neg hproven] at hw
      rw [wp_bind]
      refine wp_mono (teardownHandle_staged hw) fun _ w hw => ?_
      rw [wp_bind]
      exact wp_mono (drainQueue_staged hw rfl) fun _ w hw => hw
  · intro hok
    rw [if_neg hok] at hw
    rw [wp_bind]
    refine wp_interruptibleWait _ hw fun awake w hw => ?_
    rw [wp_pure]
    split <;> exact hw

theorem renewContext_staged (h : Staged g b ⟨.vacant, n⟩ w) :
    wp (Anywhere g b) (renewContext env)
      (fun ok w' => Staged g b ⟨if ok then .vacant else .bare, n⟩ w') w := by
  unfold renewContext
  rw [wp_bind]
  refine wp_mono (uvcExit_staged h) fun _ w hw => ?_
  rw [wp_bind]
  refine wp_mono (uvcInit_staged hw) fun res w hw => ?_
  rw [wp_ite]
  constructor
  · intro hres
    rw [if_pos hres] at hw
    rw [wp_bind, wp_modifyOwn, wp_pure]
    have hctx : w.own.uvcCtx = false := hw.holds.ctx nofun
    have hown : ({ w.own with uvcCtx := false } : Own) = w.own := by rw [← hctx]
    rw [hown]
    exact hw
  · intro hres
    rw [if_neg hres] at hw
    exact hw

theorem escalate_staged (selector : DeviceSelector) (budgetMs : UInt32) (h : Staged g b ⟨.vacant, .settling⟩ w) :
    wp (Anywhere g b) (escalate env selector budgetMs)
      (fun ok w' => AfterRecovery g b .negotiated ok w') w := by
  have hfail : ∀ {grip w}, Staged g b ⟨grip, .settling⟩ w → grip.AtRest → grip ≠ .opened → grip ≠ .running →
      AfterRecovery g b .negotiated false w := fun h hrest hopened hrunning =>
    (h.step (.calmed (Or.inr (Or.inl ⟨rfl, hrunning⟩)))).after hrest hopened nofun
  unfold escalate
  rw [wp_bind]
  refine wp_isFlushing h fun flushing w h _ => ?_
  rw [wp_ite]
  refine ⟨fun _ => hfail h trivial nofun nofun, fun _ => ?_⟩
  rw [wp_bind]
  refine wp_mono (deepRecovery_staged h) fun acted w h => ?_
  rw [wp_ite]
  refine ⟨fun _ => ?_, fun _ => hfail h trivial nofun nofun⟩
  rw [wp_bind]
  refine wp_mono (renewContext_staged h) fun ok w h => ?_
  rw [wp_ite]
  constructor
  · intro hok
    rw [if_pos hok] at h
    rw [wp_bind]
    refine wp_monotonicTime h fun now w h _ => ?_
    refine wp_mono (settleUntilFrame_staged selector _ h) fun ok w h => ?_
    cases ok
    · exact hfail h trivial nofun nofun
    · exact (Staged.step h (.calmed (Or.inr (Or.inr rfl)))).after trivial nofun fun _ => rfl
  · intro hok
    rw [if_neg hok] at h
    exact hfail h trivial nofun nofun

theorem recoverWedgedDevice_staged (h : Staged g b ⟨.running, .recovering false⟩ w) :
    wp (Anywhere g b) (recoverWedgedDevice env) (fun ok w' => AfterRecovery g b .negotiated ok w') w := by
  have hfail : ∀ {reset w}, Staged g b ⟨.running, .recovering reset⟩ w → AfterRecovery g b .negotiated false w :=
    fun h => (h.step (.calmed (Or.inl ⟨_, rfl⟩))).after trivial nofun nofun
  unfold recoverWedgedDevice
  rw [wp_bind, wp_get]
  split
  · exact hfail h
  · next selector _ =>
    rw [wp_bind]
    refine wp_mono (captureRecoveryTarget_staged h) fun _ w h => ?_
    rw [wp_bind]
    refine wp_mono (resetSilentDevice_staged h) ?_
    rintro ok w ⟨reset, hreset, h⟩
    rw [wp_ite]
    refine ⟨fun hok => ?_, fun _ => hfail h⟩
    obtain rfl := hreset hok
    rw [wp_bind]
    refine wp_readProps h fun w h _ => ?_
    generalize w.props.resetSettleMaxMs = budgetMs
    rw [wp_bind]
    refine wp_monotonicTime h fun started w h _ => ?_
    rw [wp_bind]
    refine wp_mono (teardownHandle_staged h) fun _ w h => ?_
    rw [wp_bind]
    refine wp_mono (drainQueue_staged (h.step .tornDown) rfl) fun _ w h => ?_
    rw [wp_bind]
    refine wp_mono (renewContext_staged h) fun ok w h => ?_
    rw [wp_ite]
    constructor
    · intro hok
      rw [if_pos hok] at h
      rw [wp_bind]
      refine wp_mono (settleUntilFrame_staged selector _ h) fun ok w h => ?_
      rw [wp_ite]
      constructor
      · rintro rfl
        exact (Staged.step h (.calmed (Or.inr (Or.inr rfl)))).after trivial nofun fun _ => rfl
      · intro hok
        rw [if_neg hok] at h
        exact escalate_staged selector budgetMs h
    · intro hok
      rw [if_neg hok] at h
      exact (h.step (.calmed (Or.inr (Or.inl ⟨rfl, nofun⟩)))).after trivial nofun nofun

/-! ## Stop and start -/

theorem closeAndUnref_any {grip : Grip} (h : Staged g b ⟨grip, n⟩ w) (hrest : grip.AtRest)
    (hrunning : grip ≠ .running) :
    wp (Anywhere g b) (closeDevh env >>= fun _ => unrefDevice)
      (fun _ w' => Staged g b ⟨if grip = .bare then .bare else .vacant, n⟩ w') w := by
  rw [wp_bind]
  have hempty : grip.isHeld = false → grip.isOpen = false →
      wp (Anywhere g b) (closeDevh env) (fun _ => wp (Anywhere g b) unrefDevice
        fun _ w' => Staged g b ⟨grip, n⟩ w') w := by
    intro hheld hopen
    refine closeDevh_none (h.noHandle hopen) (unrefDevice_none ?_ h)
    exact Option.not_isSome_iff_eq_none.mp (by rw [h.holds.dev, hheld]; decide)
  cases grip
  case bare => exact hempty rfl rfl
  case vacant => exact hempty rfl rfl
  case opened => exact wp_mono (closeDevh_staged h (Or.inl rfl)) fun _ w hw => unrefDevice_staged hw
  case ready => exact wp_mono (closeDevh_staged h (Or.inr rfl)) fun _ w hw => unrefDevice_staged hw
  case running => exact absurd rfl hrunning
  all_goals exact hrest.elim

theorem stop_staged {grip : Grip} (h : Staged g b ⟨grip, n⟩ w) (hrest : grip.AtRest) :
    wp (Anywhere g b) (stop env) (fun _ w' => Staged g b ⟨.bare, n⟩ w') w := by
  have hafter : ∀ {grip w}, Staged g b ⟨grip, n⟩ w → grip.AtRest → grip ≠ .running → ∀ ctx : Bool,
      (ctx = decide (grip ≠ .bare)) →
      wp (Anywhere g b) (do
        drainQueue env
        closeDevh env
        unrefDevice
        when (ctx = true) (uvcExit env)) (fun _ w' => Staged g b ⟨.bare, n⟩ w') w := by
    intro grip w h hrest hrunning ctx hctx
    have hquiet : grip.isStreaming = false := by
      cases grip <;> first | rfl | exact hrest.elim | exact absurd rfl hrunning
    rw [wp_bind]
    refine wp_mono (drainQueue_staged h hquiet) fun _ w h => ?_
    have hclosed : wp (Anywhere g b) (closeDevh env >>= fun _ => unrefDevice) _ w := closeAndUnref_any h hrest hrunning
    rw [wp_bind] at hclosed ⊢
    refine wp_mono hclosed fun _ w hunref => ?_
    rw [wp_bind]
    refine wp_mono hunref fun _ w h => ?_
    rw [wp_when]
    by_cases hbare : grip = .bare
    · rw [if_pos hbare] at h
      refine ⟨fun hc => ?_, fun _ => h⟩
      rw [hctx, hbare] at hc
      exact absurd hc (by decide)
    · rw [if_neg hbare] at h
      refine ⟨fun _ => uvcExit_staged h, fun hc => ?_⟩
      exact absurd (hctx.trans (decide_eq_true hbare)) hc
  unfold stop
  rw [wp_bind, wp_modifyOwn, wp_bind, wp_get, wp_bind, wp_when]
  have htarget := h.step (.target none)
  have hstray : grip ≠ .stray := by
    rintro rfl
    exact hrest
  have hctx : w.own.uvcCtx = decide (grip ≠ .bare) := h.holds.ctx hstray
  have hstreaming : w.own.streaming = grip.isStreaming := h.holds.streaming hstray
  constructor
  · intro hs
    have hrunning : grip = .running := by
      rw [show w.own.streaming = true from hs] at hstreaming
      cases grip <;> first | rfl | exact hrest.elim | exact absurd hstreaming (by decide)
    subst hrunning
    exact wp_mono (stopDevh_staged htarget) fun _ w hw => hafter hw trivial nofun _ hctx
  · intro hs
    refine hafter htarget hrest ?_ _ hctx
    rintro rfl
    exact hs hstreaming

theorem openSelected_staged (selector : DeviceSelector) (deadline : Int) (h : Staged g b ⟨.vacant, n⟩ w) :
    wp (Anywhere g b) (openSelected env selector deadline)
      (fun ok w' => Staged g b ⟨if ok then .opened else .bare, n⟩ w') w := by
  unfold openSelected
  rw [wp_bind]
  refine wp_mono (resolveDevice_staged selector deadline h) ?_
  rintro (failed | ⟨dev, ordinal⟩) w hw
  · rw [wp_bind, wp_get]
    simp only []
    rw [wp_bind, wp_record, wp_bind]
    exact wp_mono (uvcExit_staged (hw.step (.plain (.error _) trivial))) fun _ w hw => hw
  · rw [wp_bind, wp_get]
    simp only []
    rw [wp_bind, wp_modifyOwn, wp_bind]
    unfold uvcOpen
    rw [wp_bind]
    refine wp_turn (hw.step (.hold dev)) fun w h hq => ?_
    have hdev : w.own.uvcDev = some dev := by rw [hq.own]
    rw [wp_bind, wp_ask, wp_bind, wp_ask, wp_bind, wp_record, wp_bind, wp_modifyOwn, wp_pure, wp_ite]
    constructor
    · intro hres
      have hrefused := h.step (.refused dev .held (Or.inr ⟨rfl, hdev⟩) (env.uvcOpen w.log dev) hres)
      simp only [if_pos hres]
      rw [wp_bind, wp_record, wp_bind]
      refine wp_mono (unrefDevice_staged (hrefused.step (.plain (.error _) trivial))) fun _ w h => ?_
      rw [wp_bind]
      exact wp_mono (uvcExit_staged h) fun _ w hw => hw
    · intro hres
      simp only [if_neg hres]
      exact h.step (.openHeld dev hdev (env.uvcOpen w.log dev) hres)

theorem wp_resolveDeadline {Q : Int → World → Prop} (forcedCleanup : Bool) (h : Staged g b s w)
    (hQ : ∀ deadline w', Staged g b s w' → Q deadline w') :
    wp (Anywhere g b) (resolveDeadline env forcedCleanup) Q w := by
  unfold resolveDeadline
  rw [wp_ite]
  refine ⟨fun _ => ?_, fun _ => hQ 0 w h⟩
  rw [wp_bind]
  refine wp_readProps h fun w h _ => ?_
  rw [wp_bind]
  exact wp_monotonicTime h fun now w h _ => hQ _ w h

theorem startSession_staged (forced : Bool) (h : Staged g b ⟨.bare, n⟩ w) :
    wp (Anywhere g b) (startSession env forced)
      (fun ok w' => Staged g b ⟨if ok then .opened else .bare, .fresh⟩ w') w := by
  unfold startSession
  rw [wp_bind, wp_modifyStream, wp_bind, wp_modifyOwn, wp_bind, wp_record, wp_bind, wp_get]
  have hsession := h.step .session
  simp only []
  split
  · rw [wp_bind, wp_record, wp_pure]
    exact hsession.step (.plain (.error _) trivial)
  · rw [wp_bind]
    refine wp_mono (uvcInit_staged hsession) fun res w h => ?_
    rw [wp_ite]
    constructor
    · intro hres
      rw [if_pos hres] at h
      exact h
    · intro hres
      rw [if_neg hres] at h
      rw [wp_bind]
      exact wp_resolveDeadline _ h fun deadline w h => openSelected_staged _ deadline h

/-- Where something is held, `start` stops first. -/
theorem start_staged {grip : Grip} (h : Staged g b ⟨grip, n⟩ w) (hrest : grip.AtRest) :
    wp (Anywhere g b) (start env)
      (fun ok w' => Staged g b ⟨if ok then .opened else .bare, .fresh⟩ w') w := by
  unfold start
  rw [wp_bind, wp_get, wp_bind, wp_when]
  refine ⟨fun _ => wp_mono (stop_staged h hrest) fun _ w h => startSession_staged _ h, fun hclean => ?_⟩
  have hbare : grip = .bare := by
    have hctx : w.own.uvcCtx = decide (grip ≠ .bare) := h.holds.ctx (by rintro rfl; exact hrest)
    by_contra hgrip
    rw [hctx, decide_eq_true hgrip] at hclean
    exact hclean (Bool.true_or _)
  subst hbare
  exact startSession_staged _ h

/-! ## Create -/

theorem uvcStartStreaming_staged (h : Staged g b ⟨.starting, n⟩ w) (hn : n ≠ .fresh) :
    wp (Anywhere g b) (uvcStartStreaming env)
      (fun res w' => Staged g b ⟨if res < 0 then .starting else .running, n⟩ w') w := by
  unfold uvcStartStreaming
  rw [wp_bind, wp_get, wp_bind]
  refine wp_request h rfl fun reply w' _ hw hq => ?_
  have hctrl : w.own.uvcCtrl = w'.own.uvcCtrl := by rw [hq.own]
  rw [hctrl, wp_pure]
  by_cases hres : reply.res < 0
  · rw [if_pos hres]
    exact hw.step (.startRefused (Or.inr rfl) reply hres)
  · rw [if_neg hres]
    have hstarted := hw.step (.start .starting (Or.inr rfl) hn reply hres)
    have hstreaming : w'.own.streaming = true := hw.holds.streaming nofun
    have hown : ({ w'.own with streaming := true } : Own) = w'.own := by rw [← hstreaming]
    rw [hown] at hstarted
    exact hstarted

theorem uvcStartStreaming_stray {Q : Int → World → Prop} (h : Staged g b ⟨.stray, n⟩ w) :
    wp (Anywhere g b) (uvcStartStreaming env) Q w := by
  unfold uvcStartStreaming
  rw [wp_bind, wp_get, wp_bind]
  exact wp_request_stray h

theorem startFallback_staged {res : Int} (hres : res < 0) (h : Staged g b ⟨.starting, n⟩ w) (hn : n ≠ .fresh) :
    wp (Anywhere g b) (startFallback env res)
      (fun res w' => Staged g b ⟨if res < 0 then .starting else .running, n⟩ w') w := by
  have hkeep : ∀ {w : World}, Staged g b ⟨.starting, n⟩ w →
      Staged g b ⟨if res < 0 then .starting else .running, n⟩ w := by
    intro w h
    rwa [if_pos hres]
  unfold startFallback
  rw [wp_bind]
  refine wp_readProps h fun w h _ => ?_
  rw [wp_ite]
  refine ⟨fun _ => ?_, fun _ => hkeep h⟩
  rw [wp_bind, wp_get, wp_bind]
  refine wp_mono (negotiateCleanPayload_staged _ _ _ h (Or.inr ⟨rfl, rfl⟩)) ?_
  rintro ok w' ⟨h, -, -⟩
  rw [wp_ite]
  exact ⟨fun _ => uvcStartStreaming_staged h hn, fun _ => hkeep h⟩

theorem createStart_staged (h : Staged g b ⟨.ready, n⟩ w) (hn : n ≠ .fresh) :
    wp (Anywhere g b) (createStart env)
      (fun ok w' => Staged g b ⟨if ok then .running else .ready, n⟩ w') w := by
  have hbegun := h.step (.begin .ready (Or.inl rfl))
  unfold createStart
  rw [wp_bind, wp_modifyStream, wp_bind, wp_modifyOwn, wp_bind]
  refine wp_mono (applyTransferBuffers_staged hbegun (Or.inr rfl)) ?_
  rintro _ w ⟨h, -⟩
  rw [wp_bind]
  refine wp_mono (uvcStartStreaming_staged h hn) fun first w h => ?_
  have hsecond : wp (Anywhere g b) (if first < 0 then startFallback env first else pure first)
      (fun res w' => Staged g b ⟨if res < 0 then .starting else .running, n⟩ w') w := by
    rw [wp_ite]
    refine ⟨fun hfirst => startFallback_staged hfirst ?_ hn, fun _ => h⟩
    rwa [if_pos hfirst] at h
  rw [wp_bind]
  refine wp_mono hsecond fun res w h => ?_
  rw [wp_ite]
  constructor
  · intro hres
    rw [if_pos hres] at h
    rw [wp_bind, wp_modifyOwn, wp_bind, wp_record, wp_pure]
    exact (h.step .giveUp).step (.plain (.error _) trivial)
  · intro hres
    rw [if_neg hres] at h
    exact h

/-- Without a handle the run ends in the start of the stream. -/
theorem createStart_stray {Q : Bool → World → Prop} (h : Staged g b ⟨.stray, n⟩ w) :
    wp (Anywhere g b) (createStart env) Q w := by
  unfold createStart
  rw [wp_bind, wp_modifyStream, wp_bind, wp_modifyOwn, wp_bind]
  refine wp_mono (applyTransferBuffers_stray (h.step (.begin .stray (Or.inr rfl)))) fun _ w h => ?_
  rw [wp_bind]
  exact uvcStartStreaming_stray h

theorem recoverSilence_staged (h : Staged g b ⟨.running, .negotiated⟩ w) :
    wp (Anywhere g b) (recoverSilence env) (fun ok w' => AfterRecovery g b .negotiated ok w') w := by
  unfold recoverSilence
  rw [wp_bind]
  refine wp_readProps h fun w h _ => ?_
  rw [wp_ite]
  refine ⟨fun _ => reconnect_staged h nofun, fun hreconnect => ?_⟩
  rw [wp_bind, wp_get, wp_ite]
  refine ⟨fun _ => h.after trivial nofun nofun, fun hused => ?_⟩
  rw [wp_bind]
  refine wp_readProps h fun w' h' hq => ?_
  rw [wp_ite]
  refine ⟨fun hauto => ?_, fun _ => h'.after trivial nofun nofun⟩
  rw [wp_bind, wp_modifyOwn, wp_bind, wp_record]
  obtain ⟨-, idle, hidle, hlog⟩ := hq.calm
  have hwedge := h'.step (.wedge (by rw [hq.own]; exact Bool.eq_false_iff.mpr hused)
    (by rw [← h'.props]; exact hauto) idle w.log hlog hidle
    (by rw [← h.props]; exact Bool.eq_false_iff.mpr hreconnect))
  exact recoverWedgedDevice_staged hwedge

theorem createTimeout_staged (h : Staged g b ⟨.running, .holding false⟩ w) (hpop : lastPop w.log = none) :
    wp (Anywhere g b) (createTimeout env)
      (fun r w' => Sum.elim (fun _ => Staged g b ⟨.running, .negotiated⟩ w')
        (fun _ => AfterRecovery g b .negotiated false w') r) w := by
  unfold createTimeout
  rw [wp_bind, wp_modifyOwn, wp_bind, wp_get, wp_ite]
  have hcount := h.step (.timeout hpop)
  refine ⟨fun _ => hcount, fun hsilent => ?_⟩
  rw [wp_bind, wp_record, wp_bind]
  refine wp_mono (recoverSilence_staged (hcount.step (.silent (not_lt.mp hsilent) hpop))) ?_
  rintro ok w ⟨grip, hrest, hopened, hok, h⟩
  rw [wp_ite]
  constructor
  · intro hrecovered
    obtain rfl := hok hrecovered
    rw [wp_bind, wp_modifyOwn, wp_pure]
    exact h.step .recovered
  · intro _
    rw [wp_bind]
    refine wp_isFlushing h fun flushing w h _ => ?_
    rw [wp_ite]
    refine ⟨fun _ => h.after hrest hopened nofun, fun _ => ?_⟩
    rw [wp_bind, wp_record, wp_pure]
    exact (h.step (.plain (.error _) trivial)).after hrest hopened nofun

theorem countFrame_staged (h : Staged g b ⟨.running, .holding false⟩ w) {buf : GstBuffer}
    (hpop : lastPop w.log = some (.buffer buf)) (hheard : w.own.consecutiveTimeouts = 0) :
    wp (Anywhere g b) (countFrame env) (fun _ w' => Staged g b ⟨.running, .negotiated⟩ w') w := by
  unfold countFrame
  rw [wp_bind, wp_get, wp_ite]
  constructor
  · intro hused
    rw [wp_bind]
    refine wp_readProps h fun w' h' hq => ?_
    rw [wp_bind, wp_modifyOwn, wp_record]
    exact h'.step (.returnCounted (by rw [hq.own]; exact hused) buf (hq.lastPop.trans hpop)
      (by rw [hq.own]; exact hheard))
  · intro hused
    exact h.step (.returnPlain (Bool.eq_false_iff.mpr hused) buf hpop hheard)

theorem createTurn_staged (h : Staged g b ⟨.running, .negotiated⟩ w) :
    wp (Anywhere g b) (createTurn env ())
      (fun r w' => Sum.elim (fun _ => Staged g b ⟨.running, .negotiated⟩ w')
        (fun _ => AfterRecovery g b .negotiated false w') r) w := by
  unfold createTurn
  rw [wp_bind]
  refine wp_queueTimeoutPop false h fun item w h hitem _ => ?_
  rw [wp_bind]
  refine wp_isFlushing h fun flushing w h hq => ?_
  have hpop : lastPop w.log = item := hq.lastPop.trans hitem
  rw [wp_ite]
  constructor
  · intro _
    rw [wp_bind, wp_record, wp_pure]
    exact (h.step (.drop false item.toList (by rw [hpop]))).after trivial nofun nofun
  · intro _
    match item with
    | none => exact createTimeout_staged h hpop
    | some .flushSentinel =>
      rw [wp_bind, wp_modifyOwn, wp_pure]
      exact h.step (.skip hpop)
    | some (.buffer buf) =>
      rw [wp_bind, wp_modifyOwn, wp_bind]
      refine wp_mono (countFrame_staged (h.step (.heard buf hpop)) hpop rfl) fun _ w h => ?_
      exact h.after trivial nofun nofun

theorem createLoop_staged (h : Staged g b ⟨.running, .negotiated⟩ w) :
    wp (Anywhere g b) (forever (createTurn env) ())
      (fun _ w' => AfterRecovery g b .negotiated false w') w := by
  unfold forever
  exact wp_loop (J := fun _ w => Staged g b ⟨.running, .negotiated⟩ w) (fun _ _ h => createTurn_staged h)
    (fun _ _ h => h.anywhere) h

theorem create_staged {grip : Grip} (h : Staged g b ⟨grip, .negotiated⟩ w)
    (hgrip : grip = .ready ∨ grip = .running) :
    wp (Anywhere g b) (create env) (fun _ w' => AfterRecovery g b .negotiated false w') w := by
  unfold create
  rw [wp_bind, wp_get, wp_bind, wp_ite]
  rcases hgrip with rfl | rfl
  · have hstreaming : w.own.streaming = false := h.holds.streaming nofun
    rw [hstreaming]
    refine ⟨nofun, fun _ => wp_mono (createStart_staged h nofun) fun ok w h => ?_⟩
    rw [wp_ite]
    constructor
    · intro hok
      rw [if_pos hok] at h
      exact createLoop_staged h
    · intro hok
      rw [if_neg hok] at h
      exact h.after trivial nofun nofun
  · have hstreaming : w.own.streaming = true := h.holds.streaming nofun
    rw [hstreaming]
    refine ⟨fun _ => ?_, fun hn => absurd rfl hn⟩
    rw [wp_pure, wp_ite]
    exact ⟨fun _ => createLoop_staged h, fun hn => absurd rfl hn⟩

theorem create_stray {Q : FlowReturn → World → Prop} (h : Staged g b ⟨.stray, n⟩ w)
    (hstreaming : w.own.streaming = false) : wp (Anywhere g b) (create env) Q w := by
  unfold create
  rw [wp_bind, wp_get, wp_bind, wp_ite, hstreaming]
  exact ⟨nofun, fun _ => createStart_stray h⟩

/-! ## Negotiate -/

theorem wp_writeFormats {Q : Unit → World → Prop} (sels : List Selection) (h : Staged g b s w) (ho : s.Negotiating)
    (hsels : ∀ sel ∈ sels, sel ∈ scanned g w.log)
    (hQ : ∀ w', Staged g b s w' → lastSelecting w'.log = lastSelecting w.log →
      w'.stream.frameFormat =
        sels.foldl (fun format sel => sel.frameFormat.getD format) w.stream.frameFormat → Q () w') :
    wp (Anywhere g b) (writeFormats env sels) Q w := by
  induction sels generalizing w with
  | nil => exact hQ w h rfl rfl
  | cons sel rest ih =>
    rw [writeFormats, wp_bind, wp_modifyStream, wp_bind]
    have hwritten := h.step (.writeFormat ho sel (hsels sel List.mem_cons_self))
    refine wp_turn hwritten fun w' hw hq => ?_
    have hselecting : lastSelecting w'.log = lastSelecting w.log := hq.keeps.selecting
    have hscanned : scanned g w'.log = scanned g w.log := by
      unfold scanned
      rw [hselecting]
    refine ih hw (fun sel' hsel' => ?_) fun w'' hw'' hs hf => ?_
    · rw [hscanned]
      exact hsels sel' (List.mem_cons_of_mem sel hsel')
    · refine hQ w'' hw'' (hs.trans hselecting) (hf.trans ?_)
      have hformat : w'.stream.frameFormat = sel.frameFormat.getD w.stream.frameFormat :=
        congrArg StreamMode.format hq.mode
      rw [hformat, List.foldl_cons]

theorem selected_matches (log : List Event) : (selected g log).Matches := by
  have hall : ∀ sel ∈ scanned g log, sel.Matches := by
    unfold scanned
    split
    · exact scanFormats_forall _ (fun _ _ _ _ _ _ _ hd _ h => considerFrame_matches hd h) Selection.matches_init
    · exact fun sel hsel => absurd hsel List.not_mem_nil
  exact getLastD_forall hall Selection.matches_init

/-- Selected caps come with the format that was written for them. -/
theorem selected_format {log : List Event} {caps : List (Structure Codec)}
    (h : (selected g log).accepted = some caps) : (selected g log).frameFormat.isSome := by
  obtain ⟨s, rest, -, hformat, -⟩ := selected_matches log caps (Selection.accepted_eq h)
  rw [hformat]
  rfl

/-- The last format that is written stays. -/
theorem foldl_format (sels : List Selection) (format : FrameFormat) {last : FrameFormat}
    (h : (sels.getLastD .init).frameFormat = some last) :
    sels.foldl (fun format sel => sel.frameFormat.getD format) format = last := by
  rcases List.eq_nil_or_concat sels with rfl | ⟨front, sel, rfl⟩
  · exact absurd h nofun
  · rw [List.concat_eq_append] at h ⊢
    rw [List.getLastD_concat] at h
    rw [List.foldl_concat, h]
    rfl

theorem wp_loadSpspps {Q : Unit → World → Prop} (key : SpsppsKey) (h : Staged g b s w) (ho : s.Negotiating)
    (hQ : ∀ w', Staged g b s w' → w'.own = w.own → Keeps w w' → stale w'.log = stale w.log → Q () w') :
    wp (Anywhere g b) (loadSpspps env key) Q w := by
  unfold loadSpspps
  rw [wp_bind]
  refine wp_turn h fun w' hw hq => ?_
  rw [wp_bind, wp_ask, wp_bind, wp_record]
  generalize env.readFile w'.log key = file
  have hload := hw.step (.load ho key file)
  match file with
  | none => exact hQ _ hload hq.own (hq.keeps.trans ⟨rfl, rfl, rfl⟩) hq.stale
  | some bytes =>
    rw [wp_modifyStream]
    have hcore : World.core { w' with
        stream := (parseNalUnits w'.stream.frameFormat 3 (bytes.take (spsppsBufSz * 3))).foldl
          loadSpspps.loadUnit w'.stream } = w'.core := core_eq_of rfl (foldl_loadUnit_media _ w'.stream)
    exact hQ _ hload hq.own (hq.keeps.trans ⟨congrArg Core.mode hcore, rfl, rfl⟩) hq.stale

theorem selected_congr {log log' : List Event} (h : lastSelecting log' = lastSelecting log) :
    selected g log' = selected g log := by
  unfold selected scanned
  rw [h]

theorem negotiateMode_staged {grip : Grip} {caps : List (Structure Codec)} (h : Staged g b ⟨grip, .fresh⟩ w)
    (hgrip : grip = .opened ∨ grip = .running) (hcaps : (selected g w.log).accepted = some caps)
    (hformat : some w.stream.frameFormat = (selected g w.log).frameFormat) :
    wp (Anywhere g b) (negotiateMode env (selected g w.log) caps)
      (fun ok w' => if ok then Staged g b ⟨if grip = .opened then .ready else grip, .negotiated⟩ w'
        else Staged g b ⟨grip, .fresh⟩ w') w := by
  have ho : (⟨grip, .fresh⟩ : Stage).Negotiating := ⟨hgrip, rfl⟩
  generalize hsel : selected g w.log = sel at hcaps hformat ⊢
  have hkept : ∀ {w' : World}, Keeps w w' → selected g w'.log = sel :=
    fun hk => (selected_congr hk.selecting).trans hsel
  unfold negotiateMode
  rw [wp_bind]
  refine wp_mono (probeStreamCtrl_staged _ _ _ _ h ho.open) ?_
  rintro res w1 ⟨h1, hk1, ha1⟩
  rw [wp_ite]
  refine ⟨fun _ => h1, fun hres => ?_⟩
  have ha1 := ha1 hres
  rw [← hk1.asked] at ha1
  rw [wp_bind]
  refine wp_mono (applyMaxPayload_staged _ _ _ h1 ho.open ha1) ?_
  rintro _ w2 ⟨h2, hk2, ha2⟩
  rw [hk1.asked] at ha2
  have hk := hk1.trans hk2
  rw [wp_bind, wp_modifyStream, wp_bind, wp_modifyOwn]
  have hmoded := h2.step (.writeMode ho sel (hkept hk).symm (by rw [hcaps]; rfl))
  unfold baseSrcSetCaps
  rw [wp_bind, wp_bind]
  refine wp_turn hmoded fun w3 h3 hq3 => ?_
  have hsel2 : selected g w2.log = sel := hkept hk
  have hsel3 : selected g w3.log = sel := (selected_congr hq3.keeps.selecting).trans hsel2
  have hasked : w3.mode = w.asked sel.width sel.height sel.framerate := by
    have hformat2 : w2.stream.frameFormat = w.stream.frameFormat := congrArg StreamMode.format hk.mode
    rw [hq3.mode]
    unfold World.mode World.asked
    rw [hformat2]
  have ha3 : Agrees w3.mode w3 := by
    rw [hasked]
    exact hq3.agrees ha2
  have hend : ∀ w4, Staged g b ⟨grip, .fresh⟩ w4 → w4.own = w3.own → w4.mode = w3.mode →
      lastSelecting w4.log = lastSelecting w3.log → stale w4.log = stale w3.log →
      (capsFixed caps = true → padCaps w4.log = some caps) →
      wp (Anywhere g b) (do
        let w ← get
        loadSpspps env (spsppsKeySnapshot w.stream)
        return true)
        (fun ok w' => if ok then Staged g b ⟨if grip = .opened then .ready else grip, .negotiated⟩ w'
          else Staged g b ⟨grip, .fresh⟩ w') w4 := by
    intro w4 h4 hown hmode hselecting hstale hpad
    rw [wp_bind, wp_get, wp_bind]
    refine wp_loadSpspps _ h4 ho fun w5 h5 hown5 hk5 hstale5 => ?_
    have hsel5 : selected g w5.log = sel := (selected_congr (hk5.selecting.trans hselecting)).trans hsel3
    have hmode5 : w5.mode = w.asked sel.width sel.height sel.framerate :=
      hk5.mode.trans (hmode.trans hasked)
    have hformat5 : w5.stream.frameFormat = w.stream.frameFormat := congrArg StreamMode.format hmode5
    refine h5.step (.settle hgrip caps ?_ ?_ ?_ ?_ ?_)
    · rw [hsel5]
      exact hcaps
    · rw [hsel5, hmode5, hformat5]
      rfl
    · rw [hsel5, hformat5]
      exact hformat
    · intro hfixed
      exact hk5.pad.trans (hpad hfixed)
    · rw [hk5.mode, hmode]
      unfold Agrees
      rw [hown5, hown, hstale5, hstale]
      exact ha3
  rw [wp_when]
  constructor
  · intro hfixed
    rw [wp_record]
    exact hend _ (h3.step (.setCaps ho caps (by rw [hsel3]; exact hcaps) hfixed)) rfl rfl rfl rfl fun _ => rfl
  · intro hfixed
    exact hend w3 h3 rfl rfl rfl rfl fun hf => absurd hf hfixed

theorem publishLadder_staged (ladder : List (Structure Codec)) (h : Staged g b s w) :
    wp (Anywhere g b) (publishLadder env ladder) (fun _ w' => Staged g b s w') w := by
  unfold publishLadder
  rw [wp_bind]
  refine wp_turn h fun w h _ => ?_
  rw [wp_modifyOwn]
  exact h.step (.ladder ladder)

theorem negotiate_staged {grip : Grip} (h : Staged g b ⟨grip, .fresh⟩ w)
    (hgrip : grip = .opened ∨ grip = .running) :
    wp (Anywhere g b) (negotiate env g)
      (fun ok w' => if ok then Staged g b ⟨if grip = .opened then .ready else grip, .negotiated⟩ w'
        else Staged g b ⟨grip, .fresh⟩ w') w := by
  have ho : (⟨grip, .fresh⟩ : Stage).Negotiating := ⟨hgrip, rfl⟩
  unfold negotiate
  rw [wp_bind]
  refine wp_turn h fun w h _ => ?_
  rw [wp_bind, wp_ask, wp_bind, wp_ask, wp_bind]
  refine wp_uvcGetFormatDescs h ho.open.isOpen fun formats w h => ?_
  rw [wp_bind, wp_ask, wp_bind, wp_record, wp_bind]
  refine wp_writeFormats _ (h.step (.selecting ho _ _ formats _)) ho (fun sel hsel => hsel)
    fun w1 h1 hlast hformat => ?_
  have hsel := selected_congr (g := g) hlast
  rw [wp_bind]
  generalize hmode : selectMode g _ _ _ formats = sel
  have hselected : selected g w1.log = sel := hsel.trans hmode
  refine wp_mono (Q := fun ok w' => if ok then Staged g b ⟨if grip = .opened then .ready else grip, .negotiated⟩ w'
    else Staged g b ⟨grip, .fresh⟩ w') ?_ fun ok w2 h2 => ?_
  · rw [wp_ite]
    constructor
    · intro _
      rw [wp_bind]
      refine wp_uvcGetFormatDescs h1 ho.open.isOpen fun _ w2 h2 => ?_
      rw [wp_bind, wp_record, wp_pure]
      exact h2.step (.plain (.error _) trivial)
    · intro _
      split
      · exact h1
      · next caps hcaps =>
        rw [← hselected] at hcaps ⊢
        obtain ⟨last, hformat'⟩ := Option.isSome_iff_exists.mp (selected_format hcaps)
        refine negotiateMode_staged h1 hgrip hcaps ?_
        rw [hformat', hformat, foldl_format _ _ _]
        rw [← hmode] at hselected
        rw [hselected] at hformat'
        exact hformat'
  · rw [wp_bind]
    cases ok
    · exact publishLadder_staged _ h2
    · exact publishLadder_staged _ h2

/-- Without a handle the run ends in the first call on it. -/
theorem negotiate_stray {Q : Bool → World → Prop} (h : Staged g b ⟨.stray, n⟩ w) :
    wp (Anywhere g b) (negotiate env g) Q w := by
  unfold negotiate uvcGetFormatDescs
  rw [wp_bind]
  refine wp_turn h fun w h _ => ?_
  rw [wp_bind, wp_ask, wp_bind, wp_ask, wp_bind, wp_bind]
  refine wp_turn h fun w h _ => ?_
  rw [wp_bind, wp_ask, wp_bind]
  exact wp_withHandle_stray (h.noHandle rfl) (h.step .strayFormatDescs).anywhere

/-! ## The base class -/

/-- The stages that a phase stands for. -/
def Phase.Fits : Phase → Stage → Prop
  | .stopped, s => s.grip = .bare ∧ s.progress.AtRest
  | .started false, s => (s.grip = .opened ∨ s.grip = .running) ∧ s.progress = .fresh
  | .started true, s => s.grip.AtRest ∧ s.grip ≠ .opened ∧ s.progress = .negotiated
  | .ended, _ => True

/-- The host is at a stage of its phase. -/
def Host.Staged (g : Gst) (b : Nat) (h : Host) : Prop :=
  ∃ s, h.phase.Fits s ∧ LibuvcH264Src.Staged g b s h.world

theorem after_staged {α : Type} {p : Prog World α} {next : α → Phase} {Q : α → World → Prop}
    (hp : wp (Anywhere g b) p Q w) (hQ : ∀ a w', Q a w' → ∃ s, (next a).Fits s ∧ Staged g b s w') :
    (Host.after p next w).Staged g b := by
  unfold wp at hp
  unfold Host.after
  rcases hpw : p w with ⟨_ | a, w'⟩ <;> rw [hpw] at hp
  · obtain ⟨s, hs⟩ := hp
    exact ⟨s, trivial, hs⟩
  · exact hQ a w' hp

theorem Phase.Fits.atRest {phase : Phase} (h : phase.Fits s) (hended : phase ≠ .ended) : s.AtRest := by
  obtain ⟨grip, progress⟩ := s
  match phase with
  | .stopped =>
    obtain ⟨rfl, hprogress⟩ := h
    exact ⟨trivial, hprogress⟩
  | .started false =>
    obtain ⟨rfl | rfl, rfl⟩ := h <;> exact ⟨trivial, trivial⟩
  | .started true =>
    obtain ⟨hrest, -, rfl⟩ := h
    exact ⟨hrest, trivial⟩
  | .ended => exact absurd rfl hended

theorem called_negotiate (s : Stage) :
    (∃ grip : Grip, s.called .negotiate = ⟨grip, .fresh⟩ ∧ (grip = .opened ∨ grip = .running)) ∨
      s.called .negotiate = ⟨.stray, .fresh⟩ := by
  obtain ⟨grip, progress⟩ := s
  cases grip
  case opened => exact Or.inl ⟨.opened, rfl, Or.inl rfl⟩
  case ready => exact Or.inl ⟨.opened, rfl, Or.inl rfl⟩
  case running => exact Or.inl ⟨.running, rfl, Or.inr rfl⟩
  all_goals exact Or.inr rfl

theorem negotiate_called (h : Staged g b s w) (hrest : s.AtRest) :
    wp (Anywhere g b) (negotiate env g) (fun ok w' => ∃ s', (Phase.started ok).Fits s' ∧ Staged g b s' w')
      (w.note (.called .negotiate)) := by
  have hcalled : Staged g b (s.called .negotiate) (w.note (.called .negotiate)) := h.step (.call .negotiate hrest)
  rcases called_negotiate s with ⟨grip, hs, hgrip⟩ | hs <;> rw [hs] at hcalled
  · refine wp_mono (negotiate_staged hcalled hgrip) fun ok w' hw' => ?_
    cases ok
    · exact ⟨_, ⟨hgrip, rfl⟩, hw'⟩
    · refine ⟨_, ⟨?_, ?_, rfl⟩, hw'⟩
      · rcases hgrip with rfl | rfl <;> trivial
      · rcases hgrip with rfl | rfl <;> nofun
  · exact negotiate_stray hcalled

theorem create_called (h : Staged g b s w) (hfits : (Phase.started true).Fits s) :
    wp (Anywhere g b) (create env) (fun _ w' => AfterRecovery g b .negotiated false w')
      (w.note (.called .create)) := by
  obtain ⟨hrest, hopened, hprogress⟩ := hfits
  have hcalled : Staged g b (s.called .create) (w.note (.called .create)) :=
    h.step (.call .create ⟨⟨hrest, by rw [hprogress]; trivial⟩, hopened, hprogress⟩)
  have hstray : s.grip = .bare ∨ s.grip = .vacant → (w.note (.called .create)).own.streaming = false := by
    intro hgrip
    have hs : w.own.streaming = s.grip.isStreaming := h.holds.streaming (by rcases hgrip with hg | hg <;> rw [hg] <;> nofun)
    rcases hgrip with hg | hg <;> rw [hg] at hs <;> exact hs
  obtain ⟨grip, progress⟩ := s
  obtain rfl : progress = .negotiated := hprogress
  cases grip
  case ready => exact create_staged hcalled (Or.inl rfl)
  case running => exact create_staged hcalled (Or.inr rfl)
  case bare => exact create_stray hcalled (hstray (Or.inl rfl))
  case vacant => exact create_stray hcalled (hstray (Or.inr rfl))
  case opened => exact absurd rfl hopened
  all_goals exact hrest.elim

theorem interfere_budget (w : World) (i : Interference) : (interfere w i).budget = w.budget := by
  match i with
  | .frame arrival data =>
    show (feed w arrival data).budget = w.budget
    unfold feed
    split <;> rfl
  | .unlock | .unlockStop | .setClock _ | .changeState _ => rfl
  | .setProperty property => cases property <;> rfl

theorem stop_called {call : VCall} {phase next : Phase} (h : Staged g b s w) (hfits : phase.Fits s)
    (hended : phase ≠ .ended) (hcall : call = .stop ∨ call = .finalize) (hnext : next = .stopped ∨ next = .ended) :
    (Host.after (stop env) (fun _ => next) (w.note (.called call))).Staged g b := by
  have hrest := hfits.atRest hended
  have hcalled : Staged g b s (w.note (.called call)) := by
    rcases hcall with rfl | rfl
    · exact h.step (.call .stop hrest)
    · exact h.step (.call .finalize hrest)
  refine after_staged (stop_staged hcalled hrest.1) fun _ w' hw' => ⟨_, ?_, hw'⟩
  rcases hnext with rfl | rfl
  · exact ⟨rfl, hrest.2⟩
  · trivial

theorem hostStep_staged {h h' : Host} {e : HostEvent} (hh : h.Staged g b) (he : hostStep env g h e = some h') :
    h'.Staged g b := by
  obtain ⟨phase, w⟩ := h
  obtain ⟨s, hfits, hs⟩ := hh
  have hs : Staged g b s w := hs
  have hother : ∀ i, phase ≠ .ended → (⟨phase, interfere (w.note (.meanwhile [i])) i⟩ : Host).Staged g b := by
    intro i _
    have hstep := hs.step (.others [i] w.budget)
    have hworld : w.others [i] w.budget = interfere (w.note (.meanwhile [i])) i := by
      have hbudget : (interfere (w.note (.meanwhile [i])) i).budget = w.budget := interfere_budget _ i
      show { interfere (w.note (.meanwhile [i])) i with budget := w.budget } = _
      rw [← hbudget]
    rw [hworld] at hstep
    exact ⟨s, hfits, hstep⟩
  have hcall : ∀ {next : Phase}, phase ≠ .ended → next = .stopped ∨ next = .ended → ∀ call, call = .stop ∨ call = .finalize →
      (Host.after (stop env) (fun _ => next) (w.note (.called call))).Staged g b :=
    fun hended hnext _ hcall => stop_called hs hfits hended hcall hnext
  have hstart : phase ≠ .ended →
      (Host.after (start env) (fun ok => if ok then .started false else .stopped) (w.note (.called .start))).Staged g b := by
    intro hended
    have hrest := hfits.atRest hended
    refine after_staged (start_staged (hs.step (.call .start hrest)) hrest.1) fun ok w' hw' => ⟨_, ?_, hw'⟩
    cases ok
    · exact ⟨rfl, trivial⟩
    · exact ⟨Or.inl rfl, rfl⟩
  cases phase with
  | ended => cases e <;> exact absurd he nofun
  | stopped =>
    match e with
    | .other i => exact Option.some.inj he ▸ hother i nofun
    | .call .start => exact Option.some.inj he ▸ hstart nofun
    | .call .stop => exact Option.some.inj he ▸ hcall nofun (Or.inl rfl) .stop (Or.inl rfl)
    | .call .finalize => exact Option.some.inj he ▸ hcall nofun (Or.inr rfl) .finalize (Or.inr rfl)
    | .call .negotiate | .call .create => exact absurd he nofun
  | started negotiated =>
    match e with
    | .other i => exact Option.some.inj he ▸ hother i nofun
    | .call .start => exact Option.some.inj he ▸ hstart nofun
    | .call .stop => exact Option.some.inj he ▸ hcall nofun (Or.inl rfl) .stop (Or.inl rfl)
    | .call .finalize => exact Option.some.inj he ▸ hcall nofun (Or.inr rfl) .finalize (Or.inr rfl)
    | .call .negotiate =>
      obtain rfl := Option.some.inj he
      exact after_staged (negotiate_called hs (hfits.atRest nofun)) fun ok w' hw' => hw'
    | .call .create =>
      cases negotiated with
      | false => exact absurd he nofun
      | true =>
        obtain rfl := Option.some.inj he
        refine after_staged (create_called hs hfits) ?_
        rintro _ w' ⟨grip, hrest, hopened, -, hw'⟩
        exact ⟨_, ⟨hrest, hopened, rfl⟩, hw'⟩

/-- **Every run is a chain of steps.** -/
theorem reaches_staged {es : List HostEvent} {h : Host} (hr : Reaches env g b es h) : h.Staged g b := by
  have hinit : (Host.init b).Staged g b := ⟨⟨.bare, .fresh⟩, ⟨rfl, trivial⟩, .init⟩
  exact Runs.run_induction (hostStep env g) (fun _ _ _ hh he => hostStep_staged hh he) hinit hr

end LibuvcH264Src
