import LibuvcH264Src.Credits
import LibuvcH264Src.RecoveredHandle

/-!
# Recovery in bounded time

* `Clocked` : the clock never goes back, and a wait that nothing cuts short moves it on;
* `Interruptions` : how many of the waits can still be cut short;
* `Went` : what every step does to the log and to the interruptions that are ahead;
* `Held`, `Lasts` : the programs that end in so many turns, some of them on an open handle;
* `interruptibleWait_lasts`, `resolveDevice_lasts`, `awaitFirstFrame_lasts`, `settleUntilFrame_lasts` : the loops.
-/

namespace LibuvcH264Src
open AnnexB Caps Prog

variable {env : Env} {w w' w'' : World}

/-! ## The clock and the interruptions -/

/-- The monotonic clock. No wait of the element asks for less than a microsecond, so one that is not cut
short moves the clock on: `g_cond_wait_until` that was not woken before its deadline, and a pop that gave
nothing. -/
structure Clocked (env : Env) : Prop where
  forward : ∀ e older, env.monotonicTime older ≤ env.monotonicTime (e :: older)
  parked : ∀ others older deadline, env.signalled older deadline = false → env.monotonicTime older < deadline →
    env.monotonicTime older < env.monotonicTime (.meanwhile others :: older)
  popped : ∀ older, env.monotonicTime older < env.monotonicTime (.pop none :: older)

/-- How often `unlock` is among them. -/
def unlocks (others : List Interference) : Nat :=
  others.countP fun i =>
    match i with
    | .unlock => true
    | _ => false

/-- Only so many waits are cut short: behind every log there is a number of calls of `unlock` and of wake-ups
that can still come. -/
structure Interruptions (env : Env) where
  left : List Event → Nat
  later : ∀ e older, left (e :: older) ≤ left older
  unlocked : ∀ older, left (.meanwhile (env.meanwhile older) :: older) + unlocks (env.meanwhile older) ≤ left older
  woken : ∀ e older deadline, env.signalled (e :: older) deadline = true → left (e :: older) < left older

theorem Clocked.le (h : Clocked env) {older log : List Event} (hlog : older <:+ log) :
    env.monotonicTime older ≤ env.monotonicTime log := by
  obtain ⟨newer, rfl⟩ := hlog
  induction newer with
  | nil => exact le_refl _
  | cons e newer ih => exact le_trans ih (h.forward e _)

theorem Interruptions.le (rest : Interruptions env) {older log : List Event} (hlog : older <:+ log) :
    rest.left log ≤ rest.left older := by
  obtain ⟨newer, rfl⟩ := hlog
  induction newer with
  | nil => exact le_refl _
  | cons e newer ih => exact le_trans (rest.later e _) ih

/-! ## What is ahead -/

/-- The traces of earlier calls of `unlock`. -/
def World.marks (w : World) : Nat := w.queue.count .flushSentinel + w.flushing.toNat

/-- The interruptions that are ahead, each with the traces that it leaves. -/
def Interruptions.strain (rest : Interruptions env) (w : World) : Nat := 3 * rest.left w.log + w.marks

/-- With the time up to the deadline. -/
def Interruptions.potential (rest : Interruptions env) (deadline : Int) (w : World) : Nat :=
  rest.strain w + (deadline - env.monotonicTime w.log).toNat

/-- The log grew, and there is no more ahead than there was. `flushing` only changes for something that was
ahead. -/
structure Went (rest : Interruptions env) (w w' : World) : Prop where
  grown : w.log <:+ w'.log
  strain : rest.strain w' ≤ rest.strain w
  toggled : w'.flushing ≠ w.flushing → rest.strain w' < rest.strain w

variable {rest : Interruptions env}

instance : Std.Refl (Went rest) where
  refl _ := ⟨List.suffix_rfl, le_refl _, fun h => absurd rfl h⟩

instance : IsTrans World (Went rest) where
  trans := by
    intro w w' w'' h h'
    refine ⟨h.grown.trans h'.grown, le_trans h'.strain h.strain, fun hdiff => ?_⟩
    by_cases hsame : w'.flushing = w.flushing
    · exact lt_of_lt_of_le (h'.toggled fun h'' => hdiff (h''.trans hsame)) h.strain
    · exact lt_of_le_of_lt h'.strain (h.toggled hsame)

theorem Went.trans (h : Went rest w w') (h' : Went rest w' w'') : Went rest w w'' := IsTrans.trans _ _ _ h h'

theorem Went.clock (h : Went rest w w') (hclock : Clocked env) :
    env.monotonicTime w.log ≤ env.monotonicTime w'.log := hclock.le h.grown

theorem Went.potential (h : Went rest w w') (hclock : Clocked env) (deadline : Int) :
    rest.potential deadline w' ≤ rest.potential deadline w := by
  have htime := h.clock hclock
  have hstrain := h.strain
  unfold Interruptions.potential
  omega

/-- What counts as a step ahead: the clock moved on in front of the deadline, or an interruption is past. -/
theorem Went.potential_lt (h : Went rest w w') (hclock : Clocked env) {deadline : Int}
    (hearly : env.monotonicTime w.log < deadline)
    (hahead : env.monotonicTime w.log < env.monotonicTime w'.log ∨ rest.strain w' < rest.strain w) :
    rest.potential deadline w' < rest.potential deadline w := by
  have htime := h.clock hclock
  have hstrain := h.strain
  unfold Interruptions.potential
  omega

/-! ## The other threads -/

theorem feed_marks (w : World) (arrival : Arrival) (data : Option (List Byte)) :
    (feed w arrival data).marks = w.marks ∧ (feed w arrival data).flushing = w.flushing := by
  unfold feed
  split
  · exact ⟨rfl, rfl⟩
  · refine ⟨?_, rfl⟩
    have hnone : ((frameCallback w.stream arrival data).pushed.map QueueItem.buffer).count .flushSentinel = 0 :=
      List.count_eq_zero.mpr (by simp)
    show (w.queue ++ (frameCallback w.stream arrival data).pushed.map QueueItem.buffer).count QueueItem.flushSentinel +
      w.flushing.toNat = w.marks
    rw [List.count_append, hnone]
    rfl

/-- A call of `unlock` leaves two traces at most, and only it adds to them. -/
theorem interfere_marks (w : World) (i : Interference) :
    (interfere w i).marks ≤ w.marks + 2 * unlocks [i] ∧
      (unlocks [i] = 0 → (interfere w i).flushing ≠ w.flushing → (interfere w i).marks < w.marks) := by
  match i with
  | .frame arrival data =>
    obtain ⟨hmarks, hflushing⟩ := feed_marks w arrival data
    exact ⟨le_of_eq hmarks, fun _ hdiff => absurd hflushing hdiff⟩
  | .unlock =>
    refine ⟨?_, nofun⟩
    have hone : (w.queue ++ [QueueItem.flushSentinel]).count .flushSentinel = w.queue.count .flushSentinel + 1 :=
      List.count_append
    show (w.queue ++ [QueueItem.flushSentinel]).count .flushSentinel + 1 ≤ w.marks + 2
    rw [hone]
    unfold World.marks
    omega
  | .unlockStop =>
    refine ⟨Nat.zero_le _, fun _ hdiff => ?_⟩
    have hflushing : w.flushing = true := by
      by_contra h
      exact hdiff (Bool.eq_false_iff.mpr h).symm
    show 0 < w.queue.count .flushSentinel + w.flushing.toNat
    rw [hflushing]
    exact Nat.succ_pos _
  | .setClock _ | .changeState _ => exact ⟨le_refl _, fun _ hdiff => absurd rfl hdiff⟩
  | .setProperty property => cases property <;> exact ⟨le_refl _, fun _ hdiff => absurd rfl hdiff⟩

theorem foldl_interfere_marks (others : List Interference) (w : World) :
    (others.foldl interfere w).marks ≤ w.marks + 2 * unlocks others ∧
      (unlocks others = 0 → (others.foldl interfere w).flushing ≠ w.flushing →
        (others.foldl interfere w).marks < w.marks) := by
  induction others generalizing w with
  | nil => exact ⟨le_refl _, fun _ hdiff => absurd rfl hdiff⟩
  | cons i others ih =>
    obtain ⟨hmarks, htoggled⟩ := interfere_marks w i
    obtain ⟨hmarks', htoggled'⟩ := ih (interfere w i)
    have hsum : unlocks ([i] ++ others) = unlocks [i] + unlocks others := List.countP_append
    rw [List.foldl_cons, ← List.singleton_append, hsum]
    refine ⟨by omega, fun hnone hdiff => ?_⟩
    by_cases hsame : (interfere w i).flushing = w.flushing
    · have := htoggled' (by omega) fun h => hdiff (h.trans hsame)
      omega
    · have := htoggled (by omega) hsame
      omega

/-- What a turn of the others does: one that wakes a waiter or sets `flushing` uses up what was ahead. -/
structure Turned (rest : Interruptions env) (w w' : World) : Prop extends Went rest w w' where
  meanwhile : .meanwhile (env.meanwhile w.log) :: w.log <:+ w'.log
  woken : ∀ until', env.signalled w'.log until' = true → rest.strain w' < rest.strain w

theorem others_turned (w : World) (budget : Nat) : Turned rest w (w.others (env.meanwhile w.log) budget) := by
  obtain ⟨hmarks, htoggled⟩ := foldl_interfere_marks (env.meanwhile w.log) (w.note (.meanwhile (env.meanwhile w.log)))
  have hgrown := (foldl_interfere_calm (env.meanwhile w.log) (w.note (.meanwhile (env.meanwhile w.log)))).grown
  have hunlocked := rest.unlocked w.log
  change .meanwhile (env.meanwhile w.log) :: w.log <:+ (w.others (env.meanwhile w.log) budget).log at hgrown
  change (w.others (env.meanwhile w.log) budget).marks ≤ w.marks + _ at hmarks
  change _ → (w.others (env.meanwhile w.log) budget).flushing ≠ w.flushing →
    (w.others (env.meanwhile w.log) budget).marks < w.marks at htoggled
  have hleft := rest.le hgrown
  refine ⟨⟨(List.suffix_cons _ _).trans hgrown, ?_, fun hdiff => ?_⟩, hgrown, fun until' hwoken => ?_⟩
  · unfold Interruptions.strain
    omega
  · unfold Interruptions.strain
    by_cases hnone : unlocks (env.meanwhile w.log) = 0
    · have hless := htoggled hnone hdiff
      omega
    · omega
  · have hless : rest.left (w.others (env.meanwhile w.log) budget).log < rest.left w.log := by
      obtain ⟨newer, hlog⟩ := hgrown
      cases newer with
      | nil =>
        rw [← hlog] at hwoken ⊢
        exact rest.woken _ _ until' hwoken
      | cons e newer =>
        rw [← hlog] at hwoken ⊢
        apply lt_of_lt_of_le (rest.woken _ _ until' hwoken)
        exact rest.le ((List.suffix_cons _ _).trans (List.suffix_append newer _))
    unfold Interruptions.strain
    omega

theorem turn_eq (h : 0 < w.budget) : turn env w = (some (), w.others (env.meanwhile w.log) (w.budget - 1)) :=
  if_neg (Nat.pos_iff_ne_zero.mp h)

/-! ## Programs that end -/

/-- In so many turns. -/
abbrev Lasts {α : Type} (rest : Interruptions env) (P : World → Prop) (k : Nat) (p : Prog World α)
    (Q : α → World → Prop) : Prop := Brief World.budget (Went rest) P k p Q

/-- The handle of the instance is open. -/
def Held (w : World) : Prop := ∃ handle, w.own.uvcDevh = some handle ∧ handle ∈ openHandles w.log

theorem Talks.held (h : Talks w w') (hw : Held w) : Held w' := by
  obtain ⟨hdevh, -, -, hhandles, -⟩ := h.fields
  obtain ⟨handle, hown, hopen⟩ := hw
  refine ⟨handle, hdevh.trans hown, ?_⟩
  rw [hhandles]
  exact hopen

theorem went_of_log (hlog : w.log <:+ w'.log) (hmarks : w'.marks = w.marks) (hflushing : w'.flushing = w.flushing) :
    Went rest w w' := by
  have hleft := rest.le hlog
  refine ⟨hlog, ?_, fun hdiff => absurd hflushing hdiff⟩
  unfold Interruptions.strain
  omega

theorem went_note (w : World) (e : Event) : Went rest w (w.note e) :=
  went_of_log (List.suffix_cons e w.log) rfl rfl

section Steps
variable {P : World → Prop}

theorem ask_lasts {α : Type} (answer : List Event → α) : Lasts rest P 0 (ask answer) fun _ => P :=
  fun w hw _ => ⟨hw, Std.Refl.refl w, le_refl _⟩

theorem record_lasts {e : Event} {Q : Unit → World → Prop} (hQ : ∀ w, P w → Q () (w.note e)) :
    Lasts rest P 0 (record e) Q :=
  brief_modify (fun w => went_note w e) (fun _ => rfl) hQ

theorem modifyOwn_lasts {f : Own → Own} {Q : Unit → World → Prop} (hQ : ∀ w, P w → Q () { w with own := f w.own }) :
    Lasts rest P 0 (modifyOwn f) Q :=
  brief_modify (fun _ => went_of_log List.suffix_rfl rfl rfl) (fun _ => rfl) hQ

theorem modifyStream_lasts {f : StreamState → StreamState} {Q : Unit → World → Prop}
    (hQ : ∀ w, P w → Q () { w with stream := f w.stream }) : Lasts rest P 0 (modifyStream f) Q :=
  brief_modify (fun _ => went_of_log List.suffix_rfl rfl rfl) (fun _ => rfl) hQ

theorem turn_lasts (hP : ∀ w w', Talks w w' → P w → P w') : Lasts rest P 1 (turn env) fun _ => P := by
  intro w hw hbudget
  have htalks : Talks w (turn env w).2 := turn_talks w
  unfold wp
  rw [turn_eq hbudget] at htalks ⊢
  refine ⟨hP w _ htalks hw, (others_turned w _).toWent, ?_⟩
  show w.budget ≤ w.budget - 1 + 1
  omega

/-! ### Talks -/

variable (hP : ∀ w w', Talks w w' → P w → P w')
include hP

theorem isFlushing_lasts : Lasts rest P 1 (isFlushing env) fun _ => P := by
  unfold isFlushing
  refine brief_bind (j := 1) (turn_lasts hP) fun _ => ?_
  exact brief_free brief_get fun _ => brief_pure fun _ hw => hw

theorem readProps_lasts : Lasts rest P 1 (readProps env) fun _ => P := by
  unfold readProps
  refine brief_bind (j := 1) (turn_lasts hP) fun _ => ?_
  exact brief_free brief_get fun _ => brief_pure fun _ hw => hw

theorem monotonicTime_lasts : Lasts rest P 1 (monotonicTime env) fun _ => P := by
  unfold monotonicTime
  refine brief_bind (j := 1) (turn_lasts hP) fun _ => brief_free (ask_lasts _) fun now => ?_
  refine brief_free (record_lasts fun w hw => ?_) fun _ => brief_pure fun _ hw => hw
  exact hP w _ (record_talks (fun _ => ⟨rfl, rfl⟩) w) hw

theorem pastDeadline_lasts (deadline : Int) : Lasts rest P 1 (pastDeadline env deadline) fun _ => P := by
  unfold pastDeadline
  apply brief_ite
  · exact brief_pure fun _ hw => hw
  · exact brief_bind (j := 1) (monotonicTime_lasts hP) fun _ => brief_pure fun _ hw => hw

theorem uvcFindDevices_lasts : Lasts rest P 1 (uvcFindDevices env) fun _ => P := by
  unfold uvcFindDevices
  refine brief_bind (j := 1) (turn_lasts hP) fun _ => brief_free (ask_lasts _) fun devs => ?_
  refine brief_free (record_lasts fun w hw => ?_) fun _ => brief_pure fun _ hw => hw
  exact hP w _ (record_talks (fun _ => ⟨rfl, rfl⟩) w) hw

end Steps

/-! ### Talks on an open handle -/

theorem anywhere_talks (w w' : World) (_ : Talks w w') (_ : True) : True := trivial

theorem held_talks (w w' : World) (h : Talks w w') (hw : Held w) : Held w' := h.held hw

theorem withHandle_lasts {e : Option Nat → Event} (he : ∀ handle log, openHandles (e handle :: log) = openHandles log) :
    Lasts rest Held 0 (withHandle e) fun _ => Held := by
  intro w hw _
  obtain ⟨handle, hown, hopen⟩ := hw
  have hheld : Held (w.note (e w.own.uvcDevh)) := by
    refine ⟨handle, hown, ?_⟩
    show handle ∈ openHandles (e w.own.uvcDevh :: w.log)
    rw [he]
    exact hopen
  unfold withHandle
  rw [wp_bind, wp_get, wp_bind, wp_record, hown]
  show wp _ (if handle ∈ openHandles w.log then pure () else cut) _ _
  rw [if_pos hopen, wp_pure, ← hown]
  exact ⟨hheld, went_note w _, le_refl _⟩

theorem request_lasts (req : Request) : Lasts rest Held 1 (request env req) fun _ => Held := by
  unfold request
  refine brief_bind (j := 1) (turn_lasts held_talks) fun _ => brief_free (ask_lasts _) fun reply => ?_
  exact brief_free (withHandle_lasts fun _ _ => rfl) fun _ => brief_pure fun _ hw => hw

/-- A field other than the handle. -/
theorem modifyOwn_held {f : Own → Own} (hf : ∀ self, (f self).uvcDevh = self.uvcDevh) (k : Nat) :
    Lasts rest Held k (modifyOwn f) fun _ => Held := by
  refine (modifyOwn_lasts fun w hw => ?_).mono (Nat.zero_le k) fun _ _ hw => hw
  obtain ⟨handle, hown, hopen⟩ := hw
  exact ⟨handle, (hf w.own).trans hown, hopen⟩

theorem getStreamCtrlFormatSize_lasts (width height fps : Int) :
    Lasts rest Held 1 (getStreamCtrlFormatSize env width height fps) fun _ => Held := by
  unfold getStreamCtrlFormatSize
  refine brief_free brief_get fun w => brief_bind (j := 1) (request_lasts _) fun reply => ?_
  exact brief_free (modifyOwn_held (fun _ => by rfl) 0) fun _ => brief_pure fun _ hw => hw

theorem uvcProbeStreamCtrl_lasts : Lasts rest Held 1 (uvcProbeStreamCtrl env) fun _ => Held := by
  unfold uvcProbeStreamCtrl
  refine brief_free brief_get fun w => brief_bind (j := 1) (request_lasts _) fun reply => ?_
  exact brief_free (modifyOwn_held (fun _ => by rfl) 0) fun _ => brief_pure fun _ hw => hw

theorem uvcStartStreaming_lasts : Lasts rest Held 1 (uvcStartStreaming env) fun _ => Held := by
  unfold uvcStartStreaming
  refine brief_free brief_get fun w => brief_bind (j := 1) (request_lasts _) fun reply => ?_
  exact brief_pure fun _ hw => hw

theorem negotiateCleanPayload_lasts (width height fps : Int) :
    Lasts rest Held 1 (negotiateCleanPayload env width height fps) fun _ => Held := by
  unfold negotiateCleanPayload
  refine brief_bind (j := 1) (getStreamCtrlFormatSize_lasts width height fps) fun res => brief_free brief_get fun w => ?_
  apply brief_ite
  · exact brief_free (record_lasts fun _ hw => hw) fun _ => brief_pure fun _ hw => hw
  · exact brief_free (modifyOwn_held (fun _ => by rfl) 0) fun _ => brief_pure fun _ hw => hw

theorem applyMaxPayload_lasts (width height fps : Int) :
    Lasts rest Held 3 (applyMaxPayload env width height fps) fun _ => Held := by
  unfold applyMaxPayload
  refine brief_bind (j := 1) (readProps_lasts held_talks) fun props => brief_ite ?_ ?_
  · exact modifyOwn_held (fun _ => by rfl) _
  · refine brief_free (modifyOwn_held (fun _ => by rfl) 0) fun _ => ?_
    refine brief_bind (j := 1) uvcProbeStreamCtrl_lasts fun res => brief_free brief_get fun w => brief_ite ?_ ?_
    · exact brief_bind (j := 1) (negotiateCleanPayload_lasts width height fps) fun _ => brief_pure fun _ hw => hw
    · exact modifyOwn_held (fun _ => by rfl) _

theorem applyTransferBuffers_lasts : Lasts rest Held 2 (applyTransferBuffers env) fun _ => Held := by
  unfold applyTransferBuffers
  refine brief_bind (j := 1) (readProps_lasts held_talks) fun props => brief_when ?_
  refine brief_bind (j := 1) (request_lasts _) fun reply => brief_when ?_
  exact modifyOwn_held (fun _ => by rfl) _

/-! ### Letting the handle go -/

theorem closeDevh_lasts : Lasts rest (fun _ => True) 1 (closeDevh env) fun _ _ => True := by
  unfold closeDevh
  refine brief_free brief_get fun w => ?_
  split
  · exact brief_pure fun _ _ => trivial
  · unfold uvcClose
    refine brief_bind (j := 1) (turn_lasts anywhere_talks) fun _ => ?_
    exact brief_free (record_lasts fun _ hw => hw) fun _ => modifyOwn_lasts fun _ hw => hw

theorem unrefDevice_lasts : Lasts rest (fun _ => True) 0 unrefDevice fun _ _ => True := by
  unfold unrefDevice
  refine brief_free brief_get fun w => ?_
  split
  · exact brief_pure fun _ _ => trivial
  · exact brief_free (record_lasts fun _ hw => hw) fun _ => modifyOwn_lasts fun _ hw => hw

theorem closeAndUnref_lasts : Lasts rest (fun _ => True) 1 (closeAndUnref env) fun _ _ => True := by
  unfold closeAndUnref
  exact brief_bind (j := 1) closeDevh_lasts fun _ => unrefDevice_lasts

theorem teardownHandle_lasts : Lasts rest (fun _ => True) 2 (teardownHandle env) fun _ _ => True := by
  have hstop : Lasts rest (fun _ => True) 1 (stopDevh env) fun _ _ => True := by
    unfold stopDevh
    refine brief_free brief_get fun w => ?_
    split
    · exact brief_pure fun _ _ => trivial
    · unfold uvcStopStreaming
      refine brief_bind (j := 1) ?_ fun _ => modifyOwn_lasts fun _ hw => hw
      exact brief_bind (j := 1) (turn_lasts anywhere_talks) fun _ => record_lasts fun _ hw => hw
  unfold teardownHandle
  refine brief_bind (j := 1) hstop fun _ => ?_
  exact brief_bind (j := 1) closeDevh_lasts fun _ => unrefDevice_lasts

theorem drainQueue_lasts : Lasts rest (fun _ => True) 1 (drainQueue env) fun _ _ => True := by
  unfold drainQueue
  refine brief_bind (j := 1) (turn_lasts anywhere_talks) fun _ => ?_
  refine brief_modify (fun w => ?_) (fun _ => rfl) fun _ hw => hw
  have hleft := rest.le (List.suffix_cons (Event.discarded w.queue) w.log)
  refine ⟨List.suffix_cons _ w.log, ?_, fun hdiff => absurd rfl hdiff⟩
  show 3 * rest.left (.discarded w.queue :: w.log) + (0 + w.flushing.toNat) ≤ 3 * rest.left w.log + (_ + w.flushing.toNat)
  omega

/-- A handle that was opened is open. -/
theorem uvcOpen_lasts (dev : Device) :
    Lasts rest (fun _ => True) 1 (uvcOpen env dev) fun res w' => ¬ res < 0 → Held w' := by
  unfold uvcOpen
  refine brief_bind (j := 1) (turn_lasts anywhere_talks) fun _ => brief_free (ask_lasts _) fun res => ?_
  refine brief_free (ask_lasts _) fun handle => ?_
  refine brief_free (Q := fun _ w => ¬ res < 0 → handle ∈ openHandles w.log) (record_lasts fun w _ hres => ?_) fun _ => ?_
  · show handle ∈ openHandles (.openDevice dev handle res :: w.log)
    unfold openHandles
    rw [if_neg hres]
    exact List.mem_cons_self
  · refine brief_free (modifyOwn_lasts fun w hopen hres => ?_) fun _ => brief_pure fun _ hheld => hheld
    exact ⟨handle, if_neg hres, hopen hres⟩

/-- From the open handle on. -/
theorem rearmAndStart_lasts (deadline : Int) :
    Lasts rest Held 8 (rearmAndStart env deadline) fun _ _ => True := by
  unfold rearmAndStart
  refine brief_free brief_get fun w => brief_bind (j := 3) (applyMaxPayload_lasts _ _ _) fun _ => ?_
  refine brief_free (modifyStream_lasts fun _ hw => hw) fun _ => brief_bind (j := 2) applyTransferBuffers_lasts fun _ => ?_
  refine brief_bind (j := 1) (pastDeadline_lasts held_talks deadline) fun late => ?_
  refine brief_bind (j := 1) (brief_ite (brief_pure fun _ hw => hw) uvcStartStreaming_lasts) fun res => brief_ite ?_ ?_
  · intro w _ hbudget
    refine brief_bind (j := 1) closeAndUnref_lasts (fun _ => ?_) w trivial hbudget
    exact brief_pure fun _ hw => hw
  · exact brief_free (modifyOwn_lasts fun _ _ => trivial) fun _ => brief_pure fun _ hw => hw

/-! ## The loops -/

/-- Turns for `n`, and for `r` more whenever there is less ahead. -/
abbrev Funded (rest : Interruptions env) (deadline : Int) (r n : Nat) (w : World) : Prop :=
  Affords World.budget (rest.potential deadline) r n w

section Loops
variable (hclock : Clocked env) {deadline : Int} {r n : Nat}
include hclock

theorem Funded.went (h : Funded rest deadline r n w) (hw : Went rest w w') (hbudget : w'.budget = w.budget) :
    Funded rest deadline r n w' := by
  have hless := Nat.mul_le_mul_left r (hw.potential hclock deadline)
  unfold Funded Affords at h ⊢
  rw [hbudget]
  omega

/-- A program that ends in so many turns, on what there is. -/
theorem wp_lasts {α : Type} {P : World → Prop} {k : Nat} {p : Prog World α} {Q Q' : α → World → Prop}
    (hp : Lasts rest P k p Q) (hw : P w) (h : Funded rest deadline r (n + k) w)
    (hQ : ∀ a w', Q a w' → Went rest w w' → Funded rest deadline r n w' → Q' a w') : wp (fun _ => False) p Q' w :=
  hp.affords (fun _ _ h => h.potential hclock deadline) hw h hQ

theorem wp_turn_funded {Q : Unit → World → Prop} (h : Funded rest deadline r (n + 1) w)
    (hQ : ∀ w', Turned rest w w' → Funded rest deadline r n w' → Q () w') : wp (fun _ => False) (turn env) Q w := by
  have hbudget : 0 < w.budget := lt_of_lt_of_le (Nat.succ_pos n) (Affords.le h)
  have hturned : Turned rest w (w.others (env.meanwhile w.log) (w.budget - 1)) := others_turned w _
  have hless := Nat.mul_le_mul_left r (hturned.potential hclock deadline)
  unfold wp
  rw [turn_eq hbudget]
  apply hQ _ hturned
  unfold Funded Affords at h ⊢
  show r * rest.potential deadline (w.others (env.meanwhile w.log) (w.budget - 1)) + n ≤ w.budget - 1
  omega

theorem wp_isFlushing_funded {Q : Bool → World → Prop} (h : Funded rest deadline r (n + 1) w)
    (hQ : ∀ w', Turned rest w w' → Funded rest deadline r n w' → Q w'.flushing w') :
    wp (fun _ => False) (isFlushing env) Q w := by
  unfold isFlushing
  rw [wp_bind]
  exact wp_turn_funded hclock h hQ

theorem wp_monotonicTime_funded {Q : Int → World → Prop} (h : Funded rest deadline r (n + 1) w)
    (hQ : ∀ now w', Went rest w w' → env.monotonicTime w.log ≤ now → now ≤ env.monotonicTime w'.log →
      Funded rest deadline r n w' → Q now w') : wp (fun _ => False) (monotonicTime env) Q w := by
  unfold monotonicTime
  rw [wp_bind]
  refine wp_turn_funded hclock h fun w₁ hturned hfunded => ?_
  have hwent := hturned.toWent
  rw [wp_bind, wp_ask, wp_bind, wp_record, wp_pure]
  have hread : Went rest w₁ (w₁.note (.time (env.monotonicTime w₁.log))) := went_note w₁ _
  exact hQ _ _ (hwent.trans hread) (hwent.clock hclock) (hread.clock hclock) (hfunded.went hclock hread rfl)

/-- A pop that gives nothing took its time, and a sentinel that is popped is gone. -/
theorem wp_queueTimeoutPop_funded {Q : Option QueueItem → World → Prop} (h : Funded rest deadline r (n + 1) w)
    (hQ : ∀ item w', Went rest w w' → Funded rest deadline r n w' →
      (item = none → env.monotonicTime w.log < env.monotonicTime w'.log) →
      (item = some .flushSentinel → rest.strain w' < rest.strain w) → Q item w') :
    wp (fun _ => False) (queueTimeoutPop env) Q w := by
  unfold queueTimeoutPop
  rw [wp_bind]
  refine wp_turn_funded hclock h fun w₁ hturned hfunded => ?_
  have hwent := hturned.toWent
  rw [wp_bind, wp_get, wp_bind, wp_modify, wp_bind, wp_record, wp_pure]
  have hleft := rest.le (List.suffix_cons (Event.pop w₁.queue.head?) w₁.log)
  have hcount : w₁.queue.tail.count .flushSentinel +
      (if w₁.queue.head? = some .flushSentinel then 1 else 0) = w₁.queue.count .flushSentinel := by
    cases w₁.queue with
    | nil => rfl
    | cons item items =>
      rw [List.count_cons]
      simp
  have hpop : Went rest w₁ (World.note { w₁ with queue := w₁.queue.tail } (.pop w₁.queue.head?)) := by
    refine ⟨List.suffix_cons _ w₁.log, ?_, fun hdiff => absurd rfl hdiff⟩
    show 3 * rest.left (.pop w₁.queue.head? :: w₁.log) + (w₁.queue.tail.count .flushSentinel + w₁.flushing.toNat) ≤
      3 * rest.left w₁.log + (w₁.queue.count .flushSentinel + w₁.flushing.toNat)
    omega
  refine hQ _ _ (hwent.trans hpop) (hfunded.went hclock hpop rfl) (fun hnone => ?_) fun hsentinel => ?_
  · show env.monotonicTime w.log < env.monotonicTime (.pop w₁.queue.head? :: w₁.log)
    rw [hnone]
    exact lt_of_le_of_lt (hwent.clock hclock) (hclock.popped w₁.log)
  · rw [if_pos hsentinel] at hcount
    have hstrain := hwent.strain
    show 3 * rest.left (.pop w₁.queue.head? :: w₁.log) + (w₁.queue.tail.count .flushSentinel + w₁.flushing.toNat) < _
    unfold Interruptions.strain World.marks at hstrain ⊢
    omega

/-- The wait ends, because `flushing` is set or because the time is up. -/
theorem parkUntil_funded (until' : Int) (h : Funded rest deadline (r + 2) (n + 2) w) :
    wp (fun _ => False) (parkUntil env until')
      (fun _ w' => Funded rest deadline (r + 2) n w' ∧ Went rest w w' ∧
        (w'.flushing = true ∨ env.signalled w'.log until' = false)) w := by
  unfold parkUntil forever
  refine wp_loop_affords (J := fun _ w' => Went rest w w') ?_ (by omega) (Std.Refl.refl w) h
  intro _ w₁ n hwent₁ h₁
  rw [wp_bind]
  refine wp_isFlushing_funded hclock h₁ fun w₂ hturned₂ h₂ => ?_
  have hwent₂ := hturned₂.toWent
  rw [wp_ite, wp_pure, wp_bind]
  constructor
  · intro hflushing
    exact ⟨h₂.weaken (Nat.le_succ n), hwent₂.potential hclock deadline, hwent₁.trans hwent₂, Or.inl hflushing⟩
  · intro _
    refine wp_turn_funded hclock h₂ fun w₃ hturned₃ h₃ => ?_
    have hwent₃ := hwent₂.trans hturned₃.toWent
    rw [wp_bind, wp_ask, wp_pure]
    refine ⟨h₃, hwent₃.potential hclock deadline, ?_⟩
    cases hwoken : env.signalled w₃.log until' with
    | true =>
      -- a wake-up is one interruption less
      have hless := lt_of_lt_of_le (hturned₃.woken until' hwoken) hwent₂.strain
      have htime := hwent₃.clock hclock
      refine ⟨hwent₁.trans hwent₃, ?_⟩
      unfold Interruptions.potential
      omega
    | false => exact ⟨hwent₁.trans hwent₃, Or.inr hwoken⟩

/-- Awake behind a wait, there is less ahead. -/
theorem interruptibleWait_funded {Q : Bool → World → Prop} {waitUs : Int} (hwait : 0 < waitUs)
    (h : Funded rest deadline (r + 2) (n + 4) w)
    (hQ : ∀ awake w', Went rest w w' → Funded rest deadline (r + 2) n w' →
      (awake = true → env.monotonicTime w.log < env.monotonicTime w'.log ∨ rest.strain w' < rest.strain w) →
      Q awake w') : wp (fun _ => False) (interruptibleWait env waitUs) Q w := by
  unfold interruptibleWait
  rw [wp_bind, wp_when]
  refine ⟨fun _ => ?_, fun hnot => absurd hwait hnot⟩
  rw [wp_bind]
  refine wp_monotonicTime_funded hclock h fun now w₁ hwent₁ hnow _ h₁ => ?_
  refine wp_mono (parkUntil_funded hclock (now + waitUs) h₁) fun _ w₂ hw₂ => ?_
  obtain ⟨h₂, hwent₂, hparked⟩ := hw₂
  rw [wp_bind]
  refine wp_isFlushing_funded hclock h₂ fun w₃ hturned₃ h₃ => ?_
  have hwent := hwent₁.trans (hwent₂.trans hturned₃.toWent)
  rw [wp_pure]
  refine hQ _ w₃ hwent h₃ fun hawake => ?_
  have hflushing : w₃.flushing = false := by simpa using hawake
  rcases hparked with hset | htimed
  · right
    -- `flushing` was set while it waited, and is not any more
    have hless := hturned₃.toggled (by rw [hflushing, hset]; exact Bool.false_ne_true)
    have hstrain := (hwent₁.trans hwent₂).strain
    omega
  · left
    have hbefore := (hwent₁.trans hwent₂).clock hclock
    by_cases hreached : env.monotonicTime w₂.log < now + waitUs
    · have hparked := hclock.parked (env.meanwhile w₂.log) w₂.log (now + waitUs) htimed hreached
      have hafter := hclock.le hturned₃.meanwhile
      omega
    · have hafter := hturned₃.clock hclock
      omega

theorem resolveDevice_funded (selector : DeviceSelector) (h : Funded rest deadline (r + 8) (n + 6) w) :
    wp (fun _ => False) (resolveDevice env selector deadline)
      (fun _ w' => Funded rest deadline (r + 8) n w' ∧ Went rest w w') w := by
  unfold resolveDevice forever
  refine wp_loop_affords (r := r + 2) (k := 6) (J := fun intervalMs w' => 0 < intervalMs ∧ Went rest w w') ?_ (by omega)
    ⟨show 0 < resetPollInitialMs by decide, Std.Refl.refl w⟩ h
  intro intervalMs w₁ n hinv h₁
  obtain ⟨hinterval, hwent₁⟩ := hinv
  rw [wp_bind]
  refine wp_lasts hclock (uvcFindDevices_lasts anywhere_talks) trivial h₁ fun devs w₂ _ hwent₂ h₂ => ?_
  split
  · next found _ =>
    rw [wp_bind, wp_record, wp_bind, wp_record, wp_pure]
    have hwent₃ := hwent₂.trans ((went_note w₂ (.refDevice found.1)).trans (went_note _ .freeDeviceList))
    have h₃ := h₂.went hclock ((went_note w₂ (.refDevice found.1)).trans (went_note _ .freeDeviceList)) rfl
    exact ⟨h₃.weaken (Nat.le_add_right n 5), hwent₃.potential hclock deadline, hwent₁.trans hwent₃⟩
  · rw [wp_bind]
    have hfree : Lasts rest (fun _ => True) 0 (when (devs.isSome = true) (record .freeDeviceList)) fun _ _ => True :=
      brief_when (record_lasts fun _ hw => hw)
    refine wp_lasts hclock hfree trivial h₂ fun _ w₃ _ hwent₃ h₃ => ?_
    have hwent₃ := hwent₂.trans hwent₃
    rw [wp_ite, wp_pure, wp_bind]
    refine ⟨fun _ => ⟨h₃.weaken (Nat.le_add_right n 5), hwent₃.potential hclock deadline, hwent₁.trans hwent₃⟩, fun _ => ?_⟩
    refine wp_monotonicTime_funded hclock h₃ fun now w₄ hwent₄ hnow _ h₄ => ?_
    have hwent₄ := hwent₃.trans hwent₄
    rw [wp_ite, wp_pure, wp_bind]
    refine ⟨fun _ => ⟨h₄.weaken (Nat.le_add_right n 4), hwent₄.potential hclock deadline, hwent₁.trans hwent₄⟩, fun hearly => ?_⟩
    have hwait : (0 : Int) < (intervalMs * 1000 : Nat) := by omega
    refine interruptibleWait_funded hclock hwait h₄ fun awake w₅ hwent₅ h₅ hahead => ?_
    have hwent := hwent₄.trans hwent₅
    rw [wp_pure]
    refine ⟨h₅, hwent.potential hclock deadline, ?_⟩
    cases awake with
    | false => exact hwent₁.trans hwent
    | true =>
      have hbefore := hwent₃.clock hclock
      have hafter := hwent₄.clock hclock
      have hstrain := hwent₄.strain
      have hdone := hahead rfl
      refine ⟨⟨?_, hwent₁.trans hwent⟩, hwent.potential_lt hclock (by omega) (by omega)⟩
      show 0 < min (intervalMs * 2) resetPollMaxMs
      unfold resetPollMaxMs
      omega

/-- Without a frame the time is up, or `flushing` is set. -/
theorem awaitFirstFrame_funded {waitUs : Int} (hwait : 0 < waitUs) (h : Funded rest deadline (r + 3) (n + 4) w) :
    wp (fun _ => False) (awaitFirstFrame env waitUs)
      (fun ok w' => Funded rest deadline (r + 3) n w' ∧ Went rest w w' ∧
        (ok = false → env.monotonicTime w.log < env.monotonicTime w'.log ∨ w'.flushing = true)) w := by
  unfold awaitFirstFrame forever
  rw [wp_bind]
  refine wp_monotonicTime_funded hclock h fun now w₁ hwent₁ hnow _ h₁ => ?_
  refine wp_loop_affords (J := fun until' w' => Went rest w w' ∧ env.monotonicTime w.log < until') ?_ (by omega)
    ⟨hwent₁, by omega⟩ h₁
  intro until' w₂ n hinv h₂
  obtain ⟨hwent₂, hbefore⟩ := hinv
  have hclock₂ := hwent₂.clock hclock
  rw [wp_bind]
  refine wp_monotonicTime_funded hclock h₂ fun now w₃ hwent₃ _ hnow h₃ => ?_
  rw [wp_ite, wp_pure, wp_bind]
  refine ⟨fun hpast => ⟨h₃.weaken (Nat.le_add_right n 2), hwent₃.potential hclock deadline, hwent₂.trans hwent₃,
    fun _ => Or.inl (by omega)⟩, fun _ => ?_⟩
  have hclock₃ := hwent₃.clock hclock
  refine wp_queueTimeoutPop_funded hclock h₃ fun item w₄ hwent₄ h₄ hnone hsentinel => ?_
  have hwent₄ := hwent₃.trans hwent₄
  cases item with
  | none =>
    have hlater := hnone rfl
    exact ⟨h₄.weaken (Nat.le_succ n), hwent₄.potential hclock deadline, hwent₂.trans hwent₄, fun _ => Or.inl (by omega)⟩
  | some item =>
    rw [wp_bind]
    refine wp_isFlushing_funded hclock h₄ fun w₅ hturned₅ h₅ => ?_
    have hwent₅ := hwent₄.trans hturned₅.toWent
    rw [wp_ite, wp_bind, wp_record, wp_pure, wp_ite, wp_pure, wp_bind, wp_modify, wp_pure]
    refine ⟨fun hset => ?_, fun _ => ⟨fun hitem => ?_, fun hitem => ?_⟩⟩
    · have hwent₆ := hwent₅.trans (went_note w₅ (.discarded [item]))
      exact ⟨h₅.went hclock (went_note w₅ (.discarded [item])) rfl, hwent₆.potential hclock deadline,
        hwent₂.trans hwent₆, fun _ => Or.inr hset⟩
    · have hless := hsentinel (congrArg some hitem)
      have hstrain := hturned₅.strain
      have hstrain₃ := hwent₃.strain
      have htime := hwent₅.clock hclock
      refine ⟨h₅, hwent₅.potential hclock deadline, ⟨hwent₂.trans hwent₅, hbefore⟩, ?_⟩
      unfold Interruptions.potential
      omega
    · have hback : Went rest w₅ { w₅ with queue := item :: w₅.queue } := by
        refine went_of_log List.suffix_rfl ?_ rfl
        show (item :: w₅.queue).count .flushSentinel + _ = w₅.queue.count .flushSentinel + _
        rw [List.count_cons_of_ne hitem]
      have hwent₆ := hwent₅.trans hback
      exact ⟨h₅.went hclock hback rfl, hwent₆.potential hclock deadline, hwent₂.trans hwent₆, nofun⟩

/-- What follows a device that was found. -/
theorem reopenOnce_funded (selector : DeviceSelector) (h : Funded rest deadline (r + 8) (n + 18) w) :
    wp (fun _ => False) (reopenOnce env selector deadline)
      (fun _ w' => Funded rest deadline (r + 8) n w' ∧ Went rest w w') w := by
  unfold reopenOnce
  rw [wp_bind]
  refine wp_mono (resolveDevice_funded (n := n + 12) hclock selector h) fun found w₁ hw₁ => ?_
  obtain ⟨h₁, hwent₁⟩ := hw₁
  split
  · exact ⟨h₁.weaken (Nat.le_add_right n 12), hwent₁⟩
  · next selected _ =>
    refine wp_lasts (P := fun _ => True) (k := 12) (Q := fun _ _ => True) hclock ?_ trivial h₁
      fun _ w₂ _ hwent₂ h₂ => ⟨h₂, hwent₁.trans hwent₂⟩
    refine brief_bind (j := 1) (pastDeadline_lasts anywhere_talks deadline) fun late => brief_ite ?_ ?_
    · exact brief_free (record_lasts fun _ hw => hw) fun _ => brief_pure fun _ hw => hw
    refine brief_bind (j := 1) (uvcOpen_lasts selected) fun res => ?_
    split
    · refine brief_free (Q := fun _ _ => True) (modifyOwn_lasts fun _ _ => trivial) fun _ => ?_
      exact brief_free (record_lasts fun _ hw => hw) fun _ => brief_pure fun _ hw => hw
    · next hres =>
      refine brief_free (Q := fun _ => Held) (modifyOwn_lasts fun w hheld => hheld hres) fun _ => ?_
      refine brief_free brief_get fun w => brief_bind (j := 1) (pastDeadline_lasts held_talks deadline) fun late => ?_
      refine brief_bind (j := 1) (brief_ite (brief_pure fun _ hw => hw) (getStreamCtrlFormatSize_lasts _ _ _))
        fun res => brief_ite ?_ (rearmAndStart_lasts deadline)
      intro w _ hbudget
      have hclose : Lasts rest (fun _ => True) 8 (do closeAndUnref env; return false) fun _ _ => True :=
        brief_bind (j := 1) closeAndUnref_lasts fun _ => brief_pure fun _ hw => hw
      exact hclose w trivial hbudget

theorem settleUntilFrame_funded (selector : DeviceSelector) (h : Funded rest deadline (r + 36) (n + 28) w) :
    wp (fun _ => False) (settleUntilFrame env selector deadline)
      (fun _ w' => Funded rest deadline (r + 36) n w' ∧ Went rest w w') w := by
  unfold settleUntilFrame forever
  refine wp_loop_affords (r := r + 8) (k := 28) (J := fun retryMs w' => 0 < retryMs ∧ Went rest w w') ?_ (by omega)
    ⟨show 0 < resetPollInitialMs by decide, Std.Refl.refl w⟩ h
  intro retryMs w₁ n hinv h₁
  obtain ⟨hretry, hwent₁⟩ := hinv
  rw [wp_bind]
  refine wp_isFlushing_funded hclock h₁ fun w₂ hturned₂ h₂ => ?_
  have hwent₂ := hturned₂.toWent
  rw [wp_ite, wp_pure, wp_bind]
  refine ⟨fun _ => ⟨h₂.weaken (Nat.le_add_right n 27), hwent₂.potential hclock deadline, hwent₁.trans hwent₂⟩,
    fun hquiet => ?_⟩
  refine wp_monotonicTime_funded hclock h₂ fun now w₃ hwent₃ hnow _ h₃ => ?_
  rw [wp_ite, wp_pure, wp_bind]
  refine ⟨fun _ => ⟨h₃.weaken (Nat.le_add_right n 26), (hwent₂.trans hwent₃).potential hclock deadline,
    hwent₁.trans (hwent₂.trans hwent₃)⟩, fun hearly => ?_⟩
  -- what a turn that goes on has to show is measured from here
  have hbefore : env.monotonicTime w₂.log < deadline := by omega
  have hgo : ∀ w', Went rest w₂ w' → env.monotonicTime w₂.log < env.monotonicTime w'.log ∨ rest.strain w' < rest.strain w₂ →
      rest.potential deadline w' < rest.potential deadline w₁ := by
    intro w' hwent hahead
    exact lt_of_lt_of_le (hwent.potential_lt hclock hbefore hahead) (hwent₂.potential hclock deadline)
  refine wp_mono (reopenOnce_funded (n := n + 8) hclock selector h₃) fun ok w₄ hw₄ => ?_
  obtain ⟨h₄, hwent₄⟩ := hw₄
  have hwent₄ := hwent₃.trans hwent₄
  rw [wp_ite]
  constructor
  · intro _
    rw [wp_bind]
    refine wp_monotonicTime_funded hclock h₄ fun now w₅ hwent₅ _ hnow₅ h₅ => ?_
    have hwent₅ := hwent₄.trans hwent₅
    have hclock₅ := hwent₅.clock hclock
    rw [wp_bind]
    have hproof : wp (fun _ => False)
        (if min (deadline - now) timeoutDuration > 0 then
          awaitFirstFrame env (min (deadline - now) timeoutDuration) else pure false)
        (fun ok w' => Funded rest deadline (r + 8) (n + 3) w' ∧ Went rest w₂ w' ∧
          (ok = false → env.monotonicTime w₂.log < env.monotonicTime w'.log ∨ w'.flushing = true)) w₅ := by
      rw [wp_ite, wp_pure]
      constructor
      · intro hproof
        refine wp_mono (awaitFirstFrame_funded (r := r + 5) (n := n + 3) hclock hproof h₅) fun proven w₆ hw₆ => ?_
        obtain ⟨h₆, hwent₆, hunproven⟩ := hw₆
        refine ⟨h₆, hwent₅.trans hwent₆, fun hfalse => ?_⟩
        rcases hunproven hfalse with hlater | hset
        · exact Or.inl (by omega)
        · exact Or.inr hset
      · intro hnone
        unfold timeoutDuration at hnone
        exact ⟨h₅.weaken (by omega), hwent₅, fun _ => Or.inl (by omega)⟩
    refine wp_mono hproof fun proven w₆ hw₆ => ?_
    obtain ⟨h₆, hwent₆, hunproven⟩ := hw₆
    rw [wp_ite, wp_pure, wp_bind]
    refine ⟨fun _ => ⟨h₆.weaken (Nat.le_add_right n 3), (hwent₂.trans hwent₆).potential hclock deadline,
      hwent₁.trans (hwent₂.trans hwent₆)⟩, fun hfalse => ?_⟩
    refine wp_lasts hclock teardownHandle_lasts trivial h₆ fun _ w₇ _ hwent₇ h₇ => ?_
    rw [wp_bind]
    refine wp_lasts hclock drainQueue_lasts trivial h₇ fun _ w₈ _ hwent₈ h₈ => ?_
    have hwent := hwent₆.trans (hwent₇.trans hwent₈)
    rw [wp_pure]
    refine ⟨h₈, (hwent₂.trans hwent).potential hclock deadline,
      ⟨hretry, hwent₁.trans (hwent₂.trans hwent)⟩, hgo w₈ hwent ?_⟩
    rcases hunproven (Bool.eq_false_iff.mpr hfalse) with hlater | hset
    · left
      exact lt_of_lt_of_le hlater ((hwent₇.trans hwent₈).clock hclock)
    · right
      -- `flushing` was not set when this turn began
      have hless := hwent₆.toggled (by rw [hset]; exact fun h => hquiet h.symm)
      exact lt_of_le_of_lt (hwent₇.trans hwent₈).strain hless
  · intro _
    have hwait : (0 : Int) < (retryMs * 1000 : Nat) := by omega
    rw [wp_bind]
    refine interruptibleWait_funded (r := r + 6) (n := n + 4) hclock hwait h₄ fun awake w₅ hwent₅ h₅ hahead => ?_
    have hwent := hwent₄.trans hwent₅
    rw [wp_pure]
    refine ⟨h₅.weaken (Nat.le_add_right n 4), (hwent₂.trans hwent).potential hclock deadline, ?_⟩
    cases awake with
    | false => exact hwent₁.trans (hwent₂.trans hwent)
    | true =>
      have hclock₄ := hwent₄.clock hclock
      have hstrain := hwent₄.strain
      have hdone := hahead rfl
      refine ⟨⟨?_, hwent₁.trans (hwent₂.trans hwent)⟩, hgo w₅ hwent (by omega)⟩
      show 0 < min (retryMs * 2) resetPollMaxMs
      unfold resetPollMaxMs
      omega

/-- **Both loops end**, however many turns are observed from some number on. -/
theorem loops_end (rest : Interruptions env) (selector : DeviceSelector) (deadline : Int) (w : World) :
    ∃ turns, ∀ budget, turns ≤ budget →
      (resolveDevice env selector deadline { w with budget := budget }).1.isSome ∧
      (settleUntilFrame env selector deadline { w with budget := budget }).1.isSome := by
  refine ⟨36 * rest.potential deadline w + 28, fun budget hbudget => ?_⟩
  have hfunded : Funded rest deadline (0 + 36) (0 + 28) { w with budget := budget } := by
    unfold Funded Affords
    show (0 + 36) * rest.potential deadline w + (0 + 28) ≤ budget
    omega
  have hfunded' : Funded rest deadline (28 + 8) (22 + 6) { w with budget := budget } := hfunded
  exact ⟨isSome_of_wp (resolveDevice_funded hclock selector hfunded'),
    isSome_of_wp (settleUntilFrame_funded hclock selector hfunded)⟩

end Loops

end LibuvcH264Src
