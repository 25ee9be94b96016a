import LibuvcH264Src.History
import LibuvcH264Src.Deadlines

/-!
# What a recovery begins, and how it waits

* `Watch` : the history of a recovery, with the log behind the first comparison that found its deadline passed,
  and the intervals of its polls;
* `Watched` : the loops of the recovery beside their history, and that without it they are the loops;
* `Timely` : nothing is begun behind the deadline, and no loop shortens its intervals;
* `recovery_loops_timely` : the loops end, and are timely.
-/

namespace LibuvcH264Src
open AnnexB Caps Prog

/-! ## The history -/

structure Watch where
  /-- The log behind the first comparison that found the deadline passed. -/
  expired : Option (List Event)
  /-- The intervals of each call of `resolve_device`, the newest call first. -/
  polls : List (List Nat)
  /-- The intervals of `settle_until_frame`. -/
  retries : List Nat

def Watch.init : Watch := ⟨none, [], []⟩

def Watch.expire (log : List Event) (h : Watch) : Watch := { h with expired := h.expired.or (some log) }

def Watch.call (h : Watch) : Watch := { h with polls := [] :: h.polls }

def Watch.poll (intervalMs : Nat) (h : Watch) : Watch :=
  { h with
    polls :=
      match h.polls with
      | [] => []
      | intervals :: older => (intervals ++ [intervalMs]) :: older }

def Watch.retry (retryMs : Nat) (h : Watch) : Watch := { h with retries := h.retries ++ [retryMs] }

/-! ## The loops beside it -/

namespace Watched
section Programs
variable (env : Env)

/-- A reading of the clock that is compared with the deadline. -/
def observe (deadline : Int) : Prog (World × Watch) Int := do
  let now ← plain (monotonicTime env)
  when (now ≥ deadline) (note fun w h => h.expire w.log)
  return now

def resolveDevice (selector : DeviceSelector) (deadline : Int) :
    Prog (World × Watch) (Except Bool (Device × Nat)) := do
  note fun _ h => h.call
  loop (fun s => s.1.budget) (fun intervalMs => do
    let devs ← plain (uvcFindDevices env)
    match devs.bind (findMatching selector 0) with
    | some found =>
      plain (record (.refDevice found.1))
      plain (record .freeDeviceList)
      return .inr (.ok found)
    | none =>
      plain (when devs.isSome (record .freeDeviceList))
      if deadline = 0 then return .inr (.error devs.isNone)
      else
        let now ← observe env deadline
        if now ≥ deadline then return .inr (.error devs.isNone)
        else
          note fun _ h => h.poll intervalMs
          let awake ← plain (interruptibleWait env (intervalMs * 1000 : Nat))
          return if awake then .inl (min (intervalMs * 2) resetPollMaxMs)
            else .inr (.error devs.isNone)) resetPollInitialMs

def pastDeadline (deadline : Int) : Prog (World × Watch) Bool := do
  if deadline = 0 then return false
  else
    let now ← observe env deadline
    return now ≥ deadline

def rearmAndStart (deadline : Int) : Prog (World × Watch) Bool := do
  let w ← plain get
  plain (applyMaxPayload env w.stream.negotiatedWidth w.stream.negotiatedHeight w.own.negotiatedFramerate)
  plain (modifyStream rearmStream)
  plain (applyTransferBuffers env)
  let late ← pastDeadline env deadline
  let res ← (if late then pure (-1) else plain (uvcStartStreaming env))
  if res < 0 then
    plain (closeAndUnref env)
    return false
  else
    plain (modifyOwn fun self => { self with streaming := true })
    return true

def reopenOnce (selector : DeviceSelector) (deadline : Int) : Prog (World × Watch) Bool := do
  let found ← resolveDevice env selector deadline
  match found with
  | .error _ => return false
  | .ok (selected, _) =>
    if ← pastDeadline env deadline then
      plain (record (.unrefDevice selected))
      return false
    else
      let res ← plain (uvcOpen env selected)
      if res < 0 then
        plain (modifyOwn fun self => { self with uvcDevh := none })
        plain (record (.unrefDevice selected))
        return false
      else
        plain (modifyOwn fun self => { self with uvcDev := some selected })
        let w ← plain get
        let late ← pastDeadline env deadline
        let res ← (if late then pure (-1) else
          plain (getStreamCtrlFormatSize env w.stream.negotiatedWidth w.stream.negotiatedHeight
            w.own.negotiatedFramerate))
        if res < 0 then
          plain (closeAndUnref env)
          return false
        else rearmAndStart env deadline

def settleUntilFrame (selector : DeviceSelector) (deadline : Int) : Prog (World × Watch) Bool :=
  loop (fun s => s.1.budget) (fun retryMs => do
    if ← plain (isFlushing env) then return .inr false
    else
      let now ← observe env deadline
      if now ≥ deadline then return .inr false
      else if ← reopenOnce env selector deadline then
        let now ← observe env deadline
        let proofUs := min (deadline - now) timeoutDuration
        let proven ← (if proofUs > 0 then plain (awaitFirstFrame env proofUs) else pure false)
        if proven then return .inr true
        else
          plain (teardownHandle env)
          plain (drainQueue env)
          return .inl retryMs
      else
        note fun _ h => h.retry retryMs
        let awake ← plain (interruptibleWait env (retryMs * 1000 : Nat))
        return if awake then .inl (min (retryMs * 2) resetPollMaxMs) else .inr false)
    resetPollInitialMs

end Programs

/-! ### Without their history -/

variable {env : Env}

theorem observe_erases (deadline : Int) : Erases (observe env deadline) (monotonicTime env) := by
  unfold observe
  exact erases_noted

theorem resolveDevice_erases (selector : DeviceSelector) (deadline : Int) :
    Erases (resolveDevice env selector deadline) (LibuvcH264Src.resolveDevice env selector deadline) := by
  unfold resolveDevice LibuvcH264Src.resolveDevice forever
  refine erases_note (erases_loop (fun intervalMs => erases_bind (erases_plain _) fun devs => ?_) _)
  cases devs.bind (findMatching selector 0) with
  | some found => exact erases_bind (erases_plain _) fun _ => erases_bind (erases_plain _) fun _ => erases_pure _
  | none =>
    refine erases_bind (erases_plain _) fun _ => erases_ite (erases_pure _) ?_
    refine erases_bind (observe_erases deadline) fun now => erases_ite (erases_pure _) ?_
    exact erases_note (erases_bind (erases_plain _) fun awake => erases_pure _)

theorem pastDeadline_erases (deadline : Int) :
    Erases (pastDeadline env deadline) (LibuvcH264Src.pastDeadline env deadline) := by
  unfold pastDeadline LibuvcH264Src.pastDeadline
  exact erases_ite (erases_pure _) (erases_bind (observe_erases deadline) fun now => erases_pure _)

theorem rearmAndStart_erases (deadline : Int) :
    Erases (rearmAndStart env deadline) (LibuvcH264Src.rearmAndStart env deadline) := by
  unfold rearmAndStart LibuvcH264Src.rearmAndStart
  refine erases_bind (erases_plain _) fun w => erases_bind (erases_plain _) fun _ => ?_
  refine erases_bind (erases_plain _) fun _ => erases_bind (erases_plain _) fun _ => ?_
  refine erases_bind (pastDeadline_erases deadline) fun late => ?_
  refine erases_bind (erases_ite (erases_pure _) (erases_plain _)) fun res => erases_ite ?_ ?_
  · exact erases_bind (erases_plain _) fun _ => erases_pure _
  · exact erases_bind (erases_plain _) fun _ => erases_pure _

theorem reopenOnce_erases (selector : DeviceSelector) (deadline : Int) :
    Erases (reopenOnce env selector deadline) (LibuvcH264Src.reopenOnce env selector deadline) := by
  unfold reopenOnce LibuvcH264Src.reopenOnce
  refine erases_bind (resolveDevice_erases selector deadline) fun found => ?_
  cases found with
  | error _ => exact erases_pure _
  | ok found =>
    refine erases_bind (pastDeadline_erases deadline) fun late => erases_ite ?_ ?_
    · exact erases_bind (erases_plain _) fun _ => erases_pure _
    refine erases_bind (erases_plain _) fun res => erases_ite ?_ ?_
    · exact erases_bind (erases_plain _) fun _ => erases_bind (erases_plain _) fun _ => erases_pure _
    refine erases_bind (erases_plain _) fun _ => erases_bind (erases_plain _) fun w => ?_
    refine erases_bind (pastDeadline_erases deadline) fun late => ?_
    refine erases_bind (erases_ite (erases_pure _) (erases_plain _)) fun res => erases_ite ?_ ?_
    · exact erases_bind (erases_plain _) fun _ => erases_pure _
    · exact rearmAndStart_erases deadline

theorem settleUntilFrame_erases (selector : DeviceSelector) (deadline : Int) :
    Erases (settleUntilFrame env selector deadline) (LibuvcH264Src.settleUntilFrame env selector deadline) := by
  unfold settleUntilFrame LibuvcH264Src.settleUntilFrame forever
  refine erases_loop (fun retryMs => erases_bind (erases_plain _) fun flushing => erases_ite (erases_pure _) ?_) _
  refine erases_bind (observe_erases deadline) fun now => erases_ite (erases_pure _) ?_
  refine erases_bind (reopenOnce_erases selector deadline) fun ok => erases_ite ?_ ?_
  · refine erases_bind (observe_erases deadline) fun now => ?_
    refine erases_bind (erases_ite (erases_plain _) (erases_pure _)) fun proven => erases_ite (erases_pure _) ?_
    exact erases_bind (erases_plain _) fun _ => erases_bind (erases_plain _) fun _ => erases_pure _
  · exact erases_note (erases_bind (erases_plain _) fun awake => erases_pure _)

end Watched

/-! ## What is begun -/

/-- A new enumeration, an open or the start of a stream. -/
def Event.Begins : Event → Prop
  | .findDevices _ => True
  | .openDevice _ _ _ => True
  | .request _ (.start _) _ => True
  | _ => False

/-- The log grew, and nothing was begun. -/
def Rests (w w' : World) : Prop := ∃ newer, w'.log = newer ++ w.log ∧ ∀ e ∈ newer, ¬ e.Begins

instance : Std.Refl Rests where
  refl _ := ⟨[], rfl, by simp⟩

instance : IsTrans World Rests where
  trans := by
    rintro w w' w'' ⟨newer, hlog, hnone⟩ ⟨newer', hlog', hnone'⟩
    refine ⟨newer' ++ newer, by rw [hlog', hlog, List.append_assoc], fun e he => ?_⟩
    rcases List.mem_append.mp he with he | he
    · exact hnone' e he
    · exact hnone e he

section Rests
variable {env : Env}

theorem rests_of_log {f : World → World} (hf : ∀ w, (f w).log = w.log) : Stays Rests (modify f) :=
  stays_modify fun w => ⟨[], hf w, by simp⟩

theorem record_rests {e : Event} (he : ¬ e.Begins) : Stays Rests (record e) :=
  stays_modify fun w => ⟨[e], rfl, by simpa using he⟩

theorem turn_rests : Stays Rests (turn env) := by
  intro w
  by_cases hbudget : w.budget = 0
  · rw [show turn env w = (none, w) from if_pos hbudget]
    exact Std.Refl.refl w
  · rw [turn_eq (Nat.pos_of_ne_zero hbudget)]
    obtain ⟨-, idle, hidle, hlog⟩ := others_calm w (env.meanwhile w.log) (w.budget - 1)
    refine ⟨idle, hlog, fun e he hbegins => ?_⟩
    have hstill := hidle e he
    cases e <;> first | exact hbegins | exact hstill

theorem isFlushing_rests : Stays Rests (isFlushing env) := by
  unfold isFlushing
  exact stays_bind turn_rests fun _ => stays_bind stays_get fun _ => stays_pure _

theorem monotonicTime_rests : Stays Rests (monotonicTime env) := by
  unfold monotonicTime
  refine stays_bind turn_rests fun _ => stays_bind (fun w => Std.Refl.refl w) fun now => ?_
  exact stays_bind (record_rests id) fun _ => stays_pure _

theorem interruptibleWait_rests (waitUs : Int) : Stays Rests (interruptibleWait env waitUs) := by
  have hpark : ∀ until', Stays Rests (parkUntil env until') := by
    intro until'
    unfold parkUntil forever
    refine stays_loop (fun _ => stays_bind isFlushing_rests fun flushing => ?_) ()
    refine stays_ite (stays_pure _) (stays_bind turn_rests fun _ => ?_)
    exact stays_bind (fun w => Std.Refl.refl w) fun woken => stays_pure _
  unfold interruptibleWait
  refine stays_bind (stays_when (stays_bind monotonicTime_rests fun now => hpark _)) fun _ => ?_
  exact stays_bind isFlushing_rests fun _ => stays_pure _

theorem closeDevh_rests : Stays Rests (closeDevh env) := by
  unfold closeDevh
  refine stays_bind stays_get fun w => ?_
  split
  · exact stays_pure _
  · unfold uvcClose
    refine stays_bind turn_rests fun _ => stays_bind (record_rests id) fun _ => ?_
    exact rests_of_log fun _ => rfl

theorem unrefDevice_rests : Stays Rests unrefDevice := by
  unfold unrefDevice
  refine stays_bind stays_get fun w => ?_
  split
  · exact stays_pure _
  · exact stays_bind (record_rests id) fun _ => rests_of_log fun _ => rfl

theorem closeAndUnref_rests : Stays Rests (closeAndUnref env) := by
  unfold closeAndUnref
  exact stays_bind closeDevh_rests fun _ => unrefDevice_rests

theorem teardownHandle_rests : Stays Rests (teardownHandle env) := by
  have hstop : Stays Rests (stopDevh env) := by
    unfold stopDevh
    refine stays_bind stays_get fun w => ?_
    split
    · exact stays_pure _
    · unfold uvcStopStreaming
      refine stays_bind (stays_bind turn_rests fun _ => record_rests id) fun _ => ?_
      exact rests_of_log fun _ => rfl
  unfold teardownHandle
  exact stays_bind hstop fun _ => stays_bind closeDevh_rests fun _ => unrefDevice_rests

theorem drainQueue_rests : Stays Rests (drainQueue env) := by
  unfold drainQueue
  exact stays_bind turn_rests fun _ => stays_modify fun w => ⟨[.discarded w.queue], rfl, by simp [Event.Begins]⟩

theorem awaitFirstFrame_rests (waitUs : Int) : Stays Rests (awaitFirstFrame env waitUs) := by
  have hpop : Stays Rests (queueTimeoutPop env) := by
    unfold queueTimeoutPop
    refine stays_bind turn_rests fun _ => stays_bind stays_get fun w => ?_
    refine stays_bind (rests_of_log fun _ => rfl) fun _ => stays_bind (record_rests id) fun _ => stays_pure _
  unfold awaitFirstFrame forever
  refine stays_bind monotonicTime_rests fun now => stays_loop (fun until' => ?_) _
  refine stays_bind monotonicTime_rests fun now => stays_ite (stays_pure _) (stays_bind hpop fun item => ?_)
  split
  · exact stays_pure _
  · refine stays_bind isFlushing_rests fun flushing => stays_ite ?_ (stays_ite (stays_pure _) ?_)
    · exact stays_bind (record_rests id) fun _ => stays_pure _
    · exact stays_bind (rests_of_log fun _ => rfl) fun _ => stays_pure _

end Rests

/-! ## Intervals -/

/-- From the initial interval on, never shorter than the one before, and never beyond the greatest. -/
structure Backoff (intervals : List Nat) : Prop where
  first : ∀ ms ∈ intervals.head?, ms = resetPollInitialMs
  grows : intervals.Pairwise (· ≤ ·)
  bounded : ∀ ms ∈ intervals, ms ≤ resetPollMaxMs

theorem backoff_initial : Backoff ([] ++ [resetPollInitialMs]) :=
  ⟨by simp, List.pairwise_singleton _ _, by simp [resetPollInitialMs, resetPollMaxMs]⟩

/-- An interval behind the others. -/
theorem Backoff.init {intervals : List Nat} {ms : Nat} (h : Backoff (intervals ++ [ms])) : Backoff intervals := by
  refine ⟨fun first hfirst => h.first first ?_, (List.pairwise_append.mp h.grows).1, fun ms hms => ?_⟩
  · rw [List.head?_append, hfirst]
    rfl
  · exact h.bounded ms (List.mem_append_left _ hms)

/-- The next one is twice as long, up to the greatest. -/
theorem Backoff.next {intervals : List Nat} {ms : Nat} (h : Backoff (intervals ++ [ms])) :
    Backoff ((intervals ++ [ms]) ++ [min (ms * 2) resetPollMaxMs]) := by
  have hms : ms ≤ resetPollMaxMs := h.bounded ms (by simp)
  have hhead : ((intervals ++ [ms]) ++ [min (ms * 2) resetPollMaxMs]).head? = (intervals ++ [ms]).head? := by
    cases intervals <;> rfl
  refine ⟨fun first hfirst => h.first first ?_, ?_, fun later hlater => ?_⟩
  · rw [← hhead]
    exact hfirst
  · refine List.pairwise_append.mpr ⟨h.grows, List.pairwise_singleton _ _, fun earlier hearlier later hlater => ?_⟩
    have hle : earlier ≤ ms := by
      rcases List.mem_append.mp hearlier with hbefore | hlast
      · exact (List.pairwise_append.mp h.grows).2.2 earlier hbefore ms (by simp)
      · exact le_of_eq (List.mem_singleton.mp hlast)
    rw [List.mem_singleton.mp hlater]
    omega
  · rcases List.mem_append.mp hlater with hbefore | hlast
    · exact h.bounded later hbefore
    · rw [List.mem_singleton.mp hlast]
      exact Nat.min_le_right _ _

/-! ## Timely runs -/

/-- Nothing was begun behind the first comparison that found the deadline passed, and the intervals of each
loop are a backoff. -/
structure Timely (w : World) (h : Watch) : Prop where
  begun : ∀ log, h.expired = some log → ∃ newer, w.log = newer ++ log ∧ ∀ e ∈ newer, ¬ e.Begins
  polls : ∀ intervals ∈ h.polls, Backoff intervals
  retries : Backoff h.retries

/-- `Timely`, with the deadline behind what was found. -/
structure Watch.Agrees (env : Env) (deadline : Int) (s : World × Watch) : Prop extends Timely s.1 s.2 where
  passed : ∀ log, s.2.expired = some log → deadline ≤ env.monotonicTime log

section Runs
variable {env : Env} {deadline : Int} {w : World} {h : Watch}

theorem Watch.Agrees.rests {w' : World} (ha : Watch.Agrees env deadline (w, h)) (hrests : Rests w w') :
    Watch.Agrees env deadline (w', h) := by
  refine ⟨⟨fun log hlog => ?_, ha.polls, ha.retries⟩, ha.passed⟩
  obtain ⟨newer, hnewer, hnone⟩ := ha.begun log hlog
  obtain ⟨newer', hnewer', hnone'⟩ := hrests
  refine ⟨newer' ++ newer, ?_, fun e he => ?_⟩
  · rw [hnewer', hnewer, List.append_assoc]
  · rcases List.mem_append.mp he with he | he
    · exact hnone' e he
    · exact hnone e he

/-- Before the deadline was found passed, anything may be begun. -/
theorem Watch.Agrees.early (ha : Watch.Agrees env deadline (w, h)) (hnone : h.expired = none) (w' : World) :
    Watch.Agrees env deadline (w', h) := by
  refine ⟨⟨fun log hlog => ?_, ha.polls, ha.retries⟩, ha.passed⟩
  rw [show h.expired = none from hnone] at hlog
  exact absurd hlog nofun

theorem wp_rests {α : Type} {p : Prog World α} {Q : α → World × Watch → Prop} (hp : Stays Rests p)
    (ha : Watch.Agrees env deadline (w, h)) (hQ : ∀ a w', Watch.Agrees env deadline (w', h) → Q a (w', h)) :
    wp (Watch.Agrees env deadline) (plain p) Q (w, h) := by
  rw [wp_plain]
  exact hp.wp (fun _ hrests => ha.rests hrests) fun a w' hrests => hQ a w' (ha.rests hrests)

theorem wp_early {α : Type} {p : Prog World α} {Q : α → World × Watch → Prop} (hnone : h.expired = none)
    (ha : Watch.Agrees env deadline (w, h)) (hQ : ∀ a w', Watch.Agrees env deadline (w', h) → Q a (w', h)) :
    wp (Watch.Agrees env deadline) (plain p) Q (w, h) := by
  rw [wp_plain]
  exact wp_true (fun w' => ha.early hnone w') fun a w' => hQ a w' (ha.early hnone w')

/-- A comparison: it finds the deadline passed if an earlier one did. -/
theorem wp_observe (hclock : Clocked env) {Q : Int → World × Watch → Prop} (ha : Watch.Agrees env deadline (w, h))
    (hQ : ∀ now w' h', Watch.Agrees env deadline (w', h') → h'.polls = h.polls → h'.retries = h.retries →
      (now < deadline → h'.expired = none) → Q now (w', h')) :
    wp (Watch.Agrees env deadline) (Watched.observe env deadline) Q (w, h) := by
  have hread : wp (fun w' => Watch.Agrees env deadline (w', h)) (monotonicTime env)
      (fun now w' => Watch.Agrees env deadline (w', h) ∧ now ≤ env.monotonicTime w'.log ∧
        ∀ log, h.expired = some log → env.monotonicTime log ≤ now) w := by
    unfold monotonicTime
    rw [wp_bind]
    refine turn_rests.wp (fun _ hrests => ha.rests hrests) fun _ w₁ hrests => ?_
    have ha₁ := ha.rests hrests
    rw [wp_bind, wp_ask, wp_bind, wp_record, wp_pure]
    refine ⟨ha₁.rests (record_rests (e := .time _) id w₁), hclock.forward _ _, fun log hlog => ?_⟩
    obtain ⟨newer, hnewer, -⟩ := ha₁.begun log hlog
    exact hclock.le ⟨newer, hnewer.symm⟩
  unfold Watched.observe
  rw [wp_bind, wp_plain]
  refine wp_mono hread fun now w' hw' => ?_
  obtain ⟨ha', hnow, hpassed⟩ := hw'
  rw [wp_bind, wp_when, wp_note, wp_pure]
  constructor
  · intro hlate
    apply hQ now w' (h.expire w'.log) ?_ rfl rfl (fun hearly => absurd hlate (not_le.mpr hearly))
    cases hfirst : h.expired with
    | none =>
      have hlog : (h.expire w'.log).expired = some w'.log := by
        unfold Watch.expire
        rw [hfirst]
        rfl
      refine ⟨⟨fun log h' => ?_, ha'.polls, ha'.retries⟩, fun log h' => ?_⟩
      · obtain rfl := Option.some.inj (hlog.symm.trans h')
        exact ⟨[], rfl, by simp⟩
      · obtain rfl := Option.some.inj (hlog.symm.trans h')
        exact le_trans hlate hnow
    | some log =>
      have hsame : h.expire w'.log = h := by
        unfold Watch.expire
        rw [hfirst]
        show { h with expired := some log } = h
        rw [← hfirst]
      rw [hsame]
      exact ha'
  · intro hearly
    refine hQ now w' h ha' rfl rfl fun _ => ?_
    by_contra hsome
    obtain ⟨log, hlog⟩ := Option.ne_none_iff_exists'.mp hsome
    exact hearly (le_trans (ha'.passed log hlog) (hpassed log hlog))

/-- A call that is only made in front of the deadline: where it succeeds, the deadline was not found passed. -/
theorem unlessLate_timely {p : Prog World Int} {late : Bool} (ha : Watch.Agrees env deadline (w, h))
    (hnone : late = false → h.expired = none) {Q : Int → World × Watch → Prop}
    (hQ : ∀ res w', Watch.Agrees env deadline (w', h) → (¬ res < 0 → h.expired = none) → Q res (w', h)) :
    wp (Watch.Agrees env deadline) (if late then pure (-1) else plain p) Q (w, h) := by
  rw [wp_ite, wp_pure]
  refine ⟨fun _ => hQ _ w ha fun hres => absurd (by decide) hres, fun hlate => ?_⟩
  have hnone := hnone (Bool.eq_false_iff.mpr hlate)
  exact wp_early hnone ha fun res w' ha' => hQ res w' ha' fun _ => hnone

/-! ### The parts of a reopen -/

section Reopen
variable (hclock : Clocked env)
include hclock

/-- A call of `resolve_device`, and the intervals of its own. -/
theorem resolveDevice_timely (selector : DeviceSelector) (ha : Watch.Agrees env deadline (w, h))
    (hnone : h.expired = none) :
    wp (Watch.Agrees env deadline) (Watched.resolveDevice env selector deadline)
      (fun found s => Watch.Agrees env deadline s ∧ s.2.retries = h.retries ∧
        ∀ device, found = .ok device → s.2.expired = none) (w, h) := by
  unfold Watched.resolveDevice
  rw [wp_bind, wp_note]
  have hcall : Watch.Agrees env deadline (w, h.call) := by
    refine ⟨⟨ha.begun, fun intervals hin => ?_, ha.retries⟩, ha.passed⟩
    rcases List.mem_cons.mp hin with rfl | hin
    · exact backoff_initial.init
    · exact ha.polls intervals hin
  refine wp_loop (J := fun intervalMs s => Watch.Agrees env deadline s ∧ s.2.expired = none ∧
    s.2.retries = h.retries ∧ ∃ intervals older, s.2.polls = intervals :: older ∧ Backoff (intervals ++ [intervalMs]))
    ?_ (fun _ _ hinv => hinv.1) ⟨hcall, hnone, rfl, [], h.polls, rfl, backoff_initial⟩
  rintro intervalMs ⟨w₁, h₁⟩ ⟨ha₁, hnone₁, hretries, intervals, older, hpolls, hbackoff⟩
  rw [wp_bind]
  refine wp_early hnone₁ ha₁ fun devs w₂ ha₂ => ?_
  cases devs.bind (findMatching selector 0) with
  | some found =>
    rw [wp_bind]
    refine wp_early hnone₁ ha₂ fun _ w₃ ha₃ => ?_
    rw [wp_bind]
    exact wp_early hnone₁ ha₃ fun _ w₄ ha₄ => ⟨ha₄, hretries, fun _ _ => hnone₁⟩
  | none =>
    rw [wp_bind]
    refine wp_early hnone₁ ha₂ fun _ w₃ ha₃ => ?_
    rw [wp_ite, wp_pure]
    refine ⟨fun _ => ⟨ha₃, hretries, fun _ _ => hnone₁⟩, fun _ => ?_⟩
    rw [wp_bind]
    refine wp_observe hclock ha₃ fun now w₄ h₄ ha₄ hpolls₄ hretries₄ hearly => ?_
    have hretries := hretries₄.trans hretries
    have hpolls := hpolls₄.trans hpolls
    rw [wp_ite, wp_pure]
    refine ⟨fun _ => ⟨ha₄, hretries, nofun⟩, fun hnot => ?_⟩
    have hnone₄ := hearly (not_le.mp hnot)
    rw [wp_bind, wp_note, wp_bind]
    have hpoll : (h₄.poll intervalMs).polls = (intervals ++ [intervalMs]) :: older := by
      unfold Watch.poll
      rw [hpolls]
    have ha₅ : Watch.Agrees env deadline (w₄, h₄.poll intervalMs) := by
      refine ⟨⟨ha₄.begun, fun intervals' hin => ?_, ha₄.retries⟩, ha₄.passed⟩
      rw [show (w₄, h₄.poll intervalMs).2.polls = (intervals ++ [intervalMs]) :: older from hpoll] at hin
      rcases List.mem_cons.mp hin with rfl | hin
      · exact hbackoff
      · refine ha₄.polls intervals' ?_
        show intervals' ∈ h₄.polls
        rw [hpolls]
        exact List.mem_cons_of_mem _ hin
    refine wp_early hnone₄ ha₅ fun awake w₆ ha₆ => ?_
    rw [wp_pure]
    cases awake with
    | false => exact ⟨ha₆, hretries, nofun⟩
    | true => exact ⟨ha₆, hnone₄, hretries, intervals ++ [intervalMs], older, hpoll, hbackoff.next⟩

theorem pastDeadline_timely (ha : Watch.Agrees env deadline (w, h)) (hnone : h.expired = none)
    {Q : Bool → World × Watch → Prop}
    (hQ : ∀ late w' h', Watch.Agrees env deadline (w', h') → h'.retries = h.retries →
      (late = false → h'.expired = none) → Q late (w', h')) :
    wp (Watch.Agrees env deadline) (Watched.pastDeadline env deadline) Q (w, h) := by
  unfold Watched.pastDeadline
  rw [wp_ite, wp_pure, wp_bind]
  refine ⟨fun _ => hQ false w h ha rfl fun _ => hnone, fun _ => ?_⟩
  refine wp_observe hclock ha fun now w' h' ha' _ hretries hearly => ?_
  rw [wp_pure]
  exact hQ _ w' h' ha' hretries fun hlate => hearly (not_le.mp (of_decide_eq_false hlate))

theorem rearmAndStart_timely (ha : Watch.Agrees env deadline (w, h)) (hnone : h.expired = none) :
    wp (Watch.Agrees env deadline) (Watched.rearmAndStart env deadline)
      (fun _ s => Watch.Agrees env deadline s ∧ s.2.retries = h.retries) (w, h) := by
  unfold Watched.rearmAndStart
  rw [wp_bind]
  refine wp_early hnone ha fun v w₁ ha₁ => ?_
  rw [wp_bind]
  refine wp_early hnone ha₁ fun _ w₂ ha₂ => ?_
  rw [wp_bind]
  refine wp_early hnone ha₂ fun _ w₃ ha₃ => ?_
  rw [wp_bind]
  refine wp_early hnone ha₃ fun _ w₄ ha₄ => ?_
  rw [wp_bind]
  refine pastDeadline_timely hclock ha₄ hnone fun late w₅ h₅ ha₅ hretries hearly => ?_
  rw [wp_bind]
  refine unlessLate_timely ha₅ hearly fun res w₆ ha₆ _ => ?_
  rw [wp_ite, wp_bind, wp_bind]
  constructor
  · intro _
    exact wp_rests closeAndUnref_rests ha₆ fun _ w₇ ha₇ => ⟨ha₇, hretries⟩
  · intro _
    exact wp_rests (rests_of_log fun _ => rfl) ha₆ fun _ w₇ ha₇ => ⟨ha₇, hretries⟩

theorem reopenOnce_timely (selector : DeviceSelector) (ha : Watch.Agrees env deadline (w, h))
    (hnone : h.expired = none) :
    wp (Watch.Agrees env deadline) (Watched.reopenOnce env selector deadline)
      (fun _ s => Watch.Agrees env deadline s ∧ s.2.retries = h.retries) (w, h) := by
  unfold Watched.reopenOnce
  rw [wp_bind]
  refine wp_mono (resolveDevice_timely hclock selector ha hnone) ?_
  rintro found ⟨w₁, h₁⟩ ⟨ha₁, hretries₁, hfound⟩
  cases found with
  | error _ => exact ⟨ha₁, hretries₁⟩
  | ok found =>
    have hnone₁ := hfound found rfl
    rw [wp_bind]
    refine pastDeadline_timely hclock ha₁ hnone₁ fun late w₂ h₂ ha₂ hretries₂ hearly => ?_
    have hretries₂ := hretries₂.trans hretries₁
    rw [wp_ite, wp_bind, wp_bind]
    constructor
    · intro _
      exact wp_rests (record_rests id) ha₂ fun _ w₃ ha₃ => ⟨ha₃, hretries₂⟩
    intro hlate
    have hnone₂ := hearly (Bool.eq_false_iff.mpr hlate)
    refine wp_early hnone₂ ha₂ fun res w₃ ha₃ => ?_
    rw [wp_ite, wp_bind, wp_bind]
    constructor
    · intro _
      refine wp_early hnone₂ ha₃ fun _ w₄ ha₄ => ?_
      rw [wp_bind]
      exact wp_early hnone₂ ha₄ fun _ w₅ ha₅ => ⟨ha₅, hretries₂⟩
    intro _
    refine wp_early hnone₂ ha₃ fun _ w₄ ha₄ => ?_
    rw [wp_bind]
    refine wp_early hnone₂ ha₄ fun v w₅ ha₅ => ?_
    rw [wp_bind]
    refine pastDeadline_timely hclock ha₅ hnone₂ fun late w₆ h₆ ha₆ hretries₆ hearly₆ => ?_
    have hretries₆ := hretries₆.trans hretries₂
    rw [wp_bind]
    refine unlessLate_timely ha₆ hearly₆ fun res w₇ ha₇ hnone₇ => ?_
    rw [wp_ite, wp_bind]
    constructor
    · intro _
      exact wp_rests closeAndUnref_rests ha₇ fun _ w₈ ha₈ => ⟨ha₈, hretries₆⟩
    · intro hres
      exact wp_mono (rearmAndStart_timely hclock ha₇ (hnone₇ hres)) fun _ s hs => ⟨hs.1, hs.2.trans hretries₆⟩

end Reopen

theorem settleUntilFrame_timely (hclock : Clocked env) (selector : DeviceSelector)
    (ha : Watch.Agrees env deadline (w, h)) (hfresh : h.retries = []) :
    wp (Watch.Agrees env deadline) (Watched.settleUntilFrame env selector deadline)
      (fun _ s => Watch.Agrees env deadline s) (w, h) := by
  unfold Watched.settleUntilFrame
  refine wp_loop (J := fun retryMs s => Watch.Agrees env deadline s ∧ Backoff (s.2.retries ++ [retryMs]))
    ?_ (fun _ _ hinv => hinv.1) ⟨ha, by rw [hfresh]; exact backoff_initial⟩
  rintro retryMs ⟨w₁, h₁⟩ ⟨ha₁, hbackoff⟩
  rw [wp_bind]
  refine wp_rests isFlushing_rests ha₁ fun flushing w₂ ha₂ => ?_
  rw [wp_ite, wp_pure, wp_bind]
  refine ⟨fun _ => ha₂, fun _ => ?_⟩
  refine wp_observe hclock ha₂ fun now w₃ h₃ ha₃ _ hretries₃ hearly => ?_
  rw [wp_ite, wp_pure, wp_bind]
  refine ⟨fun _ => ha₃, fun hnot => ?_⟩
  refine wp_mono (reopenOnce_timely hclock selector ha₃ (hearly (not_le.mp hnot))) ?_
  rintro ok ⟨w₄, h₄⟩ ⟨ha₄, hretries₄⟩
  have hretries₄ : h₄.retries = h₁.retries := hretries₄.trans hretries₃
  rw [wp_ite]
  constructor
  · intro _
    rw [wp_bind]
    refine wp_observe hclock ha₄ fun now w₅ h₅ ha₅ _ hretries₅ _ => ?_
    have hproof : wp (Watch.Agrees env deadline)
        (if min (deadline - now) timeoutDuration > 0 then
          plain (awaitFirstFrame env (min (deadline - now) timeoutDuration)) else pure false)
        (fun _ s => Watch.Agrees env deadline s ∧ s.2 = h₅) (w₅, h₅) := by
      rw [wp_ite, wp_pure]
      exact ⟨fun _ => wp_rests (awaitFirstFrame_rests _) ha₅ fun _ w₆ ha₆ => ⟨ha₆, rfl⟩, fun _ => ⟨ha₅, rfl⟩⟩
    rw [wp_bind]
    refine wp_mono hproof ?_
    rintro proven ⟨w₆, h₆⟩ ⟨ha₆, rfl⟩
    rw [wp_ite, wp_pure, wp_bind]
    refine ⟨fun _ => ha₆, fun _ => ?_⟩
    refine wp_rests teardownHandle_rests ha₆ fun _ w₇ ha₇ => ?_
    rw [wp_bind]
    refine wp_rests drainQueue_rests ha₇ fun _ w₈ ha₈ => ⟨ha₈, ?_⟩
    show Backoff (h₆.retries ++ [retryMs])
    rw [hretries₅, hretries₄]
    exact hbackoff
  · intro _
    have ha₅ : Watch.Agrees env deadline (w₄, h₄.retry retryMs) := by
      refine ⟨⟨ha₄.begun, ha₄.polls, ?_⟩, ha₄.passed⟩
      show Backoff (h₄.retries ++ [retryMs])
      rw [hretries₄]
      exact hbackoff
    rw [wp_bind, wp_note, wp_bind]
    refine wp_rests (interruptibleWait_rests _) ha₅ fun awake w₆ ha₆ => ?_
    rw [wp_pure]
    cases awake with
    | false => exact ha₆
    | true =>
      refine ⟨ha₆, ?_⟩
      show Backoff ((h₄.retries ++ [retryMs]) ++ [min (retryMs * 2) resetPollMaxMs])
      rw [hretries₄]
      exact hbackoff.next

/-! ## The loops -/

/-- `watched` is `p` beside its history, and its run from `w` is timely. -/
def RunsTimely {α : Type} (watched : Prog (World × Watch) α) (p : Prog World α) (w : World) : Prop :=
  ((watched (w, .init)).1, (watched (w, .init)).2.1) = p w ∧
    Timely (watched (w, .init)).2.1 (watched (w, .init)).2.2

theorem agrees_init (w : World) : Watch.Agrees env deadline (w, .init) :=
  ⟨⟨nofun, by simp [Watch.init], backoff_initial.init⟩, nofun⟩

theorem runsTimely_of_wp {α : Type} {watched : Prog (World × Watch) α} {p : Prog World α} {w : World}
    {Q : α → World × Watch → Prop} (herases : Erases watched p)
    (h : wp (Watch.Agrees env deadline) watched Q (w, .init)) (hQ : ∀ a s, Q a s → Watch.Agrees env deadline s) :
    RunsTimely watched p w := by
  refine ⟨herases (w, .init), ?_⟩
  unfold wp at h
  rcases hrun : watched (w, .init) with ⟨_ | a, s⟩ <;> rw [hrun] at h
  · exact h.toTimely
  · exact (hQ a s h).toTimely

end Runs

/-! ## An example -/

/-- A clock that moves on with every entry of the log, a camera that is not listed at first, and one `unlock`. -/
def tickingCamera : Env :=
  { oneCamera with
    meanwhile := fun log => if log.length = 40 then [.unlock] else []
    uvcFindDevices := fun log => if log.length < 20 then some [] else some [camera]
    monotonicTime := fun log => log.length }

theorem tickingCamera_clocked : Clocked tickingCamera where
  forward e older := by
    show (older.length : Int) ≤ ((e :: older).length : Int)
    simp
  parked others older _ _ _ := by
    show (older.length : Int) < ((Event.meanwhile others :: older).length : Int)
    simp
  popped older := by
    show (older.length : Int) < ((Event.pop none :: older).length : Int)
    simp

def tickingCamera_interruptions : Interruptions tickingCamera where
  left log := if log.length ≤ 40 then 1 else 0
  later e older := by
    rw [List.length_cons]
    split_ifs <;> omega
  unlocked older := by
    show (if older.length + 1 ≤ 40 then 1 else 0) + unlocks (if older.length = 40 then [.unlock] else []) ≤
      if older.length ≤ 40 then 1 else 0
    by_cases h : older.length = 40
    · rw [if_pos h, h]
      decide
    · rw [if_neg h]
      show _ + 0 ≤ _
      split_ifs <;> omega
  woken _ _ _ := nofun

end LibuvcH264Src
