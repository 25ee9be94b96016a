import LibuvcH264Src.RecoveredHandle

/-!
# The contract of the wedge recovery

* `Restrained` : neither a port reset nor a deep recovery, and the programs of which this holds;
* `beforeSettle` : a recovery up to its first settle pass;
* `Escalated`, `Rationed` : what stands in front of a deep recovery, and how many of either there are;
* `Contract` : the contract as a whole;
* `recovery_contract` : every call keeps it.
-/

namespace LibuvcH264Src
open AnnexB Caps Prog

variable {env : Env} {w w' w'' : World}

/-! ## Resets and escalations -/

/-- What the log and the latch say about recoveries. -/
def World.counts (w : World) : List Int × Nat × Bool := (portResets w.log, deepRuns w.log, w.own.deepRecoveryUsed)

/-- The log grew, by neither a port reset nor a deep recovery. -/
structure Restrained (w w' : World) : Prop where
  counts : w'.counts = w.counts
  grown : w.log <:+ w'.log

instance : Std.Refl Restrained where
  refl _ := ⟨rfl, List.suffix_rfl⟩

instance : IsTrans World Restrained where
  trans _ _ _ h h' := ⟨h'.counts.trans h.counts, h.grown.trans h'.grown⟩

theorem Talks.restrained (h : Talks w w') : Restrained w w' := by
  have hresets : portResets w'.log = portResets w.log := congrArg Said.portResets h.said
  have hruns : deepRuns w'.log = deepRuns w.log := congrArg Said.deepRuns h.said
  have hused : w'.own.deepRecoveryUsed = w.own.deepRecoveryUsed := congrArg (fun g => g.2.2.2) h.grasp
  refine ⟨?_, h.grown⟩
  unfold World.counts
  rw [hresets, hruns, hused]

theorem restrained_of_talks {α : Type} {p : Prog World α} (h : Stays Talks p) : Stays Restrained p :=
  h.mono fun _ _ => Talks.restrained

theorem record_restrained {e : Event}
    (he : ∀ log, portResets (e :: log) = portResets log ∧ deepRuns (e :: log) = deepRuns log) :
    Stays Restrained (record e) := by
  intro w
  refine ⟨?_, List.suffix_cons e w.log⟩
  show World.counts (w.note e) = World.counts w
  unfold World.counts
  rw [show portResets (w.note e).log = portResets w.log from (he w.log).1,
    show deepRuns (w.note e).log = deepRuns w.log from (he w.log).2]
  rfl

theorem closeDevh_restrained : Stays Restrained (closeDevh env) := by
  unfold closeDevh
  refine stays_bind stays_get fun w => ?_
  split
  · exact stays_pure _
  · unfold uvcClose
    refine stays_bind (restrained_of_talks turn_talks) fun _ => ?_
    exact stays_bind (record_restrained fun _ => ⟨rfl, rfl⟩) fun _ => stays_modify fun _ => ⟨rfl, List.suffix_rfl⟩

theorem unrefDevice_restrained : Stays Restrained unrefDevice := by
  unfold unrefDevice
  refine stays_bind stays_get fun w => ?_
  split
  · exact stays_pure _
  · exact stays_bind (record_restrained fun _ => ⟨rfl, rfl⟩) fun _ => stays_modify fun _ => ⟨rfl, List.suffix_rfl⟩

theorem closeAndUnref_restrained : Stays Restrained (closeAndUnref env) :=
  stays_bind closeDevh_restrained fun _ => unrefDevice_restrained

theorem teardownHandle_restrained : Stays Restrained (teardownHandle env) := by
  have hstop : Stays Restrained (stopDevh env) := by
    unfold stopDevh
    refine stays_bind stays_get fun w => ?_
    split
    · exact stays_pure _
    · unfold uvcStopStreaming
      refine stays_bind (stays_bind (restrained_of_talks turn_talks) fun _ => ?_) fun _ => ?_
      · exact record_restrained fun _ => ⟨rfl, rfl⟩
      · exact stays_modify fun _ => ⟨rfl, List.suffix_rfl⟩
  unfold teardownHandle
  exact stays_bind hstop fun _ => stays_bind closeDevh_restrained fun _ => unrefDevice_restrained

theorem drainQueue_restrained : Stays Restrained (drainQueue env) := by
  unfold drainQueue
  refine stays_bind (restrained_of_talks turn_talks) fun _ => ?_
  exact stays_modify fun _ => ⟨rfl, List.suffix_cons _ _⟩

theorem uvcStartStreaming_restrained : Stays Restrained (uvcStartStreaming env) := by
  unfold uvcStartStreaming request withHandle
  refine stays_bind stays_get fun w => stays_bind ?_ fun _ => stays_pure _
  refine stays_bind (restrained_of_talks turn_talks) fun _ => ?_
  refine stays_bind (restrained_of_talks (ask_talks _)) fun reply => stays_bind ?_ fun _ => stays_pure _
  refine stays_bind stays_get fun w => stays_bind (record_restrained fun _ => ⟨rfl, rfl⟩) fun _ => ?_
  split
  · exact stays_cut
  · exact stays_ite (stays_pure _) stays_cut

theorem rearmAndStart_restrained (deadline : Int) : Stays Restrained (rearmAndStart env deadline) := by
  unfold rearmAndStart
  refine stays_bind stays_get fun w => ?_
  refine stays_bind (restrained_of_talks (applyMaxPayload_talks _ _ _)) fun _ => ?_
  refine stays_bind (restrained_of_talks modifyStream_talks) fun _ => ?_
  refine stays_bind (restrained_of_talks applyTransferBuffers_talks) fun _ => ?_
  refine stays_bind (restrained_of_talks (pastDeadline_talks deadline)) fun late => ?_
  refine stays_bind (stays_ite (stays_pure _) uvcStartStreaming_restrained) fun res => stays_ite ?_ ?_
  · exact stays_bind closeAndUnref_restrained fun _ => stays_pure _
  · exact stays_bind (stays_modify fun _ => ⟨rfl, List.suffix_rfl⟩) fun _ => stays_pure _

theorem reopenOnce_restrained (selector : DeviceSelector) (deadline : Int) :
    Stays Restrained (reopenOnce env selector deadline) := by
  have hlate : Stays Restrained (pastDeadline env deadline) := restrained_of_talks (pastDeadline_talks deadline)
  have hunref : ∀ dev, Stays Restrained (record (.unrefDevice dev)) := fun dev =>
    record_restrained fun _ => ⟨rfl, rfl⟩
  have hopen : ∀ dev, Stays Restrained (uvcOpen env dev) := by
    intro dev
    unfold uvcOpen
    refine stays_bind (restrained_of_talks turn_talks) fun _ => ?_
    refine stays_bind (restrained_of_talks (ask_talks _)) fun res => ?_
    refine stays_bind (restrained_of_talks (ask_talks _)) fun handle => ?_
    refine stays_bind (record_restrained fun _ => ⟨rfl, rfl⟩) fun _ => ?_
    exact stays_bind (stays_modify fun _ => ⟨rfl, List.suffix_rfl⟩) fun _ => stays_pure _
  unfold reopenOnce
  refine stays_bind (restrained_of_talks (resolveDevice_talks selector deadline)) fun found => ?_
  split
  · exact stays_pure _
  · refine stays_bind hlate fun late => stays_ite (stays_bind (hunref _) fun _ => stays_pure _) ?_
    refine stays_bind (hopen _) fun res => stays_ite ?_ ?_
    · refine stays_bind (stays_modify fun _ => ⟨rfl, List.suffix_rfl⟩) fun _ => ?_
      exact stays_bind (hunref _) fun _ => stays_pure _
    · refine stays_bind (stays_modify fun _ => ⟨rfl, List.suffix_rfl⟩) fun _ => stays_bind stays_get fun w => ?_
      refine stays_bind hlate fun late => ?_
      refine stays_bind (stays_ite (stays_pure _) ?_) fun res => stays_ite ?_ (rearmAndStart_restrained deadline)
      · exact restrained_of_talks (getStreamCtrlFormatSize_talks _ _ _)
      · exact stays_bind closeAndUnref_restrained fun _ => stays_pure _

theorem awaitFirstFrame_restrained (waitUs : Int) : Stays Restrained (awaitFirstFrame env waitUs) := by
  have hpop : Stays Restrained (queueTimeoutPop env) := by
    unfold queueTimeoutPop
    refine stays_bind (restrained_of_talks turn_talks) fun _ => stays_bind stays_get fun w => ?_
    refine stays_bind (stays_modify fun _ => ⟨rfl, List.suffix_rfl⟩) fun _ => ?_
    exact stays_bind (record_restrained fun _ => ⟨rfl, rfl⟩) fun _ => stays_pure _
  unfold awaitFirstFrame forever
  refine stays_bind (restrained_of_talks monotonicTime_talks) fun now => stays_loop (fun deadline => ?_) _
  refine stays_bind (restrained_of_talks monotonicTime_talks) fun now => stays_ite (stays_pure _) ?_
  refine stays_bind hpop fun item => ?_
  split
  · exact stays_pure _
  · refine stays_bind (restrained_of_talks isFlushing_talks) fun flushing => stays_ite ?_ ?_
    · exact stays_bind (record_restrained fun _ => ⟨rfl, rfl⟩) fun _ => stays_pure _
    · exact stays_ite (stays_pure _) (stays_bind (stays_modify fun _ => ⟨rfl, List.suffix_rfl⟩) fun _ => stays_pure _)

theorem settleUntilFrame_restrained (selector : DeviceSelector) (deadline : Int) :
    Stays Restrained (settleUntilFrame env selector deadline) := by
  unfold settleUntilFrame forever
  refine stays_loop (fun retryMs => ?_) resetPollInitialMs
  refine stays_bind (restrained_of_talks isFlushing_talks) fun flushing => stays_ite (stays_pure _) ?_
  refine stays_bind (restrained_of_talks monotonicTime_talks) fun now => stays_ite (stays_pure _) ?_
  refine stays_bind (reopenOnce_restrained selector deadline) fun ok => stays_ite ?_ ?_
  · refine stays_bind (restrained_of_talks monotonicTime_talks) fun now => ?_
    refine stays_bind (stays_ite (awaitFirstFrame_restrained _) (stays_pure _)) fun proven => ?_
    refine stays_ite (stays_pure _) (stays_bind teardownHandle_restrained fun _ => ?_)
    exact stays_bind drainQueue_restrained fun _ => stays_pure _
  · exact stays_bind (restrained_of_talks (interruptibleWait_talks _)) fun awake => stays_pure _

/-! ## The contract -/

/-- The statuses of a port reset that was issued: done, or the device is enumerated anew. -/
abbrev ResetIssued (rc : Int) : Prop := rc = 0 ∨ rc = -5

/-- The recovery up to its first settle pass: the selector, the deadline and the budget of this pass. -/
def beforeSettle (env : Env) : Prog World (Option (DeviceSelector × Int × UInt32)) := do
  match parseSelector (← get).stream.index with
  | .error _ => return none
  | .ok selector =>
    captureRecoveryTarget env
    if ← resetSilentDevice env then
      let budgetMs := (← readProps env).resetSettleMaxMs
      let started ← monotonicTime env
      teardownHandle env
      drainQueue env
      if ← renewContext env then return some (selector, started + budgetMs.toNat * 1000, budgetMs)
      else return none
    else return none

/-- The recovery from there on. -/
def settleOrEscalate (env : Env) : Option (DeviceSelector × Int × UInt32) → Prog World Bool
  | none => return false
  | some (selector, deadline, budgetMs) => do
    if ← settleUntilFrame env selector deadline then return true
    else escalate env selector budgetMs

theorem recoverWedgedDevice_eq (env : Env) : recoverWedgedDevice env = beforeSettle env >>= settleOrEscalate env := by
  unfold recoverWedgedDevice beforeSettle
  rw [bind_assoc]
  refine bind_congr fun w => ?_
  cases parseSelector w.stream.index with
  | error => rfl
  | ok selector =>
    simp only [bind_assoc]
    refine bind_congr fun _ => bind_congr fun issued => ?_
    split_ifs
    · simp only [bind_assoc]
      refine bind_congr fun props => bind_congr fun started => bind_congr fun _ => bind_congr fun _ => ?_
      refine bind_congr fun ok => ?_
      split_ifs <;> rfl
    · rfl

/-- What stands in front of a deep recovery of this call: the reset was issued, the first pass ended without a frame,
then no flush was pending, and then the escalation was allowed and not used. -/
def Escalated (env : Env) (w : World) (rc : Int) (w' : World) : Prop :=
  ResetIssued rc ∧ ∃ selector deadline budgetMs w₁ w₂ w₃ w₄ props,
    parseSelector w.stream.index = .ok selector ∧
    beforeSettle env w = (some (some (selector, deadline, budgetMs)), w₁) ∧
    portResets w₁.log = rc :: portResets w.log ∧ deepRuns w₁.log = deepRuns w.log ∧ w.log <:+ w₁.log ∧
    settleUntilFrame env selector deadline w₁ = (some false, w₂) ∧ isFlushing env w₂ = (some false, w₃) ∧
    readProps env w₃ = (some props, w₄) ∧ props.deepPortRecovery = true ∧ w₄.own.deepRecoveryUsed = false ∧
    .deepRecovery :: w₄.log <:+ w'.log

/-- The resets and the escalations of a recovery, finished or not. -/
structure Rationed (env : Env) (w w' : World) : Prop where
  resets : portResets w'.log = portResets w.log ∨ ∃ rc, portResets w'.log = rc :: portResets w.log
  deep : deepRuns w'.log = deepRuns w.log ∨ deepRuns w'.log = deepRuns w.log + 1 ∧
    w.own.deepRecoveryUsed = false ∧ ∃ rc, portResets w'.log = rc :: portResets w.log ∧ Escalated env w rc w'

/-- The contract: at most one reset and one escalation; behind `TRUE` a stream with a frame of its own in front
and none of another handle; behind `FALSE` and a reset, nothing open. -/
structure Contract (env : Env) (w : World) (result : Option Bool) (w' : World) : Prop where
  rationed : Rationed env w w'
  success : result = some true → Proven w'
  failure : result = some false → ∀ rc, ResetIssued rc → portResets w'.log = rc :: portResets w.log → Gone w'

/-- Nothing happened, or one reset. -/
theorem Rationed.before (h : Restrained w w') : Rationed env w w' where
  resets := Or.inl (congrArg Prod.fst h.counts)
  deep := Or.inl (congrArg (fun c => c.2.1) h.counts)

/-- One reset. -/
structure HadReset (rc : Int) (w w' : World) : Prop where
  resets : portResets w'.log = rc :: portResets w.log
  deep : deepRuns w'.log = deepRuns w.log
  used : w'.own.deepRecoveryUsed = w.own.deepRecoveryUsed
  grown : w.log <:+ w'.log

theorem HadReset.rationed {rc : Int} (h : HadReset rc w w') : Rationed env w w' where
  resets := Or.inr ⟨rc, h.resets⟩
  deep := Or.inl h.deep

theorem HadReset.restrained {rc : Int} (h : HadReset rc w w') (h' : Restrained w' w'') : HadReset rc w w'' where
  resets := (congrArg Prod.fst h'.counts).trans h.resets
  deep := (congrArg (fun c => c.2.1) h'.counts).trans h.deep
  used := (congrArg (fun c => c.2.2) h'.counts).trans h.used
  grown := h.grown.trans h'.grown

theorem HadReset.reset {rc : Int} (h : Restrained w w') : HadReset rc w (w'.note (.portReset rc)) where
  resets := congrArg (List.cons rc) (congrArg Prod.fst h.counts)
  deep := congrArg (fun c => c.2.1) h.counts
  used := congrArg (fun c => c.2.2) h.counts
  grown := h.grown.trans (List.suffix_cons _ _)

/-- One reset and one escalation. -/
structure HadEscalation (env : Env) (w w' : World) : Prop where
  rc : ∃ rc, portResets w'.log = rc :: portResets w.log ∧ Escalated env w rc w'
  deep : deepRuns w'.log = deepRuns w.log + 1
  unused : w.own.deepRecoveryUsed = false

theorem HadEscalation.rationed (h : HadEscalation env w w') : Rationed env w w' := by
  obtain ⟨rc, hresets, hescalated⟩ := h.rc
  exact ⟨Or.inr ⟨rc, hresets⟩, Or.inr ⟨h.deep, h.unused, rc, hresets, hescalated⟩⟩

theorem Escalated.grown {rc : Int} (h : Escalated env w rc w') (hgrown : w'.log <:+ w''.log) :
    Escalated env w rc w'' := by
  obtain ⟨hissued, selector, deadline, budgetMs, w₁, w₂, w₃, w₄, props, hparse, hbefore, hresets, hdeep, hfirst, hpass,
    hflushing, hread, henabled, hunused, hran⟩ := h
  exact ⟨hissued, selector, deadline, budgetMs, w₁, w₂, w₃, w₄, props, hparse, hbefore, hresets, hdeep, hfirst, hpass,
    hflushing, hread, henabled, hunused, hran.trans hgrown⟩

theorem HadEscalation.restrained (h : HadEscalation env w w') (h' : Restrained w' w'') :
    HadEscalation env w w'' where
  rc := by
    obtain ⟨rc, hresets, hescalated⟩ := h.rc
    exact ⟨rc, (congrArg Prod.fst h'.counts).trans hresets, hescalated.grown h'.grown⟩
  deep := (congrArg (fun c => c.2.1) h'.counts).trans h.deep
  unused := h.unused

theorem escalate_rationed {rc : Int} {selector : DeviceSelector} {deadline : Int} {budgetMs : UInt32} {w₁ w₂ : World}
    (hissued : ResetIssued rc) (hparse : parseSelector w.stream.index = .ok selector)
    (hbefore : beforeSettle env w = (some (some (selector, deadline, budgetMs)), w₁)) (h₁ : HadReset rc w w₁)
    (hpass : settleUntilFrame env selector deadline w₁ = (some false, w₂)) (h₂ : HadReset rc w w₂) :
    wp (Rationed env w) (escalate env selector budgetMs) (fun _ => Rationed env w) w₂ := by
  unfold escalate
  rw [wp_bind]
  refine (restrained_of_talks isFlushing_talks).wp_run (fun _ h => (h₂.restrained h).rationed) fun flushing w₃ h hrun => ?_
  have h₃ := h₂.restrained h
  rw [wp_ite]
  refine ⟨fun _ => h₃.rationed, fun hflushing => ?_⟩
  have hflushing : isFlushing env w₂ = (some false, w₃) := by
    rw [hrun]
    cases flushing
    · rfl
    · exact absurd rfl hflushing
  unfold deepRecovery
  rw [wp_bind, wp_bind]
  refine (restrained_of_talks readProps_talks).wp_run (fun _ h => (h₃.restrained h).rationed) fun props w₄ h hread => ?_
  have h₄ := h₃.restrained h
  rw [wp_bind, wp_get, wp_ite]
  constructor
  · intro _
    exact h₄.rationed
  · intro hallowed
    obtain ⟨henabled, hunused⟩ : props.deepPortRecovery = true ∧ w₄.own.deepRecoveryUsed = false := by
      simpa using hallowed
    rw [wp_bind, wp_modifyOwn, wp_bind, wp_record, wp_bind]
    have hran : HadEscalation env w { w₄ with
        own := { w₄.own with deepRecoveryUsed := true }
        log := .deepRecovery :: w₄.log } := by
      refine ⟨⟨rc, h₄.resets, hissued, selector, deadline, budgetMs, w₁, w₂, w₃, w₄, props, hparse, hbefore,
        h₁.resets, h₁.deep, h₁.grown, hpass, hflushing, hread, henabled, hunused, List.suffix_rfl⟩, ?_,
        h₄.used.symm.trans hunused⟩
      show deepRuns w₄.log + 1 = _
      rw [h₄.deep]
    -- no other escalation follows
    have hrest : Stays Restrained (do
        let outcome ← usbDeepRecoveryRun env
        record (.deepOutcome outcome)
        let acted := decide (outcome = .deviceReprobed ∨ outcome = .portCycled)
        if acted then
          if ← renewContext env then
            let now ← monotonicTime env
            settleUntilFrame env selector (now + budgetMs.toNat * 1000)
          else return false
        else return false) := by
      refine stays_bind (restrained_of_talks usbDeepRecoveryRun_talks) fun outcome => ?_
      refine stays_bind (record_restrained fun _ => ⟨rfl, rfl⟩) fun _ => stays_ite ?_ (stays_pure _)
      refine stays_bind (restrained_of_talks renewContext_talks) fun ok => stays_ite ?_ (stays_pure _)
      exact stays_bind (restrained_of_talks monotonicTime_talks) fun now => settleUntilFrame_restrained selector _
    have hwp := hrest.wp (I := Rationed env w) (Q := fun _ => Rationed env w)
      (fun _ h => (hran.restrained h).rationed) fun _ _ h => (hran.restrained h).rationed
    rw [wp_bind] at hwp
    refine wp_mono hwp fun outcome w₅ h₅ => ?_
    exact h₅

/-- A reset needs a handle, and is noted with its status. -/
theorem wp_resetSilentDevice {I : World → Prop} {Q : Bool → World → Prop} (hcut : ∀ w', Talks w w' → I w')
    (hnone : ∀ w', Talks w w' → Q false w')
    (hreset : ∀ rc w' k, Talks w w' → w'.own.uvcDevh = some k →
      Q (decide (ResetIssued rc)) (w'.note (.portReset rc))) :
    wp I (resetSilentDevice env) Q w := by
  unfold resetSilentDevice
  rw [wp_bind, wp_get]
  split
  · exact hnone w (Std.Refl.refl w)
  · next k hdevh =>
    rw [wp_bind]
    refine turn_talks.wp hcut fun _ w' ht => ?_
    rw [wp_bind, wp_ask]
    split
    · exact hnone w' ht
    · next rc _ =>
      rw [wp_bind, wp_record, wp_pure]
      exact hreset rc w' k ht (ht.fields.1.trans hdevh)

theorem beforeSettle_rationed (w : World) :
    wp (Rationed env w) (beforeSettle env)
      (fun front w' => (front = none → Rationed env w w') ∧
        ∀ pass, front = some pass → parseSelector w.stream.index = .ok pass.1 ∧
          ∃ rc, ResetIssued rc ∧ HadReset rc w w') w := by
  have hbefore : ∀ {w'}, Talks w w' → Rationed env w w' := fun ht => Rationed.before ht.restrained
  unfold beforeSettle
  rw [wp_bind, wp_get]
  split
  · exact ⟨fun _ => hbefore (Std.Refl.refl w), nofun⟩
  · next selector hparse =>
    rw [wp_bind]
    refine captureRecoveryTarget_talks.wp (fun _ ht => hbefore ht) fun _ w₁ h₁ => ?_
    rw [wp_bind]
    apply wp_resetSilentDevice
    · exact fun w₂ h₂ => hbefore (IsTrans.trans _ _ _ h₁ h₂)
    · exact fun w₂ h₂ => ⟨fun _ => hbefore (IsTrans.trans _ _ _ h₁ h₂), nofun⟩
    · intro rc w₂ k h₂ _
      have hreset : HadReset rc w (w₂.note (.portReset rc)) := .reset (Talks.restrained (IsTrans.trans _ _ _ h₁ h₂))
      rw [wp_ite]
      refine ⟨fun hissued => ?_, fun _ => ⟨fun _ => hreset.rationed, nofun⟩⟩
      have hissued := of_decide_eq_true hissued
      rw [wp_bind]
      refine (restrained_of_talks readProps_talks).wp (fun _ h => (hreset.restrained h).rationed) fun props w₃ h₃ => ?_
      have hreset₃ := hreset.restrained h₃
      rw [wp_bind]
      refine (restrained_of_talks monotonicTime_talks).wp (fun _ h => (hreset₃.restrained h).rationed)
        fun started w₄ h₄ => ?_
      have hreset₄ := hreset₃.restrained h₄
      rw [wp_bind]
      refine teardownHandle_restrained.wp (fun _ h => (hreset₄.restrained h).rationed) fun _ w₅ h₅ => ?_
      have hreset₅ := hreset₄.restrained h₅
      rw [wp_bind]
      refine drainQueue_restrained.wp (fun _ h => (hreset₅.restrained h).rationed) fun _ w₆ h₆ => ?_
      have hreset₆ := hreset₅.restrained h₆
      rw [wp_bind]
      refine (restrained_of_talks renewContext_talks).wp (fun _ h => (hreset₆.restrained h).rationed) fun ok w₇ h₇ => ?_
      have hreset₇ := hreset₆.restrained h₇
      rw [wp_ite]
      refine ⟨fun _ => ⟨nofun, fun pass hpass => ?_⟩, fun _ => ⟨fun _ => hreset₇.rationed, nofun⟩⟩
      obtain rfl := Option.some.inj hpass
      exact ⟨hparse, rc, hissued, hreset₇⟩

theorem recoverWedgedDevice_rationed (w : World) :
    wp (Rationed env w) (recoverWedgedDevice env) (fun _ => Rationed env w) w := by
  rw [recoverWedgedDevice_eq, wp_bind]
  refine wp_mono (wp_with_run (beforeSettle_rationed w)) fun front w₁ ⟨⟨hnone, hsome⟩, hbefore⟩ => ?_
  match front with
  | none => exact hnone rfl
  | some (selector, deadline, budgetMs) =>
    obtain ⟨hparse, rc, hissued, hreset₁⟩ := hsome _ rfl
    unfold settleOrEscalate
    rw [wp_bind]
    refine (settleUntilFrame_restrained selector deadline).wp_run (fun _ h => (hreset₁.restrained h).rationed)
      fun ok w₂ h₂ hpass => ?_
    have hreset₂ := hreset₁.restrained h₂
    rw [wp_ite]
    refine ⟨fun _ => hreset₂.rationed, fun hok => ?_⟩
    obtain rfl := Bool.eq_false_iff.mpr hok
    exact escalate_rationed hissued hparse hbefore hreset₁ hpass hreset₂

/-- In front of the first pass nothing is open; where there is none, neither was a reset issued that left something. -/
theorem beforeSettle_gone (h : Owned w) :
    wp (fun _ => True) (beforeSettle env)
      (fun front w' => (front.isSome → Gone w') ∧
        (front = none → ∀ rc, ResetIssued rc → portResets w'.log = rc :: portResets w.log → Gone w')) w := by
  have hnever : ∀ {w'}, Talks w w' → ∀ rc, portResets w'.log ≠ rc :: portResets w.log := by
    intro w' ht rc hresets
    have hsame : portResets w'.log = portResets w.log := congrArg Said.portResets ht.said
    exact List.cons_ne_self rc (portResets w.log) (hresets.symm.trans hsame)
  unfold beforeSettle
  rw [wp_bind, wp_get]
  split
  · exact ⟨nofun, fun _ rc _ hresets => absurd hresets (hnever (Std.Refl.refl w) rc)⟩
  · next selector _ =>
    rw [wp_bind]
    apply wp_talks captureRecoveryTarget_talks
    intro _ w₁ h₁
    rw [wp_bind]
    apply wp_resetSilentDevice
    · exact fun _ _ => trivial
    · intro w₂ h₂
      exact ⟨nofun, fun _ rc _ hresets => absurd hresets (hnever (IsTrans.trans _ _ _ h₁ h₂) rc)⟩
    · intro rc w₂ k h₂ hdevh
      have ht : Talks w w₂ := IsTrans.trans _ _ _ h₁ h₂
      rw [wp_ite]
      constructor
      · intro _
        have howned : Owned (w₂.note (.portReset rc)) := ⟨(ht.owned h).handles, (ht.owned h).stream⟩
        rw [wp_bind]
        apply wp_talks readProps_talks
        intro props w₃ h₃
        rw [wp_bind]
        apply wp_talks monotonicTime_talks
        intro started w₄ h₄
        have howned₄ := h₄.owned (h₃.owned howned)
        have hdevh₄ : w₄.own.uvcDevh = some k := h₄.fields.1.trans (h₃.fields.1.trans hdevh)
        apply teardown_gone howned₄ hdevh₄
        intro w₅ hgone
        rw [wp_bind]
        apply wp_talks renewContext_talks
        intro ok w₆ h₆
        have hgone₆ := h₆.gone hgone
        rw [wp_ite]
        exact ⟨fun _ => ⟨fun _ => hgone₆, nofun⟩, fun _ => ⟨nofun, fun _ _ _ _ => hgone₆⟩⟩
      · -- the reset failed, so the handle is as it was
        intro hfailed
        refine ⟨nofun, fun _ rc' hissued hresets => ?_⟩
        have hsame := congrArg (List.cons rc) (congrArg Said.portResets ht.said)
        obtain ⟨rfl, -⟩ := List.cons.inj (hresets.symm.trans hsame)
        exact absurd (decide_eq_true hissued) hfailed

theorem recoverWedgedDevice_settles (h : Owned w) :
    wp (fun _ => True) (recoverWedgedDevice env)
      (fun ok w' => (ok = true → Proven w') ∧
        (ok = false → ∀ rc, ResetIssued rc → portResets w'.log = rc :: portResets w.log → Gone w')) w := by
  have hsettled : ∀ ok {w'}, Settled ok w' → (ok = true → Proven w') ∧
      (ok = false → ∀ rc, ResetIssued rc → portResets w'.log = rc :: portResets w.log → Gone w') := by
    intro ok w' hs
    cases ok
    · exact ⟨nofun, fun _ _ _ _ => hs⟩
    · exact ⟨fun _ => hs, nofun⟩
  rw [recoverWedgedDevice_eq, wp_bind]
  refine wp_mono (beforeSettle_gone h) fun front w₁ ⟨hsome, hnone⟩ => ?_
  match front with
  | none => exact ⟨nofun, fun _ => hnone rfl⟩
  | some (selector, deadline, budgetMs) =>
    unfold settleOrEscalate
    rw [wp_bind]
    refine wp_mono (settleUntilFrame_settles selector deadline (hsome rfl)) fun ok w₂ hpass => ?_
    unfold Settled at hpass
    rw [wp_ite]
    constructor
    · intro hok
      rw [if_pos hok] at hpass
      exact hsettled true hpass
    · intro hok
      rw [if_neg hok] at hpass
      exact wp_mono (escalate_settles selector budgetMs hpass) fun ok w₃ hs => hsettled ok hs

/-- A camera that was started and fell silent. -/
def silentWorld : World :=
  { World.init 40 with
    own := { Own.init with
      uvcCtx := true
      uvcDev := some camera
      uvcDevh := some 0
      uvcCtrl := ⟨some ⟨.h264, 1920, 1080, 30⟩, 3072⟩
      negotiatedFramerate := 30
      streaming := true }
    stream := { StreamState.init with
      frameFormat := .h264
      negotiatedWidth := 1920
      negotiatedHeight := 1080
      clock := true }
    log := [.request (some 0) (.start ⟨some ⟨.h264, 1920, 1080, 30⟩, 3072⟩) ⟨0, ⟨none, 0⟩⟩,
      .openDevice camera 0 0] }

end LibuvcH264Src
