import LibuvcH264Src.Watches
import LibuvcH264Src.Reports

/-!
# Every call of `create` ends

* `Ahead` : what is ahead of a wait, and since when;
* `*_brief` : the programs of the recovery, in so many turns;
* `Comebacks` : how often a camera that went comes back;
* `create_ends` : the loop of `create` ends, with a frame, a flush or an error.
-/

namespace LibuvcH264Src
open AnnexB Caps Prog

variable {env : Env} {rest : Interruptions env}

/-! ## What is ahead -/

/-- At most `a` interruptions are ahead, and the clock shows `t` at least. -/
structure Ahead (rest : Interruptions env) (a : Nat) (t : Int) (w : World) : Prop where
  strain : rest.strain w ≤ a
  since : t ≤ env.monotonicTime w.log

theorem Ahead.went {a : Nat} {t : Int} {w w' : World} (hclock : Clocked env) (h : Ahead rest a t w)
    (hw : Went rest w w') : Ahead rest a t w' :=
  ⟨le_trans hw.strain h.strain, le_trans h.since (hw.clock hclock)⟩

theorem Ahead.potential {a d : Nat} {t deadline : Int} {w : World} (h : Ahead rest a t w) (hd : deadline ≤ t + d) :
    rest.potential deadline w ≤ a + d := by
  have hstrain := h.strain
  have hsince := h.since
  unfold Interruptions.potential
  omega

section Recovery
variable (hclock : Clocked env) {a d : Nat} {t deadline : Int}

/-- What is kept where there is no more ahead is kept by a program that ends. -/
theorem Lasts.around {α : Type} {C : World → Prop} {k : Nat} {p : Prog World α}
    (h : Lasts rest (fun _ => True) k p fun _ _ => True) (hC : ∀ w w', Went rest w w' → C w → C w') :
    Lasts rest C k p fun _ => C :=
  fun w hw hbudget => wp_mono (h w trivial hbudget) fun _ _ ha => ⟨hC _ _ ha.2.1 hw, ha.2⟩

theorem modifyOwn_anywhere (f : Own → Own) (k : Nat) :
    Lasts rest (fun _ => True) k (modifyOwn f) fun _ _ => True :=
  brief_modify (fun _ => went_of_log List.suffix_rfl rfl rfl) (fun _ => rfl) fun _ _ => trivial

theorem record_anywhere (e : Event) (k : Nat) : Lasts rest (fun _ => True) k (record e) fun _ _ => True :=
  brief_modify (fun w => went_note w e) (fun _ => rfl) fun _ _ => trivial

theorem strain_went (a : Nat) (w w' : World) (h : Went rest w w') (hw : rest.strain w ≤ a) : rest.strain w' ≤ a :=
  le_trans h.strain hw

theorem renewContext_lasts : Lasts rest (fun _ => True) 2 (renewContext env) fun _ _ => True := by
  have hexit : Lasts rest (fun _ => True) 1 (uvcExit env) fun _ _ => True := by
    unfold uvcExit
    refine brief_bind (j := 1) (turn_lasts anywhere_talks) fun _ => ?_
    exact brief_free (record_anywhere _ 0) fun _ => modifyOwn_anywhere _ _
  have hinit : Lasts rest (fun _ => True) 1 (uvcInit env) fun _ _ => True := by
    unfold uvcInit
    refine brief_bind (j := 1) (turn_lasts anywhere_talks) fun _ => brief_free (ask_lasts _) fun res => ?_
    refine brief_free (record_anywhere _ 0) fun _ => brief_free (modifyOwn_anywhere _ 0) fun _ => ?_
    exact brief_pure fun _ hw => hw
  unfold renewContext
  refine brief_bind (j := 1) hexit fun _ => brief_bind (j := 1) hinit fun res => brief_ite ?_ ?_
  · exact brief_free (modifyOwn_anywhere _ 0) fun _ => brief_pure fun _ hw => hw
  · exact brief_pure fun _ hw => hw

include hclock

theorem ahead_went (w w' : World) (h : Went rest w w') (hw : Ahead rest a t w) : Ahead rest a t w' := hw.went hclock h

/-- The turns that a loop leaves over, told from those it may use. -/
theorem lasts_of_funded {α : Type} {r k : Nat} {p : Prog World α} (hd : deadline ≤ t + d)
    (h : ∀ w n, Funded rest deadline r (n + k) w →
      wp (fun _ => False) p (fun _ w' => Funded rest deadline r n w' ∧ Went rest w w') w) :
    Lasts rest (Ahead rest a t) (r * (a + d) + k) p fun _ => Ahead rest a t := by
  intro w hw hbudget
  have hcost := Nat.mul_le_mul_left r (hw.potential hd)
  have hfunded : Funded rest deadline r ((w.budget - (r * (a + d) + k)) + k) w := by
    unfold Funded Affords
    omega
  refine wp_mono (h w _ hfunded) fun _ w' hw' => ⟨hw.went hclock hw'.2, hw'.2, ?_⟩
  have hleft := hw'.1.le
  omega

theorem reopenOnce_brief (selector : DeviceSelector) (hd : deadline ≤ t + d) :
    Lasts rest (Ahead rest a t) (8 * (a + d) + 18) (reopenOnce env selector deadline) fun _ => Ahead rest a t :=
  lasts_of_funded hclock hd fun _ _ h => reopenOnce_funded (r := 0) hclock selector h

theorem settleUntilFrame_brief (selector : DeviceSelector) (hd : deadline ≤ t + d) :
    Lasts rest (Ahead rest a t) (36 * (a + d) + 28) (settleUntilFrame env selector deadline) fun _ => Ahead rest a t :=
  lasts_of_funded hclock hd fun _ _ h => settleUntilFrame_funded (r := 0) hclock selector h

/-- A wait has no deadline to get to but its own. -/
theorem interruptibleWait_brief {waitUs : Int} (hwait : 0 < waitUs) :
    Lasts rest (Ahead rest a t) (2 * a + 4) (interruptibleWait env waitUs) fun _ => Ahead rest a t := by
  intro w hw hbudget
  have hstrain := hw.strain
  have hfunded : Funded rest (env.monotonicTime w.log) (0 + 2) ((w.budget - (2 * a + 4)) + 4) w := by
    unfold Funded Affords Interruptions.potential
    omega
  refine interruptibleWait_funded hclock hwait hfunded fun _ w' hwent hleft _ => ⟨hw.went hclock hwent, hwent, ?_⟩
  have hbudget' := hleft.le
  omega

/-- What was read of the clock is past. -/
theorem monotonicTime_brief : Lasts rest (fun w => rest.strain w ≤ a) 1 (monotonicTime env) fun now => Ahead rest a now := by
  intro w hw hbudget
  have hfunded : Funded rest 0 0 ((w.budget - 1) + 1) w := by
    unfold Funded Affords
    omega
  refine wp_monotonicTime_funded hclock hfunded fun now w' hwent _ hnow hleft => ?_
  have hbudget' := hleft.le
  exact ⟨⟨le_trans hwent.strain hw, hnow⟩, hwent, by omega⟩

/-- The turns of a pass of the recovery, and of the recovery as a whole. -/
def settleTurns (a : Nat) : Nat := 36 * (a + 2 ^ 32 * 1000) + 28

def recoveryTurns (a : Nat) : Nat := 2 * settleTurns a + 15

omit hclock in
theorem settleTurns_ge (a : Nat) (budgetMs : UInt32) : 36 * (a + budgetMs.toNat * 1000) + 28 ≤ settleTurns a := by
  have hless : budgetMs.toNat < 2 ^ 32 := budgetMs.toNat_lt
  unfold settleTurns
  omega

/-- A pass whose budget begins now. -/
theorem settle_brief (selector : DeviceSelector) (now : Int) (budgetMs : UInt32) :
    Lasts rest (Ahead rest a now) (settleTurns a) (settleUntilFrame env selector (now + budgetMs.toNat * 1000))
      fun _ w => rest.strain w ≤ a := by
  have hpass : Lasts rest (Ahead rest a now) (36 * (a + budgetMs.toNat * 1000) + 28)
      (settleUntilFrame env selector (now + budgetMs.toNat * 1000)) fun _ => Ahead rest a now :=
    settleUntilFrame_brief hclock selector (by omega)
  exact hpass.mono (settleTurns_ge a budgetMs) fun _ _ hw => hw.strain

theorem recoverWedgedDevice_brief :
    Lasts rest (fun w => rest.strain w ≤ a) (recoveryTurns a) (recoverWedgedDevice env) fun _ w => rest.strain w ≤ a := by
  have hstrain : ∀ w w', Went rest w w' → rest.strain w ≤ a → rest.strain w' ≤ a := strain_went a
  have hprops : Lasts rest (fun w => rest.strain w ≤ a) 1 (readProps env) fun _ w => rest.strain w ≤ a :=
    Lasts.around (readProps_lasts anywhere_talks) hstrain
  have hcapture : Lasts rest (fun _ => True) 1 (captureRecoveryTarget env) fun _ _ => True := by
    unfold captureRecoveryTarget
    refine brief_free brief_get fun w => ?_
    split
    · exact modifyOwn_anywhere _ _
    · refine brief_bind (j := 1) (turn_lasts anywhere_talks) fun _ => brief_free (ask_lasts _) fun target => ?_
      exact modifyOwn_anywhere _ _
  have hreset : Lasts rest (fun _ => True) 1 (resetSilentDevice env) fun _ _ => True := by
    unfold resetSilentDevice
    refine brief_free brief_get fun w => ?_
    split
    · exact brief_pure fun _ hw => hw
    · refine brief_bind (j := 1) (turn_lasts anywhere_talks) fun _ => brief_free (ask_lasts _) fun rc => ?_
      split
      · exact brief_pure fun _ hw => hw
      · exact brief_free (record_anywhere _ 0) fun _ => brief_pure fun _ hw => hw
  have hdeep : Lasts rest (fun _ => True) 2 (deepRecovery env) fun _ _ => True := by
    have hrun : Lasts rest (fun _ => True) 1 (usbDeepRecoveryRun env) fun _ _ => True := by
      unfold usbDeepRecoveryRun
      refine brief_bind (j := 1) (turn_lasts anywhere_talks) fun _ => brief_free brief_get fun w => ?_
      split
      · exact brief_pure fun _ hw => hw
      · exact ask_lasts _
    unfold deepRecovery
    refine brief_bind (j := 1) (readProps_lasts anywhere_talks) fun props => brief_free brief_get fun w => brief_ite ?_ ?_
    · exact brief_pure fun _ hw => hw
    · refine brief_free (modifyOwn_anywhere _ 0) fun _ => brief_free (record_anywhere _ 0) fun _ => ?_
      refine brief_bind (j := 1) hrun fun outcome => ?_
      exact brief_free (record_anywhere _ 0) fun _ => brief_pure fun _ hw => hw
  have hescalate : ∀ selector budgetMs, Lasts rest (fun w => rest.strain w ≤ a) (settleTurns a + 6)
      (escalate env selector budgetMs) fun _ w => rest.strain w ≤ a := by
    intro selector budgetMs
    unfold escalate
    refine brief_bind (j := 1) (Lasts.around (isFlushing_lasts anywhere_talks) hstrain) fun flushing => brief_ite ?_ ?_
    · exact brief_pure fun _ hw => hw
    refine brief_bind (j := 2) (Lasts.around hdeep hstrain) fun acted => brief_ite ?_ (brief_pure fun _ hw => hw)
    refine brief_bind (j := 2) (Lasts.around renewContext_lasts hstrain) fun ok => brief_ite ?_ (brief_pure fun _ hw => hw)
    exact brief_bind (j := 1) (monotonicTime_brief hclock) fun now => settle_brief hclock selector now budgetMs
  unfold recoverWedgedDevice recoveryTurns
  refine brief_free brief_get fun w => ?_
  split
  · exact brief_pure fun _ hw => hw
  · next selector _ =>
    rw [show 2 * settleTurns a + 15 = (2 * settleTurns a + 13) + 1 + 1 from rfl]
    refine brief_bind (j := 1) (Lasts.around hcapture hstrain) fun _ => ?_
    refine brief_bind (j := 1) (Lasts.around hreset hstrain) fun issued => brief_ite ?_ (brief_pure fun _ hw => hw)
    rw [show 2 * settleTurns a + 13 = ((((settleTurns a + 6) + settleTurns a) + 2) + 1 + 2) + 1 + 1 by omega]
    refine brief_bind (j := 1) hprops fun props => brief_bind (j := 1) (monotonicTime_brief hclock) fun started => ?_
    have hkeeps : ∀ w w', Went rest w w' → Ahead rest a started w → Ahead rest a started w' := ahead_went hclock
    refine brief_bind (j := 2) (Lasts.around teardownHandle_lasts hkeeps) fun _ => ?_
    refine brief_bind (j := 1) (Lasts.around drainQueue_lasts hkeeps) fun _ => ?_
    refine brief_bind (j := 2) (Lasts.around renewContext_lasts hkeeps) fun ok => brief_ite ?_ ?_
    · refine brief_bind (settle_brief hclock selector started props.resetSettleMaxMs) fun ok => brief_ite ?_ ?_
      · exact brief_pure fun _ hw => hw
      · exact hescalate selector _
    · exact brief_pure fun _ hw => hw.strain

end Recovery

/-! ## Reconnects -/

instance (J : World → Prop) : IsPreorder World (Kept J) where

/-- The camera is opened only so many times more. -/
structure Comebacks (env : Env) where
  left : List Event → Nat
  later : ∀ e older, left (e :: older) ≤ left older
  opened : ∀ older dev handle res, env.uvcOpen older dev = res → ¬ res < 0 →
    left (.openDevice dev handle res :: older) < left older

section Comebacks
variable (back : Comebacks env)

theorem Comebacks.le {older log : List Event} (hlog : older <:+ log) : back.left log ≤ back.left older := by
  obtain ⟨newer, rfl⟩ := hlog
  induction newer with
  | nil => exact le_refl _
  | cons e newer ih => exact le_trans (back.later e _) ih

theorem Comebacks.blind (b : Nat) : Blind env (Kept fun w => back.left w.log ≤ b) where
  turn w hw := by
    show back.left (if w.budget = 0 then (none, w) else (some (), w.others (env.meanwhile w.log) (w.budget - 1))).2.log ≤ b
    split
    · exact hw
    · refine le_trans (back.le ?_) hw
      exact (List.suffix_cons _ _).trans
        (foldl_interfere_calm (env.meanwhile w.log) (w.note (.meanwhile (env.meanwhile w.log)))).grown
  record _ w hw := le_trans (back.later _ w.log) hw
  own _ _ hw := hw
  stream _ _ hw := hw
  queue _ _ hw := hw

theorem Comebacks.kept {α : Type} {b : Nat} {p : Prog World α} {w : World} (h : Stays (Kept fun w => back.left w.log ≤ b) p)
    (hw : back.left w.log ≤ b) : wp (fun _ => True) p (fun _ w' => back.left w'.log ≤ b) w :=
  h.wp (fun _ _ => trivial) fun _ _ hk => hk hw

/-- A reopen that succeeds is one comeback less. -/
theorem reopenOnce_opens (selector : DeviceSelector) (deadline : Int) {b : Nat} {w : World} (hw : back.left w.log ≤ b) :
    wp (fun _ => True) (reopenOnce env selector deadline)
      (fun ok w' => back.left w'.log ≤ b ∧ (ok = true → back.left w'.log < b)) w := by
  have hblind := back.blind
  have hopen : ∀ dev {w : World}, back.left w.log ≤ b → wp (fun _ => True) (uvcOpen env dev)
      (fun res w' => back.left w'.log ≤ b ∧ (¬ res < 0 → back.left w'.log < b)) w := by
    intro dev w hw
    unfold uvcOpen
    rw [wp_bind]
    refine wp_mono (back.kept (hblind b).turn hw) fun _ w₁ hw₁ => ?_
    rw [wp_bind, wp_ask, wp_bind, wp_ask, wp_bind, wp_record, wp_bind, wp_modifyOwn, wp_pure]
    refine ⟨le_trans (back.later _ w₁.log) hw₁, fun hres => ?_⟩
    exact lt_of_lt_of_le (back.opened w₁.log dev _ _ rfl hres) hw₁
  unfold reopenOnce
  rw [wp_bind]
  refine wp_mono (back.kept ((hblind b).resolveDevice selector deadline) hw) fun found w₁ hw₁ => ?_
  split
  · exact ⟨hw₁, nofun⟩
  · rw [wp_bind]
    refine wp_mono (back.kept ((hblind b).pastDeadline deadline) hw₁) fun late w₂ hw₂ => ?_
    rw [wp_ite, wp_bind, wp_record, wp_pure, wp_bind]
    refine ⟨fun _ => ⟨le_trans (back.later _ w₂.log) hw₂, nofun⟩, fun _ => ?_⟩
    refine wp_mono (hopen _ hw₂) fun res w₃ hw₃ => ?_
    obtain ⟨hw₃, hless⟩ := hw₃
    rw [wp_ite, wp_bind, wp_modifyOwn, wp_bind, wp_record, wp_pure, wp_bind, wp_modifyOwn]
    refine ⟨fun _ => ⟨le_trans (back.later _ w₃.log) hw₃, nofun⟩, fun hres => ?_⟩
    -- from the open handle on nothing is gained
    have hone := hless hres
    have hrest := hblind (b - 1)
    refine wp_mono (back.kept (b := b - 1) ?_ (by omega : back.left w₃.log ≤ b - 1)) fun ok w₄ hw₄ =>
      ⟨by omega, fun _ => by omega⟩
    refine stays_bind stays_get fun w => stays_bind (hrest.pastDeadline deadline) fun late => ?_
    refine stays_bind (stays_ite (stays_pure _) (hrest.getStreamCtrlFormatSize _ _ _)) fun res => ?_
    exact stays_ite (stays_bind hrest.closeAndUnref fun _ => stays_pure _) (hrest.rearmAndStart deadline)

theorem reconnect_opens {b : Nat} {w : World} (hw : back.left w.log ≤ b) :
    wp (fun _ => True) (reconnect env) (fun ok w' => back.left w'.log ≤ b ∧ (ok = true → back.left w'.log < b)) w := by
  have hblind := back.blind b
  have hattempts : ∀ selector left backoffS {w : World}, back.left w.log ≤ b →
      wp (fun _ => True) (reconnectAttempts env selector left backoffS)
        (fun ok w' => back.left w'.log ≤ b ∧ (ok = true → back.left w'.log < b)) w := by
    intro selector left
    induction left with
    | zero => exact fun _ _ hw => ⟨hw, nofun⟩
    | succ left ih =>
      intro backoffS w hw
      unfold reconnectAttempts reconnectAttempt
      rw [wp_bind]
      refine wp_mono (back.kept (hblind.interruptibleWait _) hw) fun awake w₁ hw₁ => ?_
      rw [wp_ite, wp_bind, wp_pure]
      refine ⟨fun _ => ?_, fun _ => ⟨hw₁, nofun⟩⟩
      refine wp_mono (reopenOnce_opens back selector 0 hw₁) fun ok w₂ hw₂ => ?_
      rw [wp_ite, wp_pure]
      exact ⟨fun hok => ⟨hw₂.1, fun _ => hw₂.2 hok⟩, fun _ => ih _ hw₂.1⟩
  unfold reconnect reconnectBounded
  rw [wp_bind, wp_get]
  split
  · exact ⟨hw, nofun⟩
  · rw [wp_bind]
    refine wp_mono (back.kept hblind.teardownHandle hw) fun _ w₁ hw₁ => ?_
    rw [wp_bind]
    exact wp_mono (back.kept hblind.drainQueue hw₁) fun _ w₂ hw₂ => hattempts _ _ _ hw₂

end Comebacks

/-- The turns of a reconnect, where the clock began `d` in front of its zero at most. -/
def reconnectTurns (a d : Nat) : Nat := 5 * (2 * a + 4 + (8 * (a + d) + 18)) + 3

theorem reconnect_brief (hclock : Clocked env) {a d : Nat} {t : Int} (hd : 0 ≤ t + d) :
    Lasts rest (Ahead rest a t) (reconnectTurns a d) (reconnect env) fun _ => Ahead rest a t := by
  have hkeeps : ∀ w w', Went rest w w' → Ahead rest a t w → Ahead rest a t w' := ahead_went hclock
  have hattempts : ∀ selector left backoffS, 0 < backoffS →
      Lasts rest (Ahead rest a t) (left * (2 * a + 4 + (8 * (a + d) + 18))) (reconnectAttempts env selector left backoffS)
        fun _ => Ahead rest a t := by
    intro selector left
    induction left with
    | zero => exact fun _ _ => brief_pure fun _ hw => hw
    | succ left ih =>
      intro backoffS hbackoff
      unfold reconnectAttempts reconnectAttempt
      rw [show (left + 1) * (2 * a + 4 + (8 * (a + d) + 18)) =
        (left * (2 * a + 4 + (8 * (a + d) + 18)) + (8 * (a + d) + 18)) + (2 * a + 4) by ring]
      refine brief_bind (interruptibleWait_brief hclock (by omega)) fun awake => brief_ite ?_ (brief_pure fun _ hw => hw)
      refine brief_bind (reopenOnce_brief hclock selector hd) fun ok => brief_ite (brief_pure fun _ hw => hw) ?_
      exact ih (backoffS * 2) (by omega)
  unfold reconnect reconnectBounded reconnectTurns
  refine brief_free brief_get fun w => ?_
  split
  · exact brief_pure fun _ hw => hw
  · refine brief_bind (j := 2) (Lasts.around teardownHandle_lasts hkeeps) fun _ => ?_
    refine brief_bind (j := 1) (Lasts.around drainQueue_lasts hkeeps) fun _ => ?_
    exact hattempts _ reconnectMaxRetries 1 (by omega)

/-- What bounds the reconnects of a call: where `J b` holds, at most `b` of them succeed. -/
structure Bounds (rest : Interruptions env) (a : Nat) (t : Int) (k : Nat) (J : Nat → World → Prop) : Prop where
  blind : ∀ b, Blind env (Kept (J b))
  own : ∀ b w (f : Own → Own), J b w → J b { w with own := f w.own }
  error : ∀ b w e, J b w → J b (w.note (.error e))
  reconnect : ∀ b, Lasts rest (fun w => (J b w ∧ w.props.reconnect = true) ∧ Ahead rest a t w) k (reconnect env)
    fun ok w => J b w ∧ (ok = true → ∃ b' < b, J b' w)

/-! ## The loop -/

theorem counters_blind (env : Env) (counters : Nat × Bool × UInt32) : Blind env (Kept fun w => w.own.counters = counters) where
  turn w hw := by
    show (if w.budget = 0 then (none, w) else (some (), w.others (env.meanwhile w.log) (w.budget - 1))).2.own.counters = _
    split
    · exact hw
    · rw [others_own]
      exact hw
  record _ _ hw := hw
  own hf w hw := (hf w.own).trans hw
  stream _ _ hw := hw
  queue _ _ hw := hw

/-- The wedge recovery is yet to be tried. -/
def untried (counters : Nat × Bool × UInt32) : Nat := (!counters.2.1).toNat

section Create
variable (rest) (a : Nat) (t : Int) (J : Nat → World → Prop)

/-- Where the loop stands: what is ahead, the reconnects that can succeed, and the counters. -/
structure Stands (s b : Nat) (counters : Nat × Bool × UInt32) (w : World) : Prop where
  ahead : Ahead rest a t w
  strain : rest.strain w ≤ s
  reconnects : J b w
  counted : w.own.counters = counters

/-- How many turns of the loop can go on. A sentinel and a recovery let it count from the beginning. -/
def Ranked (n : Nat) (w : World) : Prop :=
  ∃ s b counters, Stands rest a t J s b counters w ∧
    6 * (s + b + untried counters) + (disconnectTimeoutCount - counters.1) ≤ n

variable {rest a t J} {k s b : Nat} {counters : Nat × Bool × UInt32}
variable (hclock : Clocked env) (hbounds : Bounds rest a t k J)

/-- Other counters. -/
theorem Stands.recount (hbounds : Bounds rest a t k J) {w : World} (h : Stands rest a t J s b counters w) (f : Own → Own) :
    Stands rest a t J s b (f w.own).counters { w with own := f w.own } :=
  ⟨⟨h.ahead.strain, h.ahead.since⟩, h.strain, hbounds.own b w f h.reconnects, rfl⟩

include hclock

/-- A program that ends leaves the time that is left and the interruptions that may come. -/
theorem lasts_ahead (a : Nat) (t : Int) (s : Nat) {α : Type} {c : Nat} {p : Prog World α} {P : World → Prop}
    {Q : α → World → Prop} (h : Lasts rest P c p Q) :
    Lasts rest (fun w => P w ∧ Ahead rest a t w ∧ rest.strain w ≤ s) c p
      fun r w => Q r w ∧ Ahead rest a t w ∧ rest.strain w ≤ s :=
  h.closed fun _ _ hwent hahead => ⟨hahead.1.went hclock hwent, le_trans hwent.strain hahead.2⟩

/-- A program that ends leaves the loop where it stands. -/
theorem Stands.lasts {α : Type} {c : Nat} {p : Prog World α} {Q : α → World → Prop}
    (h : Lasts rest (fun w => rest.strain w ≤ a ∧ rest.strain w ≤ s) c p Q) (hJ : Stays (Kept (J b)) p)
    (hcounters : Stays (Kept fun w => w.own.counters = counters) p) :
    Lasts rest (Stands rest a t J s b counters) c p fun r w => Stands rest a t J s b counters w ∧ Q r w := by
  intro w hw hbudget
  have hall := ((lasts_ahead hclock a t s h).keeps hJ).keeps hcounters
  refine wp_mono (hall w ?_ hbudget) fun r w' hw' => ?_
  · exact ⟨⟨⟨⟨hw.ahead.strain, hw.strain⟩, hw.ahead, hw.strain⟩, hw.reconnects⟩, hw.counted⟩
  · obtain ⟨⟨⟨⟨hQ, hahead, hstrain⟩, hJ'⟩, hcounters'⟩, hrest⟩ := hw'
    exact ⟨⟨⟨hahead, hstrain, hJ', hcounters'⟩, hQ⟩, hrest⟩

/-- A program of which there is no more to say. -/
theorem Stands.talks {α : Type} {c : Nat} {p : Prog World α} (h : Lasts rest (fun _ => True) c p fun _ _ => True)
    (hJ : Stays (Kept (J b)) p) (hcounters : Stays (Kept fun w => w.own.counters = counters) p) :
    Lasts rest (Stands rest a t J s b counters) c p fun _ => Stands rest a t J s b counters :=
  (Stands.lasts hclock (h.of_imp fun _ _ => trivial) hJ hcounters).mono (le_refl c) fun _ _ hw => hw.1

include hbounds

/-- A pop that gives a sentinel is one interruption less. -/
theorem queueTimeoutPop_brief : Lasts rest (Stands rest a t J s b counters) 1 (queueTimeoutPop env)
    fun item w => Stands rest a t J s b counters w ∧ (item = some .flushSentinel → rest.strain w < s) := by
  refine Stands.lasts hclock (fun w hw hbudget => ?_) (hbounds.blind b).queueTimeoutPop
    (counters_blind env counters).queueTimeoutPop
  have hfunded : Funded rest 0 0 ((w.budget - 1) + 1) w := by
    unfold Funded Affords
    omega
  refine wp_queueTimeoutPop_funded hclock hfunded fun item w' hwent hleft _ hsentinel => ?_
  have hbudget' := hleft.le
  exact ⟨fun hitem => lt_of_lt_of_le (hsentinel hitem) hw.2, hwent, by omega⟩

theorem isFlushing_brief : Lasts rest (Stands rest a t J s b counters) 1 (isFlushing env)
    fun _ => Stands rest a t J s b counters :=
  Stands.talks hclock (isFlushing_lasts anywhere_talks) (hbounds.blind b).isFlushing (counters_blind env counters).isFlushing

/-- The properties as they are. -/
theorem readProps_brief : Lasts rest (Stands rest a t J s b counters) 1 (readProps env)
    fun props w => Stands rest a t J s b counters w ∧ w.props = props := by
  have hread : ∀ w : World, True → wp (fun _ => True) (readProps env) (fun props w' => w'.props = props) w := by
    intro w _
    unfold readProps
    rw [wp_bind]
    exact wp_true (fun _ => trivial) fun _ _ => rfl
  refine (Stands.talks hclock (readProps_lasts anywhere_talks) (hbounds.blind b).readProps
    (counters_blind env counters).readProps).also hread |>.of_imp fun _ hw => ⟨hw, trivial⟩

/-- Behind a recovery that succeeded there is less to be tried. -/
theorem recoverSilence_brief : Lasts rest (Stands rest a t J s b counters) (k + recoveryTurns a + 2) (recoverSilence env)
    fun ok w => ok = true → ∃ b' counters', Stands rest a t J s b' counters' w ∧ b' + untried counters' < b + untried counters := by
  have hcounters := counters_blind env
  have hreconnect : Lasts rest (fun w => Stands rest a t J s b counters w ∧ w.props.reconnect = true) k (reconnect env)
      fun ok w => ok = true → ∃ b' counters', Stands rest a t J s b' counters' w ∧ b' + untried counters' < b + untried counters := by
    have hall := (lasts_ahead hclock a t s (hbounds.reconnect b)).keeps (hcounters counters).reconnect
    refine (hall.of_imp fun w hw => ?_).mono (le_refl k) fun ok w hw hok => ?_
    · obtain ⟨hw, hon⟩ := hw
      exact ⟨⟨⟨⟨hw.reconnects, hon⟩, hw.ahead⟩, hw.ahead, hw.strain⟩, hw.counted⟩
    · obtain ⟨⟨⟨-, hless⟩, hahead, hstrain⟩, hcounted⟩ := hw
      obtain ⟨b', hlt, hJ⟩ := hless hok
      exact ⟨b', counters, ⟨hahead, hstrain, hJ, hcounted⟩, by omega⟩
  have hrecover : Lasts rest (Stands rest a t J s b (counters.1, true, 0)) (recoveryTurns a)
      (record .wedgeRecovery >>= fun _ => recoverWedgedDevice env) fun _ => Stands rest a t J s b (counters.1, true, 0) := by
    refine brief_free (Stands.talks hclock (record_anywhere _ 0) ((hbounds.blind b).record rfl) ((hcounters _).record rfl))
      fun _ => ?_
    refine (Stands.lasts hclock ((recoverWedgedDevice_brief hclock).of_imp fun _ hw => hw.1)
      (hbounds.blind b).recoverWedgedDevice (hcounters _).recoverWedgedDevice).mono (le_refl _) fun _ _ hw => hw.1
  unfold recoverSilence
  refine brief_bind (k := k + recoveryTurns a + 1) (j := 1) (readProps_brief hclock hbounds) fun props => ?_
  by_cases hon : props.reconnect = true
  · rw [if_pos hon]
    refine (hreconnect.of_imp fun w hw => ⟨hw.1, ?_⟩).mono (by omega) fun _ _ hw => hw
    rw [hw.2]
    exact hon
  · rw [if_neg hon]
    intro w hw hbudget
    have hcounted := hw.1.counted
    rw [wp_bind, wp_get, wp_ite, wp_pure]
    refine ⟨fun _ => ⟨nofun, Std.Refl.refl w, Nat.le_add_right _ _⟩, fun hunused => ?_⟩
    have huntried : untried counters = 1 := by
      rw [← hcounted]
      unfold untried Own.counters
      simp [hunused]
    refine brief_bind (k := k + recoveryTurns a) (j := 1) (readProps_brief hclock hbounds) (fun props => brief_ite ?_ ?_)
      w hw.1 hbudget
    · refine brief_free (modifyOwn_lasts (Q := fun _ => Stands rest a t J s b (counters.1, true, 0)) fun w hw => ?_) fun _ => ?_
      · have hrecount := hw.1.recount hbounds fun self => { self with resetRecoveryUsed := true, framesSinceReset := 0 }
        rw [← hw.1.counted]
        exact hrecount
      · refine hrecover.mono (by omega) fun _ w hw _ => ⟨b, _, hw, ?_⟩
        rw [huntried]
        exact Nat.lt_succ_self b
    · exact brief_pure fun _ _ => nofun

/-- A timeout counts, and the fifth has its recovery. -/
theorem createTimeout_brief : Lasts rest (Stands rest a t J s b counters) (k + recoveryTurns a + 3) (createTimeout env)
    fun next w => Sum.elim
      (fun _ => ∃ n < 6 * (s + b + untried counters) + (disconnectTimeoutCount - counters.1), Ranked rest a t J n w)
      (fun _ => True) next := by
  have hlater : Lasts rest (Stands rest a t J s b (counters.1 + 1, counters.2)) (k + recoveryTurns a + 3) (do
        record .silent
        if ← recoverSilence env then
          modifyOwn fun self => { self with consecutiveTimeouts := 0 }
          return .inl ()
        else if ← isFlushing env then return .inr FlowReturn.flushing
        else
          record (.error .disconnected)
          return .inr .error)
      fun next w => Sum.elim
        (fun _ => ∃ n < 6 * (s + b + untried counters) + (disconnectTimeoutCount - counters.1), Ranked rest a t J n w)
        (fun _ => True) next := by
    refine brief_free (Stands.talks hclock (record_anywhere _ 0) ((hbounds.blind b).record rfl)
      ((counters_blind env _).record rfl)) fun _ => ?_
    rw [show k + recoveryTurns a + 3 = 1 + (k + recoveryTurns a + 2) by omega]
    refine brief_bind (recoverSilence_brief hclock hbounds) fun ok => ?_
    cases ok with
    | true =>
      refine brief_free (Q := fun _ w => ∃ n < 6 * (s + b + untried counters) + (disconnectTimeoutCount - counters.1),
        Ranked rest a t J n w) (modifyOwn_lasts fun w hw => ?_) fun _ => brief_pure fun _ hw => hw
      obtain ⟨b', counters', hstands, hless⟩ := hw rfl
      have hrecount := hstands.recount hbounds fun self => { self with consecutiveTimeouts := 0 }
      have huntried : untried (0, w.own.resetRecoveryUsed, w.own.framesSinceReset) = untried counters' := by
        rw [← hstands.counted]
        rfl
      change b' + untried counters' < b + untried counters at hless
      refine ⟨6 * (s + b' + untried counters') + 5, by omega, s, b', _, hrecount, ?_⟩
      show 6 * (s + b' + untried (0, w.own.resetRecoveryUsed, w.own.framesSinceReset)) + (disconnectTimeoutCount - 0) ≤ _
      rw [huntried]
      exact le_refl _
    | false =>
      refine (brief_bind (k := 0) (j := 1) (isFlushing_lasts anywhere_talks) fun flushing => brief_ite ?_ ?_).of_imp
        fun _ _ => trivial
      · exact brief_pure fun _ _ => trivial
      · exact brief_free (record_anywhere _ 0) fun _ => brief_pure fun _ _ => trivial
  unfold createTimeout
  refine brief_free (modifyOwn_lasts (Q := fun _ => Stands rest a t J s b (counters.1 + 1, counters.2)) fun w hw => ?_)
    fun _ w hw hbudget => ?_
  · have hrecount := hw.recount hbounds fun self => { self with consecutiveTimeouts := self.consecutiveTimeouts + 1 }
    rw [← hw.counted]
    exact hrecount
  · have hcount : w.own.consecutiveTimeouts = counters.1 + 1 := congrArg Prod.fst hw.counted
    rw [wp_bind, wp_get, wp_ite, wp_pure]
    refine ⟨fun hfew => ⟨?_, Std.Refl.refl w, Nat.le_add_right _ _⟩, fun _ => hlater w hw hbudget⟩
    rw [hcount] at hfew
    refine ⟨6 * (s + b + untried counters) + (disconnectTimeoutCount - (counters.1 + 1)), by omega, s, b, _, hw, le_refl _⟩

omit hclock hbounds in
theorem countFrame_lasts : Lasts rest (fun _ => True) 1 (countFrame env) fun _ _ => True := by
  unfold countFrame
  refine brief_free brief_get fun w => brief_ite ?_ (record_anywhere _ 1)
  refine brief_bind (j := 1) (readProps_lasts anywhere_talks) fun props => ?_
  exact brief_free (modifyOwn_anywhere _ 0) fun _ => record_anywhere _ 0

/-- A turn of the loop goes on with less to wait for, or ends the call. -/
theorem createTurn_brief (n : Nat) : Lasts rest (Ranked rest a t J n) (k + recoveryTurns a + 5) (createTurn env ())
    fun next w => Sum.elim (fun _ => ∃ n' < n, Ranked rest a t J n' w) (fun _ => True) next := by
  rintro w ⟨s, b, counters, hw, hn⟩ hbudget
  have hturn : Lasts rest (Stands rest a t J s b counters) (k + recoveryTurns a + 5) (createTurn env ())
      fun next w => Sum.elim
        (fun _ => ∃ n < 6 * (s + b + untried counters) + (disconnectTimeoutCount - counters.1), Ranked rest a t J n w)
        (fun _ => True) next := by
    unfold createTurn
    refine brief_bind (k := k + recoveryTurns a + 4) (j := 1) (queueTimeoutPop_brief hclock hbounds) fun item => ?_
    have hflushing : Lasts rest (fun w => Stands rest a t J s b counters w ∧ (item = some .flushSentinel → rest.strain w < s))
        1 (isFlushing env) fun _ w => Stands rest a t J s b counters w ∧ (item = some .flushSentinel → rest.strain w < s) :=
      (isFlushing_brief hclock hbounds).closed fun _ _ hwent hless hitem => lt_of_le_of_lt hwent.strain (hless hitem)
    refine brief_bind (k := k + recoveryTurns a + 3) (j := 1) hflushing fun flushing => brief_ite ?_ ?_
    · refine (brief_free (record_anywhere _ 0) fun _ => brief_pure fun _ _ => trivial).of_imp fun _ _ => trivial
    split
    · exact (createTimeout_brief hclock hbounds).of_imp fun _ hw => hw.1
    · refine brief_free (Q := fun _ w => ∃ n < 6 * (s + b + untried counters) + (disconnectTimeoutCount - counters.1),
        Ranked rest a t J n w) (modifyOwn_lasts fun w hw => ?_) fun _ => brief_pure fun _ hw => hw
      obtain ⟨hstands, hless⟩ := hw
      have hstrain := hless rfl
      have hrecount := hstands.recount hbounds fun self => { self with consecutiveTimeouts := 0 }
      have hfewer : Stands rest a t J (s - 1) b (0, counters.2) { w with own := { w.own with consecutiveTimeouts := 0 } } := by
        rw [← hstands.counted]
        exact ⟨hrecount.ahead, Nat.le_sub_one_of_lt hstrain, hrecount.reconnects, rfl⟩
      refine ⟨6 * (s - 1 + b + untried counters) + 5, by omega, s - 1, b, _, hfewer, le_refl _⟩
    · refine (brief_free (modifyOwn_anywhere _ 0) fun _ => ?_).of_imp fun _ _ => trivial
      refine brief_bind (k := k + recoveryTurns a + 2) (j := 1) countFrame_lasts fun _ => brief_pure fun _ _ => trivial
  refine wp_mono (hturn w hw hbudget) fun next w' hw' => ⟨?_, hw'.2⟩
  cases next with
  | inl _ =>
    obtain ⟨n', hless, hranked⟩ := hw'.1
    exact ⟨n', by omega, hranked⟩
  | inr _ => trivial

omit hclock hbounds in
theorem createStart_lasts : Lasts rest Held 6 (createStart env) fun _ _ => True := by
  have hfallback : ∀ res, Lasts rest Held 3 (startFallback env res) fun _ => Held := by
    intro res
    unfold startFallback
    refine brief_bind (j := 1) (readProps_lasts held_talks) fun props => brief_ite ?_ (brief_pure fun _ hw => hw)
    refine brief_free brief_get fun w => brief_bind (j := 1) (negotiateCleanPayload_lasts _ _ _) fun ok => brief_ite ?_ ?_
    · exact uvcStartStreaming_lasts
    · exact brief_pure fun _ hw => hw
  unfold createStart
  refine brief_free (modifyStream_lasts fun _ hw => hw) fun _ => brief_free (modifyOwn_held (fun _ => by rfl) 0) fun _ => ?_
  refine brief_bind (j := 2) applyTransferBuffers_lasts fun _ => brief_bind (j := 1) uvcStartStreaming_lasts fun first => ?_
  refine brief_bind (j := 3) (brief_ite (hfallback first) (brief_pure fun _ hw => hw)) fun res => brief_ite ?_ ?_
  · refine brief_free (modifyOwn_held (fun _ => by rfl) 0) fun _ => ?_
    exact (brief_free (record_anywhere _ 0) fun _ => brief_pure fun _ hw => hw).of_imp fun _ _ => trivial
  · exact brief_pure fun _ _ => trivial

omit hclock hbounds in
theorem createStart_kept {C : World → Prop} (h : Blind env (Kept C)) (herror : ∀ w e, C w → C (w.note (.error e))) :
    Stays (Kept C) (createStart env) := by
  have hfallback : ∀ res, Stays (Kept C) (startFallback env res) := by
    intro res
    unfold startFallback
    refine stays_bind h.readProps fun props => stays_ite (stays_bind stays_get fun w => ?_) (stays_pure _)
    exact stays_bind (h.negotiateCleanPayload _ _ _) fun ok => stays_ite h.uvcStartStreaming (stays_pure _)
  unfold createStart
  refine stays_bind (h.stream _) fun _ => stays_bind (h.own fun _ => rfl) fun _ => stays_bind h.applyTransferBuffers fun _ => ?_
  refine stays_bind h.uvcStartStreaming fun first => ?_
  refine stays_bind (stays_ite (hfallback first) (stays_pure _)) fun res => stays_ite ?_ (stays_pure _)
  refine stays_bind (h.own fun _ => rfl) fun _ => stays_bind (fun w hw => herror w _ hw) fun _ => stays_pure _

/-- The turns of a call. -/
def createTurns (a k n : Nat) : Nat := (k + recoveryTurns a + 5) * (n + 1) + 6

theorem create_brief {n : Nat} (hn : 6 * (s + b + untried counters) + (disconnectTimeoutCount - counters.1) ≤ n) :
    Lasts rest (fun w => (w.own.streaming = false → Held w) ∧ Stands rest a t J s b counters w) (createTurns a k n)
      (create env) fun _ _ => True := by
  have hloop : Lasts rest (Stands rest a t J s b counters) ((k + recoveryTurns a + 5) * (n + 1))
      (forever (createTurn env) ()) fun _ _ => True :=
    (brief_loop (fun m _ => createTurn_brief hclock hbounds m) (by omega) n ()).of_imp fun w hw => ⟨s, b, counters, hw, hn⟩
  have hopens : Lasts rest Held 6 (createStart env) fun _ _ => True := createStart_lasts
  have hstart := ((lasts_ahead hclock a t s hopens).keeps (createStart_kept (hbounds.blind b) (hbounds.error b))).keeps
    (createStart_kept (counters_blind env counters) fun _ _ hw => hw)
  intro w hw hbudget
  obtain ⟨hheld, hw⟩ := hw
  unfold createTurns at hbudget ⊢
  unfold create
  rw [wp_bind, wp_get, wp_bind, wp_ite, wp_pure]
  refine ⟨fun _ => ?_, fun hidle => ?_⟩
  · refine wp_mono (hloop w hw (by omega)) fun _ w' hw' => ⟨hw'.1, hw'.2.1, ?_⟩
    have hused := hw'.2.2
    omega
  · have hopen := hheld (Bool.eq_false_iff.mpr hidle)
    refine wp_mono (hstart w ⟨⟨⟨hopen, hw.ahead, hw.strain⟩, hw.reconnects⟩, hw.counted⟩ (by omega)) fun ok w₁ hw₁ => ?_
    obtain ⟨⟨⟨⟨-, hahead, hstrain⟩, hJ⟩, hcounted⟩, hwent, hused⟩ := hw₁
    rw [wp_ite, wp_pure]
    refine ⟨fun _ => ?_, fun _ => ⟨trivial, hwent, by omega⟩⟩
    refine wp_mono (hloop w₁ ⟨hahead, hstrain, hJ, hcounted⟩ (by omega)) fun _ w₂ hw₂ => ?_
    obtain ⟨-, hwent', hused'⟩ := hw₂
    exact ⟨trivial, hwent.trans hwent', by omega⟩

end Create

/-! ## Both kinds of a call -/

/-- Nobody turns `reconnect` on. -/
def KeepsOff (env : Env) : Prop := ∀ log, ∀ i ∈ env.meanwhile log, i ≠ .setProperty (.reconnect true)

theorem interfere_off {w : World} {i : Interference} (hi : i ≠ .setProperty (.reconnect true))
    (hw : w.props.reconnect = false) :
    (interfere w i).props.reconnect = false := by
  match i with
  | .frame arrival data =>
    show (feed w arrival data).props.reconnect = false
    unfold feed
    split <;> exact hw
  | .unlock | .unlockStop | .setClock _ | .changeState _ => exact hw
  | .setProperty property =>
    cases property with
    | reconnect value =>
      cases value with
      | true => exact absurd rfl hi
      | false => rfl
    | _ => exact hw

theorem foldl_interfere_off {others : List Interference} {w : World}
    (hothers : ∀ i ∈ others, i ≠ .setProperty (.reconnect true)) (hw : w.props.reconnect = false) :
    (others.foldl interfere w).props.reconnect = false := by
  induction others generalizing w with
  | nil => exact hw
  | cons i others ih =>
    apply ih fun i' hi' => hothers i' (List.mem_cons_of_mem i hi')
    exact interfere_off (hothers i List.mem_cons_self) hw

/-- Where `reconnect` is off there is no reconnect. -/
theorem off_bounds (rest : Interruptions env) (hoff : KeepsOff env) (a : Nat) (t : Int) :
    Bounds rest a t 0 fun _ w => w.props.reconnect = false where
  blind _ :=
    { turn := by
        intro w hw
        show (if w.budget = 0 then (none, w) else (some (), w.others (env.meanwhile w.log) (w.budget - 1))).2.props.reconnect = _
        split
        · exact hw
        · exact foldl_interfere_off (w := w.note _) (hoff w.log) hw
      record := fun _ _ hw => hw
      own := fun _ _ hw => hw
      stream := fun _ _ hw => hw
      queue := fun _ _ hw => hw }
  own _ _ _ hw := hw
  error _ _ _ hw := hw
  reconnect _ w hw := by
    have hon := hw.1.2
    rw [hw.1.1] at hon
    exact absurd hon Bool.false_ne_true

/-- Each reconnect that succeeds is a comeback. -/
theorem Comebacks.bounds (rest : Interruptions env) (hclock : Clocked env) (back : Comebacks env) (a : Nat) (t : Int) :
    Bounds rest a t (reconnectTurns a (-t).toNat) fun b w => back.left w.log ≤ b where
  blind b := back.blind b
  own _ _ _ hw := hw
  error _ w _ hw := le_trans (back.later _ w.log) hw
  reconnect b := by
    have hd : (0 : Int) ≤ t + (-t).toNat := by omega
    have hbrief : Lasts rest (Ahead rest a t) (reconnectTurns a (-t).toNat) (reconnect env) fun _ => Ahead rest a t :=
      reconnect_brief hclock hd
    have hall := hbrief.also fun w hw => reconnect_opens back (b := b) hw
    refine (hall.of_imp fun w hw => ⟨hw.2, hw.1.1⟩).mono (le_refl _) fun ok w hw => ⟨hw.2.1, fun hok => ?_⟩
    exact ⟨back.left w.log, hw.2.2 hok, le_refl _⟩

/-- A camera that was unplugged. -/
def goneCamera : Env := { tickingCamera with uvcOpen := fun _ _ => -4 }

/-- It is streaming, and two sentinels of an earlier flush are queued. -/
def pausedWorld (reconnect : Bool) : World :=
  { World.init 0 with
    own := { Own.init with streaming := true }
    props := { Props.init with reconnect := reconnect }
    queue := [.flushSentinel, .flushSentinel] }

theorem tickingCamera_keepsOff : KeepsOff tickingCamera := by
  intro log i hi
  unfold tickingCamera at hi
  simp only at hi
  split at hi
  · rw [List.mem_singleton.mp hi]
    exact nofun
  · exact absurd hi List.not_mem_nil

def goneCamera_comebacks : Comebacks goneCamera where
  left _ := 0
  later _ _ := le_refl 0
  opened older dev handle res hres hopened := by
    have hrefused : res = -4 := hres.symm
    omega

end LibuvcH264Src
