import LibuvcH264Src.Monitor

/-!
# Interrupting a wait

* `waitStep` : `interruptible_wait` on the streaming thread among calls of `unlock` and `unlock_stop`, one operation at a
  time, over a monitor whose flag is `flushing`;
* `unlock_wakes` : behind `unlock`, the waits of the streaming thread end at once, and report the flush.

`unlock` pushes its sentinel between the flag and the lock, which the wait does not look at.
-/

namespace LibuvcH264Src
namespace Wakeup
open Monitor (Move Site)

/-! ## The operations -/

/-- Where the streaming thread is: in the loop on `reconnect_cond`, or about to read the flag for its result. -/
inductive WaitSite where
  | idle
  | waits
  | rereads
  deriving DecidableEq

/-- `flushing`, `reconnect_lock` and `reconnect_cond` are the monitor's; `results` are those of `interruptible_wait`, newest
first. -/
structure WaitState where
  monitor : Monitor.State Unit
  site : WaitSite
  results : List Bool

def WaitState.init : WaitState := ⟨.init Unit, .idle, []⟩

inductive WaitEvent where
  /-- `interruptible_wait` is called. -/
  | wait (waitUs : Int)
  | acquire
  | check
  | sleep
  | wake (timedOut : Bool)
  | leave
  | reread
  /-- `unlock` sets the flag, -/
  | unlock
  /-- takes the lock, -/
  | lockReconnect
  | broadcast
  | unlockReconnect
  | unlockStop
  deriving DecidableEq

def WaitState.moves (s : WaitState) (m : Move Unit) (site : WaitSite) : Option WaitState :=
  (Monitor.step s.monitor m).map fun monitor => { s with monitor := monitor, site := site }

def waitStep (s : WaitState) : WaitEvent → Option WaitState
  | .wait waitUs =>
    if s.site = .idle then
      if 0 < waitUs then s.moves (.enter ()) .waits else some { s with site := .rereads }
    else none
  | .acquire => s.moves (.acquire ()) s.site
  | .check => s.moves (.check ()) s.site
  | .sleep => s.moves (.sleep ()) s.site
  | .wake timedOut => s.moves (.wake () timedOut) s.site
  | .leave => s.moves (.leave ()) .rereads
  | .reread => if s.site = .rereads then some { s with site := .idle, results := (!s.monitor.flag) :: s.results } else none
  | .unlock => s.moves .set s.site
  | .lockReconnect => s.moves .take s.site
  | .broadcast => s.moves .broadcast s.site
  | .unlockReconnect => s.moves .release s.site
  | .unlockStop => s.moves .clear s.site

/-! ## The invariant -/

/-- The streaming thread is in the monitor while it waits. -/
structure WaitInv (s : WaitState) : Prop where
  monitor : Monitor.Inv s.monitor
  inside : s.monitor.sites () ≠ .out ↔ s.site = .waits

theorem waitInv_init : WaitInv .init := ⟨Monitor.inv_init, by simp [WaitState.init, Monitor.State.init]⟩

/-- What goes on in the monitor while the streaming thread stays in its place. -/
theorem WaitInv.stays {s s' : WaitState} {m : Move Unit} (h : WaitInv s) (henter : m ≠ .enter ()) (hleave : m ≠ .leave ())
    (hs : s.moves m s.site = some s') : WaitInv s' := by
  obtain ⟨monitor, hmonitor, rfl⟩ := Option.map_eq_some_iff.mp hs
  refine ⟨h.monitor.step hmonitor, ?_⟩
  show monitor.sites () ≠ .out ↔ s.site = .waits
  rw [Ne, Monitor.step_out henter hleave hmonitor]
  exact h.inside

theorem WaitInv.step {s s' : WaitState} {e : WaitEvent} (h : WaitInv s) (hs : waitStep s e = some s') : WaitInv s' := by
  unfold waitStep at hs
  cases e with
  | wait waitUs =>
    simp only at hs
    split at hs
    · next hsite =>
      split at hs
      · obtain ⟨monitor, hmonitor, rfl⟩ := Option.map_eq_some_iff.mp hs
        refine ⟨h.monitor.step hmonitor, ?_⟩
        show monitor.sites () ≠ .out ↔ WaitSite.waits = .waits
        rw [Monitor.enter_inside hmonitor]
        simp
      · obtain rfl := Option.some.inj hs
        have hinside := h.inside
        rw [hsite] at hinside
        exact ⟨h.monitor, hinside.trans (by simp)⟩
    · exact absurd hs nofun
  | leave =>
    obtain ⟨monitor, hmonitor, rfl⟩ := Option.map_eq_some_iff.mp hs
    refine ⟨h.monitor.step hmonitor, ?_⟩
    show monitor.sites () ≠ .out ↔ WaitSite.rereads = .waits
    rw [(Monitor.leave_outside hmonitor).2]
    simp
  | reread =>
    simp only at hs
    split at hs
    · next hsite =>
      obtain rfl := Option.some.inj hs
      have hinside := h.inside
      rw [hsite] at hinside
      exact ⟨h.monitor, hinside.trans (by simp)⟩
    · exact absurd hs nofun
  | acquire => exact h.stays (m := .acquire ()) nofun nofun hs
  | check => exact h.stays (m := .check ()) nofun nofun hs
  | sleep => exact h.stays (m := .sleep ()) nofun nofun hs
  | wake timedOut => exact h.stays (m := .wake () timedOut) nofun nofun hs
  | unlock => exact h.stays (m := .set) nofun nofun hs
  | lockReconnect => exact h.stays (m := .take) nofun nofun hs
  | broadcast => exact h.stays (m := .broadcast) nofun nofun hs
  | unlockReconnect => exact h.stays (m := .release) nofun nofun hs
  | unlockStop => exact h.stays (m := .clear) nofun nofun hs

theorem waitInv_run {events : List WaitEvent} {s : WaitState} (h : Runs.run waitStep .init events = some s) : WaitInv s :=
  Runs.run_induction waitStep (fun _ _ _ hinv hs => hinv.step hs) waitInv_init h

/-! ## Behind `unlock` -/

/-- Every `unlock` has returned, and `unlock_stop` has not run behind one. -/
def WaitState.Flushed (s : WaitState) : Prop := s.monitor.flag = true ∧ s.monitor.Quiet

/-- The operations of the streaming thread until its wait returns. -/
def WaitSite.left (site : Site) : WaitSite → Nat
  | .idle => 0
  | .rereads => 1
  | .waits => site.left + 1

def WaitState.left (s : WaitState) : Nat := s.site.left (s.monitor.sites ())

def WaitEvent.ofWait : WaitEvent → Bool
  | .acquire | .check | .sleep | .wake _ | .leave | .reread => true
  | _ => false

def WaitEvent.isCall : WaitEvent → Bool
  | .wait _ => true
  | _ => false

section Flush
variable {s s' : WaitState}

/-- An operation of the thread in the monitor. -/
theorem WaitInv.works {m : Move Unit} (h : WaitInv s) (hawake : s.monitor.Awake) (hm : m.waiter = some ())
    (hclear : m ≠ .clear) (hs : s.moves m s.site = some s') :
    s'.monitor.Awake ∧ 1 + s'.left ≤ s.left ∧ s'.results = s.results := by
  obtain ⟨monitor, hmonitor, rfl⟩ := Option.map_eq_some_iff.mp hs
  obtain ⟨hlater, hless⟩ := Monitor.step_left hawake hclear hmonitor
  have hdown := hless () hm
  have hsite : s.site = .waits := by
    apply h.inside.mp
    intro hout
    rw [hout] at hdown
    exact absurd hdown (Nat.not_lt_zero _)
  refine ⟨hlater, ?_, rfl⟩
  unfold WaitState.left
  rw [hsite]
  show 1 + ((monitor.sites ()).left + 1) ≤ (s.monitor.sites ()).left + 1
  omega

/-- An operation of `unlock`. -/
theorem signals {m : Move Unit} (hawake : s.monitor.Awake) (hm : m.waiter = none) (henter : ∀ i, m ≠ .enter i)
    (hclear : m ≠ .clear) (hs : s.moves m s.site = some s') :
    s'.monitor.Awake ∧ s'.left = s.left ∧ s'.results = s.results := by
  obtain ⟨monitor, hmonitor, rfl⟩ := Option.map_eq_some_iff.mp hs
  refine ⟨(Monitor.step_left hawake hclear hmonitor).1, ?_, rfl⟩
  unfold WaitState.left
  simp only [Monitor.step_sites hawake hm henter hmonitor]

/-- What a step makes of a wait that is flushed. -/
theorem WaitInv.flushed_step {e : WaitEvent} (h : WaitInv s) (hawake : s.monitor.Awake) (he : e ≠ .unlockStop)
    (hs : waitStep s e = some s') :
    s'.monitor.Awake ∧ e.ofWait.toNat + s'.left ≤ s.left + 4 * e.isCall.toNat ∧
      (s'.results = s.results ∨ s'.results = false :: s.results) := by
  have hworks : ∀ m : Move Unit, m.waiter = some () → m ≠ .clear → s.moves m s.site = some s' →
      s'.monitor.Awake ∧ 1 + s'.left ≤ s.left + 4 * 0 ∧ (s'.results = s.results ∨ s'.results = false :: s.results) := by
    intro m hm hclear hmoves
    obtain ⟨hlater, hless, hresults⟩ := h.works hawake hm hclear hmoves
    exact ⟨hlater, by omega, .inl hresults⟩
  have hsignals : ∀ m : Move Unit, m.waiter = none → (∀ i, m ≠ .enter i) → m ≠ .clear → s.moves m s.site = some s' →
      s'.monitor.Awake ∧ 0 + s'.left ≤ s.left + 4 * 0 ∧ (s'.results = s.results ∨ s'.results = false :: s.results) := by
    intro m hm henter hclear hmoves
    obtain ⟨hlater, hsame, hresults⟩ := signals hawake hm henter hclear hmoves
    exact ⟨hlater, by omega, .inl hresults⟩
  unfold waitStep at hs
  cases e with
  | wait waitUs =>
    simp only at hs
    split at hs
    · next hsite =>
      split at hs
      · obtain ⟨monitor, hmonitor, rfl⟩ := Option.map_eq_some_iff.mp hs
        refine ⟨(Monitor.step_left (m := .enter ()) hawake nofun hmonitor).1, ?_, .inl rfl⟩
        show 0 + ((monitor.sites ()).left + 1) ≤ s.left + 4 * 1
        rw [Monitor.enter_inside hmonitor]
        exact Nat.le_add_left 4 s.left
      · obtain rfl := Option.some.inj hs
        refine ⟨hawake, ?_, .inl rfl⟩
        show 0 + 1 ≤ s.left + 4 * 1
        omega
    · exact absurd hs nofun
  | acquire => exact hworks (.acquire ()) rfl nofun hs
  | check => exact hworks (.check ()) rfl nofun hs
  | sleep => exact hworks (.sleep ()) rfl nofun hs
  | wake timedOut => exact hworks (.wake () timedOut) rfl nofun hs
  | leave =>
    obtain ⟨monitor, hmonitor, rfl⟩ := Option.map_eq_some_iff.mp hs
    have hsite : s.site = .waits := h.inside.mp (by rw [(Monitor.leave_outside hmonitor).1]; exact nofun)
    refine ⟨(Monitor.step_left (m := .leave ()) hawake nofun hmonitor).1, ?_, .inl rfl⟩
    show 1 + 1 ≤ s.site.left _ + 4 * 0
    rw [hsite, (Monitor.leave_outside hmonitor).1]
    decide
  | reread =>
    simp only at hs
    split at hs
    · next hsite =>
      obtain rfl := Option.some.inj hs
      refine ⟨hawake, ?_, .inr ?_⟩
      · show 1 + 0 ≤ s.site.left _ + 4 * 0
        rw [hsite]
        exact Nat.le_refl 1
      · show (!s.monitor.flag) :: s.results = _
        rw [hawake.1]
        rfl
    · exact absurd hs nofun
  | unlock => exact hsignals .set rfl nofun nofun hs
  | lockReconnect => exact hsignals .take rfl nofun nofun hs
  | broadcast => exact hsignals .broadcast rfl nofun nofun hs
  | unlockReconnect => exact hsignals .release rfl nofun nofun hs
  | unlockStop => exact absurd rfl he

theorem flushed_run {events : List WaitEvent} (h : WaitInv s) (hawake : s.monitor.Awake)
    (hstays : ∀ e ∈ events, e ≠ .unlockStop) (hrun : Runs.run waitStep s events = some s') :
    s'.monitor.Awake ∧ events.countP WaitEvent.ofWait + s'.left ≤ s.left + 4 * events.countP WaitEvent.isCall ∧
      ∃ results, s'.results = results ++ s.results ∧ ∀ r ∈ results, r = false := by
  induction events generalizing s with
  | nil =>
    obtain rfl := Option.some.inj hrun
    exact ⟨hawake, by simp, [], rfl, by simp⟩
  | cons e events ih =>
    obtain ⟨t, hs, hrest⟩ := (Runs.run_cons_eq_some waitStep).mp hrun
    obtain ⟨hlater, hbound, hresult⟩ := h.flushed_step hawake (hstays e (List.mem_cons_self ..)) hs
    obtain ⟨hend, hbound', results, hresults, hall⟩ :=
      ih (h.step hs) hlater (fun e' he => hstays e' (List.mem_cons_of_mem _ he)) hrest
    refine ⟨hend, ?_, ?_⟩
    · have hof : (e :: events).countP WaitEvent.ofWait = events.countP WaitEvent.ofWait + e.ofWait.toNat := by
        cases he : e.ofWait <;> simp [he]
      have hcalls : (e :: events).countP WaitEvent.isCall = events.countP WaitEvent.isCall + e.isCall.toNat := by
        cases he : e.isCall <;> simp [he]
      rw [hof, hcalls]
      omega
    · rcases hresult with hsame | hmore
      · exact ⟨results, by rw [hresults, hsame], hall⟩
      · refine ⟨results ++ [false], by rw [hresults, hmore, List.append_assoc]; rfl, fun r hr => ?_⟩
        rcases List.mem_append.mp hr with hr | hr
        · exact hall r hr
        · exact List.mem_singleton.mp hr

end Flush

/-- **No wake-up is lost.** Behind every `unlock` that has returned, and until `unlock_stop`, the streaming thread is not
asleep and does not fall asleep; the wait that is under way returns after at most four operations of it, as does every
later one; and all of them report the flush. -/
theorem unlock_wakes {before events : List WaitEvent} {s s' : WaitState}
    (hbefore : Runs.run waitStep .init before = some s) (hflushed : s.Flushed)
    (hstays : ∀ e ∈ events, e ≠ .unlockStop) (hrun : Runs.run waitStep s events = some s') :
    (s'.monitor.sites ()).rests = false ∧
      events.countP WaitEvent.ofWait + s'.left ≤ s.left + 4 * events.countP WaitEvent.isCall ∧ s.left ≤ 4 ∧
      ∃ results, s'.results = results ++ s.results ∧ ∀ r ∈ results, r = false := by
  have hinv := waitInv_run hbefore
  have hrests := fun i => Monitor.signalled hinv.monitor hflushed.1 hflushed.2 i
  obtain ⟨hawake, hbound, hresults⟩ := flushed_run hinv ⟨hflushed.1, hrests⟩ hstays hrun
  refine ⟨hawake.2 (), hbound, ?_, hresults⟩
  have hsite := hrests ()
  unfold WaitState.left
  cases s.site with
  | idle => exact Nat.zero_le 4
  | rereads => exact Nat.le_add_left 1 3
  | waits =>
    cases hcase : s.monitor.sites () with
    | wakes timedOut => cases timedOut <;> decide
    | sleeps | asleep =>
      rw [hcase] at hsite
      exact absurd hsite nofun
    | _ => decide

/-- The flag is set while the thread is between its check and its sleep. -/
def racedEvents : List WaitEvent :=
  [.wait 1000000, .acquire, .check, .unlock, .sleep, .lockReconnect, .broadcast, .unlockReconnect]

theorem unlock_wakes_raced : ∃ s s', Runs.run waitStep .init racedEvents = some s ∧
    Runs.run waitStep s [.acquire, .check, .leave, .reread] = some s' ∧ s'.site = .idle ∧
    ∃ results, s'.results = results ++ s.results ∧ ∀ r ∈ results, r = false := by
  obtain ⟨s, s', hbefore, hflag, hquiet, hrun, hsite⟩ : ∃ s s', Runs.run waitStep .init racedEvents = some s ∧
      s.monitor.flag = true ∧ s.monitor.Quiet ∧ Runs.run waitStep s [.acquire, .check, .leave, .reread] = some s' ∧
      s'.site = .idle := ⟨_, _, rfl, rfl, ⟨rfl, nofun, nofun⟩, rfl, rfl⟩
  exact ⟨s, s', hbefore, hrun, hsite, (unlock_wakes hbefore ⟨hflag, hquiet⟩ (by simp) hrun).2.2.2⟩

end Wakeup
end LibuvcH264Src
