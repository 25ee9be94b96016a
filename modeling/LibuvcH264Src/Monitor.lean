import LibuvcH264Src.Runs

/-!
# Waiting for a flag

A monitor whose flag is written without its lock. A waiter checks the flag under the lock and sleeps on the condition;
a signaller sets the flag, and takes the lock to broadcast behind that.

* `Monitor.State ι`, `Monitor.step` : any number of waiters and signallers, one operation at a time;
* `Monitor.Inv` : whose lock it is, and who is yet to broadcast;
* `Monitor.signalled` : no waiter sleeps where the flag is set and every signaller is done;
* `Monitor.step_left` : what a waiter has left where the flag stays set.
-/

namespace Monitor

/-- Where a waiter is. It holds the lock where it checks the flag, goes to sleep and leaves. -/
inductive Site where
  | out
  | enters
  | checks
  | sleeps
  | asleep
  | wakes (timedOut : Bool)
  | leaves
  deriving DecidableEq

inductive Owner (ι : Type) where
  | waiter (i : ι)
  /-- A signaller that is yet to broadcast. -/
  | signals
  | signalled
  deriving DecidableEq

/-- `signalling` is the number of signallers that have set the flag and wait for the lock. -/
structure State (ι : Type) where
  flag : Bool
  lock : Option (Owner ι)
  sites : ι → Site
  signalling : Nat

def State.init (ι : Type) : State ι := ⟨false, none, fun _ => .out, 0⟩

inductive Move (ι : Type) where
  | enter (i : ι)
  /-- A waiter takes the lock: it enters, or it wakes. -/
  | acquire (i : ι)
  | check (i : ι)
  | sleep (i : ι)
  /-- It wakes without a broadcast: by its deadline, or for no reason. -/
  | wake (i : ι) (timedOut : Bool)
  | leave (i : ι)
  | set
  | clear
  | take
  | broadcast
  | release

section Operations
variable {ι : Type} [DecidableEq ι]

def State.goes (s : State ι) (i : ι) (site : Site) : State ι := { s with sites := Function.update s.sites i site }

/-- A sleeper is woken by a broadcast. -/
def Site.woken : Site → Site
  | .asleep => .wakes false
  | site => site

def step (s : State ι) : Move ι → Option (State ι)
  | .enter i => if s.sites i = .out then some (s.goes i .enters) else none
  | .acquire i =>
    if s.lock = none then
      match s.sites i with
      | .enters | .wakes false => some { s.goes i .checks with lock := some (.waiter i) }
      | .wakes true => some { s.goes i .leaves with lock := some (.waiter i) }
      | _ => none
    else none
  | .check i => if s.sites i = .checks then some (s.goes i (if s.flag then .leaves else .sleeps)) else none
  | .sleep i => if s.sites i = .sleeps then some { s.goes i .asleep with lock := none } else none
  | .wake i timedOut => if s.sites i = .asleep then some (s.goes i (.wakes timedOut)) else none
  | .leave i => if s.sites i = .leaves then some { s.goes i .out with lock := none } else none
  | .set => some { s with flag := true, signalling := s.signalling + 1 }
  | .clear => some { s with flag := false }
  | .take =>
    if s.lock = none ∧ 0 < s.signalling then some { s with lock := some .signals, signalling := s.signalling - 1 } else none
  | .broadcast =>
    if s.lock = some .signals then some { s with lock := some .signalled, sites := fun i => (s.sites i).woken } else none
  | .release => if s.lock = some .signalled then some { s with lock := none } else none

end Operations

/-! ## The invariant -/

variable {ι : Type}

def Site.holds : Site → Bool
  | .checks | .sleeps | .leaves => true
  | _ => false

/-- It found the flag clear, and is not woken yet. -/
def Site.rests : Site → Bool
  | .sleeps | .asleep => true
  | _ => false

/-- A broadcast is to come. -/
def State.Pending (s : State ι) : Prop := 0 < s.signalling ∨ s.lock = some .signals

/-- No signaller is between the flag and the end of its broadcast. -/
def State.Quiet (s : State ι) : Prop := s.signalling = 0 ∧ s.lock ≠ some .signals ∧ s.lock ≠ some .signalled

structure Inv (s : State ι) : Prop where
  lock : ∀ i, (s.sites i).holds = true ↔ s.lock = some (.waiter i)
  pending : ∀ i, (s.sites i).rests = true → s.flag = true → s.Pending

theorem inv_init : Inv (State.init ι) where
  lock i := by simp [State.init, Site.holds]
  pending i h := absurd h nofun

section Steps
variable [DecidableEq ι] {s s' : State ι}

/-- A waiter goes on, and leaves the lock as it is. -/
theorem Inv.goes {i : ι} {site : Site} (h : Inv s) (hholds : site.holds = (s.sites i).holds)
    (hrests : site.rests = true → s.flag = true → s.Pending) : Inv (s.goes i site) where
  lock j := by
    show (Function.update s.sites i site j).holds = true ↔ _
    by_cases hj : j = i
    · rw [hj, Function.update_self, hholds]
      exact h.lock i
    · rw [Function.update_of_ne hj]
      exact h.lock j
  pending j hj hflag := by
    change (Function.update s.sites i site j).rests = true at hj
    by_cases hji : j = i
    · rw [hji, Function.update_self] at hj
      exact hrests hj hflag
    · rw [Function.update_of_ne hji] at hj
      exact h.pending j hj hflag

/-- A waiter takes the lock. -/
theorem Inv.acquires {i : ι} {site : Site} (h : Inv s) (hfree : s.lock = none) (hholds : site.holds = true)
    (hrests : site.rests = false) : Inv { s.goes i site with lock := some (.waiter i) } where
  lock j := by
    show (Function.update s.sites i site j).holds = true ↔ some (Owner.waiter i) = some (.waiter j)
    by_cases hj : j = i
    · rw [hj, Function.update_self]
      simp [hholds]
    · rw [Function.update_of_ne hj, h.lock j, hfree]
      simp [Ne.symm hj]
  pending j hj hflag := by
    change (Function.update s.sites i site j).rests = true at hj
    by_cases hji : j = i
    · rw [hji, Function.update_self, hrests] at hj
      exact absurd hj nofun
    · rw [Function.update_of_ne hji] at hj
      rcases h.pending j hj hflag with hpending | hpending
      · exact .inl hpending
      · rw [hfree] at hpending
        exact absurd hpending nofun

/-- A waiter gives the lock back. -/
theorem Inv.releases {i : ι} {site : Site} (h : Inv s) (hheld : (s.sites i).holds = true) (hholds : site.holds = false)
    (hrests : site.rests = true → (s.sites i).rests = true) : Inv { s.goes i site with lock := none } where
  lock j := by
    have howner := (h.lock i).mp hheld
    show (Function.update s.sites i site j).holds = true ↔ none = some (Owner.waiter j)
    by_cases hj : j = i
    · rw [hj, Function.update_self]
      simp [hholds]
    · rw [Function.update_of_ne hj, h.lock j, howner]
      simp [Ne.symm hj]
  pending j hj hflag := by
    have howner := (h.lock i).mp hheld
    change (Function.update s.sites i site j).rests = true at hj
    have hbefore : s.Pending := by
      by_cases hji : j = i
      · rw [hji, Function.update_self] at hj
        exact h.pending i (hrests hj) hflag
      · rw [Function.update_of_ne hji] at hj
        exact h.pending j hj hflag
    rcases hbefore with hpending | hpending
    · exact .inl hpending
    · rw [howner] at hpending
      exact absurd hpending (by simp)

theorem Inv.step {m : Move ι} (h : Inv s) (hs : Monitor.step s m = some s') : Inv s' := by
  unfold Monitor.step at hs
  cases m with
  | enter i =>
    simp only at hs
    split at hs
    · next hsite =>
      obtain rfl := Option.some.inj hs
      exact h.goes (by rw [hsite]; rfl) nofun
    · exact absurd hs nofun
  | acquire i =>
    simp only at hs
    split at hs
    · next hfree =>
      split at hs
      · obtain rfl := Option.some.inj hs
        exact h.acquires hfree rfl rfl
      · obtain rfl := Option.some.inj hs
        exact h.acquires hfree rfl rfl
      · obtain rfl := Option.some.inj hs
        exact h.acquires hfree rfl rfl
      · exact absurd hs nofun
    · exact absurd hs nofun
  | check i =>
    simp only at hs
    split at hs
    · next hsite =>
      obtain rfl := Option.some.inj hs
      split
      · exact h.goes (by rw [hsite]; rfl) nofun
      · next hclear => exact h.goes (by rw [hsite]; rfl) fun _ hflag => absurd hflag hclear
    · exact absurd hs nofun
  | sleep i =>
    simp only at hs
    split at hs
    · next hsite =>
      obtain rfl := Option.some.inj hs
      exact h.releases (by rw [hsite]; rfl) rfl fun _ => by rw [hsite]; rfl
    · exact absurd hs nofun
  | wake i timedOut =>
    simp only at hs
    split at hs
    · next hsite =>
      obtain rfl := Option.some.inj hs
      exact h.goes (by rw [hsite]; rfl) nofun
    · exact absurd hs nofun
  | leave i =>
    simp only at hs
    split at hs
    · next hsite =>
      obtain rfl := Option.some.inj hs
      exact h.releases (by rw [hsite]; rfl) rfl nofun
    · exact absurd hs nofun
  | set =>
    obtain rfl := Option.some.inj hs
    exact ⟨h.lock, fun _ _ _ => .inl (Nat.succ_pos _)⟩
  | clear =>
    obtain rfl := Option.some.inj hs
    exact ⟨h.lock, fun _ _ hflag => absurd hflag nofun⟩
  | take =>
    simp only at hs
    split at hs
    · next hready =>
      obtain rfl := Option.some.inj hs
      refine ⟨fun i => ?_, fun _ _ _ => .inr rfl⟩
      rw [h.lock i, hready.1]
      simp
    · exact absurd hs nofun
  | broadcast =>
    simp only at hs
    split at hs
    · next hlock =>
      obtain rfl := Option.some.inj hs
      refine ⟨fun i => ?_, fun i hrests _ => ?_⟩
      · have hholds : (s.sites i).woken.holds = (s.sites i).holds := by cases s.sites i <;> rfl
        show (s.sites i).woken.holds = true ↔ _
        rw [hholds, h.lock i, hlock]
        simp
      · -- who has found the flag clear and does not sleep yet holds the lock
        change (s.sites i).woken.rests = true at hrests
        have howner := h.lock i
        rw [hlock] at howner
        cases hsite : s.sites i with
        | sleeps =>
          rw [hsite] at howner
          exact absurd (howner.mp rfl) (by simp)
        | _ =>
          rw [hsite] at hrests
          exact absurd hrests nofun
    · exact absurd hs nofun
  | release =>
    simp only at hs
    split at hs
    · next hlock =>
      obtain rfl := Option.some.inj hs
      refine ⟨fun i => ?_, fun i hrests hflag => ?_⟩
      · rw [h.lock i, hlock]
        simp
      · rcases h.pending i hrests hflag with hpending | hpending
        · exact .inl hpending
        · rw [hlock] at hpending
          exact absurd hpending (by simp)
    · exact absurd hs nofun

/-- A waiter is in until it leaves. -/
theorem step_out {m : Move ι} {i : ι} (henter : m ≠ .enter i) (hleave : m ≠ .leave i) (hs : step s m = some s') :
    s'.sites i = .out ↔ s.sites i = .out := by
  have hgoes : ∀ j site, site ≠ .out → s.sites j ≠ .out → ((s.goes j site).sites i = .out ↔ s.sites i = .out) := by
    intro j site hsite hin
    show Function.update s.sites j site i = .out ↔ _
    by_cases hi : i = j
    · rw [hi, Function.update_self]
      exact iff_of_false hsite hin
    · rw [Function.update_of_ne hi]
  unfold step at hs
  cases m with
  | enter j | leave j =>
    have hj : i ≠ j := by
      rintro rfl
      contradiction
    simp only at hs
    split at hs
    · obtain rfl := Option.some.inj hs
      show Function.update s.sites j _ i = .out ↔ _
      rw [Function.update_of_ne hj]
    · exact absurd hs nofun
  | acquire j =>
    simp only at hs
    split at hs
    · split at hs
      · next hsite =>
        obtain rfl := Option.some.inj hs
        exact hgoes j .checks nofun (by rw [hsite]; exact nofun)
      · next hsite =>
        obtain rfl := Option.some.inj hs
        exact hgoes j .checks nofun (by rw [hsite]; exact nofun)
      · next hsite =>
        obtain rfl := Option.some.inj hs
        exact hgoes j .leaves nofun (by rw [hsite]; exact nofun)
      · exact absurd hs nofun
    · exact absurd hs nofun
  | check j =>
    simp only at hs
    split at hs
    · next hsite =>
      obtain rfl := Option.some.inj hs
      refine hgoes j _ ?_ (by rw [hsite]; exact nofun)
      split <;> exact nofun
    · exact absurd hs nofun
  | sleep j =>
    simp only at hs
    split at hs
    · next hsite =>
      obtain rfl := Option.some.inj hs
      exact hgoes j .asleep nofun (by rw [hsite]; exact nofun)
    · exact absurd hs nofun
  | wake j timedOut =>
    simp only at hs
    split at hs
    · next hsite =>
      obtain rfl := Option.some.inj hs
      exact hgoes j (.wakes timedOut) nofun (by rw [hsite]; exact nofun)
    · exact absurd hs nofun
  | set | clear =>
    obtain rfl := Option.some.inj hs
    exact Iff.rfl
  | take | release =>
    simp only at hs
    split at hs
    · obtain rfl := Option.some.inj hs
      exact Iff.rfl
    · exact absurd hs nofun
  | broadcast =>
    simp only at hs
    split at hs
    · obtain rfl := Option.some.inj hs
      show (s.sites i).woken = .out ↔ _
      cases s.sites i <;> simp [Site.woken]
    · exact absurd hs nofun

theorem enter_inside {i : ι} (hs : step s (.enter i) = some s') : s'.sites i = .enters := by
  unfold step at hs
  simp only at hs
  split at hs
  · obtain rfl := Option.some.inj hs
    exact Function.update_self ..
  · exact absurd hs nofun

theorem leave_outside {i : ι} (hs : step s (.leave i) = some s') : s.sites i = .leaves ∧ s'.sites i = .out := by
  unfold step at hs
  simp only at hs
  split at hs
  · next hsite =>
    obtain rfl := Option.some.inj hs
    exact ⟨hsite, Function.update_self ..⟩
  · exact absurd hs nofun

end Steps

/-- **No wake-up is lost**: where the flag is set and every signaller is done, nobody rests. -/
theorem signalled {s : State ι} (h : Inv s) (hflag : s.flag = true) (hquiet : s.Quiet) (i : ι) :
    (s.sites i).rests = false := by
  by_contra hrests
  rcases h.pending i (Bool.eq_true_of_not_eq_false hrests) hflag with hpending | hpending
  · exact absurd hpending (by rw [hquiet.1]; exact Nat.lt_irrefl 0)
  · exact hquiet.2.1 hpending

/-! ## What is left -/

/-- The operations that a waiter makes until it is out, where the flag is set. -/
def Site.left : Site → Nat
  | .out => 0
  | .leaves => 1
  | .checks | .wakes true => 2
  | .enters | .wakes false => 3
  | .sleeps | .asleep => 4

/-- The waiter that makes the move. -/
def Move.waiter : Move ι → Option ι
  | .acquire i | .check i | .sleep i | .wake i _ | .leave i => some i
  | _ => none

/-- The flag is set, and nobody rests. -/
def State.Awake (s : State ι) : Prop := s.flag = true ∧ ∀ i, (s.sites i).rests = false

section Left
variable [DecidableEq ι] {s s' : State ι}

theorem State.Awake.goes {i : ι} {site : Site} (h : s.Awake) (hsite : site.rests = false) : (s.goes i site).Awake := by
  refine ⟨h.1, fun j => ?_⟩
  show (Function.update s.sites i site j).rests = false
  by_cases hj : j = i
  · rw [hj, Function.update_self]
    exact hsite
  · rw [Function.update_of_ne hj]
    exact h.2 j

theorem State.goes_left {i : ι} {site : Site} (h : site.left < (s.sites i).left) :
    ((s.goes i site).sites i).left < (s.sites i).left := by
  show (Function.update s.sites i site i).left < _
  rwa [Function.update_self]

/-- Where nobody rests, nobody comes to rest until the flag is cleared, and every operation of a waiter is one less. -/
theorem step_left {m : Move ι} (h : s.Awake) (hm : m ≠ .clear) (hs : step s m = some s') :
    s'.Awake ∧ ∀ i, m.waiter = some i → (s'.sites i).left < (s.sites i).left := by
  unfold step at hs
  cases m with
  | clear => exact absurd rfl hm
  | enter i =>
    simp only at hs
    split at hs
    · obtain rfl := Option.some.inj hs
      exact ⟨h.goes rfl, nofun⟩
    · exact absurd hs nofun
  | acquire i =>
    simp only at hs
    split at hs
    · split at hs
      · next hsite =>
        obtain rfl := Option.some.inj hs
        refine ⟨h.goes (show Site.rests .checks = false from rfl), fun j hj => ?_⟩
        obtain rfl := Option.some.inj hj
        exact s.goes_left (by rw [hsite]; decide)
      · next hsite =>
        obtain rfl := Option.some.inj hs
        refine ⟨h.goes (show Site.rests .checks = false from rfl), fun j hj => ?_⟩
        obtain rfl := Option.some.inj hj
        exact s.goes_left (by rw [hsite]; decide)
      · next hsite =>
        obtain rfl := Option.some.inj hs
        refine ⟨h.goes (show Site.rests .leaves = false from rfl), fun j hj => ?_⟩
        obtain rfl := Option.some.inj hj
        exact s.goes_left (by rw [hsite]; decide)
      · exact absurd hs nofun
    · exact absurd hs nofun
  | check i =>
    simp only [h.1, if_true] at hs
    split at hs
    · next hsite =>
      obtain rfl := Option.some.inj hs
      refine ⟨h.goes rfl, fun j hj => ?_⟩
      obtain rfl := Option.some.inj hj
      exact s.goes_left (by rw [hsite]; decide)
    · exact absurd hs nofun
  | sleep i | wake i timedOut =>
    simp only at hs
    split at hs
    · next hsite =>
      have hrests := h.2 i
      rw [hsite] at hrests
      exact absurd hrests nofun
    · exact absurd hs nofun
  | leave i =>
    simp only at hs
    split at hs
    · next hsite =>
      obtain rfl := Option.some.inj hs
      refine ⟨h.goes (show Site.rests .out = false from rfl), fun j hj => ?_⟩
      obtain rfl := Option.some.inj hj
      exact s.goes_left (by rw [hsite]; decide)
    · exact absurd hs nofun
  | set =>
    obtain rfl := Option.some.inj hs
    exact ⟨⟨rfl, h.2⟩, nofun⟩
  | take | release =>
    simp only at hs
    split at hs
    · obtain rfl := Option.some.inj hs
      exact ⟨h, nofun⟩
    · exact absurd hs nofun
  | broadcast =>
    simp only at hs
    split at hs
    · obtain rfl := Option.some.inj hs
      refine ⟨⟨h.1, fun i => ?_⟩, nofun⟩
      have hrests := h.2 i
      show (s.sites i).woken.rests = false
      cases hsite : s.sites i with
      | asleep => rfl
      | _ =>
        rw [hsite] at hrests
        exact hrests
    · exact absurd hs nofun

/-- What is no waiter's leaves them where they are. -/
theorem step_sites {m : Move ι} (h : s.Awake) (hm : m.waiter = none) (henter : ∀ i, m ≠ .enter i) (hs : step s m = some s') :
    s'.sites = s.sites := by
  unfold step at hs
  cases m with
  | enter i => exact absurd rfl (henter i)
  | acquire | check | sleep | wake | leave => exact absurd hm nofun
  | set | clear =>
    obtain rfl := Option.some.inj hs
    rfl
  | take | release =>
    simp only at hs
    split at hs
    · obtain rfl := Option.some.inj hs
      rfl
    · exact absurd hs nofun
  | broadcast =>
    simp only at hs
    split at hs
    · obtain rfl := Option.some.inj hs
      funext i
      have hrests := h.2 i
      show (s.sites i).woken = s.sites i
      cases hsite : s.sites i with
      | asleep =>
        rw [hsite] at hrests
        exact absurd hrests nofun
      | _ => rfl
    · exact absurd hs nofun

end Left

end Monitor
