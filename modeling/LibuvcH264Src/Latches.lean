import LibuvcH264Src.Simulation

/-!
# The one-shots of the recovery

* `Armed`, `Spaced` : the two latches, the frame counter and the port resets, against the log;
* `rearmed_together` : the deep one-shot is armed where the reset one is, as long as no frame arms the
  reset again behind a deep recovery of the session;
* `resets_spaced` : between two port resets of a session, so many buffers were returned as the property
  asks for, and each was allowed by the properties.
-/

namespace LibuvcH264Src
open AnnexB Caps Prog

/-! ## What the log says about the latches -/

/-- A deep recovery ran in the session. -/
def deepSince : List Event → Bool
  | [] => false
  | .sessionReset :: _ => false
  | .deepRecovery :: _ => true
  | _ :: log => deepSince log

/-- The buffers that were returned since the last wedge recovery of the session began. -/
def framesSince : List Event → Nat
  | [] => 0
  | .sessionReset :: _ => 0
  | .wedgeRecovery :: _ => 0
  | .returned _ :: log => framesSince log + 1
  | _ :: log => framesSince log

/-- No frame arms the port reset again in a session that had its deep recovery. -/
def rearmsApart : List Event → Bool
  | [] => true
  | .returned (some rearm) :: log =>
    (!deepSince log || decide (framesSince log + 1 < rearm.toNat)) && rearmsApart log
  | _ :: log => rearmsApart log

/-- The buffers that were returned since the last port reset of the session, if there was one. -/
def sinceReset : List Event → Option Nat
  | [] => none
  | .sessionReset :: _ => none
  | .portReset _ :: _ => some 0
  | .returned _ :: log => (sinceReset log).map (· + 1)
  | _ :: log => sinceReset log

/-- `reset-rearm-frames` is `n` all through the session. -/
def RearmFixed (n : UInt32) : List Event → Prop
  | [] => (propsOf []).resetRearmFrames = n
  | .sessionReset :: log => (propsOf log).resetRearmFrames = n
  | .meanwhile others :: log => (propsOf (.meanwhile others :: log)).resetRearmFrames = n ∧ RearmFixed n log
  | _ :: log => RearmFixed n log

/-- `reconnect` was read off, with nothing but idle entries since. -/
def ReconnectOff (log : List Event) : Prop :=
  ∃ idle older, log = idle ++ older ∧ (∀ e ∈ idle, e.Idle) ∧ (propsOf older).reconnect = false

/-- The running call of `create` decided on a wedge recovery, and reset no port since. -/
def Allowed : List Event → Prop
  | [] => False
  | .wedgeRecovery :: log => (propsOf log).autoPortReset = true ∧ ReconnectOff log
  | .called _ :: _ => False
  | .portReset _ :: _ => False
  | _ :: log => Allowed log

/-- The port resets of the log are apart and allowed. -/
def ResetsSpaced : List Event → Prop
  | [] => True
  | .portReset _ :: log =>
    (∀ n k, RearmFixed n log → sinceReset log = some k → n.toNat ≤ k) ∧ Allowed log ∧ ResetsSpaced log
  | _ :: log => ResetsSpaced log

theorem RearmFixed.now {n : UInt32} {log : List Event} (h : RearmFixed n log) :
    (propsOf log).resetRearmFrames = n := by
  induction log with
  | nil => exact h
  | cons e log ih =>
    cases e
    case sessionReset => exact h
    case meanwhile others => exact h.1
    all_goals exact ih h

theorem RearmFixed.of_idle {n : UInt32} {idle log : List Event} (hidle : ∀ e ∈ idle, e.Idle)
    (h : RearmFixed n (idle ++ log)) : RearmFixed n log := by
  induction idle with
  | nil => exact h
  | cons e idle ih =>
    have hrest := ih fun e' he' => hidle e' (List.mem_cons_of_mem e he')
    have he := hidle e List.mem_cons_self
    cases e
    case meanwhile others => exact hrest h.2
    case pushed | discarded | time => exact hrest h
    all_goals exact he.elim

/-! ## The deep recovery -/

/-- A wedge recovery is under way. -/
def Progress.isRecovering : Progress → Bool
  | .recovering _ | .settling | .proven | .holding true => true
  | _ => false

/-- The latches, the counter and what the log says. -/
structure Armed (isRecovering : Bool) (used : Bool) (frames : UInt32) (deepUsed : Bool) (deep : Bool)
    (count : Nat) (apart : Bool) : Prop where
  deep : deepUsed = deep
  counted : used = true → frames.toNat = count ∧ count + 1 < 2 ^ 32
  recovering : isRecovering = true → used = true
  armed : apart = true → used = false → deepUsed = false

def Stage.Armed (s : Stage) (w : World) : Prop :=
  LibuvcH264Src.Armed s.progress.isRecovering w.own.resetRecoveryUsed w.own.framesSinceReset w.own.deepRecoveryUsed
    (deepSince w.log) (framesSince w.log) (rearmsApart w.log)

theorem log_others {α : Type} {f : List Event → α} (hf : ∀ e log, e.Idle → f (e :: log) = f log)
    (w : World) (others : List Interference) (budget : Nat) :
    f (w.others others budget).log = f w.log :=
  (others_calm w others budget).eq (f := fun _ log => f log) fun _ e log he => hf e log he

theorem deepSince_idle {e : Event} (log : List Event) (he : e.Idle) : deepSince (e :: log) = deepSince log := by
  cases e <;> first | rfl | exact he.elim

theorem framesSince_idle {e : Event} (log : List Event) (he : e.Idle) :
    framesSince (e :: log) = framesSince log := by
  cases e <;> first | rfl | exact he.elim

theorem rearmsApart_idle {e : Event} (log : List Event) (he : e.Idle) :
    rearmsApart (e :: log) = rearmsApart log := by
  cases e <;> first | rfl | exact he.elim

/-- A frame that is counted does not overflow the counter, and arms the reset where it reaches the count. -/
theorem counted_frame {frames : UInt32} {count : Nat} (rearm : UInt32) (hcount : frames.toNat = count)
    (hlt : count + 1 < 2 ^ 32) :
    (frames + 1).toNat = count + 1 ∧ (frames + 1 < rearm ↔ count + 1 < rearm.toNat) := by
  have hnext : (frames + 1).toNat = count + 1 := by
    rw [UInt32.toNat_add, hcount]
    exact Nat.mod_eq_of_lt hlt
  exact ⟨hnext, by rw [UInt32.lt_iff_toNat_lt, hnext]⟩

/-- Before the port reset of a wedge recovery. -/
def Progress.awaitsReset : Progress → Bool
  | .recovering false => true
  | _ => false

/-- No call begins in a recovery. -/
theorem called_progress {s : Stage} {call : VCall} (htakes : s.Takes call) :
    (s.called call).progress.isRecovering = false ∧ (s.called call).progress.awaitsReset = false := by
  have hrest : s.progress.AtRest := by
    cases call
    case create => exact htakes.1.2
    all_goals exact htakes.2
  have hkept : (s.called call).progress = .fresh ∨ (s.called call).progress = s.progress := by
    obtain ⟨grip, progress⟩ := s
    cases call
    case negotiate => cases grip <;> exact Or.inl rfl
    case create => cases grip <;> exact Or.inr rfl
    all_goals exact Or.inr rfl
  rcases hkept with hfresh | hsame
  · rw [hfresh]
    exact ⟨rfl, rfl⟩
  · rw [hsame]
    generalize s.progress = progress at hrest
    cases progress <;> first | exact ⟨rfl, rfl⟩ | exact hrest.elim

theorem Step.armed {g : Gst} {s s' : Stage} {w w' : World} (hs : Step g s w s' w') (h : s.Armed w) :
    s'.Armed w' := by
  cases hs
  case others others budget =>
    unfold Stage.Armed
    rw [others_own, log_others (fun e log he => deepSince_idle log he),
      log_others (fun e log he => framesSince_idle log he), log_others (fun e log he => rearmsApart_idle log he)]
    exact h
  case plain e he => cases e <;> first | exact h | exact he.elim
  case call call htakes =>
    have hcalm := (called_progress htakes).1
    exact ⟨h.deep, h.counted, fun hr => absurd (hcalm.symm.trans hr) nofun, h.armed⟩
  case wedge =>
    exact ⟨h.deep, fun _ => ⟨rfl, Nat.one_lt_two_pow (by decide)⟩, fun _ => rfl, fun _ hused => absurd hused nofun⟩
  case portReset rc => exact ⟨h.deep, h.counted, fun _ => h.recovering rfl, h.armed⟩
  case calmed => exact ⟨h.deep, h.counted, nofun, h.armed⟩
  case deep grip hdeep =>
    have hused := h.recovering rfl
    exact ⟨rfl, h.counted, h.recovering, fun _ hfree => absurd (hused.symm.trans hfree) nofun⟩
  case returnCounted buf hused hpop hheard =>
    obtain ⟨hcount, hlt⟩ := h.counted hused
    obtain ⟨hnext, hrearm⟩ := counted_frame w.props.resetRearmFrames hcount hlt
    refine ⟨h.deep, fun hstill => ⟨hnext, ?_⟩, nofun, fun hapart hfree => ?_⟩
    · have hbelow := hrearm.mp (of_decide_eq_true hstill)
      have hsize : w.props.resetRearmFrames.toNat < 2 ^ 32 := w.props.resetRearmFrames.toNat_lt
      show framesSince w.log + 1 + 1 < 2 ^ 32
      omega
    · -- the frame armed the reset, so no deep recovery ran before it
      have hreached : ¬ framesSince w.log + 1 < w.props.resetRearmFrames.toNat :=
        fun hbelow => of_decide_eq_false hfree (hrearm.mpr hbelow)
      obtain ⟨hfirst, -⟩ := Bool.and_eq_true_iff.mp hapart
      rw [decide_eq_false hreached, Bool.or_false] at hfirst
      exact h.deep.trans (by simpa using hfirst)
  case returnPlain buf hused hpop hheard =>
    exact ⟨h.deep, fun hcounted => absurd (hused.symm.trans hcounted) nofun, nofun, h.armed⟩
  case session => exact ⟨rfl, nofun, nofun, fun _ _ => rfl⟩
  case pop grip recovery => cases recovery <;> exact h
  case drop grip recovery items hitems => cases recovery <;> exact h
  case lookFor n devs => cases devs <;> exact h
  case settle => exact ⟨h.deep, h.counted, nofun, h.armed⟩
  all_goals exact h

theorem Staged.armed {g : Gst} {budget : Nat} {s : Stage} {w : World} (h : Staged g budget s w) :
    s.Armed w := by
  induction h with
  | init => exact ⟨rfl, nofun, nofun, fun _ _ => rfl⟩
  | step _ hs ih => exact hs.armed ih

/-- **The one-shots are armed together**, in every state of a run in which no frame arms the reset again
behind a deep recovery of its session. -/
theorem rearmed_together (env : Env) (g : Gst) (budget : Nat) (es : List HostEvent) (h : Host)
    (hr : Reaches env g budget es h) (hapart : rearmsApart h.world.log = true)
    (harmed : h.world.own.resetRecoveryUsed = false) : h.world.own.deepRecoveryUsed = false := by
  obtain ⟨s, -, hs⟩ := reaches_staged hr
  exact hs.armed.armed hapart harmed

/-- A delivery of one IDR picture. -/
def idrDelivery : List Byte := [0x00, 0x00, 0x00, 0x01, 0x65, 0x88]

/-- A delivery while `alive` does not have its buffer yet. -/
def deliverOnce (alive : List Event → Bool) (log : List Event) : List Interference :=
  if alive log && !log.any fun e => match e with | .pushed _ => true | _ => false then
    [.frame ⟨0, 0⟩ (some idrDelivery)]
  else []

/-- The camera is silent until a deep recovery brings it back, for one frame. The clock runs fast while
the device is away. -/
def wedgedCamera : Env :=
  { oneCamera with
    meanwhile := deliverOnce deepSince
    monotonicTime := fun log => if deepSince log then 10000000000 else 10000000 * log.length
    captureTarget := fun _ _ _ => some ⟨[], [], 0x1234, 0x5678⟩
    deepRecoveryRun := fun _ _ => .portCycled }

/-- A session with `deep-port-recovery` on, up to the first frame. -/
def wedgedSession (resetRearmFrames : UInt32) : List HostEvent :=
  [.other (.setClock true), .other (.setProperty (.resetRearmFrames resetRearmFrames)),
    .other (.setProperty (.deepPortRecovery true)), .call .start, .call .negotiate, .call .create]

/-- The device escalates, and a second session begins. -/
theorem rearmed_together_restart :
    ∃ h, Reaches wedgedCamera plainGst 200 (wedgedSession 30 ++ [.call .stop, .call .start]) h ∧
      h.world.own.deepRecoveryUsed = false := by
  have hrun : ∃ h ∈ Runs.run (hostStep wedgedCamera plainGst) (.init 200)
      (wedgedSession 30 ++ [.call .stop, .call .start]),
      rearmsApart h.world.log = true ∧ h.world.own.resetRecoveryUsed = false := by
    decide +kernel
  obtain ⟨h, hr, hapart, harmed⟩ := hrun
  exact ⟨h, hr, rearmed_together wedgedCamera plainGst 200 _ h hr hapart harmed⟩

/-- The first frame behind the escalation arms the reset, and not the deep recovery. -/
theorem not_rearmed_together :
    ¬ ∀ (env : Env) (g : Gst) (budget : Nat) (es : List HostEvent) (h : Host), Reaches env g budget es h →
      h.world.own.resetRecoveryUsed = false → h.world.own.deepRecoveryUsed = false := by
  have hrun : ∃ h ∈ Runs.run (hostStep wedgedCamera plainGst) (.init 200) (wedgedSession 1),
      h.world.own.resetRecoveryUsed = false ∧ h.world.own.deepRecoveryUsed = true := by
    decide +kernel
  obtain ⟨h, hr, harmed, hused⟩ := hrun
  intro hall
  exact absurd ((hall wedgedCamera plainGst 200 _ h hr harmed).symm.trans hused) nofun

/-! ## The port resets -/

/-- The latch, the counter and the port resets that the log shows; `fixed` is what the number of frames
is fixed at. -/
structure Spaced (awaitsReset : Bool) (used : Bool) (count : Nat) (fixed : UInt32 → Prop)
    (since : Option Nat) (allowed spaced : Prop) : Prop where
  counting : ∀ k, since = some k → used = true → count ≤ k
  armed : ∀ n k, fixed n → since = some k → used = false ∨ awaitsReset = true → n.toNat ≤ k
  begun : awaitsReset = true → count = 0
  allowed : awaitsReset = true → allowed
  spaced : spaced

def Stage.Spaced (s : Stage) (w : World) : Prop :=
  LibuvcH264Src.Spaced s.progress.awaitsReset w.own.resetRecoveryUsed (framesSince w.log) (RearmFixed · w.log)
    (sinceReset w.log) (Allowed w.log) (ResetsSpaced w.log)

theorem sinceReset_idle {e : Event} (log : List Event) (he : e.Idle) : sinceReset (e :: log) = sinceReset log := by
  cases e <;> first | rfl | exact he.elim

theorem allowed_idle {e : Event} (log : List Event) (he : e.Idle) : Allowed (e :: log) = Allowed log := by
  cases e <;> first | rfl | exact he.elim

theorem resetsSpaced_idle {e : Event} (log : List Event) (he : e.Idle) :
    ResetsSpaced (e :: log) = ResetsSpaced log := by
  cases e <;> first | rfl | exact he.elim

theorem Step.spaced {g : Gst} {s s' : Stage} {w w' : World} (hs : Step g s w s' w') (hl : s.Armed w)
    (hp : w.props = propsOf w.log) (h : s.Spaced w) : s'.Spaced w' := by
  cases hs
  case others others budget =>
    have hfixed : ∀ n, RearmFixed n (w.others others budget).log → RearmFixed n w.log := by
      obtain ⟨-, idle, hidle, hlog⟩ := others_calm w others budget
      rw [hlog]
      exact fun n => RearmFixed.of_idle hidle
    unfold Stage.Spaced
    rw [others_own, log_others (fun e log he => framesSince_idle log he),
      log_others (fun e log he => sinceReset_idle log he), log_others (fun e log he => allowed_idle log he),
      log_others (fun e log he => resetsSpaced_idle log he)]
    exact ⟨h.counting, fun n k hn => h.armed n k (hfixed n hn), h.begun, h.allowed, h.spaced⟩
  case plain e he => cases e <;> first | exact h | exact he.elim
  case call call htakes =>
    have hcalm := (called_progress htakes).2
    have hnot : (s.called call).progress.awaitsReset ≠ true := by
      rw [hcalm]
      nofun
    exact ⟨h.counting, fun n k hn hk hor => h.armed n k hn hk (Or.inl (hor.resolve_right hnot)),
      fun hr => absurd hr hnot, fun hr => absurd hr hnot, h.spaced⟩
  case wedge grip idle log hidle hreconnect hused hauto hlog =>
    exact ⟨fun k _ _ => Nat.zero_le k, fun n k hn hk _ => h.armed n k hn hk (Or.inl hused),
      fun _ => rfl, fun _ => ⟨hauto, idle, log, hlog, hidle, hreconnect⟩, h.spaced⟩
  case portReset grip rc =>
    have hused : w.own.resetRecoveryUsed = true := hl.recovering rfl
    refine ⟨fun k _ _ => ?_, fun n k _ _ hor => ?_, nofun, nofun, ?_, h.allowed rfl, h.spaced⟩
    · exact (h.begun rfl).le.trans (Nat.zero_le k)
    · exact absurd (hused.symm.trans (hor.resolve_right nofun)) nofun
    · exact fun n k hn hk => h.armed n k hn hk (Or.inr rfl)
  case calmed grip n hn =>
    exact ⟨h.counting, fun n k hn hk hor => h.armed n k hn hk (Or.inl (hor.resolve_right nofun)), nofun,
      nofun, h.spaced⟩
  case returnCounted buf hused hpop hheard =>
    have hmap : ∀ k, (sinceReset w.log).map (· + 1) = some k → ∃ k', sinceReset w.log = some k' ∧ k = k' + 1 := by
      intro k hk
      obtain ⟨k', hk', rfl⟩ := Option.map_eq_some_iff.mp hk
      exact ⟨k', hk', rfl⟩
    obtain ⟨hcount, hlt⟩ := hl.counted hused
    obtain ⟨hnext, hrearm⟩ := counted_frame w.props.resetRearmFrames hcount hlt
    refine ⟨fun k hk _ => ?_, fun n k hn hk hor => ?_, nofun, nofun, h.spaced⟩
    · obtain ⟨k', hk', rfl⟩ := hmap k hk
      exact Nat.succ_le_succ (h.counting k' hk' hused)
    · -- the frame that arms the reset is the one that reaches the count
      obtain ⟨k', hk', rfl⟩ := hmap k hk
      have hfree := hor.resolve_right nofun
      have hn' : w.props.resetRearmFrames = n := by
        rw [hp]
        exact RearmFixed.now hn
      have hreached : ¬ framesSince w.log + 1 < n.toNat := by
        rw [← hn']
        exact fun hbelow => of_decide_eq_false hfree (hrearm.mpr hbelow)
      have hcounting := h.counting k' hk' hused
      omega
  case returnPlain buf hused hpop hheard =>
    refine ⟨fun k _ hu => absurd (hused.symm.trans hu) nofun, fun n k hn hk _ => ?_, nofun, nofun,
      h.spaced⟩
    obtain ⟨k', hk', rfl⟩ := Option.map_eq_some_iff.mp hk
    exact Nat.le_succ_of_le (h.armed n k' hn hk' (Or.inl hused))
  case session => exact ⟨nofun, nofun, nofun, nofun, h.spaced⟩
  case pop grip recovery => cases recovery <;> exact h
  case drop grip recovery items hitems => cases recovery <;> exact h
  case lookFor n devs => cases devs <;> exact h
  case settle => exact ⟨h.counting, fun n k hn hk hor => h.armed n k hn hk (Or.inl (hor.resolve_right nofun)), nofun,
      nofun, h.spaced⟩
  all_goals exact h

theorem Staged.spaced {g : Gst} {budget : Nat} {s : Stage} {w : World} (h : Staged g budget s w) :
    s.Spaced w := by
  induction h with
  | init => exact ⟨nofun, nofun, nofun, nofun, trivial⟩
  | step hw hs ih => exact hs.spaced hw.armed hw.props ih

theorem ResetsSpaced.at_reset {newer older : List Event} {rc : Int}
    (h : ResetsSpaced (newer ++ .portReset rc :: older)) :
    (∀ n k, RearmFixed n older → sinceReset older = some k → n.toNat ≤ k) ∧ Allowed older := by
  induction newer with
  | nil => exact ⟨h.1, h.2.1⟩
  | cons e newer ih =>
    cases e
    case portReset => exact ih h.2.2
    all_goals exact ih h

/-- No entry sets a property. -/
def Unset (log : List Event) : Prop :=
  ∀ others, Event.meanwhile others ∈ log → ∀ i ∈ others, ∀ property, i ≠ .setProperty property

theorem propsOf_unset {newer older : List Event} (h : Unset newer) : propsOf (newer ++ older) = propsOf older := by
  have hset : ∀ (others : List Interference) (props : Props),
      (∀ i ∈ others, ∀ property, i ≠ .setProperty property) → others.foldl Props.set props = props := by
    intro others props hnone
    induction others with
    | nil => rfl
    | cons i rest ih =>
      have hi : props.set i = props := by
        cases i
        case setProperty property => exact absurd rfl (hnone _ List.mem_cons_self property)
        all_goals rfl
      rw [List.foldl_cons, hi]
      exact ih fun i' hi' => hnone i' (List.mem_cons_of_mem i hi')
  induction newer with
  | nil => rfl
  | cons e newer ih =>
    have hrest := ih fun others ho => h others (List.mem_cons_of_mem e ho)
    cases e
    case meanwhile others =>
      show others.foldl Props.set (propsOf (newer ++ older)) = _
      rw [hset others _ (h others List.mem_cons_self), hrest]
    all_goals exact hrest

/-- What was decided on, and what happened since. -/
theorem Allowed.decided {log : List Event} (h : Allowed log) :
    ∃ since idle older, log = since ++ .wedgeRecovery :: (idle ++ older) ∧ (∀ e ∈ idle, e.Idle) ∧
      (∀ call, .called call ∉ since) ∧ (∀ rc, .portReset rc ∉ since) ∧
      (propsOf older).reconnect = false ∧ (propsOf (idle ++ older)).autoPortReset = true := by
  induction log with
  | nil => exact h.elim
  | cons e log ih =>
    have hcons : (∀ call, e ≠ .called call) → (∀ rc, e ≠ .portReset rc) → Allowed log →
        ∃ since idle older, e :: log = since ++ .wedgeRecovery :: (idle ++ older) ∧ (∀ e ∈ idle, e.Idle) ∧
          (∀ call, .called call ∉ since) ∧ (∀ rc, .portReset rc ∉ since) ∧
          (propsOf older).reconnect = false ∧ (propsOf (idle ++ older)).autoPortReset = true := by
      intro hcalled hreset hlog
      obtain ⟨since, idle, older, rfl, hidle, hcalls, hresets, hprops⟩ := ih hlog
      refine ⟨e :: since, idle, older, rfl, hidle, fun call hmem => ?_, fun rc hmem => ?_, hprops⟩
      · rcases List.mem_cons.mp hmem with he | hmem
        · exact hcalled call he.symm
        · exact hcalls call hmem
      · rcases List.mem_cons.mp hmem with he | hmem
        · exact hreset rc he.symm
        · exact hresets rc hmem
    cases e
    case wedgeRecovery =>
      obtain ⟨hauto, idle, older, rfl, hidle, hreconnect⟩ := h
      exact ⟨[], idle, older, rfl, hidle, nofun, nofun, hreconnect, hauto⟩
    case called | portReset => exact h.elim
    all_goals exact hcons nofun nofun h

/-- What is behind a port reset that just succeeded. -/
def behindReset : List Event → Option (List Event)
  | .portReset 0 :: older => some older
  | _ => none

theorem behindReset_eq {log older : List Event} (h : behindReset log = some older) : log = .portReset 0 :: older := by
  unfold behindReset at h
  split at h
  · rw [Option.some.inj h]
  · cases h

end LibuvcH264Src
