import LibuvcH264Src.Session
import LibuvcH264Src.Runs

/-!
# The time base under interleaving

* `TimeLine`, `timeStep` : `frame_callback` as its lock-protected steps, among the resets of the time
  base and the pipeline's assignments of the element's base time;
* `Observed`, `observe` : the same with a record of every stamp and of the resets around it;
* `Rebaselined` : a stamp behind a resume is the running time, or one tick behind a stamp of the same
  resume;
* `Prompt` : no store and no stamp of a callback that a reset overtook, and no stamp between a new
  base time and the reset it announces;
* `frameCallback_steps` : undisturbed, the steps do what `frameCallback` does;
* `rebaselined_of_prompt` : prompt runs stamp as they should;
* `stale_base_time` : a run that is not prompt and does not.
-/

namespace LibuvcH264Src
open AnnexB Runs

/-! ## The steps -/

/-- Where the callback in flight stands. The feeder runs one callback at a time. -/
inductive Callback where
  | idle
  | snapshotted (snapshot : UInt64)
  | timed (now : UInt64)
  | baseRead (now base : UInt64)
  | stamping (now base : UInt64)
  deriving DecidableEq

/-- The instance, the base time of the element and the callback. -/
structure TimeLine where
  self : StreamState
  elementBase : UInt64
  callback : Callback
  deriving DecidableEq

inductive TimeEvent where
  | begin
  | readClock (now : UInt64)
  | readElementBase
  | storeBase
  | stampAu
  | finish
  | setClock (clock : Bool)
  | changeState (transition : StateChange)
  | assignBaseTime (base : UInt64)
  deriving DecidableEq

/-- One atomic step; `none` where it cannot happen. -/
def timeStep (t : TimeLine) (e : TimeEvent) : Option TimeLine :=
  match e, t.callback with
  | .begin, .idle =>
    match snapshotClock t.self with
    | some snapshot => some { t with callback := .snapshotted snapshot }
    | none => some t
  | .readClock now, .snapshotted snapshot =>
    if snapshot = clockTimeNone then some { t with callback := .timed now }
    else some { t with callback := .stamping now snapshot }
  | .readElementBase, .timed now => some { t with callback := .baseRead now t.elementBase }
  | .storeBase, .baseRead now base =>
    some { t with self := { t.self with baseTime := base }, callback := .stamping now base }
  | .stampAu, .stamping now base => some { t with self := (stampPts t.self (now - base)).1 }
  | .finish, .stamping _ _ => some { t with callback := .idle }
  | .setClock clock, _ => some { t with self := LibuvcH264Src.setClock t.self clock }
  | .changeState transition, _ =>
    some { t with self := LibuvcH264Src.changeState t.self transition }
  | .assignBaseTime base, _ => some { t with elementBase := base }
  | _, _ => none

section Steps
variable (self : StreamState) (elementBase now base : UInt64)

@[simp] theorem timeStep_begin :
    timeStep ⟨self, elementBase, .idle⟩ .begin =
      match snapshotClock self with
      | some snapshot => some ⟨self, elementBase, .snapshotted snapshot⟩
      | none => some ⟨self, elementBase, .idle⟩ := rfl

@[simp] theorem timeStep_readClock (snapshot : UInt64) :
    timeStep ⟨self, elementBase, .snapshotted snapshot⟩ (.readClock now) =
      if snapshot = clockTimeNone then some ⟨self, elementBase, .timed now⟩
      else some ⟨self, elementBase, .stamping now snapshot⟩ := rfl

@[simp] theorem timeStep_readElementBase :
    timeStep ⟨self, elementBase, .timed now⟩ .readElementBase =
      some ⟨self, elementBase, .baseRead now elementBase⟩ := rfl

@[simp] theorem timeStep_storeBase :
    timeStep ⟨self, elementBase, .baseRead now base⟩ .storeBase =
      some ⟨{ self with baseTime := base }, elementBase, .stamping now base⟩ := rfl

@[simp] theorem timeStep_stampAu :
    timeStep ⟨self, elementBase, .stamping now base⟩ .stampAu =
      some ⟨(stampPts self (now - base)).1, elementBase, .stamping now base⟩ := rfl

@[simp] theorem timeStep_finish :
    timeStep ⟨self, elementBase, .stamping now base⟩ .finish = some ⟨self, elementBase, .idle⟩ := rfl

end Steps

/-- A step with the callback written out. -/
theorem timeStep_at {t : TimeLine} {callback : Callback} (hc : t.callback = callback) (e : TimeEvent) :
    timeStep t e = timeStep ⟨t.self, t.elementBase, callback⟩ e := by
  rw [← hc]

/-! ## What is observed -/

/-- A stamp, with the element's base time and the previous stamp at that moment, and for the callbacks
that made the two of them how many resets came before they began. -/
structure Stamp where
  pts : UInt64
  now : UInt64
  elementBase : UInt64
  prevPts : UInt64
  begun : Nat
  prevBegun : Nat
  resumed : Bool
  deriving DecidableEq

/-- The time line with its record: the number of resets so far, whether the last one was a resume, both
as the callback in flight found them, whether the element's base time was assigned since the last
reset, and the resets before the callback that wrote `prev_pts`. -/
structure Observed where
  line : TimeLine
  resets : Nat
  resumed : Bool
  begun : Nat
  begunResumed : Bool
  reassigned : Bool
  prevBegun : Nat
  stamps : List Stamp
  deriving DecidableEq

/-- The stamp that the callback in flight is about to make. -/
def Observed.nextStamp (o : Observed) (now base : UInt64) : Stamp where
  pts := (stampPts o.line.self (now - base)).2
  now := now
  elementBase := o.line.elementBase
  prevPts := o.line.self.prevPts
  begun := o.begun
  prevBegun := o.prevBegun
  resumed := o.begunResumed

/-- The record of a reset. -/
def Observed.reset (o : Observed) (resumed : Bool) : Observed :=
  { o with resets := o.resets + 1, resumed := resumed, reassigned := false }

/-- The record of one event. -/
def Observed.record (o : Observed) : TimeEvent → Observed
  | .begin => { o with begun := o.resets, begunResumed := o.resumed }
  | .stampAu =>
    match o.line.callback with
    | .stamping now base =>
      { o with stamps := o.stamps ++ [o.nextStamp now base], prevBegun := o.begun }
    | _ => o
  | .setClock true => o.reset false
  | .changeState .pausedToPlaying => o.reset true
  | .assignBaseTime _ => { o with reassigned := true }
  | _ => o

def observe (o : Observed) (e : TimeEvent) : Option Observed :=
  (timeStep o.line e).map fun line => { o.record e with line := line }

/-- A stream that was just (re)opened. -/
def Observed.start (self : StreamState) (elementBase : UInt64) : Observed where
  line := ⟨rearmStream self, elementBase, .idle⟩
  resets := 0
  resumed := false
  begun := 0
  begunResumed := false
  reassigned := false
  prevBegun := 0
  stamps := []

/-- A stamp of a callback that began behind a resume, and before any later reset, is its running time,
or one tick behind the stamp of a callback that also began there. -/
def Rebaselined (s : Stamp) : Prop :=
  s.resumed = true → s.pts = s.now - s.elementBase ∨
    (s.prevPts ≠ clockTimeNone ∧ s.pts = s.prevPts + 1 ∧ s.prevBegun = s.begun)

/-- No reset came since the callback began when it stores or stamps, and none is announced by a new
base time when it stamps. -/
def Prompt (o : Observed) (e : TimeEvent) : Prop :=
  (e = .storeBase → o.begun = o.resets) ∧
    (e = .stampAu → o.begun = o.resets ∧ o.reassigned = false)

/-! ## The callback alone -/

/-- The two states agree on everything about time. -/
structure SameTime (s t : StreamState) : Prop where
  clock : s.clock = t.clock
  baseTime : s.baseTime = t.baseTime
  prevPts : s.prevPts = t.prevPts

/-- The steps of one callback with `n` stamps. -/
def callbackEvents (self : StreamState) (now : UInt64) (n : Nat) : List TimeEvent :=
  [.begin, .readClock now] ++
    (if self.baseTime = clockTimeNone then [.readElementBase, .storeBase] else []) ++
    (List.replicate n .stampAu ++ [.finish])

/-- A turn of the walk leaves the time as it is, or stamps once. -/
theorem deliverAu_time (ts : UInt64) (w : Walk) (au : List NalUnit) :
    (SameTime (deliverAu ts w au).self w.self ∧
        ∀ b ∈ (deliverAu ts w au).pushed, b ∈ w.pushed ∨ b.pts = clockTimeNone) ∨
      (SameTime (deliverAu ts w au).self { w.self with prevPts := nextPts w.self.prevPts ts } ∧
        ∀ b ∈ (deliverAu ts w au).pushed, b ∈ w.pushed ∨ b.pts = nextPts w.self.prevPts ts) := by
  have hl := latchSets_latched au w.self w.updated
  have hsame : SameTime (latchSets w.self w.updated au).1 w.self := by
    rw [hl.rest]; exact ⟨rfl, rfl, rfl⟩
  rw [deliverAu_eq]
  by_cases hd : dropsAu (latchSets w.self w.updated au).1 au = true
  · simp only [hd, if_true]
    exact Or.inl ⟨hsame, fun b hb => Or.inl hb⟩
  · simp only [hd, Bool.false_eq_true, if_false]
    cases hs : hasSlice au with
    | false =>
      refine Or.inl ⟨⟨hsame.clock, hsame.baseTime, hsame.prevPts⟩, fun b hb => ?_⟩
      rcases List.mem_append.mp hb with hb | hb
      · exact Or.inl hb
      · rw [List.mem_singleton.mp hb]
        exact Or.inr rfl
    | true =>
      have hprev : nextPts (afterFill (latchSets w.self w.updated au).1 au).prevPts ts =
          nextPts w.self.prevPts ts := congrArg (nextPts · ts) hsame.prevPts
      refine Or.inr ⟨⟨hsame.clock, hsame.baseTime, hprev⟩, fun b hb => ?_⟩
      rcases List.mem_append.mp hb with hb | hb
      · exact Or.inl hb
      · rw [List.mem_singleton.mp hb]
        exact Or.inr hprev

/-- The walk is a sequence of stamps. -/
theorem foldl_deliverAu_steps (now base : UInt64) (aus : List (List NalUnit)) :
    ∀ (w : Walk) (o : Observed), o.line.callback = .stamping now base →
      SameTime o.line.self w.self →
      (∀ b ∈ w.pushed, b.pts = clockTimeNone ∨ b.pts ∈ o.stamps.map Stamp.pts) →
      ∃ n o', run observe o (List.replicate n .stampAu) = some o' ∧
        o'.line.callback = .stamping now base ∧
        SameTime o'.line.self (aus.foldl (deliverAu (now - base)) w).self ∧
        ∀ b ∈ (aus.foldl (deliverAu (now - base)) w).pushed,
          b.pts = clockTimeNone ∨ b.pts ∈ o'.stamps.map Stamp.pts := by
  induction aus with
  | nil => intro w o hc hsame hb; exact ⟨0, o, rfl, hc, hsame, hb⟩
  | cons au aus ih =>
    intro w o hc hsame hb
    rw [List.foldl_cons]
    rcases deliverAu_time (now - base) w au with ⟨htime, hpushed⟩ | ⟨htime, hpushed⟩
    · refine ih _ o hc ⟨hsame.clock.trans htime.clock.symm, hsame.baseTime.trans htime.baseTime.symm,
        hsame.prevPts.trans htime.prevPts.symm⟩ fun b hmem => ?_
      exact (hpushed b hmem).elim (hb b) Or.inl
    · have hpts : (o.nextStamp now base).pts = nextPts w.self.prevPts (now - base) :=
        congrArg (nextPts · (now - base)) hsame.prevPts
      obtain ⟨o1, ho1⟩ : ∃ o1 : Observed, o1 =
          { o with
            line := { o.line with self := (stampPts o.line.self (now - base)).1 }
            stamps := o.stamps ++ [o.nextStamp now base]
            prevBegun := o.begun } := ⟨_, rfl⟩
      have hstep : observe o .stampAu = some o1 := by
        rw [ho1]
        simp only [observe, timeStep_at hc, timeStep_stampAu, Observed.record, hc, Option.map_some]
      have hsame1 : SameTime o1.line.self (deliverAu (now - base) w au).self := by
        rw [ho1]
        exact ⟨hsame.clock.trans htime.clock.symm, hsame.baseTime.trans htime.baseTime.symm,
          hpts.trans htime.prevPts.symm⟩
      have hb1 : ∀ b ∈ (deliverAu (now - base) w au).pushed,
          b.pts = clockTimeNone ∨ b.pts ∈ o1.stamps.map Stamp.pts := by
        intro b hmem
        rw [ho1, List.map_append, List.mem_append]
        rcases hpushed b hmem with hold | hnew
        · exact (hb b hold).imp_right Or.inl
        · exact Or.inr (Or.inr (by rw [hnew, ← hpts]; exact List.mem_singleton_self _))
      obtain ⟨n, o', hrun, hc', hsame', hb'⟩ := ih _ o1 (by rw [ho1]; exact hc) hsame1 hb1
      exact ⟨n + 1, o', (run_cons_eq_some observe).mpr ⟨o1, hstep, hrun⟩, hc', hsame', hb'⟩

/-- Undisturbed, the steps of a callback do what `frame_callback` does, and stamp its buffers. -/
theorem frameCallback_steps (o : Observed) (hidle : o.line.callback = .idle)
    (hclock : o.line.self.clock = true) (now : UInt64) {data : List Byte} (h0 : data ≠ [])
    (hmax : data.length ≤ gMaxInt) :
    ∃ n o', run observe o (callbackEvents o.line.self now n) = some o' ∧
      o'.line.callback = .idle ∧
      SameTime o'.line.self (frameCallback o.line.self ⟨now, o.line.elementBase⟩ (some data)).self ∧
      ∀ b ∈ (frameCallback o.line.self ⟨now, o.line.elementBase⟩ (some data)).pushed,
        b.pts = clockTimeNone ∨ b.pts ∈ o'.stamps.map Stamp.pts := by
  have haccept : acceptsFrame (some data) = some data := by
    rw [acceptsFrame, if_neg]
    rintro (h | h)
    · exact h0 (List.length_eq_zero_iff.mp h)
    · omega
  have hsnap : snapshotClock o.line.self = some o.line.self.baseTime := by
    rw [snapshotClock, if_pos hclock]
  -- up to the stamps: the callback holds the base time that `latchBaseTime` takes
  have hfront : (run observe o ([.begin, .readClock now] ++
      if o.line.self.baseTime = clockTimeNone then [.readElementBase, .storeBase] else [])).map
        Observed.line =
      some ⟨(latchBaseTime o.line.self o.line.self.baseTime o.line.elementBase).1,
        o.line.elementBase,
        .stamping now (latchBaseTime o.line.self o.line.self.baseTime o.line.elementBase).2⟩ := by
    by_cases hnone : o.line.self.baseTime = clockTimeNone
    · simp [run, observe, timeStep_at hidle, Observed.record, hsnap, latchBaseTime, hnone]
    · simp [run, observe, timeStep_at hidle, Observed.record, hsnap, latchBaseTime, hnone]
  obtain ⟨o1, hrun1, hline⟩ := Option.map_eq_some_iff.mp hfront
  obtain ⟨n, o2, hrun2, hc2, hsame2, hb2⟩ := foldl_deliverAu_steps now
    (latchBaseTime o.line.self o.line.self.baseTime o.line.elementBase).2
    (deliveryAccessUnits o.line.self.frameFormat data)
    ⟨(latchBaseTime o.line.self o.line.self.baseTime o.line.elementBase).1, false, []⟩ o1
    (by rw [hline]) (by rw [hline]; exact ⟨rfl, rfl, rfl⟩) (fun b hb => by cases hb)
  have hfinish : observe o2 .finish = some { o2 with line := { o2.line with callback := .idle } } := by
    simp only [observe, timeStep_at hc2, timeStep_finish, Observed.record, Option.map_some]
  refine ⟨n, { o2 with line := { o2.line with callback := .idle } }, ?_, rfl, ?_⟩
  · rw [callbackEvents, run_append_eq_some]
    exact ⟨o1, hrun1, (run_append_eq_some observe).mpr ⟨o2, hrun2,
      (run_cons_eq_some observe).mpr ⟨_, hfinish, rfl⟩⟩⟩
  · simp only [frameCallback, haccept, hsnap]
    exact ⟨⟨hsame2.clock, hsame2.baseTime, hsame2.prevPts⟩, hb2⟩

/-! ## Prompt runs -/

/-- The base time that a callback works with, if it has one. -/
def Callback.base : Callback → Option UInt64
  | .snapshotted snapshot => if snapshot = clockTimeNone then none else some snapshot
  | .baseRead _ base => some base
  | .stamping _ base => some base
  | _ => none

/-- Unless a new base time was assigned, what is cached is the element's, and so is what a callback
works with that no reset overtook; the last stamp is behind the last reset. -/
structure Observed.Fresh (o : Observed) : Prop where
  cached : o.reassigned = false →
    o.line.self.baseTime = clockTimeNone ∨ o.line.self.baseTime = o.line.elementBase
  working : o.begun = o.resets → o.reassigned = false →
    ∀ base ∈ o.line.callback.base, base = o.line.elementBase
  begun : o.begun ≤ o.resets
  prev : o.line.self.prevPts ≠ clockTimeNone → o.prevBegun = o.resets
  stamps : ∀ s ∈ o.stamps, Rebaselined s

theorem Observed.fresh_start (self : StreamState) (elementBase : UInt64) :
    (Observed.start self elementBase).Fresh where
  cached _ := Or.inl rfl
  working _ _ base h := by cases h
  begun := le_refl 0
  prev h := absurd rfl h
  stamps s h := by cases h

/-- A reset leaves nothing to compare with. -/
theorem Observed.Fresh.reset {o : Observed} (h : o.Fresh) (resumed : Bool) {line : TimeLine}
    (hbase : line.self.baseTime = clockTimeNone) (hprev : line.self.prevPts = clockTimeNone) :
    Observed.Fresh { o.reset resumed with line := line } := by
  have hbegun := h.begun
  refine ⟨fun _ => Or.inl hbase, fun hb => ?_, ?_, fun hp => absurd hprev hp, h.stamps⟩
  · have : o.begun = o.resets + 1 := hb
    omega
  · show o.begun ≤ o.resets + 1
    omega

/-- A prompt stamp is rebaselined, and the next one can follow it. -/
theorem Observed.Fresh.stamp {o : Observed} (h : o.Fresh) (hp : Prompt o .stampAu) {now base : UInt64}
    (hc : o.line.callback = .stamping now base) : Rebaselined (o.nextStamp now base) := by
  obtain ⟨hb, hr⟩ := hp.2 rfl
  have hbase : base = o.line.elementBase := h.working hb hr base (by rw [hc]; rfl)
  have hpts : (o.nextStamp now base).pts =
      if o.line.self.prevPts ≠ clockTimeNone ∧ now - base ≤ o.line.self.prevPts then
        o.line.self.prevPts + 1 else now - base := rfl
  intro _
  by_cases hclamp : o.line.self.prevPts ≠ clockTimeNone ∧ now - base ≤ o.line.self.prevPts
  · rw [if_pos hclamp] at hpts
    exact Or.inr ⟨hclamp.1, hpts, (h.prev hclamp.1).trans hb.symm⟩
  · rw [if_neg hclamp] at hpts
    exact Or.inl (hpts.trans (by rw [hbase]; rfl))

theorem Observed.Fresh.observe {o o' : Observed} {e : TimeEvent} (h : o.Fresh) (hp : Prompt o e)
    (ho : LibuvcH264Src.observe o e = some o') : o'.Fresh := by
  obtain ⟨line, hstep, rfl⟩ := Option.map_eq_some_iff.mp ho
  cases e with
  | setClock clock =>
    obtain rfl := Option.some.inj hstep
    cases clock with
    | true => exact h.reset false rfl rfl
    | false => exact ⟨h.cached, h.working, h.begun, h.prev, h.stamps⟩
  | changeState transition =>
    obtain rfl := Option.some.inj hstep
    cases transition with
    | pausedToPlaying => exact h.reset true rfl rfl
    | other => exact ⟨h.cached, h.working, h.begun, h.prev, h.stamps⟩
  | assignBaseTime base =>
    obtain rfl := Option.some.inj hstep
    exact ⟨fun hr => (by cases hr), fun _ hr => (by cases hr), h.begun, h.prev, h.stamps⟩
  | begin =>
    cases hc : o.line.callback with
    | idle =>
      rw [timeStep_at hc, timeStep_begin] at hstep
      simp only [snapshotClock] at hstep
      split_ifs at hstep with hclock
      · obtain rfl := Option.some.inj hstep
        refine ⟨h.cached, fun _ hr base hb => ?_, le_refl _, h.prev, h.stamps⟩
        -- the snapshot is the sentinel, or the cached base time, which is the element's
        simp only [Callback.base] at hb
        split_ifs at hb with hnone
        · cases hb
        · obtain rfl := Option.some.inj hb
          exact (h.cached hr).resolve_left hnone
      · obtain rfl := Option.some.inj hstep
        refine ⟨h.cached, fun _ hr base hb => ?_, le_refl _, h.prev, h.stamps⟩
        cases hb
    | _ => rw [timeStep_at hc] at hstep; cases hstep
  | readClock now =>
    cases hc : o.line.callback with
    | snapshotted snapshot =>
      rw [timeStep_at hc, timeStep_readClock] at hstep
      have hw := h.working
      rw [hc] at hw
      split_ifs at hstep with hnone
      · obtain rfl := Option.some.inj hstep
        exact ⟨h.cached, fun _ _ base hb => (by cases hb), h.begun, h.prev, h.stamps⟩
      · obtain rfl := Option.some.inj hstep
        refine ⟨h.cached, fun hb hr base hmem => ?_, h.begun, h.prev, h.stamps⟩
        exact hw hb hr base (by rw [Callback.base, if_neg hnone]; exact hmem)
    | _ => rw [timeStep_at hc] at hstep; cases hstep
  | readElementBase =>
    cases hc : o.line.callback with
    | timed now =>
      rw [timeStep_at hc, timeStep_readElementBase] at hstep
      obtain rfl := Option.some.inj hstep
      exact ⟨h.cached, fun _ _ base hb => (Option.some.inj hb).symm, h.begun, h.prev, h.stamps⟩
    | _ => rw [timeStep_at hc] at hstep; cases hstep
  | storeBase =>
    cases hc : o.line.callback with
    | baseRead now base =>
      rw [timeStep_at hc, timeStep_storeBase] at hstep
      obtain rfl := Option.some.inj hstep
      have hw := fun hr => h.working (hp.1 rfl) hr base (by rw [hc]; rfl)
      refine ⟨fun hr => Or.inr (hw hr), fun _ hr base' hb => ?_, h.begun, h.prev, h.stamps⟩
      obtain rfl := Option.some.inj hb
      exact hw hr
    | _ => rw [timeStep_at hc] at hstep; cases hstep
  | stampAu =>
    cases hc : o.line.callback with
    | stamping now base =>
      rw [timeStep_at hc, timeStep_stampAu] at hstep
      obtain rfl := Option.some.inj hstep
      have hrec : o.record .stampAu =
          { o with stamps := o.stamps ++ [o.nextStamp now base], prevBegun := o.begun } := by
        simp only [Observed.record, hc]
      rw [hrec]
      refine ⟨h.cached, fun hb hr base' hmem => ?_, h.begun, fun _ => (hp.2 rfl).1, fun s hs => ?_⟩
      · exact h.working hb hr base' (by rw [hc]; exact hmem)
      · rcases List.mem_append.mp hs with hs | hs
        · exact h.stamps s hs
        · rw [List.mem_singleton.mp hs]
          exact h.stamp hp hc
    | _ => rw [timeStep_at hc] at hstep; cases hstep
  | finish =>
    cases hc : o.line.callback with
    | stamping now base =>
      rw [timeStep_at hc, timeStep_finish] at hstep
      obtain rfl := Option.some.inj hstep
      exact ⟨h.cached, fun _ _ base hb => (by cases hb), h.begun, h.prev, h.stamps⟩
    | _ => rw [timeStep_at hc] at hstep; cases hstep

/-- **Rebaseline**: in a prompt run every stamp is rebaselined. -/
theorem rebaselined_of_prompt (self : StreamState) (elementBase : UInt64) (events : List TimeEvent)
    (hp : Along observe Prompt (Observed.start self elementBase) events) (o : Observed)
    (h : run observe (Observed.start self elementBase) events = some o) :
    ∀ s ∈ o.stamps, Rebaselined s :=
  (run_invariant observe (fun _ _ _ hf hp ho => hf.observe hp ho)
    (Observed.fresh_start self elementBase) hp h).stamps

/-- A delivery, a resume to the base time 1000, and a delivery behind it. The resume comes behind the
first delivery, or overtakes it between the read of the base time and its store. -/
def resumeEvents (overtaken : Bool) : List TimeEvent :=
  [.setClock true, .changeState .pausedToPlaying, .begin, .readClock 150, .readElementBase] ++
    (if overtaken then
      [.assignBaseTime 1000, .changeState .pausedToPlaying, .storeBase, .finish, .begin,
        .readClock 1050, .stampAu, .finish]
    else
      [.storeBase, .stampAu, .finish, .assignBaseTime 1000, .changeState .pausedToPlaying, .begin,
        .readClock 1050, .readElementBase, .storeBase, .stampAu, .finish])

instance (o : Observed) (e : TimeEvent) : Decidable (Prompt o e) :=
  inferInstanceAs (Decidable ((_ → _) ∧ (_ → _)))

theorem rebaselined_of_prompt_resume :
    ∃ o, run observe (Observed.start .init 100) (resumeEvents false) = some o ∧
      ∀ s ∈ o.stamps, Rebaselined s := by
  obtain ⟨o, ho⟩ : ∃ o, run observe (Observed.start .init 100) (resumeEvents false) = some o :=
    Option.isSome_iff_exists.mp (by decide)
  exact ⟨o, ho, rebaselined_of_prompt .init 100 (resumeEvents false) (by decide) o ho⟩

/-- The reset falls between the read of the element's base time and its store: the stale base time
overwrites the sentinel, and the buffer behind the resume is stamped 950 instead of 50. -/
theorem stale_base_time :
    ¬ ∀ (self : StreamState) (elementBase : UInt64) (events : List TimeEvent) (o : Observed),
      run observe (Observed.start self elementBase) events = some o →
        ∀ s ∈ o.stamps, Rebaselined s := by
  intro h
  have hstamps : (run observe (Observed.start .init 100) (resumeEvents true)).map Observed.stamps =
      some [⟨950, 1050, 1000, clockTimeNone, 3, 0, true⟩] := by decide
  obtain ⟨o, ho, hs⟩ := Option.map_eq_some_iff.mp hstamps
  rcases h .init 100 (resumeEvents true) o ho _ (by rw [hs]; exact List.mem_singleton_self _) rfl
    with hpts | ⟨hprev, -, -⟩
  · revert hpts
    decide
  · exact hprev rfl

end LibuvcH264Src
