import LibuvcH264Src.EndToEnd
import LibuvcH264Src.Timestamps

/-!
# The times on the pad

* `FeedEvent.rebaselines` : an event behind which the times begin anew;
* `Feeding.times`, `Feeding.returnedTimes` : the times of what was pushed, and of what `create` returned of it;
* `Increasing` : the times of what was pushed rise up to `prev_pts`;
* `pad_times_increase` : what `create` returns has rising times until these begin anew.
-/

namespace LibuvcH264Src
namespace FrameQueue
open AnnexB

/-! ## Times -/

/-- `base_time` and `prev_pts` are reset. -/
def FeedEvent.rebaselines : FeedEvent → Bool
  | .setClock clock => clock
  | .changeState transition => decide (transition = .pausedToPlaying)
  | .start | .begin | .reopen _ => true
  | _ => false

/-- A buffer without a slice has no time. -/
def Walked.time (w : Walked) : Option UInt64 := if hasSlice w.au then some w.buffer.pts else none

/-- The times of the buffers from `first` on. -/
def Feeding.times (f : Feeding) (first : Nat) : List UInt64 := (f.walked.drop first).filterMap Walked.time

/-- Those of the ones that `create` returned, in the order in which it did. -/
def Feeding.returnedTimes (f : Feeding) (first : Nat) : List UInt64 :=
  ((returnedNumbers f.log).reverse.filter (first ≤ ·)).filterMap fun n => f.walked[n]?.bind Walked.time

/-- The next time is behind the last one. -/
theorem lt_nextPts {prev : UInt64} (h : prev ≠ clockTimeNone) (ts : UInt64) : prev < nextPts prev ts := by
  rw [UInt64.lt_iff_toNat_lt, toNat_nextPts h]
  exact lt_dueStamp prev.toNat ts.toNat

theorem auStep_time {ts : UInt64} {self : StreamState} {au : List NalUnit} {buffer : GstBuffer}
    (h : (auStep ts self au).2 = some buffer) :
    (hasSlice au = true → buffer.pts = nextPts self.prevPts ts ∧ (auStep ts self au).1.prevPts = buffer.pts) ∧
      (hasSlice au = false → (auStep ts self au).1.prevPts = self.prevPts) := by
  have hprev : (latchSets self false au).1.prevPts = self.prevPts := by
    rw [(latchSets_latched au self false).rest]
  unfold auStep at h ⊢
  by_cases hdrop : dropsAu (latchSets self false au).1 au = true
  · simp only [hdrop, if_true] at h
    exact absurd h nofun
  · simp only [hdrop, if_false, Bool.false_eq_true] at h ⊢
    obtain rfl := Option.some.inj h
    rw [← hprev]
    constructor
    · intro hslice
      rw [hslice]
      exact ⟨rfl, rfl⟩
    · intro hslice
      rw [hslice]
      rfl

/-! ## The invariant -/

/-- The times from `first` on rise, up to `prev_pts`. -/
structure Increasing (first : Nat) (f : Feeding) : Prop where
  began : first ≤ f.walked.length
  rising : clockTimeNone ∉ f.times first → (f.times first).Pairwise (· < ·)
  last : f.times first = [] ∨ ∃ earlier, f.times first = earlier ++ [f.stream.prevPts]

section Step
variable {first : Nat} {f f' : Feeding}

/-- What leaves `prev_pts` and the buffers alone. -/
theorem Increasing.rewritten (h : Increasing first f) (hwalked : f'.walked = f.walked)
    (hprev : f'.stream.prevPts = f.stream.prevPts) : Increasing first f' := by
  have htimes : f'.times first = f.times first := by
    unfold Feeding.times
    rw [hwalked]
  refine ⟨?_, ?_, ?_⟩
  · rw [hwalked]
    exact h.began
  · rw [htimes]
    exact h.rising
  · rw [htimes, hprev]
    exact h.last

theorem Increasing.walk (h : Increasing first f) (hwalk : f.walk = some f') : Increasing first f' := by
  obtain ⟨au, rest, -, ⟨hnone, rfl⟩ | ⟨buffer, queue, hbuffer, -, rfl⟩⟩ := Feeding.walk_inv hwalk
  · refine h.rewritten rfl ?_
    show (auStep f.ts f.stream au).1.prevPts = _
    rw [auStep_none hnone, (latchSets_latched au f.stream false).rest]
  · obtain ⟨htimed, huntimed⟩ := auStep_time hbuffer
    have hbegan := h.began
    set w : Walked := ⟨f.stream, au, buffer⟩ with hw
    have htimes : ∀ g : Feeding, g.walked = f.walked ++ [w] → g.times first = f.times first ++ w.time.toList := by
      intro g hg
      unfold Feeding.times
      rw [hg, List.drop_append_of_le_length hbegan, List.filterMap_append, List.filterMap_cons]
      cases w.time <;> rfl
    have hgrown : first ≤ (f.walked ++ [w]).length := by
      rw [List.length_append]
      omega
    by_cases hslice : hasSlice au = true
    · obtain ⟨hpts, hprev⟩ := htimed hslice
      have htime : w.time = some buffer.pts := if_pos hslice
      refine ⟨hgrown, ?_, ?_⟩
      · rw [htimes _ rfl, htime]
        intro hvalid
        rw [Option.toList_some, List.mem_append, not_or] at hvalid
        have hrising := h.rising hvalid.1
        refine List.pairwise_append.mpr ⟨hrising, List.pairwise_singleton _ _, fun t ht t' ht' => ?_⟩
        obtain rfl := List.mem_singleton.mp ht'
        -- the last time is that in `prev_pts`, and no other is behind it
        rcases h.last with hempty | ⟨earlier, hlast⟩
        · rw [hempty] at ht
          exact absurd ht List.not_mem_nil
        · rw [hlast] at ht hrising hvalid
          have hnone : f.stream.prevPts ≠ clockTimeNone := by
            intro heq
            exact hvalid.1 (heq ▸ List.mem_append_right earlier (List.mem_singleton_self _))
          have hless : f.stream.prevPts < buffer.pts := by
            rw [hpts]
            exact lt_nextPts hnone f.ts
          rcases List.mem_append.mp ht with ht | ht
          · have hbefore := (List.pairwise_append.mp hrising).2.2 t ht _ (List.mem_singleton_self _)
            exact UInt64.lt_trans hbefore hless
          · rw [List.mem_singleton.mp ht]
            exact hless
      · refine .inr ⟨f.times first, ?_⟩
        rw [htimes _ rfl, htime]
        show _ = _ ++ [(auStep f.ts f.stream au).1.prevPts]
        rw [hprev]
        rfl
    · have hprev := huntimed (Bool.eq_false_of_not_eq_true hslice)
      have htime : w.time = none := if_neg hslice
      refine ⟨hgrown, ?_, ?_⟩
      · rw [htimes _ rfl, htime, Option.toList_none, List.append_nil]
        exact h.rising
      · rw [htimes _ rfl, htime, Option.toList_none, List.append_nil]
        show _ ∨ ∃ earlier, _ = earlier ++ [(auStep f.ts f.stream au).1.prevPts]
        rw [hprev]
        exact h.last

theorem loadBytes_prevPts (self : StreamState) (file : List Byte) : (loadBytes self file).prevPts = self.prevPts := by
  unfold loadBytes
  induction parseNalUnits self.frameFormat 3 (file.take (spsppsBufSz * 3)) generalizing self with
  | nil => rfl
  | cons u units ih =>
    rw [List.foldl_cons, ih]
    unfold loadSpspps.loadUnit
    split
    · rfl
    · split <;> rfl

theorem Increasing.step {e : FeedEvent} (h : Increasing first f) (he : e.rebaselines = false)
    (hs : feedStep f e = some f') : Increasing first f' := by
  unfold feedStep at hs
  cases e with
  | deliver arrival frame =>
    simp only at hs
    split at hs
    · obtain rfl := Option.some.inj hs
      obtain ⟨_, _, _, hsame⟩ := f.deliver_same arrival frame
      rw [hsame]
      exact h.rewritten rfl rfl
    · exact absurd hs nofun
  | walk => exact h.walk hs
  | setClock clock =>
    obtain rfl := Option.some.inj hs
    obtain rfl : clock = false := he
    exact h.rewritten rfl rfl
  | changeState transition =>
    obtain rfl := Option.some.inj hs
    refine h.rewritten rfl ?_
    show (changeState f.stream transition).prevPts = _
    unfold changeState
    rw [if_neg (of_decide_eq_false he)]
  | retune terms =>
    obtain rfl := Option.some.inj hs
    exact h.rewritten rfl rfl
  | load file =>
    obtain rfl := Option.some.inj hs
    exact h.rewritten rfl (loadBytes_prevPts _ _)
  | start | begin | reopen => exact absurd he nofun
  | teardown =>
    simp only at hs
    split at hs
    · obtain rfl := Option.some.inj hs
      exact h.rewritten rfl rfl
    · exact absurd hs nofun
  | queue m =>
    simp only at hs
    split at hs
    · obtain ⟨queue, -, rfl⟩ := Option.map_eq_some_iff.mp hs
      exact h.rewritten rfl rfl
    · exact absurd hs nofun

theorem increasing_run {events : List FeedEvent} (h : Increasing first f)
    (hevents : ∀ e ∈ events, e.rebaselines = false) (hrun : Runs.run feedStep f events = some f') :
    Increasing first f' := by
  induction events generalizing f with
  | nil =>
    obtain rfl := Option.some.inj hrun
    exact h
  | cons e events ih =>
    obtain ⟨f₁, hs, hrest⟩ := (Runs.run_cons_eq_some feedStep).mp hrun
    exact ih (h.step (hevents e (List.mem_cons_self ..)) hs) (fun e' he => hevents e' (List.mem_cons_of_mem _ he)) hrest

end Step

/-! ## What is returned -/

theorem Feeding.times_range' (f : Feeding) (first : Nat) :
    (List.range' first (f.walked.length - first)).filterMap (fun n => f.walked[n]?.bind Walked.time) = f.times first := by
  induction hn : f.walked.length - first generalizing first with
  | zero =>
    unfold Feeding.times
    rw [List.drop_of_length_le (by omega)]
    rfl
  | succ n ih =>
    have hfirst : first < f.walked.length := by omega
    have hrest := ih (first + 1) (by omega)
    unfold Feeding.times at hrest ⊢
    rw [List.range'_succ, List.filterMap_cons, List.getElem?_eq_getElem hfirst, List.drop_eq_getElem_cons hfirst,
      List.filterMap_cons, hrest]
    rfl

/-- What `create` returned is some of what was pushed, in order. -/
theorem returnedTimes_sublist {f : Feeding} (h : f.Accounted) (hcounted : f.walked.length = f.queue.pushed) (first : Nat) :
    (f.returnedTimes first).Sublist (f.times first) := by
  rw [← f.times_range' first]
  apply List.Sublist.filterMap
  have horder : ((returnedNumbers f.log).reverse.filter (first ≤ ·)).Pairwise (· < ·) :=
    List.Pairwise.sublist List.filter_sublist (List.pairwise_append.mp h.order).1
  refine List.sublist_of_subperm_of_pairwise (List.subperm_of_subset (horder.imp Nat.ne_of_lt) fun n hn => ?_) horder
    List.pairwise_lt_range'
  obtain ⟨hreturned, hbegan⟩ := List.mem_filter.mp hn
  have hlogged := (returnedNumbers_sublist f.log).subset (List.mem_reverse.mp hreturned)
  have hpushed := h.lt (List.mem_append_left _ hlogged)
  have hfirst := of_decide_eq_true hbegan
  rw [List.mem_range'_1]
  omega

/-- **In every run, the times that `create` returns rise strictly** until the clock or the base time is set anew or a
stream is opened, whatever is dropped in between and whatever the clock says, as long as no buffer is stamped with the
sentinel. -/
theorem pad_times_increase {before after : List FeedEvent} {f₁ f : Feeding}
    (hbefore : Runs.run feedStep .init before = some f₁) (hafter : ∀ e ∈ after, e.rebaselines = false)
    (hrun : Runs.run feedStep f₁ after = some f) (hvalid : clockTimeNone ∉ f.times f₁.queue.pushed) :
    (f.returnedTimes f₁.queue.pushed).Pairwise (· < ·) := by
  have hall : Runs.run feedStep .init (before ++ after) = some f :=
    (Runs.run_append_eq_some feedStep).mpr ⟨f₁, hbefore, hrun⟩
  have hcounted₁ := (resumes_run hbefore).placed.counted
  have hcounted := (resumes_run hall).placed.counted
  have hnone : f₁.times f₁.queue.pushed = [] := by
    unfold Feeding.times
    rw [List.drop_of_length_le (Nat.le_of_eq hcounted₁)]
    rfl
  have hfirst : Increasing f₁.queue.pushed f₁ := by
    refine ⟨Nat.le_of_eq hcounted₁.symm, ?_, .inl hnone⟩
    rw [hnone]
    exact fun _ => List.Pairwise.nil
  have hincreasing := increasing_run hfirst hafter hrun
  exact (hincreasing.rising hvalid).sublist (returnedTimes_sublist (Feeding.accounted_run hall) hcounted _)

/-- Four frames at one reading of the clock, two of which are in the queue when the element is paused. -/
def burstEvents : List FeedEvent :=
  sliceEvents 0x65 ++ createEvents ++ sliceEvents 0x41 ++ sliceEvents 0x41 ++
    [.queue .unlock, .queue .pushSentinel, .queue .unlockStop, .queue .resume, .queue (.drop (.buffer 1)),
      .queue .resume, .queue (.drop (.buffer 2)), .queue .resume, .queue (.drop .flushSentinel), .queue .resume] ++
    sliceEvents 0x65 ++ createEvents

theorem pad_times_increase_burst : ∃ f₁ f,
    Runs.run feedStep .init [.start, .retune ⟨.h264, 33333333, 1920, 1080⟩, .setClock true, .begin] = some f₁ ∧
      Runs.run feedStep f₁ burstEvents = some f ∧ f.times f₁.queue.pushed = [0, 1, 2, 3] ∧
      f.returnedTimes f₁.queue.pushed = [0, 3] ∧ [(0 : UInt64), 3].Pairwise (· < ·) := by
  obtain ⟨f₁, f, hbefore, hrun, htimes, hreturned⟩ : ∃ f₁ f,
      Runs.run feedStep .init [.start, .retune ⟨.h264, 33333333, 1920, 1080⟩, .setClock true, .begin] = some f₁ ∧
        Runs.run feedStep f₁ burstEvents = some f ∧ f.times f₁.queue.pushed = [0, 1, 2, 3] ∧
        f.returnedTimes f₁.queue.pushed = [0, 3] := ⟨_, _, rfl, rfl, rfl, rfl⟩
  have hafter : ∀ e ∈ burstEvents, e.rebaselines = false := by
    simp [burstEvents, sliceEvents, createEvents, FeedEvent.rebaselines]
  have hvalid : clockTimeNone ∉ f.times f₁.queue.pushed := by
    rw [htimes]
    decide
  have hrises := pad_times_increase hbefore hafter hrun hvalid
  rw [hreturned] at hrises
  exact ⟨f₁, f, hbefore, hrun, htimes, hreturned, hrises⟩

end FrameQueue
end LibuvcH264Src
