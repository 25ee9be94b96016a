import LibuvcH264Src.Resumption

/-!
# Continuity

* `Accounted` : every buffer is logged as it leaves the queue, or upcoming, and `create` returns them in order;
* `Offsets` : the offsets of a session count the buffers that the feeder pushes;
* `gap_counted` : between two buffers that `create` returns one behind the other, the offsets say how many were
  dropped.
-/

namespace LibuvcH264Src
namespace FrameQueue
open AnnexB

/-! ## What left the queue -/

def Taken.number : Taken → Nat
  | .returned n | .flushed n | .drained n => n

/-- What `create` returned, newest first. -/
def returnedNumbers (log : List Taken) : List Nat := (log.filter Taken.isReturned).map Taken.number

structure Accounted (log : List Taken) (upcoming : List Nat) (pushed : Nat) : Prop where
  once : (log.map Taken.number ++ upcoming).Perm (List.range pushed)
  order : ((returnedNumbers log).reverse ++ upcoming).Pairwise (· < ·)

theorem returnedNumbers_sublist (log : List Taken) : (returnedNumbers log).Sublist (log.map Taken.number) :=
  List.Sublist.map _ List.filter_sublist

section Accounts
variable {log entries : List Taken} {upcoming upcoming' : List Nat} {pushed : Nat}

theorem Accounted.lt (h : Accounted log upcoming pushed) {n : Nat} (hn : n ∈ log.map Taken.number ++ upcoming) :
    n < pushed := List.mem_range.mp (h.once.mem_iff.mp hn)

theorem Accounted.leaves (h : Accounted log upcoming pushed) (hleaves : Leaves entries upcoming upcoming') :
    Accounted (entries ++ log) upcoming' pushed := by
  cases hleaves with
  | nothing => exact h
  | returned n =>
    refine ⟨?_, ?_⟩
    · exact List.perm_middle.symm.trans h.once
    · show (((n :: returnedNumbers log).reverse) ++ upcoming').Pairwise (· < ·)
      rw [List.reverse_cons, List.append_assoc]
      exact h.order
  | drained n =>
    refine ⟨List.perm_middle.symm.trans h.once, List.Pairwise.sublist ?_ h.order⟩
    exact List.Sublist.append_left (List.sublist_cons_self n upcoming') _
  | flushed ms n ns =>
    refine ⟨?_, List.Pairwise.sublist ?_ h.order⟩
    · refine List.Perm.trans ?_ h.once
      show (n :: (log.map Taken.number ++ (ms ++ ns))).Perm _
      rw [← List.append_assoc, ← List.append_assoc]
      exact List.perm_middle.symm
    · exact List.Sublist.append_left (List.Sublist.append_left (List.sublist_cons_self n ns) ms) _

/-- A new buffer comes behind all others. -/
theorem Accounted.push (h : Accounted log upcoming pushed) : Accounted log (upcoming ++ [pushed]) (pushed + 1) := by
  refine ⟨?_, ?_⟩
  · rw [List.range_succ, ← List.append_assoc]
    exact List.Perm.append_right _ h.once
  · rw [← List.append_assoc]
    refine List.pairwise_append.mpr ⟨h.order, List.pairwise_singleton _ _, fun n hn m hm => ?_⟩
    rw [List.mem_singleton.mp hm]
    apply h.lt
    rcases List.mem_append.mp hn with hn | hn
    · exact List.mem_append_left _ ((returnedNumbers_sublist log).subset (List.mem_reverse.mp hn))
    · exact List.mem_append_right _ hn

end Accounts

def Feeding.Accounted (f : Feeding) : Prop := FrameQueue.Accounted f.log f.queue.upcoming f.queue.pushed

theorem Feeding.Accounted.step {f f' : Feeding} {e : FeedEvent} (h : f.Accounted) (hs : feedStep f e = some f') :
    f'.Accounted := by
  unfold Feeding.Accounted at h ⊢
  unfold feedStep at hs
  cases e with
  | deliver arrival frame =>
    simp only at hs
    split at hs
    · obtain rfl := Option.some.inj hs
      obtain ⟨_, _, _, hsame⟩ := f.deliver_same arrival frame
      rw [hsame]
      exact h
    · exact absurd hs nofun
  | walk =>
    obtain ⟨au, rest, -, ⟨-, rfl⟩ | ⟨buffer, queue, -, hqueue, rfl⟩⟩ := Feeding.walk_inv hs
    · exact h
    · obtain ⟨hupcoming, hpushed, -⟩ := push_upcoming hqueue
      show FrameQueue.Accounted f.log queue.upcoming queue.pushed
      rw [hupcoming, hpushed]
      exact h.push
  | setClock | changeState | retune | load =>
    obtain rfl := Option.some.inj hs
    exact h
  | start | begin | reopen | teardown =>
    simp only at hs
    split at hs
    · obtain rfl := Option.some.inj hs
      exact h
    · exact absurd hs nofun
  | queue m =>
    simp only at hs
    split at hs
    · next hallows =>
      obtain ⟨queue, hqueue, rfl⟩ := Option.map_eq_some_iff.mp hs
      have hpush : m ≠ .push := by
        rintro rfl
        exact absurd hallows nofun
      show FrameQueue.Accounted (taken f.queue m ++ f.log) queue.upcoming queue.pushed
      rw [queueStep_pushed hpush hqueue]
      exact h.leaves (queueStep_leaves hpush hqueue)
    · exact absurd hs nofun

/-! ## Offsets -/

/-- The offsets count the buffers from `first` on. -/
structure Offsets (first : Nat) (f : Feeding) : Prop where
  counted : f.walked.length = f.queue.pushed
  began : first ≤ f.queue.pushed
  next : f.stream.frameOffset = UInt64.ofNat (f.queue.pushed - first)
  walked : ∀ n w, first ≤ n → f.walked[n]? = some w → w.buffer.offset = UInt64.ofNat (n - first)

/-- What is written beside the walk leaves the offsets alone. -/
theorem Offsets.rewritten {first : Nat} {f f' : Feeding} (h : Offsets first f) (hqueue : f'.queue.pushed = f.queue.pushed)
    (hwalked : f'.walked = f.walked) (hoffset : f'.stream.frameOffset = f.stream.frameOffset) : Offsets first f' where
  counted := by
    rw [hwalked, hqueue]
    exact h.counted
  began := by
    rw [hqueue]
    exact h.began
  next := by
    rw [hoffset, hqueue]
    exact h.next
  walked := by
    rw [hwalked]
    exact h.walked

theorem Offsets.walk {first : Nat} {f f' : Feeding} (h : Offsets first f) (hwalk : f.walk = some f') : Offsets first f' := by
  obtain ⟨au, rest, -, ⟨hnone, rfl⟩ | ⟨buffer, queue, hbuffer, hqueue, rfl⟩⟩ := Feeding.walk_inv hwalk
  · refine h.rewritten rfl rfl ?_
    show (auStep f.ts f.stream au).1.frameOffset = _
    rw [auStep_none hnone, (latchSets_latched au f.stream false).rest]
  · obtain ⟨-, hpushed, -⟩ := push_upcoming hqueue
    obtain ⟨-, -, hoffset, hnext⟩ := auStep_some hbuffer
    have hbegan := h.began
    refine ⟨?_, ?_, ?_, fun n w hn hw => ?_⟩
    · rw [hpushed, List.length_append, h.counted]
      rfl
    · rw [hpushed]
      omega
    · show (auStep f.ts f.stream au).1.frameOffset = UInt64.ofNat (queue.pushed - first)
      rw [hnext, h.next, hpushed, show f.queue.pushed + 1 - first = f.queue.pushed - first + 1 by omega, UInt64.ofNat_add]
      rfl
    · change (f.walked ++ [_])[n]? = some w at hw
      by_cases hlast : n < f.walked.length
      · rw [List.getElem?_append_left hlast] at hw
        exact h.walked n w hn hw
      · rw [List.getElem?_append_right (by omega)] at hw
        obtain ⟨hzero, rfl⟩ := List.getElem?_eq_some_iff.mp hw
        have hn : n = f.queue.pushed := by
          rw [List.length_singleton] at hzero
          have hcounted := h.counted
          omega
        rw [List.getElem_singleton, hn]
        exact hoffset.trans h.next

/-- `start` alone begins to count anew. -/
theorem Offsets.step {first : Nat} {f f' : Feeding} {e : FeedEvent} (h : Offsets first f) (he : e ≠ .start)
    (hs : feedStep f e = some f') : Offsets first f' := by
  unfold feedStep at hs
  cases e with
  | deliver arrival frame =>
    simp only at hs
    split at hs
    · obtain rfl := Option.some.inj hs
      obtain ⟨_, _, _, hsame⟩ := f.deliver_same arrival frame
      rw [hsame]
      exact h.rewritten rfl rfl rfl
    · exact absurd hs nofun
  | walk => exact h.walk hs
  | setClock clock =>
    obtain rfl := Option.some.inj hs
    refine h.rewritten rfl rfl ?_
    cases clock <;> rfl
  | changeState transition =>
    obtain rfl := Option.some.inj hs
    refine h.rewritten rfl rfl ?_
    cases transition <;> rfl
  | retune terms =>
    obtain rfl := Option.some.inj hs
    exact h.rewritten rfl rfl rfl
  | load file =>
    obtain rfl := Option.some.inj hs
    exact h.rewritten rfl rfl (loadBytes_gate _ _).2.2
  | start => exact absurd rfl he
  | begin | reopen | teardown =>
    simp only at hs
    split at hs
    · obtain rfl := Option.some.inj hs
      exact h.rewritten rfl rfl rfl
    · exact absurd hs nofun
  | queue m =>
    simp only at hs
    split at hs
    · next hallows =>
      obtain ⟨queue, hqueue, rfl⟩ := Option.map_eq_some_iff.mp hs
      have hpush : m ≠ .push := by
        rintro rfl
        exact absurd hallows nofun
      exact h.rewritten (queueStep_pushed hpush hqueue) rfl rfl
    · exact absurd hs nofun

/-- `start` begins with the next buffer. -/
theorem offsets_start {f f' : Feeding} (h : Placed f) (hs : feedStep f .start = some f') :
    Offsets f'.queue.pushed f' ∧ f'.queue.pushed = f.queue.pushed := by
  unfold feedStep at hs
  simp only at hs
  split at hs
  · obtain rfl := Option.some.inj hs
    refine ⟨⟨h.counted, Nat.le_refl _, ?_, fun n w hn hw => ?_⟩, rfl⟩
    · rw [Nat.sub_self]
      rfl
    · obtain ⟨hless, -⟩ := List.getElem?_eq_some_iff.mp hw
      rw [h.counted] at hless
      exact absurd hless (Nat.not_lt.mpr hn)
  · exact absurd hs nofun

theorem offsets_run {first : Nat} {events : List FeedEvent} {f f' : Feeding} (h : Offsets first f)
    (hsession : ∀ e ∈ events, e ≠ .start) (hrun : Runs.run feedStep f events = some f') : Offsets first f' := by
  induction events generalizing f with
  | nil =>
    obtain rfl := Option.some.inj hrun
    exact h
  | cons e events ih =>
    obtain ⟨f₁, hs, hrest⟩ := (Runs.run_cons_eq_some feedStep).mp hrun
    exact ih (h.step (hsession e (List.mem_cons_self ..)) hs) (fun e' he => hsession e' (List.mem_cons_of_mem _ he)) hrest

/-! ## Gaps -/

/-- The buffer was dropped, and stands between the two. -/
def Taken.dropsBetween (m n : Nat) (e : Taken) : Bool := !e.isReturned && decide (m < e.number ∧ e.number < n)

theorem returnedNumbers_append (log log' : List Taken) :
    returnedNumbers (log ++ log') = returnedNumbers log ++ returnedNumbers log' := by
  unfold returnedNumbers
  rw [List.filter_append, List.map_append]

/-- Between two buffers that are returned one behind the other, all were dropped. -/
theorem Accounted.between {log newer mid older : List Taken} {upcoming : List Nat} {pushed m n : Nat}
    (h : Accounted log upcoming pushed) (hlog : log = newer ++ .returned n :: (mid ++ .returned m :: older))
    (hmid : ∀ k, .returned k ∉ mid) : m < n ∧ (log.filter (Taken.dropsBetween m n)).length = n - m - 1 := by
  have hnone : returnedNumbers mid = [] := by
    unfold returnedNumbers
    rw [List.map_eq_nil_iff, List.filter_eq_nil_iff]
    intro e he hreturned
    cases e with
    | returned k => exact hmid k he
    | flushed | drained => exact absurd hreturned nofun
  have hreturned : returnedNumbers log = returnedNumbers newer ++ n :: m :: returnedNumbers older := by
    rw [hlog, returnedNumbers_append]
    show returnedNumbers newer ++ n :: returnedNumbers (mid ++ .returned m :: older) = _
    rw [returnedNumbers_append, hnone]
    rfl
  have horder := h.order
  rw [hreturned, List.reverse_append, List.reverse_cons, List.reverse_cons] at horder
  simp only [List.append_assoc, List.cons_append, List.nil_append] at horder
  obtain ⟨-, htail, hbefore⟩ := List.pairwise_append.mp horder
  obtain ⟨hm, htail⟩ := List.pairwise_cons.mp htail
  obtain ⟨hn, -⟩ := List.pairwise_cons.mp htail
  have hless : m < n := hm n (List.mem_cons_self ..)
  refine ⟨hless, ?_⟩
  have hnodup : (log.map Taken.number ++ upcoming).Nodup := h.once.nodup_iff.mpr List.nodup_range
  have hperm : ((log.filter (Taken.dropsBetween m n)).map Taken.number).Perm (List.range' (m + 1) (n - m - 1)) := by
    refine (List.perm_ext_iff_of_nodup ?_ List.nodup_range').mpr fun k => ?_
    · exact List.Nodup.sublist (List.Sublist.map _ List.filter_sublist) (List.Nodup.of_append_left hnodup)
    · rw [List.mem_range'_1]
      constructor
      · intro hk
        obtain ⟨e, he, rfl⟩ := List.mem_map.mp hk
        have hbetween := (List.mem_filter.mp he).2
        unfold Taken.dropsBetween at hbetween
        rw [Bool.and_eq_true, decide_eq_true_eq] at hbetween
        omega
      · rintro ⟨hlow, hhigh⟩
        have hpushed : n < pushed := by
          apply h.lt
          rw [hlog]
          simp [Taken.number]
        have hin := h.once.mem_iff.mpr (List.mem_range.mpr (show k < pushed by omega))
        rcases List.mem_append.mp hin with hin | hin
        · obtain ⟨e, he, rfl⟩ := List.mem_map.mp hin
          refine List.mem_map.mpr ⟨e, List.mem_filter.mpr ⟨he, ?_⟩, rfl⟩
          have hdropped : e.isReturned = false := by
            by_contra hret
            have hmem : e.number ∈ returnedNumbers log :=
              List.mem_map_of_mem (List.mem_filter.mpr ⟨he, Bool.eq_true_of_not_eq_false hret⟩)
            rw [hreturned] at hmem
            rcases List.mem_append.mp hmem with hmem | hmem
            · have hbehind := hn e.number (List.mem_append_left _ (List.mem_reverse.mpr hmem))
              omega
            · rcases List.mem_cons.mp hmem with heq | hmem
              · omega
              · rcases List.mem_cons.mp hmem with heq | hmem
                · omega
                · have hfront := hbefore e.number (List.mem_reverse.mpr hmem) m (List.mem_cons_self ..)
                  omega
          unfold Taken.dropsBetween
          rw [hdropped, Bool.not_false, Bool.true_and, decide_eq_true_eq]
          omega
        · have hbehind := hn k (List.mem_append_right _ hin)
          omega
  have hlength := hperm.length_eq
  rwa [List.length_map, List.length_range'] at hlength

theorem Feeding.accounted_init : Feeding.init.Accounted := ⟨List.Perm.refl [], List.Pairwise.nil⟩

theorem Feeding.accounted_run {events : List FeedEvent} {f : Feeding}
    (h : Runs.run feedStep .init events = some f) : f.Accounted :=
  Runs.run_induction feedStep (fun _ _ _ hinv hs => hinv.step hs) Feeding.accounted_init h

/-- **In every run, of two buffers of one session that `create` returns one behind the other**, the second has the
offset of the first, and one more, and one more for every buffer that was dropped between them. -/
theorem gap_counted {before after : List FeedEvent} {f₁ f : Feeding} {newer mid older : List Taken} {m n : Nat}
    (hstart : Runs.run feedStep .init (before ++ [.start]) = some f₁)
    (hsession : ∀ e ∈ after, e ≠ .start) (hrun : Runs.run feedStep f₁ after = some f)
    (hlog : f.log = newer ++ .returned n :: (mid ++ .returned m :: older)) (hmid : ∀ k, .returned k ∉ mid)
    (hm : f₁.queue.pushed ≤ m) :
    ∃ v w, f.walked[m]? = some v ∧ f.walked[n]? = some w ∧
      w.buffer.offset = v.buffer.offset + UInt64.ofNat ((f.log.filter (Taken.dropsBetween m n)).length + 1) := by
  have hall : Runs.run feedStep .init (before ++ [.start] ++ after) = some f :=
    (Runs.run_append_eq_some feedStep).mpr ⟨f₁, hstart, hrun⟩
  have haccounted := Feeding.accounted_run hall
  have hplaced := (resumes_run hall).placed
  obtain ⟨hless, hcount⟩ := haccounted.between hlog hmid
  have hoffsets : Offsets f₁.queue.pushed f := by
    obtain ⟨f₀, hrun₀, hstep⟩ := (Runs.run_append_eq_some feedStep).mp hstart
    obtain ⟨f₂, hs, hsame⟩ := (Runs.run_cons_eq_some feedStep).mp hstep
    obtain rfl := Option.some.inj hsame
    exact offsets_run (offsets_start (resumes_run hrun₀).placed hs).1 hsession hrun
  have hn : n < f.walked.length := by
    rw [hplaced.counted]
    apply haccounted.lt
    rw [hlog]
    simp [Taken.number]
  have hfirst : m < f.walked.length := by omega
  refine ⟨f.walked[m], f.walked[n], List.getElem?_eq_getElem hfirst, List.getElem?_eq_getElem hn, ?_⟩
  rw [hoffsets.walked m _ hm (List.getElem?_eq_getElem hfirst),
    hoffsets.walked n _ (by omega) (List.getElem?_eq_getElem hn), hcount, ← UInt64.ofNat_add]
  congr 1
  omega

/-- Two frames are in the queue when the element is paused, and the IDR slice behind them is returned. -/
def skippedEvents : List FeedEvent :=
  [.retune ⟨.h264, 33333333, 1920, 1080⟩, .setClock true, .begin] ++ sliceEvents 0x65 ++ createEvents ++
    sliceEvents 0x41 ++ sliceEvents 0x41 ++
    [.queue .unlock, .queue .pushSentinel, .queue .unlockStop, .queue .resume, .queue (.drop (.buffer 1)),
      .queue .resume, .queue (.drop (.buffer 2)), .queue .resume, .queue (.drop .flushSentinel), .queue .resume] ++
    sliceEvents 0x65 ++ createEvents

theorem gap_counted_skipped : ∃ f₁ f v w, Runs.run feedStep .init [.start] = some f₁ ∧
    Runs.run feedStep f₁ skippedEvents = some f ∧ f.log = [.returned 3, .flushed 2, .flushed 1, .returned 0] ∧
    f.walked[0]? = some v ∧ f.walked[3]? = some w ∧ w.buffer.offset = v.buffer.offset + 3 := by
  obtain ⟨f₁, f, hstart, hrun, hpushed, hlog⟩ : ∃ f₁ f, Runs.run feedStep .init ([] ++ [.start]) = some f₁ ∧
      Runs.run feedStep f₁ skippedEvents = some f ∧ f₁.queue.pushed = 0 ∧
      f.log = [] ++ .returned 3 :: ([.flushed 2, .flushed 1] ++ .returned 0 :: []) := ⟨_, _, rfl, rfl, rfl, rfl⟩
  have hsession : ∀ e ∈ skippedEvents, e ≠ .start := by
    intro e he hstart
    rw [hstart] at he
    simp [skippedEvents, sliceEvents, createEvents] at he
  obtain ⟨v, w, hv, hw, hoffset⟩ := gap_counted hstart hsession hrun hlog (by simp) (by rw [hpushed])
  refine ⟨f₁, f, v, w, hstart, hrun, hlog, hv, hw, ?_⟩
  rw [hoffset, hlog]
  rfl

end FrameQueue
end LibuvcH264Src
