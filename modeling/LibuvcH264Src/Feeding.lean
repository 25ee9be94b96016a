import LibuvcH264Src.FrameQueue
import LibuvcH264Src.CacheFile

/-!
# The feeder at the frame queue

* `Feeding` : the threads at the queue with the state of the feeder, what it pushed, and a log of what left the
  queue;
* `feedStep` : one operation of one thread, with the access units of a delivery walked one by one;
* `ahead`, `taken_ahead` : the buffers that are yet to leave the queue, and which of them an operation takes;
* `walks_delivery` : the walk pushes what `frame_callback` pushes.

The calls that work on the stream are made one after the other: a stream is torn down before the queue is
drained, and opened again behind that.
-/

namespace LibuvcH264Src
namespace FrameQueue
open AnnexB

/-! ## The state -/

/-- What the calls have made of the stream. It is `ready` behind `start`, `proving` where a recovery opened it and
waits for its first frame, `unproven` where none came, and `torn` until the queue is drained. -/
inductive Flow where
  | closed
  | ready
  | live
  | proving
  | unproven
  | torn
  deriving DecidableEq

/-- The feeder delivers. -/
def Flow.streams : Flow → Bool
  | .live | .proving | .unproven => true
  | _ => false

/-- What was pushed: the access unit and the state in which the feeder came to it, with the buffer it made. -/
structure Walked where
  self : StreamState
  au : List NalUnit
  buffer : GstBuffer

/-- How a buffer left the queue: `create` returned it; `unlock_stop`, or `create` while flushing, dropped it; the
recovery, `stop` or `finalize` did. -/
inductive Taken where
  | returned (n : Nat)
  | flushed (n : Nat)
  | drained (n : Nat)
  deriving DecidableEq

/-- The access units in `rest` are those of the delivery that are yet to be walked; buffer `n` is the `n`-th that
was walked; the log has the newest entry first. -/
structure Feeding where
  queue : QueueState
  stream : StreamState
  flow : Flow
  ts : UInt64
  rest : List (List NalUnit)
  walked : List Walked
  log : List Taken

def Feeding.init : Feeding := ⟨.init, .init, .closed, 0, [], [], []⟩

/-! ## What leaves the queue -/

def Item.taken (entry : Nat → Taken) : Item → List Taken
  | .buffer n => [entry n]
  | .flushSentinel => []

/-- What the next operation of the call that is under way takes. -/
def callTaken (s : QueueState) : List Taken :=
  match s.site with
  | .createPopped (some item) => item.taken (if s.flushing then .flushed else .returned)
  | .awaitPopped item => if s.flushing then item.taken .drained else []
  | .drainPopped item | .stopPopped _ item | .finalizePopped item => item.taken .drained
  | _ => []

def taken (s : QueueState) : Move → List Taken
  | .resume => s.frameQueue.head?.elim [] (Item.taken .flushed)
  | .step => callTaken s
  | _ => []

/-! ## The operations -/

/-- What `negotiate` writes. -/
structure Terms where
  frameFormat : FrameFormat
  frameInterval : Int
  negotiatedWidth : Int
  negotiatedHeight : Int

inductive FeedEvent where
  /-- `frame_callback` is called, -/
  | deliver (arrival : Arrival) (frame : Option (List Byte))
  /-- and comes to the next access unit. -/
  | walk
  | setClock (clock : Bool)
  | changeState (transition : StateChange)
  | retune (terms : Terms)
  | load (file : List Byte)
  /-- `start`. -/
  | start
  /-- The first `create` starts the stream. -/
  | begin
  /-- `reopen_once` starts it again; the recovery of a wedged device waits for a frame. -/
  | reopen (proving : Bool)
  /-- `uvc_stop_streaming` waits for the callback to return. -/
  | teardown
  | queue (m : Move)

/-- The calls that work on the queue in this state of the stream. -/
def Flow.allows : Flow → Move → Bool
  | _, .push => false
  | flow, .call .create => flow = .live
  | flow, .call .awaitFirstFrame => flow = .proving
  | flow, .call .drainQueue => flow = .torn
  | flow, .call .stop | flow, .call .finalize => !flow.streams
  | _, _ => true

/-- What becomes of the stream where a call goes on from one site to another. -/
def Flow.after (flow : Flow) : Site → Site → Flow
  | .awaitKeeps _, .idle => .live
  | .await, .idle | .awaitPopped _, .idle => .unproven
  | .drain, .idle | .stop _, .idle | .stop _, .finalize => .closed
  | _, _ => flow

/-- The call of `frame_callback` up to the walk. -/
def Feeding.deliver (f : Feeding) (arrival : Arrival) (frame : Option (List Byte)) : Feeding :=
  match acceptsFrame frame with
  | none => f
  | some data =>
    match snapshotClock f.stream with
    | none => f
    | some snapshot =>
      let latched := latchBaseTime f.stream snapshot arrival.elementBaseTime
      { f with
        stream := latched.1
        ts := arrival.now - latched.2
        rest := deliveryAccessUnits f.stream.frameFormat data }

/-- One turn of the walk. -/
def Feeding.walk (f : Feeding) : Option Feeding :=
  match f.rest with
  | [] => none
  | au :: rest =>
    let w := deliverAu f.ts ⟨f.stream, false, []⟩ au
    match w.pushed with
    | [] => some { f with stream := w.self, rest := rest }
    | buffer :: _ => (queueStep f.queue .push).map fun queue =>
        { f with queue := queue, stream := w.self, rest := rest, walked := f.walked ++ [⟨f.stream, au, buffer⟩] }

def feedStep (f : Feeding) : FeedEvent → Option Feeding
  | .deliver arrival frame => if f.flow.streams ∧ f.rest = [] then some (f.deliver arrival frame) else none
  | .walk => f.walk
  | .setClock clock => some { f with stream := setClock f.stream clock }
  | .changeState transition => some { f with stream := changeState f.stream transition }
  | .retune terms =>
    some { f with
      stream := { f.stream with
        frameFormat := terms.frameFormat
        frameInterval := terms.frameInterval
        negotiatedWidth := terms.negotiatedWidth
        negotiatedHeight := terms.negotiatedHeight } }
  | .load file => some { f with stream := loadBytes f.stream file }
  | .start =>
    if f.flow = .closed ∧ f.queue.site = .idle then some { f with stream := resetStream f.stream, flow := .ready }
    else none
  | .begin =>
    if f.flow = .ready ∧ f.queue.site = .idle then
      some { f with stream := { f.stream with baseTime := clockTimeNone, prevPts := clockTimeNone }, flow := .live }
    else none
  | .reopen proving =>
    if f.flow = .closed ∧ f.queue.site = .idle then
      some { f with stream := rearmStream f.stream, flow := if proving then .proving else .live }
    else none
  | .teardown =>
    if f.flow.streams ∧ f.rest = [] ∧ f.queue.site = .idle then some { f with flow := .torn } else none
  | .queue m =>
    if f.flow.allows m then
      (queueStep f.queue m).map fun queue =>
        { f with
          queue := queue
          flow := f.flow.after f.queue.site queue.site
          log := taken f.queue m ++ f.log }
    else none

/-! ## What is ahead -/

/-- The buffers that are yet to leave the queue, in the order in which they were pushed. -/
def QueueState.upcoming (s : QueueState) : List Nat := (s.site.hand ++ s.frameQueue).filterMap Item.number

/-- What an operation logs, with what is upcoming before and behind it. -/
inductive Leaves : List Taken → List Nat → List Nat → Prop where
  | nothing (ns : List Nat) : Leaves [] ns ns
  | returned (n : Nat) (ns : List Nat) : Leaves [.returned n] (n :: ns) ns
  | drained (n : Nat) (ns : List Nat) : Leaves [.drained n] (n :: ns) ns
  -- `unlock_stop` pops behind what another call has in hand
  | flushed (ms : List Nat) (n : Nat) (ns : List Nat) : Leaves [.flushed n] (ms ++ n :: ns) (ms ++ ns)

section Leaving
variable {s s' : QueueState}

theorem upcoming_shifted (s : QueueState) (site : Site) (frameQueue : List Item)
    (hsame : site.hand ++ frameQueue = s.site.hand ++ s.frameQueue) :
    QueueState.upcoming { s with site := site, frameQueue := frameQueue } = s.upcoming :=
  congrArg (List.filterMap Item.number) hsame

theorem upcoming_unref (s : QueueState) (item : Item) (site : Site) :
    QueueState.upcoming { s.unrefBuffer item with site := site } = QueueState.upcoming { s with site := site } := by
  unfold QueueState.unrefBuffer
  split <;> rfl

theorem pop_upcoming (empty : Site) (popped : Item → Site) (hhand : s.site.hand = []) (hempty : empty.hand = [])
    (hpopped : ∀ item, (popped item).hand = [item]) : (s.pop empty popped).upcoming = s.upcoming := by
  unfold QueueState.pop
  cases hqueue : s.frameQueue with
  | nil =>
    show (empty.hand ++ []).filterMap _ = _
    unfold QueueState.upcoming
    rw [hempty, hhand, hqueue]
  | cons item rest =>
    apply upcoming_shifted
    rw [hpopped, hhand, hqueue]
    rfl

/-- The item in hand leaves. -/
theorem upcoming_hand {item : Item} (site : Site) (hhand : s.site.hand = [item]) (hempty : site.hand = []) :
    s.upcoming = item.number.toList ++ QueueState.upcoming { s with site := site } := by
  unfold QueueState.upcoming
  show _ = _ ++ (site.hand ++ s.frameQueue).filterMap _
  rw [hhand, hempty]
  cases item <;> rfl

theorem leaves_drained {item : Item} (site : Site) (hhand : s.site.hand = [item]) (hempty : site.hand = []) :
    Leaves (item.taken .drained) s.upcoming (QueueState.upcoming { s with site := site }) := by
  rw [upcoming_hand site hhand hempty]
  cases item with
  | buffer n => exact .drained n _
  | flushSentinel => exact .nothing _

theorem leaves_flushed {item : Item} (site : Site) (hhand : s.site.hand = [item]) (hempty : site.hand = []) :
    Leaves (item.taken .flushed) s.upcoming (QueueState.upcoming { s with site := site }) := by
  rw [upcoming_hand site hhand hempty]
  cases item with
  | buffer n => exact .flushed [] n _
  | flushSentinel => exact .nothing _

theorem Leaves.kept {ns ns' : List Nat} (h : ns' = ns) : Leaves [] ns ns' := by
  rw [h]
  exact .nothing ns

theorem callStep_leaves (h : callStep s = some s') : Leaves (callTaken s) s.upcoming s'.upcoming := by
  have hhand : ∀ site : Site, s.site = site → s.site.hand = site.hand := fun _ hsite => congrArg Site.hand hsite
  unfold callStep at h
  unfold callTaken
  cases hsite : s.site with
  | idle | finalized =>
    rw [hsite] at h
    exact absurd h nofun
  | create =>
    rw [hsite] at h
    obtain rfl := Option.some.inj h
    exact .kept (pop_upcoming _ _ (hhand _ hsite) rfl fun _ => rfl)
  | createPopped item =>
    rw [hsite] at h
    obtain rfl := Option.some.inj h
    have hitem := hhand _ hsite
    unfold createTurn
    cases item with
    | none =>
      simp only [ite_self]
      refine .kept (upcoming_shifted s .idle s.frameQueue ?_)
      rw [hitem]
      rfl
    | some item =>
      by_cases hflushing : s.flushing = true
      · simp only [if_pos hflushing]
        rw [upcoming_unref]
        exact leaves_flushed .idle hitem rfl
      · simp only [if_neg hflushing]
        cases item with
        | flushSentinel => exact .kept (upcoming_hand .create hitem rfl).symm
        | buffer n =>
          have hupcoming := upcoming_hand .idle hitem rfl
          rw [hupcoming]
          exact .returned n _
  | await =>
    rw [hsite] at h
    obtain rfl := Option.some.inj h
    exact .kept (pop_upcoming _ _ (hhand _ hsite) rfl fun _ => rfl)
  | awaitPopped item =>
    rw [hsite] at h
    obtain rfl := Option.some.inj h
    have hitem := hhand _ hsite
    unfold awaitTurn
    by_cases hflushing : s.flushing = true
    · simp only [if_pos hflushing]
      rw [upcoming_unref]
      exact leaves_drained .idle hitem rfl
    · simp only [if_neg hflushing]
      split
      · next hsentinel =>
        have hupcoming := upcoming_hand .await hitem rfl
        rw [hsentinel] at hupcoming
        exact .kept hupcoming.symm
      · refine .kept (upcoming_shifted s (.awaitKeeps item) s.frameQueue ?_)
        rw [hitem]
        rfl
  | awaitKeeps item =>
    rw [hsite] at h
    obtain rfl := Option.some.inj h
    refine .kept (upcoming_shifted s .idle (item :: s.frameQueue) ?_)
    rw [hhand _ hsite]
    rfl
  | drain =>
    rw [hsite] at h
    obtain rfl := Option.some.inj h
    exact .kept (pop_upcoming _ _ (hhand _ hsite) rfl fun _ => rfl)
  | drainPopped item =>
    rw [hsite] at h
    obtain rfl := Option.some.inj h
    simp only
    rw [upcoming_unref]
    exact leaves_drained .drain (hhand _ hsite) rfl
  | stop finalizing =>
    rw [hsite] at h
    obtain rfl := Option.some.inj h
    refine .kept (pop_upcoming _ _ (hhand _ hsite) ?_ fun _ => rfl)
    cases finalizing <;> rfl
  | stopPopped finalizing item =>
    rw [hsite] at h
    obtain rfl := Option.some.inj h
    exact leaves_drained (.stop finalizing) (hhand _ hsite) rfl
  | finalize =>
    rw [hsite] at h
    obtain rfl := Option.some.inj h
    exact .kept (pop_upcoming _ _ (hhand _ hsite) rfl fun _ => rfl)
  | finalizePopped item =>
    rw [hsite] at h
    obtain rfl := Option.some.inj h
    exact leaves_drained .finalize (hhand _ hsite) rfl

/-- Whatever is not pushed. -/
theorem queueStep_leaves {m : Move} (hm : m ≠ .push) (h : queueStep s m = some s') :
    Leaves (taken s m) s.upcoming s'.upcoming := by
  unfold queueStep at h
  cases m with
  | push => exact absurd rfl hm
  | unlock | unlockStop =>
    obtain rfl := Option.some.inj h
    exact .nothing _
  | pushSentinel =>
    simp only at h
    split at h
    · exact absurd h nofun
    · obtain rfl := Option.some.inj h
      apply Leaves.kept
      unfold QueueState.upcoming
      show (s.site.hand ++ (s.frameQueue ++ [Item.flushSentinel])).filterMap _ = _
      rw [← List.append_assoc, List.filterMap_append]
      exact List.append_nil _
  | resume =>
    simp only at h
    split at h
    · exact absurd h nofun
    · unfold taken QueueState.upcoming
      cases hqueue : s.frameQueue with
      | nil =>
        rw [hqueue] at h
        obtain rfl := Option.some.inj h
        exact .nothing _
      | cons item rest =>
        rw [hqueue] at h
        obtain rfl := Option.some.inj h
        show Leaves (item.taken .flushed) ((s.site.hand ++ item :: rest).filterMap _) ((s.site.hand ++ rest).filterMap _)
        rw [List.filterMap_append, List.filterMap_append]
        cases item with
        | flushSentinel => exact .nothing _
        | buffer n => exact .flushed _ n _
  | drop item =>
    simp only at h
    split at h
    · obtain rfl := Option.some.inj h
      apply Leaves.kept
      unfold QueueState.unrefBuffer
      split <;> rfl
    · exact absurd h nofun
  | call call =>
    simp only at h
    split at h
    · next hsite =>
      obtain rfl := Option.some.inj h
      refine .kept (upcoming_shifted s _ s.frameQueue ?_)
      rw [show s.site.hand = [] from congrArg Site.hand hsite]
      cases call <;> rfl
    · exact absurd h nofun
  | step => exact callStep_leaves h
  | expire =>
    simp only at h
    split at h
    · next hsite =>
      obtain rfl := Option.some.inj h
      refine .kept (upcoming_shifted s .idle s.frameQueue ?_)
      rw [show s.site.hand = [] from congrArg Site.hand hsite]
      rfl
    · exact absurd h nofun

theorem pop_pushed (empty : Site) (popped : Item → Site) : (s.pop empty popped).pushed = s.pushed := by
  unfold QueueState.pop
  cases s.frameQueue <;> rfl

theorem unrefBuffer_pushed (item : Item) : (s.unrefBuffer item).pushed = s.pushed := by
  unfold QueueState.unrefBuffer
  split <;> rfl

/-- Only the feeder pushes. -/
theorem queueStep_pushed {m : Move} (hm : m ≠ .push) (h : queueStep s m = some s') : s'.pushed = s.pushed := by
  unfold queueStep at h
  cases m with
  | push => exact absurd rfl hm
  | unlock | unlockStop =>
    obtain rfl := Option.some.inj h
    rfl
  | pushSentinel =>
    simp only at h
    split at h
    · exact absurd h nofun
    · obtain rfl := Option.some.inj h
      rfl
  | resume =>
    simp only at h
    split at h
    · exact absurd h nofun
    · split at h <;> obtain rfl := Option.some.inj h <;> rfl
  | drop item =>
    simp only at h
    split at h
    · obtain rfl := Option.some.inj h
      exact unrefBuffer_pushed item
    · exact absurd h nofun
  | call | expire =>
    simp only at h
    split at h
    · obtain rfl := Option.some.inj h
      rfl
    · exact absurd h nofun
  | step =>
    simp only at h
    unfold callStep at h
    cases hsite : s.site with
    | idle | finalized =>
      rw [hsite] at h
      exact absurd h nofun
    | create | await | drain | stop | finalize =>
      rw [hsite] at h
      obtain rfl := Option.some.inj h
      exact pop_pushed _ _
    | createPopped item =>
      rw [hsite] at h
      obtain rfl := Option.some.inj h
      unfold createTurn
      split
      · split
        · rfl
        · exact unrefBuffer_pushed _
      · split <;> rfl
    | awaitPopped item =>
      rw [hsite] at h
      obtain rfl := Option.some.inj h
      unfold awaitTurn
      split
      · exact unrefBuffer_pushed _
      · split <;> rfl
    | drainPopped item =>
      rw [hsite] at h
      obtain rfl := Option.some.inj h
      exact unrefBuffer_pushed item
    | awaitKeeps | stopPopped | finalizePopped =>
      rw [hsite] at h
      obtain rfl := Option.some.inj h
      rfl

theorem push_upcoming (h : queueStep s .push = some s') :
    s'.upcoming = s.upcoming ++ [s.pushed] ∧ s'.pushed = s.pushed + 1 ∧ s'.site = s.site := by
  unfold queueStep at h
  simp only at h
  split at h
  · exact absurd h nofun
  · obtain rfl := Option.some.inj h
    refine ⟨?_, rfl, rfl⟩
    unfold QueueState.upcoming
    show (s.site.hand ++ (s.frameQueue ++ [Item.buffer s.pushed])).filterMap _ = _
    rw [← List.append_assoc, List.filterMap_append]
    rfl

end Leaving

/-! ## The walk -/

/-- The state of the feeder with the parameter sets of the access unit. -/
def Walked.sets (w : Walked) : StreamState := (latchSets w.self false w.au).1

/-- What the feeder makes of one access unit. -/
theorem Feeding.walk_inv {f f' : Feeding} (h : f.walk = some f') :
    ∃ au rest, f.rest = au :: rest ∧
      (((auStep f.ts f.stream au).2 = none ∧
          f' = { f with stream := (auStep f.ts f.stream au).1, rest := rest }) ∨
        ∃ buffer queue, (auStep f.ts f.stream au).2 = some buffer ∧ queueStep f.queue .push = some queue ∧
          f' = { f with
            queue := queue
            stream := (auStep f.ts f.stream au).1
            rest := rest
            walked := f.walked ++ [⟨f.stream, au, buffer⟩] }) := by
  unfold Feeding.walk at h
  cases hrest : f.rest with
  | nil =>
    rw [hrest] at h
    exact absurd h nofun
  | cons au rest =>
    obtain ⟨hself, hpushed⟩ := deliverAu_step f.ts ⟨f.stream, false, []⟩ au
    rw [hrest] at h
    simp only [hself, hpushed, List.nil_append] at h
    refine ⟨au, rest, rfl, ?_⟩
    cases hbuffer : (auStep f.ts f.stream au).2 with
    | none =>
      rw [hbuffer] at h
      exact Or.inl ⟨rfl, (Option.some.inj h).symm⟩
    | some buffer =>
      rw [hbuffer] at h
      obtain ⟨queue, hqueue, heq⟩ := Option.map_eq_some_iff.mp h
      exact Or.inr ⟨buffer, queue, rfl, hqueue, heq.symm⟩

/-- A dropped access unit leaves its parameter sets. -/
theorem auStep_none {ts : UInt64} {self : StreamState} {au : List NalUnit} (h : (auStep ts self au).2 = none) :
    (auStep ts self au).1 = (latchSets self false au).1 := by
  unfold auStep at h ⊢
  by_cases hdrop : dropsAu (latchSets self false au).1 au = true
  · simp only [hdrop, if_true]
  · simp only [hdrop, if_false, Bool.false_eq_true] at h
    exact absurd h nofun

theorem auStep_some {ts : UInt64} {self : StreamState} {au : List NalUnit} {buffer : GstBuffer}
    (h : (auStep ts self au).2 = some buffer) :
    dropsAu (latchSets self false au).1 au = false ∧
      buffer.data = (assemble (insertedSets (latchSets self false au).1 au) au).map some ∧
      buffer.offset = self.frameOffset ∧ (auStep ts self au).1.frameOffset = self.frameOffset + 1 := by
  have hoffset : (latchSets self false au).1.frameOffset = self.frameOffset := by
    rw [(latchSets_latched au self false).rest]
  unfold auStep at h ⊢
  cases hdrop : dropsAu (latchSets self false au).1 au with
  | true =>
    simp only [hdrop, if_true] at h
    exact absurd h nofun
  | false =>
    simp only [hdrop, if_false, Bool.false_eq_true] at h ⊢
    obtain rfl := Option.some.inj h
    refine ⟨trivial, rfl, ?_, ?_⟩
    · rw [← hoffset]
      unfold pushAu
      cases hasSlice au <;> rfl
    · rw [← hoffset]
      unfold pushAu
      cases hasSlice au <;> rfl

/-- What was pushed and updated before says nothing about what the feeder makes of the rest. -/
theorem foldl_deliverAu_self (ts : UInt64) (aus : List (List NalUnit)) {w w' : Walk} (h : w.self = w'.self) :
    (aus.foldl (deliverAu ts) w).self = (aus.foldl (deliverAu ts) w').self := by
  induction aus generalizing w w' with
  | nil => exact h
  | cons au aus ih =>
    rw [List.foldl_cons, List.foldl_cons]
    apply ih
    rw [(deliverAu_step ts w au).1, (deliverAu_step ts w' au).1, h]

theorem Feeding.walk_eq {f : Feeding} {au : List NalUnit} {rest : List (List NalUnit)} (hrest : f.rest = au :: rest)
    (hsite : f.queue.site ≠ .finalized) :
    ∃ f', f.walk = some f' ∧ f'.stream = (auStep f.ts f.stream au).1 ∧ f'.rest = rest ∧ f'.ts = f.ts ∧
      f'.queue.site = f.queue.site ∧
      f'.walked.map Walked.buffer = f.walked.map Walked.buffer ++ (auStep f.ts f.stream au).2.toList := by
  obtain ⟨hself, hpushed⟩ := deliverAu_step f.ts ⟨f.stream, false, []⟩ au
  unfold Feeding.walk queueStep
  rw [hrest]
  simp only [hself, hpushed, List.nil_append]
  cases (auStep f.ts f.stream au).2 with
  | none => exact ⟨_, rfl, rfl, rfl, rfl, rfl, (List.append_nil _).symm⟩
  | some buffer =>
    simp only [Option.toList_some, if_neg hsite]
    refine ⟨_, rfl, rfl, rfl, rfl, rfl, ?_⟩
    rw [List.map_append]
    rfl

/-- The walk over the access units that are left. -/
theorem walks_rest {f : Feeding} (hsite : f.queue.site ≠ .finalized) :
    ∃ f', Runs.run feedStep f (List.replicate f.rest.length .walk) = some f' ∧
      f'.stream = (f.rest.foldl (deliverAu f.ts) ⟨f.stream, false, []⟩).self ∧ f'.rest = [] ∧
      f'.walked.map Walked.buffer =
        f.walked.map Walked.buffer ++ (f.rest.foldl (deliverAu f.ts) ⟨f.stream, false, []⟩).pushed := by
  cases hrest : f.rest with
  | nil => exact ⟨f, rfl, rfl, hrest, (List.append_nil _).symm⟩
  | cons au rest =>
    obtain ⟨f₁, hwalk, hstream, hrest₁, hts, hsite₁, hwalked⟩ := f.walk_eq hrest hsite
    have hless : f₁.rest.length < f.rest.length := by
      rw [hrest₁, hrest]
      exact Nat.lt_succ_self _
    rw [← hsite₁] at hsite
    obtain ⟨f', hrun, hstream', hnone, hwalked'⟩ := walks_rest hsite
    rw [hrest₁, hts, hstream] at hstream' hwalked'
    refine ⟨f', (Runs.run_cons_eq_some feedStep).mpr ⟨f₁, hwalk, ?_⟩, ?_, hnone, ?_⟩
    · rw [← hrest₁]
      exact hrun
    · rw [hstream', List.foldl_cons]
      exact foldl_deliverAu_self f.ts rest (deliverAu_step f.ts ⟨f.stream, false, []⟩ au).1.symm
    · rw [hwalked', hwalked, foldl_deliverAu, foldl_deliverAu, List.append_assoc, auRun]
      cases (auStep f.ts f.stream au).2 <;> rfl
termination_by f.rest.length

/-- **A delivery**: the walk pushes what `frame_callback` pushes, and leaves the state that it leaves. -/
theorem walks_delivery {f : Feeding} (hflow : f.flow.streams = true) (hrest : f.rest = [])
    (hsite : f.queue.site ≠ .finalized) (arrival : Arrival) (frame : Option (List Byte)) :
    ∃ walks f', Runs.run feedStep f (.deliver arrival frame :: List.replicate walks .walk) = some f' ∧
      f'.stream = (frameCallback f.stream arrival frame).self ∧ f'.rest = [] ∧
      f'.walked.map Walked.buffer =
        f.walked.map Walked.buffer ++ (frameCallback f.stream arrival frame).pushed := by
  have hstep : feedStep f (.deliver arrival frame) = some (f.deliver arrival frame) := if_pos ⟨hflow, hrest⟩
  have hsame : (f.deliver arrival frame).queue = f.queue ∧ (f.deliver arrival frame).walked = f.walked := by
    unfold Feeding.deliver
    split
    · exact ⟨rfl, rfl⟩
    · split <;> exact ⟨rfl, rfl⟩
  obtain ⟨f', hrun, hstream, hnone, hwalked⟩ := walks_rest (f := f.deliver arrival frame) (by rw [hsame.1]; exact hsite)
  have houtcome : ∀ w, w = (f.deliver arrival frame).rest.foldl (deliverAu (f.deliver arrival frame).ts)
        ⟨(f.deliver arrival frame).stream, false, []⟩ →
      w.self = (frameCallback f.stream arrival frame).self ∧ w.pushed = (frameCallback f.stream arrival frame).pushed := by
    unfold Feeding.deliver frameCallback
    cases acceptsFrame frame with
    | none =>
      rintro w rfl
      simp only [hrest]
      exact ⟨rfl, rfl⟩
    | some data =>
      rintro w rfl
      cases snapshotClock f.stream with
      | none =>
        simp only [hrest]
        exact ⟨rfl, rfl⟩
      | some snapshot => exact ⟨rfl, rfl⟩
  obtain ⟨hself, hpushed⟩ := houtcome _ rfl
  refine ⟨_, f', (Runs.run_cons_eq_some feedStep).mpr ⟨_, hstep, hrun⟩, hstream.trans hself, hnone, ?_⟩
  rw [hwalked, hsame.2, hpushed]

end FrameQueue
end LibuvcH264Src
