import LibuvcH264Src.Feeding

/-!
# Resumption

* `Discarded`, `Flushed` : what is logged since `create` last returned a buffer;
* `Walked.Due` : the feeder puts the parameter sets into the access unit, `Walked.Opens` : they are there;
* `Placed` : which call can be under way in which state of the stream, and what is upcoming there;
* `Resumes` : behind a discard of the recovery or of `stop`, the stream opens with the next buffer;
* `resumes_iff` : it opens behind every discard if and only if it does behind those of a flush.
-/

namespace LibuvcH264Src
namespace FrameQueue
open AnnexB

/-! ## What should be -/

def Taken.isReturned : Taken → Bool
  | .returned _ => true
  | _ => false

/-- What is logged since `create` last returned a buffer. -/
def sinceReturned (log : List Taken) : List Taken := log.takeWhile fun e => !e.isReturned

/-- `unlock_stop` or the flushing branch of `create` dropped a buffer. -/
def Flushed (log : List Taken) : Prop := ∃ n, .flushed n ∈ sinceReturned log

/-- `await_first_frame`, `drain_queue`, `stop` or `finalize` did. -/
def Drained (log : List Taken) : Prop := ∃ n, .drained n ∈ sinceReturned log

def Discarded (log : List Taken) : Prop := Flushed log ∨ Drained log

/-- The feeder comes to an IDR slice with the gate closed, or with sets to send. -/
def Walked.Due (w : Walked) : Prop := hasIdr w.au = true ∧ (w.self.hadIdr = false ∨ w.sets.sendSpsPps = true)

/-- The buffer holds an IDR slice, and the cached parameter sets immediately in front of the first one. -/
def Walked.Opens (w : Walked) : Prop :=
  hasIdr w.au = true ∧ w.buffer.data = (assemble (cachedSets w.sets) w.au).map some

def Feeding.Due (f : Feeding) (n : Nat) : Prop := ∃ w, f.walked[n]? = some w ∧ w.Due

def Feeding.Opens (f : Feeding) (n : Nat) : Prop := ∃ w, f.walked[n]? = some w ∧ w.Opens

/-! ## What was walked -/

/-- The buffer was made of the access unit, and there was a set to insert. -/
structure Walked.Made (w : Walked) : Prop where
  data : w.buffer.data = (assemble (insertedSets w.sets w.au) w.au).map some
  sets : cachedSets w.sets ≠ []

theorem Walked.sets_hadIdr (w : Walked) : w.sets.hadIdr = w.self.hadIdr := by
  unfold Walked.sets
  rw [(latchSets_latched w.au w.self false).rest]

theorem Walked.due_iff (w : Walked) : w.Due ↔ insertsSets w.sets w.au = true := by
  unfold Walked.Due insertsSets
  rw [w.sets_hadIdr, Bool.and_eq_true, Bool.or_eq_true, Bool.not_eq_true']

/-- The sets are there where they are due, and nowhere else. -/
theorem Walked.Made.opens_iff {w : Walked} (h : w.Made) : w.Opens ↔ w.Due := by
  rw [w.due_iff]
  unfold Walked.Opens
  rw [h.data]
  unfold insertedSets
  cases hdue : insertsSets w.sets w.au with
  | true =>
    have hidr : hasIdr w.au = true := (Bool.and_eq_true_iff.mp hdue).1
    exact ⟨fun _ => rfl, fun _ => ⟨hidr, rfl⟩⟩
  | false =>
    refine ⟨fun ⟨_, hsame⟩ => ?_, fun hfalse => absurd hfalse nofun⟩
    have hlength := congrArg List.length hsame
    simp only [Bool.false_eq_true, if_false, List.length_map, length_assemble, List.length_nil] at hlength
    have hsets : (cachedSets w.sets).length = 0 := by omega
    exact absurd (List.length_eq_zero_iff.mp hsets) h.sets

theorem lastAccepted_ne_nil {kind : NalUnitType} {initial : List Byte} (h : initial ≠ []) (units : List NalUnit) :
    lastAccepted kind initial units ≠ [] := by
  rcases lastAccepted_cases kind initial units with ⟨hsame, -⟩ | ⟨u, -, -, haccepts, hdata⟩
  · rw [hsame]
    exact h
  · rw [← hdata]
    intro hnil
    have hlen : u.len ≠ 0 := by
      unfold acceptsUnit at haccepts
      simp only [Bool.and_eq_true, decide_eq_true_eq] at haccepts
      exact haccepts.2.1
    exact hlen (congrArg List.length hnil)

theorem latchSets_slot (self : StreamState) (au : List NalUnit) (kind : NalUnitType) :
    slot (latchSets self false au).1 kind = lastAccepted kind (slot self kind) au :=
  (latchSets_latched au self false).slot kind

theorem auStep_slot (ts : UInt64) (self : StreamState) (au : List NalUnit) (kind : NalUnitType) :
    slot (auStep ts self au).1 kind = lastAccepted kind (slot self kind) au := by
  rw [← latchSets_slot]
  exact (auStep_same ts self au).slot kind

/-- What the feeder pushes, while there is a set to insert. -/
theorem walked_made {ts : UInt64} {self : StreamState} {au : List NalUnit} {buffer : GstBuffer}
    (h : (auStep ts self au).2 = some buffer) (hsets : slot self .sps ≠ []) :
    (⟨self, au, buffer⟩ : Walked).Made := by
  refine ⟨(auStep_some h).2.1, ?_⟩
  have hsps : slot (latchSets self false au).1 .sps ≠ [] := by
    rw [latchSets_slot]
    exact lastAccepted_ne_nil hsets au
  unfold cachedSets
  simp only [ne_eq, List.append_eq_nil_iff, not_and]
  exact fun hnil => absurd hnil.2 hsps

/-- Behind the closed gate, what is pushed is due, and where nothing is the gate stays closed. -/
theorem walked_due {ts : UInt64} {self : StreamState} {au : List NalUnit} {buffer : GstBuffer}
    (h : (auStep ts self au).2 = some buffer) (hgate : self.hadIdr = false) : (⟨self, au, buffer⟩ : Walked).Due := by
  have hdrop := (auStep_some h).1
  unfold dropsAu at hdrop
  rw [(latchSets_latched au self false).rest] at hdrop
  simp only [hgate, Bool.or_eq_false_iff, Bool.not_false, Bool.true_and, Bool.not_eq_false'] at hdrop
  exact ⟨hdrop.1, Or.inl hgate⟩

theorem auStep_gate {ts : UInt64} {self : StreamState} {au : List NalUnit} (h : (auStep ts self au).2 = none) :
    (auStep ts self au).1.hadIdr = self.hadIdr := by
  rw [auStep_none h, (latchSets_latched au self false).rest]

/-! ## Which call is under way -/

/-- The state of the stream where a call is at a site. -/
def Flow.Fits (flow : Flow) : Site → Prop
  | .idle => True
  | .create | .createPopped _ => flow = .live
  | .await | .awaitPopped _ | .awaitKeeps _ => flow = .proving
  | .drain | .drainPopped _ => flow = .torn
  | .stop _ | .stopPopped _ _ => flow.streams = false
  | .finalize | .finalizePopped _ | .finalized => flow = .closed

/-- There is no stream that could deliver, and the queue was drained. -/
def Flow.isEmpty : Flow → Bool
  | .closed | .ready => true
  | _ => false

structure Placed (f : Feeding) : Prop where
  counted : f.walked.length = f.queue.pushed
  still : f.flow.streams = false → f.rest = []
  fits : f.flow.Fits f.queue.site
  empty : f.flow.isEmpty = true → f.queue.upcoming = []
  ready : f.flow = .ready → f.stream.hadIdr = false ∧ f.stream.sendSpsPps = false
  sets : slot f.stream .sps ≠ []
  made : ∀ w ∈ f.walked, w.Made

/-- What an operation at the queue makes of the stream, with what it logs and what is upcoming behind it. -/
inductive Flow.Turns (flow : Flow) (entries : List Taken) (upcoming : List Nat) : Flow → Prop where
  | stays (hdrained : flow.streams = true → ∀ n, .drained n ∉ entries)
      (hreturned : ∀ n, .returned n ∈ entries → flow = .live) : Turns flow entries upcoming flow
  | proves (h : flow = .proving) (hnone : entries = []) : Turns flow entries upcoming .live
  | fails (h : flow = .proving) (hnone : ∀ n, .returned n ∉ entries) : Turns flow entries upcoming .unproven
  | closes (h : flow.streams = false) (hnone : entries = []) (hempty : upcoming = []) :
      Turns flow entries upcoming .closed

section Sites
variable {s s' : QueueState} {flow : Flow}

theorem Flow.Turns.quiet (flow : Flow) (upcoming : List Nat) : flow.Turns [] upcoming flow :=
  .stays (fun _ _ => List.not_mem_nil) fun _ hin => absurd hin List.not_mem_nil

theorem Item.taken_mem {item : Item} {entry : Nat → Taken} {e : Taken} (h : e ∈ item.taken entry) : ∃ n, e = entry n := by
  cases item with
  | buffer n => exact ⟨n, List.mem_singleton.mp h⟩
  | flushSentinel => exact absurd h List.not_mem_nil

/-- What is dropped where the stream does not deliver, or while flushing. -/
theorem Flow.Turns.discards {entry : Nat → Taken} (hentry : ∀ n m, entry n ≠ .returned m)
    (h : flow.streams = true → ∀ n m, entry n ≠ .drained m) (item : Item) (upcoming : List Nat) :
    flow.Turns (item.taken entry) upcoming flow := by
  refine .stays (fun hstreams n hin => ?_) fun n hin => ?_
  · obtain ⟨m, hsame⟩ := Item.taken_mem hin
    exact h hstreams m n hsame.symm
  · obtain ⟨m, hsame⟩ := Item.taken_mem hin
    exact absurd hsame.symm (hentry m n)

theorem Flow.Turns.drains (h : flow.streams = false) (item : Item) (upcoming : List Nat) :
    flow.Turns (item.taken .drained) upcoming flow :=
  .discards (by simp) (fun hstreams => absurd (hstreams.symm.trans h) nofun) item upcoming

/-- A pop finds the queue empty, or leaves with an item. -/
theorem pop_site (s : QueueState) (empty : Site) (popped : Item → Site) :
    ((s.pop empty popped).site = empty ∧ (s.pop empty popped).upcoming = empty.hand.filterMap Item.number) ∨
      ∃ item, (s.pop empty popped).site = popped item := by
  unfold QueueState.pop
  cases s.frameQueue with
  | nil =>
    refine Or.inl ⟨rfl, ?_⟩
    show (empty.hand ++ []).filterMap _ = _
    rw [List.append_nil]
  | cons item rest => exact Or.inr ⟨item, rfl⟩

/-- The next operation of the call that is under way. -/
theorem callStep_turns (hfits : flow.Fits s.site) (h : callStep s = some s') :
    (flow.after s.site s'.site).Fits s'.site ∧
      flow.Turns (callTaken s) s'.upcoming (flow.after s.site s'.site) := by
  unfold callStep at h
  unfold callTaken
  cases hsite : s.site with
  | idle | finalized =>
    rw [hsite] at h
    exact absurd h nofun
  | create =>
    rw [hsite] at h hfits
    obtain rfl := Option.some.inj h
    rcases pop_site s (.createPopped none) (fun item => .createPopped (some item)) with ⟨hempty, -⟩ | ⟨item, hpopped⟩
    · simp only [hempty]
      exact ⟨hfits, .quiet _ _⟩
    · simp only [hpopped]
      exact ⟨hfits, .quiet _ _⟩
  | createPopped item =>
    rw [hsite] at h hfits
    obtain rfl := Option.some.inj h
    unfold createTurn
    cases item with
    | none =>
      simp only [ite_self]
      exact ⟨trivial, .quiet _ _⟩
    | some item =>
      by_cases hflushing : s.flushing = true
      · simp only [if_pos hflushing]
        exact ⟨trivial, .discards (by simp) (by simp) item _⟩
      · simp only [if_neg hflushing]
        cases item with
        | flushSentinel => exact ⟨hfits, .quiet _ _⟩
        | buffer n =>
          refine ⟨trivial, .stays (fun _ m hin => ?_) fun _ _ => hfits⟩
          exact absurd (List.mem_singleton.mp hin) nofun
  | await =>
    rw [hsite] at h hfits
    obtain rfl := Option.some.inj h
    rcases pop_site s .idle .awaitPopped with ⟨hempty, -⟩ | ⟨item, hpopped⟩
    · simp only [hempty]
      exact ⟨trivial, .fails hfits fun _ => List.not_mem_nil⟩
    · simp only [hpopped]
      exact ⟨hfits, .quiet _ _⟩
  | awaitPopped item =>
    rw [hsite] at h hfits
    obtain rfl := Option.some.inj h
    unfold awaitTurn
    by_cases hflushing : s.flushing = true
    · simp only [if_pos hflushing]
      refine ⟨trivial, .fails hfits fun n hin => ?_⟩
      obtain ⟨m, hsame⟩ := Item.taken_mem hin
      exact absurd hsame nofun
    · simp only [if_neg hflushing]
      split <;> exact ⟨hfits, .quiet _ _⟩
  | awaitKeeps item =>
    rw [hsite] at h hfits
    obtain rfl := Option.some.inj h
    exact ⟨trivial, .proves hfits rfl⟩
  | drain =>
    rw [hsite] at h hfits
    obtain rfl := Option.some.inj h
    have htorn : flow.streams = false := congrArg Flow.streams hfits
    rcases pop_site s .idle .drainPopped with ⟨hempty, hnone⟩ | ⟨item, hpopped⟩
    · simp only [hempty]
      exact ⟨trivial, .closes htorn rfl hnone⟩
    · simp only [hpopped]
      exact ⟨hfits, .quiet _ _⟩
  | drainPopped item =>
    rw [hsite] at h hfits
    obtain rfl := Option.some.inj h
    exact ⟨hfits, .drains (congrArg Flow.streams hfits) item _⟩
  | stop finalizing =>
    rw [hsite] at h hfits
    obtain rfl := Option.some.inj h
    rcases pop_site s (if finalizing then .finalize else .idle) (.stopPopped finalizing) with
      ⟨hempty, hnone⟩ | ⟨item, hpopped⟩
    · cases finalizing with
      | true =>
        simp only [if_true] at hempty hnone
        simp only [if_true, hempty]
        exact ⟨rfl, .closes hfits rfl hnone⟩
      | false =>
        simp only [Bool.false_eq_true, if_false] at hempty hnone
        simp only [Bool.false_eq_true, if_false, hempty]
        exact ⟨trivial, .closes hfits rfl hnone⟩
    · simp only [hpopped]
      exact ⟨hfits, .quiet _ _⟩
  | stopPopped finalizing item =>
    rw [hsite] at h hfits
    obtain rfl := Option.some.inj h
    exact ⟨hfits, .drains hfits item _⟩
  | finalize =>
    rw [hsite] at h hfits
    obtain rfl := Option.some.inj h
    rcases pop_site s .finalized .finalizePopped with ⟨hempty, -⟩ | ⟨item, hpopped⟩
    · simp only [hempty]
      exact ⟨hfits, .quiet _ _⟩
    · simp only [hpopped]
      exact ⟨hfits, .quiet _ _⟩
  | finalizePopped item =>
    rw [hsite] at h hfits
    obtain rfl := Option.some.inj h
    exact ⟨hfits, .drains (congrArg Flow.streams hfits) item _⟩

theorem Flow.after_same (flow : Flow) (site : Site) : flow.after site site = flow := by
  cases site <;> rfl

/-- An operation of another thread. -/
theorem turns_same {entries : List Taken} {upcoming : List Nat} (hfits : flow.Fits s.site) (hsite : s'.site = s.site)
    (h : flow.Turns entries upcoming flow) :
    (flow.after s.site s'.site).Fits s'.site ∧ flow.Turns entries upcoming (flow.after s.site s'.site) := by
  rw [hsite, flow.after_same]
  exact ⟨hfits, h⟩

/-- **What an operation at the queue makes of the stream.** -/
theorem queueStep_turns {m : Move} (hfits : flow.Fits s.site) (hallows : flow.allows m = true)
    (h : queueStep s m = some s') :
    (flow.after s.site s'.site).Fits s'.site ∧ flow.Turns (taken s m) s'.upcoming (flow.after s.site s'.site) := by
  unfold queueStep at h
  cases m with
  | push => exact absurd hallows nofun
  | unlock | unlockStop =>
    obtain rfl := Option.some.inj h
    exact turns_same hfits rfl (.quiet _ _)
  | pushSentinel =>
    simp only at h
    split at h
    · exact absurd h nofun
    · obtain rfl := Option.some.inj h
      exact turns_same hfits rfl (.quiet _ _)
  | resume =>
    simp only at h
    split at h
    · exact absurd h nofun
    · unfold taken
      cases hqueue : s.frameQueue with
      | nil =>
        rw [hqueue] at h
        obtain rfl := Option.some.inj h
        exact turns_same hfits rfl (.quiet _ _)
      | cons item rest =>
        rw [hqueue] at h
        obtain rfl := Option.some.inj h
        exact turns_same hfits rfl (.discards (by simp) (by simp) item _)
  | drop item =>
    simp only at h
    split at h
    · obtain rfl := Option.some.inj h
      have hsite : (s.unrefBuffer item).site = s.site := by
        unfold QueueState.unrefBuffer
        split <;> rfl
      exact turns_same hfits hsite (.quiet _ _)
    · exact absurd h nofun
  | call call =>
    simp only at h
    split at h
    · next hsite =>
      obtain rfl := Option.some.inj h
      rw [hsite]
      cases call with
      | create =>
        have hlive : flow = .live := of_decide_eq_true hallows
        exact ⟨hlive, .quiet _ _⟩
      | awaitFirstFrame =>
        have hproving : flow = .proving := of_decide_eq_true hallows
        exact ⟨hproving, .quiet _ _⟩
      | drainQueue =>
        have htorn : flow = .torn := of_decide_eq_true hallows
        exact ⟨htorn, .quiet _ _⟩
      | stop | finalize =>
        have hstill : flow.streams = false := by simpa [Flow.allows] using hallows
        exact ⟨hstill, .quiet _ _⟩
    · exact absurd h nofun
  | step => exact callStep_turns hfits h
  | expire =>
    simp only at h
    split at h
    · next hsite =>
      obtain rfl := Option.some.inj h
      rw [hsite] at hfits ⊢
      exact ⟨trivial, .fails hfits fun _ => List.not_mem_nil⟩
    · exact absurd h nofun

end Sites

/-! ## The steps -/

theorem loadBytes_slot (self : StreamState) (file : List Byte) (kind : NalUnitType) :
    slot (loadBytes self file) kind =
      lastAccepted kind (slot self kind) (parseNalUnits self.frameFormat 3 (file.take (spsppsBufSz * 3))) :=
  slot_foldl_loadUnit _ self kind

theorem loadBytes_gate (self : StreamState) (file : List Byte) :
    (loadBytes self file).hadIdr = self.hadIdr ∧ (loadBytes self file).sendSpsPps = self.sendSpsPps ∧
      (loadBytes self file).frameOffset = self.frameOffset := by
  unfold loadBytes
  induction parseNalUnits self.frameFormat 3 (file.take (spsppsBufSz * 3)) generalizing self with
  | nil => exact ⟨rfl, rfl, rfl⟩
  | cons u units ih =>
    rw [List.foldl_cons, (ih _).1, (ih _).2.1, (ih _).2.2]
    unfold loadSpspps.loadUnit
    split
    · exact ⟨rfl, rfl, rfl⟩
    · split <;> exact ⟨rfl, rfl, rfl⟩

theorem Feeding.deliver_same (f : Feeding) (arrival : Arrival) (frame : Option (List Byte)) :
    ∃ baseTime ts rest, f.deliver arrival frame =
      { f with stream := { f.stream with baseTime := baseTime }, ts := ts, rest := rest } := by
  unfold Feeding.deliver
  split
  · exact ⟨_, _, _, rfl⟩
  · split
    · exact ⟨_, _, _, rfl⟩
    · unfold latchBaseTime
      split_ifs <;> exact ⟨_, _, _, rfl⟩

/-- What is written to the state of the feeder beside the walk. -/
theorem Placed.rewritten {f : Feeding} (h : Placed f) (stream : StreamState) (hgate : stream.hadIdr = f.stream.hadIdr)
    (hsend : stream.sendSpsPps = f.stream.sendSpsPps) (hsets : slot stream .sps ≠ []) :
    Placed { f with stream := stream } where
  counted := h.counted
  still := h.still
  fits := h.fits
  empty := h.empty
  ready hready := ⟨hgate.trans (h.ready hready).1, hsend.trans (h.ready hready).2⟩
  sets := hsets
  made := h.made

theorem Leaves.nil {ns ns' : List Nat} (h : Leaves [] ns ns') : ns' = ns := by
  cases h
  rfl

theorem Leaves.of_nil {entries : List Taken} {ns ns' : List Nat} (h : Leaves entries ns ns') (hnone : ns = []) :
    ns' = [] := by
  cases h with
  | nothing => exact hnone
  | returned n ns | drained n ns => exact absurd hnone nofun
  | flushed ms n ns => exact absurd hnone (by simp)

/-- Between two calls the stream may change its state. -/
theorem Placed.turned {f : Feeding} (h : Placed f) (hidle : f.queue.site = .idle) (stream : StreamState) (flow : Flow)
    (hstill : flow.streams = false → f.rest = []) (hempty : flow.isEmpty = true → f.queue.upcoming = [])
    (hready : flow = .ready → stream.hadIdr = false ∧ stream.sendSpsPps = false) (hsets : slot stream .sps ≠ []) :
    Placed { f with stream := stream, flow := flow } where
  counted := h.counted
  still := hstill
  fits := by
    show flow.Fits f.queue.site
    rw [hidle]
    trivial
  empty := hempty
  ready := hready
  sets := hsets
  made := h.made

/-- An access unit is left of a running stream only. -/
theorem Placed.streams {f : Feeding} (h : Placed f) (hrest : f.rest ≠ []) : f.flow.streams = true := by
  by_contra hstill
  exact hrest (h.still (Bool.eq_false_of_not_eq_true hstill))

theorem Flow.not_isEmpty {flow : Flow} (h : flow.streams = true) : flow.isEmpty = false := by
  cases flow <;> first | rfl | exact absurd h nofun

theorem Placed.walk {f f' : Feeding} (h : Placed f) (hs : f.walk = some f') : Placed f' := by
  obtain ⟨au, rest, hrest, hwalk⟩ := Feeding.walk_inv hs
  have hstreams := h.streams (by rw [hrest]; exact List.cons_ne_nil au rest)
  have hstill : ∀ {p : Prop}, f.flow.streams = false → p := fun hstill => absurd (hstreams.symm.trans hstill) nofun
  have hempty : ∀ {p : Prop}, f.flow.isEmpty = true → p := fun hempty =>
    absurd ((Flow.not_isEmpty hstreams).symm.trans hempty) nofun
  have hsets : slot (auStep f.ts f.stream au).1 .sps ≠ [] := by
    rw [auStep_slot]
    exact lastAccepted_ne_nil h.sets au
  rcases hwalk with ⟨hnone, rfl⟩ | ⟨buffer, queue, hbuffer, hqueue, rfl⟩
  · exact ⟨h.counted, hstill, h.fits, hempty, fun hready => hempty (congrArg Flow.isEmpty hready), hsets, h.made⟩
  · obtain ⟨hupcoming, hpushed, hsite⟩ := push_upcoming hqueue
    refine ⟨?_, hstill, ?_, hempty, fun hready => hempty (congrArg Flow.isEmpty hready), hsets, fun w hw => ?_⟩
    · rw [hpushed, List.length_append, h.counted]
      rfl
    · show f.flow.Fits queue.site
      rw [hsite]
      exact h.fits
    · rcases List.mem_append.mp hw with hw | hw
      · exact h.made w hw
      · rw [List.mem_singleton.mp hw]
        exact walked_made hbuffer h.sets

theorem Placed.queue {f : Feeding} {m : Move} {queue : QueueState} (h : Placed f) (hallows : f.flow.allows m = true)
    (hqueue : queueStep f.queue m = some queue) :
    Placed { f with
      queue := queue
      flow := f.flow.after f.queue.site queue.site
      log := taken f.queue m ++ f.log } := by
  have hpush : m ≠ .push := by
    rintro rfl
    exact absurd hallows nofun
  obtain ⟨hfits, hturns⟩ := queueStep_turns h.fits hallows hqueue
  have hleaves := queueStep_leaves hpush hqueue
  have hcounted : f.walked.length = queue.pushed := h.counted.trans (queueStep_pushed hpush hqueue).symm
  generalize f.flow.after f.queue.site queue.site = flow at hfits hturns ⊢
  cases hturns with
  | stays =>
    exact ⟨hcounted, h.still, hfits, fun hempty => hleaves.of_nil (h.empty hempty), h.ready, h.sets, h.made⟩
  | proves | fails => exact ⟨hcounted, nofun, hfits, nofun, nofun, h.sets, h.made⟩
  | closes hstill hnone hempty =>
    exact ⟨hcounted, fun _ => h.still hstill, hfits, fun _ => hempty, nofun, h.sets, h.made⟩

/-- **What an event makes of the state of the stream and of what is upcoming.** -/
theorem Placed.step {f f' : Feeding} {e : FeedEvent} (h : Placed f) (hs : feedStep f e = some f') : Placed f' := by
  unfold feedStep at hs
  cases e with
  | deliver arrival frame =>
    simp only at hs
    split at hs
    · next hstart =>
      obtain rfl := Option.some.inj hs
      obtain ⟨baseTime, ts, rest, hsame⟩ := f.deliver_same arrival frame
      rw [hsame]
      have hstreams : f.flow.streams = true := hstart.1
      exact ⟨h.counted, fun hstill => absurd (hstreams.symm.trans hstill) nofun, h.fits, h.empty, h.ready, h.sets, h.made⟩
    · exact absurd hs nofun
  | walk => exact h.walk hs
  | setClock clock =>
    obtain rfl := Option.some.inj hs
    cases clock <;> exact h.rewritten _ rfl rfl h.sets
  | changeState transition =>
    obtain rfl := Option.some.inj hs
    cases transition <;> exact h.rewritten _ rfl rfl h.sets
  | retune terms =>
    obtain rfl := Option.some.inj hs
    exact h.rewritten _ rfl rfl h.sets
  | load file =>
    obtain rfl := Option.some.inj hs
    refine h.rewritten _ (loadBytes_gate _ _).1 (loadBytes_gate _ _).2.1 ?_
    rw [loadBytes_slot]
    exact lastAccepted_ne_nil h.sets _
  | start =>
    simp only at hs
    split at hs
    · next hclosed =>
      obtain rfl := Option.some.inj hs
      have hempty : f.flow.isEmpty = true := congrArg Flow.isEmpty hclosed.1
      exact h.turned hclosed.2 _ .ready (fun _ => h.still (congrArg Flow.streams hclosed.1)) (fun _ => h.empty hempty)
        (fun _ => ⟨rfl, rfl⟩) h.sets
    · exact absurd hs nofun
  | begin =>
    simp only at hs
    split at hs
    · next hready =>
      obtain rfl := Option.some.inj hs
      exact h.turned hready.2 _ .live nofun nofun nofun h.sets
    · exact absurd hs nofun
  | reopen proving =>
    simp only at hs
    split at hs
    · next hclosed =>
      obtain rfl := Option.some.inj hs
      cases proving
      · exact h.turned hclosed.2 _ .live nofun nofun nofun h.sets
      · exact h.turned hclosed.2 _ .proving nofun nofun nofun h.sets
    · exact absurd hs nofun
  | teardown =>
    simp only at hs
    split at hs
    · next hdown =>
      obtain rfl := Option.some.inj hs
      exact h.turned hdown.2.2 _ .torn (fun _ => hdown.2.1) nofun nofun h.sets
    · exact absurd hs nofun
  | queue m =>
    simp only at hs
    split at hs
    · next hallows =>
      obtain ⟨queue, hqueue, rfl⟩ := Option.map_eq_some_iff.mp hs
      exact h.queue hallows hqueue
    · exact absurd hs nofun

/-! ## Behind a recovery -/

/-- The stream is open, or about to be. -/
def Flow.isOpen : Flow → Bool
  | .live | .proving => true
  | _ => false

/-- The first buffer to leave the queue opens the stream. -/
structure Feeding.First (f : Feeding) : Prop where
  gate : f.queue.upcoming = [] → f.stream.hadIdr = false
  due : ∀ n ns, f.queue.upcoming = n :: ns → f.Due n

/-- What is returned behind a discard was due, where no flush made one. -/
def Taken.Heeds (due : Nat → Prop) (log : List Taken) : Taken → Prop
  | .returned n => Drained log → ¬ Flushed log → due n
  | _ => True

def Heeded (due : Nat → Prop) : List Taken → Prop
  | [] => True
  | e :: log => e.Heeds due log ∧ Heeded due log

structure Resumes (f : Feeding) : Prop where
  placed : Placed f
  first : Drained f.log → ¬ Flushed f.log → f.flow.isOpen = true → f.First
  heeded : Heeded f.Due f.log

theorem Heeded.mono {due due' : Nat → Prop} (hdue : ∀ n, due n → due' n) {log : List Taken} (h : Heeded due log) :
    Heeded due' log := by
  induction log with
  | nil => trivial
  | cons e log ih =>
    refine ⟨?_, ih h.2⟩
    cases e with
    | returned n => exact fun hdrained hflushed => hdue n (h.1 hdrained hflushed)
    | flushed | drained => trivial

theorem Heeded.of_append {due : Nat → Prop} {newer older : List Taken} (h : Heeded due (newer ++ older)) :
    Heeded due older := by
  induction newer with
  | nil => exact h
  | cons e newer ih => exact ih h.2

theorem Feeding.Due.append {f : Feeding} {n : Nat} (h : f.Due n) (queue : QueueState) (stream : StreamState)
    (rest : List (List NalUnit)) (w : Walked) :
    Feeding.Due { f with queue := queue, stream := stream, rest := rest, walked := f.walked ++ [w] } n := by
  obtain ⟨v, hv, hdue⟩ := h
  obtain ⟨hn, -⟩ := List.getElem?_eq_some_iff.mp hv
  exact ⟨v, (List.getElem?_append_left hn).trans hv, hdue⟩

/-- The walk, towards an empty queue behind the closed gate, or behind what is upcoming. -/
theorem Feeding.First.walk {f f' : Feeding} (hplaced : Placed f) (h : f.First) (hwalk : f.walk = some f') : f'.First := by
  obtain ⟨au, rest, -, ⟨hnone, rfl⟩ | ⟨buffer, queue, hbuffer, hqueue, rfl⟩⟩ := Feeding.walk_inv hwalk
  · exact ⟨fun hempty => (auStep_gate hnone).trans (h.gate hempty), h.due⟩
  · obtain ⟨hupcoming, -, -⟩ := push_upcoming hqueue
    refine ⟨fun hempty => ?_, fun n ns hnext => ?_⟩
    · change queue.upcoming = [] at hempty
      rw [hupcoming] at hempty
      exact absurd hempty (by simp)
    · change queue.upcoming = n :: ns at hnext
      rw [hupcoming] at hnext
      cases hbefore : f.queue.upcoming with
      | nil =>
        rw [hbefore] at hnext
        obtain ⟨rfl, -⟩ := List.cons.inj hnext
        refine ⟨⟨f.stream, au, buffer⟩, ?_, walked_due hbuffer (h.gate hbefore)⟩
        rw [← hplaced.counted]
        exact List.getElem?_concat_length
      | cons m ms =>
        rw [hbefore] at hnext
        obtain ⟨rfl, -⟩ := List.cons.inj hnext
        exact (h.due m ms hbefore).append queue _ rest _

/-- What is written beside the walk leaves the gate alone. -/
theorem Resumes.rewritten {f : Feeding} (h : Resumes f) (stream : StreamState) (ts : UInt64)
    (rest : List (List NalUnit)) (hgate : stream.hadIdr = f.stream.hadIdr)
    (hplaced : Placed { f with stream := stream, ts := ts, rest := rest }) :
    Resumes { f with stream := stream, ts := ts, rest := rest } where
  placed := hplaced
  first hdrained hflushed hopen :=
    ⟨fun hempty => hgate.trans ((h.first hdrained hflushed hopen).gate hempty), (h.first hdrained hflushed hopen).due⟩
  heeded := h.heeded

theorem sinceReturned_mem {log : List Taken} {e : Taken} (h : e ∈ sinceReturned log) : e ∈ log :=
  (List.takeWhile_sublist _).subset h

theorem resumes_init : Resumes .init where
  placed := ⟨rfl, fun _ => rfl, trivial, fun _ => rfl, nofun, by decide, fun _ hin => absurd hin List.not_mem_nil⟩
  first := fun ⟨_, hin⟩ => absurd hin List.not_mem_nil
  heeded := trivial

/-- An operation at the queue. -/
theorem Resumes.queue {f : Feeding} {m : Move} {queue : QueueState} (h : Resumes f) (hallows : f.flow.allows m = true)
    (hqueue : queueStep f.queue m = some queue) :
    (Drained (taken f.queue m ++ f.log) → ¬ Flushed (taken f.queue m ++ f.log) →
        (f.flow.after f.queue.site queue.site).isOpen = true → Feeding.First { f with queue := queue }) ∧
      Heeded f.Due (taken f.queue m ++ f.log) := by
  have hpush : m ≠ .push := by
    rintro rfl
    exact absurd hallows nofun
  obtain ⟨-, hturns⟩ := queueStep_turns h.placed.fits hallows hqueue
  have hleaves := queueStep_leaves hpush hqueue
  generalize f.flow.after f.queue.site queue.site = flow at hturns ⊢
  generalize taken f.queue m = entries at hleaves hturns ⊢
  have hreturns : ∀ n, .returned n ∈ entries → f.flow = .live := by
    intro n hin
    cases hturns with
    | stays _ hreturned => exact hreturned n hin
    | proves _ hnone | closes _ hnone =>
      rw [hnone] at hin
      exact absurd hin List.not_mem_nil
    | fails _ hnone => exact absurd hin (hnone n)
  generalize hbefore : f.queue.upcoming = before at hleaves
  generalize hbehind : queue.upcoming = behind at hleaves hturns
  cases hleaves with
  | nothing =>
    refine ⟨fun hdrained hflushed hopen => ?_, h.heeded⟩
    have hfirst : f.flow.isOpen = true → f.First := h.first hdrained hflushed
    have hwas : f.flow.isOpen = true := by
      cases hturns with
      | stays => exact hopen
      | proves hproving => exact congrArg Flow.isOpen hproving
      | fails | closes => exact absurd hopen nofun
    refine ⟨fun hempty => (hfirst hwas).gate ?_, fun n ns hnext => (hfirst hwas).due n ns ?_⟩
    · exact hbefore.trans (hbehind.symm.trans hempty)
    · exact hbefore.trans (hbehind.symm.trans hnext)
  | returned n =>
    -- nothing is dropped since
    refine ⟨fun ⟨_, hin⟩ => absurd hin List.not_mem_nil, ?_, h.heeded⟩
    intro hdrained hflushed
    have hlive := hreturns n (List.mem_singleton_self _)
    exact (h.first hdrained hflushed (congrArg Flow.isOpen hlive)).due n _ hbefore
  | drained n =>
    refine ⟨fun _ _ hopen => ?_, trivial, h.heeded⟩
    cases hturns with
    | stays hdrained =>
      have hstreams : f.flow.streams = true := by
        revert hopen
        cases f.flow <;> simp [Flow.isOpen, Flow.streams]
      exact absurd (List.mem_singleton_self _) (hdrained hstreams n)
    | proves _ hnone => exact absurd hnone nofun
    | fails | closes => exact absurd hopen nofun
  | flushed ms n =>
    refine ⟨fun _ hflushed => absurd ⟨n, ?_⟩ hflushed, trivial, h.heeded⟩
    exact List.mem_cons_self ..

/-- **The step lemma.** -/
theorem Resumes.step {f f' : Feeding} {e : FeedEvent} (h : Resumes f) (hs : feedStep f e = some f') : Resumes f' := by
  have hplaced := h.placed.step hs
  unfold feedStep at hs
  cases e with
  | deliver arrival frame =>
    simp only at hs
    split at hs
    · obtain rfl := Option.some.inj hs
      obtain ⟨baseTime, ts, rest, hsame⟩ := f.deliver_same arrival frame
      rw [hsame] at hplaced ⊢
      exact h.rewritten _ ts rest rfl hplaced
    · exact absurd hs nofun
  | walk =>
    refine ⟨hplaced, fun hdrained hflushed hopen => ?_, ?_⟩
    · have hsame : f'.log = f.log ∧ f'.flow = f.flow := by
        obtain ⟨au, rest, -, ⟨-, rfl⟩ | ⟨_, _, -, -, rfl⟩⟩ := Feeding.walk_inv hs <;> exact ⟨rfl, rfl⟩
      rw [hsame.1] at hdrained hflushed
      rw [hsame.2] at hopen
      exact (h.first hdrained hflushed hopen).walk h.placed hs
    · obtain ⟨au, rest, -, ⟨-, rfl⟩ | ⟨buffer, queue, -, -, rfl⟩⟩ := Feeding.walk_inv hs
      · exact h.heeded
      · exact h.heeded.mono fun n hdue => hdue.append queue _ rest _
  | setClock clock =>
    obtain rfl := Option.some.inj hs
    exact h.rewritten _ f.ts f.rest (by cases clock <;> rfl) hplaced
  | changeState transition =>
    obtain rfl := Option.some.inj hs
    exact h.rewritten _ f.ts f.rest (by cases transition <;> rfl) hplaced
  | retune terms =>
    obtain rfl := Option.some.inj hs
    exact h.rewritten _ f.ts f.rest rfl hplaced
  | load file =>
    obtain rfl := Option.some.inj hs
    exact h.rewritten _ f.ts f.rest (loadBytes_gate _ _).1 hplaced
  | start =>
    simp only at hs
    split at hs
    · obtain rfl := Option.some.inj hs
      exact ⟨hplaced, nofun, h.heeded⟩
    · exact absurd hs nofun
  | begin =>
    simp only at hs
    split at hs
    · next hready =>
      obtain rfl := Option.some.inj hs
      have hempty := h.placed.empty (congrArg Flow.isEmpty hready.1)
      refine ⟨hplaced, fun _ _ _ => ⟨fun _ => (h.placed.ready hready.1).1, fun n ns hnext => ?_⟩, h.heeded⟩
      exact absurd (hempty.symm.trans hnext) nofun
    · exact absurd hs nofun
  | reopen proving =>
    simp only at hs
    split at hs
    · next hclosed =>
      obtain rfl := Option.some.inj hs
      have hempty := h.placed.empty (congrArg Flow.isEmpty hclosed.1)
      refine ⟨hplaced, fun _ _ _ => ⟨fun _ => rfl, fun n ns hnext => ?_⟩, h.heeded⟩
      exact absurd (hempty.symm.trans hnext) nofun
    · exact absurd hs nofun
  | teardown =>
    simp only at hs
    split at hs
    · obtain rfl := Option.some.inj hs
      exact ⟨hplaced, nofun, h.heeded⟩
    · exact absurd hs nofun
  | queue m =>
    simp only at hs
    split at hs
    · next hallows =>
      obtain ⟨queue, hqueue, rfl⟩ := Option.map_eq_some_iff.mp hs
      obtain ⟨hfirst, hheeded⟩ := h.queue hallows hqueue
      refine ⟨hplaced, fun hdrained hflushed hopen => ?_, hheeded⟩
      have hnext := hfirst hdrained hflushed hopen
      exact ⟨hnext.gate, hnext.due⟩
    · exact absurd hs nofun

theorem resumes_run {events : List FeedEvent} {f : Feeding} (h : Runs.run feedStep .init events = some f) : Resumes f :=
  Runs.run_induction feedStep (fun _ _ _ hinv hs => hinv.step hs) resumes_init h

/-! ## The runs -/

theorem Feeding.opens_iff {f : Feeding} (h : Placed f) (n : Nat) : f.Opens n ↔ f.Due n := by
  refine exists_congr fun w => and_congr_right fun hw => ?_
  exact (h.made w (List.mem_of_getElem? hw)).opens_iff

/-- **In every run, the stream opens with the next buffer behind every discard** if and only if, where the discards
of a flush are behind it, the feeder came to that buffer's access unit with the gate closed, or with sets to send,
and found an IDR slice. -/
theorem resumes_iff {events : List FeedEvent} {f : Feeding} (hrun : Runs.run feedStep .init events = some f) :
    (∀ newer n older, f.log = newer ++ .returned n :: older → Discarded older → f.Opens n) ↔
      ∀ newer n older, f.log = newer ++ .returned n :: older → Flushed older → f.Due n := by
  have hinv := resumes_run hrun
  constructor
  · intro h newer n older hlog hflushed
    exact (Feeding.opens_iff hinv.placed n).mp (h newer n older hlog (Or.inl hflushed))
  · intro h newer n older hlog hdiscarded
    rw [Feeding.opens_iff hinv.placed]
    by_cases hflushed : Flushed older
    · exact h newer n older hlog hflushed
    · have hheeded := hinv.heeded
      rw [hlog] at hheeded
      exact hheeded.of_append.1 (hdiscarded.resolve_left hflushed) hflushed

/-- A delivery that is one slice: an IDR slice, or another. -/
def sliceEvents (header : Byte) : List FeedEvent :=
  [.deliver ⟨0, 0⟩ (some [0x00, 0x00, 0x00, 0x01, header, 0x88]), .walk]

/-- A call of `create` that finds a frame. -/
def createEvents : List FeedEvent := [.queue (.call .create), .queue .step, .queue .step]

/-- The stream is started, and its first frame returned. -/
def openingEvents : List FeedEvent :=
  [.start, .retune ⟨.h264, 33333333, 1920, 1080⟩, .setClock true, .begin] ++ sliceEvents 0x65 ++ createEvents

/-- A second frame is dropped in a recovery; behind it the camera goes on in the middle of a group of pictures, and
what is returned next is the IDR slice behind that. -/
def recoveredEvents : List FeedEvent :=
  openingEvents ++ sliceEvents 0x41 ++
    [.teardown, .queue (.call .drainQueue), .queue .step, .queue .step, .queue .step, .reopen false] ++
    sliceEvents 0x41 ++ sliceEvents 0x65 ++ createEvents

theorem resumes_iff_recovered : ∃ f, Runs.run feedStep .init recoveredEvents = some f ∧
    f.log = [.returned 2, .drained 1, .returned 0] ∧ f.Opens 2 := by
  obtain ⟨f, hrun, hlog⟩ : ∃ f, Runs.run feedStep .init recoveredEvents = some f ∧
      f.log = [.returned 2, .drained 1, .returned 0] := ⟨_, rfl, rfl⟩
  have hnone : ∀ newer n older, f.log = newer ++ .returned n :: older → ¬ Flushed older := by
    intro newer n older hsplit ⟨m, hin⟩
    have hmem : .flushed m ∈ f.log := by
      rw [hsplit]
      exact List.mem_append_right _ (List.mem_cons_of_mem _ (sinceReturned_mem hin))
    rw [hlog] at hmem
    exact absurd hmem (by simp)
  refine ⟨f, hrun, hlog, (resumes_iff hrun).mpr ?_ [] 2 _ hlog (Or.inr ⟨1, by decide⟩)⟩
  exact fun newer n older hsplit hflushed => absurd hflushed (hnone newer n older hsplit)

/-- A second frame is in the queue when the element is paused: `unlock_stop` drops it, and the third is returned
without an IDR slice. -/
def pausedEvents : List FeedEvent :=
  openingEvents ++ sliceEvents 0x41 ++
    [.queue .unlock, .queue .pushSentinel, .queue .unlockStop, .queue .resume, .queue (.drop (.buffer 1)),
      .queue .resume, .queue (.drop .flushSentinel), .queue .resume] ++
    sliceEvents 0x41 ++ createEvents

theorem not_resumes : ¬ ∀ events f, Runs.run feedStep .init events = some f →
    ∀ newer n older, f.log = newer ++ .returned n :: older → Discarded older → f.Opens n := by
  intro h
  obtain ⟨f, w, hrun, hlog, hw, hidr⟩ : ∃ f w, Runs.run feedStep .init pausedEvents = some f ∧
      f.log = [.returned 2, .flushed 1, .returned 0] ∧ f.walked[2]? = some w ∧ hasIdr w.au = false :=
    ⟨_, _, rfl, rfl, rfl, rfl⟩
  obtain ⟨v, hv, hopens, -⟩ := h pausedEvents f hrun [] 2 _ hlog (Or.inl ⟨1, by decide⟩)
  obtain rfl := Option.some.inj (hw.symm.trans hv)
  exact absurd (hopens.symm.trans hidr) nofun

end FrameQueue
end LibuvcH264Src
