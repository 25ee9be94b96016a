import LibuvcH264Src.Runs

/-!
# The threads at the frame queue

* `Item`, `Site`, `QueueState` : the queue, where each thread stands, and what became of every item;
* `queueStep` : one operation of one thread, an atomic one of the queue or of `flushing`;
* `Conserved` : every buffer is in one place, and no sentinel is taken for one;
* `queue_conserved` : it is, in every run in which `stop` and `finalize` meet no sentinel.

The base class makes one call after the other of `create`, `stop` and `finalize`, and `create` is where the
recovery waits for a frame and drains the queue; the feeder pushes, and others call `unlock` and `unlock_stop`.
-/

namespace LibuvcH264Src
namespace FrameQueue

/-! ## The state -/

/-- What is in `frame_queue`: the buffers are numbered as the feeder pushes them. -/
inductive Item where
  | buffer (n : Nat)
  | flushSentinel
  deriving DecidableEq

/-- The calls that are made one after the other. Those of a recovery are made between two turns of the loop in
`create`. -/
inductive QueueCall where
  | create
  | awaitFirstFrame
  | drainQueue
  | stop
  | finalize
  deriving DecidableEq

/-- Where the thread that makes them stands: in front of a pop, or behind it with what it popped. `stop` is
called by itself or from `finalize`, which has a loop of its own behind it. -/
inductive Site where
  | idle
  | create
  | createPopped (item : Option Item)
  | await
  | awaitPopped (item : Item)
  | awaitKeeps (item : Item)
  | drain
  | drainPopped (item : Item)
  | stop (finalizing : Bool)
  | stopPopped (finalizing : Bool) (item : Item)
  | finalize
  | finalizePopped (item : Item)
  | finalized
  deriving DecidableEq

/-- What the thread holds. -/
def Site.hand : Site → List Item
  | .createPopped item => item.toList
  | .awaitPopped item => [item]
  | .awaitKeeps item => [item]
  | .drainPopped item => [item]
  | .stopPopped _ item => [item]
  | .finalizePopped item => [item]
  | _ => []

/-- `pushed` buffers were pushed; `returned` and `unreffed` are what `create` returned and what was given to
`gst_buffer_unref`. Of the others, so many calls of `unlock` have yet to push their sentinel, and so many of
`unlock_stop` are in front of a pop; `dropping` is what the latter hold. -/
structure QueueState where
  frameQueue : List Item
  flushing : Bool
  site : Site
  unlocking : Nat
  resuming : Nat
  dropping : List Item
  pushed : Nat
  returned : List Item
  unreffed : List Item
  deriving DecidableEq

def QueueState.init : QueueState := ⟨[], false, .idle, 0, 0, [], 0, [], []⟩

def QueueState.unref (s : QueueState) (item : Item) : QueueState := { s with unreffed := s.unreffed ++ [item] }

/-- `if (item != FLUSH_SENTINEL) gst_buffer_unref(item)`. -/
def QueueState.unrefBuffer (s : QueueState) (item : Item) : QueueState :=
  if item = .flushSentinel then s else s.unref item

/-! ## The calls -/

/-- A pop: `empty` where there is nothing, and else `popped` with the item. -/
def QueueState.pop (s : QueueState) (empty : Site) (popped : Item → Site) : QueueState :=
  match s.frameQueue with
  | [] => { s with site := empty }
  | item :: rest => { s with frameQueue := rest, site := popped item }

/-- Behind the pop of `create`. Behind a timeout there is another turn, a recovery or the error. -/
def createTurn (s : QueueState) (item : Option Item) : QueueState :=
  if s.flushing then
    match item with
    | none => { s with site := .idle }
    | some item => { s.unrefBuffer item with site := .idle }
  else
    match item with
    | none => { s with site := .idle }
    | some .flushSentinel => { s with site := .create }
    | some item => { s with site := .idle, returned := s.returned ++ [item] }

/-- Behind the pop of `await_first_frame`. -/
def awaitTurn (s : QueueState) (item : Item) : QueueState :=
  if s.flushing then { s.unrefBuffer item with site := .idle }
  else if item = .flushSentinel then { s with site := .await }
  else { s with site := .awaitKeeps item }

/-- The next operation of the call that is under way. -/
def callStep (s : QueueState) : Option QueueState :=
  match s.site with
  | .idle => none
  | .create => some (s.pop (.createPopped none) fun item => .createPopped (some item))
  | .createPopped item => some (createTurn s item)
  | .await => some (s.pop .idle .awaitPopped)
  | .awaitPopped item => some (awaitTurn s item)
  | .awaitKeeps item => some { s with frameQueue := item :: s.frameQueue, site := .idle }
  | .drain => some (s.pop .idle .drainPopped)
  | .drainPopped item => some { s.unrefBuffer item with site := .drain }
  | .stop finalizing => some (s.pop (if finalizing then .finalize else .idle) (.stopPopped finalizing))
  -- no check for the sentinel here, nor in `finalize`
  | .stopPopped finalizing item => some { s.unref item with site := .stop finalizing }
  | .finalize => some (s.pop .finalized .finalizePopped)
  | .finalizePopped item => some { s.unref item with site := .finalize }
  | .finalized => none

/-- The next call. -/
def beginCall (s : QueueState) (call : QueueCall) : QueueState :=
  { s with
    site :=
      match call with
      | .create => .create
      | .awaitFirstFrame => .await
      | .drainQueue => .drain
      | .stop => .stop false
      | .finalize => .stop true }

/-! ## The threads -/

/-- One operation of one thread. -/
inductive Move where
  /-- `frame_callback` pushes a buffer. -/
  | push
  /-- `unlock` sets `flushing`, -/
  | unlock
  /-- and pushes the sentinel. -/
  | pushSentinel
  /-- `unlock_stop` clears `flushing`, -/
  | unlockStop
  /-- pops, -/
  | resume
  /-- and lets go what it popped. -/
  | drop (item : Item)
  | call (call : QueueCall)
  | step
  /-- The time of `await_first_frame` is up. -/
  | expire
  deriving DecidableEq

/-- There is no queue behind `finalize`. -/
def queueStep (s : QueueState) : Move → Option QueueState
  | .push =>
    if s.site = .finalized then none
    else some { s with frameQueue := s.frameQueue ++ [.buffer s.pushed], pushed := s.pushed + 1 }
  | .unlock => some { s with flushing := true, unlocking := s.unlocking + 1 }
  | .pushSentinel =>
    if s.site = .finalized ∨ s.unlocking = 0 then none
    else some { s with frameQueue := s.frameQueue ++ [.flushSentinel], unlocking := s.unlocking - 1 }
  | .unlockStop => some { s with flushing := false, resuming := s.resuming + 1 }
  | .resume =>
    if s.site = .finalized ∨ s.resuming = 0 then none
    else
      match s.frameQueue with
      | [] => some { s with resuming := s.resuming - 1 }
      | item :: rest =>
        some { s with frameQueue := rest, resuming := s.resuming - 1, dropping := item :: s.dropping }
  | .drop item =>
    if item ∈ s.dropping then
      some { s.unrefBuffer item with dropping := s.dropping.erase item, resuming := s.resuming + 1 }
    else none
  | .call call => if s.site = .idle then some (beginCall s call) else none
  | .step => callStep s
  | .expire => if s.site = .await then some { s with site := .idle } else none

/-! ## What should be -/

/-- What is still on its way. -/
def QueueState.held (s : QueueState) : List Item := s.site.hand ++ s.dropping ++ s.frameQueue

/-- The number of a buffer. -/
def Item.number : Item → Option Nat
  | .buffer n => some n
  | .flushSentinel => none

/-- Every buffer that was pushed was returned once, or unreferenced once, or is still on its way; they are
returned in the order in which they were pushed; and the sentinel is no buffer. -/
structure Conserved (s : QueueState) : Prop where
  once : ∀ n, s.returned.count (.buffer n) + s.unreffed.count (.buffer n) + s.held.count (.buffer n) =
    if n < s.pushed then 1 else 0
  order : (s.returned.filterMap Item.number).Pairwise (· < ·)
  sentinel : Item.flushSentinel ∉ s.returned ∧ Item.flushSentinel ∉ s.unreffed

/-- No sentinel is what `stop` or `finalize` pops next. -/
def Unsentried (s : QueueState) (m : Move) : Prop :=
  m = .step → (s.site = .stop false ∨ s.site = .stop true ∨ s.site = .finalize) →
    s.frameQueue.head? ≠ some .flushSentinel

instance (s : QueueState) (m : Move) : Decidable (Unsentried s m) := by
  unfold Unsentried
  infer_instance

/-! ## The invariant -/

/-- The buffers that `create` returned and may yet return, in this order. -/
def QueueState.line (s : QueueState) : List Nat :=
  (s.returned ++ (s.site.hand ++ s.frameQueue)).filterMap Item.number

/-- What is kept or unreferenced without a look at it is a buffer. -/
def Site.Sound : Site → Prop
  | .awaitKeeps item => item ≠ .flushSentinel
  | .stopPopped _ item => item ≠ .flushSentinel
  | .finalizePopped item => item ≠ .flushSentinel
  | _ => True

structure Inv (s : QueueState) : Prop where
  once : ∀ n, s.returned.count (.buffer n) + s.unreffed.count (.buffer n) + s.held.count (.buffer n) =
    if n < s.pushed then 1 else 0
  line : s.line.Pairwise (· < ·)
  returned : Item.flushSentinel ∉ s.returned
  unreffed : Item.flushSentinel ∉ s.unreffed
  sound : s.site.Sound
  gone : s.site = .finalized → s.frameQueue = []

theorem Inv.conserved {s : QueueState} (h : Inv s) : Conserved s := by
  refine ⟨h.once, List.Pairwise.sublist ?_ h.line, h.returned, h.unreffed⟩
  unfold QueueState.line
  rw [List.filterMap_append]
  exact List.sublist_append_left _ _

theorem inv_init : Inv .init where
  once n := by simp [QueueState.init, QueueState.held, Site.hand]
  line := List.Pairwise.nil
  returned := List.not_mem_nil
  unreffed := List.not_mem_nil
  sound := trivial
  gone := nofun

theorem held_count (s : QueueState) (item : Item) :
    s.held.count item = s.site.hand.count item + s.dropping.count item + s.frameQueue.count item := by
  unfold QueueState.held
  rw [List.count_append, List.count_append]

/-- What moves items without losing one. -/
theorem Inv.moved {s s' : QueueState} (h : Inv s) (hpushed : s'.pushed = s.pushed)
    (hcount : ∀ n, s'.returned.count (.buffer n) + s'.unreffed.count (.buffer n) + s'.held.count (.buffer n) =
      s.returned.count (.buffer n) + s.unreffed.count (.buffer n) + s.held.count (.buffer n))
    (hline : s'.line.Sublist s.line) (hreturned : Item.flushSentinel ∉ s'.returned)
    (hunreffed : Item.flushSentinel ∉ s'.unreffed) (hsound : s'.site.Sound)
    (hgone : s'.site = .finalized → s'.frameQueue = []) : Inv s' where
  once n := by
    rw [hcount, hpushed]
    exact h.once n
  line := List.Pairwise.sublist hline h.line
  returned := hreturned
  unreffed := hunreffed
  sound := hsound
  gone := hgone

/-- What is in hand and in the queue is what was there before, in the same order. -/
theorem Inv.shifted {s : QueueState} (h : Inv s) (site : Site) (frameQueue : List Item)
    (hsame : site.hand ++ frameQueue = s.site.hand ++ s.frameQueue) (hsound : site.Sound)
    (hgone : site = .finalized → frameQueue = []) : Inv { s with site := site, frameQueue := frameQueue } := by
  refine h.moved rfl (fun n => ?_) ?_ h.returned h.unreffed hsound hgone
  · have hcount := congrArg (List.count (Item.buffer n)) hsame
    rw [List.count_append, List.count_append] at hcount
    rw [held_count, held_count]
    show s.returned.count (.buffer n) + s.unreffed.count (.buffer n) +
      (site.hand.count (.buffer n) + s.dropping.count (.buffer n) + frameQueue.count (.buffer n)) = _
    omega
  · show List.Sublist ((s.returned ++ (site.hand ++ frameQueue)).filterMap Item.number) _
    rw [hsame]
    exact List.Sublist.refl _

section Hand
variable {s : QueueState} {item : Item} {site : Site} (h : Inv s) (hhand : s.site.hand = [item])
  (hempty : site.hand = []) (hsound : site.Sound) (hgoes : site ≠ .finalized)
include h hhand hempty hsound hgoes

/-- A sentinel in hand is nothing. -/
theorem Inv.forget (hitem : item = .flushSentinel) : Inv { s with site := site } := by
  refine h.moved rfl (fun n => ?_) ?_ h.returned h.unreffed hsound fun hend => absurd hend hgoes
  · rw [held_count, held_count, hhand, hitem]
    show _ + _ + (site.hand.count (.buffer n) + _ + _) = _
    rw [hempty]
    simp
  · unfold QueueState.line
    show List.Sublist ((s.returned ++ (site.hand ++ s.frameQueue)).filterMap Item.number) _
    rw [hhand, hempty]
    exact List.Sublist.filterMap _ (List.Sublist.append_left (List.sublist_append_right _ _) _)

theorem Inv.unref (hitem : item ≠ .flushSentinel) : Inv { s.unref item with site := site } := by
  refine h.moved rfl (fun n => ?_) ?_ h.returned ?_ hsound fun hend => absurd hend hgoes
  · rw [held_count, held_count, hhand]
    show s.returned.count (.buffer n) + (s.unreffed ++ [item]).count (.buffer n) +
      (site.hand.count (.buffer n) + s.dropping.count (.buffer n) + s.frameQueue.count (.buffer n)) = _
    rw [hempty, List.count_append, List.count_nil]
    omega
  · unfold QueueState.line
    show List.Sublist ((s.returned ++ (site.hand ++ s.frameQueue)).filterMap Item.number) _
    rw [hhand, hempty]
    exact List.Sublist.filterMap _ (List.Sublist.append_left (List.sublist_append_right _ _) _)
  · show Item.flushSentinel ∉ s.unreffed ++ [item]
    intro hin
    rcases List.mem_append.mp hin with hin | hin
    · exact h.unreffed hin
    · exact hitem (List.mem_singleton.mp hin).symm

theorem Inv.unrefBuffer : Inv { s.unrefBuffer item with site := site } := by
  unfold QueueState.unrefBuffer
  by_cases hitem : item = .flushSentinel
  · rw [if_pos hitem]
    exact h.forget hhand hempty hsound hgoes hitem
  · rw [if_neg hitem]
    exact h.unref hhand hempty hsound hgoes hitem

theorem Inv.return (hitem : item ≠ .flushSentinel) :
    Inv { s with site := site, returned := s.returned ++ [item] } := by
  refine h.moved rfl (fun n => ?_) ?_ ?_ h.unreffed hsound fun hend => absurd hend hgoes
  · rw [held_count, held_count, hhand]
    show (s.returned ++ [item]).count (.buffer n) + s.unreffed.count (.buffer n) +
      (site.hand.count (.buffer n) + s.dropping.count (.buffer n) + s.frameQueue.count (.buffer n)) = _
    rw [hempty, List.count_append, List.count_nil]
    omega
  · unfold QueueState.line
    show List.Sublist ((s.returned ++ [item] ++ (site.hand ++ s.frameQueue)).filterMap Item.number) _
    rw [hhand, hempty, List.append_assoc, List.nil_append]
  · show Item.flushSentinel ∉ s.returned ++ [item]
    intro hin
    rcases List.mem_append.mp hin with hin | hin
    · exact h.returned hin
    · exact hitem (List.mem_singleton.mp hin).symm

end Hand

/-- A pop with nothing in hand. -/
theorem Inv.pop {s : QueueState} (h : Inv s) {empty : Site} {popped : Item → Site} (hhand : s.site.hand = [])
    (hempty : empty.hand = []) (hpopped : ∀ item, (popped item).hand = [item]) (hsound : empty.Sound)
    (hitem : ∀ item, s.frameQueue.head? = some item → (popped item).Sound)
    (hgoes : ∀ item, popped item ≠ .finalized) : Inv (s.pop empty popped) := by
  unfold QueueState.pop
  cases hqueue : s.frameQueue with
  | nil =>
    refine h.shifted empty [] ?_ hsound fun _ => rfl
    rw [hempty, hhand, hqueue]
  | cons item rest =>
    apply h.shifted (popped item) rest
    · rw [hpopped, hhand, hqueue]
      rfl
    · apply hitem item
      rw [hqueue]
      rfl
    · exact fun hend => absurd hend (hgoes item)

/-! ## The steps -/

theorem Inv.createTurn {s : QueueState} (h : Inv s) {item : Option Item} (hsite : s.site = .createPopped item) :
    Inv (createTurn s item) := by
  have hhand : s.site.hand = item.toList := by rw [hsite]; rfl
  unfold FrameQueue.createTurn
  cases item with
  | none =>
    have hidle : Inv { s with site := .idle } := by
      refine h.shifted .idle s.frameQueue ?_ trivial nofun
      rw [hhand]
      rfl
    simp only [ite_self]
    exact hidle
  | some item =>
    split
    · exact h.unrefBuffer hhand rfl trivial nofun
    · cases item with
      | flushSentinel => exact h.forget hhand rfl trivial nofun rfl
      | buffer n => exact h.return hhand rfl trivial nofun nofun

theorem Inv.awaitTurn {s : QueueState} (h : Inv s) {item : Item} (hsite : s.site = .awaitPopped item) :
    Inv (awaitTurn s item) := by
  have hhand : s.site.hand = [item] := by rw [hsite]; rfl
  unfold FrameQueue.awaitTurn
  split
  · exact h.unrefBuffer hhand rfl trivial nofun
  · split
    · next hitem => exact h.forget hhand rfl trivial nofun hitem
    · next hitem =>
      refine h.shifted (.awaitKeeps item) s.frameQueue ?_ hitem nofun
      rw [hhand]
      rfl

theorem Inv.callStep {s s' : QueueState} (h : Inv s) (hclean : Unsentried s .step) (hs : callStep s = some s') :
    Inv s' := by
  have hclean := hclean rfl
  have hsound := h.sound
  unfold FrameQueue.callStep at hs
  have hhand : ∀ site : Site, s.site = site → s.site.hand = site.hand := fun _ hsite => congrArg Site.hand hsite
  cases hsite : s.site with
  | idle | finalized =>
    rw [hsite] at hs
    exact absurd hs nofun
  | create =>
    rw [hsite] at hs
    obtain rfl := Option.some.inj hs
    exact h.pop (hhand _ hsite) rfl (fun _ => rfl) trivial (fun _ _ => trivial) nofun
  | createPopped item =>
    rw [hsite] at hs
    obtain rfl := Option.some.inj hs
    exact h.createTurn hsite
  | await =>
    rw [hsite] at hs
    obtain rfl := Option.some.inj hs
    exact h.pop (hhand _ hsite) rfl (fun _ => rfl) trivial (fun _ _ => trivial) nofun
  | awaitPopped item =>
    rw [hsite] at hs
    obtain rfl := Option.some.inj hs
    exact h.awaitTurn hsite
  | awaitKeeps item =>
    rw [hsite] at hs
    obtain rfl := Option.some.inj hs
    refine h.shifted .idle (item :: s.frameQueue) ?_ trivial nofun
    rw [hhand _ hsite]
    rfl
  | drain =>
    rw [hsite] at hs
    obtain rfl := Option.some.inj hs
    exact h.pop (hhand _ hsite) rfl (fun _ => rfl) trivial (fun _ _ => trivial) nofun
  | drainPopped item =>
    rw [hsite] at hs
    obtain rfl := Option.some.inj hs
    exact h.unrefBuffer (hhand _ hsite) rfl trivial nofun
  | stop finalizing =>
    rw [hsite] at hs hclean
    obtain rfl := Option.some.inj hs
    refine h.pop (hhand _ hsite) ?_ (fun _ => rfl) ?_ (fun item hitem hsentinel => ?_) nofun
    · cases finalizing <;> rfl
    · cases finalizing <;> trivial
    · -- the popped item is none of `unlock`'s
      rw [hsentinel] at hitem
      cases finalizing
      · exact hclean (Or.inl rfl) hitem
      · exact hclean (Or.inr (Or.inl rfl)) hitem
  | stopPopped finalizing item =>
    rw [hsite] at hs hsound
    obtain rfl := Option.some.inj hs
    exact h.unref (hhand _ hsite) rfl trivial nofun hsound
  | finalize =>
    rw [hsite] at hs hclean
    obtain rfl := Option.some.inj hs
    refine h.pop (hhand _ hsite) rfl (fun _ => rfl) trivial (fun item hitem hsentinel => ?_) nofun
    rw [hsentinel] at hitem
    exact hclean (Or.inr (Or.inr rfl)) hitem
  | finalizePopped item =>
    rw [hsite] at hs hsound
    obtain rfl := Option.some.inj hs
    exact h.unref (hhand _ hsite) rfl trivial nofun hsound

/-- A new buffer comes behind all others. -/
theorem Inv.push {s : QueueState} (h : Inv s) (hsite : s.site ≠ .finalized) :
    Inv { s with frameQueue := s.frameQueue ++ [.buffer s.pushed], pushed := s.pushed + 1 } := by
  refine ⟨fun n => ?_, ?_, h.returned, h.unreffed, h.sound, fun hend => absurd hend hsite⟩
  · have honce := h.once n
    have hnew : [Item.buffer s.pushed].count (.buffer n) = if n = s.pushed then 1 else 0 := by
      by_cases hn : n = s.pushed
      · rw [if_pos hn, hn]
        exact List.count_singleton_self
      · rw [if_neg hn]
        refine List.count_eq_zero.mpr fun hin => hn ?_
        exact Item.buffer.inj (List.mem_singleton.mp hin)
    rw [held_count] at honce ⊢
    show s.returned.count (.buffer n) + s.unreffed.count (.buffer n) + (s.site.hand.count (.buffer n) +
      s.dropping.count (.buffer n) + (s.frameQueue ++ [Item.buffer s.pushed]).count (Item.buffer n)) =
      if n < s.pushed + 1 then 1 else 0
    rw [List.count_append, hnew]
    split_ifs at honce ⊢ <;> omega
  · have hbefore : ∀ n ∈ s.line, n < s.pushed := by
      intro n hn
      unfold QueueState.line at hn
      obtain ⟨item, hitem, hnumber⟩ := List.mem_filterMap.mp hn
      have hbuffer : item = .buffer n := by
        cases item with
        | buffer m => exact congrArg Item.buffer (Option.some.inj hnumber)
        | flushSentinel => exact absurd hnumber nofun
      rw [hbuffer] at hitem
      have hpos := List.count_pos_iff.mpr hitem
      have honce := h.once n
      rw [List.count_append, List.count_append] at hpos
      rw [held_count] at honce
      by_contra hge
      rw [if_neg hge] at honce
      omega
    have hline : QueueState.line { s with frameQueue := s.frameQueue ++ [.buffer s.pushed], pushed := s.pushed + 1 } =
        s.line ++ [s.pushed] := by
      unfold QueueState.line
      show (s.returned ++ (s.site.hand ++ (s.frameQueue ++ [Item.buffer s.pushed]))).filterMap Item.number = _
      rw [← List.append_assoc s.site.hand, ← List.append_assoc, List.filterMap_append]
      rfl
    rw [hline]
    refine List.pairwise_append.mpr ⟨h.line, List.pairwise_singleton _ _, fun n hn m hm => ?_⟩
    rw [List.mem_singleton.mp hm]
    exact hbefore n hn

theorem Inv.pushSentinel {s : QueueState} (h : Inv s) (hsite : s.site ≠ .finalized) (unlocking : Nat) :
    Inv { s with frameQueue := s.frameQueue ++ [.flushSentinel], unlocking := unlocking } := by
  refine h.moved rfl (fun n => ?_) ?_ h.returned h.unreffed h.sound fun hend => absurd hend hsite
  · rw [held_count, held_count]
    show s.returned.count (.buffer n) + s.unreffed.count (.buffer n) + (s.site.hand.count (.buffer n) +
      s.dropping.count (.buffer n) + (s.frameQueue ++ [Item.flushSentinel]).count (Item.buffer n)) = _
    rw [List.count_append]
    simp
  · unfold QueueState.line
    show List.Sublist ((s.returned ++ (s.site.hand ++ (s.frameQueue ++ [Item.flushSentinel]))).filterMap Item.number) _
    rw [← List.append_assoc s.site.hand, ← List.append_assoc, List.filterMap_append]
    rw [show [Item.flushSentinel].filterMap Item.number = [] from rfl, List.append_nil]

/-- `unlock_stop` pops for itself. -/
theorem Inv.resume {s : QueueState} (h : Inv s) {item : Item} {rest : List Item} (hqueue : s.frameQueue = item :: rest)
    (hsite : s.site ≠ .finalized) (resuming : Nat) :
    Inv { s with frameQueue := rest, resuming := resuming, dropping := item :: s.dropping } := by
  refine h.moved rfl (fun n => ?_) ?_ h.returned h.unreffed h.sound fun hend => absurd hend hsite
  · rw [held_count, held_count, hqueue]
    show s.returned.count (.buffer n) + s.unreffed.count (.buffer n) + (s.site.hand.count (.buffer n) +
      (item :: s.dropping).count (.buffer n) + rest.count (.buffer n)) = _
    rw [List.count_cons, List.count_cons]
    omega
  · unfold QueueState.line
    show List.Sublist ((s.returned ++ (s.site.hand ++ rest)).filterMap Item.number) _
    rw [hqueue]
    apply List.Sublist.filterMap
    exact List.Sublist.append_left (List.Sublist.append_left (List.sublist_cons_self _ _) _) _

theorem Inv.drop {s : QueueState} (h : Inv s) {item : Item} (hitem : item ∈ s.dropping) (resuming : Nat) :
    Inv { s.unrefBuffer item with dropping := s.dropping.erase item, resuming := resuming } := by
  have hcount : ∀ n, (s.dropping.erase item).count (.buffer n) + [item].count (.buffer n) = s.dropping.count (.buffer n) := by
    intro n
    have hperm := (List.perm_cons_erase hitem).count_eq (Item.buffer n)
    rw [hperm, List.count_cons, List.count_cons, List.count_nil]
    omega
  unfold QueueState.unrefBuffer
  by_cases hsentinel : item = .flushSentinel
  · rw [if_pos hsentinel]
    refine h.moved rfl (fun n => ?_) (List.Sublist.refl _) h.returned h.unreffed h.sound h.gone
    have hless := hcount n
    have hnone : [item].count (Item.buffer n) = 0 := by
      rw [hsentinel]
      exact List.count_eq_zero.mpr (by simp)
    rw [held_count, held_count]
    show s.returned.count (.buffer n) + s.unreffed.count (.buffer n) + (s.site.hand.count (.buffer n) +
      (s.dropping.erase item).count (.buffer n) + s.frameQueue.count (.buffer n)) = _
    omega
  · rw [if_neg hsentinel]
    refine h.moved rfl (fun n => ?_) (List.Sublist.refl _) h.returned ?_ h.sound h.gone
    · have hless := hcount n
      rw [held_count, held_count]
      show s.returned.count (.buffer n) + (s.unreffed ++ [item]).count (.buffer n) + (s.site.hand.count (.buffer n) +
        (s.dropping.erase item).count (.buffer n) + s.frameQueue.count (.buffer n)) = _
      rw [List.count_append]
      omega
    · show Item.flushSentinel ∉ s.unreffed ++ [item]
      intro hin
      rcases List.mem_append.mp hin with hin | hin
      · exact h.unreffed hin
      · exact hsentinel (List.mem_singleton.mp hin).symm

/-- What neither holds, nor queues, nor lets go an item. -/
theorem Inv.unmoved {s : QueueState} (h : Inv s) (flushing : Bool) (unlocking resuming : Nat) :
    Inv { s with flushing := flushing, unlocking := unlocking, resuming := resuming } :=
  h.moved rfl (fun _ => rfl) (List.Sublist.refl _) h.returned h.unreffed h.sound h.gone

/-- **The step lemma.** -/
theorem Inv.step {s s' : QueueState} {m : Move} (h : Inv s) (hclean : Unsentried s m) (hs : queueStep s m = some s') :
    Inv s' := by
  unfold queueStep at hs
  cases m with
  | push =>
    simp only at hs
    split at hs
    · exact absurd hs nofun
    · next hsite =>
      obtain rfl := Option.some.inj hs
      exact h.push hsite
  | unlock =>
    obtain rfl := Option.some.inj hs
    exact h.unmoved true (s.unlocking + 1) s.resuming
  | pushSentinel =>
    simp only at hs
    split at hs
    · exact absurd hs nofun
    · next hsite =>
      obtain rfl := Option.some.inj hs
      exact h.pushSentinel (fun hend => hsite (Or.inl hend)) (s.unlocking - 1)
  | unlockStop =>
    obtain rfl := Option.some.inj hs
    exact h.unmoved false s.unlocking (s.resuming + 1)
  | resume =>
    simp only at hs
    split at hs
    · exact absurd hs nofun
    · next hsite =>
      cases hqueue : s.frameQueue with
      | nil =>
        rw [hqueue] at hs
        obtain rfl := Option.some.inj hs
        have hunmoved := h.unmoved s.flushing s.unlocking (s.resuming - 1)
        rw [← hqueue]
        exact hunmoved
      | cons item rest =>
        rw [hqueue] at hs
        obtain rfl := Option.some.inj hs
        exact h.resume hqueue (fun hend => hsite (Or.inl hend)) (s.resuming - 1)
  | drop item =>
    simp only at hs
    split at hs
    · next hitem =>
      obtain rfl := Option.some.inj hs
      exact h.drop hitem (s.resuming + 1)
    · exact absurd hs nofun
  | call call =>
    simp only at hs
    split at hs
    · next hsite =>
      obtain rfl := Option.some.inj hs
      have hhand : s.site.hand = [] := congrArg Site.hand hsite
      apply h.shifted _ s.frameQueue
      · rw [hhand]
        cases call <;> rfl
      · cases call <;> trivial
      · cases call <;> exact nofun
    · exact absurd hs nofun
  | step => exact h.callStep hclean hs
  | expire =>
    simp only at hs
    split at hs
    · next hsite =>
      obtain rfl := Option.some.inj hs
      refine h.shifted .idle s.frameQueue ?_ trivial nofun
      rw [show s.site.hand = [] from congrArg Site.hand hsite]
      rfl
    · exact absurd hs nofun

/-! ## The runs -/

/-- **In every run in which `stop` and `finalize` pop no sentinel**, whatever the order of the threads' operations
and of the calls, every buffer is returned or unreferenced exactly once or still on its way, they are returned in
the order in which they were pushed, and no sentinel is returned or unreferenced; and behind `finalize` every
buffer was returned or unreferenced that no `unlock_stop` has in hand. -/
theorem queue_conserved {moves : List Move} {s : QueueState} (hclean : Runs.Along queueStep Unsentried .init moves)
    (hrun : Runs.run queueStep .init moves = some s) :
    Conserved s ∧ (s.site = .finalized → s.held = s.dropping) := by
  have hinv : Inv s := Runs.run_invariant queueStep (fun _ _ _ h hc hs => h.step hc hs) inv_init hclean hrun
  refine ⟨hinv.conserved, fun hend => ?_⟩
  unfold QueueState.held
  rw [hinv.gone hend, hend]
  exact List.append_nil _

/-- `create` returns a frame, a second one is in the queue when it is interrupted, `unlock_stop` empties the
queue, a third one is put back by the recovery and returned, and the element is given up. -/
def resumedMoves : List Move :=
  [.push, .call .create, .step, .step, .call .create, .push, .unlock, .step, .pushSentinel, .step, .unlockStop, .resume,
    .drop .flushSentinel, .resume, .push, .call .awaitFirstFrame, .step, .step, .step, .call .create, .step, .step,
    .push, .call .finalize, .step, .step, .step, .step]

theorem queue_conserved_resumed : ∃ s, Runs.run queueStep .init resumedMoves = some s ∧
    s.returned = [.buffer 0, .buffer 2] ∧ s.unreffed = [.buffer 1, .buffer 3] ∧
    (Conserved s ∧ (s.site = .finalized → s.held = s.dropping)) := by
  have hclean : Runs.Along queueStep Unsentried .init resumedMoves := by decide +kernel
  obtain ⟨s, hrun, hreturned, hunreffed⟩ : ∃ s, Runs.run queueStep .init resumedMoves = some s ∧
      s.returned = [.buffer 0, .buffer 2] ∧ s.unreffed = [.buffer 1, .buffer 3] := ⟨_, rfl, rfl, rfl⟩
  exact ⟨s, hrun, hreturned, hunreffed, queue_conserved hclean hrun⟩

/-- Interrupted where no `create` is under way, and stopped: `stop` unreferences the sentinel. -/
theorem sentinel_unreferenced : ¬ ∀ moves s, Runs.run queueStep .init moves = some s → Conserved s := by
  intro h
  have hconserved := h [.unlock, .pushSentinel, .call .stop, .step, .step] _ rfl
  exact hconserved.sentinel.2 (by decide)

end FrameQueue
end LibuvcH264Src
