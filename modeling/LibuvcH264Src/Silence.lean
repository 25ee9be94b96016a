import LibuvcH264Src.FrameQueue
import LibuvcH264Src.Lifecycle

/-!
# Silence

* `Mark`, `Listener`, `listen` : the threads at the frame queue with the count of the timeouts, and a log of what
  was pushed, what was dropped and when `create` took the device for silent;
* `lastTimeouts` : what is logged between the first and the last of the timeouts that it went by;
* `Accounts` : between two timeouts, what was pushed was returned or dropped;
* `silent_iff` : nothing was pushed in between if and only if nothing was dropped.
-/

namespace LibuvcH264Src
namespace FrameQueue

/-! ## The log -/

/-- One entry of the log. `timeout` is a pop of `create` that gave nothing, `lost` a buffer that was taken from the
queue and dropped. -/
inductive Mark where
  | pushed (n : Nat)
  | timeout
  | lost (n : Nat)
  | returned (n : Nat)
  | silent
  deriving DecidableEq

structure Listener where
  state : QueueState
  consecutiveTimeouts : Nat
  log : List Mark
  deriving DecidableEq

def Listener.init : Listener := ⟨.init, 0, []⟩

/-- What is dropped where the item is a buffer. -/
def Item.lost : Item → List Mark
  | .buffer n => [.lost n]
  | .flushSentinel => []

/-- What the next operation of the call that is under way leaves in the log. -/
def callMarks (s : QueueState) : List Mark :=
  match s.site with
  | .create => if s.frameQueue = [] then [.timeout] else []
  | .createPopped (some item) =>
    if s.flushing then item.lost
    else
      match item with
      | .buffer n => [.returned n]
      | .flushSentinel => []
  | .awaitPopped item => if s.flushing then item.lost else []
  | .drainPopped item | .stopPopped _ item | .finalizePopped item => item.lost
  | _ => []

def marks (s : QueueState) : Move → List Mark
  | .push => [.pushed s.pushed]
  | .resume => s.frameQueue.head?.elim [] Item.lost
  | .step => callMarks s
  | _ => []

/-- `consecutive_timeouts` behind the next operation: a timeout counts where the element is not flushing, and a frame
or a stale sentinel is no silence. -/
def count (s : QueueState) (timeouts : Nat) : Move → Nat
  | .step =>
    match s.site with
    | .createPopped item =>
      if s.flushing then timeouts
      else
        match item with
        | none => timeouts + 1
        | some _ => 0
    | _ => timeouts
  | _ => timeouts

/-- `create` counts a timeout, and there were too many in a row. -/
def declares (s : QueueState) (timeouts : Nat) (m : Move) : Bool :=
  decide (m = .step ∧ s.site = .createPopped none ∧ s.flushing = false ∧ disconnectTimeoutCount ≤ timeouts + 1)

/-- The threads at the queue; and `start`, and a recovery that succeeded, forget the timeouts. -/
inductive Hearing where
  | move (m : Move)
  | start
  | recovered
  deriving DecidableEq

def listen (l : Listener) : Hearing → Option Listener
  | .move m =>
    (queueStep l.state m).map fun s =>
      { state := s
        consecutiveTimeouts := count l.state l.consecutiveTimeouts m
        log := (if declares l.state l.consecutiveTimeouts m then [.silent] else []) ++ marks l.state m ++ l.log }
  | .start | .recovered => some { l with consecutiveTimeouts := 0 }

/-! ## The window -/

def Mark.isTimeout : Mark → Bool
  | .timeout => true
  | _ => false

/-- Up to the `n`-th timeout. -/
def untilTimeout : Nat → List Mark → List Mark
  | 0, _ => []
  | _, [] => []
  | n + 1, e :: log =>
    if e = .timeout then if n = 0 then [] else .timeout :: untilTimeout n log
    else e :: untilTimeout (n + 1) log

/-- What stands behind the newest timeout. -/
def behindTimeout (log : List Mark) : List Mark := (log.dropWhile fun e => !e.isTimeout).tail

/-- What is logged between the first and the last of the most recent timeouts. -/
def lastTimeouts (log : List Mark) : List Mark := untilTimeout (disconnectTimeoutCount - 1) (behindTimeout log)

/-! ## What is pushed and what becomes of it -/

def Mark.isPushed : Mark → Bool
  | .pushed _ => true
  | _ => false

def Mark.isLost : Mark → Bool
  | .lost _ => true
  | _ => false

def Mark.isReturned : Mark → Bool
  | .returned _ => true
  | _ => false

def Item.isBuffer : Item → Bool
  | .buffer _ => true
  | .flushSentinel => false

/-- The buffers that `create` may yet return. -/
def QueueState.ahead (s : QueueState) : Nat := s.site.hand.countP Item.isBuffer + s.frameQueue.countP Item.isBuffer

/-- What was pushed was returned, or dropped, or is one of so many others. -/
def Balanced (log : List Mark) (ahead : Nat) : Prop :=
  log.countP Mark.isPushed = log.countP Mark.isLost + log.countP Mark.isReturned + ahead

theorem Item.lost_count (item : Item) :
    item.lost.countP Mark.isPushed = 0 ∧ item.lost.countP Mark.isLost = [item].countP Item.isBuffer ∧
      item.lost.countP Mark.isReturned = 0 := by
  cases item <;> exact ⟨rfl, rfl, rfl⟩

section Balance
variable {s s' : QueueState}

theorem unrefBuffer_ahead (s : QueueState) (item : Item) (site : Site) :
    QueueState.ahead { s.unrefBuffer item with site := site } = QueueState.ahead { s with site := site } := by
  unfold QueueState.unrefBuffer
  split <;> rfl

theorem pop_ahead (empty : Site) (popped : Item → Site) (hhand : s.site.hand = []) (hempty : empty.hand = [])
    (hpopped : ∀ item, (popped item).hand = [item]) : (s.pop empty popped).ahead = s.ahead := by
  unfold QueueState.pop QueueState.ahead
  cases hqueue : s.frameQueue with
  | nil =>
    show empty.hand.countP _ + _ = _
    rw [hempty, hhand]
  | cons item rest =>
    show (popped item).hand.countP _ + rest.countP _ = _
    rw [hpopped, hhand, List.countP_cons, List.countP_cons, List.countP_nil]
    omega

/-- The item in hand is dropped. -/
theorem drop_ahead (item : Item) (site : Site) (hhand : s.site.hand = [item]) (hempty : site.hand = []) :
    QueueState.ahead { s with site := site } + item.lost.countP Mark.isLost = s.ahead := by
  unfold QueueState.ahead
  show site.hand.countP _ + s.frameQueue.countP _ + item.lost.countP _ = _
  rw [hhand, hempty, (Item.lost_count item).2.1, List.countP_nil]
  omega

/-- An operation of the calls drops or returns what is not there any more. -/
theorem callStep_ahead (h : callStep s = some s') :
    s'.ahead + (callMarks s).countP Mark.isLost + (callMarks s).countP Mark.isReturned = s.ahead ∧
      (callMarks s).countP Mark.isPushed = 0 := by
  have hhand : ∀ site : Site, s.site = site → s.site.hand = site.hand := fun _ hsite => congrArg Site.hand hsite
  have hlost : ∀ {item : Item} {site : Site}, s.site.hand = [item] → site.hand = [] →
      QueueState.ahead { s.unrefBuffer item with site := site } + item.lost.countP Mark.isLost +
        item.lost.countP Mark.isReturned = s.ahead ∧ item.lost.countP Mark.isPushed = 0 := by
    intro item site hitem hempty
    obtain ⟨hpushed, -, hreturned⟩ := Item.lost_count item
    have hdrop := drop_ahead item site hitem hempty
    rw [unrefBuffer_ahead, hreturned]
    exact ⟨by omega, hpushed⟩
  unfold callStep at h
  unfold callMarks
  cases hsite : s.site with
  | idle | finalized =>
    rw [hsite] at h
    exact absurd h nofun
  | create =>
    rw [hsite] at h
    obtain rfl := Option.some.inj h
    have hpop := pop_ahead (s := s) (.createPopped none) (fun item => .createPopped (some item)) (hhand _ hsite) rfl
      (fun _ => rfl)
    simp only
    rw [hpop]
    split_ifs <;> exact ⟨rfl, rfl⟩
  | createPopped item =>
    rw [hsite] at h
    obtain rfl := Option.some.inj h
    have hitem := hhand _ hsite
    unfold createTurn
    cases item with
    | none =>
      have hsame : QueueState.ahead { s with site := .idle } = s.ahead := by
        unfold QueueState.ahead
        rw [hitem]
        rfl
      simp only [ite_self]
      exact ⟨hsame, rfl⟩
    | some item =>
      by_cases hflushing : s.flushing = true
      · simp only [if_pos hflushing]
        exact hlost hitem rfl
      · simp only [if_neg hflushing]
        have hdrop := drop_ahead item .idle hitem rfl
        cases item with
        | flushSentinel => exact ⟨hdrop, rfl⟩
        | buffer n => exact ⟨hdrop, rfl⟩
  | await =>
    rw [hsite] at h
    obtain rfl := Option.some.inj h
    exact ⟨pop_ahead _ _ (hhand _ hsite) rfl fun _ => rfl, rfl⟩
  | awaitPopped item =>
    rw [hsite] at h
    obtain rfl := Option.some.inj h
    have hitem := hhand _ hsite
    unfold awaitTurn
    by_cases hflushing : s.flushing = true
    · simp only [if_pos hflushing]
      exact hlost hitem rfl
    · simp only [if_neg hflushing]
      split
      · next hsentinel =>
        have hdrop := drop_ahead item .await hitem rfl
        rw [hsentinel] at hdrop
        exact ⟨hdrop, rfl⟩
      · refine ⟨?_, rfl⟩
        unfold QueueState.ahead
        rw [hitem]
        rfl
  | awaitKeeps item =>
    rw [hsite] at h
    obtain rfl := Option.some.inj h
    refine ⟨?_, rfl⟩
    unfold QueueState.ahead
    show 0 + (item :: s.frameQueue).countP _ = _
    rw [hhand _ hsite]
    show _ = [item].countP _ + _
    rw [List.countP_cons, List.countP_cons, List.countP_nil]
    omega
  | drain =>
    rw [hsite] at h
    obtain rfl := Option.some.inj h
    exact ⟨pop_ahead _ _ (hhand _ hsite) rfl fun _ => rfl, rfl⟩
  | drainPopped item =>
    rw [hsite] at h
    obtain rfl := Option.some.inj h
    exact hlost (hhand _ hsite) rfl
  | stop finalizing =>
    rw [hsite] at h
    obtain rfl := Option.some.inj h
    refine ⟨pop_ahead _ _ (hhand _ hsite) ?_ fun _ => rfl, rfl⟩
    cases finalizing <;> rfl
  | stopPopped finalizing item =>
    rw [hsite] at h
    obtain rfl := Option.some.inj h
    obtain ⟨hpushed, -, hreturned⟩ := Item.lost_count item
    have hdrop := drop_ahead item (.stop finalizing) (hhand _ hsite) rfl
    simp only
    rw [hreturned]
    exact ⟨hdrop, hpushed⟩
  | finalize =>
    rw [hsite] at h
    obtain rfl := Option.some.inj h
    exact ⟨pop_ahead _ _ (hhand _ hsite) rfl fun _ => rfl, rfl⟩
  | finalizePopped item =>
    rw [hsite] at h
    obtain rfl := Option.some.inj h
    obtain ⟨hpushed, -, hreturned⟩ := Item.lost_count item
    have hdrop := drop_ahead item .finalize (hhand _ hsite) rfl
    simp only
    rw [hreturned]
    exact ⟨hdrop, hpushed⟩

theorem queueStep_ahead {m : Move} (h : queueStep s m = some s') :
    s'.ahead + (marks s m).countP Mark.isLost + (marks s m).countP Mark.isReturned =
      s.ahead + (marks s m).countP Mark.isPushed := by
  unfold queueStep at h
  cases m with
  | push =>
    simp only at h
    split at h
    · exact absurd h nofun
    · obtain rfl := Option.some.inj h
      unfold QueueState.ahead
      show _ + (s.frameQueue ++ [Item.buffer s.pushed]).countP _ + 0 + 0 = _ + 1
      rw [List.countP_append]
      rfl
  | unlock =>
    obtain rfl := Option.some.inj h
    rfl
  | pushSentinel =>
    simp only at h
    split at h
    · exact absurd h nofun
    · obtain rfl := Option.some.inj h
      unfold QueueState.ahead
      show _ + (s.frameQueue ++ [Item.flushSentinel]).countP _ + 0 + 0 = _ + 0
      rw [List.countP_append]
      rfl
  | unlockStop =>
    obtain rfl := Option.some.inj h
    rfl
  | resume =>
    simp only at h
    split at h
    · exact absurd h nofun
    · unfold marks QueueState.ahead
      cases hqueue : s.frameQueue with
      | nil =>
        rw [hqueue] at h
        obtain rfl := Option.some.inj h
        rfl
      | cons item rest =>
        rw [hqueue] at h
        obtain rfl := Option.some.inj h
        obtain ⟨hpushed, hlost, hreturned⟩ := Item.lost_count item
        show s.site.hand.countP _ + rest.countP _ + item.lost.countP _ + item.lost.countP _ =
          s.site.hand.countP _ + (item :: rest).countP _ + item.lost.countP _
        rw [hpushed, hlost, hreturned, List.countP_cons, List.countP_cons, List.countP_nil]
        omega
  | drop item =>
    simp only at h
    split at h
    · obtain rfl := Option.some.inj h
      unfold QueueState.unrefBuffer
      split <;> rfl
    · exact absurd h nofun
  | call call =>
    simp only at h
    split at h
    · next hsite =>
      obtain rfl := Option.some.inj h
      unfold QueueState.ahead
      rw [show s.site.hand = [] from congrArg Site.hand hsite]
      cases call <;> rfl
    · exact absurd h nofun
  | step =>
    obtain ⟨hahead, hpushed⟩ := callStep_ahead h
    show s'.ahead + (callMarks s).countP _ + (callMarks s).countP _ = s.ahead + (callMarks s).countP _
    rw [hpushed]
    exact hahead
  | expire =>
    simp only at h
    split at h
    · next hsite =>
      obtain rfl := Option.some.inj h
      unfold QueueState.ahead
      rw [show s.site.hand = [] from congrArg Site.hand hsite]
      rfl
    · exact absurd h nofun

end Balance

/-! ## What the timeouts leave -/

/-- What is logged since the newest timeout. -/
def recent (log : List Mark) : List Mark := log.takeWhile fun e => !e.isTimeout

/-- The timeouts since the newest buffer that was returned. -/
def timeoutsSince (log : List Mark) : Nat := (log.takeWhile fun e => !e.isReturned).countP Mark.isTimeout

/-- A timeout that is not counted yet. -/
def Site.timedOut : Site → Nat
  | .createPopped none => 1
  | _ => 0

/-- What an entry says about what is logged before it. -/
def Mark.Explains (log : List Mark) : Mark → Prop
  | .timeout => Balanced (recent log) 0
  | .silent => disconnectTimeoutCount ≤ timeoutsSince log
  | _ => True

/-- Every entry does. -/
def Told : List Mark → Prop
  | [] => True
  | e :: log => e.Explains log ∧ Told log

structure Accounts (l : Listener) : Prop where
  recent : Balanced (recent l.log) l.state.ahead
  told : Told l.log
  counted : l.consecutiveTimeouts + l.state.site.timedOut ≤ timeoutsSince l.log

theorem accounts_init : Accounts .init := ⟨rfl, trivial, Nat.le_refl 0⟩

theorem Told.of_append {newer older : List Mark} (h : Told (newer ++ older)) : Told older := by
  induction newer with
  | nil => exact h
  | cons e newer ih => exact ih h.2

/-- Entries that are neither a timeout nor `silent` have nothing to say. -/
theorem Told.append {es log : List Mark} (h : Told log) (htimeout : .timeout ∉ es) (hsilent : .silent ∉ es) :
    Told (es ++ log) := by
  induction es with
  | nil => exact h
  | cons e es ih =>
    rw [List.mem_cons, not_or] at htimeout hsilent
    refine ⟨?_, ih htimeout.2 hsilent.2⟩
    cases e with
    | timeout => exact absurd rfl htimeout.1
    | silent => exact absurd rfl hsilent.1
    | pushed | lost | returned => trivial

theorem recent_append {es : List Mark} (h : .timeout ∉ es) (log : List Mark) : recent (es ++ log) = es ++ recent log := by
  induction es with
  | nil => rfl
  | cons e es ih =>
    rw [List.mem_cons, not_or] at h
    have hkeep : recent (e :: (es ++ log)) = e :: recent (es ++ log) := by
      cases e with
      | timeout => exact absurd rfl h.1
      | silent | pushed | lost | returned => rfl
    exact hkeep.trans (congrArg (e :: ·) (ih h.2))

theorem timeoutsSince_append {es : List Mark} (htimeout : .timeout ∉ es) (hreturned : ∀ n, .returned n ∉ es)
    (log : List Mark) : timeoutsSince (es ++ log) = timeoutsSince log := by
  induction es with
  | nil => rfl
  | cons e es ih =>
    rw [List.mem_cons, not_or] at htimeout
    have hrest : ∀ n, .returned n ∉ es := fun n hin => hreturned n (List.mem_cons_of_mem _ hin)
    have hsame : timeoutsSince (e :: (es ++ log)) = timeoutsSince (es ++ log) := by
      cases e with
      | timeout => exact absurd rfl htimeout.1
      | returned n => exact absurd (List.mem_cons_self ..) (hreturned n)
      | silent | pushed | lost => rfl
    exact hsame.trans (ih htimeout.2 hrest)

theorem timeoutsSince_timeout (log : List Mark) : timeoutsSince (.timeout :: log) = timeoutsSince log + 1 :=
  List.countP_cons_of_pos rfl

theorem Balanced.append {es log : List Mark} {ahead ahead' : Nat} (h : Balanced log ahead)
    (hstep : ahead' + es.countP Mark.isLost + es.countP Mark.isReturned = ahead + es.countP Mark.isPushed) :
    Balanced (es ++ log) ahead' := by
  unfold Balanced at h ⊢
  rw [List.countP_append, List.countP_append, List.countP_append]
  omega

/-! ## The steps -/

theorem Item.lost_quiet (item : Item) : .timeout ∉ item.lost ∧ (∀ n, .returned n ∉ item.lost) ∧ .silent ∉ item.lost := by
  cases item with
  | buffer n =>
    unfold Item.lost
    simp
  | flushSentinel => exact ⟨nofun, nofun, nofun⟩

/-- What a pop leaves in hand is no timeout, but that of `create`. -/
theorem pop_timedOut {s : QueueState} {empty : Site} {popped : Item → Site} (hempty : empty.timedOut = 0)
    (hpopped : ∀ item, (popped item).timedOut = 0) : (s.pop empty popped).site.timedOut = 0 := by
  unfold QueueState.pop
  cases s.frameQueue with
  | nil => exact hempty
  | cons item rest => exact hpopped item

/-- An operation leaves no entry that matters to the timeouts, and counts none that was not one. -/
structure Quiet (s s' : QueueState) (timeouts timeouts' : Nat) (es : List Mark) : Prop where
  timeout : .timeout ∉ es
  silent : .silent ∉ es
  counted : (timeouts' = 0 ∧ s'.site.timedOut = 0) ∨
    ((∀ n, .returned n ∉ es) ∧ timeouts' + s'.site.timedOut ≤ timeouts + s.site.timedOut)

theorem quiet_lost {s s' : QueueState} (item : Item) (timeouts : Nat) (hsite : s'.site.timedOut = 0) :
    Quiet s s' timeouts timeouts item.lost := by
  obtain ⟨htimeout, hreturned, hsilent⟩ := Item.lost_quiet item
  exact ⟨htimeout, hsilent, Or.inr ⟨hreturned, by omega⟩⟩

theorem quiet_nil {s s' : QueueState} (timeouts : Nat) (hsite : s'.site.timedOut ≤ s.site.timedOut) :
    Quiet s s' timeouts timeouts [] :=
  ⟨List.not_mem_nil, List.not_mem_nil, Or.inr ⟨fun _ => List.not_mem_nil, by omega⟩⟩

theorem quiet_settled {s s' : QueueState} (timeouts : Nat) (hsite : s'.site.timedOut = 0) :
    Quiet s s' timeouts timeouts [] := by
  apply quiet_nil
  omega

theorem callStep_timeouts {s s' : QueueState} (timeouts : Nat) (h : callStep s = some s') :
    (callMarks s = [.timeout] ∧ s.ahead = 0 ∧ s.site = .create ∧ s'.site.timedOut ≤ 1) ∨
      Quiet s s' timeouts (count s timeouts .step) (callMarks s) := by
  unfold callStep at h
  unfold callMarks count
  cases hsite : s.site with
  | idle | finalized =>
    rw [hsite] at h
    exact absurd h nofun
  | create =>
    rw [hsite] at h
    obtain rfl := Option.some.inj h
    cases hqueue : s.frameQueue with
    | nil =>
      left
      refine ⟨by simp, ?_, rfl, ?_⟩
      · unfold QueueState.ahead
        rw [hsite, hqueue]
        rfl
      · unfold QueueState.pop
        rw [hqueue]
        exact Nat.le_refl 1
    | cons item rest =>
      right
      simp only [reduceCtorEq, if_false]
      apply quiet_settled
      unfold QueueState.pop
      rw [hqueue]
      rfl
  | createPopped item =>
    rw [hsite] at h
    obtain rfl := Option.some.inj h
    right
    unfold createTurn
    by_cases hflushing : s.flushing = true
    · cases item with
      | none =>
        simp only [if_pos hflushing]
        exact quiet_settled timeouts rfl
      | some item =>
        simp only [if_pos hflushing]
        exact quiet_lost item timeouts rfl
    · cases item with
      | none =>
        simp only [if_neg hflushing]
        refine ⟨nofun, nofun, Or.inr ⟨nofun, ?_⟩⟩
        rw [hsite]
        exact Nat.le_refl _
      | some item =>
        simp only [if_neg hflushing]
        cases item with
        | flushSentinel => exact ⟨nofun, nofun, Or.inl ⟨rfl, rfl⟩⟩
        | buffer n => exact ⟨by simp, by simp, Or.inl ⟨rfl, rfl⟩⟩
  | await =>
    rw [hsite] at h
    obtain rfl := Option.some.inj h
    exact Or.inr (quiet_settled timeouts (pop_timedOut rfl fun _ => rfl))
  | awaitPopped item =>
    rw [hsite] at h
    obtain rfl := Option.some.inj h
    right
    unfold awaitTurn
    by_cases hflushing : s.flushing = true
    · simp only [if_pos hflushing]
      exact quiet_lost item timeouts rfl
    · simp only [if_neg hflushing]
      split <;> exact quiet_settled timeouts rfl
  | awaitKeeps item =>
    rw [hsite] at h
    obtain rfl := Option.some.inj h
    exact Or.inr (quiet_settled timeouts rfl)
  | drain =>
    rw [hsite] at h
    obtain rfl := Option.some.inj h
    exact Or.inr (quiet_settled timeouts (pop_timedOut rfl fun _ => rfl))
  | stop finalizing =>
    rw [hsite] at h
    obtain rfl := Option.some.inj h
    refine Or.inr (quiet_settled timeouts (pop_timedOut ?_ fun _ => rfl))
    cases finalizing <;> rfl
  | finalize =>
    rw [hsite] at h
    obtain rfl := Option.some.inj h
    exact Or.inr (quiet_settled timeouts (pop_timedOut rfl fun _ => rfl))
  | drainPopped item | stopPopped _ item | finalizePopped item =>
    rw [hsite] at h
    obtain rfl := Option.some.inj h
    exact Or.inr (quiet_lost item timeouts rfl)

/-- An operation of any thread is a timeout of `create`, where there is nothing in the queue, or none. -/
theorem queueStep_timeouts {s s' : QueueState} {m : Move} (timeouts : Nat) (h : queueStep s m = some s') :
    (marks s m = [.timeout] ∧ s.ahead = 0 ∧ count s timeouts m = timeouts ∧ s'.site.timedOut ≤ 1) ∨
      Quiet s s' timeouts (count s timeouts m) (marks s m) := by
  unfold queueStep at h
  cases m with
  | push =>
    simp only at h
    split at h
    · exact absurd h nofun
    · obtain rfl := Option.some.inj h
      exact Or.inr ⟨by simp [marks], by simp [marks], Or.inr ⟨by simp [marks], Nat.le_refl _⟩⟩
  | unlock | unlockStop =>
    obtain rfl := Option.some.inj h
    exact Or.inr (quiet_nil timeouts (Nat.le_refl _))
  | pushSentinel =>
    simp only at h
    split at h
    · exact absurd h nofun
    · obtain rfl := Option.some.inj h
      exact Or.inr (quiet_nil timeouts (Nat.le_refl _))
  | resume =>
    right
    have hsite : s'.site = s.site := by
      simp only at h
      split at h
      · exact absurd h nofun
      · cases hqueue : s.frameQueue <;> rw [hqueue] at h <;> obtain rfl := Option.some.inj h <;> rfl
    unfold marks
    cases s.frameQueue with
    | nil => exact quiet_nil timeouts (Nat.le_of_eq (congrArg Site.timedOut hsite))
    | cons item rest =>
      obtain ⟨htimeout, hreturned, hsilent⟩ := Item.lost_quiet item
      refine ⟨htimeout, hsilent, Or.inr ⟨hreturned, ?_⟩⟩
      rw [hsite]
      exact Nat.le_refl _
  | drop item =>
    simp only at h
    split at h
    · obtain rfl := Option.some.inj h
      refine Or.inr (quiet_nil timeouts (Nat.le_of_eq (congrArg Site.timedOut ?_)))
      unfold QueueState.unrefBuffer
      split <;> rfl
    · exact absurd h nofun
  | call call =>
    simp only at h
    split at h
    · obtain rfl := Option.some.inj h
      refine Or.inr (quiet_settled timeouts ?_)
      cases call <;> rfl
    · exact absurd h nofun
  | step =>
    rcases callStep_timeouts timeouts h with ⟨hmarks, hahead, hsite, hless⟩ | hquiet
    · refine Or.inl ⟨hmarks, hahead, ?_, hless⟩
      unfold count
      rw [hsite]
    · exact Or.inr hquiet
  | expire =>
    simp only at h
    split at h
    · obtain rfl := Option.some.inj h
      exact Or.inr (quiet_settled timeouts rfl)
    · exact absurd h nofun

theorem declares_marks {s : QueueState} {timeouts : Nat} {m : Move} (h : declares s timeouts m = true) :
    marks s m = [] ∧ s.site.timedOut = 1 ∧ disconnectTimeoutCount ≤ timeouts + 1 := by
  obtain ⟨rfl, hsite, -, hmany⟩ := of_decide_eq_true h
  refine ⟨?_, congrArg Site.timedOut hsite, hmany⟩
  unfold marks callMarks
  rw [hsite]

/-- **The step lemma.** -/
theorem Accounts.step {l l' : Listener} {hearing : Hearing} (h : Accounts l) (hs : listen l hearing = some l') :
    Accounts l' := by
  have hforget : Accounts { l with consecutiveTimeouts := 0 } :=
    ⟨h.recent, h.told, Nat.le_trans (Nat.add_le_add_right (Nat.zero_le _) _) h.counted⟩
  unfold listen at hs
  cases hearing with
  | start | recovered =>
    obtain rfl := Option.some.inj hs
    exact hforget
  | move m =>
    obtain ⟨s', hstep, rfl⟩ := Option.map_eq_some_iff.mp hs
    have hahead := queueStep_ahead hstep
    rcases queueStep_timeouts l.consecutiveTimeouts hstep with ⟨hmarks, hempty, hcount, hsite⟩ | hquiet
    · -- nothing was in the queue, so all that was pushed since the timeout before it is accounted for
      have hdeclares : declares l.state l.consecutiveTimeouts m = false := by
        by_contra hd
        have hnone := (declares_marks (Bool.eq_true_of_not_eq_false hd)).1
        rw [hmarks] at hnone
        exact absurd hnone nofun
      have hnone : s'.ahead = 0 := by
        rw [hmarks, hempty] at hahead
        exact hahead
      have hrecent := h.recent
      rw [hempty] at hrecent
      rw [hdeclares, hmarks, hcount]
      refine ⟨?_, ⟨hrecent, h.told⟩, ?_⟩
      · show Balanced [] s'.ahead
        rw [hnone]
        rfl
      · have hcounted := h.counted
        show l.consecutiveTimeouts + s'.site.timedOut ≤ timeoutsSince (.timeout :: l.log)
        rw [timeoutsSince_timeout]
        omega
    · obtain ⟨htimeout, hsilent, hcounted⟩ := hquiet
      have hbalanced := h.recent.append hahead
      rw [← recent_append htimeout] at hbalanced
      have htold := h.told.append htimeout hsilent
      have hless : count l.state l.consecutiveTimeouts m + s'.site.timedOut ≤ timeoutsSince (marks l.state m ++ l.log) := by
        rcases hcounted with ⟨hzero, hsite⟩ | ⟨hreturned, hless⟩
        · rw [hzero, hsite]
          exact Nat.zero_le _
        · rw [timeoutsSince_append htimeout hreturned]
          exact Nat.le_trans hless h.counted
      cases hdeclares : declares l.state l.consecutiveTimeouts m with
      | false => exact ⟨hbalanced, htold, hless⟩
      | true =>
        obtain ⟨hnone, hsite, hmany⟩ := declares_marks hdeclares
        have hall := h.counted
        rw [hnone] at hbalanced htold hless ⊢
        refine ⟨hbalanced, ⟨?_, htold⟩, hless⟩
        show disconnectTimeoutCount ≤ timeoutsSince l.log
        omega

theorem accounts_run {hearings : List Hearing} {l : Listener} (h : Runs.run listen .init hearings = some l) :
    Accounts l :=
  Runs.run_induction listen (fun _ _ _ hacc hs => hacc.step hs) accounts_init h

/-! ## The window is a number of such stretches -/

theorem last_timeout {log : List Mark} (h : 0 < timeoutsSince log) :
    log = recent log ++ .timeout :: behindTimeout log ∧ (recent log).countP Mark.isReturned = 0 ∧
      timeoutsSince log = timeoutsSince (behindTimeout log) + 1 := by
  induction log with
  | nil => exact absurd h (Nat.lt_irrefl 0)
  | cons e log ih =>
    cases e with
    | timeout => exact ⟨rfl, rfl, timeoutsSince_timeout log⟩
    | returned n => exact absurd h (Nat.lt_irrefl 0)
    | pushed | lost | silent =>
      obtain ⟨hlog, hreturned, hless⟩ := ih h
      exact ⟨congrArg (_ :: ·) hlog, hreturned, hless⟩

theorem untilTimeout_succ (n : Nat) {log : List Mark} (h : 0 < timeoutsSince log) :
    untilTimeout (n + 1) log = recent log ++ if n = 0 then [] else .timeout :: untilTimeout n (behindTimeout log) := by
  induction log with
  | nil => exact absurd h (Nat.lt_irrefl 0)
  | cons e log ih =>
    cases e with
    | timeout => rfl
    | returned n => exact absurd h (Nat.lt_irrefl 0)
    | pushed | lost | silent => exact congrArg (_ :: ·) (ih h)

/-- Between a number of timeouts and nothing returned, as many buffers are dropped as are pushed. -/
theorem untilTimeout_balanced {n : Nat} {log : List Mark} (hrecent : Balanced (recent log) 0) (htold : Told log)
    (hn : n ≤ timeoutsSince log) :
    (untilTimeout n log).countP Mark.isPushed = (untilTimeout n log).countP Mark.isLost := by
  induction n generalizing log with
  | zero => cases log <;> rfl
  | succ n ih =>
    have hpos : 0 < timeoutsSince log := by omega
    obtain ⟨hlog, hreturned, hless⟩ := last_timeout hpos
    rw [hlog] at htold
    obtain ⟨hbefore, hold⟩ := htold.of_append
    unfold Balanced at hrecent
    rw [hreturned] at hrecent
    rw [untilTimeout_succ n hpos, List.countP_append, List.countP_append]
    by_cases hn0 : n = 0
    · rw [if_pos hn0]
      exact congrArg (· + 0) hrecent
    · rw [if_neg hn0]
      have hrest := ih hbefore hold (by omega)
      show _ + (untilTimeout n _).countP _ = _ + (untilTimeout n _).countP _
      omega

theorem none_pushed_iff (log : List Mark) : (∀ n, .pushed n ∉ log) ↔ log.countP Mark.isPushed = 0 := by
  rw [List.countP_eq_zero]
  constructor
  · intro h e he hpushed
    cases e with
    | pushed n => exact h n he
    | timeout | lost | returned | silent => exact absurd hpushed nofun
  · exact fun h n hn => h _ hn rfl

theorem none_lost_iff (log : List Mark) : (∀ n, .lost n ∉ log) ↔ log.countP Mark.isLost = 0 := by
  rw [List.countP_eq_zero]
  constructor
  · intro h e he hlost
    cases e with
    | lost n => exact h n he
    | timeout | pushed | returned | silent => exact absurd hlost nofun
  · exact fun h n hn => h _ hn rfl

/-! ## The runs -/

/-- **In every run, wherever `create` takes the device for silent**, the most recent timeouts are as many as it
counts, and nothing was pushed between the first and the last of them if and only if nothing was taken from the
queue and dropped in between. -/
theorem silent_iff {hearings : List Hearing} {l : Listener} {newer older : List Mark}
    (hrun : Runs.run listen .init hearings = some l) (hlog : l.log = newer ++ .silent :: older) :
    disconnectTimeoutCount ≤ timeoutsSince older ∧
      ((∀ n, .pushed n ∉ lastTimeouts older) ↔ ∀ n, .lost n ∉ lastTimeouts older) := by
  have htold := (accounts_run hrun).told
  rw [hlog] at htold
  obtain ⟨hmany, hold⟩ := htold.of_append
  change disconnectTimeoutCount ≤ timeoutsSince older at hmany
  refine ⟨hmany, ?_⟩
  have hpos : 0 < timeoutsSince older := Nat.lt_of_lt_of_le (by decide) hmany
  obtain ⟨hsplit, -, hless⟩ := last_timeout hpos
  rw [hsplit] at hold
  obtain ⟨hrecent, hbehind⟩ := hold.of_append
  have hwindow : disconnectTimeoutCount - 1 ≤ timeoutsSince (behindTimeout older) := by omega
  rw [none_pushed_iff, none_lost_iff]
  unfold lastTimeouts
  rw [untilTimeout_balanced hrecent hbehind hwindow]

/-- A turn of `create` that times out. -/
def timeoutTurn : List Hearing := [.move (.call .create), .move .step, .move .step]

/-- Nothing is pushed. -/
theorem silent_iff_unplugged : ∃ l older, Runs.run listen .init (timeoutTurn ++ timeoutTurn ++ timeoutTurn ++
    timeoutTurn ++ timeoutTurn) = some l ∧ l.log = .silent :: older ∧ (∀ n, .pushed n ∉ lastTimeouts older) := by
  obtain ⟨l, older, hrun, hlog, hnone⟩ : ∃ l older, Runs.run listen .init (timeoutTurn ++ timeoutTurn ++ timeoutTurn ++
      timeoutTurn ++ timeoutTurn) = some l ∧ l.log = .silent :: older ∧ (lastTimeouts older).all (!·.isLost) = true :=
    ⟨_, _, rfl, rfl, rfl⟩
  refine ⟨l, older, hrun, hlog, (silent_iff hrun (hlog.trans (List.nil_append _).symm)).2.mpr fun n hn => ?_⟩
  exact absurd (List.all_eq_true.mp hnone _ hn) nofun

/-- A pause behind four timeouts: the first frame behind it stands in front of the sentinel, `unlock_stop` drops
it, and one more timeout makes the device silent. -/
def pausedHearings : List Hearing :=
  timeoutTurn ++ timeoutTurn ++ timeoutTurn ++ timeoutTurn ++
    [.move .unlock, .move .pushSentinel, .move .push, .move .unlockStop, .move .resume, .move (.drop .flushSentinel),
      .move .resume, .move (.drop (.buffer 0)), .move .resume] ++ timeoutTurn

theorem silence_broken : ¬ ∀ hearings l newer older, Runs.run listen .init hearings = some l →
    l.log = newer ++ .silent :: older → ∀ n, .pushed n ∉ lastTimeouts older := by
  intro h
  obtain ⟨l, older, hrun, hlog, hpushed⟩ : ∃ l older, Runs.run listen .init pausedHearings = some l ∧
      l.log = .silent :: older ∧ .pushed 0 ∈ lastTimeouts older := ⟨_, _, rfl, rfl, by decide⟩
  exact h pausedHearings l [] older hrun hlog 0 hpushed

end FrameQueue
end LibuvcH264Src
