import LibuvcH264Src.Continuity
import LibuvcH264Src.Calls

/-!
# From the device to the pad

* `Begun` : a stream that was just started, or opened again;
* `Follows` : what the walk has made of the deliveries since, with what is left of the last one;
* `returned_output` : what `create` returns of them is a part of the output of the session, in order and byte for
  byte, and with what is upcoming all of it where nothing is dropped.
-/

namespace LibuvcH264Src
namespace FrameQueue
open AnnexB

/-! ## The session of a stream -/

/-- The event as one of a session. -/
def FeedEvent.session : FeedEvent → Option SessionEvent
  | .deliver arrival frame => some (.delivery arrival frame)
  | .setClock clock => some (.setClock clock)
  | .changeState transition => some (.changeState transition)
  | _ => none

/-- What can happen while a stream goes on, and no caps are negotiated. -/
def FeedEvent.ofSession : FeedEvent → Bool
  | .start | .begin | .reopen _ | .retune _ | .load _ => false
  | _ => true

def sessionOf (events : List FeedEvent) : List SessionEvent := events.filterMap FeedEvent.session

/-- A stream of codec `c` that was just opened. -/
structure Begun (c : Codec) (f : Feeding) : Prop where
  codec : f.stream.frameFormat = c.format
  gate : f.stream.hadIdr = false
  send : f.stream.sendSpsPps = false
  rest : f.rest = []
  empty : f.queue.upcoming = []

theorem begun_of_opening {c : Codec} {f f' : Feeding} {opening : FeedEvent} (h : Placed f)
    (hopening : opening = .begin ∨ ∃ proving, opening = .reopen proving) (hs : feedStep f opening = some f')
    (hcodec : f'.stream.frameFormat = c.format) : Begun c f' := by
  rcases hopening with rfl | ⟨proving, rfl⟩
  · unfold feedStep at hs
    simp only at hs
    split at hs
    · next hready =>
      obtain rfl := Option.some.inj hs
      obtain ⟨hgate, hsend⟩ := h.ready hready.1
      exact ⟨hcodec, hgate, hsend, h.still (congrArg Flow.streams hready.1), h.empty (congrArg Flow.isEmpty hready.1)⟩
    · exact absurd hs nofun
  · unfold feedStep at hs
    simp only at hs
    split at hs
    · next hclosed =>
      obtain rfl := Option.some.inj hs
      exact ⟨hcodec, rfl, rfl, h.still (congrArg Flow.streams hclosed.1), h.empty (congrArg Flow.isEmpty hclosed.1)⟩
    · exact absurd hs nofun

theorem Begun.session {c : Codec} {f : Feeding} (h : Begun c f) : SessionInv c f.stream [] f.stream where
  codec := h.codec
  cache := Cached.refl _
  hadIdr := h.gate
  send := h.send
  wire := by simp

/-! ## The walk of a session -/

theorem runSession_append (s : StreamState) (events events' : List SessionEvent) :
    (runSession s (events ++ events')).1 = (runSession (runSession s events).1 events').1 ∧
      sessionAus s (events ++ events') = sessionAus s events ++ sessionAus (runSession s events).1 events' := by
  induction events generalizing s with
  | nil => exact ⟨rfl, rfl⟩
  | cons e events ih =>
    obtain ⟨hstate, haus⟩ := ih (sessionStep s e).1
    refine ⟨hstate, ?_⟩
    show eventAus s e ++ sessionAus (sessionStep s e).1 (events ++ events') = _
    rw [haus, ← List.append_assoc]
    rfl

/-- What tells the access units of a delivery apart. -/
def ears (s : StreamState) : Bool × FrameFormat := (s.clock, s.frameFormat)

theorem eventAus_congr {s s' : StreamState} (h : ears s = ears s') (e : SessionEvent) : eventAus s e = eventAus s' e := by
  obtain ⟨hclock, hformat⟩ := Prod.mk.inj h
  unfold eventAus
  rw [hclock, hformat]

theorem sessionStep_ears {s s' : StreamState} (h : ears s = ears s') (e : SessionEvent) :
    ears (sessionStep s e).1 = ears (sessionStep s' e).1 := by
  obtain ⟨hclock, hformat⟩ := Prod.mk.inj h
  cases e with
  | delivery arrival frame =>
    have hsettings := congrArg ears (frameCallback_settings s arrival frame)
    have hsettings' := congrArg ears (frameCallback_settings s' arrival frame)
    exact hsettings.trans (h.trans hsettings'.symm)
  | setClock clock =>
    cases clock with
    | false => exact Prod.ext rfl hformat
    | true => exact Prod.ext rfl hformat
  | changeState transition => cases transition <;> exact h

/-- `seen` are the access units that were walked since `f₁`. -/
structure Follows (c : Codec) (f₁ : Feeding) (events : List FeedEvent) (seen : List (List NalUnit)) (f : Feeding) :
    Prop where
  inv : SessionInv c f₁.stream seen f.stream
  aus : sessionAus f₁.stream (sessionOf events) = seen ++ f.rest
  heard : ears (runSession f₁.stream (sessionOf events)).1 = ears f.stream
  wire : ∀ au ∈ f.rest, ∀ u ∈ au, u.FromWire c
  before : f₁.walked.length ≤ f.walked.length
  data : (f.walked.drop f₁.walked.length).map (fun w => w.buffer.data) =
    (nextBuffers f₁.stream [] seen).map (List.map some)

theorem Begun.follows {c : Codec} {f : Feeding} (h : Begun c f) : Follows c f [] [] f where
  inv := h.session
  aus := h.rest.symm
  heard := rfl
  wire := by
    rw [h.rest]
    simp
  before := Nat.le_refl _
  data := by
    rw [List.drop_length]
    rfl

section Follow
variable {c : Codec} {f₁ f f' : Feeding} {events : List FeedEvent} {seen : List (List NalUnit)}

theorem sessionOf_snoc (events : List FeedEvent) (e : FeedEvent) :
    sessionOf (events ++ [e]) = sessionOf events ++ e.session.toList := by
  unfold sessionOf
  rw [List.filterMap_append]
  cases h : e.session with
  | none => rw [List.filterMap_cons_none h]; rfl
  | some e' => rw [List.filterMap_cons_some h]; rfl

/-- What is none of the feeder's. -/
theorem Follows.beside (h : Follows c f₁ events seen f) {e : FeedEvent} (he : e.session = none)
    (hstream : f'.stream = f.stream) (hrest : f'.rest = f.rest) (hwalked : f'.walked = f.walked) :
    Follows c f₁ (events ++ [e]) seen f' := by
  obtain ⟨hinv, haus, hears, hwire, hbefore, hdata⟩ := h
  have hsame : sessionOf (events ++ [e]) = sessionOf events := by
    rw [sessionOf_snoc, he]
    exact List.append_nil _
  refine ⟨?_, ?_, ?_, ?_, ?_, ?_⟩
  · rw [hstream]
    exact hinv
  · rw [hsame, hrest]
    exact haus
  · rw [hsame, hstream]
    exact hears
  · rw [hrest]
    exact hwire
  · rw [hwalked]
    exact hbefore
  · rw [hwalked]
    exact hdata

/-- An event of the session, which brings the access units that are left behind it. -/
theorem Follows.event (h : Follows c f₁ events seen f) {e : FeedEvent} {e' : SessionEvent} (he : e.session = some e')
    (hrest : f.rest ++ eventAus f.stream e' = f'.rest) (hinv : SessionInv c f₁.stream seen f'.stream)
    (hears : ears (sessionStep f.stream e').1 = ears f'.stream) (hwalked : f'.walked = f.walked) :
    Follows c f₁ (events ++ [e]) seen f' := by
  have hone : sessionOf (events ++ [e]) = sessionOf events ++ [e'] := by
    rw [sessionOf_snoc, he]
    rfl
  obtain ⟨hstate, haus⟩ := runSession_append f₁.stream (sessionOf events) [e']
  have hlast : sessionAus (runSession f₁.stream (sessionOf events)).1 [e'] = eventAus f.stream e' := by
    show eventAus _ e' ++ [] = _
    rw [List.append_nil]
    exact eventAus_congr h.heard e'
  have hformat : f.stream.frameFormat = c.format := h.inv.cache.format.trans h.inv.codec
  refine ⟨hinv, ?_, ?_, ?_, ?_, ?_⟩
  · rw [hone, haus, h.aus, hlast, List.append_assoc, hrest]
  · rw [hone, hstate]
    exact (sessionStep_ears h.heard e').trans hears
  · rw [← hrest]
    intro au hau
    rcases List.mem_append.mp hau with hau | hau
    · exact h.wire au hau
    · unfold eventAus at hau
      cases e' with
      | setClock | changeState => exact absurd hau List.not_mem_nil
      | delivery arrival frame =>
        simp only at hau
        split at hau
        · split at hau
          · rw [hformat] at hau
            exact deliveryAccessUnits_fromWire c _ au hau
          · exact absurd hau List.not_mem_nil
        · exact absurd hau List.not_mem_nil
  · rw [hwalked]
    exact h.before
  · rw [hwalked]
    exact h.data

/-- A delivery is taken up where the last one was walked. -/
theorem Follows.delivers (h : Follows c f₁ events seen f) (hrest : f.rest = []) (arrival : Arrival)
    (frame : Option (List Byte)) :
    Follows c f₁ (events ++ [.deliver arrival frame]) seen (f.deliver arrival frame) := by
  have hears : ears (sessionStep f.stream (.delivery arrival frame)).1 = ears f.stream := by
    have hsettings := congrArg ears (frameCallback_settings f.stream arrival frame)
    exact hsettings
  unfold Feeding.deliver
  cases hframe : acceptsFrame frame with
  | none =>
    have haus : eventAus f.stream (.delivery arrival frame) = [] := by simp [eventAus, hframe]
    exact h.event rfl (by rw [haus]; exact List.append_nil _) h.inv hears rfl
  | some data =>
    cases hclock : f.stream.clock with
    | false =>
      have haus : eventAus f.stream (.delivery arrival frame) = [] := by simp [eventAus, hframe, hclock]
      simp only [snapshotClock, hclock, Bool.false_eq_true, if_false]
      exact h.event rfl (by rw [haus]; exact List.append_nil _) h.inv hears rfl
    | true =>
      have haus : eventAus f.stream (.delivery arrival frame) = deliveryAccessUnits f.stream.frameFormat data := by
        simp [eventAus, hframe, hclock]
      obtain ⟨base, hlatch⟩ : ∃ base, (latchBaseTime f.stream f.stream.baseTime arrival.elementBaseTime).1 =
          { f.stream with baseTime := base } := by
        unfold latchBaseTime
        split_ifs
        · exact ⟨_, rfl⟩
        · exact ⟨_, rfl⟩
      simp only [snapshotClock, hclock, if_true]
      refine h.event rfl ?_ ?_ ?_ rfl
      · rw [haus, hrest]
        rfl
      · show SessionInv c f₁.stream seen (latchBaseTime f.stream f.stream.baseTime arrival.elementBaseTime).1
        rw [hlatch]
        exact h.inv.retime f.stream.clock base f.stream.prevPts f.stream.frameOffset
      · show _ = ears (latchBaseTime f.stream f.stream.baseTime arrival.elementBaseTime).1
        rw [hlatch]
        exact hears

/-- One turn of the walk. -/
theorem Follows.walk (h : Follows c f₁ events seen f) (hwalk : f.walk = some f') :
    ∃ au, Follows c f₁ (events ++ [.walk]) (seen ++ [au]) f' := by
  obtain ⟨au, rest, hrest, hcases⟩ := Feeding.walk_inv hwalk
  have hsame : sessionOf (events ++ [.walk]) = sessionOf events := by
    rw [sessionOf_snoc]
    exact List.append_nil _
  have haus := h.aus
  have hwire := h.wire
  rw [hrest] at haus hwire
  obtain ⟨hinv, hdata⟩ := SessionInv.deliverAu (w := ⟨f.stream, false, []⟩) h.inv (hwire au (List.mem_cons_self ..)) f.ts
  obtain ⟨hself, hpushed⟩ := deliverAu_step f.ts ⟨f.stream, false, []⟩ au
  rw [hself] at hinv
  rw [hpushed] at hdata
  have hnext : nextBuffers f₁.stream [] (seen ++ [au]) =
      nextBuffers f₁.stream [] seen ++ (nextBuffer f₁.stream seen au).toList := by
    rw [nextBuffers_append]
    show _ ++ (_ ++ []) = _
    rw [List.append_nil, List.nil_append]
  have hears : ears (auStep f.ts f.stream au).1 = ears f.stream := by
    have hsettings := congrArg ears (deliverAu_settings f.ts ⟨f.stream, false, []⟩ au)
    rw [← hself]
    exact hsettings
  refine ⟨au, ?_⟩
  rcases hcases with ⟨hnone, rfl⟩ | ⟨buffer, queue, hbuffer, -, rfl⟩
  · rw [hnone] at hdata
    refine ⟨hinv, ?_, ?_, fun bu hbu => hwire bu (List.mem_cons_of_mem _ hbu), h.before, ?_⟩
    · rw [hsame, haus, List.append_assoc]
      rfl
    · rw [hsame]
      exact h.heard.trans hears.symm
    · have hempty : (nextBuffer f₁.stream seen au).toList = [] := by
        cases hnext' : nextBuffer f₁.stream seen au with
        | none => rfl
        | some data =>
          rw [hnext'] at hdata
          exact absurd hdata nofun
      rw [hnext, hempty, List.append_nil]
      exact h.data
  · rw [hbuffer] at hdata
    refine ⟨hinv, ?_, ?_, fun bu hbu => hwire bu (List.mem_cons_of_mem _ hbu), ?_, ?_⟩
    · rw [hsame, haus, List.append_assoc]
      rfl
    · rw [hsame]
      exact h.heard.trans hears.symm
    · exact Nat.le_trans h.before (by simp)
    · show ((f.walked ++ [_]).drop f₁.walked.length).map _ = _
      rw [List.drop_append_of_le_length h.before, List.map_append, h.data, hnext, List.map_append]
      congr 1
      cases hnext' : nextBuffer f₁.stream seen au with
      | none =>
        rw [hnext'] at hdata
        exact absurd hdata nofun
      | some data =>
        rw [hnext'] at hdata
        exact hdata

/-- One event of a session. -/
theorem Follows.step {e : FeedEvent} (h : Follows c f₁ events seen f) (he : e.ofSession = true)
    (hs : feedStep f e = some f') : ∃ seen', Follows c f₁ (events ++ [e]) seen' f' := by
  cases e with
  | start | begin | reopen | retune | load => exact absurd he nofun
  | walk =>
    obtain ⟨au, hwalk⟩ := h.walk hs
    exact ⟨_, hwalk⟩
  | deliver arrival frame =>
    unfold feedStep at hs
    simp only at hs
    split at hs
    · next hready =>
      obtain rfl := Option.some.inj hs
      exact ⟨seen, h.delivers hready.2 arrival frame⟩
    · exact absurd hs nofun
  | setClock clock =>
    obtain rfl := Option.some.inj hs
    refine ⟨seen, h.event rfl (List.append_nil _) ?_ rfl rfl⟩
    cases clock with
    | false => exact h.inv.retime false f.stream.baseTime f.stream.prevPts f.stream.frameOffset
    | true => exact h.inv.retime true clockTimeNone clockTimeNone f.stream.frameOffset
  | changeState transition =>
    obtain rfl := Option.some.inj hs
    refine ⟨seen, h.event rfl (List.append_nil _) ?_ rfl rfl⟩
    cases transition with
    | pausedToPlaying => exact h.inv.retime f.stream.clock clockTimeNone clockTimeNone f.stream.frameOffset
    | other => exact h.inv
  | teardown =>
    unfold feedStep at hs
    simp only at hs
    split at hs
    · obtain rfl := Option.some.inj hs
      exact ⟨seen, h.beside rfl rfl rfl rfl⟩
    · exact absurd hs nofun
  | queue m =>
    unfold feedStep at hs
    simp only at hs
    split at hs
    · obtain ⟨queue, -, rfl⟩ := Option.map_eq_some_iff.mp hs
      exact ⟨seen, h.beside rfl rfl rfl rfl⟩
    · exact absurd hs nofun

theorem Follows.run {events' : List FeedEvent} (h : Follows c f₁ events seen f)
    (hsession : ∀ e ∈ events', e.ofSession = true) (hrun : Runs.run feedStep f events' = some f') :
    ∃ seen', Follows c f₁ (events ++ events') seen' f' := by
  induction events' generalizing events seen f with
  | nil =>
    obtain rfl := Option.some.inj hrun
    exact ⟨seen, by rwa [List.append_nil]⟩
  | cons e events' ih =>
    obtain ⟨f₂, hs, hrest⟩ := (Runs.run_cons_eq_some feedStep).mp hrun
    obtain ⟨seen₂, h₂⟩ := h.step (hsession e (List.mem_cons_self ..)) hs
    obtain ⟨seen', h'⟩ := ih h₂ (fun e' he => hsession e' (List.mem_cons_of_mem _ he)) hrest
    rw [List.append_assoc] at h'
    exact ⟨seen', h'⟩

end Follow

/-! ## What is returned -/

/-- The data of the buffers with these numbers. -/
def Feeding.data (f : Feeding) (numbers : List Nat) : List (List (Option Byte)) :=
  numbers.filterMap fun n => f.walked[n]?.map fun w => w.buffer.data

/-- The data of the buffers from `first` on. -/
theorem Feeding.data_range' (f : Feeding) (first : Nat) :
    f.data (List.range' first (f.walked.length - first)) = (f.walked.drop first).map fun w => w.buffer.data := by
  induction hn : f.walked.length - first generalizing first with
  | zero =>
    rw [List.drop_of_length_le (by omega)]
    rfl
  | succ n ih =>
    have hfirst : first < f.walked.length := by omega
    have hrest := ih (first + 1) (by omega)
    unfold Feeding.data at hrest ⊢
    rw [List.range'_succ, List.filterMap_cons, List.getElem?_eq_getElem hfirst, List.drop_eq_getElem_cons hfirst]
    exact congrArg _ hrest

/-- The buffers of a session have the numbers that follow those of the sessions before. -/
theorem Accounted.session {log entries : List Taken} {upcoming : List Nat} {first pushed : Nat}
    (h₁ : Accounted log [] first) (h : Accounted (entries ++ log) upcoming pushed) :
    ((returnedNumbers entries).reverse ++ upcoming).Sublist (List.range' first (pushed - first)) ∧
      ((∀ e ∈ entries, e.isReturned = true) →
        (returnedNumbers entries).reverse ++ upcoming = List.range' first (pushed - first)) := by
  have horder := h.order
  rw [returnedNumbers_append, List.reverse_append, List.append_assoc] at horder
  obtain ⟨-, horder, -⟩ := List.pairwise_append.mp horder
  have honce := h₁.once
  rw [List.append_nil] at honce
  have hperm : (log.map Taken.number ++ (entries.map Taken.number ++ upcoming)).Perm (List.range pushed) := by
    refine List.Perm.trans ?_ h.once
    rw [List.map_append, ← List.append_assoc]
    exact List.Perm.append_right _ List.perm_append_comm
  have hsubset : (returnedNumbers entries).reverse ++ upcoming ⊆ List.range' first (pushed - first) := by
    intro n hn
    have hin : n ∈ entries.map Taken.number ++ upcoming := by
      rcases List.mem_append.mp hn with hn | hn
      · exact List.mem_append_left _ ((returnedNumbers_sublist entries).subset (List.mem_reverse.mp hn))
      · exact List.mem_append_right _ hn
    have hless := List.mem_range.mp (hperm.mem_iff.mp (List.mem_append_right _ hin))
    have hbegan : first ≤ n := by
      by_contra hbefore
      have hlogged := honce.mem_iff.mpr (List.mem_range.mpr (Nat.lt_of_not_le hbefore))
      have hnodup := hperm.nodup_iff.mpr List.nodup_range
      exact (List.nodup_append.mp hnodup).2.2 n hlogged n hin rfl
    rw [List.mem_range'_1]
    omega
  have hsub := List.sublist_of_subperm_of_pairwise
    (List.subperm_of_subset (horder.imp Nat.ne_of_lt) hsubset) horder List.pairwise_lt_range'
  refine ⟨hsub, fun hall => hsub.eq_of_length ?_⟩
  have hlength := hperm.length_eq
  have hlength₁ := honce.length_eq
  have hreturned : (returnedNumbers entries).length = entries.length := by
    unfold returnedNumbers
    rw [List.filter_eq_self.mpr hall, List.length_map]
  simp only [List.length_append, List.length_map, List.length_range, List.length_range', List.length_reverse] at *
  omega

/-- **In every run, what `create` returns of a session**, with what is upcoming, is a part of the output of the
session in the order of the output, byte for byte; and it is all of the output where nothing is left to walk and
nothing was dropped. -/
theorem returned_output {c : Codec} {before events : List FeedEvent} {opening : FeedEvent} {f₀ f₁ f : Feeding}
    {entries : List Taken} (hbefore : Runs.run feedStep .init before = some f₀)
    (hopening : opening = .begin ∨ ∃ proving, opening = .reopen proving) (hbegin : feedStep f₀ opening = some f₁)
    (hcodec : f₁.stream.frameFormat = c.format) (hsession : ∀ e ∈ events, e.ofSession = true)
    (hrun : Runs.run feedStep f₁ events = some f) (hlog : f.log = entries ++ f₁.log) :
    let aus := sessionAus f₁.stream (sessionOf events)
    let returned := f.data ((returnedNumbers entries).reverse ++ f.queue.upcoming)
    ∃ inserted : Nat → Bool, (∀ j, inserted j = true ↔ InsertionDue aus inserted j) ∧
      let output := ((List.range aus.length).filterMap (expectedBuffer f₁.stream aus inserted)).map (List.map some)
      returned.Sublist output ∧ (f.rest = [] → (∀ e ∈ entries, e.isReturned = true) → returned = output) := by
  intro aus returned
  refine ⟨insertedAt aus, insertedAt_iff aus, ?_⟩
  intro output
  have hrun₁ : Runs.run feedStep .init (before ++ [opening]) = some f₁ :=
    (Runs.run_append_eq_some feedStep).mpr ⟨f₀, hbefore, (Runs.run_cons_eq_some feedStep).mpr ⟨f₁, hbegin, rfl⟩⟩
  have hall := (Runs.run_append_eq_some feedStep).mpr ⟨f₁, hrun₁, hrun⟩
  have hopened := begun_of_opening (resumes_run hbefore).placed hopening hbegin hcodec
  obtain ⟨seen, hfollows⟩ := hopened.follows.run hsession hrun
  rw [List.nil_append] at hfollows
  have hfirst := (resumes_run hrun₁).placed.counted
  have hcounted := (resumes_run hall).placed.counted
  -- the buffers of the session are those of what was walked of it
  have hdata : f.data (List.range' f₁.queue.pushed (f.queue.pushed - f₁.queue.pushed)) =
      (nextBuffers f₁.stream [] seen).map (List.map some) := by
    rw [← hfirst, ← hcounted, f.data_range', hfollows.data]
  have houtput : output = (nextBuffers f₁.stream [] aus).map (List.map some) := by
    show ((List.range aus.length).filterMap _).map _ = _
    rw [nextBuffers_eq]
    congr 1
    refine List.filterMap_congr fun j hj => ?_
    rw [List.nil_append, nextBuffer_take _ _ (List.mem_range.mp hj)]
  have haus : aus = seen ++ f.rest := hfollows.aus
  have hlogged := Feeding.accounted_run hrun₁
  have haccounted := Feeding.accounted_run hall
  unfold Feeding.Accounted at hlogged haccounted
  rw [hopened.empty] at hlogged
  rw [hlog] at haccounted
  obtain ⟨hsub, heq⟩ := hlogged.session haccounted
  refine ⟨?_, fun hrest hreturned => ?_⟩
  · rw [houtput, haus, nextBuffers_append, List.map_append, ← hdata]
    exact (hsub.filterMap _).trans (List.sublist_append_left _ _)
  · rw [houtput, haus, hrest, List.append_nil, ← hdata, ← heq hreturned]

/-- Two frames of a stream that was just started, each returned. -/
def playedEvents : List FeedEvent := sliceEvents 0x65 ++ createEvents ++ sliceEvents 0x41 ++ createEvents

theorem returned_output_played : ∃ f₁ f,
    Runs.run feedStep .init ([.start, .retune ⟨.h264, 33333333, 1920, 1080⟩, .setClock true] ++ [.begin]) = some f₁ ∧
      Runs.run feedStep f₁ playedEvents = some f ∧ f.log = [.returned 1, .returned 0] ∧
      ∃ inserted : Nat → Bool, f.data [0, 1] = ((List.range 2).filterMap
        (expectedBuffer f₁.stream (sessionAus f₁.stream (sessionOf playedEvents)) inserted)).map (List.map some) := by
  obtain ⟨f₀, f₁, f, hbefore, hbegin, hformat, hrun, hlog, hnone, hrest, hupcoming, haus⟩ : ∃ f₀ f₁ f,
      Runs.run feedStep .init [.start, .retune ⟨.h264, 33333333, 1920, 1080⟩, .setClock true] = some f₀ ∧
        feedStep f₀ .begin = some f₁ ∧ f₁.stream.frameFormat = Codec.h264.format ∧
        Runs.run feedStep f₁ playedEvents = some f ∧ f.log = [.returned 1, .returned 0] ∧ f₁.log = [] ∧ f.rest = [] ∧
        f.queue.upcoming = [] ∧ (sessionAus f₁.stream (sessionOf playedEvents)).length = 2 :=
    ⟨_, _, _, rfl, rfl, rfl, rfl, rfl, rfl, rfl, rfl, rfl⟩
  have hsession : ∀ e ∈ playedEvents, e.ofSession = true := by
    simp [playedEvents, sliceEvents, createEvents, FeedEvent.ofSession]
  obtain ⟨inserted, -, -, hall⟩ := returned_output hbefore (Or.inl rfl) hbegin hformat hsession hrun
    (show f.log = [.returned 1, .returned 0] ++ f₁.log by rw [hlog, hnone]; rfl)
  have hreturned := hall hrest (by simp [Taken.isReturned])
  rw [hupcoming, haus] at hreturned
  exact ⟨f₁, f, (Runs.run_append_eq_some feedStep).mpr
    ⟨f₀, hbefore, (Runs.run_cons_eq_some feedStep).mpr ⟨f₁, hbegin, rfl⟩⟩, hrun, hlog, inserted, hreturned⟩

end FrameQueue
end LibuvcH264Src
