import LibuvcH264Src.Lifecycle

/-!
# What the calls leave alone

* `Core` : the handle, the stream and the latches of the instance;
* `Event.Idle`, `Calm` : steps that leave the core alone and log nothing about it;
* `Calm.eq` : what the core and the entries that are not idle determine is as it was;
* `others_calm` : whatever the other threads do is calm.
-/

namespace LibuvcH264Src
open AnnexB Caps Prog

/-! ## The core -/

structure Core where
  uvcDevh : Option Nat
  uvcCtrl : StreamCtrl
  streaming : Bool
  mode : StreamMode
  resetRecoveryUsed : Bool
  framesSinceReset : UInt32
  deepRecoveryUsed : Bool

/-- The mode that the instance takes for the negotiated one. -/
def World.mode (w : World) : StreamMode :=
  ⟨w.stream.frameFormat, w.stream.negotiatedWidth, w.stream.negotiatedHeight, w.own.negotiatedFramerate⟩

def World.core (w : World) : Core where
  uvcDevh := w.own.uvcDevh
  uvcCtrl := w.own.uvcCtrl
  streaming := w.own.streaming
  mode := w.mode
  resetRecoveryUsed := w.own.resetRecoveryUsed
  framesSinceReset := w.own.framesSinceReset
  deepRecoveryUsed := w.own.deepRecoveryUsed

/-- An entry of the log that says nothing about libuvc, the caps or the latches. -/
def Event.Idle : Event → Prop
  | .meanwhile _ => True
  | .pushed _ => True
  | .discarded _ => True
  | .time _ => True
  | _ => False

/-- The core is as it was, and the log grew by idle entries. -/
structure Calm (w w' : World) : Prop where
  core : w'.core = w.core
  log : ∃ idle : List Event, (∀ e ∈ idle, e.Idle) ∧ w'.log = idle ++ w.log

instance : Std.Refl Calm where
  refl _ := ⟨rfl, [], by simp, rfl⟩

instance : IsTrans World Calm where
  trans := by
    rintro w w' w'' ⟨hc, idle, hi, hl⟩ ⟨hc', idle', hi', hl'⟩
    refine ⟨hc'.trans hc, idle' ++ idle, ?_, by rw [hl', hl, List.append_assoc]⟩
    intro e he
    rcases List.mem_append.mp he with he | he
    · exact hi' e he
    · exact hi e he

theorem Calm.refl (w : World) : Calm w w := Std.Refl.refl w

theorem Calm.trans {w w' w'' : World} (h : Calm w w') (h' : Calm w' w'') : Calm w w'' :=
  IsTrans.trans _ _ _ h h'

theorem Calm.grown {w w' : World} (h : Calm w w') : w.log <:+ w'.log := by
  obtain ⟨-, idle, -, hlog⟩ := h
  exact ⟨idle, hlog.symm⟩

theorem Calm.record {w : World} {e : Event} (he : e.Idle) : Calm w { w with log := e :: w.log } :=
  ⟨rfl, [e], by simpa using he, rfl⟩

/-- What idle entries do not change is as it was. -/
theorem Calm.eq {α : Type} {f : Core → List Event → α} (hf : ∀ core e log, e.Idle → f core (e :: log) = f core log)
    {w w' : World} (h : Calm w w') : f w'.core w'.log = f w.core w.log := by
  obtain ⟨hcore, idle, hidle, hlog⟩ := h
  rw [hcore, hlog]
  clear hlog
  induction idle with
  | nil => rfl
  | cons e idle ih =>
    rw [List.cons_append, hf _ _ _ (hidle e List.mem_cons_self)]
    exact ih (fun e' he' => hidle e' (List.mem_cons_of_mem e he'))

/-! ## The other threads -/

/-- The part of the mode that is in the stream state. -/
def StreamState.media (self : StreamState) : FrameFormat × Int × Int :=
  (self.frameFormat, self.negotiatedWidth, self.negotiatedHeight)

/-- What the feeder does not write. -/
def StreamState.settings (self : StreamState) : StreamState :=
  { self with
    baseTime := clockTimeNone
    prevPts := clockTimeNone
    frameOffset := 0
    hadIdr := false
    sendSpsPps := false
    vps := .empty
    sps := .empty
    pps := .empty }

theorem cacheParameterSet_settings (self : StreamState) (unit : NalUnit) (updated : Bool) :
    (cacheParameterSet self unit updated).1.settings = self.settings := by
  unfold cacheParameterSet latchSet
  split <;> (try split_ifs) <;> rfl

theorem foldl_measureUnit_settings (au : List NalUnit) (m : Measure) :
    (au.foldl measureUnit m).self.settings = m.self.settings := by
  induction au generalizing m with
  | nil => rfl
  | cons unit rest ih =>
    rw [List.foldl_cons, ih]
    unfold measureUnit
    split
    · exact cacheParameterSet_settings m.self unit m.updated
    · rfl

theorem fillUnit_settings (prefixLen : Nat) (f : Fill) (unit : NalUnit) :
    (fillUnit prefixLen f unit).self.settings = f.self.settings := by
  unfold fillUnit Fill.fillSets Fill.fill
  split_ifs <;> rfl

theorem foldl_fillUnit_settings (prefixLen : Nat) (au : List NalUnit) (f : Fill) :
    (au.foldl (fillUnit prefixLen) f).self.settings = f.self.settings := by
  induction au generalizing f with
  | nil => rfl
  | cons unit rest ih => rw [List.foldl_cons, ih, fillUnit_settings]

theorem pushAu_settings (self : StreamState) (ts : UInt64) (hasSlice : Bool) (mem : List (Option Byte)) :
    (pushAu self ts hasSlice mem).1.settings = self.settings := by
  unfold pushAu stampPts
  split <;> rfl

theorem deliverAu_settings (ts : UInt64) (w : Walk) (au : List NalUnit) :
    (deliverAu ts w au).self.settings = w.self.settings := by
  have hmeasure := foldl_measureUnit_settings au ⟨w.self, w.updated, false, false, 0⟩
  unfold deliverAu
  simp only []
  split
  · exact hmeasure
  · rw [pushAu_settings]
    split
    · exact (foldl_fillUnit_settings _ au _).trans hmeasure
    · exact (foldl_fillUnit_settings _ au _).trans hmeasure

theorem foldl_deliverAu_settings (ts : UInt64) (aus : List (List NalUnit)) (w : Walk) :
    (aus.foldl (deliverAu ts) w).self.settings = w.self.settings := by
  induction aus generalizing w with
  | nil => rfl
  | cons au rest ih => rw [List.foldl_cons, ih, deliverAu_settings]

theorem frameCallback_settings (self : StreamState) (arrival : Arrival) (data : Option (List Byte)) :
    (frameCallback self arrival data).self.settings = self.settings := by
  unfold frameCallback
  split
  · rfl
  · split
    · rfl
    · next snapshot _ =>
      rw [foldl_deliverAu_settings]
      unfold latchBaseTime
      split <;> rfl

/-- The callback does not touch what the mode is made of. -/
theorem frameCallback_media (self : StreamState) (arrival : Arrival) (data : Option (List Byte)) :
    (frameCallback self arrival data).self.media = self.media := by
  have hsettings := congrArg StreamState.media (frameCallback_settings self arrival data)
  exact hsettings

theorem core_eq_of {w w' : World} (ho : w'.own = w.own) (hm : w'.stream.media = w.stream.media) :
    w'.core = w.core := by
  obtain ⟨hf, hwh⟩ := Prod.mk.inj hm
  obtain ⟨hw, hh⟩ := Prod.mk.inj hwh
  unfold World.core World.mode
  rw [ho, hf, hw, hh]

theorem feed_calm (w : World) (arrival : Arrival) (data : Option (List Byte)) : Calm w (feed w arrival data) := by
  unfold feed
  split
  · exact Calm.refl w
  · refine ⟨core_eq_of rfl (frameCallback_media w.stream arrival data), _, ?_, rfl⟩
    intro e he
    obtain ⟨buf, -, rfl⟩ := List.mem_map.mp he
    trivial

theorem setClock_media (self : StreamState) (clock : Bool) :
    (setClock self clock).media = self.media := by
  unfold setClock
  split <;> rfl

theorem changeState_media (self : StreamState) (transition : StateChange) :
    (changeState self transition).media = self.media := by
  unfold changeState
  split <;> rfl

theorem interfere_own (w : World) (i : Interference) : (interfere w i).own = w.own := by
  match i with
  | .frame arrival data =>
    show (feed w arrival data).own = w.own
    unfold feed
    split <;> rfl
  | .unlock | .unlockStop | .setClock _ | .changeState _ => rfl
  | .setProperty property => cases property <;> rfl

theorem interfere_calm (w : World) (i : Interference) : Calm w (interfere w i) := by
  match i with
  | .frame arrival data => exact feed_calm w arrival data
  | .unlock => exact ⟨rfl, [], by simp, rfl⟩
  | .unlockStop => exact ⟨rfl, [.discarded w.queue], by simp [Event.Idle], rfl⟩
  | .setClock clock => exact ⟨core_eq_of rfl (setClock_media w.stream clock), [], by simp, rfl⟩
  | .changeState transition => exact ⟨core_eq_of rfl (changeState_media w.stream transition), [], by simp, rfl⟩
  | .setProperty property => cases property <;> exact ⟨rfl, [], by simp, rfl⟩

theorem foldl_interfere_own (others : List Interference) (w : World) :
    (others.foldl interfere w).own = w.own := by
  induction others generalizing w with
  | nil => rfl
  | cons i rest ih => rw [List.foldl_cons, ih, interfere_own]

theorem foldl_interfere_calm (others : List Interference) (w : World) : Calm w (others.foldl interfere w) := by
  induction others generalizing w with
  | nil => exact Calm.refl w
  | cons i rest ih => exact (interfere_calm w i).trans (ih (interfere w i))

theorem foldl_loadUnit_media (units : List NalUnit) (self : StreamState) :
    (units.foldl loadSpspps.loadUnit self).media = self.media := by
  induction units generalizing self with
  | nil => rfl
  | cons unit rest ih =>
    rw [List.foldl_cons, ih]
    unfold loadSpspps.loadUnit
    split
    · rfl
    · cases unit.type <;> rfl

/-- The others have their turn, and it is noted. -/
def World.others (w : World) (others : List Interference) (budget : Nat) : World :=
  { others.foldl interfere (w.note (.meanwhile others)) with budget := budget }

theorem others_own (w : World) (others : List Interference) (budget : Nat) :
    (w.others others budget).own = w.own := foldl_interfere_own others _

theorem others_calm (w : World) (others : List Interference) (budget : Nat) : Calm w (w.others others budget) := by
  have hnote : Calm w (w.note (.meanwhile others)) := Calm.record trivial
  obtain ⟨hcore, idle, hidle, hlog⟩ := hnote.trans (foldl_interfere_calm others _)
  exact ⟨hcore, idle, hidle, hlog⟩

end LibuvcH264Src
