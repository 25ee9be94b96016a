import LibuvcH264Src.Calls

/-!
# The payload override

* `afterTurn`, `PayloadAnswers` : what a call of `applyMaxPayload` is told, by the application and by the device;
* `PayloadAnswers.leaves` : the instance behind the call, as a function of what it was told;
* `FallsBack` : the payload size is the device's own or a confirmed one, and known as the effective one;
* `fallsBack_iff` : where it is.
-/

namespace LibuvcH264Src
open AnnexB Caps Prog

variable {env : Env} {width height fps : Int} {w w' : World}

/-! ## What the call is told -/

/-- The world behind a turn of the others. -/
def afterTurn (env : Env) (w : World) : World := w.others (env.meanwhile w.log) (w.budget - 1)

/-- The property, the answer to the probe of the clamped request, and the one to the clean negotiation. -/
structure PayloadAnswers where
  requested : UInt32
  reprobe : Reply
  clean : Reply

/-- The control block with another payload size. -/
def StreamCtrl.withPayload (ctrl : StreamCtrl) (size : UInt32) : StreamCtrl :=
  { ctrl with dwMaxPayloadTransferSize := size }

def payloadAnswers (env : Env) (width height fps : Int) (w : World) : PayloadAnswers :=
  let asked := afterTurn env w
  let override := w.own.uvcCtrl.withPayload (clampMaxPayload asked.props.maxPayload)
  let probing := afterTurn env asked
  let reprobe := env.reply probing.log (.payload override)
  let cleaning := afterTurn env (probing.note (.request w.own.uvcDevh (.payload override) reprobe))
  { requested := asked.props.maxPayload
    reprobe := reprobe
    clean := env.reply cleaning.log (.probe ⟨w.stream.frameFormat, width, height, fps⟩) }

/-- The device took the clamped request, and wrote it back. -/
def PayloadAnswers.Confirmed (told : PayloadAnswers) : Prop :=
  0 ≤ told.reprobe.res ∧ told.reprobe.ctrl.dwMaxPayloadTransferSize = clampMaxPayload told.requested

instance (told : PayloadAnswers) : Decidable told.Confirmed := by
  unfold PayloadAnswers.Confirmed
  infer_instance

/-! ## What it makes of it -/

/-- The control block and the effective size behind the call. -/
def PayloadAnswers.leaves (told : PayloadAnswers) (self : Own) : Own :=
  if told.requested = 0 then { self with maxPayloadEffective := self.uvcCtrl.dwMaxPayloadTransferSize }
  else if told.Confirmed then
    { self with uvcCtrl := told.reprobe.ctrl, maxPayloadEffective := clampMaxPayload told.requested }
  else
    { self with
      uvcCtrl := told.clean.ctrl
      maxPayloadEffective :=
        if told.clean.res < 0 then self.maxPayloadEffective else told.clean.ctrl.dwMaxPayloadTransferSize }

/-! ## Turns and requests -/

/-- All but the instance. -/
def World.around (w : World) : World := { w with own := .init }

theorem interfere_around (i : Interference) : (interfere w i).around = interfere w.around i := by
  match i with
  | .frame arrival data =>
    show (feed w arrival data).around = feed w.around arrival data
    unfold feed
    rw [show runningStream w.around.log = runningStream w.log from rfl]
    split <;> rfl
  | .unlock | .unlockStop | .setClock _ | .changeState _ => rfl
  | .setProperty property => cases property <;> rfl

theorem foldl_interfere_around (others : List Interference) :
    (others.foldl interfere w).around = others.foldl interfere w.around := by
  induction others generalizing w with
  | nil => rfl
  | cons i rest ih => rw [List.foldl_cons, List.foldl_cons, ih, interfere_around]

/-- The others do not look at the instance. -/
theorem afterTurn_around (w : World) : (afterTurn env w).around = afterTurn env w.around := by
  have hfold := foldl_interfere_around (w := w.note (.meanwhile (env.meanwhile w.log))) (env.meanwhile w.log)
  exact congrArg (fun v : World => { v with budget := w.budget - 1 }) hfold

theorem afterTurn_congr {v : World} (h : w.around = v.around) : (afterTurn env w).around = (afterTurn env v).around := by
  rw [afterTurn_around, afterTurn_around, h]

theorem around_log {v : World} (h : w.around = v.around) : w.log = v.log := by
  have hlog := congrArg World.log h
  exact hlog

theorem afterTurn_own : (afterTurn env w).own = w.own := others_own _ _ _

theorem afterTurn_frameFormat : (afterTurn env w).stream.frameFormat = w.stream.frameFormat := by
  have hmode := congrArg Core.mode (others_calm w (env.meanwhile w.log) (w.budget - 1)).core
  exact (StreamMode.mk.inj hmode).1

theorem wp_afterTurn {Q : Unit → World → Prop} (hQ : ∀ w', w'.own = w.own → w' = afterTurn env w → Q () w') :
    wp (fun _ => True) (turn env) Q w := by
  have heq : turn env w = if w.budget = 0 then (none, w) else (some (), afterTurn env w) := rfl
  unfold wp
  rw [heq]
  split_ifs
  · trivial
  · exact hQ _ afterTurn_own rfl

/-- A request is answered behind a turn of the others, and noted. -/
theorem wp_answered {req : Request} {reply : Reply} {Q : Reply → World → Prop}
    (hreply : reply = env.reply (afterTurn env w).log req)
    (hQ : ∀ w', w'.own = w.own → w' = (afterTurn env w).note (.request w.own.uvcDevh req reply) → Q reply w') :
    wp (fun _ => True) (request env req) Q w := by
  unfold request
  rw [wp_bind]
  apply wp_afterTurn
  rintro w' hown rfl
  have hend := hQ ((afterTurn env w).note (.request w.own.uvcDevh req reply)) hown rfl
  rw [wp_bind, wp_ask, ← hreply, wp_bind]
  unfold withHandle
  rw [wp_bind, wp_get, wp_bind, wp_record, hown]
  split
  · rw [wp_cut]
    trivial
  · split
    · rw [wp_pure, wp_pure]
      unfold World.note at hend
      rwa [hown] at hend
    · rw [wp_cut]
      trivial

/-! ## The call -/

theorem uvcProbeStreamCtrl_leaves (ctrl : StreamCtrl) (reprobe : Reply) (hctrl : w.own.uvcCtrl = ctrl)
    (hreprobe : reprobe = env.reply (afterTurn env w).log (.payload ctrl)) :
    wp (fun _ => True) (uvcProbeStreamCtrl env) (fun res w' =>
      res = reprobe.res ∧ w'.own = { w.own with uvcCtrl := reprobe.ctrl } ∧
        w'.around = ((afterTurn env w).note (.request w.own.uvcDevh (.payload ctrl) reprobe)).around) w := by
  unfold uvcProbeStreamCtrl
  rw [wp_bind, wp_get, wp_bind, hctrl]
  apply wp_answered hreprobe
  intro w' hown hw'
  rw [wp_bind, wp_modifyOwn, wp_pure, hown]
  refine ⟨rfl, rfl, ?_⟩
  rw [← hw']
  rfl

theorem negotiateCleanPayload_own (mode : StreamMode) (clean : Reply)
    (hmode : ⟨w.stream.frameFormat, width, height, fps⟩ = mode)
    (hclean : clean = env.reply (afterTurn env w).log (.probe mode)) :
    wp (fun _ => True) (negotiateCleanPayload env width height fps) (fun _ w' =>
      w'.own =
        { w.own with
          uvcCtrl := clean.ctrl
          maxPayloadEffective :=
            if clean.res < 0 then w.own.maxPayloadEffective else clean.ctrl.dwMaxPayloadTransferSize }) w := by
  unfold negotiateCleanPayload getStreamCtrlFormatSize
  rw [wp_bind, wp_bind, wp_get, wp_bind, hmode]
  apply wp_answered hclean
  intro w' hown _
  rw [wp_bind, wp_modifyOwn, wp_pure, wp_bind, wp_get, wp_ite]
  constructor
  · intro hrefused
    rw [wp_bind, wp_record, wp_pure, if_pos hrefused, hown]
  · intro haccepted
    rw [wp_bind, wp_modifyOwn, wp_pure, if_neg haccepted, hown]

/-- What a refused or mismatching probe leaves to the clean negotiation. -/
theorem PayloadAnswers.denied_iff (told : PayloadAnswers) :
    told.reprobe.res < 0 ∨ told.reprobe.ctrl.dwMaxPayloadTransferSize ≠ clampMaxPayload told.requested ↔
      ¬ told.Confirmed := by
  unfold PayloadAnswers.Confirmed
  rw [not_and_or, Int.not_le]

/-- **What the call leaves.** The property and the answers determine it. -/
theorem applyMaxPayload_own :
    wp (fun _ => True) (applyMaxPayload env width height fps) (fun _ w' =>
      w'.own = (payloadAnswers env width height fps w).leaves w.own) w := by
  generalize htold : payloadAnswers env width height fps w = told
  have hrequested : (afterTurn env w).props.maxPayload = told.requested := by
    rw [← htold]
    rfl
  unfold applyMaxPayload readProps
  rw [wp_bind, wp_bind]
  apply wp_afterTurn
  intro asked hown hasked
  rw [wp_bind, wp_get, wp_pure, show asked.props.maxPayload = told.requested by rw [hasked, hrequested]]
  unfold PayloadAnswers.leaves
  rw [wp_ite]
  constructor
  · intro hunset
    rw [wp_modifyOwn, if_pos hunset, hown]
  · intro hset
    rw [if_neg hset, wp_bind, wp_modifyOwn, hown, wp_bind]
    -- the turns behind it see the world with the clamped request in it, and the same log
    have haround : ∀ own, World.around { asked with own := own } = (afterTurn env w).around := by
      intro own
      rw [hasked]
      rfl
    refine wp_mono (uvcProbeStreamCtrl_leaves (w.own.uvcCtrl.withPayload (clampMaxPayload told.requested))
      told.reprobe rfl ?_) ?_
    · rw [around_log (afterTurn_congr (haround _)), ← htold]
      rfl
    · rintro res probed ⟨rfl, hprobed, hnoted⟩
      rw [wp_bind, wp_get, wp_ite, hprobed]
      constructor
      · intro hdenied
        rw [if_neg (told.denied_iff.mp hdenied), wp_bind]
        refine wp_mono (negotiateCleanPayload_own ⟨w.stream.frameFormat, width, height, fps⟩ told.clean ?_ ?_)
          fun _ w' hw' => ?_
        · have hformat := congrArg (fun v : World => v.stream.frameFormat) hnoted
          have hturns : probed.stream.frameFormat = w.stream.frameFormat := by
            refine hformat.trans (afterTurn_frameFormat.trans ?_)
            show asked.stream.frameFormat = _
            rw [hasked, afterTurn_frameFormat]
          rw [hturns]
        · have hprobing : probed.around = ((afterTurn env (afterTurn env w)).note (.request w.own.uvcDevh
              (.payload (w.own.uvcCtrl.withPayload (clampMaxPayload told.requested))) told.reprobe)).around := by
            refine hnoted.trans ?_
            exact congrArg (fun v : World => v.note _) (afterTurn_congr (haround _))
          rw [around_log (afterTurn_congr hprobing), ← htold]
          rfl
        · rw [wp_pure, hw', hprobed]
      · intro hcommitted
        have hconfirmed := not_not.mp (told.denied_iff.not.mp hcommitted)
        rw [wp_modifyOwn, if_pos hconfirmed, hprobed, hconfirmed.2]

/-! ## The fallback -/

/-- The payload sizes that a stream may be started with. -/
inductive PayloadAnswers.Granted (told : PayloadAnswers) (negotiated : UInt32) : UInt32 → Prop where
  | negotiated : Granted told negotiated negotiated
  | renegotiated (hset : told.requested ≠ 0) (hdenied : ¬ told.Confirmed) (haccepted : 0 ≤ told.clean.res) :
    Granted told negotiated told.clean.ctrl.dwMaxPayloadTransferSize
  | confirmed (hset : told.requested ≠ 0) (hconfirmed : told.Confirmed) :
    Granted told negotiated (clampMaxPayload told.requested)

/-- The control block carries such a size, and it is the effective one. -/
def FallsBack (told : PayloadAnswers) (before after : Own) : Prop :=
  told.Granted before.uvcCtrl.dwMaxPayloadTransferSize after.uvcCtrl.dwMaxPayloadTransferSize ∧
    after.maxPayloadEffective = after.uvcCtrl.dwMaxPayloadTransferSize

/-- No request, a confirmed one, an accepted clean negotiation, or a refused one that puts the negotiated
size back, where it was the effective one already. -/
def PayloadAnswers.Settles (told : PayloadAnswers) (before : Own) : Prop :=
  told.requested = 0 ∨ told.Confirmed ∨ 0 ≤ told.clean.res ∨
    told.clean.ctrl.dwMaxPayloadTransferSize = before.uvcCtrl.dwMaxPayloadTransferSize ∧
      before.maxPayloadEffective = before.uvcCtrl.dwMaxPayloadTransferSize

/-- Behind a refused clean negotiation, only the negotiated size is granted. -/
theorem PayloadAnswers.Granted.eq_negotiated {told : PayloadAnswers} {negotiated size : UInt32}
    (h : told.Granted negotiated size) (hdenied : ¬ told.Confirmed) (hrefused : told.clean.res < 0) :
    size = negotiated := by
  cases h with
  | negotiated => rfl
  | renegotiated hset hdenied haccepted => omega
  | confirmed hset hconfirmed => exact absurd hconfirmed hdenied

theorem PayloadAnswers.leaves_fallsBack_iff (told : PayloadAnswers) (self : Own) :
    FallsBack told self (told.leaves self) ↔ told.Settles self := by
  unfold FallsBack PayloadAnswers.Settles PayloadAnswers.leaves
  by_cases hset : told.requested = 0
  · rw [if_pos hset]
    exact iff_of_true ⟨.negotiated, rfl⟩ (Or.inl hset)
  · rw [if_neg hset]
    by_cases hconfirmed : told.Confirmed
    · rw [if_pos hconfirmed]
      have hgranted : told.Granted self.uvcCtrl.dwMaxPayloadTransferSize (clampMaxPayload told.requested) :=
        .confirmed hset hconfirmed
      rw [← hconfirmed.2] at hgranted
      exact iff_of_true ⟨hgranted, hconfirmed.2.symm⟩ (Or.inr (Or.inl hconfirmed))
    · rw [if_neg hconfirmed]
      by_cases hrefused : told.clean.res < 0
      · rw [if_pos hrefused]
        constructor
        · rintro ⟨hgranted, heffective⟩
          have hsize := hgranted.eq_negotiated hconfirmed hrefused
          exact Or.inr (Or.inr (Or.inr ⟨hsize, heffective.trans hsize⟩))
        · rintro (h | h | h | ⟨hsize, heffective⟩)
          · exact absurd h hset
          · exact absurd h hconfirmed
          · omega
          · refine ⟨?_, ?_⟩
            · rw [hsize]
              exact .negotiated
            · exact heffective.trans hsize.symm
      · rw [if_neg hrefused]
        have haccepted := Int.not_lt.mp hrefused
        exact iff_of_true ⟨.renegotiated hset hconfirmed haccepted, rfl⟩ (Or.inr (Or.inr (Or.inl haccepted)))

/-- **The fallback of the payload override.** The control block ends with a size that the device negotiated
or confirmed, and it is the effective one, if and only if the call settles: a refused or mismatching probe
of the request is behind it only where the clean negotiation is accepted, or puts back what was there. -/
theorem fallsBack_iff (h : applyMaxPayload env width height fps w = (some (), w')) :
    FallsBack (payloadAnswers env width height fps w) w.own w'.own ↔
      (payloadAnswers env width height fps w).Settles w.own := by
  rw [wp_elim applyMaxPayload_own h]
  exact PayloadAnswers.leaves_fallsBack_iff _ _

/-- A camera that is negotiated, and a request of so many bytes. -/
def negotiatedWorld (maxPayload : UInt32) : World :=
  { World.init 10 with
    own := { Own.init with
      uvcCtx := true
      uvcDev := some camera
      uvcDevh := some 0
      uvcCtrl := ⟨some ⟨.h264, 1920, 1080, 30⟩, 3072⟩ }
    stream := { StreamState.init with frameFormat := .h264 }
    props := { Props.init with maxPayload := maxPayload }
    log := [.openDevice camera 0 0] }

theorem fallsBack_iff_camera :
    FallsBack (payloadAnswers oneCamera 1920 1080 30 (negotiatedWorld 65536)) (negotiatedWorld 65536).own
        (applyMaxPayload oneCamera 1920 1080 30 (negotiatedWorld 65536)).2.own ↔
      (payloadAnswers oneCamera 1920 1080 30 (negotiatedWorld 65536)).Settles (negotiatedWorld 65536).own :=
  fallsBack_iff rfl

/-- A camera that refuses every probe from the request on, and leaves the control block as it was written. -/
def failingCamera : Env :=
  { oneCamera with
    reply := fun _ req =>
      match req with
      | .probe mode => ⟨-1, ⟨some mode, 65536⟩⟩
      | .payload ctrl => ⟨-1, ctrl⟩
      | req => willing req
    probed := fun _ _ _ => rfl
    reprobed := fun _ _ _ => rfl }

/-- Both probes fail, and the unconfirmed request stays in the control block. -/
theorem not_fallsBack :
    ¬ ∀ (env : Env) (width height fps : Int) (w w' : World),
      applyMaxPayload env width height fps w = (some (), w') →
        FallsBack (payloadAnswers env width height fps w) w.own w'.own := by
  intro hall
  have hfalls := hall failingCamera 1920 1080 30 (negotiatedWorld 65536) _ rfl
  have hsize : (65536 : UInt32) = 3072 := hfalls.1.eq_negotiated (by decide) (by decide)
  exact absurd hsize (by decide)

end LibuvcH264Src
