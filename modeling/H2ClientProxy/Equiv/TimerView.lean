import H2ClientProxy.Equiv.Timers

/-!
# Timers as their users see them

A user of `ep.c` cannot look into a timer: he knows what `ep_timer_pending` answers, and whether the
timer is in `list_timers` and so will fire.  These two need not agree.

* `view`: the two bits of every timer that has not been freed.
* `EpOk`: what makes the timers independent of each other.
* `EpOk.timerNew`, `EpOk.timerAdd`, …: each function changes the bits of its own timer, and of no
  other one, and it does not fault.
-/

namespace H2ClientProxy.Ep

open Wp

variable {b b' : EpBase} {t : TimerId} {i : InfoId}

/-- The flag that `ep_timer_pending` reads, and whether the node of the timer is linked. -/
structure TimerView where
  pending : Bool
  linked : Bool
  deriving DecidableEq, Repr

/-- The node of a timer is linked. -/
def nodeLinked (b : EpBase) (info : Option InfoId) : Bool :=
  info.any fun i => (b.infos i).any TimerInfo.pending

/-- The timers of an event base; `none` for one that does not exist or has been freed. -/
def view (b : EpBase) (t : TimerId) : Option TimerView :=
  (b.timers t).map fun tm => { pending := tm.pending, linked := nodeLinked b tm.info }

/-- Every node belongs to one timer, and the nodes that say so are linked. -/
structure EpOk (b : EpBase) : Prop where
  owned : ∀ t tm i, b.timers t = some tm → tm.info = some i →
    ∃ info, b.infos i = some info ∧ info.owner = .timer t
  freshInfo : ∀ i, b.nextInfo ≤ i → b.infos i = none
  freshTimer : ∀ t, b.nextTimer ≤ t → b.timers t = none
  listed : ∀ i info, b.infos i = some info → info.pending = true → i ∈ b.listTimers

/-- A sound base with the timers `v`. -/
structure Views (b : EpBase) (v : TimerId → Option TimerView) : Prop where
  ok : EpOk b
  eq : view b = v

theorem epOk_init : EpOk {} where
  owned := fun _ _ _ h => absurd h.symm (Option.some_ne_none _)
  freshInfo := fun _ _ => rfl
  freshTimer := fun _ _ => rfl
  listed := fun _ _ h => absurd h.symm (Option.some_ne_none _)

/-! ### Independence -/

/-- The nodes of two timers are different. -/
theorem EpOk.info_ne (h : EpOk b) {t' : TimerId} {tm tm' : EpTimer} {i i' : InfoId}
    (ht : b.timers t = some tm) (hi : tm.info = some i) (ht' : b.timers t' = some tm')
    (hi' : tm'.info = some i') (hne : t' ≠ t) : i' ≠ i := by
  rintro rfl
  obtain ⟨info, hinfo, ho⟩ := h.owned t tm i' ht hi
  obtain ⟨info', hinfo', ho'⟩ := h.owned t' tm' i' ht' hi'
  rw [hinfo, Option.some.injEq] at hinfo'
  rw [← hinfo', ho, InfoOwner.timer.injEq] at ho'
  exact hne ho'.symm

/-- The timers after a change of `t` that leaves the nodes of the other timers as they are. -/
theorem view_eq_update {v : Option TimerView} (hself : view b' t = v)
    (hother : ∀ t', t' ≠ t → b'.timers t' = b.timers t')
    (hinfo : ∀ t' tm j, t' ≠ t → b.timers t' = some tm → tm.info = some j →
      b'.infos j = b.infos j) : view b' = Function.update (view b) t v := by
  funext t'
  rw [Function.update_apply]
  split_ifs with he
  · rw [he]
    exact hself
  · unfold view
    rw [hother t' he]
    cases htm : b.timers t' with
    | none => rfl
    | some tm =>
      have hlinked : nodeLinked b' tm.info = nodeLinked b tm.info := by
        cases hj : tm.info with
        | none => rfl
        | some j =>
          show (b'.infos j).any _ = (b.infos j).any _
          rw [hinfo t' tm j he htm hj]
      rw [Option.map_some, Option.map_some, hlinked]

theorem view_eq_some {v : TimerView} (h : view b t = some v) :
    ∃ tm, b.timers t = some tm ∧ v = { pending := tm.pending, linked := nodeLinked b tm.info } := by
  obtain ⟨tm, htm, hv⟩ := Option.map_eq_some_iff.mp h
  exact ⟨tm, htm, hv.symm⟩

/-- A timer that is linked is in the list. -/
theorem EpOk.mem_listTimers (h : EpOk b) {p : Bool} (hv : view b t = some ⟨p, true⟩) :
    ∃ tm i, b.timers t = some tm ∧ tm.info = some i ∧ i ∈ b.listTimers := by
  obtain ⟨tm, htm, hv⟩ := view_eq_some hv
  have hlinked : nodeLinked b tm.info = true := (congrArg TimerView.linked hv).symm
  rw [nodeLinked, Option.any_eq_true] at hlinked
  obtain ⟨i, hi, hp⟩ := hlinked
  obtain ⟨info, hinfo, hp⟩ := Option.any_eq_true _ _ |>.mp hp
  exact ⟨tm, i, htm, hi, h.listed i info hinfo hp⟩

/-! ### The updates -/

theorem EpOk.addInfo (h : EpOk b) (owner : InfoOwner) : EpOk (b.addInfo owner) := by
  have hold : ∀ j info, b.infos j = some info → (b.addInfo owner).infos j = some info := by
    intro j info hj
    have hne : j ≠ b.nextInfo := by
      rintro rfl
      rw [h.freshInfo _ (Nat.le_refl _)] at hj
      exact Option.some_ne_none info hj.symm
    rw [EpBase.addInfo_infos, Function.update_of_ne hne]
    exact hj
  constructor
  · -- `owned`
    intro t tm j ht hj
    obtain ⟨info, hinfo, ho⟩ := h.owned t tm j ht hj
    exact ⟨info, hold j info hinfo, ho⟩
  · -- `freshInfo`
    intro j hj
    have hlt : b.nextInfo < j := hj
    rw [EpBase.addInfo_infos, Function.update_of_ne (Nat.ne_of_gt hlt)]
    exact h.freshInfo j (Nat.le_of_lt hlt)
  · exact h.freshTimer
  · -- `listed`
    intro j info hj hp
    rw [EpBase.addInfo_infos, Function.update_apply] at hj
    split_ifs at hj
    · rw [Option.some.injEq] at hj
      rw [← hj] at hp
      exact absurd hp Bool.false_ne_true
    · exact h.listed j info hj hp

/-- A timer gets a node of its own, or none. -/
theorem EpOk.setTimer (h : EpOk b) {tm' : Option EpTimer} (hlt : t < b.nextTimer)
    (hown : ∀ tm i, tm' = some tm → tm.info = some i →
      ∃ info, b.infos i = some info ∧ info.owner = .timer t) : EpOk (b.setTimer t tm') where
  owned := by
    intro t' tm j ht' hj
    rw [EpBase.setTimer_timers, Function.update_apply] at ht'
    split_ifs at ht' with he
    · rw [he]
      exact hown tm j ht' hj
    · exact h.owned t' tm j ht' hj
  freshInfo := h.freshInfo
  freshTimer := by
    intro t' ht'
    have hle : b.nextTimer ≤ t' := ht'
    have hne : t' ≠ t := Nat.ne_of_gt (Nat.lt_of_lt_of_le hlt hle)
    rw [EpBase.setTimer_timers, Function.update_of_ne hne]
    exact h.freshTimer t' ht'
  listed := h.listed

/-- A node keeps its owner, and is linked when it says so. -/
theorem EpOk.setInfo (h : EpOk b) {info : TimerInfo} (hi : b.infos i = some info)
    (info' : TimerInfo) (ho : info'.owner = info.owner) (l : List InfoId)
    (hl : ∀ j, j ≠ i → j ∈ b.listTimers → j ∈ l) (hp : info'.pending = true → i ∈ l) :
    EpOk ((b.setList l).setInfo i (some info')) where
  owned := by
    intro t tm j ht hj
    obtain ⟨x, hx, hox⟩ := h.owned t tm j ht hj
    rw [EpBase.setInfo_infos, Function.update_apply]
    split_ifs with he
    · subst he
      rw [hi, Option.some.injEq] at hx
      exact ⟨info', rfl, by rw [ho, hx, hox]⟩
    · exact ⟨x, hx, hox⟩
  freshInfo := by
    intro j hj
    have hne : j ≠ i := by
      rintro rfl
      exact absurd (h.freshInfo j hj) (by rw [hi]; exact Option.some_ne_none info)
    rw [EpBase.setInfo_infos, Function.update_of_ne hne]
    exact h.freshInfo j hj
  freshTimer := h.freshTimer
  listed := by
    intro j x hx hpx
    rw [EpBase.setInfo_infos, Function.update_apply] at hx
    split_ifs at hx with he
    · rw [Option.some.injEq] at hx
      rw [he]
      exact hp (hx ▸ hpx)
    · exact hl j he (h.listed j x hx hpx)

/-- A node that no timer points to is freed. -/
theorem EpOk.freeInfo (h : EpOk b) (hno : ∀ t tm, b.timers t = some tm → tm.info ≠ some i) :
    EpOk (b.setInfo i none) where
  owned := by
    intro t tm j ht hj
    have hne : j ≠ i := fun he => hno t tm ht (he ▸ hj)
    rw [EpBase.setInfo_infos, Function.update_of_ne hne]
    exact h.owned t tm j ht hj
  freshInfo := by
    intro j hj
    rw [EpBase.setInfo_infos, Function.update_apply]
    split_ifs
    · rfl
    · exact h.freshInfo j hj
  freshTimer := h.freshTimer
  listed := by
    intro j x hx
    rw [EpBase.setInfo_infos, Function.update_apply] at hx
    split_ifs at hx
    exact h.listed j x hx

theorem EpOk.unlink (h : EpOk b) {info : TimerInfo} (hi : b.infos i = some info) :
    EpOk (b.unlink i info) := by
  unfold EpBase.unlink
  split_ifs
  · refine h.setInfo hi { info with pending := false } rfl (b.listTimers.erase i) ?_ ?_
    · exact fun j hne hj => (List.mem_erase_of_ne hne).mpr hj
    · exact fun hp => absurd hp Bool.false_ne_true
  · exact h

theorem EpOk.link (h : EpOk b) {info : TimerInfo} (hi : b.infos i = some info) (millsec : ℤ) :
    EpOk (b.link i info millsec) := by
  have hperm := insertTimer_perm b i millsec
  unfold EpBase.link
  split_ifs
  · exact h
  · refine h.setInfo hi { info with pending := true, timeoutMs := _ } rfl
      (insertTimer b i millsec) ?_ fun _ => ?_
    · exact fun j _ hj => hperm.mem_iff.mpr (List.mem_cons_of_mem i hj)
    · exact hperm.mem_iff.mpr List.mem_cons_self

/-! ### The functions of `ep.c` -/

/-- `ep_timer_info_del` touches its node only. -/
theorem unlink_infos (b : EpBase) (info : TimerInfo) {j : InfoId} (hne : j ≠ i) :
    (b.unlink i info).infos j = b.infos j := by
  unfold EpBase.unlink
  split_ifs
  · exact Function.update_of_ne hne _ _
  · rfl

/-- `ep_timer_info_add` touches its node only. -/
theorem link_infos (b : EpBase) (info : TimerInfo) (millsec : ℤ) {j : InfoId} (hne : j ≠ i) :
    (b.link i info millsec).infos j = b.infos j := by
  unfold EpBase.link
  split_ifs
  · rfl
  · exact Function.update_of_ne hne _ _

theorem unlink_timers (b : EpBase) (i : InfoId) (info : TimerInfo) :
    (b.unlink i info).timers = b.timers := by
  unfold EpBase.unlink
  split_ifs <;> rfl

theorem link_timers (b : EpBase) (i : InfoId) (info : TimerInfo) (millsec : ℤ) :
    (b.link i info millsec).timers = b.timers := by
  unfold EpBase.link
  split_ifs <;> rfl

theorem unlink_self {info : TimerInfo} (hi : b.infos i = some info) :
    nodeLinked (b.unlink i info) (some i) = false := by
  unfold EpBase.unlink
  split_ifs with hp
  · show (Function.update b.infos i _ i).any _ = false
    rw [Function.update_self]
    rfl
  · show (b.infos i).any _ = false
    rw [hi]
    exact Bool.not_eq_true _ ▸ hp

theorem link_self {info : TimerInfo} (hi : b.infos i = some info) (millsec : ℤ) :
    nodeLinked (b.link i info millsec) (some i) = true := by
  unfold EpBase.link
  split_ifs with hp
  · show (b.infos i).any _ = true
    rw [hi]
    exact hp
  · show (Function.update b.infos i _ i).any _ = true
    rw [Function.update_self]
    rfl

theorem EpOk.timerNew (h : EpOk b) :
    wp epTimerNew (fun t b' => view b t = none ∧
      Views b' (Function.update (view b) t (some ⟨false, false⟩))) (fun _ _ => False) b := by
  simp only [epTimerNew, wp_bind, wp_get, wp_modify, wp_pure]
  have hnone : b.timers b.nextTimer = none := h.freshTimer _ (Nat.le_refl _)
  refine ⟨by rw [view, hnone]; rfl, ?_, ?_⟩
  · constructor
    · intro t tm j ht hj
      rw [EpBase.setTimer_timers, Function.update_apply] at ht
      split_ifs at ht
      · rw [Option.some.injEq] at ht
        rw [← ht] at hj
        exact absurd hj.symm (Option.some_ne_none j)
      · exact h.owned t tm j ht hj
    · exact h.freshInfo
    · intro t ht
      have hlt : b.nextTimer < t := ht
      show Function.update b.timers b.nextTimer _ t = none
      rw [Function.update_of_ne (Nat.ne_of_gt hlt)]
      exact h.freshTimer t (Nat.le_of_lt hlt)
    · exact h.listed
  · refine view_eq_update ?_ (fun t' hne => Function.update_of_ne hne _ _) fun _ _ _ _ _ _ => rfl
    show (Function.update b.timers b.nextTimer _ b.nextTimer).map _ = _
    rw [Function.update_self]
    rfl

/-- A timer that exists has an old name. -/
theorem EpOk.timer_lt (h : EpOk b) {tm : EpTimer} (ht : b.timers t = some tm) : t < b.nextTimer := by
  by_contra hge
  have hnone := h.freshTimer t (Nat.le_of_not_lt hge)
  rw [ht] at hnone
  exact Option.some_ne_none tm hnone

/-- The last step of `ep_timer_add`, for the node `i` that the timer has or has been given. -/
theorem EpOk.linkTimer (h : EpOk b) {info : TimerInfo} (millsec : ℤ)
    (hlt : t < b.nextTimer) (hi : b.infos i = some info) (ho : info.owner = .timer t)
    (hother : ∀ t' tm, t' ≠ t → b.timers t' = some tm → tm.info ≠ some i) :
    Views ((b.setTimer t (some { info := some i, pending := true })).link i info millsec)
      (Function.update (view b) t (some ⟨true, true⟩)) := by
  have hset : EpOk (b.setTimer t (some { info := some i, pending := true })) := by
    refine h.setTimer hlt fun tm j htm hj => ?_
    rw [Option.some.injEq] at htm
    rw [← htm, Option.some.injEq] at hj
    exact ⟨info, hj ▸ hi, ho⟩
  refine ⟨hset.link hi millsec, view_eq_update ?_ ?_ ?_⟩
  · have hself := link_self (b := b.setTimer t (some { info := some i, pending := true })) hi millsec
    rw [view, link_timers, EpBase.setTimer_timers, Function.update_self, Option.map_some, hself]
  · intro t' hne
    rw [link_timers]
    exact Function.update_of_ne hne _ _
  · intro t' tm j hne htm hj
    have hji : j ≠ i := fun he => hother t' tm hne htm (he ▸ hj)
    exact link_infos _ info millsec hji

theorem EpOk.timerAdd (h : EpOk b) {v : TimerView} (ht : view b t = some v) (millsec : ℤ) :
    wp (epTimerAdd t millsec)
      (fun _ b' => Views b' (Function.update (view b) t (some ⟨true, true⟩))) (fun _ _ => False)
      b := by
  obtain ⟨tm, htm, -⟩ := view_eq_some ht
  simp only [epTimerAdd, wp_bind, wp_getTimer, htm]
  cases hinfo : tm.info with
  | some i =>
    obtain ⟨info, hi, ho⟩ := h.owned t tm i htm hinfo
    simp only [wp_bind, wp_pure, wp_modify, wp_epTimerInfoAdd, EpBase.setTimer_infos, hi]
    refine h.linkTimer millsec (h.timer_lt htm) hi ho ?_
    exact fun t' tm' hne htm' hi' => h.info_ne htm hinfo htm' hi' hne rfl
  | none =>
    -- the timer gets a new node
    have hnone : b.infos b.nextInfo = none := h.freshInfo _ (Nat.le_refl _)
    have hnew : (b.addInfo (.timer t)).infos b.nextInfo = some { owner := .timer t } :=
      Function.update_self ..
    simp only [epTimerInfoCreate, wp_bind, wp_get, wp_pure, wp_modify, wp_epTimerInfoAdd,
      EpBase.setTimer_infos, hnew]
    have hother : ∀ t' tm' j, b.timers t' = some tm' → tm'.info = some j → j ≠ b.nextInfo := by
      rintro t' tm' j htm' hj rfl
      obtain ⟨x, hx, -⟩ := h.owned t' tm' _ htm' hj
      rw [hnone] at hx
      exact Option.some_ne_none x hx.symm
    have hsame : view (b.addInfo (.timer t)) = view b := by
      have hself : view (b.addInfo (.timer t)) t = view b t := by
        have htm1 : (b.addInfo (.timer t)).timers t = some tm := htm
        rw [view, view, htm, htm1, Option.map_some, Option.map_some, hinfo]
        rfl
      have hupd : view (b.addInfo (.timer t)) = Function.update (view b) t (view b t) :=
        view_eq_update hself (fun _ _ => rfl)
          fun t' tm' j _ htm' hj => Function.update_of_ne (hother t' tm' j htm' hj) _ _
      rw [hupd, Function.update_eq_self]
    rw [← hsame]
    refine (h.addInfo (.timer t)).linkTimer millsec (h.timer_lt htm) hnew rfl ?_
    exact fun t' tm' _ htm' hi' => hother t' tm' _ htm' hi' rfl

/-- `ep_timer_del` and `ep_timer_free` free the node of the timer. -/
theorem EpOk.dropInfo (h : EpOk b) {tm : EpTimer} (htm : b.timers t = some tm)
    (tm' : Option EpTimer) (htm' : ∀ x, tm' = some x → x.info = none) :
    wp (dropInfo tm.info >>= fun _ => modify (·.setTimer t tm'))
      (fun _ b' => Views b' (Function.update (view b) t (tm'.map fun x => ⟨x.pending, false⟩)))
      (fun _ _ => False) b := by
  have hset : EpOk (b.setTimer t tm') := by
    refine h.setTimer (h.timer_lt htm) fun x j hx hj => ?_
    rw [htm' x hx] at hj
    exact absurd hj.symm (Option.some_ne_none j)
  have hself : ∀ b1 : EpBase, b1.timers = Function.update b.timers t tm' →
      view b1 t = tm'.map fun x => ⟨x.pending, false⟩ := by
    intro b1 hb1
    rw [view, hb1, Function.update_self]
    cases hx : tm' with
    | none => rfl
    | some x =>
      rw [Option.map_some, Option.map_some, htm' x hx]
      rfl
  cases hinfo : tm.info with
  | none =>
    simp only [Ep.dropInfo, wp_bind, wp_pure, wp_modify]
    refine ⟨hset, view_eq_update (hself _ rfl) ?_ fun _ _ _ _ _ _ => rfl⟩
    exact fun t' hne => Function.update_of_ne hne _ _
  | some i =>
    obtain ⟨info, hi, -⟩ := h.owned t tm i htm hinfo
    simp only [Ep.dropInfo, wp_bind, wp_epTimerInfoDel, wp_modify, hi]
    -- the order of the two updates does not matter
    have hcomm : ((b.unlink i info).setInfo i none).setTimer t tm' =
        ((b.setTimer t tm').unlink i info).setInfo i none := by
      unfold EpBase.unlink
      split_ifs <;> rfl
    have htimers : (((b.setTimer t tm').unlink i info).setInfo i none).timers =
        Function.update b.timers t tm' := by
      show ((b.setTimer t tm').unlink i info).timers = _
      rw [unlink_timers]
      rfl
    rw [hcomm]
    refine ⟨(hset.unlink hi).freeInfo ?_, view_eq_update (hself _ htimers) ?_ ?_⟩
    · intro t' x hx hj
      rw [unlink_timers, EpBase.setTimer_timers, Function.update_apply] at hx
      split_ifs at hx with he
      · rw [htm' x hx] at hj
        exact Option.some_ne_none i hj.symm
      · exact h.info_ne htm hinfo hx hj he rfl
    · intro t' hne
      rw [htimers, Function.update_of_ne hne]
    · intro t' x j hne hx hj
      have hji := h.info_ne htm hinfo hx hj hne
      show Function.update ((b.setTimer t tm').unlink i info).infos i none j = b.infos j
      rw [Function.update_of_ne hji, unlink_infos _ info hji]
      rfl

theorem EpOk.timerDel (h : EpOk b) {v : TimerView} (ht : view b t = some v) :
    wp (epTimerDel t) (fun _ b' => Views b' (Function.update (view b) t (some ⟨false, false⟩)))
      (fun _ _ => False) b := by
  obtain ⟨tm, htm, -⟩ := view_eq_some ht
  simp only [epTimerDel, wp_bind, wp_getTimer, htm]
  have hdrop := h.dropInfo htm (some {}) fun x hx => by rw [← Option.some.inj hx]
  rw [wp_bind] at hdrop
  exact hdrop

theorem EpOk.timerFree (h : EpOk b) {v : TimerView} (ht : view b t = some v) :
    wp (epTimerFree t) (fun _ b' => Views b' (Function.update (view b) t none))
      (fun _ _ => False) b := by
  obtain ⟨tm, htm, -⟩ := view_eq_some ht
  simp only [epTimerFree, wp_bind, wp_getTimer, htm]
  have hdrop := h.dropInfo htm none fun x hx => absurd hx.symm (Option.some_ne_none x)
  rw [wp_bind] at hdrop
  exact hdrop

/-- `ep_timer_pending` answers with the flag. -/
theorem wp_epTimerPending {v : TimerView} (ht : view b t = some v) {Q : Bool → EpBase → Prop}
    {E : EpFault → EpBase → Prop} (hQ : Q v.pending b) : wp (epTimerPending t) Q E b := by
  obtain ⟨tm, htm, rfl⟩ := view_eq_some ht
  simp only [epTimerPending, wp_bind, wp_getTimer, htm, wp_pure]
  exact hQ

/-- When a timer fires, its node is unlinked, and the flag stays as it is. -/
theorem EpOk.infoDel (h : EpOk b) {tm : EpTimer} (htm : b.timers t = some tm)
    (hi : tm.info = some i) :
    wp (epTimerInfoDel i)
      (fun _ b' => Views b' (Function.update (view b) t (some ⟨tm.pending, false⟩)))
      (fun _ _ => False) b := by
  obtain ⟨info, hinfo, -⟩ := h.owned t tm i htm hi
  simp only [wp_epTimerInfoDel, hinfo]
  refine ⟨h.unlink hinfo, view_eq_update ?_ ?_ ?_⟩
  · rw [view, unlink_timers, htm, Option.map_some, hi, unlink_self hinfo]
  · exact fun t' _ => congrFun (unlink_timers b i info) t'
  · exact fun t' x j hne hx hj => unlink_infos b info (h.info_ne htm hi hx hj hne)

end H2ClientProxy.Ep
