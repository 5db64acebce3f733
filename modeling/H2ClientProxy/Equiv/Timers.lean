import H2ClientProxy.Ep.Base
import Mathlib.Data.List.Pairwise
import Mathlib.Order.Basic
import Mathlib.Order.Defs.LinearOrder
import Mathlib.Algebra.Order.Ring.Int
import Mathlib.Tactic.SplitIfs

/-!
# When the timer list is in order

`ep_timer_check` stops at the first timer that is not due, and `ep_timer_get_next` reads the first one
only, so `list_timers` has to be sorted by deadline.  `ep_timer_info_add` looks for the place of a new
timer by comparing the deadlines in the list with its *delay*.

* `insertTimer_sorted_iff`: in a sorted list, the new timer gets its right place exactly when it fits
  (`fits`): the list is empty, or its last deadline does not exceed the delay nor the new deadline, or
  it does exceed the delay and only this last timer is due after the new one.
* `wp_run_timersSorted`: as long as every timer that is added fits, the list is always sorted.
* `not_timersSorted`: a short timer and then a long one are enough to get it out of order.
-/

namespace H2ClientProxy.Ep

open Wp Machine Wrap32

variable {b : EpBase}

/-! ### Insertion -/

/-- The last entry of the list decides. -/
theorem posAdd_append (millsec d : ℤ) (ds : List ℤ) (k : ℕ) (acc : Option ℕ) :
    posAdd millsec (ds ++ [d]) k acc =
      if d > millsec then some (k + ds.length) else posAdd millsec ds k acc := by
  induction ds generalizing k acc with
  | nil => rfl
  | cons x xs ih =>
    rw [List.cons_append, posAdd, ih, posAdd, List.length_cons]
    have hk : k + 1 + xs.length = k + (xs.length + 1) := by omega
    rw [hk]

/-- Nothing is found when no deadline exceeds the delay. -/
theorem posAdd_eq_acc {millsec : ℤ} {ds : List ℤ} (h : ∀ d ∈ ds, d ≤ millsec) (k : ℕ)
    (acc : Option ℕ) : posAdd millsec ds k acc = acc := by
  induction ds generalizing k acc with
  | nil => rfl
  | cons x xs ih =>
    have hx : ¬ x > millsec := not_lt.mpr (h x List.mem_cons_self)
    rw [posAdd, if_neg hx]
    exact ih (fun d hd => h d (List.mem_cons_of_mem _ hd)) _ _

/-- A timer with the delay `millsec` and the deadline `timeoutMs` fits into a list with the deadlines
`ds`. -/
def fits (ds : List ℤ) (timeoutMs millsec : ℤ) : Bool :=
  match ds.getLast? with
  | none => true
  | some d =>
    if d > millsec then decide (timeoutMs ≤ d) && ds.dropLast.all (decide <| · ≤ timeoutMs)
    else decide (d ≤ timeoutMs)

/-- The deadlines after an insertion into a sorted list. -/
theorem map_insertTimer (f : InfoId → ℤ) (i : InfoId) (millsec : ℤ)
    (hs : b.deadlines.Pairwise (· ≤ ·)) (hf : b.listTimers.map f = b.deadlines) :
    (insertTimer b i millsec).map f =
      match b.deadlines.getLast? with
      | none => [f i]
      | some d =>
        if d > millsec then b.deadlines.dropLast ++ [f i, d] else b.deadlines ++ [f i] := by
  rw [insertTimer]
  rcases List.eq_nil_or_concat b.deadlines with hnil | ⟨ds, d, hds⟩
  · have hl : b.listTimers = [] := List.map_eq_nil_iff.mp hnil
    rw [hnil, hl]
    rfl
  · rw [List.concat_eq_append] at hds
    rw [hds, posAdd_append, List.getLast?_concat, List.dropLast_concat]
    have hlen : b.listTimers.length = ds.length + 1 := by
      rw [← List.length_map (f := b.timeoutOf)]
      show b.deadlines.length = ds.length + 1
      rw [hds, List.length_append, List.length_singleton]
    dsimp only
    split_ifs with hd
    · -- the new entry goes in front of the last one
      have htake : (b.listTimers.take ds.length).map f = ds := by
        rw [List.map_take, hf, hds, List.take_left]
      have hdrop : (b.listTimers.drop ds.length).map f = [d] := by
        rw [List.map_drop, hf, hds, List.drop_left]
      rw [Nat.zero_add]
      dsimp only
      rw [List.map_append, List.map_cons, htake, hdrop]
    · -- the last deadline is the greatest: no entry stops the search
      rw [hds] at hs
      have hall : ∀ x ∈ ds, x ≤ millsec := by
        intro x hx
        have hxd : x ≤ d := (List.pairwise_append.mp hs).2.2 x hx d (List.mem_singleton_self d)
        omega
      rw [posAdd_eq_acc hall]
      dsimp only
      rw [List.map_append, hf, hds]
      rfl

/-- Wherever it goes, the new timer is in the list afterwards, with the old ones. -/
theorem insertTimer_perm (b : EpBase) (i : InfoId) (millsec : ℤ) :
    (insertTimer b i millsec).Perm (i :: b.listTimers) := by
  unfold insertTimer
  split
  · exact List.perm_append_singleton ..
  · refine List.perm_middle.trans ?_
    rw [List.take_append_drop]

/-- **Exactly the timers that fit get their right place** in a sorted list. -/
theorem insertTimer_sorted_iff (f : InfoId → ℤ) (i : InfoId) (millsec : ℤ)
    (hs : b.deadlines.Pairwise (· ≤ ·)) (hf : b.listTimers.map f = b.deadlines) :
    ((insertTimer b i millsec).map f).Pairwise (· ≤ ·) ↔
      fits b.deadlines (f i) millsec = true := by
  rw [map_insertTimer f i millsec hs hf, fits]
  rcases List.eq_nil_or_concat b.deadlines with hnil | ⟨ds, d, hds⟩
  · rw [hnil]
    simp
  · rw [List.concat_eq_append] at hds
    rw [hds] at hs ⊢
    rw [List.getLast?_concat, List.dropLast_concat]
    have hsplit := List.pairwise_append.mp hs
    have hle : ∀ x ∈ ds, x ≤ d := fun x hx => hsplit.2.2 x hx d (List.mem_singleton_self d)
    dsimp only
    split_ifs with hd
    · -- in front of the last entry: between it and all the others
      rw [Bool.and_eq_true, decide_eq_true_eq, List.all_eq_true]
      simp only [decide_eq_true_eq]
      constructor
      · intro h
        have h' := List.pairwise_append.mp h
        refine ⟨(List.pairwise_cons.mp h'.2.1).1 d (List.mem_singleton_self d), ?_⟩
        exact fun x hx => h'.2.2 x hx (f i) List.mem_cons_self
      · rintro ⟨hfd, hall⟩
        refine List.pairwise_append.mpr ⟨hsplit.1, ?_, ?_⟩
        · exact List.pairwise_pair.mpr hfd
        · intro x hx y hy
          rw [List.mem_cons, List.mem_singleton] at hy
          rcases hy with rfl | rfl
          · exact hall x hx
          · exact hle x hx
    · -- at the end: behind the last entry, and so behind all
      rw [decide_eq_true_eq]
      constructor
      · intro h
        have h' := List.pairwise_append.mp h
        exact h'.2.2 d (by simp) (f i) (List.mem_singleton_self _)
      · intro hfd
        refine List.pairwise_append.mpr ⟨hs, List.pairwise_singleton _ _, ?_⟩
        intro x hx y hy
        rw [List.mem_singleton] at hy
        subst hy
        rcases List.mem_append.mp hx with hx | hx
        · have := hle x hx
          omega
        · rw [List.mem_singleton] at hx
          omega

/-! ### Symbolic execution -/

section Wp

variable {E : EpFault → EpBase → Prop}

@[simp]
theorem wp_getInfo (i : InfoId) {Q : TimerInfo → EpBase → Prop} :
    wp (getInfo i) Q E = fun b =>
      match b.infos i with
      | some info => Q info b
      | none => E (.infoFreed i) b := by
  funext b
  simp only [getInfo, wp_bind, wp_get]
  cases b.infos i <;> rfl

@[simp]
theorem wp_getTimer (t : TimerId) {Q : EpTimer → EpBase → Prop} :
    wp (getTimer t) Q E = fun b =>
      match b.timers t with
      | some tm => Q tm b
      | none => E (.timerFreed t) b := by
  funext b
  simp only [getTimer, wp_bind, wp_get]
  cases b.timers t <;> rfl

@[simp]
theorem wp_getFile (f : FileId) {Q : File → EpBase → Prop} :
    wp (getFile f) Q E = fun b =>
      match b.epFiles f with
      | some file => Q file b
      | none => E (.fileFreed f) b := by
  funext b
  simp only [getFile, wp_bind, wp_get]
  cases b.epFiles f <;> rfl

/-- The base after `ep_timer_info_del`. -/
def EpBase.unlink (b : EpBase) (i : InfoId) (info : TimerInfo) : EpBase :=
  if info.pending then
    (b.setInfo i (some { info with pending := false })).setList (b.listTimers.erase i)
  else b

/-- The base after `ep_timer_info_add`. -/
def EpBase.link (b : EpBase) (i : InfoId) (info : TimerInfo) (millsec : ℤ) : EpBase :=
  if info.pending then b
  else
    (b.setList (insertTimer b i millsec)).setInfo i
      (some { info with pending := true, timeoutMs := wrap32 (b.now + millsec) })

@[simp]
theorem wp_epTimerInfoDel (i : InfoId) {Q : Unit → EpBase → Prop} :
    wp (epTimerInfoDel i) Q E = fun b =>
      match b.infos i with
      | some info => Q () (b.unlink i info)
      | none => E (.infoFreed i) b := by
  funext b
  simp only [epTimerInfoDel, wp_bind, wp_getInfo, wp_ite, wp_modify, wp_pure, EpBase.unlink]
  cases b.infos i with
  | none => rfl
  | some info => dsimp only; split_ifs <;> rfl

@[simp]
theorem wp_epTimerInfoAdd (i : InfoId) (millsec : ℤ) {Q : Unit → EpBase → Prop} :
    wp (epTimerInfoAdd i millsec) Q E = fun b =>
      match b.infos i with
      | some info => Q () (b.link i info millsec)
      | none => E (.infoFreed i) b := by
  funext b
  simp only [epTimerInfoAdd, wp_bind, wp_getInfo, wp_ite, wp_modify, wp_pure, EpBase.link]
  cases b.infos i with
  | none => rfl
  | some info => dsimp only; split_ifs <;> rfl

/-- The loop of `ep_timer_check` is left alone. -/
structure SameLoop (b b' : EpBase) : Prop where
  checking : b'.checking = b.checking
  stale : b'.stale = b.stale

theorem SameLoop.refl (b : EpBase) : SameLoop b b := ⟨rfl, rfl⟩

theorem SameLoop.trans {b1 b2 b3 : EpBase} (h : SameLoop b1 b2) (h' : SameLoop b2 b3) :
    SameLoop b1 b3 := ⟨h'.checking.trans h.checking, h'.stale.trans h.stale⟩

/-- `ep_timer_info_del` touches a node and the list. -/
theorem unlink_frame (b : EpBase) (k : InfoId) (info : TimerInfo) :
    (b.unlink k info).timers = b.timers ∧ (b.unlink k info).epFiles = b.epFiles ∧
      (b.unlink k info).nextInfo = b.nextInfo ∧ (b.unlink k info).nextTimer = b.nextTimer ∧
      (b.unlink k info).nextFile = b.nextFile ∧ SameLoop b (b.unlink k info) := by
  unfold EpBase.unlink
  split_ifs <;> exact ⟨rfl, rfl, rfl, rfl, rfl, ⟨rfl, rfl⟩⟩

/-- The body of the loop of `ep_timer_check`. -/
theorem wp_fireInfo (ms : ℤ) (k : InfoId) (info : TimerInfo) (temp : ListPos)
    {Q : Unit → EpBase → Prop} : wp (fireInfo ms k info temp) Q E = fun b =>
      match b.infos k with
      | none => E (.infoFreed k) b
      | some node =>
        let called callback := (b.unlink k node).setChecking (some ⟨ms, callback, temp⟩)
        match info.owner with
        | .timer t => Q () (called (.timer t))
        | .file f =>
          match b.epFiles f with
          | none => E (.fileFreed f) (b.unlink k node)
          | some file => Q () (called (.file f file.fd)) := by
  funext b
  simp only [fireInfo, wp_bind, wp_epTimerInfoDel]
  cases hk : b.infos k with
  | none => rfl
  | some node =>
    cases info.owner with
    | timer t => rfl
    | file f =>
      obtain ⟨-, hfiles, -⟩ := unlink_frame b k node
      have hf : (b.unlink k node).epFiles f = b.epFiles f := congrFun hfiles f
      simp only [wp_bind, wp_getFile, wp_pure, hf]
      cases b.epFiles f <;> rfl

/-- One round of the loop, at an entry that is linked or not. -/
theorem wp_checkAt_entry (ms : ℤ) (k : InfoId) {Q : Unit → EpBase → Prop} :
    wp (checkAt ms (.entry k)) Q E = fun b =>
      match b.infos k with
      | none => E (.infoFreed k) (b.visit k)
      | some info =>
        if info.timeoutMs > ms then Q () ((b.visit k).setChecking none)
        else wp (fireInfo ms k info (nextPos b.listTimers k)) Q E (b.visit k) := by
  funext b
  simp only [checkAt, wp_bind, wp_modify, wp_getInfo, EpBase.visit_infos, wp_get, wp_ite,
    EpBase.visit_listTimers]
  cases b.infos k <;> rfl

end Wp

/-! ### The invariant -/

/-- The entries of the list are live, pending and different, and their deadlines are in order. -/
structure TimersOk (b : EpBase) : Prop where
  linked : ∀ i ∈ b.listTimers, ∃ info, b.infos i = some info ∧ info.pending = true
  nodup : b.listTimers.Nodup
  fresh : ∀ i, b.nextInfo ≤ i → b.infos i = none
  sorted : b.deadlines.Pairwise (· ≤ ·)

variable {b' : EpBase}

/-- A node that is not pending is not in the list. -/
theorem TimersOk.not_mem (h : TimersOk b) {i : InfoId} {info : TimerInfo}
    (hi : b.infos i = some info) (hp : info.pending = false) : i ∉ b.listTimers := by
  intro hmem
  obtain ⟨info', hi', hp'⟩ := h.linked i hmem
  rw [hi, Option.some.injEq] at hi'
  rw [← hi', hp] at hp'
  exact Bool.false_ne_true hp'

theorem TimersOk.not_mem_of_none (h : TimersOk b) {i : InfoId} (hi : b.infos i = none) :
    i ∉ b.listTimers := by
  intro hmem
  obtain ⟨info', hi', -⟩ := h.linked i hmem
  rw [hi] at hi'
  exact Option.some_ne_none _ hi'.symm

/-- The deadlines only depend on the nodes in the list. -/
theorem deadlines_congr {l : List InfoId} {f g : InfoId → Option TimerInfo}
    (h : ∀ j ∈ l, f j = g j) :
    l.map (fun j => ((f j).map TimerInfo.timeoutMs).getD 0) =
      l.map (fun j => ((g j).map TimerInfo.timeoutMs).getD 0) := by
  apply List.map_congr_left
  intro j hj
  rw [h j hj]

/-- What is not part of the timer list does not matter. -/
theorem TimersOk.of_eq (h : TimersOk b) (hi : b'.infos = b.infos)
    (hl : b'.listTimers = b.listTimers) (hn : b'.nextInfo = b.nextInfo) : TimersOk b' where
  linked := by rw [hl, hi]; exact h.linked
  nodup := by rw [hl]; exact h.nodup
  fresh := by rw [hn, hi]; exact h.fresh
  sorted := by
    have hd : b'.deadlines = b.deadlines := by
      unfold EpBase.deadlines EpBase.timeoutOf
      rw [hl, hi]
    rw [hd]
    exact h.sorted

/-- A change of a node outside of the list. -/
theorem TimersOk.setInfo (h : TimersOk b) {i : InfoId} (info : Option TimerInfo)
    (hi : i ∉ b.listTimers) (hn : b.nextInfo ≤ i → info = none) : TimersOk (b.setInfo i info) where
  linked := by
    intro j hj
    have hne : j ≠ i := fun he => hi (he ▸ hj)
    rw [EpBase.setInfo_infos, Function.update_of_ne hne]
    exact h.linked j hj
  nodup := h.nodup
  fresh := by
    intro j hj
    rw [EpBase.setInfo_infos, Function.update_apply]
    split_ifs with he
    · subst he
      exact hn hj
    · exact h.fresh j hj
  sorted := by
    have hd : (b.setInfo i info).deadlines = b.deadlines := by
      apply deadlines_congr
      intro j hj
      have hne : j ≠ i := fun he => hi (he ▸ hj)
      exact Function.update_of_ne hne _ _
    rw [hd]
    exact h.sorted

theorem TimersOk.addInfo_deadlines (h : TimersOk b) (owner : InfoOwner) :
    (b.addInfo owner).deadlines = b.deadlines := by
  apply deadlines_congr
  intro j hj
  have hne : j ≠ b.nextInfo := fun he => h.not_mem_of_none (h.fresh j he.ge) hj
  exact Function.update_of_ne hne _ _

/-- A new node. -/
theorem TimersOk.addInfo (h : TimersOk b) (owner : InfoOwner) : TimersOk (b.addInfo owner) where
  linked := by
    intro j hj
    have hne : j ≠ b.nextInfo := fun he => h.not_mem_of_none (h.fresh j he.ge) hj
    rw [EpBase.addInfo_infos, Function.update_of_ne hne]
    exact h.linked j hj
  nodup := h.nodup
  fresh := by
    intro j hj
    rw [EpBase.addInfo_nextInfo] at hj
    have hlt : b.nextInfo < j := hj
    rw [EpBase.addInfo_infos, Function.update_of_ne hlt.ne']
    exact h.fresh j hlt.le
  sorted := by
    rw [h.addInfo_deadlines]
    exact h.sorted

/-- A shorter list. -/
theorem TimersOk.erase (h : TimersOk b) (i : InfoId) :
    TimersOk (b.setList (b.listTimers.erase i)) where
  linked := fun j hj => h.linked j (List.mem_of_mem_erase hj)
  nodup := h.nodup.erase i
  fresh := h.fresh
  sorted := h.sorted.sublist (List.erase_sublist.map _)

/-- `ep_timer_info_del` keeps the order, and the node is out of the list afterwards. -/
theorem TimersOk.unlink (h : TimersOk b) {i : InfoId} {info : TimerInfo}
    (hi : b.infos i = some info) : TimersOk (b.unlink i info) ∧ i ∉ (b.unlink i info).listTimers := by
  unfold EpBase.unlink
  split_ifs with hp
  · have hout : i ∉ b.listTimers.erase i := h.nodup.not_mem_erase
    refine ⟨?_, hout⟩
    have h1 := (h.erase i).setInfo (some { info with pending := false }) hout ?_
    · exact h1.of_eq rfl rfl rfl
    · intro hle
      have hnone := h.fresh i hle
      rw [hi] at hnone
      exact absurd hnone (Option.some_ne_none info)
  · exact ⟨h, h.not_mem hi (Bool.not_eq_true _ ▸ hp)⟩

/-- `ep_timer_info_add` keeps the order when the timer fits. -/
theorem TimersOk.link (h : TimersOk b) {i : InfoId} {info : TimerInfo} {millsec : ℤ}
    (hi : b.infos i = some info)
    (hfits : info.pending = false → fits b.deadlines (wrap32 (b.now + millsec)) millsec = true) :
    TimersOk (b.link i info millsec) := by
  unfold EpBase.link
  split_ifs with hp
  · exact h
  · have hpf : info.pending = false := Bool.not_eq_true _ ▸ hp
    have hout := h.not_mem hi hpf
    -- the deadlines after the insertion, read off the nodes before it
    let f : InfoId → ℤ := fun j => if j = i then wrap32 (b.now + millsec) else b.timeoutOf j
    have hf : b.listTimers.map f = b.deadlines := by
      apply List.map_congr_left
      intro j hj
      have hne : j ≠ i := fun he => hout (he ▸ hj)
      exact if_neg hne
    have hfi : f i = wrap32 (b.now + millsec) := if_pos rfl
    have hperm := insertTimer_perm b i millsec
    constructor
    · intro j hj
      rw [EpBase.setInfo_infos, Function.update_apply]
      split_ifs with he
      · exact ⟨_, rfl, rfl⟩
      · have hj' : j ∈ b.listTimers := (List.mem_cons.mp (hperm.mem_iff.mp hj)).resolve_left he
        exact h.linked j hj'
    · exact hperm.nodup_iff.mpr (List.nodup_cons.mpr ⟨hout, h.nodup⟩)
    · intro j hj
      have hne : j ≠ i := by
        rintro rfl
        exact absurd (h.fresh j hj) (by rw [hi]; exact Option.some_ne_none info)
      rw [EpBase.setInfo_infos, Function.update_of_ne hne]
      exact h.fresh j hj
    · have hins := (insertTimer_sorted_iff f i millsec h.sorted hf).mpr (hfi ▸ hfits hpf)
      convert hins using 1
      apply List.map_congr_left
      intro j _
      show (((Function.update b.infos i _) j).map TimerInfo.timeoutMs).getD 0 = f j
      rw [Function.update_apply]
      by_cases he : j = i
      · rw [if_pos he, he, hfi]
        rfl
      · rw [if_neg he]
        exact (if_neg he).symm

/-! ### The functions of `ep.c` -/

/-- Both a return and a fault leave the list in order. -/
def KeepsOrder (b : EpBase) (x : EpM Unit) : Prop :=
  wp x (fun _ => TimersOk) (fun _ => TimersOk) b

/-- The node is not in the list, so that `ep_timer_info_add` will insert it. -/
def unlinked (b : EpBase) (info : Option InfoId) : Bool :=
  match info with
  | none => true
  | some i => !(b.infos i).any TimerInfo.pending

/-- The deadlines without the one of a node. -/
def deadlinesWithout (b : EpBase) (info : Option InfoId) : List ℤ :=
  match info with
  | none => b.deadlines
  | some i => (b.listTimers.erase i).map b.timeoutOf

/-- Adding a node that is there or is created for it. -/
theorem TimersOk.infoAdd (h : TimersOk b) (i : InfoId) (millsec : ℤ)
    (hfits : unlinked b (some i) = true →
      fits b.deadlines (wrap32 (b.now + millsec)) millsec = true) :
    KeepsOrder b (epTimerInfoAdd i millsec) := by
  simp only [KeepsOrder, wp_epTimerInfoAdd]
  cases hi : b.infos i with
  | none => exact h
  | some info =>
    refine h.link hi fun hp => hfits ?_
    rw [unlinked, hi, Option.any_some, hp]
    rfl

theorem TimersOk.timerAdd (h : TimersOk b) {t : TimerId} {tm : EpTimer} (millsec : ℤ)
    (ht : b.timers t = some tm)
    (hfits : unlinked b tm.info = true →
      fits b.deadlines (wrap32 (b.now + millsec)) millsec = true) :
    KeepsOrder b (epTimerAdd t millsec) := by
  simp only [KeepsOrder, epTimerAdd, wp_bind, wp_getTimer, ht]
  cases hinfo : tm.info with
  | some i =>
    rw [hinfo] at hfits
    simp only [wp_bind, wp_pure, wp_modify]
    have h1 : TimersOk (b.setTimer t (some { info := some i, pending := true })) :=
      h.of_eq rfl rfl rfl
    exact h1.infoAdd i millsec hfits
  | none =>
    rw [hinfo] at hfits
    simp only [epTimerInfoCreate, wp_bind, wp_get, wp_modify, wp_pure]
    have h1 : TimersOk ((b.addInfo (.timer t)).setTimer t
        (some { info := some b.nextInfo, pending := true })) := (h.addInfo _).of_eq rfl rfl rfl
    refine h1.infoAdd b.nextInfo millsec fun _ => ?_
    show fits (b.addInfo (.timer t)).deadlines (wrap32 (b.now + millsec)) millsec = true
    rw [h.addInfo_deadlines]
    exact hfits rfl

theorem TimersOk.dropInfo (h : TimersOk b) (info : Option InfoId) :
    KeepsOrder b (dropInfo info) := by
  cases info with
  | none => exact h
  | some i =>
    simp only [KeepsOrder, Ep.dropInfo, wp_bind, wp_epTimerInfoDel, wp_modify]
    cases hi : b.infos i with
    | none => exact h
    | some info =>
      obtain ⟨h1, hout⟩ := h.unlink hi
      exact h1.setInfo none hout fun _ => rfl

theorem TimersOk.timerDel (h : TimersOk b) (t : TimerId) : KeepsOrder b (epTimerDel t) := by
  simp only [KeepsOrder, epTimerDel, wp_bind, wp_getTimer]
  cases b.timers t with
  | none => exact h
  | some tm =>
    refine wp_mono (h.dropInfo tm.info) (fun _ b1 h1 => ?_) (fun _ _ => id)
    exact h1.of_eq rfl rfl rfl

theorem TimersOk.timerFree (h : TimersOk b) (t : TimerId) : KeepsOrder b (epTimerFree t) := by
  simp only [KeepsOrder, epTimerFree, wp_bind, wp_getTimer]
  cases b.timers t with
  | none => exact h
  | some tm =>
    refine wp_mono (h.dropInfo tm.info) (fun _ b1 h1 => ?_) (fun _ _ => id)
    exact h1.of_eq rfl rfl rfl

/-- The node of a file before it is added again: the node itself, or a new one. -/
theorem TimersOk.fileInfo (h : TimersOk b) (f : FileId) (file : File) :
    wp (fileInfo f file)
      (fun i b' => TimersOk b' ∧ b'.now = b.now ∧ b'.deadlines = b.deadlines ∧
        ((file.timerInfo = some i ∧ b' = b) ∨
          (file.timerInfo = none ∧ i ∉ b'.listTimers)))
      (fun _ _ => False) b := by
  unfold Ep.fileInfo
  cases hinfo : file.timerInfo with
  | some i => exact ⟨h, rfl, rfl, Or.inl ⟨rfl, rfl⟩⟩
  | none =>
    simp only [epTimerInfoCreate, wp_bind, wp_get, wp_modify, wp_pure]
    refine ⟨(h.addInfo _).of_eq rfl rfl rfl, rfl, h.addInfo_deadlines (.file f),
      Or.inr ⟨trivial, ?_⟩⟩
    exact h.not_mem_of_none (h.fresh _ le_rfl)

/-- The deadlines after a node has been taken out. -/
theorem TimersOk.unlink_deadlines (h : TimersOk b) {i : InfoId} {info : TimerInfo}
    (hi : b.infos i = some info) :
    (b.unlink i info).deadlines = (b.listTimers.erase i).map b.timeoutOf := by
  unfold EpBase.unlink
  split_ifs with hp
  · apply deadlines_congr
    intro j hj
    have hne : j ≠ i := fun he => h.nodup.not_mem_erase (he ▸ hj)
    exact Function.update_of_ne hne _ _
  · rw [List.erase_of_not_mem (h.not_mem hi (Bool.not_eq_true _ ▸ hp))]
    rfl

theorem unlink_now (i : InfoId) (info : TimerInfo) : (b.unlink i info).now = b.now := by
  unfold EpBase.unlink
  split_ifs <;> rfl

theorem detectFd_timers (f : FileId) (fd : Fd) (what : Mask) :
    (detectFd b f fd what).infos = b.infos ∧ (detectFd b f fd what).listTimers = b.listTimers ∧
      (detectFd b f fd what).nextInfo = b.nextInfo ∧ (detectFd b f fd what).now = b.now := by
  unfold detectFd
  dsimp only
  split_ifs <;> exact ⟨rfl, rfl, rfl, rfl⟩

/-- `ep_timer_info_del` and `ep_timer_info_add` of one node. -/
theorem TimersOk.relink (h : TimersOk b) (i : InfoId) (millsec : ℤ)
    (hfits : fits ((b.listTimers.erase i).map b.timeoutOf) (wrap32 (b.now + millsec)) millsec =
      true) :
    KeepsOrder b (do
      epTimerInfoDel i
      epTimerInfoAdd i millsec) := by
  simp only [KeepsOrder, wp_bind, wp_epTimerInfoDel]
  cases hi : b.infos i with
  | none => exact h
  | some info =>
    obtain ⟨h1, -⟩ := h.unlink hi
    refine h1.infoAdd i millsec fun _ => ?_
    rw [h.unlink_deadlines hi, unlink_now]
    exact hfits

/-- The timer of a file is armed: its node is taken out of the list and put in again. -/
theorem TimersOk.arm (h : TimersOk b) (f : FileId) (file : File) (millsec : ℤ)
    (hfits : fits (deadlinesWithout b file.timerInfo) (wrap32 (b.now + millsec)) millsec = true) :
    KeepsOrder b (do
      let i ← Ep.fileInfo f file
      epTimerInfoDel i
      epTimerInfoAdd i millsec) := by
  rw [KeepsOrder, wp_bind]
  refine wp_mono (h.fileInfo f file) ?_ (fun _ _ => False.elim)
  rintro i b1 ⟨h1, hnow, hd, hcase⟩
  apply h1.relink i millsec
  rw [hnow]
  rcases hcase with ⟨hi, rfl⟩ | ⟨hnone, hout⟩
  · rw [hi, deadlinesWithout] at hfits
    exact hfits
  · rw [hnone, deadlinesWithout, ← hd] at hfits
    rw [List.erase_of_not_mem hout]
    exact hfits

theorem TimersOk.fileDetect (h : TimersOk b) {f : FileId} {file : File} (what : Mask) (timeout : ℤ)
    (hfile : b.epFiles f = some file)
    (hfits : timeout ≥ 0 ∧ what ≠ 0 →
      fits (deadlinesWithout b file.timerInfo) (wrap32 (b.now + timeout)) timeout = true) :
    KeepsOrder b (epFileDetect f what timeout) := by
  obtain ⟨e1, e2, e3, e4⟩ := detectFd_timers (b := b) f file.fd what
  have h1 : TimersOk ((detectFd b f file.fd what).setFile f
      (some { file with timeout := timeout })) := h.of_eq e1 e2 e3
  simp only [KeepsOrder, Ep.epFileDetect, wp_bind, wp_getFile, hfile, wp_get, wp_ite, wp_pure,
    wp_modify]
  split_ifs with h0 harm
  · exact h
  · -- a timeout: the node is taken out, if it is linked, and put in anew
    have harms := h1.arm f { file with timeout := timeout } timeout
    simp only [KeepsOrder, wp_bind] at harms
    apply harms
    have hw : deadlinesWithout ((detectFd b f file.fd what).setFile f
        (some { file with timeout := timeout })) file.timerInfo =
        deadlinesWithout b file.timerInfo := by
      unfold deadlinesWithout EpBase.deadlines EpBase.timeoutOf
      rw [EpBase.setFile_infos, EpBase.setFile_listTimers, e1, e2]
    show fits (deadlinesWithout ((detectFd b f file.fd what).setFile f
      (some { file with timeout := timeout })) file.timerInfo)
        (wrap32 ((detectFd b f file.fd what).now + timeout)) timeout = true
    rw [hw, e4]
    exact hfits harm
  · -- no timeout: the node is taken out, if there is one
    revert h1
    generalize (detectFd b f file.fd what).setFile f (some { file with timeout := timeout }) = b1
    intro h1
    cases file.timerInfo with
    | none => exact h1
    | some i =>
      simp only [wp_epTimerInfoDel]
      split
      · rename_i info hi
        exact (h1.unlink hi).1
      · exact h1

/-- `ep_file_free` takes the node out before it frees it. -/
theorem TimersOk.fileFree (h : TimersOk b) {f : FileId} {file : File}
    (hfile : b.epFiles f = some file) : KeepsOrder b (epFileFree f) := by
  -- what is left is `ep_file_detect(ep, 0, -1)` for a file without a node
  have hrest : ∀ b1, TimersOk b1 → ∀ file1, b1.epFiles f = some file1 →
      wp (do
          epFileDetect f 0 (-1)
          modify (·.setFile f none))
        (fun _ => TimersOk) (fun _ => TimersOk) b1 := by
    intro b1 h1 file1 hf1
    rw [wp_bind]
    refine wp_mono (h1.fileDetect 0 (-1) hf1 fun harm => absurd rfl harm.2) (fun _ b2 h2 => ?_)
      (fun _ _ => id)
    exact h2.of_eq rfl rfl rfl
  simp only [KeepsOrder, epFileFree, wp_bind, wp_getFile, hfile] at hrest ⊢
  cases hinfo : file.timerInfo with
  | none =>
    simp only [wp_bind]
    exact hrest b h file hfile
  | some i =>
    simp only [wp_bind, wp_getInfo, wp_modify]
    cases hi : b.infos i with
    | none => exact h
    | some info =>
      refine hrest _ ?_ { file with timerInfo := none } (by simp)
      have hout : i ∉ b.listTimers.erase i := h.nodup.not_mem_erase
      split_ifs with hp
      · exact ((h.erase i).setInfo none hout fun _ => rfl).of_eq rfl rfl rfl
      · have hmem := h.not_mem hi (Bool.not_eq_true _ ▸ hp)
        exact (h.setInfo none hmem fun _ => rfl).of_eq rfl rfl rfl

/-! ### `ep_timer_check` -/

theorem TimersOk.fire (h : TimersOk b) (ms : ℤ) (k : InfoId) (info : TimerInfo) (temp : ListPos) :
    KeepsOrder b (fireInfo ms k info temp) := by
  simp only [KeepsOrder, wp_fireInfo]
  cases hk : b.infos k with
  | none => exact h
  | some node =>
    obtain ⟨h1, -⟩ := h.unlink hk
    cases info.owner with
    | timer t => exact h1.of_eq rfl rfl rfl
    | file f =>
      dsimp only
      cases b.epFiles f with
      | none => exact h1
      | some file => exact h1.of_eq rfl rfl rfl

/-- The loop stops, or it takes the entry it is at out of the list. -/
theorem TimersOk.checkAt (h : TimersOk b) (ms : ℤ) (pos : ListPos) :
    KeepsOrder b (checkAt ms pos) := by
  cases pos with
  | head => exact h.of_eq rfl rfl rfl
  | poison => exact h
  | entry k =>
    have h0 : TimersOk (b.visit k) := h.of_eq rfl rfl rfl
    simp only [KeepsOrder, wp_checkAt_entry]
    cases b.infos k with
    | none => exact h0
    | some info =>
      dsimp only
      split_ifs
      · exact h0.of_eq rfl rfl rfl
      · exact h0.fire ms k info _

theorem TimersOk.rearmFile (h : TimersOk b) (fd : Fd)
    (hfits : ∀ f file, (b.files fd).file = some f → b.epFiles f = some file → file.timeout ≥ 0 →
      unlinked b file.timerInfo = true →
      fits b.deadlines (wrap32 (b.now + file.timeout)) file.timeout = true) :
    KeepsOrder b (rearmFile fd) := by
  simp only [KeepsOrder, Ep.rearmFile, wp_bind, wp_get]
  cases hf : (b.files fd).file with
  | none => exact h
  | some f =>
    simp only [wp_bind, wp_getFile]
    cases hfile : b.epFiles f with
    | none => exact h
    | some file =>
      simp only [wp_ite, wp_bind, wp_pure]
      split_ifs with htime
      · refine wp_mono (h.fileInfo f file) ?_ (fun _ _ => False.elim)
        rintro i b1 ⟨h1, hnow, hd, hcase⟩
        refine h1.infoAdd i file.timeout fun hu => ?_
        rw [hd, hnow]
        apply hfits f file hf hfile htime
        rcases hcase with ⟨hi, rfl⟩ | ⟨hnone, hout⟩
        · rw [hi]
          exact hu
        · -- a new node is linked nowhere
          rw [hnone]
          rfl
      · exact h

/-- The callback returns, and the loop goes on. -/
theorem TimersOk.checkRet (h : TimersOk b)
    (hfits : ∀ cursor g fd f file, b.checking = some cursor → cursor.callback = .file g fd →
      (b.files fd).file = some f → b.epFiles f = some file → file.timeout ≥ 0 →
      unlinked b file.timerInfo = true →
      fits b.deadlines (wrap32 (b.now + file.timeout)) file.timeout = true) :
    KeepsOrder b epTimerCheckRet := by
  simp only [KeepsOrder, epTimerCheckRet, wp_bind, wp_get]
  cases hc : b.checking with
  | none => exact h
  | some cursor =>
    cases hcb : cursor.callback with
    | timer t =>
      simp only [hcb]
      exact h.checkAt _ _
    | file g fd =>
      simp only [hcb, wp_bind]
      have hrearm := h.rearmFile fd fun f file => hfits cursor g fd f file hc hcb
      exact wp_mono hrearm (fun _ b1 h1 => h1.checkAt _ _) (fun _ _ => id)

/-! ### Every run -/

/-- Whatever timer the step adds to the list fits into it. -/
def addsInOrder (b : EpBase) (i : EpInput) : Bool :=
  match i.act with
  | .timerAdd t millsec =>
    (b.timers t).all fun tm =>
      !unlinked b tm.info || fits b.deadlines (wrap32 (i.now + millsec)) millsec
  | .fileDetect f what timeout =>
    (b.epFiles f).all fun file =>
      !(decide (timeout ≥ 0 ∧ what ≠ 0)) ||
        fits (deadlinesWithout b file.timerInfo) (wrap32 (i.now + timeout)) timeout
  | .ret =>
    -- the callback of a file returns, and the file has a timeout
    match b.checking.map Cursor.callback with
    | some (.file _ fd) =>
      ((b.files fd).file.bind b.epFiles).all fun file =>
        !(decide (file.timeout ≥ 0) && unlinked b file.timerInfo) ||
          fits b.deadlines (wrap32 (i.now + file.timeout)) file.timeout
    | _ => true
  | _ => true

/-- One step. -/
theorem TimersOk.step (h : TimersOk b) {i : EpInput} (hG : addsInOrder b i = true) :
    KeepsOrder b (epStep i) := by
  obtain ⟨now, act⟩ := i
  have h0 : TimersOk { b with now := now } := h.of_eq rfl rfl rfl
  simp only [KeepsOrder, epStep, wp_bind, wp_modify]
  cases act with
  | timerNew => exact h.of_eq rfl rfl rfl
  | timerAdd t millsec =>
    simp only [epHandle, wp_bind, wp_get, wp_ite, wp_pure]
    split_ifs with hl
    · obtain ⟨tm, ht⟩ := Option.isSome_iff_exists.mp hl
      refine h0.timerAdd millsec ht fun hu => ?_
      have ht' : b.timers t = some tm := ht
      have hu' : unlinked b tm.info = true := hu
      simp only [addsInOrder, ht', Option.all_some, hu', Bool.not_true, Bool.false_or] at hG
      exact hG
    · exact h0
  | timerDel t =>
    simp only [epHandle, wp_bind, wp_get, wp_ite, wp_pure]
    split_ifs
    · exact h0.timerDel t
    · exact h0
  | timerFree t =>
    simp only [epHandle, wp_bind, wp_get, wp_ite, wp_pure]
    split_ifs
    · exact h0.timerFree t
    · exact h0
  | fileCreate fd => exact h.of_eq rfl rfl rfl
  | fileDetect f what timeout =>
    simp only [epHandle, wp_bind, wp_get, wp_ite, wp_pure]
    split_ifs with hl
    · obtain ⟨file, hfile⟩ := Option.isSome_iff_exists.mp hl
      refine h0.fileDetect what timeout hfile fun harm => ?_
      have hfile' : b.epFiles f = some file := hfile
      simp only [addsInOrder, hfile', Option.all_some, harm.1, harm.2, and_self, decide_true,
        Bool.not_true, Bool.false_or, ne_eq, not_false_eq_true] at hG
      exact hG
    · exact h0
  | fileFree f =>
    simp only [epHandle, wp_bind, wp_get, wp_ite, wp_pure]
    split_ifs with hl
    · obtain ⟨file, hfile⟩ := Option.isSome_iff_exists.mp hl
      exact h0.fileFree hfile
    · exact h0
  | check =>
    simp only [epHandle, wp_bind, wp_get, wp_ite, wp_pure]
    split_ifs
    · exact h0.checkAt _ _
    · exact h0
  | ret =>
    -- a descriptor whose callback has returned is armed again
    refine h0.checkRet ?_
    intro cursor g fd f file hc hcb hf hfile htime hu
    have hc' : b.checking = some cursor := hc
    have hfile' : (b.files fd).file.bind b.epFiles = some file := by
      rw [show (b.files fd).file = some f from hf]
      exact hfile
    have hu' : unlinked b file.timerInfo = true := hu
    simp only [addsInOrder, hc', Option.map_some, hcb, hfile', Option.all_some, htime, decide_true,
      hu', Bool.and_self, Bool.not_true, Bool.false_or] at hG
    exact hG

theorem timersOk_init : TimersOk .init where
  linked := by
    intro i hi
    exact absurd hi List.not_mem_nil
  nodup := List.nodup_nil
  fresh := fun _ _ => rfl
  sorted := List.Pairwise.nil

/-- `list_timers` is sorted by deadline, so its first entry has the earliest one. -/
def TimersSorted (b : EpBase) : Prop :=
  b.deadlines.Pairwise (· ≤ ·) ∧ ∀ d ∈ b.deadlines, ∀ d0 ∈ b.deadlines.head?, d0 ≤ d

instance : Decidable (TimersSorted b) := by
  unfold TimersSorted
  infer_instance

theorem TimersOk.timersSorted (h : TimersOk b) : TimersSorted b := by
  refine ⟨h.sorted, ?_⟩
  intro d hd d0 hd0
  have hs := h.sorted
  cases hl : b.deadlines with
  | nil =>
    rw [hl] at hd
    exact absurd hd List.not_mem_nil
  | cons x xs =>
    rw [hl] at hd hd0 hs
    rw [List.head?_cons, Option.mem_some] at hd0
    subst hd0
    rcases List.mem_cons.mp hd with rfl | hd
    · exact le_rfl
    · exact (List.pairwise_cons.mp hs).1 d hd

/-- **The timer list is in order** in every state of every run in which each timer that is added
fits, whatever the callbacks of `ep_timer_check` do. -/
theorem wp_run_timersSorted (is : List EpInput)
    (hG : Meets epStep (fun b i => addsInOrder b i = true) is .init) :
    wp (run epStep is) (fun _ => TimersSorted) (fun _ => TimersSorted) .init := by
  have hrun : wp (run epStep is) (fun _ => TimersOk) (fun _ => TimersOk) .init :=
    run_wp (fun b i h hG => h.step hG) is _ timersOk_init hG
  exact wp_mono hrun (fun _ _ h => h.timersSorted) (fun _ _ h => h.timersSorted)

/-- A timer of five seconds, one of one second and one of three, which all fit, and a check. -/
def fittingTimers : List EpInput :=
  [⟨1000000, .timerNew⟩, ⟨1000000, .timerNew⟩, ⟨1000000, .timerNew⟩, ⟨1000000, .timerAdd 0 5000⟩,
    ⟨1000000, .timerAdd 1 1000⟩, ⟨1000000, .timerAdd 2 3000⟩, ⟨1001500, .check⟩,
    ⟨1001500, .timerFree 1⟩, ⟨1001500, .ret⟩]

/-- With timers that fit, the list is in order in and after the callback. -/
theorem wp_run_timersSorted_fitting :
    Meets epStep (fun b i => addsInOrder b i = true) fittingTimers .init ∧
      wp (run epStep fittingTimers) (fun _ => TimersSorted) (fun _ => TimersSorted) .init :=
  ⟨by decide +kernel, wp_run_timersSorted _ (by decide +kernel)⟩

/-- The delay that a call asks for. -/
def EpAct.delay : EpAct → ℤ
  | .timerAdd _ millsec => millsec
  | .fileDetect _ _ timeout => timeout
  | _ => 0

/-- The clock does not go back, and neither it nor a delay is large enough for a deadline to wrap
around. -/
def clockOk (is : List EpInput) : Prop :=
  (is.map EpInput.now).Pairwise (· ≤ ·) ∧
    ∀ i ∈ is, 0 ≤ i.now ∧ i.now < 2 ^ 30 ∧ 0 ≤ i.act.delay ∧ i.act.delay < 2 ^ 30

/-- The condition is needed: a timer of one second and then one of five are linked in the wrong
order. -/
theorem not_timersSorted : ¬ ∀ is : List EpInput, clockOk is →
    wp (run epStep is) (fun _ => TimersSorted) (fun _ => TimersSorted) .init := by
  intro h
  have hclock : clockOk [⟨1000000, .timerNew⟩, ⟨1000000, .timerNew⟩, ⟨1000000, .timerAdd 0 1000⟩,
      ⟨1000000, .timerAdd 1 5000⟩] := by
    unfold clockOk
    decide
  have h1 := h _ hclock
  revert h1
  decide +kernel

end H2ClientProxy.Ep
