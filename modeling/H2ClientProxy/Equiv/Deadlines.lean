import H2ClientProxy.Equiv.TimerCheck

/-!
# Deadlines and the clock

`get_ms` truncates the real time to an `int`, and a deadline is an `int` too, so both wrap around every
`2 ^ 32` milliseconds.  `ep_base_dispatch` passes the time that is left until the first deadline of the
list to `epoll_wait`, where a negative number stands for no timeout at all.

* `nodes_run`: nodes and owners are paired in every state that a run reaches.
* `wp_run_fires_iff`: a lone timer is fired at the right time iff its deadline and the time of the check
  lie in the same period of the clock.
* `wp_run_timeoutOk_iff`: the timeout of an iteration is right iff the first entry of the list is the
  earliest one, and is not overdue.
* `not_fires_iff`, `not_timeoutOk`: a timer over the wrap, and one that is overdue by a millisecond.
-/

namespace H2ClientProxy.Ep

open Wp Machine Wrap32

variable {b b' : EpBase} {k : InfoId} {info : TimerInfo}

/-! ### Reachable states -/

theorem Nodes.checkAt_any (h : Nodes b) (ms : ℤ) (pos : ListPos) :
    wp (Ep.checkAt ms pos) (fun _ => Nodes) (fun _ _ => True) b := by
  cases pos with
  | head => exact h.stop
  | poison => trivial
  | entry k =>
    simp only [wp_checkAt_entry]
    cases hk : b.infos k with
    | none => trivial
    | some info =>
      dsimp only
      split_ifs
      · exact (h.visit k).stop
      · exact wp_mono ((h.visit k).fire hk ms _) (fun _ _ h' => h'.1) fun _ _ => False.elim

theorem Nodes.checkRet_any (h : Nodes b) :
    wp epTimerCheckRet (fun _ => Nodes) (fun _ _ => True) b := by
  simp only [epTimerCheckRet, wp_bind, wp_get]
  cases hc : b.checking with
  | none => exact h
  | some cursor =>
    cases hcb : cursor.callback with
    | timer t =>
      simp only [hcb]
      exact h.checkAt_any _ _
    | file f fd =>
      simp only [hcb, wp_bind]
      exact wp_mono (h.rearmFile fd) (fun _ _ h1 => h1.1.checkAt_any _ _) fun _ _ _ => trivial

/-- Every step keeps the nodes in order, also one whose loop goes on with a stale entry. -/
theorem Nodes.anyStep (h : Nodes b) (i : EpInput) :
    wp (epStep i) (fun _ => Nodes) (fun _ _ => True) b := by
  by_cases hG : cursorLinked b i = true
  · exact wp_mono (h.step hG) (fun _ _ h' => h'.nodes) fun _ _ _ => trivial
  · obtain ⟨now, act⟩ := i
    cases act with
    | ret =>
      have h0 : Nodes { b with now := now } :=
        h.of_eq rfl rfl rfl (pointsTo_congr rfl rfl) h.freshTimer h.freshFile
      simp only [epStep, epHandle, wp_bind, wp_modify]
      exact h0.checkRet_any
    | _ => exact absurd rfl hG

/-- Nodes and owners are paired in every state that a run reaches. -/
theorem nodes_run (is : List EpInput) :
    wp (run epStep is) (fun _ => Nodes) (fun _ _ => True) .init := by
  have hstep : ∀ b i, Nodes b → True → wp (epStep i) (fun _ => Nodes) (fun _ _ => True) b :=
    fun _ i h _ => h.anyStep i
  exact run_wp hstep is _ nodes_init (meets_true is _)

/-! ### A lone timer -/

/-- A node that is linked into an empty list is alone in it. -/
theorem link_alone (hl : b.listTimers = []) (hp : info.pending = false) (millsec : ℤ) :
    b.link k info millsec = (b.setList [k]).setInfo k
      (some { info with pending := true, timeoutMs := wrap32 (b.now + millsec) }) := by
  have hins : insertTimer b k millsec = [k] := by
    rw [insertTimer, EpBase.deadlines, hl]
    rfl
  rw [EpBase.link, if_neg (by rw [hp]; exact Bool.false_ne_true), hins]

/-- The callback of the timer `tm` has begun. -/
def firing (b : EpBase) (tm : TimerId) : Prop :=
  b.checking.map Cursor.callback = some (.timer tm)

instance (b : EpBase) (tm : TimerId) : Decidable (firing b tm) :=
  inferInstanceAs (Decidable (b.checking.map Cursor.callback = some (.timer tm)))

/-- The loop fires the timer it is at iff its deadline does not exceed the time. -/
theorem checkAt_fires_iff {tm : TimerId} (hk : b.infos k = some info)
    (ho : info.owner = .timer tm) (ms : ℤ) :
    wp (checkAt ms (.entry k)) (fun _ b' => firing b' tm ↔ info.timeoutMs ≤ ms) (fun _ _ => False)
      b := by
  simp only [wp_checkAt_entry, wp_fireInfo, EpBase.visit_infos, hk, ho]
  split_ifs with hms
  · constructor
    · exact fun hf => absurd hf.symm (Option.some_ne_none _)
    · exact fun hle => absurd hle (not_le.mpr hms)
  · exact ⟨fun _ => not_lt.mp hms, fun _ => rfl⟩

/-- `ep_timer_add` for a timer while nothing is linked. -/
theorem Nodes.add_alone {tm : TimerId} (h : Nodes b) (hl : b.listTimers = [])
    (hlive : (b.timers tm).isSome = true) (millsec : ℤ) :
    wp (epTimerAdd tm millsec) (fun _ b' => b'.checking = b.checking ∧ ∃ k info,
        b'.listTimers = [k] ∧ b'.infos k = some info ∧ info.owner = .timer tm ∧
          info.pending = true ∧ info.timeoutMs = wrap32 (b.now + millsec))
      (fun _ _ => False) b := by
  obtain ⟨x, hx⟩ := Option.isSome_iff_exists.mp hlive
  simp only [epTimerAdd, wp_bind, wp_getTimer, hx]
  cases hinfo : x.info with
  | some k =>
    obtain ⟨info, hk, ho⟩ := h.node (.timer tm) k (by rw [pointsTo, hx, Option.bind_some, hinfo])
    -- the node of the timer is not linked, as none is
    have hp : info.pending = false := by
      by_contra hp
      have hmem := (h.linked k).mpr ⟨info, hk, Bool.not_eq_false _ ▸ hp⟩
      rw [hl] at hmem
      exact List.not_mem_nil hmem
    simp only [wp_bind, wp_pure, wp_modify, wp_epTimerInfoAdd, EpBase.setTimer_infos, hk]
    rw [link_alone (b := b.setTimer tm _) hl hp]
    exact ⟨rfl, k, _, rfl, Function.update_self .., ho, rfl, rfl⟩
  | none =>
    have hnew : (b.addInfo (.timer tm)).infos b.nextInfo = some { owner := .timer tm } :=
      Function.update_self ..
    simp only [epTimerInfoCreate, wp_bind, wp_get, wp_pure, wp_modify, wp_epTimerInfoAdd,
      EpBase.setTimer_infos, hnew]
    rw [link_alone (b := (b.addInfo (.timer tm)).setTimer tm _) hl rfl]
    exact ⟨rfl, b.nextInfo, _, rfl, Function.update_self .., rfl, rfl, rfl⟩

/-- The timer `tm` is armed at the real time `t` with the delay `d`, and the timers are checked at the
real time `t'`. -/
def armAndCheck (tm : TimerId) (t d t' : ℤ) : List EpInput :=
  [⟨wrap32 t, .timerAdd tm d⟩, ⟨wrap32 t', .check⟩]

/-- Nothing is linked, no callback is running, and the timer `tm` exists. -/
def alone (b : EpBase) (tm : TimerId) : Bool :=
  b.listTimers.isEmpty && b.checking.isNone && (b.timers tm).isSome

theorem Nodes.armAndCheck {tm : TimerId} (h : Nodes b) (ha : alone b tm = true) (t d t' : ℤ) :
    wp (run epStep (armAndCheck tm t d t')) (fun _ b' => firing b' tm ↔ wrap32 (t + d) ≤ wrap32 t')
      (fun _ _ => False) b := by
  unfold alone at ha
  rw [Bool.and_eq_true, Bool.and_eq_true, List.isEmpty_iff, Option.isNone_iff_eq_none] at ha
  obtain ⟨⟨hl, hc⟩, hlive⟩ := ha
  have h0 : Nodes { b with now := wrap32 t } :=
    h.of_eq rfl rfl rfl (pointsTo_congr rfl rfl) h.freshTimer h.freshFile
  rw [Ep.armAndCheck, run, run, run]
  simp only [wp_bind, wp_pure, epStep, epHandle, wp_modify, wp_get, wp_ite]
  rw [if_pos hlive]
  refine wp_mono (h0.add_alone hl hlive d) ?_ fun _ _ => id
  rintro _ b1 ⟨hc1, k, info, hl1, hk, ho, hp, htimeout⟩
  have hc2 : b1.checking = none := hc1.trans hc
  rw [if_pos (by rw [hc2]; rfl)]
  simp only [epTimerCheck, wp_bind, wp_get]
  rw [show b1.listTimers.head? = some k by rw [hl1]; rfl]
  refine wp_mono (checkAt_fires_iff (b := { b1 with now := wrap32 t' }) hk ho (wrap32 t')) ?_
    fun _ _ => id
  intro _ b2 hfire
  rw [hfire, htimeout]
  show wrap32 (wrap32 t + d) ≤ _ ↔ _
  rw [wrap32_wrap32_add]

/-- **A lone timer is fired by a check exactly from its deadline on, iff the deadline and the time of
the check lie in the same period of the clock**, whatever has happened before. -/
theorem wp_run_fires_iff (is : List EpInput) (tm : TimerId) (t d t' : ℤ) (hd : 0 ≤ d)
    (hd' : d < 2 ^ 31) (ht : t ≤ t') (ht' : t' - t < 2 ^ 31) :
    wp (run epStep is)
      (fun _ b => alone b tm = true → wp (run epStep (armAndCheck tm t d t'))
        (fun _ b' => (firing b' tm ↔ t + d ≤ t') ↔ period (t + d) = period t') (fun _ _ => False) b)
      (fun _ _ => True) .init := by
  refine wp_mono (nodes_run is) (fun _ b h ha => ?_) fun _ _ => id
  refine wp_mono (h.armAndCheck ha t d t') (fun _ b' hfire => ?_) fun _ _ => id
  rw [hfire]
  exact wrap32_le_iff (by omega) (by omega)

/-- A timer of one second in the year 2025. -/
theorem wp_run_fires_iff_second :
    wp (run epStep [⟨0, .timerNew⟩])
      (fun _ b => alone b 0 = true →
        wp (run epStep (armAndCheck 0 1750000000000 1000 1750000001000))
          (fun _ b' => (firing b' 0 ↔ (1750000000000 : ℤ) + 1000 ≤ 1750000001000) ↔
            period (1750000000000 + 1000) = period 1750000001000) (fun _ _ => False) b)
      (fun _ _ => True) .init :=
  wp_run_fires_iff _ 0 1750000000000 1000 1750000001000 (by decide) (by decide) (by decide)
    (by decide)

/-- In general a timer is not fired at its deadline: one that is armed half a second before the clock
wraps around is fired at once, half a second too early. -/
theorem not_fires_iff : ¬ ∀ (is : List EpInput) (tm : TimerId) (t d t' : ℤ), 0 ≤ d → d < 2 ^ 31 →
    t ≤ t' → t' - t < 2 ^ 31 →
    wp (run epStep is)
      (fun _ b => alone b tm = true → wp (run epStep (armAndCheck tm t d t'))
        (fun _ b' => firing b' tm ↔ t + d ≤ t') (fun _ _ => False) b)
      (fun _ _ => True) .init := by
  intro h
  have h1 := h [⟨0, .timerNew⟩] 0 2147483148 1000 2147483148 (by decide) (by decide) (by decide)
    (by decide)
  revert h1
  decide +kernel

/-! ### The timeout of an iteration -/

/-- What is claimed of the timeout that is passed to `epoll_wait`: it is not negative and does not
exceed the time left to the deadline of any pending timer (`0` for one that is due), and it stands for
no limit only when no timer is pending. -/
structure TimeoutOk (b : EpBase) : Prop where
  bounds : ∀ k info, b.infos k = some info → info.pending = true →
    0 ≤ dispatchTimeout b ∧ dispatchTimeout b ≤ max 0 (info.timeoutMs - b.now)
  blocks : dispatchTimeout b < 0 → ∀ k info, b.infos k = some info → info.pending = false

/-- The first entry of the list is due just now, or it is due later, less than half a period of the
clock from now, and is the earliest one. -/
def firstInTime (b : EpBase) : Bool :=
  match b.deadlines with
  | [] => true
  | d0 :: ds =>
    d0 = b.now || (b.now < d0 && d0 - b.now < 2 ^ 31 && ds.all fun d => d0 ≤ d)

theorem Nodes.mem_deadlines (h : Nodes b) {d : ℤ} :
    d ∈ b.deadlines ↔ ∃ k info, b.infos k = some info ∧ info.pending = true ∧ info.timeoutMs = d := by
  unfold EpBase.deadlines EpBase.timeoutOf
  rw [List.mem_map]
  constructor
  · rintro ⟨k, hk, hd⟩
    obtain ⟨info, hi, hp⟩ := (h.linked k).mp hk
    rw [hi] at hd
    exact ⟨k, info, hi, hp, hd⟩
  · rintro ⟨k, info, hi, hp, rfl⟩
    refine ⟨k, (h.linked k).mpr ⟨info, hi, hp⟩, ?_⟩
    rw [hi]
    rfl

/-- The timeout when the first deadline of the list is `d0`. -/
theorem dispatchTimeout_cons {d0 : ℤ} {ds : List ℤ} (hd : b.deadlines = d0 :: ds) :
    dispatchTimeout b = if wrap32 (d0 - b.now) < 0 then -1 else wrap32 (d0 - b.now) := by
  unfold EpBase.deadlines at hd
  obtain ⟨k, ks, hl, hk, -⟩ := List.map_eq_cons_iff.mp hd
  have hnext : epTimerGetNext b = wrap32 (d0 - b.now) := by
    rw [epTimerGetNext, hl]
    show wrap32 (b.timeoutOf k - b.now) = wrap32 (d0 - b.now)
    rw [hk]
  unfold dispatchTimeout
  rw [hnext]

/-- The timeout is right iff the first entry is in time. -/
theorem Nodes.timeoutOk_iff (h : Nodes b) (hnow : IsInt b.now) :
    TimeoutOk b ↔ firstInTime b = true := by
  unfold firstInTime
  cases hds : b.deadlines with
  | nil =>
    have hno : ∀ k info, b.infos k = some info → info.pending = false := by
      intro k info hi
      by_contra hp
      have hmem := h.mem_deadlines.mpr ⟨k, info, hi, Bool.not_eq_false _ ▸ hp, rfl⟩
      rw [hds] at hmem
      exact List.not_mem_nil hmem
    refine ⟨fun _ => rfl, fun _ => ⟨fun k info hi hp => ?_, fun _ => hno⟩⟩
    rw [hno k info hi] at hp
    exact absurd hp Bool.false_ne_true
  | cons d0 ds =>
    have hmem : ∀ d ∈ d0 :: ds, ∃ k info, b.infos k = some info ∧ info.pending = true ∧
        info.timeoutMs = d := fun d hd => h.mem_deadlines.mp (hds ▸ hd)
    have hof : ∀ k info, b.infos k = some info → info.pending = true →
        info.timeoutMs = d0 ∨ info.timeoutMs ∈ ds := by
      intro k info hi hp
      have hd := h.mem_deadlines.mpr ⟨k, info, hi, hp, rfl⟩
      rw [hds] at hd
      exact List.mem_cons.mp hd
    obtain ⟨k0, info0, hi0, hp0, ht0⟩ := hmem d0 List.mem_cons_self
    have hint := h.isInt k0 info0 hi0
    rw [ht0] at hint
    have hw := wrap32_eq (d0 - b.now)
    have htau := dispatchTimeout_cons hds
    unfold IsInt at hint hnow
    unfold period at hw
    rw [Bool.or_eq_true, Bool.and_eq_true, Bool.and_eq_true, List.all_eq_true]
    simp only [decide_eq_true_eq]
    constructor
    · intro hok
      obtain ⟨hlow, hhigh⟩ := hok.bounds k0 info0 hi0 hp0
      rw [ht0, htau] at hhigh
      rw [htau] at hlow
      split_ifs at hlow hhigh
      · omega
      · by_cases he : d0 = b.now
        · exact Or.inl he
        · refine Or.inr ⟨⟨by omega, by omega⟩, fun d hd => ?_⟩
          -- another pending timer is not due before the first one
          obtain ⟨k, info, hi, hp, ht⟩ := hmem d (List.mem_cons_of_mem _ hd)
          obtain ⟨-, hle⟩ := hok.bounds k info hi hp
          rw [ht, htau] at hle
          split_ifs at hle
          omega
    · intro hfirst
      have hval : 0 ≤ dispatchTimeout b ∧ dispatchTimeout b = d0 - b.now := by
        rw [htau]
        split_ifs <;> omega
      refine ⟨fun k info hi hp => ⟨hval.1, ?_⟩, fun hneg => absurd hval.1 (not_le.mpr hneg)⟩
      rw [hval.2]
      rcases hof k info hi hp with he | hd
      · omega
      · rcases hfirst with he | ⟨-, hall⟩
        · omega
        · have hle := hall _ hd
          omega

/-- **The timeout of an iteration of `ep_base_dispatch` is right iff the first entry of the list is in
time**, in every state that a run reaches and whatever time has passed since. -/
theorem wp_run_timeoutOk_iff (is : List EpInput) (now : ℤ) :
    wp (run epStep is)
      (fun _ b => TimeoutOk { b with now := wrap32 now } ↔
        firstInTime { b with now := wrap32 now } = true)
      (fun _ _ => True) .init := by
  refine wp_mono (nodes_run is) (fun _ b h => ?_) fun _ _ => id
  have h0 : Nodes { b with now := wrap32 now } :=
    h.of_eq rfl rfl rfl (pointsTo_congr rfl rfl) h.freshTimer h.freshFile
  exact h0.timeoutOk_iff (isInt_wrap32 now)

/-- In general the timeout is not right: a timer that is overdue by one millisecond makes the loop block
without limit. -/
theorem not_timeoutOk : ¬ ∀ (is : List EpInput) (now : ℤ),
    wp (run epStep is) (fun _ b => TimeoutOk { b with now := wrap32 now }) (fun _ _ => True)
      .init := by
  intro h
  have h1 := h [⟨1000000, .timerNew⟩, ⟨1000000, .timerAdd 0 1000⟩] 1001001
  have h2 : ¬ wp (run epStep [⟨1000000, .timerNew⟩, ⟨1000000, .timerAdd 0 1000⟩])
      (fun _ b => (b.infos 0).all fun info =>
        !info.pending || 0 ≤ dispatchTimeout { b with now := wrap32 1001001 })
      (fun _ _ => True) .init := by
    decide +kernel
  refine h2 (wp_mono h1 (fun _ b hb => ?_) fun _ _ => id)
  rw [Option.all_eq_true]
  intro info hi
  cases hp : info.pending with
  | false => rfl
  | true => exact decide_eq_true (hb.bounds 0 info hi hp).1

end H2ClientProxy.Ep
