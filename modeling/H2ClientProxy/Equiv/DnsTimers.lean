import H2ClientProxy.Equiv.DnsStep

/-!
# When the queries are retried

A query is sent again, and given up at last, by its timer, so the timer of every query in `s_hash` has
to be armed.  `ep_timer_check` unlinks a timer that fires and leaves its flag set; so when
`dns_real_req_start` asks `ep_timer_pending`, the answer is yes, and the timer is not added again.

* `Linked`: the timers of the queries are linked.
* `wp_run_armed`: they are, until the first of them fires.
* `not_armed`: from then on its query is pending for ever.
-/

namespace H2ClientProxy.Dns

open Wp Machine Ep

variable {d d' : Resolver}

/-- Every query in `s_hash` has a timer, and the node of this timer is in `list_timers`. -/
def Armed (d : Resolver) : Prop :=
  ∀ k, ∀ R ∈ d.sHash k, ∃ real t tm i, d.realReqs R = some real ∧ real.timer = some t ∧
    d.ep.timers t = some tm ∧ tm.info = some i ∧ i ∈ d.ep.listTimers

/-- The step fires the timer of a query. -/
def firesRetry (d : Resolver) : DnsEvent → Bool
  | .timer t =>
    match d.control, linkedNode d.ep t, d.timerArgs t with
    | .idle, some _, some (.realReq _) => true
    | _, _, _ => false
  | _ => false

/-- The timers of the queries say that they are pending, and they are linked. -/
def Linked (d : Resolver) : Prop :=
  ∀ R real, d.realReqs R = some real → ∃ t, real.timer = some t ∧ view d.ep t = some ⟨true, true⟩

theorem Linked.armed (h : Linked d) (hs : Sound d) : Armed d := by
  intro k R hR
  obtain ⟨real, hreal⟩ := hs.tables.live k R hR
  obtain ⟨t, ht, hv⟩ := h R real hreal
  obtain ⟨tm, i, htm, hi, hmem⟩ := hs.ep.mem_listTimers hv
  exact ⟨real, t, tm, i, hreal, ht, htm, hi, hmem⟩

/-- Queries may go, and the timers of those that stay are not touched. -/
theorem Linked.frame (h : Linked d) (hs : Sound d)
    (hreal : ∀ R x, d'.realReqs R = some x → ∃ y, d.realReqs R = some y ∧ x.timer = y.timer)
    (hview : ∀ t R, d'.realReqs R ≠ none → d.timerArgs t = some (.realReq R) →
      view d.ep t = some ⟨true, true⟩ → view d'.ep t = some ⟨true, true⟩) : Linked d' := by
  intro R x hx
  obtain ⟨y, hy, htimer⟩ := hreal R x hx
  obtain ⟨t, ht, hv⟩ := h R y hy
  obtain ⟨t', l, ht', hargs, -⟩ := hs.timer R y hy
  obtain rfl : t' = t := Option.some.inj (ht'.symm.trans ht)
  refine ⟨t', htimer.trans ht, hview t' R ?_ hargs hv⟩
  rw [hx]
  exact Option.some_ne_none x

/-- One entry of the table of queries is replaced by one with the same timer. -/
theorem update_real {R : RealId} {real real' : RealReq} (hR : d.realReqs R = some real)
    (htimer : real'.timer = real.timer) (R1 : RealId) (x : RealReq)
    (hx : Function.update d.realReqs R (some real') R1 = some x) :
    ∃ y, d.realReqs R1 = some y ∧ x.timer = y.timer := by
  rw [Function.update_apply] at hx
  split_ifs at hx with he
  · rw [← Option.some.inj hx, he]
    exact ⟨real, hR, htimer⟩
  · exact ⟨x, hx, rfl⟩

theorem Linked.joined (h : Linked d) (hs : Sound d) {R : RealId} {real : RealReq}
    (hR : d.realReqs R = some real) : Linked (d.joined R real) :=
  h.frame hs (update_real hR rfl) fun _ _ _ _ hv => hv

theorem Linked.detached (h : Linked d) (hs : Sound d) {r : ReqId} {R : RealId} {real : RealReq}
    (hR : d.realReqs R = some real) : Linked (d.detached r R real) :=
  h.frame hs (update_real hR rfl) fun _ _ _ _ hv => hv

/-- A new query is armed. -/
theorem Linked.started (h : Linked d) {host : Bytes} {b : EpBase} {t : TimerId}
    (ht : view d.ep t = none)
    (hb : Views b (Function.update (view d.ep) t (some ⟨true, true⟩))) :
    Linked (d.started host b t) := by
  intro R x hx
  have hx : Function.update d.realReqs d.nextReal
    (some { host := host, timer := some t }) R = some x := hx
  rw [Function.update_apply] at hx
  split_ifs at hx
  · refine ⟨t, (Option.some.inj hx) ▸ rfl, ?_⟩
    show view b t = _
    rw [hb.eq, Function.update_self]
  · obtain ⟨t1, ht1, hv⟩ := h R x hx
    exact ⟨t1, ht1, view_of_new ht hb hv⟩

theorem Linked.answerTo (h : Linked d) (hs : Sound d) {R : RealId} {answer : Answer}
    {pos : Option ReqId} (hto : AnswerTo d R answer pos d') : Linked d' := by
  cases hto with
  | call => exact h
  | @finish real b t hreal ht hb _ =>
    obtain ⟨t', l, ht', hargs, -⟩ := hs.timer R real hreal
    obtain rfl : t' = t := Option.some.inj (ht'.symm.trans ht)
    obtain ⟨table, hcached⟩ := d.cached_eq real.host answer
    unfold Resolver.finished
    rw [hcached]
    -- the query is gone, and the timers of the others are different
    have hgone : ∀ R1 x, Function.update d.realReqs R none R1 = some x →
        R1 ≠ R ∧ d.realReqs R1 = some x := by
      intro R1 x hx
      rw [Function.update_apply] at hx
      split_ifs at hx with he
      exact ⟨he, hx⟩
    refine h.frame hs (fun R1 x hx => ⟨x, (hgone R1 x hx).2, rfl⟩) fun t1 R1 hlive ht1 hv => ?_
    obtain ⟨x, hx⟩ := Option.ne_none_iff_exists'.mp hlive
    refine view_of_freed hb hargs ht1 ?_ hv
    exact fun he => (hgone R1 x hx).1 (TimerArgs.realReq.inj he)

/-- **A step that does not fire the timer of a query keeps all of them linked.** -/
theorem Linked.trans (h : Linked d) (hs : Sound d) {e : DnsEvent} (hfires : firesRetry d e = false)
    (ht : DnsTrans d e d') : Linked d' := by
  cases ht with
  | skip => exact h
  | resolvedNow host text result ht hb =>
    exact h.frame hs (fun R x hx => ⟨x, hx, rfl⟩) fun _ _ _ _ hv => view_of_new ht hb hv
  | joined _ hreal => exact h.joined hs hreal
  | @queried host b t hcache hfind ht hb =>
    have hself : (d.started (cstr host) b t).realReqs d.nextReal =
        some { host := cstr host, timer := some t } := Function.update_self ..
    exact (h.started ht hb).joined (hs.started hcache hfind ht hb) hself
  | cancelled _ _ hreal => exact h.detached hs hreal
  | returned _ hreq hlist hreal hto =>
    exact (h.detached hs hreal).answerTo (hs.detached hreq hlist hreal) hto
  | returnedNow _ _ _ ht hb =>
    refine h.frame hs (fun R x hx => ⟨x, hx, rfl⟩) fun t1 R1 _ ht1 hv => ?_
    exact view_of_freed hb ht ht1 TimerArgs.noConfusion hv
  | responded _ _ _ hto => exact h.answerTo hs hto
  | retried hidle hlinked hargs =>
    simp only [firesRetry, hidle, hlinked, hargs] at hfires
    exact absurd hfires.symm Bool.false_ne_true
  | timedOut hidle hlinked hargs =>
    simp only [firesRetry, hidle, hlinked, hargs] at hfires
    exact absurd hfires.symm Bool.false_ne_true
  | @calledNow t i r req b answer _ _ hargs _ hb =>
    refine h.frame hs (fun R x hx => ⟨x, hx, rfl⟩) fun t1 R1 _ ht1 hv => ?_
    have hne : t1 ≠ t := by
      rintro rfl
      rw [hargs, Option.some.injEq] at ht1
      exact TimerArgs.noConfusion ht1
    show view b t1 = _
    rw [hb.eq, Function.update_of_ne hne]
    exact hv

/-- **Armed until the first timeout.**  In every run in which no timer of a query has fired yet, every
query in `s_hash` has its timer in `list_timers`, in every state. -/
theorem wp_run_armed (es : List DnsEvent)
    (hes : Meets dnsStep (fun d e => firesRetry d e = false) es .init) :
    wp (run dnsStep es) (fun _ => Armed) (fun _ _ => True) .init := by
  have hlinked : Linked .init := fun _ _ hR => absurd hR.symm (Option.some_ne_none _)
  have hrun : wp (run dnsStep es) (fun _ d => Sound d ∧ Linked d) (fun _ _ => True) .init := by
    refine run_wp (fun d e h hfires => ?_) es _ ⟨sound_init, hlinked⟩ hes
    exact wp_mono (step_spec h.1 e) (fun _ _ ht => ⟨h.1.trans ht, h.2.trans h.1 hfires ht⟩)
      (fun _ _ _ => trivial)
  exact wp_mono hrun (fun _ _ h => h.2.armed h.1) (fun _ _ => id)

/-- A query that is answered leaves the other one armed. -/
theorem wp_run_armed_answered :
    Meets dnsStep (fun d e => firesRetry d e = false)
      [.resolve (bytes "a"), .resolve (bytes "b"), .response (bytes "a") [⟨1, bytes "1.2.3.4", []⟩] 0,
        .ret] .init ∧
    wp (run dnsStep
      [.resolve (bytes "a"), .resolve (bytes "b"), .response (bytes "a") [⟨1, bytes "1.2.3.4", []⟩] 0,
        .ret]) (fun _ => Armed) (fun _ _ => True) .init :=
  ⟨by decide +kernel, wp_run_armed _ (by decide +kernel)⟩

/-- When the first answer to a query is lost, its timer fires once, and then no timer is left, while
the query is still in `s_hash`. -/
theorem not_armed : ¬ ∀ es, wp (run dnsStep es) (fun _ => Armed) (fun _ _ => True) .init := by
  intro h
  have hrun : wp (run dnsStep [.resolve (bytes "a"), .timer 0])
      (fun _ d => 0 ∈ d.sHash 97 ∧ d.ep.listTimers = []) (fun _ _ => False) .init := by
    decide +kernel
  obtain ⟨-, d, harmed, hin, hnil⟩ :=
    exists_of_wp (wp_mono (wp_and (h _) hrun) (fun _ _ => id) (fun _ _ hE => hE.2))
  obtain ⟨real, t, tm, i, -, -, -, -, hmem⟩ := harmed 97 0 hin
  rw [hnil] at hmem
  exact List.not_mem_nil hmem

end H2ClientProxy.Dns
