import H2ClientProxy.Equiv.DnsStep

/-!
# When a request can be cancelled

`dns_cancel` unlinks the list node of the request, whether the request has one or not, and looks for
its query in `real_req`, which is never set.

* `CancelOk`: what `dns_cancel` should do: unlink what is linked, touch no other request, take the
  query down with its last waiter, and keep the callback from being called later.
* `Gone`: what keeps the callback of a freed request from being called.
* `wp_run_cancelOk_iff`: `dns_cancel` does what it should exactly for a request that waits together
  with another one, and that is not the next one of a loop that is calling back.
-/

namespace H2ClientProxy.Dns

open Wp Machine Ep

variable {d d' : Resolver} {r : ReqId}

/-! ### What a cancellation should do -/

/-- The callback of `r` has not been called. -/
def neverCalled (r : ReqId) (d : Resolver) : Prop := ∀ o ∈ d.trace, isCall r o = false

instance (r : ReqId) (d : Resolver) : Decidable (neverCalled r d) :=
  inferInstanceAs (Decidable (∀ o ∈ d.trace, isCall r o = false))

/-- A request that has not been freed, and whose callback has not been called. -/
def Outstanding (d : Resolver) (r : ReqId) : Prop := d.reqs r ≠ none ∧ neverCalled r d

instance (d : Resolver) (r : ReqId) : Decidable (Outstanding d r) :=
  inferInstanceAs (Decidable (d.reqs r ≠ none ∧ neverCalled r d))

/-- The state after a cancellation of `r` as it should be. -/
structure Cancelled (d : Resolver) (r : ReqId) (d' : Resolver) : Prop where
  freed : d'.reqs r = none
  /-- The other requests are as before, -/
  others : ∀ r', r' ≠ r → d'.reqs r' = d.reqs r'
  /-- the other waiters keep their places, -/
  waiters : ∀ R real, d.realReqs R = some real → real.listReqs ≠ [r] →
    d'.realReqs R = some { real with listReqs := real.listReqs.erase r }
  /-- the timers of the other requests and of their queries are not touched, -/
  args : d'.timerArgs = d.timerArgs
  timers : ∀ t, d.timerArgs t ≠ some (.rightnow r) →
    (∀ R real, d.realReqs R = some real → real.listReqs = [r] → real.timer ≠ some t) →
    view d'.ep t = view d.ep t
  /-- and a callback that is running goes on as before. -/
  control : d'.control = d.control
  /-- The last waiter takes its query and the timer of it with it. -/
  last : ∀ R real, d.realReqs R = some real → real.listReqs = [r] →
    d'.realReqs R = none ∧ (∀ k, R ∉ d'.sHash k) ∧ ∀ t, real.timer = some t → d'.ep.timers t = none

/-- `dns_cancel` does not go wrong, does what it should, and the callback is never called, nor used
after it is freed, in any run that follows. -/
def CancelOk (d : Resolver) (r : ReqId) : Prop :=
  wp (dnsCancel r)
    (fun _ d' => Cancelled d r d' ∧ ∀ es, wp (run dnsStep es) (fun _ => neverCalled r)
      (fun f d'' => f ≠ .reqFreed r ∧ neverCalled r d'') d')
    (fun _ _ => False) d

/-- The loop that is waiting for a callback will go on with `r`. -/
def isNext (d : Resolver) (r : ReqId) : Bool :=
  match d.control with
  | .answering _ pos (some n) _ => decide (n = r) && (d.reqs pos).isSome
  | _ => false

/-- The request waits for a query that has another waiter, and no loop will go on with it. -/
def cancelSafe (d : Resolver) (r : ReqId) : Bool :=
  match (d.reqs r).bind DnsReq.list with
  | none => false
  | some R =>
    match d.realReqs R with
    | none => false
    | some real => decide (real.listReqs ≠ [r]) && !isNext d r

/-! ### Freed requests -/

/-- Nothing will call the callback of `r`: it is freed, no timer is for it, and no loop is at it or
will go on with it, unless the loop has to use a freed request before. -/
structure Gone (r : ReqId) (d : Resolver) : Prop where
  freed : d.reqs r = none
  old : r < d.nextReq
  args : ∀ t, d.timerArgs t ≠ some (.rightnow r)
  silent : neverCalled r d
  loop : ∀ R pos n answer, d.control = .answering R pos n answer →
    pos ≠ r ∧ (n = some r → d.reqs pos = none)
  now : d.control ≠ .rightnow r

/-- The entry after another one is in the list. -/
theorem mem_of_nextOf {l : List ReqId} {a : ReqId} (h : nextOf l a = some r) : r ∈ l := by
  have htail : r ∈ (l.dropWhile (· ≠ a)).tail := List.mem_of_head? h
  exact (List.dropWhile_sublist _).mem (List.mem_of_mem_tail htail)

theorem neverCalled.log (h : neverCalled r d) {o : DnsObs} (ho : isCall r o = false) :
    neverCalled r (d.log o) := by
  intro o' ho'
  rcases List.mem_append.mp ho' with ho' | ho'
  · exact h o' ho'
  · rw [List.mem_singleton.mp ho']
    exact ho

/-- A freed request waits nowhere. -/
theorem Gone.not_mem (h : Gone r d) (hs : Sound d) {R : RealId} {real : RealReq}
    (hR : d.realReqs R = some real) : r ∉ real.listReqs := by
  intro hmem
  obtain ⟨req, hreq, -⟩ := hs.listed R real hR r hmem
  rw [h.freed] at hreq
  exact Option.some_ne_none req hreq.symm

/-- A step that leaves the callback as it is, and makes or frees requests. -/
theorem Gone.frame (h : Gone r d) (hs : Sound d) (hcontrol : d'.control = d.control)
    (hnext : d.nextReq ≤ d'.nextReq)
    (hreqs : ∀ r', r' < d.nextReq → d.reqs r' = none → d'.reqs r' = none)
    (hargs : ∀ t, d'.timerArgs t ≠ some (.rightnow r)) (hsilent : neverCalled r d') : Gone r d' where
  freed := hreqs r h.old h.freed
  old := Nat.lt_of_lt_of_le h.old hnext
  args := hargs
  silent := hsilent
  loop := by
    intro R pos n answer hc
    rw [hcontrol] at hc
    obtain ⟨hne, hn⟩ := h.loop R pos n answer hc
    have hok := hs.control
    rw [ControlOk, hc] at hok
    exact ⟨hne, fun hnr => hreqs pos hok.pos_lt (hn hnr)⟩
  now := hcontrol ▸ h.now

theorem Gone.joined (h : Gone r d) (hs : Sound d) (R : RealId) (real : RealReq) :
    Gone r (d.joined R real) := by
  refine h.frame hs rfl (Nat.le_succ _) (fun r' hlt hr' => ?_) h.args (h.silent.log rfl)
  show Function.update d.reqs d.nextReq _ r' = none
  rw [Function.update_of_ne (Nat.ne_of_lt hlt)]
  exact hr'

theorem Gone.detached (h : Gone r d) (hs : Sound d) (r' : ReqId) (R : RealId) (real : RealReq) :
    Gone r (d.detached r' R real) := by
  refine h.frame hs rfl (Nat.le_refl _) (fun r1 _ hr1 => ?_) h.args h.silent
  show Function.update d.reqs r' none r1 = none
  rw [Function.update_apply]
  split_ifs
  · rfl
  · exact hr1

theorem Gone.started (h : Gone r d) (hs : Sound d) (host : Bytes) (b : EpBase) (t : TimerId) :
    Gone r (d.started host b t) := by
  refine h.frame hs rfl (Nat.le_refl _) (fun _ _ hr' => hr') (fun t1 ht1 => ?_) (h.silent.log rfl)
  have ht1 : Function.update d.timerArgs t (some (.realReq d.nextReal)) t1 = some (.rightnow r) := ht1
  rw [Function.update_apply] at ht1
  split_ifs at ht1
  · exact TimerArgs.noConfusion (Option.some.inj ht1)
  · exact h.args t1 ht1

/-- A round of the loop that does not go on with `r`. -/
theorem Gone.answerTo (h : Gone r d) (hs : Sound d) {R : RealId} {answer : Answer}
    {pos : Option ReqId} (hto : AnswerTo d R answer pos d') (hpos : pos ≠ some r) : Gone r d' := by
  cases hto with
  | @call r1 req real hreq hreal =>
    have hne : r1 ≠ r := fun he => hpos (congrArg some he)
    have hcall : isCall r (.called r1 answer) = false := by
      show decide (r1 = r) = false
      exact decide_eq_false hne
    refine ⟨h.freed, h.old, h.args, h.silent.log hcall, ?_, Control.noConfusion⟩
    rintro R' pos' n' answer' hc
    have hc : Control.answering R r1 (nextOf real.listReqs r1) answer =
      .answering R' pos' n' answer' := hc
    injection hc with _ hp hn
    refine ⟨hp ▸ hne, fun hnr => ?_⟩
    exact absurd (mem_of_nextOf (hn.trans hnr)) (h.not_mem hs hreal)
  | @finish real b t hreal ht hb _ =>
    obtain ⟨table, hcached⟩ := d.cached_eq real.host answer
    unfold Resolver.finished
    rw [hcached]
    exact ⟨h.freed, h.old, h.args, h.silent, fun _ _ _ _ hc => Control.noConfusion hc,
      Control.noConfusion⟩

theorem Gone.trans (h : Gone r d) (hs : Sound d) {e : DnsEvent} (ht : DnsTrans d e d') :
    Gone r d' := by
  cases ht with
  | skip => exact h
  | @resolvedNow host text b t result ht hb =>
    -- the new timer belongs to a new request
    refine h.frame hs rfl (Nat.le_succ _) (fun r' hlt hr' => ?_) (fun t1 ht1 => ?_) h.silent
    · show Function.update d.reqs d.nextReq _ r' = none
      rw [Function.update_of_ne (Nat.ne_of_lt hlt)]
      exact hr'
    · have ht1 : Function.update d.timerArgs t (some (.rightnow d.nextReq)) t1 =
        some (.rightnow r) := ht1
      rw [Function.update_apply] at ht1
      split_ifs at ht1
      · exact Nat.ne_of_gt h.old (TimerArgs.rightnow.inj (Option.some.inj ht1))
      · exact h.args t1 ht1
  | joined _ _ => exact h.joined hs _ _
  | queried hcache hfind ht hb =>
    exact (h.started hs _ _ _).joined (hs.started hcache hfind ht hb) _ _
  | @cancelled r1 req R real hreq hlist hreal =>
    have hgone := h.detached hs r1 R real
    exact hgone.frame (hs.detached hreq hlist hreal) rfl (Nat.le_refl _) (fun _ _ hr' => hr')
      hgone.args (hgone.silent.log rfl)
  | @returned R pos n answer req real _ hcontrol hreq hlist hreal hto =>
    refine (h.detached hs _ _ _).answerTo (hs.detached hreq hlist hreal) hto fun hn => ?_
    have hnone := (h.loop R pos n answer hcontrol).2 hn
    rw [hreq] at hnone
    exact Option.some_ne_none req hnone
  | @returnedNow r' _ _ _ _ _ _ _ _ =>
    refine ⟨?_, h.old, h.args, h.silent, fun _ _ _ _ hc => Control.noConfusion hc,
      Control.noConfusion⟩
    show Function.update d.reqs r' none r = none
    rw [Function.update_apply]
    split_ifs
    · rfl
    · exact h.freed
  | responded _ _ hreal hto =>
    exact h.answerTo hs hto fun hhead => h.not_mem hs hreal (List.mem_of_head? hhead)
  | retried => exact h.frame hs rfl (Nat.le_refl _) (fun _ _ hr' => hr') h.args h.silent
  | @timedOut t i R real b _ _ _ _ hreal _ hb hto =>
    have hgone : Gone r (d.counted b R real) :=
      h.frame hs rfl (Nat.le_refl _) (fun _ _ hr' => hr') h.args h.silent
    refine hgone.answerTo (hs.counted hb hreal) hto ?_
    exact fun hhead => h.not_mem hs hreal (List.mem_of_head? hhead)
  | @calledNow t i r1 req b answer _ _ hargs _ _ =>
    -- the timer was not set for `r`, so another callback is called
    have hne : r1 ≠ r := by
      rintro rfl
      exact h.args t hargs
    have hcall : isCall r (.called r1 answer) = false := by
      show decide (r1 = r) = false
      exact decide_eq_false hne
    refine ⟨h.freed, h.old, h.args, ?_, fun _ _ _ _ hc => Control.noConfusion hc, ?_⟩
    · exact neverCalled.log (d := d.setEp b) h.silent hcall
    · exact fun hc => hne (Control.rightnow.inj hc)

/-- A step that goes wrong does not use `r`. -/
theorem Gone.faults (h : Gone r d) {e : DnsEvent} {f : DnsFault} (hf : DnsFaults d e f d') :
    f ≠ .reqFreed r ∧ neverCalled r d' := by
  cases hf with
  | unterminated => exact ⟨DnsFault.noConfusion, h.silent⟩
  | nullNode => exact ⟨DnsFault.noConfusion, h.silent⟩
  | danglingNode => exact ⟨DnsFault.noConfusion, h.silent⟩
  | posFreed hcontrol =>
    exact ⟨fun he => (h.loop _ _ _ _ hcontrol).1 (DnsFault.reqFreed.inj he), h.silent⟩
  | nextFreed hcontrol hpos =>
    refine ⟨fun he => ?_, h.silent⟩
    have hnone := (h.loop _ _ _ _ hcontrol).2 (congrArg some (DnsFault.reqFreed.inj he))
    rw [hpos] at hnone
    exact Option.some_ne_none _ hnone
  | nullIp => exact ⟨DnsFault.noConfusion, h.silent⟩
  | nowFreed hcontrol =>
    exact ⟨fun he => h.now (DnsFault.reqFreed.inj he ▸ hcontrol), h.silent⟩
  | timerReal => exact ⟨DnsFault.noConfusion, h.silent⟩
  | timerNow hargs =>
    exact ⟨fun he => h.args _ (DnsFault.reqFreed.inj he ▸ hargs), h.silent⟩
  | nullIpAtOnce => exact ⟨DnsFault.noConfusion, h.silent⟩

/-- **The callback of a freed request is never called.** -/
theorem Gone.run (h : Gone r d) (hs : Sound d) (es : List DnsEvent) :
    wp (run dnsStep es) (fun _ => neverCalled r)
      (fun f d' => f ≠ .reqFreed r ∧ neverCalled r d') d := by
  have hrun : wp (Machine.run dnsStep es) (fun _ d => Sound d ∧ Gone r d)
      (fun f d' => f ≠ .reqFreed r ∧ neverCalled r d') d := by
    refine run_wp (fun d e h _ => ?_) es _ ⟨hs, h⟩ (meets_true es _)
    exact wp_mono (step_spec h.1 e) (fun _ _ ht => ⟨h.1.trans ht, h.2.trans h.1 ht⟩)
      (fun _ _ hf => h.2.faults hf)
  exact wp_mono hrun (fun _ _ h => h.2.silent) (fun _ _ => id)

/-! ### When it works -/

theorem cancelSafe_iff {req : DnsReq} (hreq : d.reqs r = some req) :
    cancelSafe d r = true ↔ ∃ R real, req.list = some R ∧ d.realReqs R = some real ∧
      real.listReqs ≠ [r] ∧ isNext d r = false := by
  simp only [cancelSafe, hreq, Option.bind_some]
  cases req.list with
  | none => simp
  | some R => cases hR : d.realReqs R <;> simp [hR]

/-- The request that the loop is at has been called. -/
theorem Sound.pos_ne (h : Sound d) (hr : neverCalled r d) {R : RealId} {pos : ReqId}
    {n : Option ReqId} {answer : Answer} (hc : d.control = .answering R pos n answer) : pos ≠ r := by
  rintro rfl
  have hok := h.control
  rw [ControlOk, hc] at hok
  have hcall := hr _ hok.called
  exact absurd hcall (by simp [isCall])

/-- A request that waits with another one is unlinked, and nothing else changes. -/
theorem Sound.cancelled (h : Sound d) {req : DnsReq} {R : RealId} {real : RealReq}
    (hreq : d.reqs r = some req) (hlist : req.list = some R) (hR : d.realReqs R = some real)
    (hother : real.listReqs ≠ [r]) :
    Cancelled d r ((d.detached r R real).log (.cancelled r)) := by
  -- the request is in the list of its query only
  have honly : ∀ R' real', d.realReqs R' = some real' → r ∈ real'.listReqs → R' = R := by
    intro R' real' hR' hmem
    obtain ⟨req', hreq', hlist'⟩ := h.listed R' real' hR' r hmem
    rw [hreq, Option.some.injEq] at hreq'
    rw [← hreq', hlist, Option.some.injEq] at hlist'
    exact hlist'.symm
  constructor
  · exact Function.update_self ..
  · exact fun r' hne => Function.update_of_ne hne _ _
  · -- `waiters`
    intro R' real' hR' _
    show Function.update d.realReqs R _ R' = _
    rw [Function.update_apply]
    split_ifs with he
    · subst he
      rw [hR, Option.some.injEq] at hR'
      rw [hR']
    · have hnot : r ∉ real'.listReqs := fun hmem => he (honly R' real' hR' hmem)
      rw [List.erase_of_not_mem hnot]
      exact hR'
  · rfl
  · exact fun _ _ _ => rfl
  · rfl
  · -- `last`
    intro R' real' hR' hlast
    have he : R' = R := honly R' real' hR' (hlast ▸ List.mem_singleton_self r)
    subst he
    rw [hR, Option.some.injEq] at hR'
    rw [hR'] at hother
    exact absurd hlast hother

/-- After it, nothing will call the callback. -/
theorem Sound.gone (h : Sound d) {req : DnsReq} {R : RealId} {real : RealReq}
    (hreq : d.reqs r = some req) (hlist : req.list = some R) (hr : neverCalled r d)
    (hnext : isNext d r = false) : Gone r ((d.detached r R real).log (.cancelled r)) where
  freed := Function.update_self ..
  old := h.req_lt hreq
  args := by
    intro t ht
    have hnone := ((h.args t r ht).2 req hreq).1
    rw [hlist] at hnone
    exact Option.some_ne_none R hnone
  silent := neverCalled.log (d := d.detached r R real) hr rfl
  loop := by
    intro R' pos n answer hc
    have hc : d.control = .answering R' pos n answer := hc
    refine ⟨h.pos_ne hr hc, fun hn => ?_⟩
    rw [isNext, hc, hn] at hnext
    have hnone : d.reqs pos = none := by simpa using hnext
    show Function.update d.reqs r none pos = none
    rw [Function.update_of_ne (h.pos_ne hr hc)]
    exact hnone
  now := by
    intro hc
    have hc : d.control = .rightnow r := hc
    have hok := h.control
    rw [ControlOk, hc] at hok
    obtain ⟨⟨answer, hcalled⟩, -⟩ := hok
    exact absurd (hr _ hcalled) (by simp [isCall])

/-- When the loop has `r` as its next request, it uses it after it has been freed. -/
theorem Sound.next_used (h : Sound d) {R : RealId} {pos : ReqId} {answer : Answer}
    (hc : d.control = .answering R pos (some r) answer) (hpos : d.reqs pos ≠ none)
    (hr : d.reqs r = none) :
    wp (run dnsStep [.ret]) (fun _ _ => False) (fun f _ => f = .reqFreed r) d := by
  rw [run, wp_bind]
  refine wp_mono (step_spec h .ret) (fun _ d' ht => ?_) (fun f d' hf => ?_)
  · exfalso
    cases ht with
    | skip hskip =>
      -- the loop neither returns nor goes on without its next request
      have hskip : d.control = .idle := hskip
      rw [hskip] at hc
      exact Control.noConfusion hc
    | @returned _ pos' _ _ _ real _ hcontrol _ _ _ hto =>
      rw [hc] at hcontrol
      injection hcontrol with hR hp hn
      subst hn
      cases hto with
      | @call _ req' _ hreq' _ =>
        have hreq' : Function.update d.reqs pos' none r = some req' := hreq'
        rw [Function.update_apply] at hreq'
        split_ifs at hreq'
        rw [hr] at hreq'
        exact Option.some_ne_none req' hreq'.symm
    | returnedNow hcontrol =>
      rw [hc] at hcontrol
      exact Control.noConfusion hcontrol
  · cases hf with
    | posFreed hcontrol hreq =>
      rw [hc] at hcontrol
      injection hcontrol with _ hp
      exact absurd (hp ▸ hreq) hpos
    | nextFreed hcontrol =>
      rw [hc] at hcontrol
      injection hcontrol with _ _ hn
      rw [Option.some.inj hn]
    | nullIp hcontrol =>
      rw [hc] at hcontrol
      injection hcontrol with _ _ hn
      exact absurd hn (Option.some_ne_none r)
    | nowFreed hcontrol =>
      rw [hc] at hcontrol
      exact Control.noConfusion hcontrol

/-- What `dns_cancel` needs in a sound state. -/
theorem Sound.cancelOk_iff (h : Sound d) (hr : Outstanding d r) :
    CancelOk d r ↔ cancelSafe d r = true := by
  obtain ⟨hlive, hsilent⟩ := hr
  obtain ⟨req, hreq⟩ := Option.ne_none_iff_exists'.mp hlive
  rw [cancelSafe_iff hreq]
  constructor
  · intro hok
    obtain ⟨-, d', ⟨hcancelled, hfuture⟩, R, real, hlist, hR, rfl⟩ :=
      exists_of_wp (wp_mono (wp_and hok (dnsCancel_spec h hreq)) (fun _ _ => id) fun _ _ hE => hE.1)
    refine ⟨R, real, hlist, hR, fun hlast => ?_, ?_⟩
    · -- the query of the last waiter is still there
      have hnone := (hcancelled.last R real hR hlast).1
      have hsome : Function.update d.realReqs R
        (some { real with listReqs := real.listReqs.erase r }) R = none := hnone
      rw [Function.update_self] at hsome
      exact Option.some_ne_none _ hsome
    · by_contra hnext
      rw [Bool.not_eq_false, isNext] at hnext
      split at hnext
      · rename_i R' pos n answer hc
        simp only [Bool.and_eq_true, decide_eq_true_eq] at hnext
        obtain ⟨rfl, hpos⟩ := hnext
        have hne := h.pos_ne hsilent hc
        have hs := (h.detached hreq hlist hR).log (.cancelled n)
        have hpos' : ((d.detached n R real).log (.cancelled n)).reqs pos ≠ none := by
          show Function.update d.reqs n none pos ≠ none
          rw [Function.update_of_ne hne]
          exact Option.isSome_iff_ne_none.mp hpos
        have hused := hs.next_used hc hpos' (Function.update_self ..)
        obtain ⟨-, -, hfalse⟩ := exists_of_wp (wp_mono (wp_and hused (hfuture [.ret]))
          (fun _ _ hQ => hQ.1) (fun _ _ hE => hE.2.1 hE.1))
        exact hfalse
      · exact Bool.false_ne_true hnext
  · rintro ⟨R, real, hlist, hR, hother, hnext⟩
    refine wp_mono (dnsCancel_spec h hreq) ?_ ?_
    · rintro - d' ⟨R', real', hlist', hR', rfl⟩
      obtain rfl : R = R' := Option.some.inj (hlist.symm.trans hlist')
      obtain rfl : real = real' := Option.some.inj (hR.symm.trans hR')
      refine ⟨h.cancelled hreq hlist hR hother, ?_⟩
      exact (h.gone hreq hlist hsilent hnext).run ((h.detached hreq hlist hR).log _)
    · intro f d' hf
      cases hf with
      | nullNode hreq' hnone =>
        rw [hreq, Option.some.injEq] at hreq'
        rw [← hreq', hlist] at hnone
        exact Option.some_ne_none R hnone
      | danglingNode hreq' hsome hnone =>
        rw [hreq, Option.some.injEq] at hreq'
        rw [← hreq', hlist, Option.some.injEq] at hsome
        rw [← hsome, hR] at hnone
        exact Option.some_ne_none real hnone

/-- **When a request can be cancelled.**  In every state of every run, `dns_cancel` of a request whose
callback has not been called does what it should if and only if the request waits for a query that has
another waiter, and the loop of a running answer will not go on with it. -/
theorem wp_run_cancelOk_iff (es : List DnsEvent) (r : ReqId) :
    wp (run dnsStep es) (fun _ d => Outstanding d r → (CancelOk d r ↔ cancelSafe d r = true))
      (fun _ _ => True) .init :=
  wp_mono (wp_run_sound es) (fun _ _ h hr => h.cancelOk_iff hr) (fun _ _ => id)

/-- The first of two requests for the same host can be cancelled. -/
theorem wp_run_cancelOk_iff_waiting :
    wp (run dnsStep [.resolve (bytes "a"), .resolve (bytes "a")])
      (fun _ d => Outstanding d 0 ∧ CancelOk d 0) (fun _ _ => False) .init := by
  have hstate : wp (run dnsStep [.resolve (bytes "a"), .resolve (bytes "a")])
      (fun _ d => Outstanding d 0 ∧ cancelSafe d 0 = true) (fun _ _ => False) .init := by
    decide +kernel
  refine wp_mono (wp_and (wp_run_cancelOk_iff _ 0) hstate) ?_ (fun _ _ hE => hE.2)
  rintro - d ⟨hiff, hr, hsafe⟩
  exact ⟨hr, (hiff hr).mpr hsafe⟩

/-- The only request for an address has no list node, and `dns_cancel` unlinks it. -/
theorem not_cancelOk : ¬ ∀ es r, wp (run dnsStep es) (fun _ d => Outstanding d r → CancelOk d r)
    (fun _ _ => True) .init := by
  intro h
  have hstate : wp (run dnsStep [.resolve (bytes "1.2.3.4")])
      (fun _ d => Outstanding d 0 ∧
        wp (dnsCancel 0) (fun _ _ => False) (fun f _ => f = .nullNode 0) d)
      (fun _ _ => False) .init := by
    decide +kernel
  obtain ⟨-, d, hok, hr, hfault⟩ :=
    exists_of_wp (wp_mono (wp_and (h _ 0) hstate) (fun _ _ => id) (fun _ _ hE => hE.2))
  obtain ⟨-, -, hfalse⟩ := exists_of_wp (wp_mono (wp_and (hok hr) hfault) (fun _ _ hQ => hQ.2)
    (fun _ _ hE => hE.1))
  exact hfalse

end H2ClientProxy.Dns
