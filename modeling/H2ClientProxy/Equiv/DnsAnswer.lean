import H2ClientProxy.Equiv.DnsStep

/-!
# When an answer reaches every waiter

`dns_real_req_active_and_free` calls the waiters of a query back one after the other.  It has read the
next entry of the list before it calls back, and the query can still be found while it does; so what a
callback resolves and cancels meets the loop.

* `Answered`: every request that was attached to the query at any moment of the call has been called
  once, or has been cancelled and not called.
* `InLoop`: what is true while a callback is running.
* `wp_run_answersAll_iff`: all waiters are answered exactly when, at each return of a callback, the
  entry that the loop has saved has not been cancelled, and no request has joined behind the last one.
-/

namespace H2ClientProxy.Dns

open Wp Machine Ep

variable {d d' d0 : Resolver} {l : List ReqId} {R : RealId} {pos : ReqId} {real : RealReq}
  {tr : List DnsObs} {r : ReqId}

/-! ### What an answer should do -/

/-- How often the callback of `r` is called. -/
def calls (r : ReqId) (tr : List DnsObs) : ℕ := tr.countP (isCall r)

/-- The request is one of the waiters `l` that the query has when the call begins, or joins them during
the call. -/
def EverAttached (l : List ReqId) (R : RealId) (tr : List DnsObs) (r : ReqId) : Prop :=
  r ∈ l ∨ .waits r R ∈ tr

/-- What has happened to the requests that were attached to the query, when the call has `ended` and
before. -/
structure Answered (l : List ReqId) (R : RealId) (tr : List DnsObs) (ended : Bool) (d : Resolver) :
    Prop where
  once : ∀ r, EverAttached l R tr r → calls r tr ≤ 1
  uncalled : ∀ r, EverAttached l R tr r → .cancelled r ∈ tr → calls r tr = 0
  all : ended = true → ∀ r, EverAttached l R tr r → .cancelled r ∉ tr → calls r tr = 1
  left : ended = true → ∀ r req, d.reqs r = some req → req.list ≠ some R

/-- What has happened since `d0`. -/
def since (d0 d : Resolver) : List DnsObs := d.trace.drop d0.trace.length

/-- The query that a step begins to answer: to a response, or at the last timeout. -/
def answers (d : Resolver) : DnsEvent → Option RealId
  | .response host _ _ => if d.control = .idle then dnsRealReqFind d (cstr host) else none
  | .timer t =>
    match d.control, linkedNode d.ep t, d.timerArgs t with
    | .idle, some _, some (.realReq R) =>
      if (d.realReqs R).any fun real => 5 ≤ real.countTimeout + 1 then some R else none
    | _, _, _ => none
  | _ => none

/-- What callbacks do: they resolve, cancel other waiting requests, and return. -/
def userCall (d : Resolver) (e : DnsEvent) : Bool :=
  match d.control with
  | .answering _ pos _ _ =>
    match e with
    | .resolve host => (cstr host).length < 256
    | .cancel r => r ≠ pos ∧ (((d.reqs r).bind DnsReq.list).bind d.realReqs).isSome
    | .ret => true
    | _ => false
  | _ => false

/-- When a callback returns, the entry that the loop has saved is still there; and if it has saved the
head, the request that was called is still the only one. -/
def keepsLoop (d : Resolver) (e : DnsEvent) : Bool :=
  match e, d.control with
  | .ret, .answering _ _ (some n) _ => (d.reqs n).isSome
  | .ret, .answering R pos none _ => (d.realReqs R).any fun real => real.listReqs = [pos]
  | _, _ => true

/-- The callbacks `es`, which start in the state `d1`, end with all waiters answered. -/
def AnswersAll (d0 : Resolver) (l : List ReqId) (R : RealId) (es : List DnsEvent) (d1 : Resolver) :
    Prop :=
  wp (run dnsStep es) (fun _ d => Answered l R (since d0 d) (d.control = .idle) d)
    (fun f d => f = .nullIp ∧ Answered l R (since d0 d) true d) d1

/-! ### The trace -/

theorem since_eq (h : d.trace = d0.trace ++ tr) : since d0 d = tr := by
  rw [since, h, List.drop_left]

theorem calls_append_of_false {o : DnsObs} (ho : isCall r o = false) :
    calls r (tr ++ [o]) = calls r tr := by
  rw [calls, List.countP_append, List.countP_singleton, ho]
  rfl

theorem calls_append_self (answer : Answer) :
    calls r (tr ++ [DnsObs.called r answer]) = calls r tr + 1 := by
  rw [calls, List.countP_append, List.countP_singleton, isCall, decide_eq_true rfl]
  rfl

theorem isCall_of_ne {r' : ReqId} (answer : Answer) (hne : r' ≠ r) :
    isCall r (.called r' answer) = false := by
  rw [isCall]
  exact decide_eq_false hne

theorem not_mem_append_singleton {o o' : DnsObs} (h : o ∉ tr) (hne : o ≠ o') : o ∉ tr ++ [o'] := by
  rw [List.mem_append, List.mem_singleton]
  exact not_or.mpr ⟨h, hne⟩

theorem everAttached_append {o : DnsObs} (h : EverAttached l R (tr ++ [o]) r) :
    EverAttached l R tr r ∨ o = .waits r R := by
  rcases h with h | h
  · exact Or.inl (Or.inl h)
  · rcases List.mem_append.mp h with h | h
    · exact Or.inl (Or.inr h)
    · exact Or.inr (List.mem_singleton.mp h).symm

/-! ### The loop -/

/-- The request has been called or cancelled, and freed. -/
def Settled (tr : List DnsObs) (d : Resolver) (r : ReqId) : Prop :=
  d.reqs r = none ∧ r < d.nextReq ∧
    (calls r tr = 1 ∧ .cancelled r ∉ tr ∨ calls r tr = 0 ∧ .cancelled r ∈ tr)

/-- While the callback of `pos` runs, a request that was ever attached still waits, and only `pos` of
these has been called, or it is settled. -/
structure InLoop (l : List ReqId) (R : RealId) (pos : ReqId) (real : RealReq) (tr : List DnsObs)
    (d : Resolver) : Prop where
  query : d.realReqs R = some real
  live : d.reqs pos ≠ none
  status : ∀ r, EverAttached l R tr r →
    (r ∈ real.listReqs ∧ .cancelled r ∉ tr ∧ calls r tr = if r = pos then 1 else 0) ∨ Settled tr d r
  fresh : ∀ r, d.nextReq ≤ r → calls r tr = 0 ∧ .cancelled r ∉ tr

theorem InLoop.answered (h : InLoop l R pos real tr d) : Answered l R tr false d where
  once := by
    intro r hr
    rcases h.status r hr with ⟨-, -, hcalls⟩ | ⟨-, -, ⟨hcalls, -⟩ | ⟨hcalls, -⟩⟩
    · rw [hcalls]
      split_ifs <;> omega
    · omega
    · omega
  uncalled := by
    intro r hr hcancelled
    rcases h.status r hr with ⟨-, hnot, -⟩ | ⟨-, -, ⟨-, hnot⟩ | ⟨hcalls, -⟩⟩
    · exact absurd hcancelled hnot
    · exact absurd hcancelled hnot
    · exact hcalls
  all := fun hended => absurd hended Bool.false_ne_true
  left := fun hended => absurd hended Bool.false_ne_true

/-- Once all are settled, and none is attached, the answer is complete. -/
theorem answered_of_settled (h : ∀ r, EverAttached l R tr r → Settled tr d r)
    (hleft : ∀ r req, d'.reqs r = some req → req.list ≠ some R) : Answered l R tr true d' where
  once := by
    intro r hr
    rcases (h r hr).2.2 with ⟨hcalls, -⟩ | ⟨hcalls, -⟩ <;> omega
  uncalled := by
    intro r hr hcancelled
    rcases (h r hr).2.2 with ⟨-, hnot⟩ | ⟨hcalls, -⟩
    · exact absurd hcancelled hnot
    · exact hcalls
  all := by
    intro _ r hr hnot
    rcases (h r hr).2.2 with ⟨hcalls, -⟩ | ⟨-, hcancelled⟩
    · exact hcalls
    · exact absurd hcancelled hnot
  left := fun _ => hleft

/-- The query stays as it is, and requests are made. -/
theorem InLoop.frame (h : InLoop l R pos real tr d) (hreal : d'.realReqs R = some real)
    (hnext : d.nextReq ≤ d'.nextReq) (hpos : d'.reqs pos ≠ none)
    (hold : ∀ r, r < d.nextReq → d.reqs r = none → d'.reqs r = none) :
    InLoop l R pos real tr d' where
  query := hreal
  live := hpos
  status := by
    intro r hr
    rcases h.status r hr with hwaits | ⟨hnone, hlt, hcalls⟩
    · exact Or.inl hwaits
    · exact Or.inr ⟨hold r hlt hnone, Nat.lt_of_lt_of_le hlt hnext, hcalls⟩
  fresh := fun r hr => h.fresh r (Nat.le_trans hnext hr)

/-- Something happens that does not concern the query. -/
theorem InLoop.log (h : InLoop l R pos real tr d) {o : DnsObs}
    (ho : ∀ r, isCall r o = false ∧ .cancelled r ≠ o ∧ o ≠ .waits r R) :
    InLoop l R pos real (tr ++ [o]) d where
  query := h.query
  live := h.live
  status := by
    intro r hr
    obtain ⟨hcall, hcancel, hwaits⟩ := ho r
    have hr := (everAttached_append hr).resolve_right hwaits
    rw [Settled, calls_append_of_false hcall]
    rcases h.status r hr with ⟨hmem, hnot, hcalls⟩ | ⟨hnone, hlt, ⟨hcalls, hnot⟩ | ⟨hcalls, hin⟩⟩
    · exact Or.inl ⟨hmem, not_mem_append_singleton hnot hcancel, hcalls⟩
    · exact Or.inr ⟨hnone, hlt, Or.inl ⟨hcalls, not_mem_append_singleton hnot hcancel⟩⟩
    · exact Or.inr ⟨hnone, hlt, Or.inr ⟨hcalls, List.mem_append_left _ hin⟩⟩
  fresh := by
    intro r hr
    obtain ⟨hcall, hcancel, -⟩ := ho r
    rw [calls_append_of_false hcall]
    exact ⟨(h.fresh r hr).1, not_mem_append_singleton (h.fresh r hr).2 hcancel⟩

/-- A request joins a query. -/
theorem InLoop.joined (h : InLoop l R pos real tr d) (hs : Sound d) {R' : RealId} {real' : RealReq}
    (hR' : d.realReqs R' = some real') :
    ∃ real1, InLoop l R pos real1 (tr ++ [DnsObs.waits d.nextReq R']) (d.joined R' real') := by
  obtain ⟨req, hreq⟩ := Option.ne_none_iff_exists'.mp h.live
  have hold : ∀ r, r < d.nextReq → (d.joined R' real').reqs r = d.reqs r :=
    fun r hlt => Function.update_of_ne (Nat.ne_of_lt hlt) _ _
  have hpos : (d.joined R' real').reqs pos ≠ none := by
    rw [hold pos (hs.req_lt hreq)]
    exact h.live
  by_cases he : R' = R
  · -- it waits for the answer
    subst he
    obtain rfl : real' = real := Option.some.inj (hR'.symm.trans h.query)
    refine ⟨{ real' with listReqs := real'.listReqs ++ [d.nextReq] }, Function.update_self .., hpos,
      fun r hr => ?_, fun r hr => ?_⟩
    · rw [Settled, calls_append_of_false rfl]
      rcases everAttached_append hr with hr | hr
      · rcases h.status r hr with ⟨hmem, hnot, hcalls⟩ | ⟨hnone, hlt, hcalls⟩
        · refine Or.inl ⟨List.mem_append_left _ hmem, ?_, hcalls⟩
          exact not_mem_append_singleton hnot DnsObs.noConfusion
        · refine Or.inr ⟨(hold r hlt).trans hnone, Nat.lt_succ_of_lt hlt, ?_⟩
          rcases hcalls with ⟨hcalls, hnot⟩ | ⟨hcalls, hin⟩
          · exact Or.inl ⟨hcalls, not_mem_append_singleton hnot DnsObs.noConfusion⟩
          · exact Or.inr ⟨hcalls, List.mem_append_left _ hin⟩
      · injection hr with hr
        subst hr
        obtain ⟨hcalls, hnot⟩ := h.fresh d.nextReq (Nat.le_refl _)
        have hne : d.nextReq ≠ pos := Nat.ne_of_gt (hs.req_lt hreq)
        refine Or.inl ⟨List.mem_append_right _ (List.mem_singleton_self _), ?_, ?_⟩
        · exact not_mem_append_singleton hnot DnsObs.noConfusion
        · rw [hcalls, if_neg hne]
    · have hle : d.nextReq ≤ r := Nat.le_of_succ_le hr
      rw [calls_append_of_false rfl]
      exact ⟨(h.fresh r hle).1, not_mem_append_singleton (h.fresh r hle).2 DnsObs.noConfusion⟩
  · refine ⟨real, InLoop.log ?_ fun r => ⟨rfl, DnsObs.noConfusion, ?_⟩⟩
    · refine h.frame ?_ (Nat.le_succ _) hpos fun r hlt hnone => (hold r hlt).trans hnone
      exact (Function.update_of_ne (Ne.symm he) _ _).trans h.query
    · intro hw
      injection hw with _ hw
      exact he hw

theorem InLoop.started (h : InLoop l R pos real tr d) (hs : Sound d) (host : Bytes) (b : EpBase)
    (t : TimerId) : InLoop l R pos real (tr ++ [DnsObs.sendReq host]) (d.started host b t) := by
  have hframe : InLoop l R pos real tr (d.started host b t) := by
    refine h.frame ?_ (Nat.le_refl _) h.live fun _ _ hnone => hnone
    exact (Function.update_of_ne (Nat.ne_of_lt (hs.real_lt h.query)) _ _).trans h.query
  exact hframe.log fun r => ⟨rfl, DnsObs.noConfusion, DnsObs.noConfusion⟩

/-- Another request is cancelled. -/
theorem InLoop.cancelled (h : InLoop l R pos real tr d) (hs : Sound d) {req : DnsReq} {R' : RealId}
    {real' : RealReq} (hreq : d.reqs r = some req) (hlist : req.list = some R')
    (hR' : d.realReqs R' = some real') (hne : r ≠ pos) :
    InLoop l R pos { real with listReqs := real.listReqs.erase r } (tr ++ [DnsObs.cancelled r])
      ((d.detached r R' real').log (.cancelled r)) where
  query := by
    show Function.update d.realReqs R' _ R = _
    rw [Function.update_apply]
    split_ifs with he
    · subst he
      obtain rfl : real = real' := Option.some.inj (h.query.symm.trans hR')
      rfl
    · have hnot : r ∉ real.listReqs := by
        intro hmem
        obtain ⟨req', hreq', hlist'⟩ := hs.listed R real h.query r hmem
        rw [hreq, Option.some.injEq] at hreq'
        rw [← hreq', hlist, Option.some.injEq] at hlist'
        exact he hlist'.symm
      rw [List.erase_of_not_mem hnot]
      exact h.query
  live := by
    show Function.update d.reqs r none pos ≠ none
    rw [Function.update_of_ne hne.symm]
    exact h.live
  status := by
    intro r1 hr1
    have hever := (everAttached_append hr1).resolve_right DnsObs.noConfusion
    rw [Settled, calls_append_of_false rfl]
    by_cases he : r1 = r
    · -- it has not been called, since only `pos` has
      subst he
      rcases h.status r1 hever with ⟨-, -, hcalls⟩ | ⟨hnone, -, -⟩
      · rw [if_neg hne] at hcalls
        refine Or.inr ⟨Function.update_self .., hs.req_lt hreq, Or.inr ⟨hcalls, ?_⟩⟩
        exact List.mem_append_right _ (List.mem_singleton_self _)
      · rw [hreq] at hnone
        exact absurd hnone (Option.some_ne_none req)
    · have hcancel : DnsObs.cancelled r1 ≠ .cancelled r := fun hc => he (DnsObs.cancelled.inj hc)
      rcases h.status r1 hever with ⟨hmem, hnot, hcalls⟩ | ⟨hnone, hlt, hcalls⟩
      · refine Or.inl ⟨(List.mem_erase_of_ne he).mpr hmem, ?_, hcalls⟩
        exact not_mem_append_singleton hnot hcancel
      · refine Or.inr ⟨(Function.update_of_ne he _ _).trans hnone, hlt, ?_⟩
        rcases hcalls with ⟨hcalls, hnot⟩ | ⟨hcalls, hin⟩
        · exact Or.inl ⟨hcalls, not_mem_append_singleton hnot hcancel⟩
        · exact Or.inr ⟨hcalls, List.mem_append_left _ hin⟩
  fresh := by
    intro r1 hr1
    have hne1 : r1 ≠ r := Nat.ne_of_gt (Nat.lt_of_lt_of_le (hs.req_lt hreq) hr1)
    rw [calls_append_of_false rfl]
    refine ⟨(h.fresh r1 hr1).1, not_mem_append_singleton (h.fresh r1 hr1).2 ?_⟩
    exact fun hc => hne1 (DnsObs.cancelled.inj hc)

/-- The callback of `pos` has returned, and it is unlinked and freed. -/
theorem InLoop.detached (h : InLoop l R pos real tr d) (hs : Sound d) (r : ReqId)
    (hr : EverAttached l R tr r) :
    (r ∈ real.listReqs.erase pos ∧ .cancelled r ∉ tr ∧ calls r tr = 0) ∨
      Settled tr (d.detached pos R real) r := by
  obtain ⟨req, hreq⟩ := Option.ne_none_iff_exists'.mp h.live
  by_cases he : r = pos
  · subst he
    rcases h.status r hr with ⟨-, hnot, hcalls⟩ | ⟨hnone, -, -⟩
    · rw [if_pos rfl] at hcalls
      exact Or.inr ⟨Function.update_self .., hs.req_lt hreq, Or.inl ⟨hcalls, hnot⟩⟩
    · exact absurd hnone h.live
  · rcases h.status r hr with ⟨hmem, hnot, hcalls⟩ | ⟨hnone, hlt, hcalls⟩
    · rw [if_neg he] at hcalls
      exact Or.inl ⟨(List.mem_erase_of_ne he).mpr hmem, hnot, hcalls⟩
    · exact Or.inr ⟨(Function.update_of_ne he _ _).trans hnone, hlt, hcalls⟩

/-- The next waiter is called. -/
theorem InLoop.called {real' : RealReq} (hs : Sound d) (hreal : d.realReqs R = some real)
    {r : ReqId} {req : DnsReq} (hreq : d.reqs r = some req) (answer : Answer)
    (hstatus : ∀ r, EverAttached l R tr r →
      (r ∈ real.listReqs ∧ .cancelled r ∉ tr ∧ calls r tr = 0) ∨ Settled tr d r)
    (hfresh : ∀ r, d.nextReq ≤ r → calls r tr = 0 ∧ .cancelled r ∉ tr) :
    InLoop l R r real (tr ++ [DnsObs.called r answer]) (d.calledBack R real' r answer) where
  query := hreal
  live := by
    show d.reqs r ≠ none
    rw [hreq]
    exact Option.some_ne_none req
  status := by
    intro r1 hr1
    have hever := (everAttached_append hr1).resolve_right DnsObs.noConfusion
    have hkeep : ∀ {r1}, DnsObs.cancelled r1 ∉ tr →
      DnsObs.cancelled r1 ∉ tr ++ [DnsObs.called r answer] :=
      fun hnot => not_mem_append_singleton hnot DnsObs.noConfusion
    by_cases he : r1 = r
    · subst he
      rcases hstatus r1 hever with ⟨hmem, hnot, hcalls⟩ | ⟨hnone, -, -⟩
      · refine Or.inl ⟨hmem, hkeep hnot, ?_⟩
        rw [calls_append_self, hcalls, if_pos rfl]
      · rw [hreq] at hnone
        exact absurd hnone (Option.some_ne_none req)
    · rw [Settled, calls_append_of_false (isCall_of_ne answer (Ne.symm he)), if_neg he]
      rcases hstatus r1 hever with ⟨hmem, hnot, hcalls⟩ | ⟨hnone, hlt, hcalls⟩
      · exact Or.inl ⟨hmem, hkeep hnot, hcalls⟩
      · refine Or.inr ⟨hnone, hlt, ?_⟩
        rcases hcalls with ⟨hcalls, hnot⟩ | ⟨hcalls, hin⟩
        · exact Or.inl ⟨hcalls, hkeep hnot⟩
        · exact Or.inr ⟨hcalls, List.mem_append_left _ hin⟩
  fresh := by
    intro r1 hr1
    have hne : r ≠ r1 := Nat.ne_of_lt (Nat.lt_of_lt_of_le (hs.req_lt hreq) hr1)
    rw [calls_append_of_false (isCall_of_ne answer hne)]
    exact ⟨(hfresh r1 hr1).1, not_mem_append_singleton (hfresh r1 hr1).2 DnsObs.noConfusion⟩

/-- A query without waiters. -/
theorem Sound.none_left (h : Sound d) (hreal : d.realReqs R = some real)
    (hnil : real.listReqs = []) (r : ReqId) (req : DnsReq) (hreq : d.reqs r = some req) :
    req.list ≠ some R := by
  intro hlist
  have hmem := (h.mem_iff hreal r).mpr ⟨req, hreq, hlist⟩
  rw [hnil] at hmem
  exact List.not_mem_nil hmem

/-! ### The call -/

/-- The call is running. -/
structure InCall (d0 : Resolver) (l : List ReqId) (R : RealId) (d : Resolver) : Prop where
  sound : Sound d
  loop : ∃ pos n answer real tr, d.control = .answering R pos n answer ∧
    d.trace = d0.trace ++ tr ∧ InLoop l R pos real tr d

/-- The call has returned, and has answered all. -/
def DoneCall (d0 : Resolver) (l : List ReqId) (R : RealId) (d : Resolver) : Prop :=
  d.control = .idle ∧ Answered l R (since d0 d) true d

theorem keepsLoop_ret_some {r : ReqId} {answer : Answer}
    (hcontrol : d.control = .answering R pos (some r) answer) :
    keepsLoop d .ret = true ↔ d.reqs r ≠ none := by
  simp only [keepsLoop, hcontrol]
  exact Option.isSome_iff_ne_none

theorem keepsLoop_ret_none {answer : Answer} (hcontrol : d.control = .answering R pos none answer)
    (hreal : d.realReqs R = some real) : keepsLoop d .ret = true ↔ real.listReqs = [pos] := by
  simp only [keepsLoop, hcontrol, hreal, Option.any_some, decide_eq_true_eq]

/-- The round of the loop that goes on with a waiter, or ends when there is none. -/
theorem InCall.answerTo (hs : Sound d) (hreal : d.realReqs R = some real) {answer : Answer}
    {n : Option ReqId} (hto : AnswerTo d R answer n d') (hhead : n = real.listReqs.head?)
    (htrace : d.trace = d0.trace ++ tr)
    (hstatus : ∀ r, EverAttached l R tr r →
      (r ∈ real.listReqs ∧ .cancelled r ∉ tr ∧ calls r tr = 0) ∨ Settled tr d r)
    (hfresh : ∀ r, d.nextReq ≤ r → calls r tr = 0 ∧ .cancelled r ∉ tr) :
    InCall d0 l R d' ∨ DoneCall d0 l R d' := by
  cases hto with
  | @call r req real' hreq hreal' =>
    obtain rfl : real = real' := Option.some.inj (hreal.symm.trans hreal')
    refine Or.inl ⟨hs.calledBack hreal hhead.symm answer, ?_⟩
    refine ⟨r, nextOf real.listReqs r, answer, real, tr ++ [DnsObs.called r answer], rfl, ?_, ?_⟩
    · show d.trace ++ [DnsObs.called r answer] = _
      rw [htrace, List.append_assoc]
    · exact InLoop.called hs hreal hreq answer hstatus hfresh
  | @finish real' b t hreal' ht hb _ =>
    obtain rfl : real = real' := Option.some.inj (hreal.symm.trans hreal')
    have hnil : real.listReqs = [] := List.head?_eq_none_iff.mp hhead.symm
    have hsince : since d0 (d.finished R real answer b) = tr :=
      since_eq ((d.finished_trace R real answer b).trans htrace)
    refine Or.inr ⟨rfl, ?_⟩
    rw [hsince]
    refine answered_of_settled (d := d) (fun r hr => ?_) ?_
    · rcases hstatus r hr with ⟨hmem, -⟩ | hsettled
      · rw [hnil] at hmem
        exact absurd hmem List.not_mem_nil
      · exact hsettled
    · rw [d.finished_reqs]
      exact hs.none_left hreal hnil

/-- **One step of a callback** that keeps to the condition. -/
theorem InCall.trans (h : InCall d0 l R d) {e : DnsEvent} (huser : userCall d e = true)
    (hkeeps : keepsLoop d e = true) (ht : DnsTrans d e d') :
    InCall d0 l R d' ∨ DoneCall d0 l R d' := by
  have hs := h.sound
  have hs' := hs.trans ht
  obtain ⟨pos, n, answer, real, tr, hcontrol, htrace, hloop⟩ := h.loop
  -- the two halves of a call that goes on
  have hgo : ∀ real' tr', d'.control = d.control → d'.trace = d.trace ++ tr' →
      InLoop l R pos real' (tr ++ tr') d' → InCall d0 l R d' ∨ DoneCall d0 l R d' := by
    intro real' tr' hc ht hloop'
    refine Or.inl ⟨hs', pos, n, answer, real', tr ++ tr', hc.trans hcontrol, ?_, hloop'⟩
    rw [ht, htrace, List.append_assoc]
  cases ht with
  | skip => exact Or.inl h
  | resolvedNow host text result ht hb =>
    obtain ⟨req, hreq⟩ := Option.ne_none_iff_exists'.mp hloop.live
    refine hgo real [] rfl (List.append_nil _).symm ?_
    rw [List.append_nil]
    refine hloop.frame hloop.query (Nat.le_succ _) ?_ fun r hlt hnone => ?_
    · show Function.update d.reqs d.nextReq _ pos ≠ none
      rw [Function.update_of_ne (Nat.ne_of_lt (hs.req_lt hreq))]
      exact hloop.live
    · exact (Function.update_of_ne (Nat.ne_of_lt hlt) _ _).trans hnone
  | joined _ hreal =>
    obtain ⟨real1, hloop1⟩ := hloop.joined hs hreal
    exact hgo real1 _ rfl rfl hloop1
  | @queried host b t hcache hfind ht hb =>
    have hself : (d.started (cstr host) b t).realReqs d.nextReal =
        some { host := cstr host, timer := some t } := Function.update_self ..
    obtain ⟨real1, hloop1⟩ := (hloop.started hs (cstr host) b t).joined
      (hs.started hcache hfind ht hb) hself
    rw [List.append_assoc] at hloop1
    refine hgo real1 _ rfl ?_ hloop1
    exact List.append_assoc ..
  | @cancelled r req R' real' hreq hlist hreal =>
    have hne : r ≠ pos := by
      rw [userCall, hcontrol] at huser
      exact (of_decide_eq_true huser).1
    exact hgo _ _ rfl rfl (hloop.cancelled hs hreq hlist hreal hne)
  | @returned R' pos' n' answer' req real' _ hcontrol' hreq hlist hreal hto =>
    rw [hcontrol] at hcontrol'
    injection hcontrol' with hR hp hn ha
    subst hR hp hn ha
    obtain rfl : real = real' := Option.some.inj (hloop.query.symm.trans hreal)
    have hself : (d.detached pos R real).realReqs R =
        some { real with listReqs := real.listReqs.erase pos } := Function.update_self ..
    refine InCall.answerTo (hs.detached hreq hlist hreal) hself hto ?_ htrace
      (fun r hr => hloop.detached hs r hr) hloop.fresh
    -- the loop goes on with the head of what is left
    cases n with
    | some r =>
      cases hto with
      | call hreq' _ => exact (hs.head_of_detached hcontrol hreal rfl hreq').symm
    | none =>
      have honly : real.listReqs = [pos] := (keepsLoop_ret_none hcontrol hreal).mp hkeeps
      show none = (real.listReqs.erase pos).head?
      rw [honly, List.erase_cons_head]
      rfl
  | returnedNow hc =>
    rw [hcontrol] at hc
    exact Control.noConfusion hc
  | responded hidle =>
    rw [hcontrol] at hidle
    exact Control.noConfusion hidle
  | retried hidle =>
    rw [hcontrol] at hidle
    exact Control.noConfusion hidle
  | timedOut hidle =>
    rw [hcontrol] at hidle
    exact Control.noConfusion hidle
  | calledNow _ hidle =>
    rw [hcontrol] at hidle
    exact Control.noConfusion hidle

/-- A callback that keeps to the condition ends in a fault only when the answer has no address, and
then all have been called. -/
theorem InCall.faults (h : InCall d0 l R d) {e : DnsEvent} (huser : userCall d e = true)
    (hkeeps : keepsLoop d e = true) {f : DnsFault} (hf : DnsFaults d e f d') :
    f = .nullIp ∧ Answered l R (since d0 d') true d' := by
  have hs := h.sound
  obtain ⟨pos, n, answer, real, tr, hcontrol, htrace, hloop⟩ := h.loop
  cases hf with
  | unterminated hlen =>
    rw [userCall, hcontrol] at huser
    have hlt := of_decide_eq_true huser
    omega
  | nullNode hreq hlist =>
    rw [userCall, hcontrol] at huser
    have hlive := (of_decide_eq_true huser).2
    rw [hreq, Option.bind_some, hlist] at hlive
    exact absurd hlive Bool.false_ne_true
  | danglingNode hreq hlist hreal =>
    rw [userCall, hcontrol] at huser
    have hlive := (of_decide_eq_true huser).2
    rw [hreq, Option.bind_some, hlist, Option.bind_some, hreal] at hlive
    exact absurd hlive Bool.false_ne_true
  | posFreed hc hreq =>
    rw [hcontrol] at hc
    injection hc with _ hp
    rw [← hp] at hreq
    exact absurd hreq hloop.live
  | nextFreed hc _ hreq =>
    -- the condition says that the saved next request is still there
    rw [hcontrol] at hc
    injection hc with _ _ hn
    rw [hn] at hcontrol
    exact absurd hreq ((keepsLoop_ret_some hcontrol).mp hkeeps)
  | @nullIp R' pos' answer' req real' hc hpos hreal =>
    rw [hcontrol] at hc
    injection hc with hR hp hn
    subst hR hp hn
    obtain rfl : real = real' := Option.some.inj (hloop.query.symm.trans hreal)
    -- no next request: under the condition `pos` is the last one attached
    have honly : real.listReqs = [pos] := (keepsLoop_ret_none hcontrol hreal).mp hkeeps
    have hnil : real.listReqs.erase pos = [] := by rw [honly, List.erase_cons_head]
    obtain ⟨req', hreq', hlist⟩ := hs.listed R real hreal pos (honly ▸ List.mem_singleton_self pos)
    have hself : (d.detached pos R real).realReqs R =
        some { real with listReqs := real.listReqs.erase pos } := Function.update_self ..
    have hsince : since d0 (d.detached pos R real) = tr := since_eq htrace
    refine ⟨rfl, ?_⟩
    rw [hsince]
    refine answered_of_settled (d := d.detached pos R real) (fun r hr => ?_)
      ((hs.detached hreq' hlist hreal).none_left hself hnil)
    rcases hloop.detached hs r hr with ⟨hmem, -⟩ | hsettled
    · rw [hnil] at hmem
      exact absurd hmem List.not_mem_nil
    · exact hsettled
  | nowFreed hc =>
    rw [hcontrol] at hc
    exact Control.noConfusion hc
  | timerReal =>
    rw [userCall, hcontrol] at huser
    exact absurd huser Bool.false_ne_true
  | timerNow =>
    rw [userCall, hcontrol] at huser
    exact absurd huser Bool.false_ne_true
  | nullIpAtOnce hidle =>
    rw [hcontrol] at hidle
    exact Control.noConfusion hidle

/-- Only a return can break the loop. -/
theorem eq_ret_of_not_keepsLoop {e : DnsEvent} (h : keepsLoop d e = false) : e = .ret := by
  cases e with
  | ret => rfl
  | resolve _ => exact absurd h.symm Bool.false_ne_true
  | cancel _ => exact absurd h.symm Bool.false_ne_true
  | timer _ => exact absurd h.symm Bool.false_ne_true
  | response _ _ _ => exact absurd h.symm Bool.false_ne_true

/-- When the loop is left at the head while there are others in the list, one of them stays. -/
theorem InLoop.stays (h : InLoop l R pos real tr d) (hs : Sound d) (hmem : pos ∈ real.listReqs)
    (hother : real.listReqs ≠ [pos]) :
    ∃ r req, (d.detached pos R real).reqs r = some req ∧ req.list = some R := by
  have hne : real.listReqs.erase pos ≠ [] := by
    intro hnil
    have hlen := List.length_erase_of_mem hmem
    rw [hnil, List.length_nil] at hlen
    obtain ⟨a, ha⟩ : ∃ a, real.listReqs = [a] := by
      rw [← List.length_eq_one_iff]
      have := List.length_pos_of_mem hmem
      omega
    rw [ha, List.mem_singleton] at hmem
    rw [hmem] at hother
    exact hother ha
  obtain ⟨r, hr⟩ := List.exists_mem_of_ne_nil _ hne
  have hrne : r ≠ pos := by
    rintro rfl
    exact (hs.nodup R real h.query).not_mem_erase hr
  obtain ⟨req, hreq, hlist⟩ := hs.listed R real h.query r (List.mem_of_mem_erase hr)
  exact ⟨r, req, (Function.update_of_ne hrne _ _).trans hreq, hlist⟩

/-- **A return that does not keep to the condition** leaves a request attached, or uses a freed one. -/
theorem InCall.broken (h : InCall d0 l R d) (hbroken : keepsLoop d .ret = false) :
    wp (dnsStep .ret)
      (fun _ d' => d'.control = .idle ∧ ∃ r req, d'.reqs r = some req ∧ req.list = some R)
      (fun f d' => f = .nullIp → ∃ r req, d'.reqs r = some req ∧ req.list = some R) d := by
  have hs := h.sound
  obtain ⟨pos, n, answer, real, tr, hcontrol, htrace, hloop⟩ := h.loop
  -- if the loop stops at `pos`, another request stays attached
  have hother : n = none → pos ∈ real.listReqs →
      ∃ r req, (d.detached pos R real).reqs r = some req ∧ req.list = some R := by
    rintro rfl hmem
    refine hloop.stays hs hmem fun honly => ?_
    rw [(keepsLoop_ret_none hcontrol hloop.query).mpr honly] at hbroken
    exact Bool.false_ne_true hbroken.symm
  refine wp_mono (step_spec hs .ret) (fun _ d' ht => ?_) (fun f d' hf hnull => ?_)
  · cases ht with
    | skip hskip =>
      have hskip : d.control = .idle := hskip
      rw [hskip] at hcontrol
      exact Control.noConfusion hcontrol
    | @returned R' pos' n' answer' req real' _ hcontrol' hreq hlist hreal hto =>
      rw [hcontrol] at hcontrol'
      injection hcontrol' with hR hp hn ha
      subst hR hp hn ha
      obtain rfl : real = real' := Option.some.inj (hloop.query.symm.trans hreal)
      have hmem : pos ∈ real.listReqs := (hs.mem_iff hreal pos).mpr ⟨req, hreq, hlist⟩
      cases hto with
      | @call r req' _ hreq' _ =>
        have hreq' : Function.update d.reqs pos none r = some req' := hreq'
        rw [Function.update_apply] at hreq'
        split_ifs at hreq'
        -- the loop went on, so its next request was there: the condition held
        have hlive : d.reqs r ≠ none := by
          rw [hreq']
          exact Option.some_ne_none req'
        rw [(keepsLoop_ret_some hcontrol).mpr hlive] at hbroken
        exact absurd hbroken.symm Bool.false_ne_true
      | finish =>
        refine ⟨rfl, ?_⟩
        rw [Resolver.finished_reqs]
        exact hother rfl hmem
    | returnedNow hc =>
      rw [hcontrol] at hc
      exact Control.noConfusion hc
  · cases hf with
    | posFreed => exact absurd hnull DnsFault.noConfusion
    | nextFreed => exact absurd hnull DnsFault.noConfusion
    | nowFreed => exact absurd hnull DnsFault.noConfusion
    | @nullIp R' pos' answer' req real' hc hpos hreal =>
      rw [hcontrol] at hc
      injection hc with hR hp hn
      subst hR hp hn
      obtain rfl : real = real' := Option.some.inj (hloop.query.symm.trans hreal)
      have hok := hs.control
      rw [ControlOk, hcontrol] at hok
      obtain ⟨real1, hreal1, hhead, -⟩ := hok.real
      obtain rfl : real = real1 := Option.some.inj (hreal.symm.trans hreal1)
      exact hother rfl (List.mem_of_head? (hhead hloop.live))

/-- Outside of a call no callback does anything. -/
theorem eq_nil_of_idle {es : List DnsEvent} (hidle : d.control = .idle)
    (hes : Meets dnsStep (fun d e => userCall d e = true) es d) : es = [] := by
  cases es with
  | nil => rfl
  | cons e es =>
    rw [meets_cons] at hes
    have huser := hes.1
    rw [userCall, hidle] at huser
    exact absurd huser Bool.false_ne_true

/-- A whole call, by induction on what its callbacks do. -/
theorem InCall.answersAll_iff (es : List DnsEvent) : ∀ d, InCall d0 l R d →
    Meets dnsStep (fun d e => userCall d e = true) es d →
    (AnswersAll d0 l R es d ↔ Meets dnsStep (fun d e => keepsLoop d e = true) es d) := by
  induction es with
  | nil =>
    intro d h _
    obtain ⟨pos, n, answer, real, tr, hcontrol, htrace, hloop⟩ := h.loop
    have hnot : decide (d.control = .idle) = false := by
      rw [hcontrol]
      rfl
    rw [AnswersAll, run]
    refine ⟨fun _ => meets_nil d, fun _ => ?_⟩
    show Answered l R (since d0 d) (decide (d.control = .idle)) d
    rw [hnot, since_eq htrace]
    exact hloop.answered
  | cons e es ih =>
    intro d h hes
    rw [meets_cons] at hes
    obtain ⟨huser, hes⟩ := hes
    rw [AnswersAll, run, wp_bind, meets_cons]
    by_cases hkeeps : keepsLoop d e = true
    · have hstep := wp_mono (step_spec h.sound e) (fun _ _ ht => h.trans huser hkeeps ht)
        (fun _ _ hf => h.faults huser hkeeps hf)
      rw [and_iff_right hkeeps]
      cases hres : dnsStep e d with
      | ok a d' =>
        rw [wp_of_ok hres] at hstep hes ⊢
        rw [wp_of_ok hres]
        rcases hstep with hcall | ⟨hidle, hdone⟩
        · exact ih d' hcall hes
        · -- the call is over, so the callbacks are
          rw [eq_nil_of_idle hidle hes, run]
          refine ⟨fun _ => meets_nil d', fun _ => ?_⟩
          show Answered l R (since d0 d') (decide (d'.control = .idle)) d'
          rw [decide_eq_true hidle]
          exact hdone
      | error f d' =>
        rw [wp_of_error hres] at hstep ⊢
        rw [wp_of_error hres]
        exact ⟨fun _ => trivial, fun _ => hstep⟩
    · have hfalse : keepsLoop d e = false := Bool.not_eq_true _ ▸ hkeeps
      obtain rfl := eq_ret_of_not_keepsLoop hfalse
      have hbroken := h.broken hfalse
      refine ⟨fun hall => ?_, fun hmeets => absurd hmeets.1 hkeeps⟩
      exfalso
      cases hres : dnsStep .ret d with
      | ok a d' =>
        rw [wp_of_ok hres] at hbroken hall hes
        obtain ⟨hidle, r, req, hreq, hlist⟩ := hbroken
        rw [eq_nil_of_idle hidle hes, run] at hall
        have hall : Answered l R (since d0 d') (decide (d'.control = .idle)) d' := hall
        exact hall.left (decide_eq_true hidle) r req hreq hlist
      | error f d' =>
        rw [wp_of_error hres] at hbroken hall
        obtain ⟨r, req, hreq, hlist⟩ := hbroken hall.1
        exact hall.2.left rfl r req hreq hlist

/-- The first round of the loop. -/
theorem InCall.first (hs : Sound d) (hreal : d.realReqs R = some real) {answer : Answer}
    (hto : AnswerTo d R answer real.listReqs.head? d') (htrace : d.trace = d0.trace) :
    InCall d0 real.listReqs R d' ∨ DoneCall d0 real.listReqs R d' := by
  have htrace : d.trace = d0.trace ++ [] := by rw [htrace, List.append_nil]
  refine InCall.answerTo hs hreal hto rfl htrace (fun r hr => Or.inl ⟨?_, ?_, rfl⟩) ?_
  · rcases hr with hr | hr
    · exact hr
    · exact absurd hr List.not_mem_nil
  · exact List.not_mem_nil
  · exact fun r _ => ⟨rfl, List.not_mem_nil⟩

/-- The last timeout of a query. -/
theorem answers_timer {t : TimerId} (hR : answers d (.timer t) = some R)
    (hreal : d.realReqs R = some real) :
    d.control = .idle ∧ (∃ i, linkedNode d.ep t = some i) ∧ d.timerArgs t = some (.realReq R) ∧
      5 ≤ real.countTimeout + 1 := by
  rw [answers] at hR
  split at hR
  · rename_i i R' hidle hlinked hargs
    split_ifs at hR with hcount
    obtain rfl : R' = R := Option.some.inj hR
    rw [hreal, Option.any_some, decide_eq_true_eq] at hcount
    exact ⟨hidle, ⟨i, hlinked⟩, hargs, hcount⟩
  · exact absurd hR.symm (Option.some_ne_none R)

/-- The step that begins to answer a query. -/
theorem InCall.begin (hs : Sound d) {e : DnsEvent} (hR : answers d e = some R)
    (hreal : d.realReqs R = some real) :
    wp (dnsStep e) (fun _ d1 => InCall d real.listReqs R d1 ∨ DoneCall d real.listReqs R d1)
      (fun f _ => f = .nullIp) d := by
  refine wp_mono (step_spec hs e) (fun _ d1 ht => ?_) (fun f d1 hf => ?_)
  · cases e with
    | resolve host => exact absurd hR.symm (Option.some_ne_none R)
    | cancel r => exact absurd hR.symm (Option.some_ne_none R)
    | ret => exact absurd hR.symm (Option.some_ne_none R)
    | response host resps rcode =>
      rw [answers] at hR
      split_ifs at hR with hidle
      cases ht with
      | skip hskip =>
        rcases hskip with hskip | hskip
        · exact absurd hidle hskip
        · rw [hskip] at hR
          exact absurd hR.symm (Option.some_ne_none R)
      | @responded _ _ _ R' real' _ _ hfind hreal' hto =>
        obtain rfl : R' = R := Option.some.inj (hfind.symm.trans hR)
        obtain rfl : real' = real := Option.some.inj (hreal'.symm.trans hreal)
        exact InCall.first hs hreal hto rfl
    | timer t =>
      -- the timer answers its query only after the last retry
      obtain ⟨hidle, ⟨i, hlinked⟩, hargs, hcount⟩ := answers_timer hR hreal
      cases ht with
      | skip hskip =>
        rcases hskip with hskip | hskip | hskip
        · exact absurd hidle hskip
        · rw [hlinked] at hskip
          exact absurd hskip (Option.some_ne_none i)
        · rw [hargs] at hskip
          exact absurd hskip (Option.some_ne_none _)
      | @retried _ _ R' real' _ _ _ hargs' hreal' hcount' =>
        obtain rfl : R' = R := by
          injection Option.some.inj (hargs'.symm.trans hargs)
        obtain rfl : real' = real := Option.some.inj (hreal'.symm.trans hreal)
        omega
      | @timedOut _ _ R' real' b _ _ _ hargs' hreal' _ hb hto =>
        obtain rfl : R' = R := by
          injection Option.some.inj (hargs'.symm.trans hargs)
        obtain rfl : real' = real := Option.some.inj (hreal'.symm.trans hreal)
        have hself : (d.counted b R' real').realReqs R' =
            some { real' with countTimeout := real'.countTimeout + 1 } := Function.update_self ..
        have htrace : (d.counted b R' real').trace = d.trace := rfl
        have hfirst := InCall.first (hs.counted hb hreal) hself hto htrace
        exact hfirst
      | calledNow _ _ _ hargs' =>
        rw [hargs] at hargs'
        exact absurd (Option.some.inj hargs') TimerArgs.noConfusion
  · cases hf with
    | unterminated => exact absurd hR.symm (Option.some_ne_none R)
    | nullNode => exact absurd hR.symm (Option.some_ne_none R)
    | danglingNode => exact absurd hR.symm (Option.some_ne_none R)
    | posFreed => exact absurd hR.symm (Option.some_ne_none R)
    | nextFreed => exact absurd hR.symm (Option.some_ne_none R)
    | nullIp => rfl
    | nowFreed => exact absurd hR.symm (Option.some_ne_none R)
    | @timerReal t R' hargs' hnone =>
      obtain ⟨-, -, hargs, -⟩ := answers_timer hR hreal
      obtain rfl : R' = R := by
        injection Option.some.inj (hargs'.symm.trans hargs)
      rw [hreal] at hnone
      exact absurd hnone (Option.some_ne_none real)
    | timerNow hargs' =>
      obtain ⟨-, -, hargs, -⟩ := answers_timer hR hreal
      rw [hargs] at hargs'
      exact absurd (Option.some.inj hargs') TimerArgs.noConfusion
    | nullIpAtOnce => rfl

/-- **When an answer reaches every waiter.**  In every reachable state, let a step begin to answer a
query, with a response or at the last timeout, and let the callbacks do what they want: resolve any
host, cancel any other waiting request, and return.  Then every request that is attached to the query
at any moment of the call is called exactly once, or cancelled and not called, and none stays attached,
if and only if at each return the loop can go on with the entry it has saved. -/
theorem wp_run_answersAll_iff (history : List DnsEvent) (e : DnsEvent) (es : List DnsEvent) :
    wp (run dnsStep history)
      (fun _ d => ∀ R real, answers d e = some R → d.realReqs R = some real →
        wp (dnsStep e)
          (fun _ d1 => Meets dnsStep (fun d e => userCall d e = true) es d1 →
            (AnswersAll d real.listReqs R es d1 ↔
              Meets dnsStep (fun d e => keepsLoop d e = true) es d1))
          (fun f _ => f = .nullIp) d)
      (fun _ _ => True) .init := by
  refine wp_mono (wp_run_sound history) (fun _ d hs R real hR hreal => ?_) (fun _ _ => id)
  refine wp_mono (InCall.begin hs hR hreal) (fun _ d1 h hes => ?_) (fun _ _ hf => hf)
  rcases h with hcall | ⟨hidle, hdone⟩
  · exact InCall.answersAll_iff es d1 hcall hes
  · rw [eq_nil_of_idle hidle hes, AnswersAll, run]
    refine ⟨fun _ => meets_nil d1, fun _ => ?_⟩
    show Answered real.listReqs R (since d d1) (decide (d1.control = .idle)) d1
    rw [decide_eq_true hidle]
    exact hdone

/-- A response with one address. -/
def responseTo (host : String) : DnsEvent := .response (bytes host) [⟨1, bytes "1.2.3.4", []⟩] 0

/-- Two waiters, and a third one that joins before the first has been called and is cancelled by it. -/
theorem wp_run_answersAll_iff_two :
    wp (run dnsStep [.resolve (bytes "a"), .resolve (bytes "a"), .resolve (bytes "a")])
      (fun _ d => wp (dnsStep (responseTo "a"))
        (fun _ d1 => AnswersAll d [0, 1, 2] 0 [.cancel 2, .ret, .ret] d1) (fun _ _ => False) d)
      (fun _ _ => False) .init := by
  have hstate : wp (run dnsStep [.resolve (bytes "a"), .resolve (bytes "a"), .resolve (bytes "a")])
      (fun _ d => answers d (responseTo "a") = some 0 ∧
        (d.realReqs 0).map RealReq.listReqs = some [0, 1, 2] ∧
        wp (dnsStep (responseTo "a"))
          (fun _ d1 =>
            Meets dnsStep (fun d e => userCall d e = true) [.cancel 2, .ret, .ret] d1 ∧
            Meets dnsStep (fun d e => keepsLoop d e = true) [.cancel 2, .ret, .ret] d1)
          (fun _ _ => False) d)
      (fun _ _ => False) .init := by
    decide +kernel
  have hmain := wp_run_answersAll_iff
    [.resolve (bytes "a"), .resolve (bytes "a"), .resolve (bytes "a")] (responseTo "a")
    [.cancel 2, .ret, .ret]
  refine wp_mono (wp_and hmain hstate) ?_ (fun _ _ hE => hE.2)
  rintro - d ⟨hiff, hR, hlist, hstep⟩
  obtain ⟨real, hreal, hlist⟩ := Option.map_eq_some_iff.mp hlist
  refine wp_mono (wp_and (hiff 0 real hR hreal) hstep) ?_ (fun _ _ hE => hE.2)
  rintro - d1 ⟨hiff, huser, hkeeps⟩
  have hall := (hiff huser).mpr hkeeps
  rw [hlist] at hall
  exact hall

/-- A callback that resolves the same host again joins the query that is being answered, which the
loop does not see any more. -/
theorem not_answersAll : ¬ ∀ history e es, wp (run dnsStep history)
    (fun _ d => ∀ R real, answers d e = some R → d.realReqs R = some real →
      wp (dnsStep e)
        (fun _ d1 => Meets dnsStep (fun d e => userCall d e = true) es d1 →
          AnswersAll d real.listReqs R es d1)
        (fun f _ => f = .nullIp) d)
    (fun _ _ => True) .init := by
  intro h
  have hstate : wp (run dnsStep [.resolve (bytes "a")])
      (fun _ d => answers d (responseTo "a") = some 0 ∧
        d.realReqs 0 ≠ none ∧
        wp (dnsStep (responseTo "a"))
          (fun _ d1 =>
            Meets dnsStep (fun d e => userCall d e = true) [.resolve (bytes "a"), .ret] d1 ∧
            wp (run dnsStep [.resolve (bytes "a"), .ret])
              (fun _ d2 => d2.control = .idle ∧ (d2.reqs 1).bind DnsReq.list = some 0)
              (fun _ _ => False) d1)
          (fun _ _ => False) d)
      (fun _ _ => False) .init := by
    decide +kernel
  have hmain := h [.resolve (bytes "a")] (responseTo "a") [.resolve (bytes "a"), .ret]
  obtain ⟨-, d, hall, hR, hlive, hstep⟩ :=
    exists_of_wp (wp_mono (wp_and hmain hstate) (fun _ _ => id) (fun _ _ hE => hE.2))
  obtain ⟨real, hreal⟩ := Option.ne_none_iff_exists'.mp hlive
  obtain ⟨-, d1, hall, huser, hrun⟩ := exists_of_wp
    (wp_mono (wp_and (hall 0 real hR hreal) hstep) (fun _ _ => id) (fun _ _ hE => hE.2))
  obtain ⟨-, d2, hanswered, hidle, hlist⟩ := exists_of_wp
    (wp_mono (wp_and (hall huser) hrun) (fun _ _ => id) (fun _ _ hE => hE.2))
  obtain ⟨req, hreq, hlist⟩ := Option.bind_eq_some_iff.mp hlist
  exact hanswered.left (decide_eq_true hidle) 1 req hreq hlist

end H2ClientProxy.Dns
