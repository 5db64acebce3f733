import H2ClientProxy.Equiv.DnsTables
import H2ClientProxy.Equiv.TimerView

/-!
# The steps of the resolver

What a step of the resolver can do, said once: `DnsTrans` lists the ways in which it returns, and
`DnsFaults` those in which it goes wrong.

* `Sound`: what is always true of the objects of `dns.c`.  The waiters of a query and their queries
  point to each other; a request that does not wait, and every query, has a timer of its own, whose
  flag says that it is pending; and a loop that is waiting for a callback is at the head of its list.
* `step_spec`: from a sound state, a step is one of these.
* `wp_run_sound`: all states of all runs are sound.
-/

namespace H2ClientProxy.Dns

open Wp Machine Ep

variable {d d' : Resolver}

/-! ### What a step does -/

/-- The callback of `r` is called. -/
def isCall (r : ReqId) : DnsObs → Bool
  | .called r' _ => r' = r
  | _ => false

namespace Resolver

/-- A request that a timer answers at once. -/
def resolvedNow (d : Resolver) (text : Bytes) (b : EpBase) (t : TimerId) (result : RightResult) :
    Resolver :=
  (((d.setNtoaBuf text).setEp b).setTimerArgs t (.rightnow d.nextReq)).addReq
    { tmrRightCallback := some t, rightResult := some result }

/-- A new query, which is sent. -/
def started (d : Resolver) (host : Bytes) (b : EpBase) (t : TimerId) : Resolver :=
  (((d.addReal { host := host, timer := some t } (dnsHashStr host)).setEp b).setTimerArgs t
    (.realReq d.nextReal)).log (.sendReq host)

/-- A request that waits for a query. -/
def joined (d : Resolver) (R : RealId) (real : RealReq) : Resolver :=
  ((d.addReq { list := some R }).setReal R
    { real with listReqs := real.listReqs ++ [d.nextReq] }).log (.waits d.nextReq R)

/-- A request is unlinked and freed. -/
def detached (d : Resolver) (r : ReqId) (R : RealId) (real : RealReq) : Resolver :=
  (d.setReal R { real with listReqs := real.listReqs.erase r }).freeReq r

/-- A query is answered to one of its requests. -/
def calledBack (d : Resolver) (R : RealId) (real : RealReq) (r : ReqId) (answer : Answer) :
    Resolver :=
  (d.log (.called r answer)).setControl (.answering R r (nextOf real.listReqs r) answer)

/-- The cache after an answer. -/
def cached (d : Resolver) (host : Bytes) (answer : Answer) : Resolver :=
  match answer.ips.head? with
  | none => d
  | some ip =>
    if answer.retCode = 0 ∧ dnsCacheFind d host = none then
      d.addRecord { host := host, ip := strncpy ip 64, cname := strncpy answer.cname 64 }
        (dnsHashCacheStr host)
    else d

/-- The end of an answer. -/
def finished (d : Resolver) (R : RealId) (real : RealReq) (answer : Answer) (b : EpBase) : Resolver :=
  (((d.cached real.host answer).setEp b).removeReal R (dnsHashStr real.host)).setControl .idle

/-- The timer of a query has fired. -/
def counted (d : Resolver) (b : EpBase) (R : RealId) (real : RealReq) : Resolver :=
  (d.setEp b).setReal R { real with countTimeout := real.countTimeout + 1 }

/-- The timer of a request that is answered at once has fired. -/
def calledNow (d : Resolver) (b : EpBase) (r : ReqId) (answer : Answer) : Resolver :=
  ((d.setEp b).log (.called r answer)).setControl (.rightnow r)

/-- The callback of such a request has returned. -/
def returnedNow (d : Resolver) (b : EpBase) (r : ReqId) : Resolver :=
  ((d.setEp b).freeReq r).setControl .idle

end Resolver

/-- A success that has no address to offer. -/
def Answer.NoAddress (answer : Answer) : Prop := answer.retCode = 0 ∧ answer.ips = []

/-- The round of the loop that `answerAt` runs: a callback, or the end. -/
inductive AnswerTo (d : Resolver) (R : RealId) (answer : Answer) : Option ReqId → Resolver → Prop where
  | call {r : ReqId} {req : DnsReq} {real : RealReq} (hreq : d.reqs r = some req)
      (hreal : d.realReqs R = some real) :
      AnswerTo d R answer (some r) (d.calledBack R real r answer)
  | finish {real : RealReq} {b : EpBase} {t : TimerId} (hreal : d.realReqs R = some real)
      (ht : real.timer = some t) (hb : Views b (Function.update (view d.ep) t none))
      (haddress : ¬ answer.NoAddress) : AnswerTo d R answer none (d.finished R real answer b)

/-- Nothing happens. -/
def Ignored (d : Resolver) : DnsEvent → Prop
  | .resolve _ => False
  | .cancel r => d.reqs r = none
  | .ret => d.control = .idle
  | .timer t => d.control ≠ .idle ∨ linkedNode d.ep t = none ∨ d.timerArgs t = none
  | .response host _ _ => d.control ≠ .idle ∨ dnsRealReqFind d (cstr host) = none

/-- What a step does when it returns. -/
inductive DnsTrans (d : Resolver) : DnsEvent → Resolver → Prop where
  | skip {e : DnsEvent} (hskip : Ignored d e) : DnsTrans d e d
  | resolvedNow (host text : Bytes) {b : EpBase} {t : TimerId} (result : RightResult)
      (ht : view d.ep t = none)
      (hb : Views b (Function.update (view d.ep) t (some ⟨true, true⟩))) :
      DnsTrans d (.resolve host) (d.resolvedNow text b t result)
  | joined {host : Bytes} {R : RealId} {real : RealReq}
      (hfind : dnsRealReqFind d (cstr host) = some R) (hreal : d.realReqs R = some real) :
      DnsTrans d (.resolve host) (d.joined R real)
  | queried {host : Bytes} {b : EpBase} {t : TimerId}
      (hcache : dnsCacheFind d (cstr host) = none) (hfind : dnsRealReqFind d (cstr host) = none)
      (ht : view d.ep t = none)
      (hb : Views b (Function.update (view d.ep) t (some ⟨true, true⟩))) :
      DnsTrans d (.resolve host) ((d.started (cstr host) b t).joined d.nextReal
        { host := cstr host, timer := some t })
  | cancelled {r : ReqId} {req : DnsReq} {R : RealId} {real : RealReq} (hreq : d.reqs r = some req)
      (hlist : req.list = some R) (hreal : d.realReqs R = some real) :
      DnsTrans d (.cancel r) ((d.detached r R real).log (.cancelled r))
  | returned {R : RealId} {pos : ReqId} {n : Option ReqId} {answer : Answer} {req : DnsReq}
      {real : RealReq} {d' : Resolver} (hcontrol : d.control = .answering R pos n answer)
      (hreq : d.reqs pos = some req) (hlist : req.list = some R) (hreal : d.realReqs R = some real)
      (hto : AnswerTo (d.detached pos R real) R answer n d') :
      DnsTrans d .ret d'
  | returnedNow {r : ReqId} {req : DnsReq} {b : EpBase} {t : TimerId}
      (hcontrol : d.control = .rightnow r) (hreq : d.reqs r = some req)
      (hlist : req.list = none) (ht : d.timerArgs t = some (.rightnow r))
      (hb : Views b (Function.update (view d.ep) t none)) :
      DnsTrans d .ret (d.returnedNow b r)
  | responded {host : Bytes} {resps : List ResponseRecord} {rcode : ℕ} {R : RealId}
      {real : RealReq} {d' : Resolver} (hidle : d.control = .idle)
      (hfind : dnsRealReqFind d (cstr host) = some R) (hreal : d.realReqs R = some real)
      (hto : AnswerTo d R (answerOf resps rcode) real.listReqs.head? d') :
      DnsTrans d (.response host resps rcode) d'
  | retried {t : TimerId} {i : InfoId} {R : RealId} {real : RealReq} {b : EpBase}
      (hidle : d.control = .idle) (hlinked : linkedNode d.ep t = some i)
      (hargs : d.timerArgs t = some (.realReq R)) (hreal : d.realReqs R = some real)
      (hcount : real.countTimeout + 1 < 5)
      (hb : Views b (Function.update (view d.ep) t (some ⟨true, false⟩))) :
      DnsTrans d (.timer t) (d.counted b R real)
  | timedOut {t : TimerId} {i : InfoId} {R : RealId} {real : RealReq} {b : EpBase} {d' : Resolver}
      (hidle : d.control = .idle) (hlinked : linkedNode d.ep t = some i)
      (hargs : d.timerArgs t = some (.realReq R)) (hreal : d.realReqs R = some real)
      (hcount : 5 ≤ real.countTimeout + 1)
      (hb : Views b (Function.update (view d.ep) t (some ⟨true, false⟩)))
      (hto : AnswerTo (d.counted b R real) R (answerOf [] (-1)) real.listReqs.head? d') :
      DnsTrans d (.timer t) d'
  | calledNow {t : TimerId} {i : InfoId} {r : ReqId} {req : DnsReq} {b : EpBase} (answer : Answer)
      (hidle : d.control = .idle) (hlinked : linkedNode d.ep t = some i)
      (hargs : d.timerArgs t = some (.rightnow r)) (hreq : d.reqs r = some req)
      (hb : Views b (Function.update (view d.ep) t (some ⟨true, false⟩))) :
      DnsTrans d (.timer t) (d.calledNow b r answer)

/-- How a step goes wrong.  Nothing is seen from outside of such a step. -/
inductive DnsFaults (d : Resolver) : DnsEvent → DnsFault → Resolver → Prop where
  | unterminated {host : Bytes} (hlen : 256 ≤ (cstr host).length) :
      DnsFaults d (.resolve host) .unterminated d
  | nullNode {r : ReqId} {req : DnsReq} (hreq : d.reqs r = some req) (hlist : req.list = none) :
      DnsFaults d (.cancel r) (.nullNode r) d
  | danglingNode {r : ReqId} {req : DnsReq} {R : RealId} (hreq : d.reqs r = some req)
      (hlist : req.list = some R) (hreal : d.realReqs R = none) :
      DnsFaults d (.cancel r) (.danglingNode r) d
  | posFreed {R : RealId} {pos : ReqId} {n : Option ReqId} {answer : Answer}
      (hcontrol : d.control = .answering R pos n answer) (hreq : d.reqs pos = none) :
      DnsFaults d .ret (.reqFreed pos) d
  | nextFreed {R : RealId} {pos r : ReqId} {answer : Answer} {req : DnsReq} {real : RealReq}
      (hcontrol : d.control = .answering R pos (some r) answer) (hpos : d.reqs pos = some req)
      (hreq : d.reqs r = none) : DnsFaults d .ret (.reqFreed r) (d.detached pos R real)
  /-- The loop is over, and the answer has no address. -/
  | nullIp {R : RealId} {pos : ReqId} {answer : Answer} {req : DnsReq} {real : RealReq}
      (hcontrol : d.control = .answering R pos none answer) (hpos : d.reqs pos = some req)
      (hreal : d.realReqs R = some real) (hnone : answer.NoAddress) :
      DnsFaults d .ret .nullIp (d.detached pos R real)
  | nowFreed {r : ReqId} (hcontrol : d.control = .rightnow r) (hreq : d.reqs r = none) :
      DnsFaults d .ret (.reqFreed r) d
  | timerReal {t : TimerId} {R : RealId} (hargs : d.timerArgs t = some (.realReq R))
      (hreal : d.realReqs R = none) (b : EpBase) : DnsFaults d (.timer t) (.realFreed R) (d.setEp b)
  | timerNow {t : TimerId} {r : ReqId} (hargs : d.timerArgs t = some (.rightnow r))
      (hreq : d.reqs r = none) (b : EpBase) : DnsFaults d (.timer t) (.reqFreed r) (d.setEp b)
  | nullIpAtOnce {host : Bytes} {resps : List ResponseRecord} {rcode : ℕ}
      (hidle : d.control = .idle) (hnone : (answerOf resps rcode).NoAddress) :
      DnsFaults d (.response host resps rcode) .nullIp d

/-! ### What is always true -/

/-- The loop that waits for the callback of `pos`: `pos` is the head of the list, and the entry it will
go on with is the next one, as long as they have not been freed. -/
structure LoopAt (d : Resolver) (R : RealId) (pos : ReqId) (n : Option ReqId) (answer : Answer) :
    Prop where
  called : .called pos answer ∈ d.trace
  pos_lt : pos < d.nextReq
  real : ∃ real, d.realReqs R = some real ∧ (d.reqs pos ≠ none → real.listReqs.head? = some pos) ∧
    ∀ r, n = some r → d.reqs r ≠ none → (real.listReqs.erase pos).head? = some r
  next_lt : ∀ r, n = some r → r < d.nextReq
  next_ne : ∀ r, n = some r → r ≠ pos

/-- The callback that is running. -/
def ControlOk (d : Resolver) : Prop :=
  match d.control with
  | .idle => True
  | .answering R pos n answer => LoopAt d R pos n answer
  | .rightnow r => (∃ answer, .called r answer ∈ d.trace) ∧ r < d.nextReq ∧
    ∀ req, d.reqs r = some req → req.list = none

structure Sound (d : Resolver) : Prop where
  tables : Tables d
  ep : EpOk d.ep
  reqFresh : ∀ r, d.nextReq ≤ r → d.reqs r = none
  noRealReq : ∀ r req, d.reqs r = some req → req.realReq = none
  waiting : ∀ r req R, d.reqs r = some req → req.list = some R →
    R < d.nextReal ∧ req.tmrRightCallback = none ∧
      ∀ real, d.realReqs R = some real → r ∈ real.listReqs
  rightnow : ∀ r req, d.reqs r = some req → req.list = none →
    ∃ t l, req.tmrRightCallback = some t ∧ d.timerArgs t = some (.rightnow r) ∧
      view d.ep t = some ⟨true, l⟩
  nodup : ∀ R real, d.realReqs R = some real → real.listReqs.Nodup
  listed : ∀ R real, d.realReqs R = some real → ∀ r ∈ real.listReqs,
    ∃ req, d.reqs r = some req ∧ req.list = some R
  timer : ∀ R real, d.realReqs R = some real →
    ∃ t l, real.timer = some t ∧ d.timerArgs t = some (.realReq R) ∧ view d.ep t = some ⟨true, l⟩
  argsReal : ∀ t R, d.timerArgs t = some (.realReq R) →
    R < d.nextReal ∧ ∀ real, d.realReqs R = some real → real.timer = some t
  args : ∀ t r, d.timerArgs t = some (.rightnow r) → r < d.nextReq ∧
    ∀ req, d.reqs r = some req → req.list = none ∧ req.tmrRightCallback = some t
  control : ControlOk d

theorem sound_init : Sound .init where
  tables := tables_init
  ep := epOk_init
  reqFresh := fun _ _ => rfl
  noRealReq := fun _ _ h => absurd h.symm (Option.some_ne_none _)
  waiting := fun _ _ _ h => absurd h.symm (Option.some_ne_none _)
  rightnow := fun _ _ h => absurd h.symm (Option.some_ne_none _)
  nodup := fun _ _ h => absurd h.symm (Option.some_ne_none _)
  listed := fun _ _ h => absurd h.symm (Option.some_ne_none _)
  timer := fun _ _ h => absurd h.symm (Option.some_ne_none _)
  argsReal := fun _ _ h => absurd h.symm (Option.some_ne_none _)
  args := fun _ _ h => absurd h.symm (Option.some_ne_none _)
  control := trivial

theorem Sound.req_lt (h : Sound d) {r : ReqId} {req : DnsReq} (hr : d.reqs r = some req) :
    r < d.nextReq := by
  by_contra hge
  have hnone := h.reqFresh r (Nat.le_of_not_lt hge)
  rw [hr] at hnone
  exact Option.some_ne_none req hnone

theorem Sound.real_lt (h : Sound d) {R : RealId} {real : RealReq} (hR : d.realReqs R = some real) :
    R < d.nextReal := by
  by_contra hge
  have hnone := h.tables.fresh R (Nat.le_of_not_lt hge)
  rw [hR] at hnone
  exact Option.some_ne_none real hnone

/-- The waiters of a query are the requests whose node is in its list. -/
theorem Sound.mem_iff (h : Sound d) {R : RealId} {real : RealReq} (hR : d.realReqs R = some real)
    (r : ReqId) : r ∈ real.listReqs ↔ ∃ req, d.reqs r = some req ∧ req.list = some R := by
  constructor
  · exact h.listed R real hR r
  · rintro ⟨req, hreq, hlist⟩
    exact (h.waiting r req R hreq hlist).2.2 real hR

/-! ### The parts of a step keep it -/

section Lists

variable {α : Type} {l : List α} {a x : α}

theorem head?_append_of_eq_some (h : l.head? = some a) (m : List α) : (l ++ m).head? = some a := by
  obtain ⟨rest, rfl⟩ := List.head?_eq_some_iff.mp h
  rfl

variable [DecidableEq α]

theorem head?_erase_of_ne (h : l.head? = some a) (hne : a ≠ x) : (l.erase x).head? = some a := by
  obtain ⟨rest, rfl⟩ := List.head?_eq_some_iff.mp h
  rw [List.erase_cons_tail (by simpa using hne)]
  rfl

theorem head?_erase_append (h : (l.erase x).head? = some a) (m : List α) :
    ((l ++ m).erase x).head? = some a := by
  rw [List.erase_append]
  split_ifs with hx
  · exact head?_append_of_eq_some h m
  · rw [List.erase_of_not_mem hx] at h
    exact head?_append_of_eq_some h _

end Lists

/-- The lists may grow at the end, and lose requests that are freed. -/
theorem ControlOk.of_frame (h : ControlOk d) (hcontrol : d'.control = d.control)
    (htrace : ∀ o ∈ d.trace, o ∈ d'.trace) (hnext : d.nextReq ≤ d'.nextReq)
    (hreqs : ∀ r req, r < d.nextReq → d'.reqs r = some req → d.reqs r = some req)
    (hreal : ∀ R real, d.realReqs R = some real → ∃ real', d'.realReqs R = some real' ∧
      (∀ r, d'.reqs r ≠ none → real.listReqs.head? = some r → real'.listReqs.head? = some r) ∧
      ∀ pos r, d'.reqs r ≠ none → (real.listReqs.erase pos).head? = some r →
        (real'.listReqs.erase pos).head? = some r) : ControlOk d' := by
  have hlive : ∀ r, r < d.nextReq → d'.reqs r ≠ none → d.reqs r ≠ none := by
    intro r hlt hr
    obtain ⟨req, hreq⟩ := Option.ne_none_iff_exists'.mp hr
    rw [hreqs r req hlt hreq]
    exact Option.some_ne_none req
  unfold ControlOk at h ⊢
  rw [hcontrol]
  cases hc : d.control with
  | idle => trivial
  | answering R pos n answer =>
    simp only [hc] at h ⊢
    obtain ⟨real, hR, hhead, hn⟩ := h.real
    obtain ⟨real', hR', hhead', hn'⟩ := hreal R real hR
    refine ⟨htrace _ h.called, Nat.lt_of_lt_of_le h.pos_lt hnext, ⟨real', hR', ?_, ?_⟩, ?_,
      h.next_ne⟩
    · exact fun hpos => hhead' pos hpos (hhead (hlive pos h.pos_lt hpos))
    · exact fun r hr hr' => hn' pos r hr' (hn r hr (hlive r (h.next_lt r hr) hr'))
    · exact fun r hr => Nat.lt_of_lt_of_le (h.next_lt r hr) hnext
  | rightnow r =>
    simp only [hc] at h ⊢
    obtain ⟨⟨answer, hcalled⟩, hlt, hlist⟩ := h
    refine ⟨⟨answer, htrace _ hcalled⟩, Nat.lt_of_lt_of_le hlt hnext, fun req hreq => ?_⟩
    exact hlist req (hreqs r req hlt hreq)

theorem Sound.log (h : Sound d) (o : DnsObs) : Sound (d.log o) where
  tables := h.tables.of_eq rfl rfl rfl rfl
  ep := h.ep
  reqFresh := h.reqFresh
  noRealReq := h.noRealReq
  waiting := h.waiting
  rightnow := h.rightnow
  nodup := h.nodup
  listed := h.listed
  timer := h.timer
  argsReal := h.argsReal
  args := h.args
  control := h.control.of_frame rfl (fun _ ho => List.mem_append_left _ ho) (Nat.le_refl _)
    (fun _ _ _ => id) fun _ real hR => ⟨real, hR, fun _ _ => id, fun _ _ _ => id⟩

theorem Sound.setControl (h : Sound d) {control : Control}
    (hcontrol : ControlOk (d.setControl control)) : Sound (d.setControl control) where
  tables := h.tables.of_eq rfl rfl rfl rfl
  ep := h.ep
  reqFresh := h.reqFresh
  noRealReq := h.noRealReq
  waiting := h.waiting
  rightnow := h.rightnow
  nodup := h.nodup
  listed := h.listed
  timer := h.timer
  argsReal := h.argsReal
  args := h.args
  control := hcontrol

/-- The timers keep their flags. -/
theorem Sound.setEp (h : Sound d) {b : EpBase} (hb : EpOk b)
    (hkeep : ∀ t l, view d.ep t = some ⟨true, l⟩ → ∃ l', view b t = some ⟨true, l'⟩) :
    Sound (d.setEp b) where
  tables := h.tables.of_eq rfl rfl rfl rfl
  ep := hb
  reqFresh := h.reqFresh
  noRealReq := h.noRealReq
  waiting := h.waiting
  rightnow := by
    intro r req hreq hlist
    obtain ⟨t, l, ht, hargs, hv⟩ := h.rightnow r req hreq hlist
    obtain ⟨l', hv'⟩ := hkeep t l hv
    exact ⟨t, l', ht, hargs, hv'⟩
  nodup := h.nodup
  listed := h.listed
  timer := by
    intro R real hR
    obtain ⟨t, l, ht, hargs, hv⟩ := h.timer R real hR
    obtain ⟨l', hv'⟩ := hkeep t l hv
    exact ⟨t, l', ht, hargs, hv'⟩
  argsReal := h.argsReal
  args := h.args
  control := h.control.of_frame rfl (fun _ => id) (Nat.le_refl _) (fun _ _ _ => id)
    fun _ real hR => ⟨real, hR, fun _ _ => id, fun _ _ _ => id⟩

/-- A query keeps its host, its timer and its waiters. -/
theorem Sound.setReal (h : Sound d) {R : RealId} {real real' : RealReq}
    (hR : d.realReqs R = some real) (hhost : real'.host = real.host)
    (hlist : real'.listReqs = real.listReqs) (htimer : real'.timer = real.timer) :
    Sound (d.setReal R real') := by
  have hof : ∀ R1 x, (d.setReal R real').realReqs R1 = some x → ∃ y, d.realReqs R1 = some y ∧
      x.listReqs = y.listReqs ∧ x.timer = y.timer := by
    intro R1 x hx
    rw [Resolver.setReal_realReqs, Function.update_apply] at hx
    split_ifs at hx with he
    · rw [Option.some.injEq] at hx
      exact ⟨real, he ▸ hR, hx ▸ hlist, hx ▸ htimer⟩
    · exact ⟨x, hx, rfl, rfl⟩
  constructor
  · exact h.tables.setReal hR hhost
  · exact h.ep
  · exact h.reqFresh
  · exact h.noRealReq
  · -- `waiting`
    intro r req R1 hreq hl
    refine ⟨(h.waiting r req R1 hreq hl).1, (h.waiting r req R1 hreq hl).2.1, fun x hx => ?_⟩
    obtain ⟨y, hy, hly, -⟩ := hof R1 x hx
    rw [hly]
    exact (h.waiting r req R1 hreq hl).2.2 y hy
  · exact h.rightnow
  · -- `nodup`
    intro R1 x hx
    obtain ⟨y, hy, hly, -⟩ := hof R1 x hx
    rw [hly]
    exact h.nodup R1 y hy
  · -- `listed`
    intro R1 x hx
    obtain ⟨y, hy, hly, -⟩ := hof R1 x hx
    rw [hly]
    exact h.listed R1 y hy
  · -- `timer`
    intro R1 x hx
    obtain ⟨y, hy, -, hty⟩ := hof R1 x hx
    rw [hty]
    exact h.timer R1 y hy
  · -- `argsReal`
    intro t R1 ht
    refine ⟨(h.argsReal t R1 ht).1, fun x hx => ?_⟩
    obtain ⟨y, hy, -, hty⟩ := hof R1 x hx
    rw [hty]
    exact (h.argsReal t R1 ht).2 y hy
  · exact h.args
  · -- `control`
    refine h.control.of_frame rfl (fun _ => id) (Nat.le_refl _) (fun _ _ _ => id) fun R1 y hy => ?_
    rw [Resolver.setReal_realReqs, Function.update_apply]
    split_ifs with he
    · subst he
      rw [hR, Option.some.injEq] at hy
      subst hy
      rw [← hlist]
      exact ⟨real', rfl, fun _ _ => id, fun _ _ _ => id⟩
    · exact ⟨y, hy, fun _ _ => id, fun _ _ _ => id⟩

/-- A waiter is unlinked and freed. -/
theorem Sound.detached (h : Sound d) {r : ReqId} {req : DnsReq} {R : RealId} {real : RealReq}
    (hreq : d.reqs r = some req) (hlist : req.list = some R) (hR : d.realReqs R = some real) :
    Sound (d.detached r R real) := by
  -- the requests and the queries after it
  have hreqs : ∀ r1 x, (d.detached r R real).reqs r1 = some x → r1 ≠ r ∧ d.reqs r1 = some x := by
    intro r1 x hx
    have hx : Function.update d.reqs r none r1 = some x := hx
    rw [Function.update_apply] at hx
    split_ifs at hx with he
    exact ⟨he, hx⟩
  have hreals : ∀ R1 x, (d.detached r R real).realReqs R1 = some x →
      ∃ y, d.realReqs R1 = some y ∧ x.listReqs = y.listReqs.erase r ∧ x.timer = y.timer := by
    intro R1 x hx
    have hx : Function.update d.realReqs R
      (some { real with listReqs := real.listReqs.erase r }) R1 = some x := hx
    rw [Function.update_apply] at hx
    split_ifs at hx with he
    · rw [Option.some.injEq] at hx
      exact ⟨real, he ▸ hR, hx ▸ rfl, hx ▸ rfl⟩
    · refine ⟨x, hx, ?_, rfl⟩
      -- the request is in no other list
      rw [List.erase_of_not_mem]
      intro hmem
      obtain ⟨req', hreq', hlist'⟩ := h.listed R1 x hx r hmem
      rw [hreq, Option.some.injEq] at hreq'
      rw [← hreq', hlist, Option.some.injEq] at hlist'
      exact he hlist'.symm
  constructor
  · -- `tables`
    have h1 : Tables (d.setReal R { real with listReqs := real.listReqs.erase r }) :=
      h.tables.setReal hR rfl
    exact h1.of_eq rfl rfl rfl rfl
  · exact h.ep
  · -- `reqFresh`
    intro r1 hr1
    show Function.update d.reqs r none r1 = none
    rw [Function.update_apply]
    split_ifs
    · rfl
    · exact h.reqFresh r1 hr1
  · exact fun r1 x hx => h.noRealReq r1 x (hreqs r1 x hx).2
  · -- `waiting`
    intro r1 x R1 hx hl
    obtain ⟨hne, hx⟩ := hreqs r1 x hx
    obtain ⟨hlt, ht, hmem⟩ := h.waiting r1 x R1 hx hl
    refine ⟨hlt, ht, fun y hy => ?_⟩
    obtain ⟨z, hz, hlz, -⟩ := hreals R1 y hy
    rw [hlz]
    exact (List.mem_erase_of_ne hne).mpr (hmem z hz)
  · exact fun r1 x hx => h.rightnow r1 x (hreqs r1 x hx).2
  · -- `nodup`
    intro R1 x hx
    obtain ⟨y, hy, hly, -⟩ := hreals R1 x hx
    rw [hly]
    exact (h.nodup R1 y hy).erase r
  · -- `listed`
    intro R1 x hx r1 hr1
    obtain ⟨y, hy, hly, -⟩ := hreals R1 x hx
    rw [hly] at hr1
    have hne : r1 ≠ r := by
      rintro rfl
      exact (h.nodup R1 y hy).not_mem_erase hr1
    obtain ⟨z, hz, hlz⟩ := h.listed R1 y hy r1 (List.mem_of_mem_erase hr1)
    refine ⟨z, ?_, hlz⟩
    show Function.update d.reqs r none r1 = some z
    rw [Function.update_of_ne hne]
    exact hz
  · -- `timer`
    intro R1 x hx
    obtain ⟨y, hy, -, hty⟩ := hreals R1 x hx
    rw [hty]
    exact h.timer R1 y hy
  · -- `argsReal`
    intro t R1 ht
    refine ⟨(h.argsReal t R1 ht).1, fun x hx => ?_⟩
    obtain ⟨y, hy, -, hty⟩ := hreals R1 x hx
    rw [hty]
    exact (h.argsReal t R1 ht).2 y hy
  · exact fun t r1 ht => ⟨(h.args t r1 ht).1, fun x hx => (h.args t r1 ht).2 x (hreqs r1 x hx).2⟩
  · -- `control`
    have hne : ∀ r1, (d.detached r R real).reqs r1 ≠ none → r1 ≠ r := by
      intro r1 hr1
      obtain ⟨x, hx⟩ := Option.ne_none_iff_exists'.mp hr1
      exact (hreqs r1 x hx).1
    refine h.control.of_frame rfl (fun _ => id) (Nat.le_refl _)
      (fun r1 x _ hx => (hreqs r1 x hx).2) ?_
    intro R1 y hy
    show ∃ real', Function.update d.realReqs R _ R1 = some real' ∧ _
    rw [Function.update_apply]
    split_ifs with he
    · subst he
      rw [hR, Option.some.injEq] at hy
      subst hy
      refine ⟨_, rfl, ?_, ?_⟩
      · exact fun r1 hr1 hhead => head?_erase_of_ne hhead (hne r1 hr1)
      · intro pos r1 hr1 hhead
        show ((real.listReqs.erase r).erase pos).head? = some r1
        rw [List.erase_comm]
        exact head?_erase_of_ne hhead (hne r1 hr1)
    · exact ⟨y, hy, fun _ _ => id, fun _ _ _ => id⟩

/-- A new request, and what the old ones are like. -/
theorem Sound.addReq_reqs (h : Sound d) {new : DnsReq} {r : ReqId} {x : DnsReq}
    (hx : (d.addReq new).reqs r = some x) :
    r = d.nextReq ∧ x = new ∨ r < d.nextReq ∧ d.reqs r = some x := by
  rw [Resolver.addReq_reqs, Function.update_apply] at hx
  split_ifs at hx with he
  · exact Or.inl ⟨he, (Option.some.inj hx).symm⟩
  · exact Or.inr ⟨h.req_lt hx, hx⟩

theorem Sound.joined (h : Sound d) {R : RealId} {real : RealReq} (hR : d.realReqs R = some real) :
    Sound (d.joined R real) := by
  have hreqs : ∀ r1 x, (d.joined R real).reqs r1 = some x →
      r1 = d.nextReq ∧ x = { list := some R } ∨ r1 < d.nextReq ∧ d.reqs r1 = some x :=
    fun r1 x hx => h.addReq_reqs hx
  have hold : ∀ r1 x, d.reqs r1 = some x → (d.joined R real).reqs r1 = some x := by
    intro r1 x hx
    show Function.update d.reqs d.nextReq _ r1 = some x
    rw [Function.update_of_ne (Nat.ne_of_lt (h.req_lt hx))]
    exact hx
  have hself : (d.joined R real).reqs d.nextReq = some { list := some R } :=
    Function.update_self ..
  have hnew : ∀ R1 y, d.realReqs R1 = some y → d.nextReq ∉ y.listReqs := by
    intro R1 y hy hmem
    obtain ⟨x, hx, -⟩ := h.listed R1 y hy _ hmem
    exact absurd (h.req_lt hx) (Nat.lt_irrefl _)
  have hreals : ∀ R1 x, (d.joined R real).realReqs R1 = some x →
      (R1 = R ∧ x = { real with listReqs := real.listReqs ++ [d.nextReq] }) ∨
        (R1 ≠ R ∧ d.realReqs R1 = some x) := by
    intro R1 x hx
    have hx : Function.update d.realReqs R
      (some { real with listReqs := real.listReqs ++ [d.nextReq] }) R1 = some x := hx
    rw [Function.update_apply] at hx
    split_ifs at hx with he
    · exact Or.inl ⟨he, (Option.some.inj hx).symm⟩
    · exact Or.inr ⟨he, hx⟩
  constructor
  · -- `tables`
    have h1 : Tables (d.setReal R { real with listReqs := real.listReqs ++ [d.nextReq] }) :=
      h.tables.setReal hR rfl
    exact h1.of_eq rfl rfl rfl rfl
  · exact h.ep
  · -- `reqFresh`
    intro r1 hr1
    have hlt : d.nextReq < r1 := hr1
    show Function.update d.reqs d.nextReq _ r1 = none
    rw [Function.update_of_ne (Nat.ne_of_gt hlt)]
    exact h.reqFresh r1 (Nat.le_of_lt hlt)
  · -- `noRealReq`
    intro r1 x hx
    rcases hreqs r1 x hx with ⟨-, rfl⟩ | ⟨-, hx⟩
    · rfl
    · exact h.noRealReq r1 x hx
  · -- `waiting`
    intro r1 x R1 hx hl
    rcases hreqs r1 x hx with ⟨rfl, rfl⟩ | ⟨-, hx⟩
    · obtain rfl : R = R1 := Option.some.inj hl
      refine ⟨h.real_lt hR, rfl, fun y hy => ?_⟩
      rcases hreals R y hy with ⟨-, rfl⟩ | ⟨hne, -⟩
      · exact List.mem_append_right _ (List.mem_singleton_self _)
      · exact absurd rfl hne
    · obtain ⟨hlt, ht, hmem⟩ := h.waiting r1 x R1 hx hl
      refine ⟨hlt, ht, fun y hy => ?_⟩
      rcases hreals R1 y hy with ⟨rfl, rfl⟩ | ⟨-, hy⟩
      · exact List.mem_append_left _ (hmem real hR)
      · exact hmem y hy
  · -- `rightnow`
    intro r1 x hx hl
    rcases hreqs r1 x hx with ⟨-, rfl⟩ | ⟨-, hx⟩
    · exact absurd hl (Option.some_ne_none R)
    · exact h.rightnow r1 x hx hl
  · -- `nodup`
    intro R1 y hy
    rcases hreals R1 y hy with ⟨-, rfl⟩ | ⟨-, hy⟩
    · refine List.nodup_append.mpr ⟨h.nodup R real hR, List.nodup_singleton _, ?_⟩
      rintro x hx y hy rfl
      rw [List.mem_singleton] at hy
      exact hnew R real hR (hy ▸ hx)
    · exact h.nodup R1 y hy
  · -- `listed`
    intro R1 y hy r1 hr1
    rcases hreals R1 y hy with ⟨rfl, rfl⟩ | ⟨-, hy⟩
    · rcases List.mem_append.mp hr1 with hr1 | hr1
      · obtain ⟨x, hx, hl⟩ := h.listed R1 real hR r1 hr1
        exact ⟨x, hold r1 x hx, hl⟩
      · rw [List.mem_singleton.mp hr1]
        exact ⟨_, hself, rfl⟩
    · obtain ⟨x, hx, hl⟩ := h.listed R1 y hy r1 hr1
      exact ⟨x, hold r1 x hx, hl⟩
  · -- `timer`
    intro R1 y hy
    rcases hreals R1 y hy with ⟨rfl, rfl⟩ | ⟨-, hy⟩
    · exact h.timer R1 real hR
    · exact h.timer R1 y hy
  · -- `argsReal`
    intro t R1 ht
    refine ⟨(h.argsReal t R1 ht).1, fun y hy => ?_⟩
    rcases hreals R1 y hy with ⟨rfl, rfl⟩ | ⟨-, hy⟩
    · exact (h.argsReal t R1 ht).2 real hR
    · exact (h.argsReal t R1 ht).2 y hy
  · -- `args`
    intro t r1 ht
    obtain ⟨hlt, hl⟩ := h.args t r1 ht
    refine ⟨Nat.lt_succ_of_lt hlt, fun x hx => ?_⟩
    rcases hreqs r1 x hx with ⟨rfl, -⟩ | ⟨-, hx⟩
    · exact absurd hlt (Nat.lt_irrefl _)
    · exact hl x hx
  · -- `control`
    refine h.control.of_frame rfl (fun _ ho => List.mem_append_left _ ho) (Nat.le_succ _) ?_ ?_
    · intro r1 x hlt hx
      rcases hreqs r1 x hx with ⟨rfl, -⟩ | ⟨-, hx⟩
      · exact absurd hlt (Nat.lt_irrefl _)
      · exact hx
    · intro R1 y hy
      show ∃ real', Function.update d.realReqs R _ R1 = some real' ∧ _
      rw [Function.update_apply]
      split_ifs with he
      · subst he
        rw [hR, Option.some.injEq] at hy
        subst hy
        exact ⟨_, rfl, fun _ _ hhead => head?_append_of_eq_some hhead _,
          fun _ _ _ hhead => head?_erase_append hhead _⟩
      · exact ⟨y, hy, fun _ _ => id, fun _ _ _ => id⟩

/-- A timer that did not exist is not used. -/
theorem ne_of_view_none {b : EpBase} {t t' : TimerId} {v : TimerView} (ht : view b t = none)
    (ht' : view b t' = some v) : t' ≠ t := by
  rintro rfl
  rw [ht] at ht'
  exact Option.some_ne_none v ht'.symm

/-- The timers that exist are not touched by a new one. -/
theorem view_of_new {b b' : EpBase} {t t' : TimerId} {v v' : TimerView} (ht : view b t = none)
    (hb : Views b' (Function.update (view b) t (some v'))) (ht' : view b t' = some v) :
    view b' t' = some v := by
  rw [hb.eq, Function.update_of_ne (ne_of_view_none ht ht')]
  exact ht'

theorem Sound.started (h : Sound d) {host : Bytes} {b : EpBase} {t : TimerId}
    (hcache : dnsCacheFind d host = none) (hfind : dnsRealReqFind d host = none)
    (ht : view d.ep t = none)
    (hb : Views b (Function.update (view d.ep) t (some ⟨true, true⟩))) :
    Sound (d.started host b t) := by
  have hargs : ∀ t1, t1 ≠ t → (d.started host b t).timerArgs t1 = d.timerArgs t1 :=
    fun t1 hne => Function.update_of_ne hne _ _
  have hargs_self : (d.started host b t).timerArgs t = some (.realReq d.nextReal) :=
    Function.update_self ..
  have hreals : ∀ R1 x, (d.started host b t).realReqs R1 = some x →
      (R1 = d.nextReal ∧ x = { host := host, timer := some t }) ∨ d.realReqs R1 = some x := by
    intro R1 x hx
    have hx : Function.update d.realReqs d.nextReal
      (some { host := host, timer := some t }) R1 = some x := hx
    rw [Function.update_apply] at hx
    split_ifs at hx with he
    · exact Or.inl ⟨he, (Option.some.inj hx).symm⟩
    · exact Or.inr hx
  constructor
  · -- `tables`
    have h1 : Tables (d.addReal { host := host, timer := some t } (dnsHashStr host)) :=
      h.tables.addReal rfl hcache hfind
    exact h1.of_eq rfl rfl rfl rfl
  · exact hb.ok
  · exact h.reqFresh
  · exact h.noRealReq
  · -- `waiting`
    intro r1 x R1 hx hl
    obtain ⟨hlt, htmr, hmem⟩ := h.waiting r1 x R1 hx hl
    refine ⟨Nat.lt_succ_of_lt hlt, htmr, fun y hy => ?_⟩
    rcases hreals R1 y hy with ⟨rfl, -⟩ | hy
    · exact absurd hlt (Nat.lt_irrefl _)
    · exact hmem y hy
  · -- `rightnow`
    intro r1 x hx hl
    obtain ⟨t1, l, ht1, ha, hv⟩ := h.rightnow r1 x hx hl
    exact ⟨t1, l, ht1, (hargs t1 (ne_of_view_none ht hv)).trans ha, view_of_new ht hb hv⟩
  · -- `nodup`
    intro R1 y hy
    rcases hreals R1 y hy with ⟨-, rfl⟩ | hy
    · exact List.nodup_nil
    · exact h.nodup R1 y hy
  · -- `listed`
    intro R1 y hy
    rcases hreals R1 y hy with ⟨-, rfl⟩ | hy
    · exact fun r1 hr1 => absurd hr1 List.not_mem_nil
    · exact h.listed R1 y hy
  · -- `timer`
    intro R1 y hy
    rcases hreals R1 y hy with ⟨rfl, rfl⟩ | hy
    · refine ⟨t, true, rfl, hargs_self, ?_⟩
      show view b t = _
      rw [hb.eq, Function.update_self]
    · obtain ⟨t1, l, ht1, ha, hv⟩ := h.timer R1 y hy
      exact ⟨t1, l, ht1, (hargs t1 (ne_of_view_none ht hv)).trans ha, view_of_new ht hb hv⟩
  · -- `argsReal`
    intro t1 R1 ht1
    by_cases he : t1 = t
    · rw [he, hargs_self, Option.some.injEq, TimerArgs.realReq.injEq] at ht1
      subst ht1
      refine ⟨Nat.lt_succ_self _, fun y hy => ?_⟩
      rcases hreals _ y hy with ⟨-, rfl⟩ | hy
      · rw [he]
      · exact absurd (h.real_lt hy) (Nat.lt_irrefl _)
    · rw [hargs t1 he] at ht1
      obtain ⟨hlt, htimer⟩ := h.argsReal t1 R1 ht1
      refine ⟨Nat.lt_succ_of_lt hlt, fun y hy => ?_⟩
      rcases hreals R1 y hy with ⟨rfl, -⟩ | hy
      · exact absurd hlt (Nat.lt_irrefl _)
      · exact htimer y hy
  · -- `args`
    intro t1 r1 ht1
    by_cases he : t1 = t
    · rw [he, hargs_self, Option.some.injEq] at ht1
      exact absurd ht1 TimerArgs.noConfusion
    · rw [hargs t1 he] at ht1
      exact h.args t1 r1 ht1
  · -- `control`
    refine h.control.of_frame rfl (fun _ ho => List.mem_append_left _ ho) (Nat.le_refl _)
      (fun _ _ _ => id) fun R1 y hy => ⟨y, ?_, fun _ _ => id, fun _ _ _ => id⟩
    show Function.update d.realReqs d.nextReal _ R1 = some y
    rw [Function.update_of_ne (Nat.ne_of_lt (h.real_lt hy))]
    exact hy

theorem Sound.resolvedNow (h : Sound d) {b : EpBase} {t : TimerId} (ht : view d.ep t = none)
    (hb : Views b (Function.update (view d.ep) t (some ⟨true, true⟩))) (text : Bytes)
    (result : RightResult) : Sound (d.resolvedNow text b t result) := by
  have hargs : ∀ t1, t1 ≠ t → (d.resolvedNow text b t result).timerArgs t1 = d.timerArgs t1 :=
    fun t1 hne => Function.update_of_ne hne _ _
  have hargs_self : (d.resolvedNow text b t result).timerArgs t = some (.rightnow d.nextReq) :=
    Function.update_self ..
  have hreqs : ∀ r1 x, (d.resolvedNow text b t result).reqs r1 = some x →
      r1 = d.nextReq ∧ x = { tmrRightCallback := some t, rightResult := some result } ∨
        r1 < d.nextReq ∧ d.reqs r1 = some x := fun r1 x hx => h.addReq_reqs hx
  constructor
  · exact h.tables.of_eq rfl rfl rfl rfl
  · exact hb.ok
  · -- `reqFresh`
    intro r1 hr1
    have hlt : d.nextReq < r1 := hr1
    show Function.update d.reqs d.nextReq _ r1 = none
    rw [Function.update_of_ne (Nat.ne_of_gt hlt)]
    exact h.reqFresh r1 (Nat.le_of_lt hlt)
  · -- `noRealReq`
    intro r1 x hx
    rcases hreqs r1 x hx with ⟨-, rfl⟩ | ⟨-, hx⟩
    · rfl
    · exact h.noRealReq r1 x hx
  · -- `waiting`
    intro r1 x R1 hx hl
    rcases hreqs r1 x hx with ⟨-, rfl⟩ | ⟨-, hx⟩
    · exact absurd hl.symm (Option.some_ne_none R1)
    · exact h.waiting r1 x R1 hx hl
  · -- `rightnow`
    intro r1 x hx hl
    rcases hreqs r1 x hx with ⟨rfl, rfl⟩ | ⟨-, hx⟩
    · refine ⟨t, true, rfl, hargs_self, ?_⟩
      show view b t = _
      rw [hb.eq, Function.update_self]
    · obtain ⟨t1, l, ht1, ha, hv⟩ := h.rightnow r1 x hx hl
      exact ⟨t1, l, ht1, (hargs t1 (ne_of_view_none ht hv)).trans ha, view_of_new ht hb hv⟩
  · exact h.nodup
  · -- `listed`
    intro R1 y hy r1 hr1
    obtain ⟨x, hx, hl⟩ := h.listed R1 y hy r1 hr1
    refine ⟨x, ?_, hl⟩
    show Function.update d.reqs d.nextReq _ r1 = some x
    rw [Function.update_of_ne (Nat.ne_of_lt (h.req_lt hx))]
    exact hx
  · -- `timer`
    intro R1 y hy
    obtain ⟨t1, l, ht1, ha, hv⟩ := h.timer R1 y hy
    exact ⟨t1, l, ht1, (hargs t1 (ne_of_view_none ht hv)).trans ha, view_of_new ht hb hv⟩
  · -- `argsReal`
    intro t1 R1 ht1
    by_cases he : t1 = t
    · rw [he, hargs_self, Option.some.injEq] at ht1
      exact absurd ht1 TimerArgs.noConfusion
    · rw [hargs t1 he] at ht1
      exact h.argsReal t1 R1 ht1
  · -- `args`
    intro t1 r1 ht1
    by_cases he : t1 = t
    · rw [he, hargs_self, Option.some.injEq, TimerArgs.rightnow.injEq] at ht1
      rw [← ht1, he]
      refine ⟨Nat.lt_succ_self _, fun x hx => ?_⟩
      rcases hreqs _ x hx with ⟨-, rfl⟩ | ⟨hlt, -⟩
      · exact ⟨rfl, rfl⟩
      · exact absurd hlt (Nat.lt_irrefl _)
    · rw [hargs t1 he] at ht1
      obtain ⟨hlt, hl⟩ := h.args t1 r1 ht1
      refine ⟨Nat.lt_succ_of_lt hlt, fun x hx => ?_⟩
      rcases hreqs r1 x hx with ⟨rfl, -⟩ | ⟨-, hx⟩
      · exact absurd hlt (Nat.lt_irrefl _)
      · exact hl x hx
  · -- `control`
    refine h.control.of_frame rfl (fun _ => id) (Nat.le_succ _) ?_
      fun R1 y hy => ⟨y, hy, fun _ _ => id, fun _ _ _ => id⟩
    intro r1 x hlt hx
    rcases hreqs r1 x hx with ⟨rfl, -⟩ | ⟨-, hx⟩
    · exact absurd hlt (Nat.lt_irrefl _)
    · exact hx

/-- The timers with other arguments are not touched when one is freed. -/
theorem view_of_freed {b b' : EpBase} {t t' : TimerId} {v : TimerView} {args args' : TimerArgs}
    (hb : Views b' (Function.update (view b) t none)) (ht : d.timerArgs t = some args)
    (ht' : d.timerArgs t' = some args') (hne : args' ≠ args) (hv : view b t' = some v) :
    view b' t' = some v := by
  have hne : t' ≠ t := by
    rintro rfl
    rw [ht, Option.some.injEq] at ht'
    exact hne ht'.symm
  rw [hb.eq, Function.update_of_ne hne]
  exact hv

/-- The cache changes nothing else. -/
theorem Resolver.cached_eq (d : Resolver) (host : Bytes) (answer : Answer) :
    ∃ table, d.cached host answer = { d with sCacheHash := table } := by
  unfold Resolver.cached
  split
  · exact ⟨d.sCacheHash, rfl⟩
  · split_ifs
    · exact ⟨_, rfl⟩
    · exact ⟨d.sCacheHash, rfl⟩

theorem Resolver.finished_reqs (d : Resolver) (R : RealId) (real : RealReq) (answer : Answer)
    (b : EpBase) : (d.finished R real answer b).reqs = d.reqs := by
  obtain ⟨table, hcached⟩ := d.cached_eq real.host answer
  rw [Resolver.finished, hcached]
  rfl

theorem Resolver.finished_trace (d : Resolver) (R : RealId) (real : RealReq) (answer : Answer)
    (b : EpBase) : (d.finished R real answer b).trace = d.trace := by
  obtain ⟨table, hcached⟩ := d.cached_eq real.host answer
  rw [Resolver.finished, hcached]
  rfl

/-- The host of an answered query moves from the one table to the other. -/
theorem Tables.finished (h : Tables d) {R : RealId} {real : RealReq} (hR : d.realReqs R = some real)
    (answer : Answer) (b : EpBase) : Tables (d.finished R real answer b) := by
  have hremoved := h.removeReal hR
  unfold Resolver.finished Resolver.cached
  split
  · exact hremoved.of_eq rfl rfl rfl rfl
  · rename_i ip _
    split_ifs with hnew
    · -- the order of the two updates does not matter
      have hadded : Tables ((d.removeReal R (dnsHashStr real.host)).addRecord
          { host := real.host, ip := strncpy ip 64, cname := strncpy answer.cname 64 }
          (dnsHashCacheStr real.host)) := by
        refine hremoved.addRecord hnew.2 ?_
        intro R' x hx hhost
        rw [Resolver.removeReal_realReqs, Function.update_apply] at hx
        split_ifs at hx with he
        exact he (h.real_unique hx hR hhost)
      exact hadded.of_eq rfl rfl rfl rfl
    · exact hremoved.of_eq rfl rfl rfl rfl

theorem Sound.finished (h : Sound d) {R : RealId} {real : RealReq} {b : EpBase} {t : TimerId}
    (hR : d.realReqs R = some real) (ht : real.timer = some t)
    (hb : Views b (Function.update (view d.ep) t none)) (answer : Answer) :
    Sound (d.finished R real answer b) := by
  have htables := h.tables.finished hR answer b
  have hargs : d.timerArgs t = some (.realReq R) := by
    obtain ⟨t', l, ht', ha, -⟩ := h.timer R real hR
    rw [ht, Option.some.injEq] at ht'
    rw [ht']
    exact ha
  obtain ⟨table, hcached⟩ := d.cached_eq real.host answer
  unfold Resolver.finished at htables ⊢
  rw [hcached] at htables ⊢
  have hreals : ∀ R1 x, Function.update d.realReqs R none R1 = some x →
      R1 ≠ R ∧ d.realReqs R1 = some x := by
    intro R1 x hx
    rw [Function.update_apply] at hx
    split_ifs at hx with he
    exact ⟨he, hx⟩
  constructor
  · exact htables
  · exact hb.ok
  · exact h.reqFresh
  · exact h.noRealReq
  · -- `waiting`
    intro r1 x R1 hx hl
    obtain ⟨hlt, htmr, hmem⟩ := h.waiting r1 x R1 hx hl
    exact ⟨hlt, htmr, fun y hy => hmem y (hreals R1 y hy).2⟩
  · -- `rightnow`
    intro r1 x hx hl
    obtain ⟨t1, l, ht1, ha, hv⟩ := h.rightnow r1 x hx hl
    exact ⟨t1, l, ht1, ha, view_of_freed hb hargs ha TimerArgs.noConfusion hv⟩
  · exact fun R1 y hy => h.nodup R1 y (hreals R1 y hy).2
  · exact fun R1 y hy => h.listed R1 y (hreals R1 y hy).2
  · -- `timer`
    intro R1 y hy
    obtain ⟨hne, hy⟩ := hreals R1 y hy
    obtain ⟨t1, l, ht1, ha, hv⟩ := h.timer R1 y hy
    refine ⟨t1, l, ht1, ha, view_of_freed hb hargs ha ?_ hv⟩
    exact fun he => hne (TimerArgs.realReq.inj he)
  · exact fun t1 R1 ht1 => ⟨(h.argsReal t1 R1 ht1).1,
      fun y hy => (h.argsReal t1 R1 ht1).2 y (hreals R1 y hy).2⟩
  · exact h.args
  · trivial

theorem Sound.returnedNow (h : Sound d) {r : ReqId} {req : DnsReq} {b : EpBase} {t : TimerId}
    (hreq : d.reqs r = some req) (hlist : req.list = none)
    (ht : d.timerArgs t = some (.rightnow r))
    (hb : Views b (Function.update (view d.ep) t none)) : Sound (d.returnedNow b r) := by
  have hreqs : ∀ r1 x, (d.returnedNow b r).reqs r1 = some x → r1 ≠ r ∧ d.reqs r1 = some x := by
    intro r1 x hx
    have hx : Function.update d.reqs r none r1 = some x := hx
    rw [Function.update_apply] at hx
    split_ifs at hx with he
    exact ⟨he, hx⟩
  constructor
  · exact h.tables.of_eq rfl rfl rfl rfl
  · exact hb.ok
  · -- `reqFresh`
    intro r1 hr1
    show Function.update d.reqs r none r1 = none
    rw [Function.update_apply]
    split_ifs
    · rfl
    · exact h.reqFresh r1 hr1
  · exact fun r1 x hx => h.noRealReq r1 x (hreqs r1 x hx).2
  · exact fun r1 x R1 hx => h.waiting r1 x R1 (hreqs r1 x hx).2
  · -- `rightnow`
    intro r1 x hx hl
    obtain ⟨hne, hx⟩ := hreqs r1 x hx
    obtain ⟨t1, l, ht1, ha, hv⟩ := h.rightnow r1 x hx hl
    refine ⟨t1, l, ht1, ha, view_of_freed hb ht ha ?_ hv⟩
    exact fun he => hne (TimerArgs.rightnow.inj he)
  · exact h.nodup
  · -- `listed`
    intro R1 y hy r1 hr1
    obtain ⟨x, hx, hl⟩ := h.listed R1 y hy r1 hr1
    have hne : r1 ≠ r := by
      rintro rfl
      rw [hreq, Option.some.injEq] at hx
      rw [← hx, hlist] at hl
      exact Option.some_ne_none R1 hl.symm
    refine ⟨x, ?_, hl⟩
    show Function.update d.reqs r none r1 = some x
    rw [Function.update_of_ne hne]
    exact hx
  · -- `timer`
    intro R1 y hy
    obtain ⟨t1, l, ht1, ha, hv⟩ := h.timer R1 y hy
    exact ⟨t1, l, ht1, ha, view_of_freed hb ht ha TimerArgs.noConfusion hv⟩
  · exact h.argsReal
  · exact fun t1 r1 ht1 => ⟨(h.args t1 r1 ht1).1, fun x hx => (h.args t1 r1 ht1).2 x (hreqs r1 x hx).2⟩
  · trivial

/-- The entry after the head. -/
theorem nextOf_head (r : ReqId) (rest : List ReqId) : nextOf (r :: rest) r = rest.head? := by
  rw [nextOf, List.dropWhile_cons_of_neg (by simp)]
  rfl

theorem Sound.calledBack (h : Sound d) {R : RealId} {real : RealReq} {r : ReqId}
    (hR : d.realReqs R = some real) (hhead : real.listReqs.head? = some r) (answer : Answer) :
    Sound (d.calledBack R real r answer) := by
  obtain ⟨rest, hrest⟩ := List.head?_eq_some_iff.mp hhead
  have hmem : ∀ r1 ∈ real.listReqs, r1 < d.nextReq := by
    intro r1 hr1
    obtain ⟨x, hx, -⟩ := h.listed R real hR r1 hr1
    exact h.req_lt hx
  refine (h.log (.called r answer)).setControl ?_
  show LoopAt _ R r (nextOf real.listReqs r) answer
  rw [hrest, nextOf_head]
  constructor
  · exact List.mem_append_right _ (List.mem_singleton_self _)
  · exact hmem r (hrest ▸ List.mem_cons_self)
  · -- `real`
    refine ⟨real, hR, fun _ => hhead, fun r1 hr1 _ => ?_⟩
    rw [hrest, List.erase_cons_head]
    exact hr1
  · intro r1 hr1
    exact hmem r1 (hrest ▸ List.mem_cons_of_mem r (List.mem_of_head? hr1))
  · -- `next_ne`
    rintro r1 hr1 rfl
    have hnodup := h.nodup R real hR
    rw [hrest] at hnodup
    exact (List.nodup_cons.mp hnodup).1 (List.mem_of_head? hr1)

/-- A timer that fires keeps its flag. -/
theorem Sound.fired (h : Sound d) {b : EpBase} {t : TimerId}
    (hb : Views b (Function.update (view d.ep) t (some ⟨true, false⟩))) : Sound (d.setEp b) := by
  refine h.setEp hb.ok fun t1 l hv => ?_
  rw [hb.eq, Function.update_apply]
  split_ifs
  · exact ⟨false, rfl⟩
  · exact ⟨l, hv⟩

theorem Sound.counted (h : Sound d) {b : EpBase} {t : TimerId} {R : RealId} {real : RealReq}
    (hb : Views b (Function.update (view d.ep) t (some ⟨true, false⟩)))
    (hR : d.realReqs R = some real) : Sound (d.counted b R real) := by
  have hR1 : (d.setEp b).realReqs R = some real := hR
  exact (h.fired hb).setReal hR1 rfl rfl rfl

theorem Sound.calledNow (h : Sound d) {b : EpBase} {t : TimerId} {r : ReqId} (answer : Answer)
    (hargs : d.timerArgs t = some (.rightnow r))
    (hb : Views b (Function.update (view d.ep) t (some ⟨true, false⟩))) :
    Sound (d.calledNow b r answer) := by
  obtain ⟨hlt, hreq⟩ := h.args t r hargs
  refine ((h.fired hb).log (.called r answer)).setControl ?_
  refine ⟨⟨answer, List.mem_append_right _ (List.mem_singleton_self _)⟩, hlt, ?_⟩
  exact fun req hr => (hreq req hr).1

/-- One round of the loop, at the head of the list. -/
theorem Sound.answerTo (h : Sound d) {R : RealId} {answer : Answer} {pos : Option ReqId}
    (hto : AnswerTo d R answer pos d')
    (hhead : ∀ r real, pos = some r → d.realReqs R = some real → real.listReqs.head? = some r) :
    Sound d' := by
  cases hto with
  | call hreq hreal => exact h.calledBack hreal (hhead _ _ rfl hreal) answer
  | finish hreal ht hb => exact h.finished hreal ht hb answer

/-- The entry that the loop goes on with is the head of what is left. -/
theorem Sound.head_of_detached (h : Sound d) {R : RealId} {pos : ReqId} {n : Option ReqId}
    {answer : Answer} {real : RealReq} (hcontrol : d.control = .answering R pos n answer)
    (hR : d.realReqs R = some real) {r : ReqId} {req : DnsReq} (hn : n = some r)
    (hr : (d.detached pos R real).reqs r = some req) :
    (real.listReqs.erase pos).head? = some r := by
  have hok := h.control
  rw [ControlOk, hcontrol] at hok
  obtain ⟨real', hR', -, hnext⟩ := hok.real
  rw [hR, Option.some.injEq] at hR'
  rw [hR']
  have hr : Function.update d.reqs pos none r = some req := hr
  rw [Function.update_apply] at hr
  split_ifs at hr
  exact hnext r hn (by rw [hr]; exact Option.some_ne_none req)

/-- **A step keeps the resolver sound.** -/
theorem Sound.trans (h : Sound d) {e : DnsEvent} (ht : DnsTrans d e d') : Sound d' := by
  cases ht with
  | skip => exact h
  | resolvedNow host text result ht hb => exact h.resolvedNow ht hb text result
  | joined _ hreal => exact h.joined hreal
  | @queried host b t hcache hfind ht hb =>
    have hself : (d.started (cstr host) b t).realReqs d.nextReal =
        some { host := cstr host, timer := some t } := Function.update_self ..
    exact (h.started hcache hfind ht hb).joined hself
  | cancelled hreq hlist hreal => exact (h.detached hreq hlist hreal).log _
  | @returned R pos n answer req real _ hcontrol hreq hlist hreal hto =>
    refine (h.detached hreq hlist hreal).answerTo hto fun r real' hn hreal' => ?_
    have hself : (d.detached pos R real).realReqs R =
        some { real with listReqs := real.listReqs.erase pos } := Function.update_self ..
    rw [hself, Option.some.injEq] at hreal'
    rw [← hreal']
    subst hn
    cases hto with
    | call hreq' _ => exact h.head_of_detached hcontrol hreal rfl hreq'
  | returnedNow _ hreq hlist ht hb => exact h.returnedNow hreq hlist ht hb
  | responded _ _ hreal hto =>
    refine h.answerTo hto fun r real' hhead hreal' => ?_
    rw [hreal, Option.some.injEq] at hreal'
    rw [← hreal']
    exact hhead
  | retried _ _ _ hreal _ hb => exact h.counted hb hreal
  | @timedOut t i R real b _ _ _ _ hreal _ hb hto =>
    refine (h.counted hb hreal).answerTo hto fun r real' hhead hreal' => ?_
    have hself : (d.counted b R real).realReqs R =
        some { real with countTimeout := real.countTimeout + 1 } := Function.update_self ..
    rw [hself, Option.some.injEq] at hreal'
    rw [← hreal']
    exact hhead
  | calledNow answer _ _ hargs _ hb => exact h.calledNow answer hargs hb

/-! ### The functions of `dns.c` -/

theorem stopTimer_spec (h : EpOk d.ep) {t : TimerId} {v : TimerView} (ht : view d.ep t = some v) :
    wp (stopTimer t)
      (fun _ d' => ∃ b, Views b (Function.update (view d.ep) t none) ∧ d' = d.setEp b)
      (fun _ _ => False) d := by
  have hfree : ∀ (b : EpBase) (v : TimerView),
      Views b (Function.update (view d.ep) t (some v)) → wp (liftEp (epTimerFree t))
        (fun _ d' => ∃ b, Views b (Function.update (view d.ep) t none) ∧ d' = d.setEp b)
        (fun _ _ => False) (d.setEp b) := by
    intro b v hb
    rw [wp_liftEp]
    have hv : view b t = some v := by rw [hb.eq, Function.update_self]
    refine wp_mono (hb.ok.timerFree hv) (fun _ b1 hb1 => ⟨b1, ?_, rfl⟩) (fun _ _ => id)
    rw [hb.eq, Function.update_idem] at hb1
    exact hb1
  simp only [stopTimer, wp_bind, wp_liftEp]
  apply wp_epTimerPending ht
  simp only [wp_ite, wp_bind]
  split_ifs
  · rw [wp_liftEp]
    exact wp_mono (h.timerDel ht) (fun _ b hb => hfree b _ hb) (fun _ _ => id)
  · refine hfree d.ep v ⟨h, ?_⟩
    rw [← ht, Function.update_eq_self]

/-- The start of a new query. -/
theorem newRealReq_spec (h : Sound d) (host : Bytes) :
    wp (newRealReq host)
      (fun R d' => R = d.nextReal ∧ ∃ b t, view d.ep t = none ∧
        Views b (Function.update (view d.ep) t (some ⟨true, true⟩)) ∧ d' = d.started host b t)
      (fun f d' => f = .unterminated ∧ d' = d ∧ 256 ≤ host.length) d := by
  simp only [newRealReq, wp_ite, wp_throw]
  split_ifs with hlen
  · exact ⟨trivial, trivial, hlen⟩
  · have hself : (d.addReal { host := host } (dnsHashStr host)).realReqs d.nextReal =
        some { host := host } := Function.update_self ..
    simp only [wp_bind, wp_get, wp_modify, wp_pure, dnsRealReqStart, wp_getReal, hself, wp_liftEp]
    refine wp_mono h.ep.timerNew (fun t b hb => ?_) (fun _ _ => False.elim)
    obtain ⟨ht, hb⟩ := hb
    have hv : view b t = some ⟨false, false⟩ := by rw [hb.eq, Function.update_self]
    apply wp_epTimerPending hv
    simp only [Bool.false_eq_true, if_false, wp_bind, wp_liftEp, wp_modify]
    refine wp_mono (hb.ok.timerAdd hv _) (fun _ b1 hb1 => ⟨trivial, b1, t, ht, ?_, ?_⟩)
      (fun _ _ => False.elim)
    · rw [hb.eq, Function.update_idem] at hb1
      exact hb1
    · simp only [Resolver.started, Resolver.log, Resolver.setEp, Resolver.setReal,
        Resolver.setTimerArgs, Resolver.addReal, Function.update_idem]

theorem resolveQuery_spec (h : Sound d) {host : Bytes}
    (hcache : dnsCacheFind d (cstr host) = none) :
    wp (resolveQuery (cstr host)) (fun _ d' => DnsTrans d (.resolve host) d')
      (fun f d' => DnsFaults d (.resolve host) f d') d := by
  simp only [resolveQuery, wp_bind, wp_get]
  cases hfind : dnsRealReqFind d (cstr host) with
  | some R =>
    obtain ⟨real, hreal, -⟩ := (h.tables.realReqFind_eq_some_iff (cstr host) R).mp hfind
    simp only [wp_bind, wp_pure, wp_getReal, wp_get, wp_modify, hreal]
    exact .joined hfind hreal
  | none =>
    dsimp only
    rw [wp_bind]
    refine wp_mono (newRealReq_spec h (cstr host)) ?_ ?_
    · rintro R d1 ⟨rfl, b, t, ht, hb, rfl⟩
      have hself : (d.started (cstr host) b t).realReqs d.nextReal =
          some { host := cstr host, timer := some t } := Function.update_self ..
      simp only [wp_bind, wp_getReal, wp_get, wp_modify, hself]
      exact .queried hcache hfind ht hb
    · rintro f d1 ⟨rfl, rfl, hlen⟩
      exact .unterminated hlen

theorem resolveRightnow_spec (h : Sound d) (host text : Bytes) (result : RightResult) :
    wp (resolveRightnow result) (fun _ d' => DnsTrans d (.resolve host) d')
      (fun f d' => DnsFaults d (.resolve host) f d') (d.setNtoaBuf text) := by
  simp only [resolveRightnow, wp_bind, wp_get, wp_modify, wp_liftEp]
  refine wp_mono h.ep.timerNew (fun t b hb => ?_) (fun _ _ => False.elim)
  obtain ⟨ht, hb⟩ := hb
  have hv : view b t = some ⟨false, false⟩ := by rw [hb.eq, Function.update_self]
  refine wp_mono (hb.ok.timerAdd hv 0) (fun _ b1 hb1 => ?_) (fun _ _ => False.elim)
  rw [hb.eq, Function.update_idem] at hb1
  exact .resolvedNow host text result ht hb1

theorem dnsResolve_spec (h : Sound d) (host : Bytes) :
    wp (dnsResolve (cstr host)) (fun _ d' => DnsTrans d (.resolve host) d')
      (fun f d' => DnsFaults d (.resolve host) f d') d := by
  rw [dnsResolve]
  generalize inetAton (cstr host) = parsed
  cases parsed with
  | some addr =>
    simp only [wp_bind, wp_modify]
    exact resolveRightnow_spec h host _ .ntoa
  | none =>
    simp only [wp_bind, wp_get]
    cases hcache : dnsCacheFind d (cstr host) with
    | some record => exact resolveRightnow_spec h host d.ntoaBuf (.record record.ip)
    | none => exact resolveQuery_spec h hcache

/-- `dns_cancel` of a waiter unlinks it; of any other request it goes wrong. -/
theorem dnsCancel_spec (h : Sound d) {r : ReqId} {req : DnsReq} (hreq : d.reqs r = some req) :
    wp (dnsCancel r)
      (fun _ d' => ∃ R real, req.list = some R ∧ d.realReqs R = some real ∧
        d' = (d.detached r R real).log (.cancelled r))
      (fun f d' => DnsFaults d (.cancel r) f d') d := by
  simp only [dnsCancel, listDel, wp_bind, wp_getReq, hreq]
  cases hlist : req.list with
  | none => exact .nullNode hreq hlist
  | some R =>
    simp only [wp_bind, wp_get]
    cases hreal : d.realReqs R with
    | none => exact .danglingNode hreq hlist hreal
    | some real =>
      -- a waiter has neither a pointer to its query nor a timer
      simp only [wp_modify, h.noRealReq r req hreq, (h.waiting r req R hreq hlist).2.1, wp_bind]
      exact ⟨R, real, rfl, hreal, rfl⟩

/-- The end of the loop. -/
theorem finishAnswer_spec (h : Sound d) {R : RealId} {real : RealReq}
    (hreal : d.realReqs R = some real) (answer : Answer) :
    wp (finishAnswer R answer) (fun _ d' => AnswerTo d R answer none d')
      (fun f d' => f = .nullIp ∧ d' = d ∧ answer.NoAddress) d := by
  obtain ⟨t, l, ht, -, hv⟩ := h.timer R real hreal
  -- what follows `dns_cache_add`, which has changed the cache only
  have hrest : ∀ table, ¬ answer.NoAddress →
      d.cached real.host answer = { d with sCacheHash := table } →
      wp (do
          if ← liftEp (epTimerPending t) then stopTimer t else pure ()
          modify (·.removeReal R (dnsHashStr real.host))
          modify (·.setControl .idle))
        (fun _ d' => AnswerTo d R answer none d') (fun f d' => f = .nullIp ∧ d' = d ∧ answer.NoAddress)
        { d with sCacheHash := table } := by
    intro table haddress hcached
    have hep : EpOk ({ d with sCacheHash := table } : Resolver).ep := h.ep
    simp only [wp_bind, wp_liftEp]
    apply wp_epTimerPending hv
    simp only [if_true, wp_bind, wp_modify]
    refine wp_mono (stopTimer_spec hep hv) ?_ (fun _ _ => False.elim)
    rintro - d1 ⟨b, hb, rfl⟩
    have hto : AnswerTo d R answer none (d.finished R real answer b) :=
      .finish hreal ht hb haddress
    rw [Resolver.finished, hcached] at hto
    exact hto
  have hplain := hrest d.sCacheHash
  simp only [wp_bind, wp_ite] at hrest hplain
  simp only [finishAnswer, wp_bind, wp_getReal, hreal, ht, wp_ite]
  split_ifs with hret
  · simp only [dnsCacheAdd, wp_bind, wp_get, wp_ite, wp_pure]
    split_ifs with hfound
    · -- the host of a query is not in the cache
      obtain ⟨record, hrecord⟩ := Option.isSome_iff_exists.mp hfound
      obtain ⟨⟨k, hmem⟩, hhost⟩ := (h.tables.cacheFind_eq_some_iff _ record).mp hrecord
      exact absurd hhost (h.tables.disjoint R real hreal k record hmem)
    · have hnone : dnsCacheFind d real.host = none := by
        rw [← Option.not_isSome_iff_eq_none]
        exact hfound
      cases hip : answer.ips.head? with
      | none => exact ⟨rfl, rfl, hret, List.head?_eq_none_iff.mp hip⟩
      | some ip =>
        simp only [wp_modify]
        refine hrest _ (fun hno => ?_) ?_
        · rw [hno.2] at hip
          exact Option.some_ne_none ip hip.symm
        rw [Resolver.cached, hip]
        exact if_pos ⟨hret, hnone⟩
  · refine hplain (fun hno => hret hno.1) ?_
    rw [Resolver.cached]
    split
    · rfl
    · exact if_neg fun hc => hret hc.1

theorem answerAt_spec (h : Sound d) {R : RealId} {real : RealReq}
    (hreal : d.realReqs R = some real) (pos : Option ReqId) (answer : Answer) :
    wp (answerAt R pos answer) (fun _ d' => AnswerTo d R answer pos d')
      (fun f d' => d' = d ∧ ((∃ r, pos = some r ∧ d.reqs r = none ∧ f = .reqFreed r) ∨
        (pos = none ∧ f = .nullIp ∧ answer.NoAddress))) d := by
  cases pos with
  | none =>
    exact wp_mono (finishAnswer_spec h hreal answer) (fun _ _ hto => hto)
      fun f d' hf => ⟨hf.2.1, Or.inr ⟨rfl, hf.1, hf.2.2⟩⟩
  | some r =>
    simp only [answerAt, wp_bind, wp_getReq, wp_getReal, wp_modify]
    cases hreq : d.reqs r with
    | none => exact ⟨trivial, Or.inl ⟨r, rfl, hreq, rfl⟩⟩
    | some req =>
      simp only [hreal]
      exact .call hreq hreal

/-- The start of an answer: the head of the list has not been freed. -/
theorem activeAndFree_spec (h : Sound d) {R : RealId} {real : RealReq}
    (hreal : d.realReqs R = some real) (resps : List ResponseRecord) (retCode : ℤ) :
    wp (dnsRealReqActiveAndFree R resps retCode)
      (fun _ d' => AnswerTo d R (answerOf resps retCode) real.listReqs.head? d')
      (fun f d' => f = .nullIp ∧ d' = d ∧ (answerOf resps retCode).NoAddress) d := by
  simp only [dnsRealReqActiveAndFree, wp_bind, wp_getReal, hreal]
  refine wp_mono (answerAt_spec h hreal _ _) (fun _ _ hto => hto) ?_
  rintro f d' ⟨rfl, ⟨r, hhead, hr, rfl⟩ | ⟨-, rfl, hnone⟩⟩
  · obtain ⟨req, hreq, -⟩ := h.listed R real hreal r (List.mem_of_head? hhead)
    rw [hr] at hreq
    exact absurd hreq.symm (Option.some_ne_none req)
  · exact ⟨rfl, rfl, hnone⟩

/-- A query whose timer says that it is pending is not sent again. -/
theorem realReqStart_pending {R : RealId} {real : RealReq} {t : TimerId} {l : Bool}
    (hreal : d.realReqs R = some real) (ht : real.timer = some t)
    (hv : view d.ep t = some ⟨true, l⟩) {Q : Unit → Resolver → Prop}
    {E : DnsFault → Resolver → Prop} (hQ : Q () d) : wp (dnsRealReqStart R) Q E d := by
  simp only [dnsRealReqStart, wp_bind, wp_getReal, hreal, ht, wp_pure, wp_liftEp]
  apply wp_epTimerPending hv
  exact hQ

theorem callbackRet_spec (h : Sound d) :
    wp callbackRet (fun _ d' => DnsTrans d .ret d') (fun f d' => DnsFaults d .ret f d') d := by
  have hok := h.control
  simp only [callbackRet, wp_bind, wp_get]
  cases hcontrol : d.control with
  | idle => exact .skip hcontrol
  | answering R pos n answer =>
    rw [ControlOk, hcontrol] at hok
    obtain ⟨real, hreal, hhead, -⟩ := hok.real
    simp only [listDel, wp_bind, wp_getReq, wp_modify]
    cases hreq : d.reqs pos with
    | none => exact .posFreed hcontrol hreq
    | some req =>
      -- a live request that has been called is still in the list of its query
      have hmem : pos ∈ real.listReqs :=
        List.mem_of_head? (hhead (by rw [hreq]; exact Option.some_ne_none req))
      obtain ⟨req', hreq', hlist⟩ := h.listed R real hreal pos hmem
      rw [hreq, Option.some.injEq] at hreq'
      rw [← hreq'] at hlist
      simp only [hlist, wp_bind, wp_get, hreal, wp_modify]
      have hself : (d.detached pos R real).realReqs R =
          some { real with listReqs := real.listReqs.erase pos } := Function.update_self ..
      refine wp_mono (answerAt_spec (h.detached hreq hlist hreal) hself n answer) ?_ ?_
      · exact fun _ d' hto => .returned hcontrol hreq hlist hreal hto
      · rintro f d' ⟨rfl, ⟨r, rfl, hr, rfl⟩ | ⟨rfl, rfl, hnone⟩⟩
        · have hr : Function.update d.reqs pos none r = none := hr
          rw [Function.update_apply] at hr
          split_ifs at hr with he
          · exact absurd he (hok.next_ne r rfl)
          · exact .nextFreed hcontrol hreq hr
        · exact .nullIp hcontrol hreq hreal hnone
  | rightnow r =>
    simp only [wp_bind, wp_getReq]
    cases hreq : d.reqs r with
    | none => exact .nowFreed hcontrol hreq
    | some req =>
      rw [ControlOk, hcontrol] at hok
      have hlist := hok.2.2 req hreq
      obtain ⟨t, l, htmr, hargs, hv⟩ := h.rightnow r req hreq hlist
      simp only [htmr, wp_bind, wp_liftEp, wp_modify]
      refine wp_mono (h.ep.timerFree hv) (fun _ b hb => ?_) (fun _ _ => False.elim)
      exact .returnedNow hcontrol hreq hlist hargs hb

theorem fireTimer_spec (h : Sound d) (hidle : d.control = .idle) (t : TimerId) :
    wp (fireTimer t) (fun _ d' => DnsTrans d (.timer t) d')
      (fun f d' => DnsFaults d (.timer t) f d') d := by
  simp only [fireTimer, wp_bind, wp_get]
  split
  · rename_i i args hlinked hargs
    obtain ⟨tm, htm, hi⟩ := Option.bind_eq_some_iff.mp hlinked
    rw [Option.filter_eq_some_iff] at hi
    simp only [wp_bind, wp_liftEp]
    refine wp_mono (h.ep.infoDel htm hi.1) (fun _ b hb => ?_) (fun _ _ => False.elim)
    -- the flag of a timer that is used is set
    have hflag : ∀ l, view d.ep t = some ⟨true, l⟩ →
        Views b (Function.update (view d.ep) t (some ⟨true, false⟩)) := by
      intro l hv
      rw [view, htm, Option.map_some, Option.some.injEq, TimerView.mk.injEq] at hv
      rw [hv.1] at hb
      exact hb
    cases args with
    | realReq R =>
      simp only [dnsRealReqTimercb, wp_bind, wp_getReal, wp_modify, Resolver.setEp_realReqs]
      cases hreal : d.realReqs R with
      | none => exact .timerReal hargs hreal _
      | some real =>
        obtain ⟨t', l, ht', -, hv⟩ := h.timer R real hreal
        have htimer : real.timer = some t := (h.argsReal t R hargs).2 real hreal
        obtain rfl : t' = t := Option.some.inj (ht'.symm.trans htimer)
        have hb := hflag l hv
        have hself : (d.counted b R real).realReqs R =
            some { real with countTimeout := real.countTimeout + 1 } := Function.update_self ..
        simp only [wp_ite]
        split_ifs with hcount
        · refine wp_mono (activeAndFree_spec (h.counted hb hreal) hself [] (-1)) ?_ ?_
          · exact fun _ d' hto => .timedOut hidle hlinked hargs hreal hcount hb hto
          · -- a timeout is no success
            rintro f d' ⟨-, -, hzero, -⟩
            exact absurd hzero (by decide)
        · have hv1 : view (d.counted b R real).ep t' = some ⟨true, false⟩ := by
            show view b t' = _
            rw [hb.eq, Function.update_self]
          apply realReqStart_pending hself htimer hv1
          exact .retried hidle hlinked hargs hreal (Nat.lt_of_not_le hcount) hb
    | rightnow r =>
      simp only [dnsRightnowTmrcb, wp_bind, wp_getReq, Resolver.setEp_reqs]
      cases hreq : d.reqs r with
      | none => exact .timerNow hargs hreq _
      | some req =>
        obtain ⟨-, hreqs⟩ := h.args t r hargs
        obtain ⟨hlist, htmr⟩ := hreqs req hreq
        obtain ⟨t', l, ht', -, hv⟩ := h.rightnow r req hreq hlist
        obtain rfl : t' = t := Option.some.inj (ht'.symm.trans htmr)
        simp only [h.noRealReq r req hreq, Option.isSome_none, Bool.false_eq_true, if_false,
          wp_bind, wp_get, wp_modify]
        exact .calledNow _ hidle hlinked hargs hreq (hflag l hv)
  · rename_i hnot
    refine .skip (Or.inr ?_)
    cases hlinked : linkedNode d.ep t with
    | none => exact Or.inl rfl
    | some i =>
      cases hargs : d.timerArgs t with
      | none => exact Or.inr rfl
      | some args => exact absurd hargs (hnot i args hlinked)

/-- **What a step does**, from a sound state. -/
theorem step_spec (h : Sound d) (e : DnsEvent) :
    wp (dnsStep e) (fun _ d' => DnsTrans d e d') (fun f d' => DnsFaults d e f d') d := by
  cases e with
  | resolve host => exact dnsResolve_spec h host
  | cancel r =>
    simp only [dnsStep, wp_bind, wp_get, wp_ite, wp_pure]
    split_ifs with hlive
    · obtain ⟨req, hreq⟩ := Option.isSome_iff_exists.mp hlive
      refine wp_mono (dnsCancel_spec h hreq) ?_ (fun _ _ hf => hf)
      rintro - d' ⟨R, real, hlist, hreal, rfl⟩
      exact .cancelled hreq hlist hreal
    · exact .skip (Option.not_isSome_iff_eq_none.mp hlive)
  | ret => exact callbackRet_spec h
  | timer t =>
    simp only [dnsStep, wp_bind, wp_get, wp_ite, wp_pure]
    split_ifs with hidle
    · exact fireTimer_spec h hidle t
    · exact .skip (Or.inl hidle)
  | response host resps rcode =>
    simp only [dnsStep, wp_bind, wp_get, wp_ite, wp_pure]
    split_ifs with hidle
    · cases hfind : dnsRealReqFind d (cstr host) with
      | none => exact .skip (Or.inr hfind)
      | some R =>
        obtain ⟨real, hreal, -⟩ := (h.tables.realReqFind_eq_some_iff (cstr host) R).mp hfind
        refine wp_mono (activeAndFree_spec h hreal resps rcode) ?_ ?_
        · exact fun _ d' hto => .responded hidle hfind hreal hto
        · rintro f d' ⟨rfl, rfl, hnone⟩
          exact .nullIpAtOnce hidle hnone
    · exact .skip (Or.inl hidle)

/-- **All states of all runs are sound.** -/
theorem wp_run_sound (es : List DnsEvent) :
    wp (run dnsStep es) (fun _ => Sound) (fun _ _ => True) .init := by
  refine run_wp (fun d e h _ => ?_) es _ sound_init (meets_true es _)
  exact wp_mono (step_spec h e) (fun _ _ ht => h.trans ht) (fun _ _ _ => trivial)

/-- **One query and one record per host.**  In every state of every run of the resolver, inside of
callbacks and outside, whatever is resolved, cancelled, received or timed out. -/
theorem wp_run_onePerHost (es : List DnsEvent) :
    wp (run dnsStep es) (fun _ => OnePerHost) (fun _ _ => True) .init :=
  wp_mono (wp_run_sound es) (fun _ _ h => h.tables.onePerHost) (fun _ _ => id)

end H2ClientProxy.Dns
