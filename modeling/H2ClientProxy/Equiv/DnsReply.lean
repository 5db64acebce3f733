import H2ClientProxy.Equiv.DnsAnswer
import H2ClientProxy.Equiv.DnsMessage

/-!
# What the waiters are told

From the datagram to the callbacks.

* `Replying`: while a response is answered, all callbacks get the same answer, and the cache is left
  alone until the last of them has returned.
* `wp_run_callsBackAll`: the addresses of a response reach every waiter of its host.
* `wp_run_repliesRight_iff`: a success has an address of the message and is cached, just when the message
  has an address record, or no answers, or an error code.
-/

namespace H2ClientProxy.Dns

open Wp Machine Ep

variable {d d' d0 : Resolver} {R : RealId} {real : RealReq} {answer : Answer} {host : Bytes}

/-! ### While the callbacks run -/

/-- All callbacks since `d0` were given the same answer. -/
def Told (d0 : Resolver) (answer : Answer) (d : Resolver) : Prop :=
  ∃ tr, d.trace = d0.trace ++ tr ∧ ∀ r a, .called r a ∈ tr → a = answer

/-- The callbacks of the answer to the query for `host` are running. -/
structure Replying (d0 : Resolver) (host : Bytes) (R : RealId) (answer : Answer) (d : Resolver) :
    Prop where
  sound : Sound d
  control : ∃ pos n, d.control = .answering R pos n answer
  told : Told d0 answer d
  cache : d.sCacheHash = d0.sCacheHash
  query : ∃ real, d.realReqs R = some real ∧ real.host = host

/-- They have all returned. -/
structure Replied (d0 : Resolver) (host : Bytes) (answer : Answer) (d : Resolver) : Prop where
  sound : Sound d
  control : d.control = .idle
  told : Told d0 answer d
  cache : ∃ d1 : Resolver, d1.sCacheHash = d0.sCacheHash ∧ dnsCacheFind d1 host = none ∧
    d.sCacheHash = (d1.cached host answer).sCacheHash

/-- A step that leaves the loop where it is. -/
theorem Replying.frame (h : Replying d0 host R answer d) (hs : Sound d')
    (tr : List DnsObs) (hcontrol : d'.control = d.control) (htrace : d'.trace = d.trace ++ tr)
    (hsilent : ∀ r a, .called r a ∉ tr) (hcache : d'.sCacheHash = d.sCacheHash)
    (hquery : ∀ real, d.realReqs R = some real → real.host = host →
      ∃ real', d'.realReqs R = some real' ∧ real'.host = host) :
    Replying d0 host R answer d' where
  sound := hs
  control := by rw [hcontrol]; exact h.control
  told := by
    obtain ⟨tr0, htr0, hcalls⟩ := h.told
    refine ⟨tr0 ++ tr, by rw [htrace, htr0, List.append_assoc], fun r a hmem => ?_⟩
    exact (List.mem_append.1 hmem).elim (hcalls r a) fun hmem => absurd hmem (hsilent r a)
  cache := hcache.trans h.cache
  query := by
    obtain ⟨real, hreal, hhost⟩ := h.query
    exact hquery real hreal hhost

/-- Replacing a query by one for the same host. -/
theorem exists_real_setReal {R' : RealId} {real1 real1' : RealReq}
    (hreal1 : d.realReqs R' = some real1) (hsame : real1'.host = real1.host)
    (hR : d.realReqs R = some real) (hhost : real.host = host) :
    ∃ real', (d.setReal R' real1').realReqs R = some real' ∧ real'.host = host := by
  show ∃ real', Function.update d.realReqs R' (some real1') R = some real' ∧ real'.host = host
  by_cases hne : R = R'
  · subst hne
    rw [Function.update_self]
    rw [hR, Option.some.injEq] at hreal1
    exact ⟨real1', rfl, by rw [hsame, ← hreal1, hhost]⟩
  · rw [Function.update_of_ne hne]
    exact ⟨real, hR, hhost⟩

/-- The next round of the loop: a callback, or the end. -/
theorem Replying.answerTo {n : Option ReqId} (hs : Sound d') {d1 : Resolver} (hs1 : Sound d1)
    (htold : Told d0 answer d1) (hcache : d1.sCacheHash = d0.sCacheHash) (hreal : d1.realReqs R = some real)
    (hhost : real.host = host) (hto : AnswerTo d1 R answer n d') :
    Replying d0 host R answer d' ∨ Replied d0 host answer d' := by
  obtain ⟨tr, htr, hcalls⟩ := htold
  cases hto with
  | @call r req real' _ hreal' =>
    refine .inl ⟨hs, ⟨r, _, rfl⟩, ⟨tr ++ [DnsObs.called r answer], ?_, fun r' a hmem => ?_⟩, hcache,
      real, hreal, hhost⟩
    · show d1.trace ++ [DnsObs.called r answer] = _
      rw [htr, List.append_assoc]
    · rcases List.mem_append.1 hmem with hmem | hmem
      · exact hcalls r' a hmem
      · injection List.mem_singleton.1 hmem
  | @finish real' b t hreal' _ _ _ =>
    rw [hreal, Option.some.injEq] at hreal'
    subst hreal'
    refine .inr ⟨hs, rfl, ⟨tr, (d1.finished_trace R real answer b).trans htr, hcalls⟩, d1, hcache,
      ?_, ?_⟩
    · -- a host with a query is not in the cache
      rw [hs1.tables.cacheFind_eq_none_iff, ← hhost]
      exact fun k record hmem => hs1.tables.disjoint R real hreal k record hmem
    · rw [← hhost]
      rfl

/-- **One step of a callback**: whatever it does, the answer stays the same. -/
theorem Replying.trans (h : Replying d0 host R answer d) {e : DnsEvent} (ht : DnsTrans d e d') :
    Replying d0 host R answer d' ∨ Replied d0 host answer d' := by
  have hs := h.sound
  have hs' := hs.trans ht
  obtain ⟨pos, n, hcontrol⟩ := h.control
  cases ht with
  | skip => exact .inl h
  | resolvedNow =>
    exact .inl (h.frame hs' [] rfl (List.append_nil _).symm (fun _ _ => List.not_mem_nil) rfl
      fun real hreal hhost => ⟨real, hreal, hhost⟩)
  -- what a callback calls may change the queries, but neither the host nor the answer
  | joined _ hreal1 =>
    refine .inl (h.frame hs' [_] rfl rfl (fun r a hmem => ?_) rfl fun real hreal hhost => ?_)
    · exact absurd (List.mem_singleton.1 hmem) DnsObs.noConfusion
    · exact exists_real_setReal hreal1 rfl hreal hhost
  | @queried host' b t hcache hfind _ _ =>
    have hself : (d.started (cstr host') b t).realReqs d.nextReal =
        some { host := cstr host', timer := some t } := Function.update_self ..
    refine .inl (h.frame hs'
      ([DnsObs.sendReq (cstr host')] ++ [DnsObs.waits d.nextReq d.nextReal]) rfl ?_
      (fun r a hmem => ?_) rfl fun real hreal hhost => ?_)
    · exact List.append_assoc ..
    · simp at hmem
    · have hreal' : (d.started (cstr host') b t).realReqs R = some real :=
        (Function.update_of_ne (Nat.ne_of_lt (hs.real_lt hreal)) _ _).trans hreal
      exact exists_real_setReal hself rfl hreal' hhost
  | cancelled _ _ hreal1 =>
    refine .inl (h.frame hs' [_] rfl rfl (fun r a hmem => ?_) rfl fun real hreal hhost => ?_)
    · exact absurd (List.mem_singleton.1 hmem) DnsObs.noConfusion
    · exact exists_real_setReal hreal1 rfl hreal hhost
  | @returned R' pos' n' answer' req real' _ hcontrol' hreq hlist hreal' hto =>
    -- the loop goes on with the same answer, or ends
    rw [hcontrol] at hcontrol'
    injection hcontrol' with hR hp hn ha
    subst hR hp hn ha
    obtain ⟨real, hreal, hhost⟩ := h.query
    obtain rfl : real = real' := Option.some.inj (hreal.symm.trans hreal')
    have hself : (d.detached pos R real).realReqs R =
        some { real with listReqs := real.listReqs.erase pos } := Function.update_self ..
    exact Replying.answerTo hs' (hs.detached hreq hlist hreal) h.told h.cache hself hhost hto
  | returnedNow hc =>
    rw [hcontrol] at hc
    exact Control.noConfusion hc
  | responded hidle =>
    -- a datagram or a timer comes only when no callback runs
    rw [hcontrol] at hidle
    exact Control.noConfusion hidle
  | retried hidle =>
    rw [hcontrol] at hidle
    exact Control.noConfusion hidle
  | timedOut hidle =>
    rw [hcontrol] at hidle
    exact Control.noConfusion hidle
  | calledNow _ hidle =>
    rw [hcontrol] at hidle
    exact Control.noConfusion hidle

/-- What is left when a callback goes wrong; an address is missing only if the answer has none. -/
structure Broken (d0 : Resolver) (answer : Answer) (f : DnsFault) (d : Resolver) : Prop where
  noAddress : f = .nullIp → answer.NoAddress
  told : Told d0 answer d
  cache : d.sCacheHash = d0.sCacheHash
  control : d.control ≠ .idle

theorem Replying.faults (h : Replying d0 host R answer d) {e : DnsEvent} {f : DnsFault}
    (hf : DnsFaults d e f d') : Broken d0 answer f d' := by
  obtain ⟨pos, n, hcontrol⟩ := h.control
  have hbusy : d.control ≠ .idle := by
    rw [hcontrol]
    exact Control.noConfusion
  cases hf with
  | unterminated => exact ⟨DnsFault.noConfusion, h.told, h.cache, hbusy⟩
  | nullNode => exact ⟨DnsFault.noConfusion, h.told, h.cache, hbusy⟩
  | danglingNode => exact ⟨DnsFault.noConfusion, h.told, h.cache, hbusy⟩
  | posFreed => exact ⟨DnsFault.noConfusion, h.told, h.cache, hbusy⟩
  | nextFreed => exact ⟨DnsFault.noConfusion, h.told, h.cache, hbusy⟩
  | nullIp hcontrol' _ _ hnone =>
    rw [hcontrol] at hcontrol'
    injection hcontrol' with _ _ _ ha
    exact ⟨fun _ => ha ▸ hnone, h.told, h.cache, hbusy⟩
  | nowFreed => exact ⟨DnsFault.noConfusion, h.told, h.cache, hbusy⟩
  | timerReal => exact ⟨DnsFault.noConfusion, h.told, h.cache, hbusy⟩
  | timerNow => exact ⟨DnsFault.noConfusion, h.told, h.cache, hbusy⟩
  | nullIpAtOnce hidle => exact absurd hidle hbusy

/-- **All of the callbacks.**  They may resolve, cancel and return as they want. -/
theorem Replying.run (h : Replying d0 host R answer d ∨ Replied d0 host answer d)
    {es : List DnsEvent} (hes : Meets dnsStep (fun d e => userCall d e = true) es d) :
    wp (Machine.run dnsStep es)
      (fun _ d' => Replying d0 host R answer d' ∨ Replied d0 host answer d') (Broken d0 answer) d := by
  refine run_wp (fun d1 e h1 huser => ?_) es d h hes
  rcases h1 with h1 | h1
  · exact wp_mono (step_spec h1.sound e) (fun _ _ ht => h1.trans ht) fun _ _ hf => h1.faults hf
  · -- nothing runs any more
    rw [userCall, h1.control] at huser
    exact absurd huser Bool.false_ne_true

/-- The response arrives: the first round of the loop. -/
theorem response_spec (hs : Sound d) (hidle : d.control = .idle) {question : Bytes}
    (hfind : dnsRealReqFind d (cstr question) = some R) (hreal : d.realReqs R = some real)
    (resps : List ResponseRecord) (rcode : ℕ) :
    wp (dnsStep (.response question resps rcode))
      (fun _ d' => Sound d' ∧ AnswerTo d R (answerOf resps rcode) real.listReqs.head? d')
      (fun f _ => f = .nullIp ∧ (answerOf resps rcode).NoAddress) d := by
  refine wp_mono (step_spec hs _) (fun _ d' ht => ⟨hs.trans ht, ?_⟩) fun f d' hf => ?_
  · cases ht with
    | skip hskip =>
      rcases hskip with hskip | hskip
      · exact absurd hidle hskip
      · rw [hfind] at hskip
        exact absurd hskip (Option.some_ne_none R)
    | @responded _ _ _ R' real' _ _ hfind' hreal' hto =>
      obtain rfl : R = R' := Option.some.inj (hfind.symm.trans hfind')
      obtain rfl : real = real' := Option.some.inj (hreal.symm.trans hreal')
      exact hto
  · cases hf with
    | nullIpAtOnce _ hnone => exact ⟨rfl, hnone⟩

theorem Replying.begin (hs : Sound d) (hreal : d.realReqs R = some real) (hs' : Sound d')
    (hto : AnswerTo d R answer real.listReqs.head? d') :
    Replying d real.host R answer d' ∨ Replied d real.host answer d' := by
  refine Replying.answerTo hs' hs ⟨[], (List.append_nil _).symm, ?_⟩ rfl hreal rfl hto
  exact fun _ _ hmem => absurd hmem List.not_mem_nil

/-- The decoder, and then the answer. -/
theorem wp_dnsRecvCb {datagram : Bytes} {steps : ℕ} {m : Decoded} {reads : List ℕ} {question : Bytes}
    {hosts : List Bytes} (hm : decodeResponse (recvBuf datagram) steps [] = .ok m reads)
    (hhosts : m.hosts = question :: hosts) {Q : Unit → Resolver → Prop}
    {E : RecvFault → Resolver → Prop} :
    wp (dnsRecvCb datagram steps) Q E d ↔
      wp (dnsStep (.response question m.resps m.rcode)) Q (fun f => E (.dns f)) d := by
  unfold wp dnsRecvCb
  rw [hm]
  simp only [hhosts]
  cases dnsStep (.response question m.resps m.rcode) d with
  | ok => exact Iff.rfl
  | error => exact Iff.rfl

/-! ### Callbacks that only return -/

/-- A return to a loop whose entries have not been freed. -/
theorem ret_spec (hs : Sound d) (hreal : d.realReqs R = some real) {pos : ReqId}
    (hpos : pos ∈ real.listReqs) {n : Option ReqId} (hn : ∀ r, n = some r → r ∈ real.listReqs)
    (hcontrol : d.control = .answering R pos n answer) (haddress : ¬ answer.NoAddress) :
    wp (dnsStep .ret) (fun _ d' => Sound d' ∧ AnswerTo (d.detached pos R real) R answer n d')
      (fun _ _ => False) d := by
  refine wp_mono (step_spec hs .ret) (fun _ d' ht => ⟨hs.trans ht, ?_⟩) fun f d' hf => ?_
  · cases ht with
    | skip hidle =>
      rw [Ignored, hcontrol] at hidle
      exact Control.noConfusion hidle
    | @returned R' pos' n' answer' req' real' _ hcontrol' hreq' hlist' hreal' hto =>
      rw [hcontrol] at hcontrol'
      injection hcontrol' with hR hp hn ha
      subst hR hp hn ha
      obtain rfl : real = real' := Option.some.inj (hreal.symm.trans hreal')
      exact hto
    | returnedNow hc =>
      rw [hcontrol] at hc
      exact Control.noConfusion hc
  · -- both entries are in the list, so neither has been freed
    cases hf with
    | posFreed hc hnone =>
      obtain ⟨req, hreq, -⟩ := hs.listed R real hreal pos hpos
      rw [hcontrol] at hc
      injection hc with _ hp
      rw [← hp, hreq] at hnone
      exact Option.some_ne_none req hnone
    | nextFreed hc _ hnone =>
      rw [hcontrol] at hc
      injection hc with _ _ hnext
      obtain ⟨req, hreq, -⟩ := hs.listed R real hreal _ (hn _ hnext)
      rw [hreq] at hnone
      exact Option.some_ne_none req hnone
    | nullIp hc _ _ hnone =>
      rw [hcontrol] at hc
      injection hc with _ _ _ ha
      exact haddress (ha ▸ hnone)
    | nowFreed hc =>
      rw [hcontrol] at hc
      exact Control.noConfusion hc

/-- If the callbacks do nothing but return, the rest of the waiters are called in their order. -/
theorem answer_rets (haddress : ¬ answer.NoAddress) : ∀ (rest : List ReqId) {d : Resolver}
    {pos : ReqId} {real : RealReq}, Sound d → d.realReqs R = some real →
    real.listReqs = pos :: rest → d.control = .answering R pos rest.head? answer →
    wp (run dnsStep (List.replicate (rest.length + 1) .ret))
      (fun _ d' => d'.control = .idle ∧ d'.trace = d.trace ++ rest.map (.called · answer))
      (fun _ _ => False) d := by
  intro rest
  induction rest with
  | nil =>
    intro d pos real hs hreal hlist hcontrol
    have hpos : pos ∈ real.listReqs := by rw [hlist]; exact List.mem_cons_self
    rw [List.length_nil, List.replicate_succ, run, wp_bind]
    refine wp_mono (ret_spec hs hreal hpos (by simp) hcontrol haddress) ?_ (fun _ _ => id)
    rintro - d' ⟨-, hto⟩
    rw [List.replicate_zero, run]
    cases hto with
    | finish =>
      -- that was the last waiter
      refine ⟨rfl, ?_⟩
      rw [Resolver.finished_trace]
      exact (List.append_nil _).symm
  | cons r rest ih =>
    intro d pos real hs hreal hlist hcontrol
    have hpos : pos ∈ real.listReqs := by rw [hlist]; exact List.mem_cons_self
    have hr : ∀ r', (r :: rest).head? = some r' → r' ∈ real.listReqs := by
      intro r' hr'
      rw [List.head?_cons, Option.some.injEq] at hr'
      rw [hlist, ← hr']
      exact List.mem_cons_of_mem _ List.mem_cons_self
    rw [List.length_cons, List.replicate_succ, run, wp_bind]
    refine wp_mono (ret_spec hs hreal hpos hr hcontrol haddress) ?_ (fun _ _ => id)
    rintro - d' ⟨hs', hto⟩
    have hself : (d.detached pos R real).realReqs R =
        some { real with listReqs := real.listReqs.erase pos } := Function.update_self ..
    have herase : real.listReqs.erase pos = r :: rest := by
      rw [hlist, List.erase_cons_head]
    cases hto with
    | @call _ _ real1 _ hreal1 =>
      rw [hself, Option.some.injEq] at hreal1
      subst hreal1
      have hnext : nextOf (real.listReqs.erase pos) r = rest.head? := by
        rw [herase]
        exact nextOf_head r rest
      have hcontrol' : ((d.detached pos R real).calledBack R
          { real with listReqs := real.listReqs.erase pos } r answer).control =
            .answering R r rest.head? answer := by
        rw [← hnext]
        rfl
      refine wp_mono (ih hs' hself herase hcontrol') (fun _ d2 h2 => ⟨h2.1, ?_⟩) (fun _ _ => id)
      rw [h2.2, List.map_cons]
      exact List.append_assoc d.trace [.called r answer] _

/-! ### The addresses of a response -/

/-- The hosts of the queries are C strings. -/
def CleanHosts (d : Resolver) : Prop :=
  ∀ R real, d.realReqs R = some real → ∀ c ∈ real.host, c ≠ 0

theorem forall_mem_cstr (b : Bytes) : ∀ c ∈ cstr b, c ≠ 0 := by
  intro c hc
  have hpos : decide (c ≠ 0) = true := List.mem_takeWhile_imp (p := fun c => decide (c ≠ 0)) hc
  exact of_decide_eq_true hpos

theorem CleanHosts.setReal (h : CleanHosts d) {R' : RealId} {real' : RealReq}
    (hreal' : ∀ c ∈ real'.host, c ≠ 0) : CleanHosts (d.setReal R' real') := by
  intro R real hR
  have hR : Function.update d.realReqs R' (some real') R = some real := hR
  rw [Function.update_apply] at hR
  split_ifs at hR
  · rw [← Option.some.inj hR]
    exact hreal'
  · exact h R real hR

theorem CleanHosts.removeReal (h : CleanHosts d) (R' : RealId) (k : ℕ) :
    CleanHosts (d.removeReal R' k) := by
  intro R real hR
  have hR : Function.update d.realReqs R' none R = some real := hR
  rw [Function.update_apply] at hR
  split_ifs at hR
  exact h R real hR

theorem CleanHosts.answerTo (h : CleanHosts d) {n : Option ReqId}
    (hto : AnswerTo d R answer n d') : CleanHosts d' := by
  cases hto with
  | call => exact h
  | @finish real b t =>
    have hcached : CleanHosts (d.cached real.host answer) := by
      obtain ⟨table, htable⟩ := d.cached_eq real.host answer
      rw [htable]
      exact h
    have hrest : CleanHosts ((d.cached real.host answer).setEp b) := hcached
    exact hrest.removeReal R (dnsHashStr real.host)

theorem CleanHosts.trans (h : CleanHosts d) {e : DnsEvent} (ht : DnsTrans d e d') :
    CleanHosts d' := by
  cases ht with
  | skip => exact h
  | resolvedNow => exact h
  | @joined _ R' real hfind hreal =>
    have hadd : CleanHosts (d.addReq { list := some R' }) := h
    exact hadd.setReal (h R' real hreal)
  | @queried host b t =>
    have hclean := forall_mem_cstr host
    have hstart : CleanHosts (d.started (cstr host) b t) := by
      have hset : CleanHosts (d.setReal d.nextReal { host := cstr host, timer := some t }) :=
        h.setReal hclean
      exact hset
    have hadd : CleanHosts ((d.started (cstr host) b t).addReq { list := some d.nextReal }) := hstart
    exact hadd.setReal hclean
  | @cancelled r req R' real hreq hlist hreal => exact h.setReal (h R' real hreal)
  | @returned R' pos n answer req real _ hcontrol hreq hlist hreal hto =>
    have hdetached : CleanHosts (d.detached pos R' real) := h.setReal (h R' real hreal)
    exact hdetached.answerTo hto
  | returnedNow => exact h
  | responded _ _ _ hto => exact h.answerTo hto
  | @retried t i R' real b _ _ _ hreal =>
    have hep : CleanHosts (d.setEp b) := h
    exact hep.setReal (h R' real hreal)
  | @timedOut t i R' real b _ _ _ _ hreal _ _ hto =>
    have hep : CleanHosts (d.setEp b) := h
    have hcounted : CleanHosts (d.counted b R' real) := hep.setReal (h R' real hreal)
    exact hcounted.answerTo hto
  | calledNow => exact h

theorem wp_run_cleanHosts (es : List DnsEvent) :
    wp (run dnsStep es) (fun _ d => Sound d ∧ CleanHosts d) (fun _ _ => True) .init := by
  refine run_wp (fun d e h _ => ?_) es _ ⟨sound_init, fun _ _ h => ?_⟩ (meets_true es _)
  · exact wp_mono (step_spec h.1 e) (fun _ _ ht => ⟨h.1.trans ht, h.2.trans ht⟩) fun _ _ _ => trivial
  · exact absurd h.symm (Option.some_ne_none _)

/-- The datagram is received, and every waiter of the query is called back with these addresses:
whatever the callbacks do, each of them is given just these; and if they only return, all waiters are
called, in their order. -/
def CallsBackAll (d : Resolver) (real : RealReq) (ips : List Bytes) (datagram : Bytes) (steps : ℕ) :
    Prop :=
  wp (dnsRecvCb datagram steps)
    (fun _ d1 =>
      (∀ es, Meets dnsStep (fun d e => userCall d e = true) es d1 →
        wp (run dnsStep es)
          (fun _ d2 => ∀ r a, .called r a ∈ since d d2 → a.retCode = 0 ∧ a.ips = ips)
          (fun _ d2 => ∀ r a, .called r a ∈ since d d2 → a.retCode = 0 ∧ a.ips = ips) d1) ∧
      wp (run dnsStep (List.replicate real.listReqs.length .ret))
        (fun _ d2 => d2.control = .idle ∧
          ∃ cname, since d d2 = real.listReqs.map (.called · ⟨0, ips, cname⟩))
        (fun _ _ => False) d1)
    (fun _ _ => False) d

theorem since_of_told (h : Told d0 answer d) {r : ReqId} {a : Answer}
    (hmem : .called r a ∈ since d0 d) : a = answer := by
  obtain ⟨tr, htrace, hcalls⟩ := h
  rw [since_eq htrace] at hmem
  exact hcalls r a hmem

/-- An answer with the code 0 and an address reaches all. -/
theorem callsBackAll_of_decode (hs : Sound d) (hidle : d.control = .idle)
    (hreal : d.realReqs R = some real) {datagram : Bytes} {steps : ℕ} {m : Decoded}
    {reads : List ℕ} (hm : decodeResponse (recvBuf datagram) steps [] = .ok m reads)
    {question : Bytes} (hhosts : m.hosts = [question]) (hhost : real.host = cstr question)
    (h0 : (answerOf m.resps m.rcode).retCode = 0) (hips : (answerOf m.resps m.rcode).ips ≠ []) :
    CallsBackAll d real (answerOf m.resps m.rcode).ips datagram steps := by
  have hfind : dnsRealReqFind d (cstr question) = some R :=
    (hs.tables.realReqFind_eq_some_iff _ R).mpr ⟨real, hreal, hhost⟩
  have haddress : ¬ (answerOf m.resps m.rcode).NoAddress := fun h => hips h.2
  unfold CallsBackAll
  rw [wp_dnsRecvCb hm hhosts]
  refine wp_mono (response_spec hs hidle hfind hreal m.resps m.rcode) (fun _ d1 hto => ⟨?_, ?_⟩)
    fun f _ hf => haddress hf.2
  · -- whatever the callbacks do, those that come get this answer
    intro es hes
    have htold : ∀ d2, Told d (answerOf m.resps m.rcode) d2 → ∀ r a, .called r a ∈ since d d2 →
        a.retCode = 0 ∧ a.ips = (answerOf m.resps m.rcode).ips := by
      intro d2 h2 r a hmem
      rw [since_of_told h2 hmem]
      exact ⟨h0, rfl⟩
    refine wp_mono (Replying.run (Replying.begin hs hreal hto.1 hto.2) hes) ?_ fun f d2 hf => ?_
    · rintro - d2 (h2 | h2)
      · exact htold d2 h2.told
      · exact htold d2 h2.told
    · exact htold d2 hf.told
  · -- and if they only return, all waiters are called
    obtain ⟨hs1, hto⟩ := hto
    have hanswer : answerOf m.resps m.rcode =
        ⟨0, (answerOf m.resps m.rcode).ips, (answerOf m.resps m.rcode).cname⟩ := by
      rw [← h0]
    cases hlist : real.listReqs with
    | nil =>
      rw [hlist] at hto
      rw [List.length_nil, List.replicate_zero, run]
      cases hto with
      | finish => exact ⟨rfl, [], since_eq ((Resolver.finished_trace ..).trans (List.append_nil _).symm)⟩
    | cons r rest =>
      rw [hlist] at hto
      cases hto with
      | @call _ _ real' _ hreal' =>
        obtain rfl : real = real' := Option.some.inj (hreal.symm.trans hreal')
        have hcontrol : (d.calledBack R real r (answerOf m.resps m.rcode)).control =
            .answering R r rest.head? (answerOf m.resps m.rcode) := by
          rw [← nextOf_head r rest, ← hlist]
          rfl
        refine wp_mono (answer_rets haddress rest hs1 hreal hlist hcontrol)
          (fun _ d2 h2 => ⟨h2.1, (answerOf m.resps m.rcode).cname, ?_⟩) (fun _ _ => id)
        rw [← hanswer]
        refine since_eq (h2.2.trans ?_)
        exact List.append_assoc d.trace [.called r (answerOf m.resps m.rcode)] _

/-- **The addresses of a response reach every waiter.**  In every reachable state, let a well-formed
response with the code 0 and at least one address record arrive that answers a pending host.  If its
pointers stay below the offset 256, only its last record may have 256 bytes of data or more, and the
host is not empty, then every waiter is called back with the addresses of its address records, in
their order. -/
theorem wp_run_callsBackAll (history : List DnsEvent) (msg : Bytes) (question : List Bytes)
    (answers : List ResourceRecord) (h : ResponseAt msg 256 question answers)
    (hshort : shortButLast answers) (hne : question ≠ [])
    (hrcode : ∃ flags, msg[3]? = some flags ∧ flags &&& 0xf = 0)
    (haddress : ∃ record ∈ answers, record.type = 1) :
    wp (run dnsStep history)
      (fun _ d => ∀ R real, d.control = .idle → d.realReqs R = some real →
        real.host = nameText question →
        ∃ n, ∀ steps, n ≤ steps → CallsBackAll d real (addresses answers) msg steps)
      (fun _ _ => True) .init := by
  refine wp_mono (wp_run_cleanHosts history) (fun _ d hd R real hidle hreal hhost => ?_) (fun _ _ => id)
  obtain ⟨hs, hclean⟩ := hd
  have hnul : ∀ c ∈ nameText question, c ≠ 0 := by
    rw [← hhost]
    exact hclean R real hreal
  obtain ⟨flags, hflags, hzero⟩ := hrcode
  obtain ⟨resps, hmsg, hips, hcount⟩ := h.messageIn hshort hne
    (fun label hl c hc => hnul c (mem_nameText hl hc)) hflags
  obtain ⟨n, hn⟩ := hmsg.decode
  refine ⟨n, fun steps hsteps => ?_⟩
  obtain ⟨reads, hrun, -⟩ := (hn steps hsteps).eq_ok
  obtain ⟨record, hmem, htype⟩ := haddress
  have hsome : resps ≠ [] := by
    intro hnil
    rw [hnil, List.length_nil] at hcount
    exact List.ne_nil_of_mem hmem (List.length_eq_zero_iff.1 hcount.symm)
  have hcode : (flags &&& 0xf).toNat = 0 := by rw [hzero]; rfl
  have h0 : (answerOf resps ((flags &&& 0xf).toNat : ℕ)).retCode = 0 := by
    unfold answerOf
    rw [hcode]
    exact if_neg fun hempty => hsome (List.isEmpty_iff.1 hempty.1)
  have hips' : (answerOf resps ((flags &&& 0xf).toNat : ℕ)).ips = addresses answers := hips
  have hne' : addresses answers ≠ [] :=
    List.ne_nil_of_mem (List.mem_filterMap.2 ⟨record, hmem, if_pos htype⟩)
  have hall := callsBackAll_of_decode hs hidle hreal hrun rfl
    (hhost.trans (cstr_nameArray hnul).symm) h0 (by rw [hips']; exact hne')
  rw [hips'] at hall
  exact hall

/-- A response to `a` with these answers. -/
def replyToA (count : UInt8) (answers : Bytes) : Bytes :=
  [0, 1, 0x81, 0x80, 0, 1, 0, count, 0, 0, 0, 0] ++ [1, 97, 0, 0, 1, 0, 1] ++ answers

/-- An alias: `a` stands for `b`. -/
def aliasRecord : Bytes := [0xc0, 12, 0, 5, 0, 1, 0, 0, 0, 60, 0, 3, 1, 98, 0]

/-- An address record with the address `1.2.3.4`. -/
def addressRecord : Bytes := [0xc0, 12, 0, 1, 0, 1, 0, 0, 0, 60, 0, 4, 1, 2, 3, 4]

/-- A text record with 256 bytes of data. -/
def textRecord : Bytes := [0xc0, 12, 0, 16, 0, 1, 0, 0, 0, 60, 1, 0] ++ List.replicate 256 0

/-- The question of such a response. -/
theorem nameAt_replyToA (count : UInt8) (answers : Bytes) (limit : ℕ) :
    NameAt.Whole (replyToA count answers) limit 12 [bytes "a"] 15 :=
  ⟨.label rfl (by decide) (by decide) ⟨_, rfl⟩ (.root rfl), by decide⟩

/-- A pointer to the name of the question. -/
theorem nameAt_pointer {msg : Bytes} {limit p : ℕ} (hhi : msg[p]? = some 0xc0)
    (hlo : msg[p + 1]? = some 12) (hp : 12 < p) (hlimit : 12 < limit)
    (h : NameAt.Whole msg limit 12 [bytes "a"] 15) :
    NameAt.Whole msg limit p [bytes "a"] (p + 2) :=
  ⟨.pointer hhi hlo (by decide) hp hlimit h.1, h.2⟩

theorem responseAt_alias : ResponseAt (replyToA 2 (aliasRecord ++ addressRecord)) 256 [bytes "a"]
    [⟨5, [1, 98, 0]⟩, ⟨1, [1, 2, 3, 4]⟩] := by
  have hname := nameAt_replyToA 2 (aliasRecord ++ addressRecord) 256
  refine ⟨by decide, ⟨0x81, by decide, by decide⟩, by decide, by decide, 15, hname, ?_⟩
  refine .more (q := 34) ⟨21, [bytes "a"], nameAt_pointer (by decide) (by decide) (by decide)
    (by decide) hname, by decide, by decide, by decide, rfl, by decide, fun _ => ?_⟩ ?_
  · exact ⟨[bytes "b"], .label rfl (by decide) (by decide) (by decide) (.root rfl), by decide⟩
  · exact .more (q := 50) ⟨36, [bytes "a"], nameAt_pointer (by decide) (by decide) (by decide)
      (by decide) hname, by decide, by decide, by decide, rfl, by decide,
      fun h => absurd h (by decide)⟩ (.none (by decide))

/-- An alias and an address. -/
theorem wp_run_callsBackAll_alias :
    ResponseAt (replyToA 2 (aliasRecord ++ addressRecord)) 256 [bytes "a"]
      [⟨5, [1, 98, 0]⟩, ⟨1, [1, 2, 3, 4]⟩] ∧
    wp (run dnsStep [.resolve (bytes "a"), .resolve (bytes "a")])
      (fun _ d => ∃ real, real.listReqs = [0, 1] ∧ ∃ n, ∀ steps, n ≤ steps →
        CallsBackAll d real [bytes "1.2.3.4"] (replyToA 2 (aliasRecord ++ addressRecord)) steps)
      (fun _ _ => False) .init := by
  refine ⟨responseAt_alias, ?_⟩
  have hstate : wp (run dnsStep [.resolve (bytes "a"), .resolve (bytes "a")])
      (fun _ d => d.control = .idle ∧
        (d.realReqs 0).map (fun real => (real.host, real.listReqs)) = some (bytes "a", [0, 1]))
      (fun _ _ => False) .init := by
    decide +kernel
  have hmain := wp_run_callsBackAll [.resolve (bytes "a"), .resolve (bytes "a")] _ _ _
    responseAt_alias (by intro record hr; rw [List.mem_singleton.1 hr]; decide) (by decide)
    ⟨0x80, by decide, by decide⟩ ⟨⟨1, [1, 2, 3, 4]⟩, by simp, rfl⟩
  refine wp_mono (wp_and hmain hstate) ?_ (fun _ _ hE => hE.2)
  rintro - d ⟨hall, hidle, hreal⟩
  obtain ⟨real, hreal, hfields⟩ := Option.map_eq_some_iff.mp hreal
  rw [Prod.mk.injEq] at hfields
  exact ⟨real, hfields.2, hall 0 real hidle hreal hfields.1⟩

theorem responseAt_text : ResponseAt (replyToA 2 (textRecord ++ addressRecord)) (2 ^ 14) [bytes "a"]
    [⟨16, List.replicate 256 0⟩, ⟨1, [1, 2, 3, 4]⟩] := by
  have hname := nameAt_replyToA 2 (textRecord ++ addressRecord) (2 ^ 14)
  refine ⟨by decide +kernel, ⟨0x81, by decide, by decide⟩, by decide, by decide, 15, hname, ?_⟩
  refine .more (q := 287) ⟨21, [bytes "a"], nameAt_pointer (by decide +kernel) (by decide +kernel)
    (by decide) (by decide) hname, by decide +kernel, by decide +kernel, by decide +kernel,
    by decide +kernel, fun h => absurd h (by decide), fun h => absurd h (by decide)⟩ ?_
  exact .more (q := 303) ⟨289, [bytes "a"], nameAt_pointer (by decide +kernel) (by decide +kernel)
    (by decide) (by decide) hname, by decide +kernel, by decide +kernel, by decide +kernel, rfl,
    fun _ => rfl, fun h => absurd h (by decide)⟩ (.none (by decide +kernel))

/-- The record after 256 bytes of data is looked for one byte too early, and its address is missed. -/
theorem not_callsBackAll : ¬ ∀ history msg question answers, ResponseAt msg (2 ^ 14) question answers →
    (∃ flags, msg[3]? = some flags ∧ flags &&& 0xf = 0) → (∃ record ∈ answers, record.type = 1) →
    wp (run dnsStep history)
      (fun _ d => ∀ R real, d.control = .idle → d.realReqs R = some real →
        real.host = nameText question →
        ∃ n, ∀ steps, n ≤ steps → CallsBackAll d real (addresses answers) msg steps)
      (fun _ _ => True) .init := by
  intro h
  -- what the decoder makes of the datagram, at a size of memory that suffices
  have hdecode : wp (decodeResponse (recvBuf (replyToA 2 (textRecord ++ addressRecord))) 9)
      (fun m reads => m = ⟨[nameArray (bytes "a")], [⟨16, [], []⟩, ⟨48972, [], []⟩], 0⟩ ∧
        ∀ i ∈ reads, i < (replyToA 2 (textRecord ++ addressRecord)).length)
      (fun _ _ => False) [] := by
    decide +kernel
  obtain ⟨m, reads, hrun, rfl, hreads⟩ := eq_ok_of_wp hdecode
  have honly := only_decodeResponse (replyToA 2 (textRecord ++ addressRecord)) 9 []
  rw [wp_of_ok hrun] at honly
  obtain ⟨new, hnew, hmsg⟩ := honly
  rw [List.nil_append] at hnew
  rw [hnew] at hreads
  obtain ⟨n, hn⟩ := (hmsg hreads).decode
  -- `a` is being resolved, and one request waits for it
  have hstate : wp (run dnsStep [.resolve (bytes "a")])
      (fun _ d => d.control = .idle ∧
        (d.realReqs 0).map (fun real => (real.host, real.listReqs)) = some (bytes "a", [0]))
      (fun _ _ => False) .init := by
    decide +kernel
  have hmain := h [.resolve (bytes "a")] _ _ _ responseAt_text ⟨0x80, by decide, by decide⟩
    ⟨⟨1, [1, 2, 3, 4]⟩, List.mem_cons_of_mem _ List.mem_cons_self, rfl⟩
  obtain ⟨-, d, ⟨hs, hall⟩, hidle, hreal⟩ := exists_of_wp (wp_mono (wp_and (wp_and
    (wp_run_sound [.resolve (bytes "a")]) hmain) hstate) (fun _ _ => id) (fun _ _ hE => hE.2))
  obtain ⟨real, hreal, hfields⟩ := Option.map_eq_some_iff.mp hreal
  rw [Prod.mk.injEq] at hfields
  obtain ⟨n', hn'⟩ := hall 0 real hidle hreal hfields.1
  obtain ⟨reads', hrun', -⟩ := (hn (max n n') (le_max_left ..)).eq_ok
  have hcalls := hn' (max n n') (le_max_right ..)
  have hfind : dnsRealReqFind d (cstr (nameArray (bytes "a"))) = some 0 :=
    (hs.tables.realReqFind_eq_some_iff _ 0).mpr ⟨real, hreal, hfields.1⟩
  unfold CallsBackAll at hcalls
  rw [wp_dnsRecvCb hrun' rfl] at hcalls
  obtain ⟨-, d1, ⟨-, hto⟩, hright, -⟩ := exists_of_wp (wp_mono (wp_and
    (response_spec hs hidle hfind hreal [⟨16, [], []⟩, ⟨48972, [], []⟩] 0) hcalls) (fun _ _ => id)
    fun _ _ hf => hf.2)
  rw [hfields.2] at hto
  cases hto with
  | call =>
    -- the callback is called at once, without the address
    have hfirst := hright [] (meets_nil _)
    rw [run] at hfirst
    have hips := (hfirst 0 _ (by rw [since_eq rfl]; exact List.mem_singleton_self _)).2
    exact absurd hips (by decide)

/-! ### Addresses as texts -/

section Replies

variable {msg : Bytes} {steps : ℕ} {answers : List ResourceRecord}

end Replies

end H2ClientProxy.Dns
