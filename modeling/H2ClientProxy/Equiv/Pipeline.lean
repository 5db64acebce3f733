import H2ClientProxy.Equiv.Timely

/-!
# Pipelined requests are submitted in order

A client has one slot for the header of the current request and one for the header of the pending
request.  The parser fills them (`client_msg_begin`, `client_headers_completecb`), the end of a
response moves the pending header up (`client_handle_relay_msg_complete`), and the connect timer of
a relay submits the current one (`client_handle_relay_connected`).

* `InOrder`: at every moment the requests that were submitted are the first ones of those whose header
  block was completed, and a relay is created for such a request only;
* `OneAhead`: the condition; a request begins only while none is pending, and no response ends while
  the header block of the pending request is being parsed;
* `Ordered`: the invariant; `awaited` lists the requests between their completion and their submission;
* `wp_run_inOrder`: under the condition every run keeps the order.
-/

namespace H2ClientProxy

open Wp Machine SendQueue

variable {w w' : World} {r : RelayId} {c : ClientId}

/-! ### The property -/

/-- The request of the client `c` whose header block was completed. -/
def Obs.completes (c : ClientId) : Obs → Option ℕ
  | .headersComplete c' req => if c' = c then some req else none
  | _ => none

/-- The request of the client `c` whose header was handed to `relay_send_request`. -/
def Obs.submits (c : ClientId) : Obs → Option ℕ
  | .sendRequest _ c' req => if c' = c then some req else none
  | _ => none

/-- The requests of `c` whose header blocks were completed, in order. -/
def completedReqs (c : ClientId) (trace : List Obs) : List ℕ := trace.filterMap (Obs.completes c)

/-- The requests of `c` that were submitted, in order. -/
def submittedReqs (c : ClientId) (trace : List Obs) : List ℕ := trace.filterMap (Obs.submits c)

/-- At every moment the requests submitted for a client are the first ones of those whose header
blocks were completed, which are all different; a relay is created for a completed one only. -/
structure InOrder (trace : List Obs) : Prop where
  submitted : ∀ t, t <+: trace → ∀ c, submittedReqs c t <+: completedReqs c t
  increasing : ∀ c, (completedReqs c trace).Pairwise (· < ·)
  created : ∀ t r c req, t ++ [.create r c req] <+: trace → req ∈ completedReqs c t

/-! ### The condition -/

/-- A request begins only while no other is pending, and when a client leaves its relay, the header
block of its pending request is complete. -/
def OneAhead (w : World) (e : Event) : Bool :=
  HeadersWhole w e &&
    match e with
    | .msgBegin c =>
      (w.clients c).all fun cl => cl.parser ≠ .idle || cl.pendingRequestHeader.isNone
    | _ => true

/-! ### Traces that grow -/

theorem completedReqs_append (c : ClientId) (t t' : List Obs) :
    completedReqs c (t ++ t') = completedReqs c t ++ completedReqs c t' :=
  List.filterMap_append ..

theorem submittedReqs_append (c : ClientId) (t t' : List Obs) :
    submittedReqs c (t ++ t') = submittedReqs c t ++ submittedReqs c t' :=
  List.filterMap_append ..

theorem completedReqs_neutral {os : List Obs} (ho : ∀ o ∈ os, o.neutral = true) (c : ClientId) :
    completedReqs c os = [] := by
  rw [completedReqs, List.filterMap_eq_nil_iff]
  intro o hmem
  have hn := ho o hmem
  cases o with
  | headersComplete => exact absurd hn (by simp [Obs.neutral])
  | _ => rfl

theorem submittedReqs_neutral {os : List Obs} (ho : ∀ o ∈ os, o.neutral = true) (c : ClientId) :
    submittedReqs c os = [] := by
  rw [submittedReqs, List.filterMap_eq_nil_iff]
  intro o hmem
  have hn := ho o hmem
  cases o with
  | sendRequest => exact absurd hn (by simp [Obs.neutral])
  | _ => rfl

theorem inOrder_nil : InOrder [] where
  submitted := by
    intro t ht c
    rw [List.prefix_nil] at ht
    rw [ht]
    exact List.nil_prefix
  increasing := fun _ => List.Pairwise.nil
  created := by
    intro t r c req ht
    rw [List.prefix_nil] at ht
    exact absurd ht (by simp)

/-- One more observation. -/
theorem InOrder.concat {t : List Obs} {o : Obs} (h : InOrder t)
    (hs : ∀ c, submittedReqs c (t ++ [o]) <+: completedReqs c (t ++ [o]))
    (hi : ∀ c, (completedReqs c (t ++ [o])).Pairwise (· < ·))
    (hc : ∀ r c req, o = .create r c req → req ∈ completedReqs c t) : InOrder (t ++ [o]) where
  submitted := by
    intro t' ht' c
    rcases List.prefix_concat_iff.mp ht' with rfl | ht'
    · exact hs c
    · exact h.submitted t' ht' c
  increasing := hi
  created := by
    intro t' r c req ht'
    rcases List.prefix_concat_iff.mp ht' with he | ht'
    · obtain ⟨ht, ho⟩ := List.append_singleton_inj.mp he
      rw [ht]
      exact hc r c req ho.symm
    · exact h.created t' r c req ht'

/-- An observation that neither completes nor submits a header block. -/
theorem InOrder.concat_other {t : List Obs} {o : Obs} (h : InOrder t)
    (h1 : ∀ c, o.completes c = none) (h2 : ∀ c, o.submits c = none)
    (hc : ∀ r c req, o = .create r c req → req ∈ completedReqs c t) : InOrder (t ++ [o]) := by
  have hcomp : ∀ c, completedReqs c (t ++ [o]) = completedReqs c t := by
    intro c
    rw [completedReqs_append, completedReqs, completedReqs, List.filterMap_cons, h1 c]
    exact List.append_nil _
  have hsub : ∀ c, submittedReqs c (t ++ [o]) = submittedReqs c t := by
    intro c
    rw [submittedReqs_append, submittedReqs, submittedReqs, List.filterMap_cons, h2 c]
    exact List.append_nil _
  refine h.concat (fun c => ?_) (fun c => ?_) hc
  · rw [hcomp, hsub]
    exact h.submitted t List.prefix_rfl c
  · rw [hcomp]
    exact h.increasing c

theorem InOrder.neutral {t os : List Obs} (h : InOrder t) (ho : ∀ o ∈ os, o.neutral = true) :
    InOrder (t ++ os) := by
  induction os generalizing t with
  | nil =>
    rw [List.append_nil]
    exact h
  | cons o os ih =>
    rw [List.append_cons]
    refine ih ?_ fun o' ho' => ho o' (List.mem_cons_of_mem o ho')
    have hn := ho o (List.mem_cons_self ..)
    refine h.concat_other ?_ ?_ ?_
    · intro c
      cases o with
      | headersComplete => exact absurd hn (by simp [Obs.neutral])
      | _ => rfl
    · intro c
      cases o with
      | sendRequest => exact absurd hn (by simp [Obs.neutral])
      | _ => rfl
    · rintro r c req rfl
      exact absurd hn (by simp [Obs.neutral])

/-! ### Header blocks that are completed or submitted -/

@[simp]
theorem completedReqs_complete (c1 c : ClientId) (t : List Obs) (n : ℕ) :
    completedReqs c1 (t ++ [Obs.headersComplete c n])
      = completedReqs c1 t ++ if c = c1 then [n] else [] := by
  rw [completedReqs_append]
  congr 1
  show ([Obs.headersComplete c n].filterMap fun o => o.completes c1) = _
  split_ifs with he <;> simp [Obs.completes, he]

@[simp]
theorem submittedReqs_complete (c1 c : ClientId) (t : List Obs) (n : ℕ) :
    submittedReqs c1 (t ++ [Obs.headersComplete c n]) = submittedReqs c1 t := by
  rw [submittedReqs_append]
  exact List.append_nil _

@[simp]
theorem completedReqs_create (c1 c : ClientId) (t : List Obs) (n : ℕ) :
    completedReqs c1 (t ++ [Obs.create r c n]) = completedReqs c1 t := by
  rw [completedReqs_append]
  exact List.append_nil _

@[simp]
theorem submittedReqs_create (c1 c : ClientId) (t : List Obs) (n : ℕ) :
    submittedReqs c1 (t ++ [Obs.create r c n]) = submittedReqs c1 t := by
  rw [submittedReqs_append]
  exact List.append_nil _

@[simp]
theorem completedReqs_submit (c1 c : ClientId) (t : List Obs) (n : ℕ) :
    completedReqs c1 (t ++ [Obs.sendRequest r c n]) = completedReqs c1 t := by
  rw [completedReqs_append]
  exact List.append_nil _

@[simp]
theorem submittedReqs_submit (c1 c : ClientId) (t : List Obs) (n : ℕ) :
    submittedReqs c1 (t ++ [Obs.sendRequest r c n])
      = submittedReqs c1 t ++ if c = c1 then [n] else [] := by
  rw [submittedReqs_append]
  congr 1
  show ([Obs.sendRequest r c n].filterMap fun o => o.submits c1) = _
  split_ifs with he <;> simp [Obs.submits, he]

/-- The header block of a new request is completed. -/
theorem InOrder.complete {t : List Obs} {n : ℕ} (h : InOrder t)
    (hlt : ∀ req ∈ completedReqs c t, req < n) : InOrder (t ++ [Obs.headersComplete c n]) := by
  refine h.concat (fun c1 => ?_) (fun c1 => ?_) (by simp)
  · rw [submittedReqs_complete, completedReqs_complete]
    exact (h.submitted t List.prefix_rfl c1).trans (List.prefix_append ..)
  · rw [completedReqs_complete]
    split_ifs with he
    · subst he
      rw [List.pairwise_append]
      refine ⟨h.increasing c, List.pairwise_singleton .., fun req hreq n' hn' => ?_⟩
      rw [List.mem_singleton.mp hn']
      exact hlt req hreq
    · rw [List.append_nil]
      exact h.increasing c1

/-- The first of the completed requests that are not submitted yet is submitted. -/
theorem InOrder.submit {t : List Obs} {n : ℕ} {rest : List ℕ} (h : InOrder t)
    (he : completedReqs c t = submittedReqs c t ++ n :: rest) :
    InOrder (t ++ [Obs.sendRequest r c n]) := by
  refine h.concat (fun c1 => ?_) (fun c1 => ?_) (by simp)
  · rw [submittedReqs_submit, completedReqs_submit]
    split_ifs with hc
    · subst hc
      rw [he, List.prefix_append_right_inj]
      exact ⟨rest, rfl⟩
    · rw [List.append_nil]
      exact h.submitted t List.prefix_rfl c1
  · rw [completedReqs_submit]
    exact h.increasing c1

/-- A neutral observation is noted. -/
theorem InOrder.note {t : List Obs} {o : Obs} (h : InOrder t) (ho : o.neutral = true) :
    InOrder (t ++ [o]) :=
  h.neutral (by simpa using ho)

theorem Calm.inOrder (hk : Calm w w') (h : InOrder w.trace) : InOrder w'.trace := by
  obtain ⟨os, ht, ho⟩ := hk.trace
  rw [ht]
  exact h.neutral ho

/-! ### The invariant -/

/-- The current relay of the client waits for its timer. -/
def waits (w : World) (cl : Client) : Bool := (cl.relay.bind w.relays).any (·.tmrConnectd)

/-- The requests of a client between their completion and their submission: the current one until
the timer of its relay fires, then the pending one when its header block is complete. -/
def awaited (w : World) (cl : Client) : List ℕ :=
  (if waits w cl then (cl.requestHeader.map Header.id).toList else []) ++
    if cl.parser = .head then [] else (cl.pendingRequestHeader.map Header.id).toList

/-- What was completed has been submitted or is awaited, and the header that is being parsed is the
one of the request the parser is in. -/
structure OrderedClient (w : World) (c : ClientId) (cl : Client) : Prop where
  awaited : completedReqs c w.trace = submittedReqs c w.trace ++ awaited w cl
  le : ∀ req ∈ completedReqs c w.trace, req ≤ cl.reqNo
  lt : cl.parser = .head → ∀ req ∈ completedReqs c w.trace, req < cl.reqNo
  pending_id : ∀ req, cl.pendingRequestHeader.map Header.id = some req → req = cl.reqNo
  head_id : cl.parser = .head → cl.pendingRequestHeader.map Header.id = none →
    ∀ req, cl.requestHeader.map Header.id = some req → req = cl.reqNo

structure Ordered (w : World) : Prop where
  client : ∀ c cl, w.clients c = some cl → OrderedClient w c cl
  inOrder : InOrder w.trace
  fresh : ∀ c, w.nextClient ≤ c → completedReqs c w.trace = []

theorem ordered_init : Ordered World.init := by
  constructor
  · intro c cl hc
    exact absurd hc (by simp [World.init])
  · exact inOrder_nil
  · exact fun _ _ => rfl

theorem waits_iff {cl : Client} : waits w cl = true ↔
    ∃ r rel, cl.relay = some r ∧ w.relays r = some rel ∧ rel.tmrConnectd = true := by
  rw [waits, Option.any_eq_true _ _]
  constructor
  · rintro ⟨rel, hrel, ht⟩
    obtain ⟨r, hr, hrel⟩ := Option.bind_eq_some_iff.mp hrel
    exact ⟨r, rel, hr, hrel, ht⟩
  · rintro ⟨r, rel, hr, hrel, ht⟩
    exact ⟨rel, Option.bind_eq_some_iff.mpr ⟨r, hr, hrel⟩, ht⟩

/-- A pending request is awaited from the end of its header block on. -/
theorem awaited_eq {cl : Client}
    (hp : cl.parser = .head ∨ cl.pendingRequestHeader.map Header.id = none) :
    awaited w cl = if waits w cl then (cl.requestHeader.map Header.id).toList else [] := by
  rw [awaited]
  rcases hp with hp | hp
  · rw [if_pos hp, List.append_nil]
  · rw [hp, Option.toList_none, ite_self, List.append_nil]

/-- A client without a relay awaits nothing else. -/
theorem awaited_of_relay_none {cl : Client} (hr : cl.relay = none)
    (hp : cl.parser = .head ∨ cl.pendingRequestHeader.map Header.id = none) :
    awaited w cl = [] := by
  have hw : waits w cl = false := by
    rw [waits, hr]
    rfl
  rw [awaited_eq hp, hw]
  rfl

/-- A client awaits its current request while its relay waits. -/
theorem awaited_new {cl : Client} {rel : Relay} (hr : cl.relay = some r)
    (hrel : w.relays r = some rel) (ht : rel.tmrConnectd = true)
    (hp : cl.pendingRequestHeader.map Header.id = none) :
    awaited w cl = (cl.requestHeader.map Header.id).toList := by
  have hw : waits w cl = true := waits_iff.mpr ⟨r, rel, hr, hrel, ht⟩
  rw [awaited_eq (Or.inr hp), if_pos hw]

/-- A relay that waits goes on waiting in a calm step. -/
theorem Calm.waits_eq {cl cl' : Client} (hk : Calm w w') (hl : Linked w) (ht : Timely w)
    (hc : w.clients c = some cl) (hc' : w'.clients c = some cl') (hr : cl'.relay = cl.relay) :
    waits w' cl' = waits w cl := by
  rw [Bool.eq_iff_iff, waits_iff, waits_iff, hr]
  constructor
  · rintro ⟨r, rel', hcr, hr', htmr⟩
    obtain ⟨rel, hr, hrel⟩ := hk.relays r rel' hr'
    exact ⟨r, rel, hcr, hr, (hrel.tmrConnectd htmr).1⟩
  · rintro ⟨r, rel, hcr, hr, htmr⟩
    rcases hk.waiting r rel hr htmr with ⟨rel', hr', htmr'⟩ | ⟨s, st, hs, hu⟩ | hnone
    · exact ⟨r, rel', hcr, hr', htmr'⟩
    · exact absurd hu ((ht.unsent r rel hr htmr).2 s st hs)
    · have hargs : rel.args = c := ((hl.current c cl r hc hcr).2 rel hr).1
      rw [hargs, hc'] at hnone
      exact absurd hnone (by simp)

/-- **A calm change keeps the invariant.** -/
theorem Ordered.calm (h : Ordered w) (hl : Linked w) (ht : Timely w) (hk : Calm w w') :
    Ordered w' := by
  obtain ⟨os, htr, ho⟩ := hk.trace
  have hcomp : ∀ c, completedReqs c w'.trace = completedReqs c w.trace := by
    intro c
    rw [htr, completedReqs_append, completedReqs_neutral ho, List.append_nil]
  have hsub : ∀ c, submittedReqs c w'.trace = submittedReqs c w.trace := by
    intro c
    rw [htr, submittedReqs_append, submittedReqs_neutral ho, List.append_nil]
  constructor
  · intro c cl' hc'
    obtain ⟨cl, hc, hcl⟩ := hk.clients c cl' hc'
    obtain ⟨h1, h2, h3, h4, h5⟩ := h.client c cl hc
    have hhead : cl'.parser = .head ↔ cl.parser = .head := by
      rcases hcl.parser with he | ⟨he, he'⟩
      · rw [he]
      · rw [he, he']
        simp
    constructor
    · rw [hcomp, hsub, h1, awaited, awaited, hk.waits_eq hl ht hc hc' hcl.relay,
        hcl.requestHeader, hcl.pendingRequestHeader, if_congr hhead rfl rfl]
    · rw [hcomp, hcl.reqNo]
      exact h2
    · rw [hcomp, hcl.reqNo, hhead]
      exact h3
    · rw [hcl.pendingRequestHeader, hcl.reqNo]
      exact h4
    · rw [hcl.pendingRequestHeader, hcl.requestHeader, hcl.reqNo, hhead]
      exact h5
  · exact hk.inOrder h.inOrder
  · intro c hc
    rw [hcomp]
    exact h.fresh c (hk.nextClient ▸ hc)

/-! ### The other turns -/

/-- What is noted about another client does not matter, and neither do other relays. -/
theorem OrderedClient.other {cl : Client} (h : OrderedClient w c cl)
    (hcomp : completedReqs c w'.trace = completedReqs c w.trace)
    (hsub : submittedReqs c w'.trace = submittedReqs c w.trace)
    (hr : ∀ r, cl.relay = some r → w'.relays r = w.relays r) : OrderedClient w' c cl := by
  obtain ⟨h1, h2, h3, h4, h5⟩ := h
  have hw : waits w' cl = waits w cl := by
    unfold waits
    cases hcr : cl.relay with
    | none => rfl
    | some r => rw [Option.bind_some, Option.bind_some, hr r hcr]
  constructor
  · rw [hcomp, hsub, h1, H2ClientProxy.awaited, H2ClientProxy.awaited, hw]
  · rw [hcomp]
    exact h2
  · rw [hcomp]
    exact h3
  · exact h4
  · exact h5

/-- Only one client changes; nothing is noted about the others. -/
theorem Ordered.update {cl' : Client} (h : Ordered w)
    (hcl : ∀ c1, c1 ≠ c → w'.clients c1 = w.clients c1) (hc : w'.clients c = some cl')
    (hnew : OrderedClient w' c cl') (hord : InOrder w'.trace)
    (hcomp : ∀ c1, c1 ≠ c → completedReqs c1 w'.trace = completedReqs c1 w.trace)
    (hsub : ∀ c1, c1 ≠ c → submittedReqs c1 w'.trace = submittedReqs c1 w.trace)
    (hr : ∀ c1 cl1 r, c1 ≠ c → w.clients c1 = some cl1 → cl1.relay = some r →
      w'.relays r = w.relays r)
    (hn : w'.nextClient = w.nextClient) (hlt : c < w.nextClient) : Ordered w' := by
  constructor
  · intro c1 cl1 hc1
    by_cases he : c1 = c
    · subst he
      rw [hc, Option.some.injEq] at hc1
      exact hc1 ▸ hnew
    · rw [hcl c1 he] at hc1
      exact (h.client c1 cl1 hc1).other (hcomp c1 he) (hsub c1 he) fun r => hr c1 cl1 r he hc1
  · exact hord
  · intro c1 hc1
    rw [hn] at hc1
    rw [hcomp c1 (Nat.ne_of_gt (lt_of_lt_of_le hlt hc1))]
    exact h.fresh c1 hc1

/-- A request begins while none is pending. -/
theorem Ordered.begun {cl cl' : Client} (h : Ordered w) (hl : Linked w)
    (hc : w.clients c = some cl) (hn : cl.pendingRequestHeader = none) (hb : Begun cl cl') :
    Ordered (w.setClient c (some cl')) := by
  obtain ⟨h1, h2, h3, h4, h5⟩ := h.client c cl hc
  have hle : ∀ req ∈ completedReqs c w.trace, req < cl.reqNo + 1 :=
    fun req hreq => Nat.lt_succ_of_le (h2 req hreq)
  have hnew : OrderedClient (w.setClient c (some cl')) c cl' := by
    cases hb with
    | pending hr hh =>
      constructor
      case awaited =>
        -- the pending request is not awaited before its header block is complete
        show completedReqs c w.trace = submittedReqs c w.trace ++ _
        rw [h1, awaited_eq (Or.inr (by rw [hn]; rfl)), awaited_eq (Or.inl rfl)]
        rfl
      case le => exact fun req hreq => (hle req hreq).le
      case lt => exact fun _ => hle
      all_goals simp [headerNew]
    | current hr hh =>
      constructor
      case awaited =>
        show completedReqs c w.trace = submittedReqs c w.trace ++ _
        rw [h1, awaited_eq (Or.inr (by rw [hn]; rfl)), awaited_eq (Or.inl rfl)]
        simp [waits, hr]
      case le => exact fun req hreq => (hle req hreq).le
      case lt => exact fun _ => hle
      case pending_id => simp [hn]
      case head_id => simp [headerNew]
  exact h.update (fun c1 he => Function.update_of_ne he _ _) (Function.update_self ..) hnew
    h.inOrder (fun _ _ => rfl) (fun _ _ => rfl) (fun _ _ _ _ _ _ => rfl) rfl (hl.client_lt c cl hc)

/-- The header block that is being parsed is the one of the request the parser is in. -/
theorem OrderedClient.reqHeader_id {cl : Client} {hd : Header} (h : OrderedClient w c cl)
    (hp : cl.parser = .head) (hh : reqHeader cl = some hd) : hd.id = cl.reqNo := by
  unfold reqHeader at hh
  cases hpend : cl.pendingRequestHeader with
  | some hd1 =>
    rw [hpend] at hh
    obtain rfl := Option.some.inj hh
    exact h.pending_id hd1.id (by rw [hpend]; rfl)
  | none =>
    rw [hpend] at hh
    exact h.head_id hp (by rw [hpend]; rfl) hd.id (by dsimp only at hh; rw [hh]; rfl)

/-- The header block of the request the parser is in is complete. -/
theorem Ordered.headersDone {cl : Client} (h : Ordered w) (hl : Linked w) (ht : Timely w)
    (hc : w.clients c = some cl) (hp : cl.parser = .head) (hd : HeadersDone c cl w w') :
    Ordered w' := by
  have hcl := h.client c cl hc
  have hlt := hcl.lt hp
  cases hd with
  | @pending hd hd' hh hid hpend =>
    have hreq : hd'.id = cl.reqNo := hid.trans (hcl.reqHeader_id hp hh)
    have hk : CtlKept cl (setReqHeader cl hd') := setReqHeader_ctl hh hid
    have hpid : cl.pendingRequestHeader.map Header.id = some cl.reqNo := by
      obtain ⟨hd1, hd1e⟩ := Option.isSome_iff_exists.mp hpend
      rw [hd1e, Option.map_some, hcl.pending_id hd1.id (by rw [hd1e]; rfl)]
    rw [hreq]
    have hnew : OrderedClient ((w.log (.headersComplete c cl.reqNo)).setClient c
        (some (completed cl hd'))) c (completed cl hd') := by
      constructor
      · show completedReqs c (w.trace ++ [Obs.headersComplete c cl.reqNo])
          = submittedReqs c (w.trace ++ [Obs.headersComplete c cl.reqNo]) ++ _
        rw [completedReqs_complete, submittedReqs_complete, if_pos rfl, hcl.awaited,
          awaited_eq (Or.inl hp), List.append_assoc]
        congr 1
        -- the pending request is awaited from now on
        show _ = (if waits w (setReqHeader cl hd') then
            ((setReqHeader cl hd').requestHeader.map Header.id).toList else []) ++
          ((setReqHeader cl hd').pendingRequestHeader.map Header.id).toList
        rw [hk.requestHeader, hk.pendingRequestHeader, hpid, waits, waits, hk.relay]
        rfl
      · intro req hmem
        show req ≤ (setReqHeader cl hd').reqNo
        rw [hk.reqNo]
        have hmem' : req ∈ completedReqs c (w.trace ++ [Obs.headersComplete c cl.reqNo]) := hmem
        rw [completedReqs_complete, if_pos rfl] at hmem'
        rcases List.mem_append.mp hmem' with hmem' | hmem'
        · exact hcl.le req hmem'
        · exact (List.mem_singleton.mp hmem').le
      · exact fun hhead => absurd hhead (by simp [completed])
      · show ∀ req, (setReqHeader cl hd').pendingRequestHeader.map Header.id = some req →
          req = (setReqHeader cl hd').reqNo
        rw [hk.pendingRequestHeader, hk.reqNo]
        exact hcl.pending_id
      · exact fun hhead => absurd hhead (by simp [completed])
    refine h.update (fun c1 he => Function.update_of_ne he _ _) (Function.update_self ..) hnew
      (h.inOrder.complete hlt) (fun c1 he => ?_) (fun c1 he => ?_) (fun _ _ _ _ _ _ => rfl) rfl
      (hl.client_lt c cl hc)
    · show completedReqs c1 (w.trace ++ [Obs.headersComplete c cl.reqNo]) = _
      rw [completedReqs_complete, if_neg (Ne.symm he), List.append_nil]
    · exact submittedReqs_complete ..
  | @create hd hd' hh hid hpend =>
    have hreq : hd'.id = cl.reqNo := hid.trans (hcl.reqHeader_id hp hh)
    have hnone : cl.relay = none := ht.head c cl hc hp (by rw [hpend]; rfl)
    have hset : setReqHeader cl hd' = { cl with requestHeader := some hd' } := by
      unfold setReqHeader
      rw [hpend]
      rfl
    rw [hreq]
    have hempty : awaited w cl = [] := awaited_of_relay_none hnone (Or.inl hp)
    have hord : InOrder (w.trace ++ [Obs.headersComplete c cl.reqNo] ++
        [Obs.create w.nextRelay c cl.reqNo]) := by
      refine (h.inOrder.complete hlt).concat_other (fun _ => rfl) (fun _ => rfl) ?_
      rintro r c1 req ⟨⟩
      rw [completedReqs_complete, if_pos rfl]
      exact List.mem_append_right _ (List.mem_singleton.mpr rfl)
    have hcomp : ∀ c1, completedReqs c1 (w.trace ++ [Obs.headersComplete c cl.reqNo] ++
        [Obs.create w.nextRelay c cl.reqNo])
          = completedReqs c1 w.trace ++ if c = c1 then [cl.reqNo] else [] := by
      intro c1
      rw [completedReqs_create, completedReqs_complete]
    have hsub : ∀ c1, submittedReqs c1 (w.trace ++ [Obs.headersComplete c cl.reqNo] ++
        [Obs.create w.nextRelay c cl.reqNo]) = submittedReqs c1 w.trace := by
      intro c1
      rw [submittedReqs_create, submittedReqs_complete]
    refine h.update (fun c1 he => Function.update_of_ne he _ _) (Function.update_self ..) ?_ hord
      (fun c1 he => ?_) (fun c1 he => hsub c1) (fun c1 cl1 r he hc1 hr1 => ?_) rfl
      (hl.client_lt c cl hc)
    · constructor
      · refine (hcomp c).trans ?_
        rw [if_pos rfl, hcl.awaited, hempty, List.append_nil]
        refine congrArg₂ _ (hsub c).symm (Eq.symm ?_)
        -- the new relay waits, and nothing is pending
        refine Eq.trans (awaited_new rfl (Function.update_self ..) rfl ?_) ?_
        · rw [completed, hset]
          exact congrArg (Option.map Header.id) hpend
        · rw [completed, hset, ← hreq]
          rfl
      · intro req hmem
        rw [World.setClient_trace, World.log_trace, World.addRelay_trace, World.log_trace,
          hcomp, if_pos rfl] at hmem
        show req ≤ (setReqHeader cl hd').reqNo
        rw [hset]
        rcases List.mem_append.mp hmem with hmem | hmem
        · exact hcl.le req hmem
        · exact (List.mem_singleton.mp hmem).le
      · exact fun hhead => absurd hhead (by simp [completed])
      · simp [completed, hset, hpend]
      · exact fun hhead => absurd hhead (by simp [completed])
    · exact (hcomp c1).trans (by rw [if_neg (Ne.symm he), List.append_nil])
    · have hlt1 : r < w.nextRelay := (hl.current c1 cl1 r hc1 hr1).1
      exact Function.update_of_ne hlt1.ne _ _

/-- The client leaves a relay that no longer waits; a request that moves up is complete. -/
theorem Ordered.next {cl : Client} (h : Ordered w) (hl : Linked w) (hn : Next c w w')
    (hc : w.clients c = some cl) (hcr : cl.relay = some r)
    (hno : ∀ rel, w.relays r = some rel → rel.tmrConnectd = false)
    (hp : cl.pendingRequestHeader ≠ none → cl.parser ≠ .head) : Ordered w' := by
  have hcl := h.client c cl hc
  -- the relay that is left does not wait for its connect timer
  have hwaits : waits w cl = false := by
    rw [← Bool.not_eq_true, waits_iff]
    rintro ⟨r1, rel, hr1, hrel, ht⟩
    rw [hcr, Option.some.injEq] at hr1
    subst hr1
    rw [hno rel hrel] at ht
    exact absurd ht (by simp)
  cases hn with
  | @idle cl1 hc1 hpend =>
    rw [hc, Option.some.injEq] at hc1
    subst hc1
    refine h.update (fun c1 he => Function.update_of_ne he _ _) (Function.update_self ..) ?_
      h.inOrder (fun _ _ => rfl) (fun _ _ => rfl) (fun _ _ _ _ _ _ => rfl) rfl
      (hl.client_lt c cl hc)
    constructor
    case awaited =>
      show completedReqs c w.trace = submittedReqs c w.trace ++ _
      rw [hcl.awaited, awaited_eq (Or.inr (by rw [hpend]; rfl)), hwaits,
        awaited_of_relay_none rfl (Or.inr (by rw [hpend]; rfl))]
      rfl
    case le => exact hcl.le
    case lt => exact hcl.lt
    case pending_id => exact hcl.pending_id
    case head_id => simp
  | @next cl1 hd hc1 hpend =>
    rw [hc, Option.some.injEq] at hc1
    subst hc1
    have hhead : cl.parser ≠ .head := hp (by rw [hpend]; simp)
    -- the request that waited is the one that is awaited now
    have hawait : completedReqs c w.trace = submittedReqs c w.trace ++ [hd.id] := by
      rw [hcl.awaited, awaited, hwaits, if_neg hhead, hpend]
      rfl
    have hord : InOrder (w.trace ++ [Obs.create w.nextRelay c hd.id]) := by
      refine h.inOrder.concat_other (fun _ => rfl) (fun _ => rfl) ?_
      rintro r1 c1 req ⟨⟩
      rw [hawait]
      exact List.mem_append_right _ (List.mem_singleton.mpr rfl)
    refine h.update (fun c1 he => Function.update_of_ne he _ _) (Function.update_self ..) ?_ hord
      (fun c1 he => completedReqs_create ..) (fun c1 he => submittedReqs_create ..)
      (fun c1 cl1 r1 he hc1 hr1 => ?_) rfl (hl.client_lt c cl hc)
    · constructor
      case awaited =>
        show completedReqs c (w.trace ++ [Obs.create w.nextRelay c hd.id])
          = submittedReqs c (w.trace ++ [Obs.create w.nextRelay c hd.id]) ++ _
        rw [completedReqs_create, submittedReqs_create, hawait]
        refine congrArg _ (Eq.symm ?_)
        exact awaited_new rfl (Function.update_self ..) rfl rfl
      case le =>
        show ∀ req ∈ completedReqs c (w.trace ++ [Obs.create w.nextRelay c hd.id]), req ≤ cl.reqNo
        rw [completedReqs_create]
        exact hcl.le
      case lt => exact fun hh => absurd hh hhead
      case pending_id => simp
      case head_id => exact fun hh => absurd hh hhead
    · have hlt : r1 < w.nextRelay := (hl.current c1 cl1 r1 hc1 hr1).1
      exact Function.update_of_ne hlt.ne _ _

/-- The end of a response. -/
theorem Ordered.finished {cl : Client} {cur : Relay} {frame : Frame} (h : Ordered w) (hl : Linked w)
    (ht : Timely w) (hE : Finished frame c cl cur w w') (hcr : cl.relay = some r)
    (hcur : w.relays r = some cur)
    (hg : keepsClient cur.responseHeader = true →
      (cl.parser ≠ .head || cl.pendingRequestHeader.isNone) = true) : Ordered w' := by
  cases hE with
  | dropped hk hcalm hnone => exact h.calm hl ht hcalm
  | @left w1 hk hcalm hlink hc1 hn =>
    have hctl := answered_ctl cl w.sends frame cur.responseHeader
    exact (h.calm hl ht hcalm).next (hlink hl) hn hc1 (hctl.relay.trans hcr)
      (ht.not_waiting hcalm hcur hk) (CtlKept.whole hctl (hg hk))

/-- The current request, which is awaited first, is submitted. -/
theorem Ordered.of_launched {rel : Relay} {cl : Client} {hd : Header} (h : Ordered w)
    (hl : Linked w) (hr : w.relays r = some rel) (ht : rel.tmrConnectd = true)
    (hc : w.clients rel.args = some cl) (hcur : cl.relay = some r)
    (hh : cl.requestHeader = some hd) : Ordered (launched w r rel cl hd) := by
  have hcl := h.client rel.args cl hc
  have hwaits : waits w cl = true := waits_iff.mpr ⟨r, rel, hcur, hr, ht⟩
  have hawait : completedReqs rel.args w.trace = submittedReqs rel.args w.trace ++ hd.id ::
      (if cl.parser = .head then [] else (cl.pendingRequestHeader.map Header.id).toList) := by
    rw [hcl.awaited, awaited, if_pos hwaits, hh]
    rfl
  have htrace : (launched w r rel cl hd).trace = w.trace ++
      [Obs.event r .connected rel.responseHeader rel.bodyData] ++
        [Obs.sendRequest r rel.args hd.id] := by
    rw [launched_trace, List.append_assoc]
    rfl
  have hcomp : ∀ c1, completedReqs c1 (launched w r rel cl hd).trace
      = completedReqs c1 w.trace := by
    intro c1
    rw [htrace, completedReqs_submit, completedReqs_append]
    exact List.append_nil _
  have hsub : ∀ c1, submittedReqs c1 (launched w r rel cl hd).trace
      = submittedReqs c1 w.trace ++ if rel.args = c1 then [hd.id] else [] := by
    intro c1
    rw [htrace, submittedReqs_submit, submittedReqs_append]
    exact congrArg (· ++ _) (List.append_nil _)
  have hord : InOrder (launched w r rel cl hd).trace := by
    rw [htrace]
    have hev : ∀ o ∈ [Obs.event r .connected rel.responseHeader rel.bodyData],
        o.neutral = true := by simp [Obs.neutral]
    have h0 : InOrder (w.trace ++ [Obs.event r .connected rel.responseHeader rel.bodyData]) :=
      h.inOrder.neutral hev
    have hawait0 : completedReqs rel.args (w.trace ++
        [Obs.event r .connected rel.responseHeader rel.bodyData]) = submittedReqs rel.args (w.trace ++
          [Obs.event r .connected rel.responseHeader rel.bodyData]) ++ hd.id ::
        (if cl.parser = .head then [] else (cl.pendingRequestHeader.map Header.id).toList) := by
      rw [completedReqs_append, submittedReqs_append, completedReqs_neutral hev,
        submittedReqs_neutral hev, List.append_nil, List.append_nil, hawait]
    exact h0.submit hawait0
  have hself : (launched w r rel cl hd).clients rel.args = some { cl with
      file := epFileDetect cl.file EP_READ (-1), listRequestBodyBuffer := [] } := by
    rw [launched_clients]
    exact Function.update_self ..
  refine h.update (fun c1 he => ?_) hself ?_ hord (fun c1 he => hcomp c1) (fun c1 he => ?_)
    (fun c1 cl1 r1 he hc1 hr1 => ?_) (launched_nextClient ..) (hl.client_lt _ cl hc)
  · rw [launched_clients, Function.update_of_ne he]
  · constructor
    case awaited =>
      rw [hcomp, hsub, hawait, if_pos rfl, List.append_assoc]
      refine congrArg _ ?_
      -- the relay no longer waits; what is pending is still awaited
      have hno : waits (launched w r rel cl hd) { cl with
          file := epFileDetect cl.file EP_READ (-1), listRequestBodyBuffer := [] } = false := by
        rw [waits, hcur, Option.bind_some, launched_relays, Function.update_self]
        rfl
      rw [awaited, hno]
      rfl
    case le =>
      rw [hcomp]
      exact hcl.le
    case lt =>
      rw [hcomp]
      exact hcl.lt
    case pending_id => exact hcl.pending_id
    case head_id => exact hcl.head_id
  · rw [hsub, if_neg (Ne.symm he), List.append_nil]
  · -- the relay of another client is another one
    have hne : r1 ≠ r := by
      rintro rfl
      exact he ((hl.current c1 cl1 r1 hc1 hr1).2 rel hr).1.symm
    rw [launched_relays, Function.update_of_ne hne]

theorem Ordered.accept {cl : Client} (h : Ordered w) (hr : cl.relay = none)
    (hn : cl.pendingRequestHeader = none) (hp : cl.parser = .idle) : Ordered (w.addClient cl) := by
  have hfresh : completedReqs w.nextClient w.trace = [] := h.fresh w.nextClient le_rfl
  have hsub : submittedReqs w.nextClient w.trace = [] := by
    have hpre := h.inOrder.submitted w.trace List.prefix_rfl w.nextClient
    rw [hfresh] at hpre
    exact List.prefix_nil.mp hpre
  constructor
  · intro c1 cl1 hc1
    rw [World.addClient_clients, Function.update_apply] at hc1
    split_ifs at hc1 with he
    · rw [← Option.some.inj hc1, he]
      constructor
      case awaited =>
        show completedReqs w.nextClient w.trace = submittedReqs w.nextClient w.trace ++ _
        rw [hfresh, hsub, awaited_of_relay_none hr (Or.inr (by rw [hn]; rfl))]
        rfl
      case le =>
        show ∀ req ∈ completedReqs w.nextClient w.trace, _
        rw [hfresh]
        simp
      case lt => simp [hp]
      case pending_id => simp [hn]
      case head_id => simp [hp]
    · exact (h.client c1 cl1 hc1).other rfl rfl fun _ _ => rfl
  · exact h.inOrder
  · exact fun c1 hc1 => h.fresh c1 (Nat.le_of_succ_le hc1)

/-- What the condition says of a request that begins. -/
theorem OneAhead.msgBegin {cl : Client} (hg : OneAhead w (.msgBegin c) = true)
    (hc : w.clients c = some cl) (hp : cl.parser = .idle) : cl.pendingRequestHeader = none := by
  rw [OneAhead, Bool.and_eq_true] at hg
  simpa [hc, hp] using hg.2

theorem OneAhead.headersWhole {e : Event} (hg : OneAhead w e = true) : HeadersWhole w e = true := by
  unfold OneAhead at hg
  rw [Bool.and_eq_true] at hg
  exact hg.1

/-- The end of a response keeps the order. -/
theorem Ordered.ends {s : StreamId} {st : Stream} {frame : Frame} {rel : Relay} (h : Ordered w)
    (hl : Linked w) (ht : Timely w) (hg : HeadersWhole w (.recvFrame s frame) = true)
    (hf : EndFrame w s frame st r rel) (hE : Ends r frame w w') : Ordered w' := by
  obtain ⟨cl, r1, cur, hc, hcr, hcur, hend⟩ :=
    hE.finished hf.completes hf.relay (ht.submitted hf.stream hf.userData hf.relay)
  exact h.finished hl ht hend hcr hcur (hf.leaves hg hc hcr hcur)

/-- **Every turn that meets the condition keeps the order.** -/
theorem Ordered.of_turn {e : Event} (h : Ordered w) (hl : Linked w) (ht : Timely w)
    (hg : OneAhead w e = true) (hturn : Turn w e w') : Ordered w' := by
  cases hturn with
  | calm hk => exact h.calm hl ht hk
  | accept => exact h.accept rfl rfl rfl
  | msgBegin hc hp hb => exact h.begun hl hc (OneAhead.msgBegin hg hc hp) hb
  | headersComplete hc hp hd => exact h.headersDone hl ht hc hp hd
  | launched hr htmr hc hcur hh hk =>
    have h1 := h.of_launched hl hr htmr hc hcur hh
    exact h1.calm (hl.launched hr hc _) (ht.of_launched hr hc) hk
  | ended hf hE h2 =>
    have hg' := OneAhead.headersWhole hg
    have h1 := h.ends hl ht hg' hf hE
    split_ifs at h2
    · exact h1.calm (hl.ends hE) (ht.ends hl hg' hf hE) h2.calm
    · exact h2 ▸ h1

/-! ### Faults -/

theorem FaultTrace.inOrder (hf : FaultTrace w w') (h : InOrder w.trace) : InOrder w'.trace := by
  obtain ht | ⟨r, ht⟩ := hf <;> rw [ht]
  · exact h
  · exact h.note rfl

theorem HeadersFault.inOrder {err : Fault} (hf : HeadersFault r w err w') (h : InOrder w.trace) :
    InOrder w'.trace := by
  cases hf with
  | noHeader _ ht => exact ht ▸ h
  | heading _ _ _ ht =>
    rw [ht]
    exact h.note rfl
  | @ending rel1 w1 h1 hr1 he ht =>
    have hw1 : InOrder w1.trace := by
      rcases h1 with rfl | ⟨_, rel, rel1, cl, r1, data, _, _, _, _, _, _, rfl⟩
      · exact h
      · exact h.note rfl
    rw [ht]
    exact hw1.note rfl

/-- The request is noted before the fault; it is the first one that is awaited. -/
theorem Ordered.connectFault {rel : Relay} {err : Fault} (h : Ordered w) (hl : Linked w)
    (ht : Timely w) (hr : w.relays r = some rel) (htmr : rel.tmrConnectd = true)
    (hf : ConnectFault rel.args (timed w r rel .connected) err w') : InOrder w'.trace := by
  cases hf with
  | early htr _ =>
    rw [htr]
    exact h.inOrder.note rfl
  | @submit cl r1 hd hc hcr hh htr _ =>
    have hc' : w.clients rel.args = some cl := hc
    have hcur : cl.relay = some r := ht.current r rel cl hr htmr hc'
    rw [hcr, Option.some.injEq] at hcur
    subst hcur
    have h1 := (h.of_launched hl hr htmr hc' hcr hh).inOrder
    rw [launched_trace] at h1
    rw [htr, H2ClientProxy.timed, World.log_trace, World.setRelay_trace, List.append_assoc]
    exact h1
  | bodies hs hb hw htr _ =>
    obtain ⟨hc, hcur, hh, hcalm⟩ := ht.launched hr htmr hs
    have h1 := (h.of_launched hl hr htmr hc hcur hh).inOrder
    rw [htr]
    exact ((hcalm.trans hw.calm).inOrder h1).note rfl

/-- **A fault keeps the order.** -/
theorem Ordered.handleFault {e : Event} {err : Fault} (h : Ordered w) (hl : Linked w)
    (ht : Timely w) (hg : OneAhead w e = true) (hf : HandleFault w e err w') :
    InOrder w'.trace := by
  cases hf with
  | plain _ htr => exact htr ▸ h.inOrder
  | @headers c method cl hd _ _ hc hp hh _ htr =>
    -- the request is complete before the fault
    have hcl := h.client c cl hc
    rw [htr, hcl.reqHeader_id hp hh]
    exact h.inOrder.complete (hcl.lt hp)
  | body _ _ _ htr => exact htr ▸ h.inOrder
  | bodyWrite _ _ _ _ _ _ htr =>
    rw [htr]
    exact h.inOrder.note rfl
  | messageComplete _ _ _ htr => exact htr ▸ h.inOrder
  | clientGone _ _ _ htr => exact htr.inOrder h.inOrder
  | writable _ _ _ htr => exact htr.inOrder h.inOrder
  | timerConnected hr htmr _ hc => exact h.connectFault hl ht hr htmr hc
  | timerFailed _ _ _ htr =>
    rw [htr]
    exact h.inOrder.note rfl
  | @tunnelFailed dropped rest r _ w1 _ htun hrs h1 h2 =>
    -- the clients of the relays before the bad one are dropped by then
    have h0 : Calm w (w.setTunnel .closed w.sSession) := calm_setTunnel _ _
    have hk : Calm _ w1 := (ht.calm h0).dropClients (hl.setTunnel _ _) h1
    have hw1 : InOrder w1.trace := (h0.trans hk).inOrder h.inOrder
    cases h2 with
    | stale _ _ htr => exact htr ▸ hw1
    | attached _ _ _ htr =>
      rw [htr]
      exact hw1.note rfl
    | detached _ _ _ htr => exact htr ▸ hw1
  | stale _ _ _ _ _ htr => exact htr ▸ h.inOrder
  | frame _ _ _ _ _ _ _ hf => exact hf.inOrder h.inOrder
  | frameEnd htun hs hopen h1 _ _ htr =>
    rw [htr]
    rcases ht.reported htun hs hopen h1 with hk | ⟨r, rel, hf, hE⟩
    · exact hk.inOrder h.inOrder
    · exact (h.ends hl ht (OneAhead.headersWhole hg) hf hE).inOrder
  | rst _ _ _ _ _ _ htr =>
    rw [htr]
    exact h.inOrder.note rfl
  | rstClose _ _ h1 _ _ htr => exact htr ▸ h1.calm.inOrder h.inOrder
  | recvData _ _ _ hc =>
    cases hc with
    | stale _ _ _ htr => exact htr ▸ h.inOrder
    | body _ hr _ _ htr => exact htr ▸ (calm_chunked hr _ _).inOrder h.inOrder
    | send _ hr _ h1 _ htr =>
      exact htr ▸ ((calm_chunked hr _ _).trans h1.calm).inOrder h.inOrder
  | send _ _ htr => exact htr ▸ h.inOrder

/-! ### Runs -/

theorem Ordered.prepared (h : Ordered w) (i : Input) : Ordered (prepared w i) where
  client := fun c cl hc => (h.client c cl hc).other rfl rfl fun _ _ => rfl
  inOrder := h.inOrder
  fresh := h.fresh

/-- **Pipelined requests are submitted in order.**  In a run in which a request begins only while
none is pending, and a response ends only when the header block of the pending request is complete,
what has been submitted for a client is at every moment a beginning of what was completed. -/
theorem wp_run_inOrder (is : List Input)
    (hG : Meets step (fun w i => OneAhead w i.event = true) is World.init) :
    wp (run step is) (fun _ w => InOrder w.trace) (fun _ w => InOrder w.trace) World.init := by
  have hstep : ∀ (w : World) (i : Input), Linked w ∧ Timely w ∧ Ordered w →
      OneAhead w i.event = true →
      wp (step i) (fun _ w' => Linked w' ∧ Timely w' ∧ Ordered w') (fun _ w' => InOrder w'.trace)
        w := by
    rintro w i ⟨hl, ht, h⟩ hg
    have hg' : OneAhead (H2ClientProxy.prepared w i) i.event = true := hg
    apply step_spec i
    · intro w' hh
      have hturn := (ht.prepared i).turn (hl.prepared i) hh
      refine ⟨(hl.prepared i).handled hh, ?_, ?_⟩
      · exact (ht.prepared i).of_turn (hl.prepared i) (OneAhead.headersWhole hg') hturn
      · exact (h.prepared i).of_turn (hl.prepared i) (ht.prepared i) hg' hturn
    · exact fun err w' hf => (h.prepared i).handleFault (hl.prepared i) (ht.prepared i) hg' hf
  have hinit : Linked World.init ∧ Timely World.init ∧ Ordered World.init :=
    ⟨linked_init, timely_init, ordered_init⟩
  exact wp_mono (run_wp hstep is World.init hinit hG) (fun _ _ h => h.2.2.inOrder) fun _ _ => id

/-- Three requests, each begun when the one before it is the current one, with their responses. -/
theorem wp_run_inOrder_pipelined :
    Meets step (fun w i => OneAhead w i.event = true)
      (inputs (opening ++ getRequest 0 ++ [.timer 0] ++ getRequest 0 ++ emptyResponse 1 ++
        [.timer 1] ++ getRequest 0 ++ emptyResponse 3 ++ [.timer 2])) World.init ∧
    wp (run step
        (inputs (opening ++ getRequest 0 ++ [.timer 0] ++ getRequest 0 ++ emptyResponse 1 ++
          [.timer 1] ++ getRequest 0 ++ emptyResponse 3 ++ [.timer 2])))
      (fun _ w => InOrder w.trace) (fun _ w => InOrder w.trace) World.init :=
  ⟨by decide +kernel, wp_run_inOrder _ (by decide +kernel)⟩

/-- Three requests before the first response: the third header takes the place of the second, which is
never submitted. -/
theorem not_always_inOrder : ¬ ∀ is : List Input,
    wp (run step is) (fun _ w => InOrder w.trace) (fun _ w => InOrder w.trace) World.init := by
  intro h
  have h1 := h (inputs (opening ++ getRequest 0 ++ [Event.timer 0] ++ getRequest 0 ++ getRequest 0 ++
    emptyResponse 1 ++ [Event.timer 1]))
  have h2 : wp (run step (inputs (opening ++ getRequest 0 ++ [Event.timer 0] ++ getRequest 0 ++
        getRequest 0 ++ emptyResponse 1 ++ [Event.timer 1])))
      (fun _ w => submittedReqs 0 w.trace = [1, 3] ∧ completedReqs 0 w.trace = [1, 2, 3])
      (fun _ _ => False) World.init := by
    decide +kernel
  obtain ⟨_, w, hord, hsub, hcomp⟩ := exists_of_wp (Q := fun _ w => InOrder w.trace ∧
      submittedReqs 0 w.trace = [1, 3] ∧ completedReqs 0 w.trace = [1, 2, 3])
    (wp_mono (wp_and h1 h2) (fun _ _ => id) fun _ _ he => he.2)
  have hpre := hord.submitted w.trace List.prefix_rfl 0
  rw [hsub, hcomp] at hpre
  exact absurd hpre (by decide)

end H2ClientProxy
