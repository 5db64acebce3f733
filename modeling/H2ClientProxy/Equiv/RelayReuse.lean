import H2ClientProxy.Equiv.IdlePool

/-!
# What an earlier request leaves on a connection

A relay serves one request after the other, and what it writes for a request should not depend on the
requests before it.

* `Keeps`: a property of each relay, kept by a function whatever the state.  `keeps_relayStep` reduces a run
  to the updates that concern the property.
* `Framed`: the one member that decides how a body is written is set by the requests so far.
* `sentFor_eq`: what is written for a request, as a function of this member.
* `wp_run_sentFor_iff`: when this is what a relay without a history writes.
-/

namespace H2ClientProxy.RelayHttp

open Wp Machine

/-! ### The property -/

/-- `relay_write_body` for each fragment of a body. -/
def writeBodies (r : RelayId) : List Bytes → RelayM Unit
  | [] => pure ()
  | data :: frags => do
    relayWriteBody r data
    writeBodies r frags

/-- A request: its header, the fragments of its body, and whether it is completed. -/
def serve (r : RelayId) (header : Header) (frags : List Bytes) (complete : Bool) : RelayM Unit := do
  relaySendRequest r header
  writeBodies r frags
  if complete then relayCompleteRequest r else pure ()

/-- What has been written to the connection of a relay. -/
def writtenTo (s : Relays) (r : RelayId) : Bytes :=
  (((s.relays r).bind (·.conn)).map (·.written)).getD []

/-- What is written to the connection for a request; `none` when its head leaves the buffers. -/
def sentFor (s : Relays) (r : RelayId) (header : Header) (frags : List Bytes) (complete : Bool) :
    Option Bytes :=
  match serve r header frags complete s with
  | .ok _ s' => some ((writtenTo s' r).drop (writtenTo s r).length)
  | .error _ _ => none

/-- A relay that has a connection. -/
def Wired (s : Relays) (r : RelayId) (relay : HttpRelay) : Prop :=
  s.relays r = some relay ∧ relay.conn.isSome = true

/-- A relay that has a connection and no history. -/
def FreshRelay (s : Relays) (r : RelayId) : Prop := ∃ relay, Wired s r relay ∧ relay.requests = []

/-- The body of the request is to be written in chunks. -/
def chunkedRequest (header : Header) : Bool := !isConnect header && chunkedPost header

/-- The framing of the body does not depend on the requests before. -/
def SameFraming (requests : List Header) (header : Header) (frags : List Bytes) (complete : Bool) :
    Prop :=
  requests.any chunkedRequest = false ∨ chunkedRequest header = true ∨
    (frags = [] ∧ complete = false) ∨ (isConnect header = false ∧ requestHead header = none)

/-! ### Properties of every relay -/

section Keeps

variable {P : HttpRelay → Prop} {α β : Type} {r : RelayId}

/-- Every relay satisfies `P`. -/
def AllRelays (P : HttpRelay → Prop) (s : Relays) : Prop := ∀ r relay, s.relays r = some relay → P relay

/-- If every relay satisfies `P`, then so it is after the call. -/
def Keeps (P : HttpRelay → Prop) (x : RelayM α) : Prop :=
  ∀ s, AllRelays P s → wp x (fun _ => AllRelays P) (fun _ _ => True) s

theorem AllRelays.setRelay {s : Relays} (h : AllRelays P s) {relay : HttpRelay} (hp : P relay) :
    AllRelays P (s.setRelay r (some relay)) := by
  intro r' x hx
  have hx' : Function.update s.relays r (some relay) r' = some x := hx
  by_cases he : r' = r
  · rw [he, Function.update_self] at hx'
    rw [← Option.some.inj hx']
    exact hp
  · rw [Function.update_of_ne he] at hx'
    exact h r' x hx'

theorem AllRelays.drop {s : Relays} (h : AllRelays P s) : AllRelays P (s.setRelay r none) := by
  intro r' x hx
  have hx' : Function.update s.relays r none r' = some x := hx
  by_cases he : r' = r
  · rw [he, Function.update_self] at hx'
    exact absurd hx'.symm (Option.some_ne_none x)
  · rw [Function.update_of_ne he] at hx'
    exact h r' x hx'

theorem keeps_pure (a : α) : Keeps P (pure a) := fun _ h => h

theorem keeps_throw (e : RelayFault) : Keeps P (throw e : RelayM α) := fun _ _ => trivial

theorem Keeps.bind {x : RelayM α} {f : α → RelayM β} (hx : Keeps P x) (hf : ∀ a, Keeps P (f a)) :
    Keeps P (x >>= f) := by
  intro s h
  rw [wp_bind]
  exact wp_mono (hx s h) (fun a s' h' => hf a s' h') fun _ _ => id

theorem Keeps.ite {c : Prop} [Decidable c] {x y : RelayM α} (hx : Keeps P x) (hy : Keeps P y) :
    Keeps P (if c then x else y) := by
  split
  · exact hx
  · exact hy

theorem keeps_get : Keeps P (get : RelayM Relays) := fun _ h => h

/-- What does not concern the relays. -/
theorem keeps_modify {f : Relays → Relays} (hf : ∀ s, (f s).relays = s.relays) :
    Keeps P (modify f : RelayM Unit) := by
  intro s h r relay hr
  rw [hf] at hr
  exact h r relay hr

/-- The relay that is read satisfies `P`. -/
theorem keeps_getRelay {f : HttpRelay → RelayM α} (hf : ∀ relay, P relay → Keeps P (f relay)) :
    Keeps P (getRelay r >>= f) := by
  intro s h
  simp only [wp_bind, wp_getRelay]
  cases hr : s.relays r with
  | none => trivial
  | some relay => exact hf relay (h r relay hr) s h

theorem keeps_putRelay {relay : HttpRelay} (hp : P relay) : Keeps P (putRelay r relay) :=
  fun _ h => h.setRelay hp

/-- A relay changes, and the function goes on. -/
theorem Keeps.put {relay : HttpRelay} {f : Unit → RelayM α} (hp : P relay) (hf : Keeps P (f ())) :
    Keeps P (putRelay r relay >>= f) := (keeps_putRelay hp).bind fun _ => hf

/-- Something else changes, and the function goes on. -/
theorem Keeps.modify {g : Relays → Relays} {f : Unit → RelayM α} (hg : ∀ s, (g s).relays = s.relays)
    (hf : Keeps P (f ())) : Keeps P (modify g >>= f) := (keeps_modify hg).bind fun _ => hf

theorem keeps_callback (what : RelayWhat) : Keeps P (callback r what) :=
  keeps_getRelay fun _ _ => keeps_modify fun _ => rfl

/-- The rest of `relay_free`, when the relay is in no list. -/
def relayFreeRest (r : RelayId) (tmrConnected : Option TmrId) : RelayM Unit := do
  match tmrConnected with
  | some t => modify (·.setTimer t none)
  | none => pure ()
  modify (·.setRelay r none)

theorem keeps_relayFree : Keeps P (relayFree r) := by
  refine keeps_getRelay fun relay hp => ?_
  have hgone : Keeps P (modify (·.setRelay r none)) := fun _ h => h.drop
  have hrest : Keeps P (relayFreeRest r relay.tmrConnected) := by
    cases relay.tmrConnected with
    | none => exact hgone
    | some t => exact Keeps.modify (fun _ => rfl) <| hgone
  exact Keeps.ite (Keeps.modify (fun _ => rfl) <| hrest) hrest

end Keeps

/-! ### The history of a relay -/

/-- Bodies are written in chunks once a request has asked for it. -/
def Framed (relay : HttpRelay) : Prop := relay.isChunkPost = relay.requests.any chunkedRequest

variable {r : RelayId}

theorem framed_newRelay (host : Bytes) (port : ℤ) : Framed (newRelay host port) := rfl

theorem keeps_updateConn (f : Conn → Conn) : Keeps Framed (updateConn r f) := by
  refine keeps_getRelay fun relay hp => ?_
  cases relay.conn with
  | none => exact keeps_throw _
  | some conn => exact keeps_putRelay hp

theorem keeps_findAlive (host : Bytes) (port : ℤ) (l : List RelayId) :
    Keeps Framed (findAlive host port l) := by
  induction l with
  | nil => exact keeps_pure _
  | cons r l ih =>
    refine keeps_getRelay fun relay hp => Keeps.ite ?_ ih
    exact Keeps.put hp <| Keeps.modify (fun _ => rfl) <| keeps_pure _

theorem keeps_relayCreate (host : Bytes) (port : ℤ) (args : ℕ) :
    Keeps Framed (relayCreate host port args) := by
  have hargs : ∀ r, Keeps Framed (relayCreateRest args r) := by
    intro r
    refine keeps_getRelay fun relay hp => Keeps.ite ?_ ?_
    · dsimp only
      cases relay.conn with
      | none => exact (keeps_throw _).bind fun _ => keeps_pure _
      | some conn =>
        refine keeps_get.bind fun s => Keeps.put hp <| ?_
        exact Keeps.modify (fun _ => rfl) <| keeps_pure _
    · exact Keeps.put hp <| keeps_pure _
  refine (keeps_get.bind fun s => keeps_findAlive host port _).bind fun res => ?_
  cases res with
  | none =>
    refine keeps_get.bind fun s => Keeps.bind (fun s' h => ?_) fun _ => hargs _
    exact h.setRelay (framed_newRelay host port)
  | some r => exact hargs r

/-- The only function that changes the history, and the framing with it. -/
theorem keeps_relaySendRequest (header : Header) : Keeps Framed (relaySendRequest r header) := by
  refine keeps_getRelay fun relay hp => ?_
  unfold Framed at hp
  by_cases hc : isConnect header = true
  · rw [if_pos hc]
    refine Keeps.put ?_ <| keeps_modify fun _ => rfl
    show relay.isChunkPost = (relay.requests ++ [header]).any chunkedRequest
    rw [List.any_append, ← hp, List.any_cons, List.any_nil, chunkedRequest, hc]
    simp
  · rw [if_neg hc]
    refine Keeps.put ?_ <| ?_
    · show (relay.isChunkPost || chunkedPost header) = (relay.requests ++ [header]).any chunkedRequest
      rw [List.any_append, ← hp, List.any_cons, List.any_nil, chunkedRequest,
        Bool.eq_false_iff.mpr hc]
      simp
    · cases requestHead header with
      | none => exact keeps_throw _
      | some buf =>
        exact (keeps_updateConn _).bind fun _ => keeps_getRelay fun relay hp => keeps_putRelay hp

theorem keeps_relayWriteBody (data : Bytes) : Keeps Framed (relayWriteBody r data) := by
  refine keeps_getRelay fun relay hp => ?_
  have hrest : Keeps Framed (do
      writeConn r data
      if relay.isChunkPost then writeConn r crlf else pure ()) :=
    (keeps_updateConn _).bind fun _ => Keeps.ite (keeps_updateConn _) (keeps_pure _)
  exact Keeps.ite ((keeps_updateConn _).bind fun _ => hrest) hrest

theorem keeps_clientCall (c : ClientCall) : Keeps Framed (clientCall c) := by
  cases c with
  | create host port args => exact (keeps_relayCreate host port args).bind fun _ => keeps_pure _
  | sendRequest r header => exact keeps_relaySendRequest header
  | writeBody r data => exact keeps_relayWriteBody data
  | completeRequest r =>
    exact keeps_getRelay fun _ _ => Keeps.ite (keeps_updateConn _) (keeps_pure _)
  | close r => exact keeps_relayFree
  | suspendRead r => exact keeps_updateConn _
  | resumeRead r => exact keeps_updateConn _

theorem keeps_relayHandleConnErr : Keeps Framed (relayHandleConnErr r) := by
  refine keeps_getRelay fun relay hp => Keeps.put hp <| ?_
  refine Keeps.ite keeps_relayFree ?_
  exact Keeps.modify (fun _ => rfl) <| keeps_callback _

theorem keeps_updateHeader (f : Header → Option Header) : Keeps Framed (updateHeader r f) := by
  refine keeps_getRelay fun relay hp => ?_
  cases relay.responseHeader.bind f with
  | none => exact keeps_throw _
  | some h => exact keeps_putRelay hp

theorem keeps_parserCall (tasks : List Task) (c : ParserCall) :
    Keeps Framed (parserCall r tasks c) := by
  cases c with
  | messageBegin => exact keeps_getRelay fun relay hp => keeps_putRelay hp
  | statusComplete code => exact keeps_updateHeader _
  | url data => exact keeps_updateHeader _
  | headerField data => exact keeps_updateHeader _
  | headerValue data => exact keeps_updateHeader _
  | headersComplete =>
    refine (keeps_updateHeader _).bind fun _ => keeps_getRelay fun relay hp => ?_
    exact Keeps.put hp <| keeps_callback _
  | body data => exact keeps_callback _
  | messageComplete =>
    refine keeps_getRelay fun relay hp => Keeps.put hp <| ?_
    exact Keeps.modify (fun _ => rfl) <| keeps_callback _

theorem keeps_runTask (tasks : List Task) (task : Task) : Keeps Framed (runTask r tasks task) := by
  cases task with
  | call c => exact keeps_parserCall tasks c
  | reuse =>
    refine keeps_getRelay fun relay hp => Keeps.ite (keeps_throw _) ?_
    exact Keeps.put hp <| keeps_modify fun _ => rfl
  | enableRead => exact keeps_updateConn _
  | readEnd ok =>
    refine keeps_getRelay fun relay hp => Keeps.ite ?_ (Keeps.ite keeps_relayFree (keeps_pure _))
    exact Keeps.modify (fun _ => rfl) <| keeps_callback _
  | free => exact keeps_relayFree

theorem keeps_next : Keeps Framed next := by
  refine keeps_get.bind fun s => ?_
  match s.handling with
  | none => exact keeps_pure _
  | some (_, []) => exact keeps_modify fun _ => rfl
  | some (r, task :: tasks) =>
    exact Keeps.modify (fun _ => rfl) <| keeps_runTask tasks task

theorem keeps_relayConnTmrcb : Keeps Framed (relayConnTmrcb r) := by
  refine keeps_getRelay fun relay hp => ?_
  have hrest : Keeps Framed (do
      putRelay r { relay with tmrConnected := none }
      modify (·.setTasks r [])
      callback r .connected) :=
    Keeps.put hp <| Keeps.modify (fun _ => rfl) <| keeps_callback _
  cases relay.tmrConnected with
  | none => exact hrest
  | some t => exact Keeps.modify (fun _ => rfl) <| hrest

theorem keeps_timerFires (t : TmrId) (calls : List ParserCall) :
    Keeps Framed (timerFires t calls) := by
  refine keeps_get.bind fun s => ?_
  cases s.timers t with
  | none => exact keeps_pure _
  | some tm =>
    refine Keeps.modify (fun _ => rfl) <| ?_
    cases tm.callback with
    | connected => exact keeps_relayConnTmrcb
    | response => exact keeps_getRelay fun _ _ => keeps_modify fun _ => rfl

theorem keeps_relayReadable (res : Option (List ParserCall × Bool)) :
    Keeps Framed (relayReadable r res) := by
  refine keeps_getRelay fun relay hp => Keeps.ite (keeps_pure _) ?_
  match res with
  | none => exact keeps_relayHandleConnErr
  | some (calls, ok) => exact Keeps.ite keeps_relayHandleConnErr (keeps_modify fun _ => rfl)

theorem keeps_relayDnsResolved (ok : Bool) : Keeps Framed (relayDnsResolved r ok) := by
  refine keeps_getRelay fun relay hp => Keeps.ite (keeps_pure _) (Keeps.ite (keeps_putRelay hp) ?_)
  exact Keeps.put hp <| Keeps.modify (fun _ => rfl) <| keeps_callback _

theorem keeps_relayWritable : Keeps Framed (relayWritable r) := by
  refine keeps_getRelay fun relay hp => Keeps.ite (keeps_pure _) (Keeps.ite (keeps_pure _) ?_)
  exact Keeps.put hp <| Keeps.modify (fun _ => rfl) <| keeps_callback _

theorem keeps_relayEvent (e : RelayEvent) : Keeps Framed (relayEvent e) := by
  cases e with
  | dnsResolved r ok =>
    exact keeps_get.bind fun s => Keeps.ite (keeps_relayDnsResolved ok) (keeps_pure _)
  | writable r => exact keeps_get.bind fun s => Keeps.ite keeps_relayWritable (keeps_pure _)
  | readable r res =>
    exact keeps_get.bind fun s => Keeps.ite (keeps_relayReadable res) (keeps_pure _)
  | connError r =>
    refine keeps_get.bind fun s => Keeps.ite ?_ (keeps_pure _)
    exact keeps_getRelay fun _ _ => Keeps.ite (keeps_pure _) keeps_relayHandleConnErr
  | timer t calls => exact keeps_timerFires t calls

theorem keeps_relayStep (i : RelayInput) : Keeps Framed (relayStep i) := by
  refine keeps_get.bind fun s => ?_
  cases i with
  | call c => exact Keeps.ite (keeps_clientCall c) (keeps_pure _)
  | event e => exact Keeps.ite (keeps_relayEvent e) (keeps_pure _)
  | next => exact Keeps.ite (keeps_pure _) keeps_next
  | ret => exact keeps_modify fun _ => rfl

/-- The framing of a relay is decided by its requests, in every state of every run. -/
theorem wp_run_framed (is : List RelayInput) :
    wp (run relayStep is) (fun _ => AllRelays Framed) (fun _ _ => True) Relays.init := by
  have hinit : AllRelays Framed Relays.init :=
    fun _ relay hr => absurd hr.symm (Option.some_ne_none relay)
  exact run_wp (fun s i h _ => keeps_relayStep i s h) is Relays.init hinit
    (meets_true is Relays.init)

/-! ### What is written -/

/-- One fragment of a body. -/
def fragment (chunked : Bool) (data : Bytes) : Bytes :=
  if chunked then chunkSizeLine data.length ++ data ++ crlf else data

/-- The body of a request, and its end. -/
def framedBody (chunked : Bool) (frags : List Bytes) (complete : Bool) : Bytes :=
  frags.flatMap (fragment chunked) ++ if complete && chunked then bytes "0\r\n\r\n" else []

/-- The relay writes in chunks or not, and `w` has been written to its connection. -/
def Writes (s : Relays) (r : RelayId) (chunked : Bool) (w : Bytes) : Prop :=
  ∃ relay conn, s.relays r = some relay ∧ relay.isChunkPost = chunked ∧ relay.conn = some conn ∧
    conn.written = w

variable {s : Relays} {chunked : Bool} {w : Bytes}

theorem Writes.writtenTo_eq (h : Writes s r chunked w) : writtenTo s r = w := by
  obtain ⟨relay, conn, hr, -, hconn, hw⟩ := h
  rw [writtenTo, hr, Option.bind_some, hconn]
  exact hw

theorem Writes.writeConn (h : Writes s r chunked w) (data : Bytes) :
    wp (writeConn r data) (fun _ s' => Writes s' r chunked (w ++ data)) (fun _ _ => False) s := by
  obtain ⟨relay, conn, hr, hc, hconn, rfl⟩ := h
  simp only [RelayHttp.writeConn, updateConn, wp_bind, wp_getRelay, hr, hconn, wp_putRelay]
  exact ⟨_, _, setRelay_self .., hc, rfl, rfl⟩

theorem Writes.writeBody (h : Writes s r chunked w) (data : Bytes) :
    wp (relayWriteBody r data) (fun _ s' => Writes s' r chunked (w ++ fragment chunked data))
      (fun _ _ => False) s := by
  obtain ⟨relay, -, hr, hc, -⟩ := id h
  simp only [relayWriteBody, wp_bind, wp_getRelay, hr, wp_ite, wp_pure, hc]
  cases chunked with
  | false => exact h.writeConn data
  | true =>
    refine wp_mono (h.writeConn _) (fun _ s1 h1 => ?_) fun _ _ => id
    refine wp_mono (h1.writeConn data) (fun _ s2 h2 => ?_) fun _ _ => id
    have hend := h2.writeConn crlf
    simp only [List.append_assoc] at hend
    simpa [fragment] using hend

theorem Writes.writeBodies (h : Writes s r chunked w) (frags : List Bytes) :
    wp (writeBodies r frags) (fun _ s' => Writes s' r chunked (w ++ frags.flatMap (fragment chunked)))
      (fun _ _ => False) s := by
  induction frags generalizing s w with
  | nil =>
    rw [List.flatMap_nil, List.append_nil]
    exact h
  | cons data frags ih =>
    rw [RelayHttp.writeBodies, wp_bind, List.flatMap_cons, ← List.append_assoc]
    exact wp_mono (h.writeBody data) (fun _ s' h' => ih h') fun _ _ => id

theorem Writes.complete (h : Writes s r chunked w) :
    wp (relayCompleteRequest r)
      (fun _ s' => Writes s' r chunked (w ++ if chunked then bytes "0\r\n\r\n" else []))
      (fun _ _ => False) s := by
  obtain ⟨relay, -, hr, hc, -⟩ := id h
  simp only [relayCompleteRequest, wp_bind, wp_getRelay, hr, wp_ite, wp_pure, hc]
  cases chunked with
  | false => simpa using h
  | true => exact h.writeConn _

/-- The body after the head. -/
theorem Writes.body (h : Writes s r chunked w) (frags : List Bytes) (complete : Bool) :
    wp (do
        RelayHttp.writeBodies r frags
        if complete then relayCompleteRequest r else pure ())
      (fun _ s' => Writes s' r chunked (w ++ framedBody chunked frags complete))
      (fun _ _ => False) s := by
  rw [wp_bind]
  refine wp_mono (h.writeBodies frags) (fun _ s' h' => ?_) fun _ _ => id
  rw [framedBody, ← List.append_assoc]
  cases complete with
  | false =>
    simp only [Bool.false_and, Bool.false_eq_true, if_false, List.append_nil]
    exact h'
  | true => exact h'.complete

/-- The head of a request, which a `CONNECT` does not have. -/
def headSent (header : Header) : Option Bytes :=
  if isConnect header then some [] else requestHead header

/-- **What is written for a request** depends on the relay through `is_chunk_post` alone. -/
theorem Writes.sentFor_eq (h : Writes s r chunked w) (header : Header) (frags : List Bytes)
    (complete : Bool) :
    sentFor s r header frags complete =
      (headSent header).map (· ++ framedBody (chunked || chunkedRequest header) frags complete) := by
  -- a run that appends `out` to what has been written
  have hsent : ∀ out, (∃ c, wp (serve r header frags complete)
      (fun _ s' => Writes s' r c (w ++ out)) (fun _ _ => False) s) →
      sentFor s r header frags complete = some out := by
    rintro out ⟨c, hwp⟩
    obtain ⟨⟨⟩, s', hrun, hw⟩ := eq_ok_of_wp hwp
    rw [sentFor, hrun]
    dsimp only
    rw [hw.writtenTo_eq, h.writtenTo_eq, List.drop_left]
  obtain ⟨relay, conn, hr, hc, hconn, hw⟩ := id h
  by_cases hm : isConnect header = true
  · rw [headSent, if_pos hm, chunkedRequest, hm, Bool.not_true, Bool.false_and, Bool.or_false]
    refine hsent _ ⟨chunked, ?_⟩
    simp only [serve, relaySendRequest, wp_bind, wp_getRelay, hr, wp_putRelay, wp_modify, if_pos hm]
    have h1 : Writes ((s.setRelay r (some { relay with
        requests := relay.requests ++ [header], relayStatus := .connected })).addTimer
          { callback := .response, relay := r }) r chunked w :=
      ⟨_, conn, setRelay_self .., hc, hconn, hw⟩
    have hbody := h1.body frags complete
    rw [wp_bind] at hbody
    exact hbody
  · have hm' : isConnect header = false := Bool.eq_false_iff.mpr hm
    rw [headSent, if_neg hm, chunkedRequest, hm', Bool.not_false, Bool.true_and]
    cases hhead : requestHead header with
    | none =>
      have hfault : wp (serve r header frags complete) (fun _ _ => False) (fun _ _ => True) s := by
        simp only [serve, relaySendRequest, wp_bind, wp_getRelay, hr, wp_putRelay, if_neg hm, hhead,
          wp_throw]
      unfold sentFor
      unfold wp at hfault
      cases hrun : serve r header frags complete s with
      | ok a s' =>
        rw [hrun] at hfault
        exact hfault.elim
      | error e s' => rfl
    | some buf =>
      refine hsent _ ⟨chunked || chunkedPost header, ?_⟩
      simp only [serve, relaySendRequest, wp_bind, wp_getRelay, hr, wp_putRelay, if_neg hm, hhead]
      have h1 : Writes (s.setRelay r (some { relay with
          requests := relay.requests ++ [header]
          isChunkPost := relay.isChunkPost || chunkedPost header })) r
            (chunked || chunkedPost header) w :=
        ⟨_, conn, setRelay_self .., by rw [← hc], hconn, hw⟩
      refine wp_mono (h1.writeConn buf) (fun _ s2 h2 => ?_) fun _ _ => id
      obtain ⟨relay2, conn2, hr2, hc2, hconn2, hw2⟩ := h2
      rw [hr2]
      have h3 : Writes (s2.setRelay r (some { relay2 with relayStatus := .requestSent })) r
          (chunked || chunkedPost header) (w ++ buf) :=
        ⟨_, conn2, setRelay_self .., hc2, hconn2, hw2⟩
      have hbody := h3.body frags complete
      rw [wp_bind] at hbody
      rw [← List.append_assoc]
      exact hbody

/-! ### Two relays -/

theorem Wired.writes {relay : HttpRelay} (h : Wired s r relay) :
    Writes s r relay.isChunkPost (writtenTo s r) := by
  obtain ⟨hr, hconn⟩ := h
  obtain ⟨conn, hconn⟩ := Option.isSome_iff_exists.mp hconn
  refine ⟨relay, conn, hr, rfl, hconn, ?_⟩
  rw [writtenTo, hr, Option.bind_some, hconn]
  rfl

/-- Chunks are longer than the data in them. -/
theorem length_fragment_lt (data : Bytes) : data.length < (fragment true data).length := by
  show data.length < (chunkSizeLine data.length ++ data ++ crlf).length
  rw [List.length_append, List.length_append]
  show _ < _ + 2
  omega

theorem length_frags_le (frags : List Bytes) :
    (frags.flatMap (fragment false)).length ≤ (frags.flatMap (fragment true)).length := by
  induction frags with
  | nil => exact le_rfl
  | cons data frags ih =>
    rw [List.flatMap_cons, List.flatMap_cons, List.length_append, List.length_append]
    have hlt := length_fragment_lt data
    exact Nat.add_le_add (Nat.le_of_lt hlt) ih

/-- The framing shows, unless there is nothing to frame. -/
theorem framedBody_eq_iff (frags : List Bytes) (complete : Bool) :
    framedBody true frags complete = framedBody false frags complete ↔
      frags = [] ∧ complete = false := by
  constructor
  · intro h
    have hlen := congrArg List.length h
    rw [framedBody, framedBody, List.length_append, List.length_append, Bool.and_true,
      Bool.and_false] at hlen
    have hle := length_frags_le frags
    constructor
    · cases frags with
      | nil => rfl
      | cons data frags =>
        have hlt := length_fragment_lt data
        have hle' := length_frags_le frags
        rw [List.flatMap_cons, List.flatMap_cons, List.length_append, List.length_append] at hlen
        have hdata : (fragment false data).length = data.length := rfl
        simp only [Bool.false_eq_true, if_false, List.length_nil] at hlen
        omega
    · cases complete with
      | false => rfl
      | true =>
        have hfive : (bytes "0\r\n\r\n").length = 5 := by decide
        simp only [if_true, Bool.false_eq_true, if_false, List.length_nil, hfive] at hlen
        omega
  · rintro ⟨rfl, rfl⟩
    rfl

/-- Two relays write the same for a request iff their histories do not show in it. -/
theorem sentFor_eq_iff {s' : Relays} {r' : RelayId} {relay relay' : HttpRelay} (hf : Framed relay)
    (hf' : Framed relay') (h : Wired s r relay) (h' : Wired s' r' relay') (hnew : relay'.requests = [])
    (header : Header) (frags : List Bytes) (complete : Bool) :
    sentFor s r header frags complete = sentFor s' r' header frags complete ↔
      SameFraming relay.requests header frags complete := by
  unfold Framed at hf hf'
  rw [hnew, List.any_nil] at hf'
  rw [h.writes.sentFor_eq, h'.writes.sentFor_eq, hf', hf, Bool.false_or, SameFraming]
  cases relay.requests.any chunkedRequest with
  | false => exact ⟨fun _ => Or.inl rfl, fun _ => by rw [Bool.false_or]⟩
  | true =>
    rw [Bool.true_or]
    cases hreq : chunkedRequest header with
    | true => exact ⟨fun _ => Or.inr (Or.inl rfl), fun _ => rfl⟩
    | false =>
      cases hhead : headSent header with
      | none =>
        have hno : isConnect header = false ∧ requestHead header = none := by
          unfold headSent at hhead
          split_ifs at hhead with hm
          exact ⟨Bool.eq_false_iff.mpr hm, hhead⟩
        exact ⟨fun _ => Or.inr (Or.inr (Or.inr hno)), fun _ => rfl⟩
      | some buf =>
        have hsome : ¬(isConnect header = false ∧ requestHead header = none) := by
          rintro ⟨hm, hnone⟩
          rw [headSent, hm, hnone] at hhead
          exact absurd hhead.symm (Option.some_ne_none buf)
        rw [Option.map_some, Option.map_some, Option.some_inj, List.append_cancel_left_eq,
          framedBody_eq_iff]
        simp [hsome]

/-- **What a relay writes for a request**, compared with a relay that has no history, in all states of
all runs. -/
theorem wp_run_sentFor_iff (is is' : List RelayInput) :
    wp (run relayStep is)
      (fun _ s => wp (run relayStep is')
        (fun _ s' => ∀ r relay, Wired s r relay → ∀ r', FreshRelay s' r' →
          ∀ header frags complete,
            sentFor s r header frags complete = sentFor s' r' header frags complete ↔
              SameFraming relay.requests header frags complete)
        (fun _ _ => True) Relays.init)
      (fun _ _ => True) Relays.init := by
  refine wp_mono (wp_run_framed is) (fun _ s hall => ?_) fun _ _ => id
  refine wp_mono (wp_run_framed is') (fun _ s' hall' => ?_) fun _ _ => id
  rintro r relay h r' ⟨relay', h', hnew⟩ header frags complete
  exact sentFor_eq_iff (hall r relay h.1) (hall' r' relay' h'.1) h h' hnew header frags complete

/-- A `POST` with one header field. -/
def postWith (field value : Bytes) : Header :=
  { method := bytes "POST", url := some (bytes "/"), listHeaders := [⟨field, value⟩] }

/-- After a request with a chunked body, the body of the next one is written in chunks, although its
header announces a length. -/
theorem not_always_sentFor_eq : ¬∀ is is' : List RelayInput,
    wp (run relayStep is)
      (fun _ s => wp (run relayStep is')
        (fun _ s' => ∀ r relay, Wired s r relay → ∀ r', FreshRelay s' r' →
          ∀ header frags complete,
            sentFor s r header frags complete = sentFor s' r' header frags complete)
        (fun _ _ => True) Relays.init)
      (fun _ _ => True) Relays.init := by
  intro hall
  have hrun : wp (run relayStep (servedOnce (bytes "a.org") 80
        (postWith (bytes "Transfer-Encoding") (bytes "chunked")) ++
          [RelayInput.call (.create (bytes "a.org") 80 2)]))
      (fun _ s => wp (run relayStep [.call (.create (bytes "a.org") 80 2),
          .event (.dnsResolved 0 true), .event (.writable 0)])
        (fun _ s' => (s.relays 0).any (fun relay => relay.conn.isSome) = true ∧
          (s'.relays 0).any (fun relay => relay.conn.isSome && relay.requests.isEmpty) = true ∧
          sentFor s 0 (postWith (bytes "Content-Length") (bytes "3")) [bytes "abc"] true ≠
            sentFor s' 0 (postWith (bytes "Content-Length") (bytes "3")) [bytes "abc"] true)
        (fun _ _ => False) Relays.init)
      (fun _ _ => False) Relays.init := by decide +kernel
  obtain ⟨-, s, hs, hall⟩ := exists_of_wp (wp_mono (wp_and hrun (hall _ _))
    (fun _ _ h => h) fun _ _ h => h.1)
  obtain ⟨-, s', ⟨hr, hr', hne⟩, hall⟩ := exists_of_wp (wp_mono (wp_and hs hall)
    (fun _ _ h => h) fun _ _ h => h.1)
  obtain ⟨relay, hr, hconn⟩ := (Option.any_eq_true _ _).mp hr
  obtain ⟨relay', hr', hfresh⟩ := (Option.any_eq_true _ _).mp hr'
  rw [Bool.and_eq_true, List.isEmpty_iff] at hfresh
  exact hne (hall 0 relay ⟨hr, hconn⟩ 0 ⟨relay', ⟨hr', hfresh.1⟩, hfresh.2⟩ _ _ _)

end H2ClientProxy.RelayHttp
