import H2ClientProxy.Equiv.Chunked
import H2ClientProxy.Equiv.Clients

/-!
# The byte stream to a client

`client_write` and `client_writecb` share one stream: what the socket accepted, followed by what
`list_response_write_buffer` still holds, should be what was passed to `client_write`
(`StreamIntact`).

* `wp_run_streamIntact`: the stream stays intact in every run in which `send()` never answers
  `EAGAIN` or `EWOULDBLOCK` and no writable event goes on to send after an `EINPROGRESS`
  (`KeepsStream`).
* `not_streamIntact_of_temporary_errors`: temporary errors in general break it, since `client_write`
  knows `EINPROGRESS` alone.
* `wp_run_writeWatched`: as long as the mask of a client is only overwritten while nothing is
  queued, whatever is queued has a writable event waiting for it (`WriteWatched`).
* `not_writeWatched`: a pipelined request overwrites the mask while a response is queued.
* `wp_run_callData`: what is recorded as written to a client is what the callers of `client_write` pass;
  `writeClient_accepted` and `drain_accepted` say the same of the answers of `send()`.
-/

namespace H2ClientProxy

open Wp Machine SendQueue

variable {w : World}

/-! ### Steps of the proxy and of a caller -/

/-- The rule for one action, for a property of the send side of every client. -/
theorem wp_act {S : List SendResult → Prop} {P : Client → Prop} (rule : ClientRule S P)
    (h : AllClients P w) (a : Action)
    (hinput : ∀ i, a = .input i → S i.sends ∧
      (∀ c cl what timeout, SetsMask w i.event c → w.clients c = some cl →
        P { cl with file := epFileDetect cl.file what timeout }) ∧
      (∀ c cl, i.event = .writable c → w.clients c = some cl → cl.listResponseWriteBuffer ≠ [] →
        (drain cl.listResponseWriteBuffer i.sends).isError = false →
        P (afterDrain cl (drain cl.listResponseWriteBuffer i.sends))))
    (hwrite : ∀ c data sends, a = .write c data sends → S sends) :
    wp (act a) (fun _ => AllClients P) (fun _ _ => True) w := by
  cases a with
  | input i =>
    obtain ⟨hS, hmask, hdrain⟩ := hinput i rfl
    have h0 : AllClients P (prepared w i) := h.of_clients rfl
    exact step_spec i (fun _ hh => h0.handled rule hS hh hmask hdrain) fun _ _ _ => trivial
  | write c data sends =>
    have hS := hwrite c data sends rfl
    have h0 : AllClients P (w.setSends sends) := h.of_clients rfl
    simp only [act, wp_bind, wp_modify]
    refine wp_onClient c _ _ h0 fun cl hc _ => ?_
    simp only [wp_bind, wp_clientWrite, hc, wp_pure]
    exact (h0.written rule hS (written_wroteTo hc data)).1

/-! ### Nothing is lost, duplicated or reordered -/

/-- What the socket accepted and what is still queued are what was written, in order. -/
def StreamIntact (cl : Client) : Prop :=
  cl.accepted ++ unsent cl.listResponseWriteBuffer = cl.written

/-- The errors after which a `send()` is to be tried again. -/
def temporary : SendResult → Bool
  | .error .other => false
  | _ => true

/-- The answers that `client_write` can deal with. -/
def understood : SendResult → Bool
  | .accepted _ => true
  | .error e => e = .EINPROGRESS

/-- Each of the answers that `send()` gives for the buffers takes nothing, up to the first short
one. -/
def takesNothing : List (Buf UInt8) → List SendResult → Bool
  | [], _ => true
  | pos :: n, sends =>
    match send sends pos.rest.length with
    | (.error _, sends) => takesNothing n sends
    | (.ok lenWrite, sends) =>
      lenWrite = 0 && (decide (lenWrite < pos.rest.length) || takesNothing n sends)

/-- Nothing is taken from the buffers after an answer that was an error. -/
def drainsInOrder : List (Buf UInt8) → List SendResult → Bool
  | [], _ => true
  | pos :: n, sends =>
    match send sends pos.rest.length with
    | (.error _, sends) => takesNothing n sends
    | (.ok lenWrite, sends) => decide (lenWrite < pos.rest.length) || drainsInOrder n sends

/-- The answers of `send()` that an action brings. -/
def Action.sends : Action → List SendResult
  | .input i => i.sends
  | .write _ _ sends => sends

/-- The condition for the stream of every client to stay intact: `send()` answers with a number or
with `EINPROGRESS`, and a writable event sends nothing after an `EINPROGRESS`. -/
def KeepsStream (w : World) (a : Action) : Bool :=
  a.sends.all understood &&
    match a with
    | .input ⟨.writable c, sends, _⟩ =>
      (w.clients c).all fun cl => drainsInOrder cl.listResponseWriteBuffer sends
    | _ => true

/-- A `send()` accepts at most what it is offered. -/
theorem send_le {sends sends' : List SendResult} {offered n : ℕ}
    (h : send sends offered = (.ok n, sends')) : n ≤ offered := by
  cases sends with
  | nil =>
    simp only [send, Prod.mk.injEq, Except.ok.injEq] at h
    omega
  | cons x rest =>
    cases x with
    | accepted k =>
      simp only [send, Prod.mk.injEq, Except.ok.injEq] at h
      omega
    | error e => simp [send] at h

/-- The answers left over are among the answers. -/
theorem send_rest {sends sends' : List SendResult} {offered : ℕ} {res : Except Errno ℕ}
    (h : send sends offered = (res, sends')) (hall : sends.all understood = true) :
    sends'.all understood = true ∧ ∀ e, res = .error e → e = .EINPROGRESS := by
  cases sends with
  | nil =>
    simp only [send, Prod.mk.injEq] at h
    rw [← h.2, ← h.1]
    exact ⟨rfl, by simp⟩
  | cons x rest =>
    rw [List.all_cons, Bool.and_eq_true] at hall
    cases x with
    | accepted k =>
      simp only [send, Prod.mk.injEq] at h
      rw [← h.2, ← h.1]
      exact ⟨hall.2, by simp⟩
    | error e =>
      simp only [send, Prod.mk.injEq] at h
      rw [← h.2, ← h.1]
      refine ⟨hall.2, ?_⟩
      rintro e' ⟨rfl⟩
      simpa [understood] using hall.1

theorem takesNothing_drain {q : List (Buf UInt8)} {sends : List SendResult}
    (h : takesNothing q sends = true) (herr : (drain q sends).isError = false) :
    (drain q sends).accepted = [] ∧ unsent (drain q sends).queue = unsent q := by
  induction q generalizing sends with
  | nil => exact ⟨rfl, rfl⟩
  | cons pos n ih =>
    unfold takesNothing at h
    unfold drain at herr ⊢
    cases hsend : send sends pos.rest.length with
    | mk res sends' =>
      rw [hsend] at h herr
      cases res with
      | error e =>
        -- the loop goes on behind the buffer
        dsimp only at h herr ⊢
        split_ifs at herr ⊢ with he
        obtain ⟨h1, h2⟩ := ih h herr
        exact ⟨h1, by rw [unsent_cons, unsent_cons, h2]⟩
      | ok lenWrite =>
        dsimp only at h herr ⊢
        rw [Bool.and_eq_true, decide_eq_true_eq] at h
        obtain ⟨rfl, h⟩ := h
        split_ifs at herr ⊢ with hlt
        · refine ⟨List.take_zero (l := pos.rest), ?_⟩
          have hrest := pos.take_append_rest_advance 0 (Nat.zero_le _)
          rw [List.take_zero, List.nil_append] at hrest
          rw [unsent_cons, unsent_cons, hrest]
        · -- nothing is taken and yet all is sent: the buffer is empty
          rw [decide_eq_false hlt, Bool.false_or] at h
          obtain ⟨h1, h2⟩ := ih h herr
          have hnil : pos.rest = [] := List.eq_nil_of_length_eq_zero (by omega)
          rw [hnil, unsent_cons, hnil]
          exact ⟨h1, h2⟩

/-- The loop of `client_writecb` takes a prefix of the stream when it sends in order. -/
theorem drainsInOrder_drain {q : List (Buf UInt8)} {sends : List SendResult}
    (h : drainsInOrder q sends = true) (herr : (drain q sends).isError = false) :
    (drain q sends).accepted ++ unsent (drain q sends).queue = unsent q := by
  induction q generalizing sends with
  | nil => rfl
  | cons pos n ih =>
    unfold drainsInOrder at h
    unfold drain at herr ⊢
    cases hsend : send sends pos.rest.length with
    | mk res sends' =>
      rw [hsend] at h herr
      cases res with
      | error e =>
        -- nothing may be taken any more
        dsimp only at h herr ⊢
        split_ifs at herr ⊢ with he
        obtain ⟨h1, h2⟩ := takesNothing_drain h herr
        rw [h1, List.nil_append, unsent_cons, unsent_cons, h2]
      | ok lenWrite =>
        dsimp only at h herr ⊢
        split_ifs at herr ⊢ with hlt
        · rw [unsent_cons, unsent_cons, ← List.append_assoc,
            pos.take_append_rest_advance lenWrite (le_of_lt hlt)]
        · rw [decide_eq_false hlt, Bool.false_or] at h
          rw [unsent_cons, List.append_assoc, ih h herr]

/-- `client_write` appends to the stream. -/
theorem streamIntact_write {cl : Client} {sends : List SendResult} (data : Bytes)
    (hS : sends.all understood = true) (h : StreamIntact cl) :
    StreamIntact (writeClient cl sends data).client ∧
      (writeClient cl sends data).sends.all understood = true := by
  unfold StreamIntact at h
  unfold writeClient
  dsimp only
  split_ifs with hq
  · rw [List.isEmpty_iff] at hq
    rw [hq, unsent_nil, List.append_nil] at h
    cases hsend : send sends data.length with
    | mk res sends' =>
      obtain ⟨hS', herr⟩ := send_rest hsend hS
      cases res with
      | ok lenWrite =>
        dsimp only
        have hle := send_le hsend
        split_ifs with hlt
        · refine ⟨?_, hS'⟩
          simp only [StreamIntact, queueFirst, hq, List.nil_append, unsent_cons, Buf.rest_fresh,
            unsent_nil, List.append_nil, List.append_assoc, List.take_append_drop, h]
        · have hfull : data.take lenWrite = data := List.take_of_length_le (by omega)
          refine ⟨?_, hS'⟩
          simp only [StreamIntact, hq, unsent_nil, List.append_nil, hfull, h]
      | error e =>
        -- `EINPROGRESS`: all of the data is queued
        dsimp only
        have he := herr e rfl
        rw [if_neg (not_not.mpr he)]
        refine ⟨?_, hS'⟩
        simp only [StreamIntact, queueFirst, hq, List.nil_append, unsent_cons, Buf.rest_fresh,
          unsent_nil, List.append_nil, h]
  · refine ⟨?_, hS⟩
    simp only [StreamIntact, unsent_append_fresh, ← List.append_assoc, h]

theorem streamIntact_rule :
    ClientRule (fun sends => sends.all understood = true) StreamIntact where
  fresh := rfl
  send_side := by
    intro cl cl' h hk
    unfold StreamIntact at h ⊢
    rw [hk.accepted, hk.queue, hk.written]
    exact h
  write := fun data hS h => streamIntact_write data hS h

/-- A loop that sends in order keeps the stream intact. -/
theorem streamIntact_afterDrain {cl : Client} {sends : List SendResult} (h : StreamIntact cl)
    (hord : drainsInOrder cl.listResponseWriteBuffer sends = true)
    (herr : (drain cl.listResponseWriteBuffer sends).isError = false) :
    StreamIntact (afterDrain cl (drain cl.listResponseWriteBuffer sends)) := by
  have hd := drainsInOrder_drain hord herr
  have hclient : StreamIntact (drainedClient cl (drain cl.listResponseWriteBuffer sends)) := by
    simp only [StreamIntact, drainedClient, List.append_assoc, hd]
    exact h
  unfold afterDrain
  split_ifs
  · exact hclient
  · exact hclient

/-- **The stream to every client stays intact** in every run that meets `KeepsStream`. -/
theorem wp_run_streamIntact (as : List Action)
    (hG : Meets act (fun w a => KeepsStream w a = true) as World.init) :
    wp (run act as) (fun _ => AllClients StreamIntact) (fun _ _ => True) World.init := by
  refine run_wp ?_ as World.init (fun c cl hc => absurd hc (by simp [World.init])) hG
  intro w a h hg
  unfold KeepsStream at hg
  rw [Bool.and_eq_true] at hg
  refine wp_act streamIntact_rule h a ?_ ?_
  · rintro i rfl
    refine ⟨hg.1, fun c cl _ _ _ hc => h c cl hc, ?_⟩
    intro c cl he hc _ herr
    obtain ⟨event, sends, pulls⟩ := i
    obtain rfl : event = .writable c := he
    have hord : drainsInOrder cl.listResponseWriteBuffer sends = true := by
      simpa [hc] using hg.2
    exact streamIntact_afterDrain (h c cl hc) hord herr
  · rintro c data sends rfl
    exact hg.1

/-- A response that is written in pieces, with an `EINPROGRESS` in the middle, meets the condition. -/
theorem wp_run_streamIntact_pieces :
    let as : List Action :=
      [.input { event := .accept }, .write 0 (bytes "head") [.accepted 1], .write 0 (bytes "er") [],
        .input { event := .writable 0, sends := [.accepted 3, .error .EINPROGRESS] },
        .input { event := .writable 0, sends := [.accepted 1] }]
    Meets act (fun w a => KeepsStream w a = true) as World.init ∧
      wp (run act as) (fun _ => AllClients StreamIntact) (fun _ _ => True) World.init :=
  ⟨by decide +kernel, wp_run_streamIntact _ (by decide +kernel)⟩

/-- Temporary errors alone do not keep the stream intact: `client_write` returns `-1` after an
`EAGAIN` without queueing its data, and no caller looks at the result. -/
theorem not_streamIntact_of_temporary_errors :
    ¬ ∀ as : List Action, Meets act (fun _ a => a.sends.all temporary = true) as World.init →
      wp (run act as) (fun _ => AllClients StreamIntact) (fun _ _ => True) World.init := by
  intro h
  have h1 := h [.input { event := .accept }, .write 0 (bytes "hi") [.error .EAGAIN]]
    (by decide +kernel)
  have h2 : ¬ wp
      (run act [.input { event := .accept }, .write 0 (bytes "hi") [.error .EAGAIN]])
      (fun _ w => (w.clients 0).all fun cl =>
        cl.accepted ++ unsent cl.listResponseWriteBuffer = cl.written)
      (fun _ _ => True) World.init := by
    decide +kernel
  refine h2 (wp_mono h1 (fun _ w hw => ?_) fun _ _ => id)
  rw [Option.all_eq_true]
  exact fun cl hcl => decide_eq_true (hw 0 cl hcl)

/-! ### The records -/

/-- What the next answer of `send()` takes of the data that it is offered. -/
def taken (sends : List SendResult) (data : Bytes) : Bytes :=
  match (send sends data.length).1 with
  | .error _ => []
  | .ok n => data.take n

/-- `client_write` offers its data to the socket if nothing is queued. -/
theorem writeClient_accepted (cl : Client) (sends : List SendResult) (data : Bytes) :
    (writeClient cl sends data).client.accepted =
      cl.accepted ++ if cl.listResponseWriteBuffer.isEmpty then taken sends data else [] := by
  unfold writeClient taken
  dsimp only
  split_ifs
  · generalize send sends data.length = answer
    obtain ⟨res, sends'⟩ := answer
    cases res with
    | ok lenWrite =>
      dsimp only
      split_ifs <;> rfl
    | error e =>
      dsimp only
      split_ifs <;> exact (List.append_nil _).symm
  · exact (List.append_nil _).symm

/-- What `send()` takes in the loop of `client_writecb`: of each buffer that it is offered, until an answer
ends the loop. -/
def takenLoop : List (Buf UInt8) → List SendResult → Bytes
  | [], _ => []
  | pos :: n, sends =>
    taken sends pos.rest ++
      match send sends pos.rest.length with
      | (.error e, sends) => if e ≠ .EINPROGRESS then [] else takenLoop n sends
      | (.ok lenWrite, sends) => if lenWrite < pos.rest.length then [] else takenLoop n sends

theorem drain_accepted (q : List (Buf UInt8)) (sends : List SendResult) :
    (drain q sends).accepted = takenLoop q sends := by
  induction q generalizing sends with
  | nil => rfl
  | cons pos n ih =>
    unfold drain takenLoop taken
    generalize send sends pos.rest.length = answer
    obtain ⟨res, sends'⟩ := answer
    cases res with
    | error e =>
      dsimp only
      split_ifs
      · rfl
      · exact ih sends'
    | ok lenWrite =>
      dsimp only
      split_ifs with hlt
      · exact (List.append_nil _).symm
      · rw [List.take_of_length_le (not_lt.mp hlt), ih sends']

/-- The data that a caller passes to `client_write` for `c`. -/
def callData (c : ClientId) (w : World) : Action → Bytes
  | .write c' data _ => if c' = c ∧ (w.clients c).isSome then data else []
  | .input _ => []

/-- The action is a call of `client_write`. -/
def Action.isCall : Action → Bool
  | .write _ _ _ => true
  | .input _ => false

theorem wp_act_callData (c : ClientId) {a : Action} (ha : a.isCall = true) :
    wp (act a) (fun _ w' => writtenTo w' c = writtenTo w c ++ callData c w a) (fun _ _ => True) w := by
  cases a with
  | input i => exact absurd ha Bool.false_ne_true
  | write c' data sends =>
    simp only [act, onClient, wp_bind, wp_modify, wp_get]
    cases hc' : (w.setSends sends).clients c' with
    | none =>
      -- nobody is there to write to
      have hnone : ¬(c' = c ∧ (w.clients c).isSome = true) := by
        rintro ⟨rfl, hsome⟩
        have hc : w.clients c' = none := hc'
        rw [hc] at hsome
        exact Bool.false_ne_true hsome
      simp only [wp_pure, callData, if_neg hnone, List.append_nil]
      rfl
    | some cl =>
      simp only [if_true, wp_bind, wp_clientWrite, hc', wp_pure, callData]
      by_cases h : c' = c
      · subst h
        have hc : w.clients c' = some cl := hc'
        rw [writtenTo_wroteTo hc', if_pos ⟨rfl, by rw [hc]; rfl⟩]
        rfl
      · have hother : (wroteTo (w.setSends sends) c' cl data).clients c = w.clients c :=
          Function.update_of_ne (Ne.symm h) _ _
        rw [if_neg fun h' => h h'.1, List.append_nil, writtenTo, writtenTo, hother]

/-- **The record of a client is the data of the calls**, whoever calls `client_write` for whom. -/
theorem wp_run_callData (c : ClientId) (as : List Action) (has : ∀ a ∈ as, a.isCall = true) :
    wp (run act as) (fun _ w' => writtenTo w' c = writtenTo w c ++ yields act (callData c) as w)
      (fun _ _ => True) w :=
  run_yields_wp (G := fun _ a => a.isCall = true) (fun _ _ ha => wp_act_callData c ha)
    (meets_of_forall (fun a ha _ => has a ha) w)

/-- The handlers too record what they pass to `client_write`. -/
theorem Writes.written {p p' : Client × List SendResult} (h : Writes p p') :
    ∃ datas : List Bytes,
      p' = datas.foldl (fun p data =>
        ((writeClient p.1 p.2 data).client, (writeClient p.1 p.2 data).sends)) p ∧
      p'.1.written = p.1.written ++ datas.flatten := by
  induction h with
  | refl => exact ⟨[], rfl, (List.append_nil _).symm⟩
  | tail _ h1 ih =>
    obtain ⟨data, rfl⟩ := h1
    obtain ⟨datas, hfold, hwritten⟩ := ih
    refine ⟨datas ++ [data], ?_, ?_⟩
    · rw [List.foldl_append, ← hfold]
      rfl
    · rw [writeClient_written, hwritten, List.flatten_append, List.flatten_singleton,
        List.append_assoc]

/-! ### A writable event for every queued byte -/

/-- Whatever is queued waits for a writable event. -/
def WriteWatched (cl : Client) : Prop :=
  cl.listResponseWriteBuffer ≠ [] → wantsWrite cl.file.mask = true

/-- The client has nothing queued. -/
def nothingQueued (w : World) (c : ClientId) : Bool :=
  (w.clients c).all fun cl => cl.listResponseWriteBuffer.isEmpty

/-- The condition for every queue to stay watched: the end of a header block and the connection of a
relay, which set the mask anew, find an empty queue. -/
def KeepsMask (w : World) : Action → Bool
  | .input ⟨.headersComplete c _, _, _⟩ =>
    (w.clients c).all fun cl => cl.parser ≠ .head || nothingQueued w c
  | .input ⟨.timer r, _, _⟩ =>
    (w.relays r).all fun rel => !rel.tmrConnectd || !w.sSession || nothingQueued w rel.args
  | _ => true

theorem KeepsMask.nothingQueued {i : Input} (hg : KeepsMask w (.input i) = true) {c : ClientId}
    (hset : SetsMask w i.event c) : nothingQueued w c = true := by
  obtain ⟨event, sends, pulls⟩ := i
  rcases hset with ⟨method, cl, he, hc, hp⟩ | ⟨r, rel, he, hr, ht, hs, rfl⟩
  · obtain rfl : event = .headersComplete c method := he
    simpa [KeepsMask, hc, hp] using hg
  · obtain rfl : event = .timer r := he
    simpa [KeepsMask, hr, ht, hs] using hg

theorem wantsWrite_or (m : Mask) : wantsWrite (m ||| EP_WRITE) = true := by
  have hbit : ((m ||| EP_WRITE) &&& EP_WRITE).getLsbD 1 = true := by
    rw [BitVec.getLsbD_and, BitVec.getLsbD_or]
    simp [EP_WRITE]
  unfold wantsWrite
  rw [decide_eq_true_eq]
  intro h
  rw [h] at hbit
  exact absurd hbit (by decide)

theorem writeWatched_queueFirst (cl : Client) (data : Bytes) : WriteWatched (queueFirst cl data) := by
  intro _
  rw [queueFirst, epFileDetect_mask]
  exact wantsWrite_or _

theorem writeWatched_write {cl : Client} {sends : List SendResult} (data : Bytes)
    (h : WriteWatched cl) : WriteWatched (writeClient cl sends data).client := by
  unfold writeClient
  dsimp only
  split_ifs with hq
  · rw [List.isEmpty_iff] at hq
    split
    · split_ifs
      · exact writeWatched_queueFirst _ _
      · exact fun hne => absurd hq hne
    · split_ifs
      · exact fun hne => absurd hq hne
      · exact writeWatched_queueFirst _ _
  · rw [List.isEmpty_iff] at hq
    exact fun _ => h hq

theorem writeWatched_rule : ClientRule (fun _ => True) WriteWatched where
  fresh := fun h => absurd rfl h
  send_side := by
    intro cl cl' h hk hne
    rw [hk.queue] at hne
    rw [hk.file]
    exact h hne
  write := fun data _ h => ⟨writeWatched_write data h, trivial⟩

/-- The loop of `client_writecb` leaves the mask alone unless the queue is empty afterwards. -/
theorem writeWatched_afterDrain {cl : Client} {out : DrainOut} (h : WriteWatched cl)
    (hne : cl.listResponseWriteBuffer ≠ []) : WriteWatched (afterDrain cl out) := by
  unfold afterDrain
  split_ifs with hq
  · rw [List.isEmpty_iff] at hq
    exact fun hne' => absurd hq hne'
  · exact fun _ => h hne

/-- **Whatever is queued waits for a writable event** in every run that meets `KeepsMask`. -/
theorem wp_run_writeWatched (as : List Action)
    (hG : Meets act (fun w a => KeepsMask w a = true) as World.init) :
    wp (run act as) (fun _ => AllClients WriteWatched) (fun _ _ => True) World.init := by
  refine run_wp ?_ as World.init (fun c cl hc => absurd hc (by simp [World.init])) hG
  intro w a h hg
  refine wp_act writeWatched_rule h a ?_ fun _ _ _ _ => trivial
  rintro i rfl
  refine ⟨trivial, ?_, ?_⟩
  · intro c cl what timeout hset hc
    have hq := KeepsMask.nothingQueued hg hset
    simp only [nothingQueued, hc, Option.all_some, List.isEmpty_iff] at hq
    exact fun hne => absurd hq hne
  · exact fun c cl _ hc hne _ => writeWatched_afterDrain (h c cl hc) hne

/-- A response whose head is written, all but its first byte, into the queue. -/
def queuedResponse : List Input :=
  inputs (opening ++ getRequest 0 ++
    [.timer 0, .recvHeader 1 .response (bytes ":status") (bytes "200")]) ++
    [{ event := .recvFrame 1 (.headers 4), sends := [.accepted 1] }]

/-- A response that is queued in part and sent before the next request meets the condition. -/
theorem wp_run_writeWatched_drained :
    Meets act (fun w a => KeepsMask w a = true)
        ((queuedResponse ++ inputs (.writable 0 :: getRequest 0)).map Action.input)
        World.init ∧
      wp (run act
        ((queuedResponse ++ inputs (.writable 0 :: getRequest 0)).map Action.input))
        (fun _ => AllClients WriteWatched) (fun _ _ => True) World.init :=
  ⟨by decide +kernel, wp_run_writeWatched _ (by decide +kernel)⟩

/-- In general a queue is not watched: the header block of a pipelined request ends while a response
is queued, and the mask is cleared. -/
theorem not_writeWatched :
    ¬ ∀ as : List Action,
      wp (run act as) (fun _ => AllClients WriteWatched) (fun _ _ => True) World.init := by
  intro h
  have hnot : ¬ wp (run act ((queuedResponse ++ inputs (getRequest 0)).map Action.input))
      (fun _ w => (w.clients 0).all fun cl =>
        cl.listResponseWriteBuffer.isEmpty || wantsWrite cl.file.mask)
      (fun _ _ => True) World.init := by
    decide +kernel
  refine hnot (wp_mono (h _) (fun _ w hw => ?_) fun _ _ => id)
  rw [Option.all_eq_true]
  intro cl hcl
  by_cases hq : cl.listResponseWriteBuffer = []
  · rw [hq]
    rfl
  · rw [hw 0 cl hcl hq, Bool.or_true]

end H2ClientProxy
