import H2ClientProxy.Equiv.Drops

/-!
# The read interest of a client

`client_write` and `client_writecb` are about `EP_WRITE`, and each of them reads the mask of the
client's file, changes it and writes it back.  What becomes of `EP_READ` on the way is said by
`wp_run_readKept_iff`:

* `client_write` loses its way when the mask is `0`: the file has lost its slot then, its mask reads
  as `-1`, and queueing a first buffer registers it for everything;
* `client_writecb` means to clear `EP_WRITE` when the queue has been sent, but `!EP_WRITE` is `0`, so
  `EP_READ` is cleared with it.
-/

namespace H2ClientProxy

open Wp Machine SendQueue

variable {w : World}

/-! ### Files -/

/-- The file of the client has its slot iff it is interested in something. -/
def FileRegistered (cl : Client) : Prop := Registered cl.file

theorem fileRegistered_write {cl : Client} (h : FileRegistered cl) (sends : List SendResult)
    (data : Bytes) : FileRegistered (writeClient cl sends data).client := by
  unfold writeClient
  dsimp only
  split_ifs
  · split
    · split_ifs
      · exact Registered.detect h _ _
      · exact h
    · split_ifs
      · exact h
      · exact Registered.detect h _ _
  · exact h

theorem fileRegistered_rule : ClientRule (fun _ => True) FileRegistered where
  fresh := iff_of_true (by decide) (by decide)
  send_side := by
    intro cl cl' h hk
    unfold FileRegistered
    rw [hk.file]
    exact h
  write := fun data _ h => ⟨fileRegistered_write h _ data, trivial⟩

theorem fileRegistered_afterDrain {cl : Client} (h : FileRegistered cl) (out : DrainOut) :
    FileRegistered (afterDrain cl out) := by
  unfold afterDrain
  split_ifs
  · exact Registered.detect h _ _
  · exact h

/-- Every client's file is registered iff it is interested in something, in every state that a run
reaches. -/
theorem wp_run_fileRegistered (is : List Input) :
    wp (run step is) (fun _ => AllClients FileRegistered) (fun _ _ => True) World.init := by
  have hstep : ∀ w i, AllClients FileRegistered w → True →
      wp (step i) (fun _ => AllClients FileRegistered) (fun _ _ => True) w := by
    intro w i h _
    have h0 : AllClients FileRegistered (prepared w i) := h.of_clients rfl
    refine step_spec i (fun _ hh => ?_) fun _ _ _ => trivial
    refine h0.handled fileRegistered_rule trivial hh ?_ ?_
    · exact fun c cl what timeout _ hc => Registered.detect (h c cl hc) _ _
    · exact fun c cl _ hc _ _ => fileRegistered_afterDrain (h c cl hc) _
  have hinit : AllClients FileRegistered World.init :=
    fun c cl hc => absurd hc (Option.some_ne_none cl).symm
  exact run_wp hstep is World.init hinit (meets_true is World.init)

/-! ### Writing -/

/-- The read interest is the same. -/
def ReadKept (cl cl' : Client) : Prop := wantsRead cl'.file.mask = wantsRead cl.file.mask

instance (cl cl' : Client) : Decidable (ReadKept cl cl') :=
  inferInstanceAs (Decidable (wantsRead cl'.file.mask = wantsRead cl.file.mask))

/-- `client_write` queues data as the first buffer: nothing is queued, and `send()` accepts less
than it is offered or answers `EINPROGRESS`. -/
def queuesFirst (cl : Client) (sends : List SendResult) (data : Bytes) : Bool :=
  cl.listResponseWriteBuffer.isEmpty &&
    match (send sends data.length).1 with
    | .ok lenWrite => lenWrite < data.length
    | .error e => e = .EINPROGRESS

/-- `client_write` keeps the read interest: the client is interested in something, or no first buffer
is queued. -/
def writeKeepsRead (cl : Client) (sends : List SendResult) (data : Bytes) : Bool :=
  cl.file.mask ≠ 0 || !queuesFirst cl sends data

theorem readKept_queueFirst_iff {cl : Client} (h : FileRegistered cl) (data : Bytes) :
    ReadKept cl (queueFirst cl data) ↔ cl.file.mask ≠ 0 := by
  unfold ReadKept queueFirst
  dsimp only
  rw [epFileDetect_mask]
  by_cases hm : cl.file.mask = 0
  · rw [Registered.getDetect_lost h hm, hm]
    decide
  · rw [Registered.getDetect h hm, wantsRead_or_write]
    exact iff_of_true rfl hm

/-- **`client_write`.** -/
theorem readKept_writeClient_iff {cl : Client} (h : FileRegistered cl) (sends : List SendResult)
    (data : Bytes) :
    ReadKept cl (writeClient cl sends data).client ↔ writeKeepsRead cl sends data = true := by
  have hfirst : ∀ (cl1 : Client) (rest : Bytes), cl1.file = cl.file →
      (ReadKept cl (queueFirst cl1 rest) ↔ cl.file.mask ≠ 0) := by
    intro cl1 rest he
    have h1 : FileRegistered cl1 := by
      unfold FileRegistered
      rw [he]
      exact h
    have hiff := readKept_queueFirst_iff h1 rest
    unfold ReadKept at hiff ⊢
    rw [he] at hiff
    exact hiff
  unfold writeClient writeKeepsRead queuesFirst
  dsimp only
  by_cases hq : cl.listResponseWriteBuffer.isEmpty = true
  · rw [if_pos hq, hq, Bool.true_and]
    cases hsend : send sends data.length with
    | mk res sends' =>
      cases res with
      | ok lenWrite =>
        dsimp only
        split_ifs with hlt
        · rw [decide_eq_true hlt, Bool.not_true, Bool.or_false, decide_eq_true_eq]
          exact hfirst _ _ rfl
        · rw [decide_eq_false hlt, Bool.not_false, Bool.or_true]
          exact iff_of_true rfl rfl
      | error e =>
        dsimp only
        split_ifs with he
        · rw [decide_eq_false he, Bool.not_false, Bool.or_true]
          exact iff_of_true rfl rfl
        · rw [not_not] at he
          rw [decide_eq_true he, Bool.not_true, Bool.or_false, decide_eq_true_eq]
          exact hfirst _ _ rfl
  · rw [if_neg hq, Bool.eq_false_of_not_eq_true hq, Bool.false_and, Bool.not_false, Bool.or_true]
    exact iff_of_true rfl rfl

/-! ### Writable events -/

/-- Each `send()` of the loop of `client_writecb` accepts the buffer it is offered as a whole. -/
def sendsAll : List (Buf UInt8) → List SendResult → Bool
  | [], _ => true
  | pos :: n, sends =>
    takesWhole sends pos.rest.length && sendsAll n (send sends pos.rest.length).2

/-- `client_writecb` keeps the read interest: there is none, or nothing is queued, or something stays
queued. -/
def writecbKeepsRead (cl : Client) (sends : List SendResult) : Bool :=
  !wantsRead cl.file.mask || cl.listResponseWriteBuffer.isEmpty ||
    !sendsAll cl.listResponseWriteBuffer sends

/-- The loop of `client_writecb` empties the queue iff everything is accepted. -/
theorem drain_queue_isEmpty (q : List (Buf UInt8)) (sends : List SendResult) :
    (drain q sends).queue.isEmpty = sendsAll q sends := by
  induction q generalizing sends with
  | nil => rfl
  | cons pos n ih =>
    unfold drain sendsAll takesWhole
    cases hsend : send sends pos.rest.length with
    | mk res sends' =>
      cases res with
      | error e =>
        dsimp only
        split_ifs <;> rfl
      | ok lenWrite =>
        dsimp only
        split_ifs with hlt
        · rw [decide_eq_false (not_le.mpr hlt)]
          rfl
        · rw [decide_eq_true (not_lt.mp hlt), Bool.true_and]
          exact ih sends'

theorem readKept_afterDrain_iff {cl : Client} {sends : List SendResult}
    (hq : cl.listResponseWriteBuffer ≠ []) :
    ReadKept cl (afterDrain cl (drain cl.listResponseWriteBuffer sends)) ↔
      writecbKeepsRead cl sends = true := by
  have hne : cl.listResponseWriteBuffer.isEmpty = false := List.isEmpty_eq_false_iff.mpr hq
  unfold afterDrain writecbKeepsRead
  rw [drain_queue_isEmpty, hne, Bool.or_false]
  split_ifs with hall
  · -- the mask becomes `0`
    have hzero : wantsRead (epFileGetDetect cl.file &&& 0) = false := by
      rw [show epFileGetDetect cl.file &&& 0 = 0 from BitVec.and_zero]
      rfl
    unfold ReadKept
    dsimp only
    rw [epFileDetect_mask, hzero, hall, Bool.not_true, Bool.or_false, Bool.not_eq_true']
    exact eq_comm
  · rw [Bool.not_eq_true] at hall
    rw [hall, Bool.not_false, Bool.or_true]
    exact iff_of_true rfl rfl

/-- **`client_writecb`**, when it returns and has not dropped the client. -/
theorem WritableDone.readKept_iff {c : ClientId} {w' : World} {cl cl' : Client}
    (hd : WritableDone c w w') (hc : w.clients c = some cl) (hc' : w'.clients c = some cl') :
    ReadKept cl cl' ↔ writecbKeepsRead cl w.sends = true := by
  cases hd with
  | empty h1 hq hr hres =>
    rw [hc] at h1
    obtain rfl := Option.some.inj h1
    rw [hres.clients_eq, hc] at hc'
    obtain rfl := Option.some.inj hc'
    unfold writecbKeepsRead
    rw [hq, List.isEmpty_nil, Bool.or_true, Bool.true_or]
    exact iff_of_true rfl rfl
  | error h1 hq hout herr hdrop =>
    rw [hdrop.clients_eq, Function.update_self] at hc'
    exact absurd hc' (Option.some_ne_none cl').symm
  | full h1 hq hout herr hlen hw =>
    rw [hc] at h1
    obtain rfl := Option.some.inj h1
    rw [hw, World.setClient_clients, Function.update_self] at hc'
    obtain rfl := Option.some.inj hc'
    rw [hout]
    exact readKept_afterDrain_iff hq
  | resumed h1 hq hout herr hlen hr hres =>
    rw [hc] at h1
    obtain rfl := Option.some.inj h1
    rw [hres.clients_eq, World.setClient_clients, Function.update_self] at hc'
    obtain rfl := Option.some.inj hc'
    rw [hout]
    exact readKept_afterDrain_iff hq

/-! ### Every reachable client -/

/-- **When the read interest of a client survives `client_write` and `client_writecb`**, for every
client of every state that a run reaches, whatever is written and whatever `send()` answers. -/
theorem wp_run_readKept_iff (is : List Input) :
    wp (run step is)
      (fun _ w => ∀ c cl, w.clients c = some cl → ∀ sends pulls,
        (∀ data, wp (clientWrite c data)
          (fun _ w' => ∃ cl', w'.clients c = some cl' ∧
            (ReadKept cl cl' ↔ writeKeepsRead cl sends data = true))
          (fun _ _ => False) ((w.setSends sends).setPulls pulls)) ∧
        wp (clientWritecb c)
          (fun _ w' => ∀ cl', w'.clients c = some cl' →
            (ReadKept cl cl' ↔ writecbKeepsRead cl sends = true))
          (fun _ _ => True) ((w.setSends sends).setPulls pulls))
      (fun _ _ => True) World.init := by
  refine wp_mono (wp_run_fileRegistered is) (fun _ w h c cl hc sends pulls => ?_) fun _ _ => id
  have hc0 : ((w.setSends sends).setPulls pulls).clients c = some cl := hc
  constructor
  · intro data
    rw [wp_clientWrite]
    dsimp only
    rw [hc0]
    exact ⟨_, Function.update_self .., readKept_writeClient_iff (h c cl hc) sends data⟩
  · refine wp_mono (clientWritecb_spec c) (fun _ w' hd cl' hc' => ?_) fun _ _ _ => trivial
    exact hd.readKept_iff hc0 hc'

/-- In general the read interest does not survive: once the queued part of a response has been sent,
the client is no longer read from. -/
theorem not_readKept : ¬ ∀ is : List Input,
    wp (run step is)
      (fun _ w => ∀ c cl, w.clients c = some cl → ∀ sends pulls,
        (∀ data, wp (clientWrite c data)
          (fun _ w' => ∃ cl', w'.clients c = some cl' ∧ ReadKept cl cl')
          (fun _ _ => False) ((w.setSends sends).setPulls pulls)) ∧
        wp (clientWritecb c) (fun _ w' => ∀ cl', w'.clients c = some cl' → ReadKept cl cl')
          (fun _ _ => True) ((w.setSends sends).setPulls pulls))
      (fun _ _ => True) World.init := by
  intro h
  have hnot : ¬ wp (run step queuedResponse)
      (fun _ w => (w.clients 0).all fun cl => decide
        (wp (clientWritecb 0) (fun _ w' => (w'.clients 0).all fun cl' => ReadKept cl cl')
          (fun _ _ => True) ((w.setSends []).setPulls [])))
      (fun _ _ => True) World.init := by
    decide +kernel
  refine hnot (wp_mono (h _) (fun _ w hw => ?_) fun _ _ => id)
  rw [Option.all_eq_true]
  intro cl hcl
  refine decide_eq_true (wp_mono (hw 0 cl hcl [] []).2 (fun _ w' hk => ?_) fun _ _ => id)
  rw [Option.all_eq_true]
  exact fun cl' hcl' => decide_eq_true (hk cl' hcl')

end H2ClientProxy
