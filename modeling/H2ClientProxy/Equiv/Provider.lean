import H2ClientProxy.Lib.Machine
import H2ClientProxy.RelayHttp2.Provider
import H2ClientProxy.Equiv.Session

/-!
# The data provider gives out what was written

* `copyLoop_eq_copyOut`: for a length that is a positive `int`, the loop with its conversions is the
  loop on natural numbers.
* `relayDataSourceRead_eq`, `relayWriteBody_queues`: the calls of the state machine of the proxy do to
  a relay what `bodyStep` does.
* `wp_run_bodyServed`: after any calls with such lengths nothing is lost or doubled, and the next call
  answers as it should, whatever length it is asked for.
* `wp_run_bodyRecords`: `written` is the data of the blocks of a run, and `copied` the data that its reads
  answered.
* `not_bodyServed`: a length of `2 ^ 31` is negative as an `int`.
-/

namespace H2ClientProxy

open Wp Machine SendQueue Wrap32

/-! ### The loop -/

/-- A buffer fits in an `int` and is not used up. -/
def Pending (b : Buf UInt8) : Prop := b.rest ≠ [] ∧ b.data.length < 2 ^ 31

theorem Pending.sent_lt {b : Buf UInt8} (h : Pending b) : b.sent < b.data.length := by
  have hne := h.1
  rw [Buf.rest, ne_eq, List.drop_eq_nil_iff] at hne
  omega

theorem Pending.fresh (block : Block) : Pending (Buf.fresh block.data) :=
  ⟨block.ne_nil, block.length_lt⟩

/-- What is taken of a buffer: as much as there is room for. -/
theorem lenCpy_eq {b : Buf UInt8} (hb : Pending b) {left : ℕ} (hleft : left < 2 ^ 31) :
    (if wrap32 left < wrap32 (b.data.length - b.sent) then wrap32 left
      else wrap32 (b.data.length - b.sent)) = ((min left b.rest.length : ℕ) : ℤ) := by
  have hsent := hb.sent_lt
  have hlen := hb.2
  have hrest : b.rest.length = b.data.length - b.sent := by rw [Buf.rest, List.length_drop]
  rw [wrap32_of_isInt ⟨by omega, by omega⟩, wrap32_of_isInt ⟨by omega, by omega⟩, hrest]
  split_ifs <;> omega

/-- With room for a positive `int`, `copyLoop` is `copyOut`. -/
theorem copyLoop_eq_copyOut {length : ℕ} (hlt : length < 2 ^ 31) :
    ∀ {q : List (Buf UInt8)} {total : ℕ}, (∀ b ∈ q, Pending b) → total ≤ length →
      copyLoop length q total = some (copyOut q (length - total)) := by
  intro q
  induction q with
  | nil => intro total _ _; rfl
  | cons pos n ih =>
    intro total hq htotal
    have hpos : Pending pos := hq pos List.mem_cons_self
    have hn : ∀ b ∈ n, Pending b := fun b hb => hq b (List.mem_cons_of_mem _ hb)
    have hleft : ((length : ℤ) - (total : ℤ)) = ((length - total : ℕ) : ℤ) := by omega
    have hcpy := lenCpy_eq hpos (show length - total < 2 ^ 31 by omega)
    have hsum : wrap32 ((total : ℤ) + ((min (length - total) pos.rest.length : ℕ) : ℤ)) =
        ((total + min (length - total) pos.rest.length : ℕ) : ℤ) := by
      rw [wrap32_of_isInt ⟨by omega, by omega⟩]
      omega
    rw [copyLoop, copyOut, hleft]
    simp only [hcpy, Int.toNat_natCast, hsum]
    -- all sums are `int`s, and the copy stays in `buf`
    rw [if_pos ⟨by omega, by omega⟩]
    split_ifs with hend
    · -- the buffer is used up
      rw [ih hn (by omega), Option.map_some, Nat.sub_add_eq]
    · rfl

/-! ### What a read takes and leaves -/

/-- A read takes a beginning of the stream, and leaves the rest of it. -/
theorem copyOut_append_unsent (q : List (Buf UInt8)) (left : ℕ) :
    (copyOut q left).1 ++ unsent (copyOut q left).2 = unsent q := by
  induction q generalizing left with
  | nil => rfl
  | cons pos n ih =>
    rw [copyOut]
    have htake := pos.take_append_rest_advance (min left pos.rest.length) (min_le_right _ _)
    dsimp only
    split_ifs with hend
    · have hnil : (pos.advance (min left pos.rest.length)).rest = [] := by
        rw [Buf.rest, List.drop_eq_nil_iff]
        exact hend.ge
      rw [hnil, List.append_nil] at htake
      rw [List.append_assoc, ih, htake, unsent_cons]
    · rw [unsent_cons, unsent_cons, ← List.append_assoc, htake]

theorem length_copyOut_le (q : List (Buf UInt8)) (left : ℕ) :
    (copyOut q left).1.length ≤ left := by
  induction q generalizing left with
  | nil => exact Nat.zero_le _
  | cons pos n ih =>
    rw [copyOut]
    dsimp only
    split_ifs with hend
    · have hrest := ih (left - min left pos.rest.length)
      rw [List.length_append, List.length_take]
      omega
    · rw [List.length_take]
      omega

/-- A read leaves no used-up buffer in the list. -/
theorem copyOut_pending {q : List (Buf UInt8)} (hq : ∀ b ∈ q, Pending b) (left : ℕ) :
    ∀ b ∈ (copyOut q left).2, Pending b := by
  induction q generalizing left with
  | nil => exact hq
  | cons pos n ih =>
    have hn : ∀ b ∈ n, Pending b := fun b hb => hq b (List.mem_cons_of_mem _ hb)
    rw [copyOut]
    dsimp only
    split_ifs with hend
    · exact ih hn _
    · intro b hb
      obtain rfl | hb := List.mem_cons.1 hb
      · refine ⟨?_, (hq pos List.mem_cons_self).2⟩
        rw [Buf.rest, ne_eq, List.drop_eq_nil_iff]
        intro hle
        exact hend (le_antisymm (Buf.sent_le _) hle)
      · exact hn b hb

/-- If there is room, a list with a buffer in it gives something. -/
theorem copyOut_ne_nil {pos : Buf UInt8} {n : List (Buf UInt8)} (hpos : Pending pos) {left : ℕ}
    (hleft : 0 < left) : (copyOut (pos :: n) left).1 ≠ [] := by
  have hrest : 0 < pos.rest.length := List.length_pos_of_ne_nil hpos.1
  have htake : pos.rest.take (min left pos.rest.length) ≠ [] := by
    apply List.ne_nil_of_length_pos
    rw [List.length_take]
    omega
  rw [copyOut]
  dsimp only
  split_ifs
  · exact List.append_ne_nil_of_left_ne_nil htake _
  · exact htake

/-! ### One call -/

/-- The answer of the callback when the loop ends with `out`. -/
def readAnswer (isRequestComplete : Bool) (out : Bytes × List (Buf UInt8)) : ReadResult :=
  if out.1.isEmpty then if isRequestComplete && out.2.isEmpty then .eof else .deferred
  else .copied out.1

/-- Asked for a positive `int`, the callback stays inside its buffers. -/
theorem relayDataSourceReadCallback_spec {length : ℕ} (hlt : length < 2 ^ 31) {s : BodyState}
    (hq : ∀ b ∈ s.relay.listWriteBuf, Pending b) {Q : ReadResult → BodyState → Prop}
    {E : CopyFault → BodyState → Prop}
    (hQ : Q (readAnswer s.relay.isRequestComplete (copyOut s.relay.listWriteBuf length))
      { relay := { s.relay with listWriteBuf := (copyOut s.relay.listWriteBuf length).2 }
        written := s.written
        copied := s.copied ++ (copyOut s.relay.listWriteBuf length).1 }) :
    wp (relayDataSourceReadCallback length) Q E s := by
  have hloop : copyLoop length s.relay.listWriteBuf 0 =
      some (copyOut s.relay.listWriteBuf length) :=
    copyLoop_eq_copyOut hlt hq (Nat.zero_le length)
  rw [readAnswer] at hQ
  simp only [relayDataSourceReadCallback, wp_bind, wp_get, hloop, wp_modify, wp_ite, wp_pure]
  split_ifs at hQ ⊢ <;> assumption

/-- So does the provider of the state machine of the proxy, which leaves its relay the same way. -/
theorem relayDataSourceRead_eq {w : World} {r : RelayId} {rel : Relay}
    (hrel : w.relays r = some rel) (length : ℕ) :
    relayDataSourceRead r length w =
      .ok (readAnswer rel.isRequestComplete (copyOut rel.listWriteBuf length))
        (w.setRelay r { rel with listWriteBuf := (copyOut rel.listWriteBuf length).2 }) := by
  have hok : wp (relayDataSourceRead r length) (fun res w' =>
      res = readAnswer rel.isRequestComplete (copyOut rel.listWriteBuf length) ∧
      w' = w.setRelay r { rel with listWriteBuf := (copyOut rel.listWriteBuf length).2 })
      (fun _ _ => False) w := by
    simp only [relayDataSourceRead, readAnswer, wp_bind, wp_getRelay, hrel, wp_putRelay, wp_ite,
      wp_pure]
    split_ifs <;> exact ⟨rfl, trivial⟩
  obtain ⟨res, w', hrun, hres, hw'⟩ := eq_ok_of_wp hok
  rw [hrun, hres, hw']

/-- Whoever writes to a relay, the block is queued as `bodyStep` does it before anything is sent. -/
theorem relayWriteBody_queues {w : World} {r : RelayId} {rel : Relay} (hrel : w.relays r = some rel)
    (block : Block) :
    relayWriteBody r block.data w =
      (do
        needSession rel.session
        if RelayStatus.requestSent.toNat ≤ rel.relayStatus.toNat then
          resumeData rel.session rel.streamId
          sessionSend rel.session
        else pure () : SysM Unit) (w.setRelay r (rel.queueBody block.data)) := by
  have hne : block.data.isEmpty = false := List.isEmpty_eq_false_iff.2 block.ne_nil
  have hget : getRelay r w = .ok rel w := by
    have hok : wp (getRelay r) (fun relay w' => relay = rel ∧ w' = w) (fun _ _ => False) w := by
      simp only [wp_getRelay, hrel, and_self]
    obtain ⟨relay, w', hrun, rfl, rfl⟩ := eq_ok_of_wp hok
    exact hrun
  rw [relayWriteBody, hne]
  simp only [Bool.false_eq_true, if_false, bind, EStateM.bind, hget]
  rfl

/-- What the callback should answer in the state `s`. -/
structure AnswersRight (s : BodyState) (length : ℕ) (res : ReadResult) : Prop where
  length_le : ∀ data, res = .copied data → 0 < data.length ∧ data.length ≤ length
  available : unsent s.relay.listWriteBuf ≠ [] → ∃ data, res = .copied data
  eof : res = .eof → s.relay.isRequestComplete = true ∧ s.relay.listWriteBuf = []
  deferred : res = .deferred ↔
    unsent s.relay.listWriteBuf = [] ∧ s.relay.isRequestComplete = false

theorem readAnswer_answersRight {s : BodyState} (hq : ∀ b ∈ s.relay.listWriteBuf, Pending b)
    {length : ℕ} (hlength : 0 < length) :
    AnswersRight s length
      (readAnswer s.relay.isRequestComplete (copyOut s.relay.listWriteBuf length)) := by
  cases hlist : s.relay.listWriteBuf with
  | nil =>
    -- the list is empty: the flag decides
    cases hcomplete : s.relay.isRequestComplete <;>
      constructor <;> simp [readAnswer, copyOut, hlist, hcomplete]
  | cons pos n =>
    rw [hlist] at hq
    have hne := copyOut_ne_nil (n := n) (hq pos List.mem_cons_self) hlength
    have hanswer : readAnswer s.relay.isRequestComplete (copyOut (pos :: n) length) =
        .copied (copyOut (pos :: n) length).1 := by
      rw [readAnswer, List.isEmpty_eq_false_iff.2 hne]
      rfl
    have hunsent : unsent (pos :: n) ≠ [] := by
      rw [unsent_cons]
      exact List.append_ne_nil_of_left_ne_nil (hq pos List.mem_cons_self).1 _
    rw [hanswer]
    constructor
    · rintro data ⟨⟩
      exact ⟨List.length_pos_of_ne_nil hne, length_copyOut_le _ _⟩
    · intro _
      exact ⟨_, rfl⟩
    · rintro ⟨⟩
    · rw [hlist]
      constructor
      · rintro ⟨⟩
      · intro h
        exact absurd h.1 hunsent

/-! ### Any calls -/

/-- Nothing is lost or doubled, and no used-up buffer stays in the list. -/
structure BodyKept (s : BodyState) : Prop where
  pending : ∀ b ∈ s.relay.listWriteBuf, Pending b
  stream : s.copied ++ unsent s.relay.listWriteBuf = s.written

/-- A call that asks for a length asks for a positive `int`. -/
def BodyAct.asksInt : BodyAct → Bool
  | .read length => 0 < length && length < 2 ^ 31
  | _ => true

/-- A call that asks for a length asks for some room. -/
def BodyAct.asksRoom : BodyAct → Bool
  | .read length => 0 < length
  | _ => true

theorem BodyKept.step {s : BodyState} (h : BodyKept s) {a : BodyAct} (ha : a.asksInt = true) :
    wp (bodyStep a) (fun _ => BodyKept) (fun _ _ => False) s := by
  cases a with
  | write block =>
    constructor
    · intro b hb
      obtain hb | hb := List.mem_append.1 hb
      · exact h.pending b hb
      · rw [List.mem_singleton.1 hb]
        exact Pending.fresh block
    · show s.copied ++ unsent (s.relay.listWriteBuf ++ [Buf.fresh block.data]) =
        s.written ++ block.data
      rw [unsent_append_fresh, ← List.append_assoc, h.stream]
  | complete => exact ⟨h.pending, h.stream⟩
  | read length =>
    simp only [BodyAct.asksInt, Bool.and_eq_true, decide_eq_true_eq] at ha
    simp only [bodyStep, wp_bind, wp_pure]
    apply relayDataSourceReadCallback_spec ha.2 h.pending
    constructor
    · exact copyOut_pending h.pending length
    · rw [List.append_assoc, copyOut_append_unsent, h.stream]

/-- In a run whose reads ask for positive `int`s nothing is lost or doubled. -/
theorem run_bodyKept (acts : List BodyAct) (hacts : ∀ a ∈ acts, a.asksInt = true) :
    wp (run bodyStep acts) (fun _ => BodyKept) (fun _ _ => False) .init := by
  have hinit : BodyKept .init := by
    refine ⟨?_, rfl⟩
    intro b hb
    exact absurd hb List.not_mem_nil
  have hmeets : Meets bodyStep (fun _ a => a.asksInt = true) acts .init :=
    meets_of_forall (fun a ha _ => hacts a ha) _
  exact run_wp (fun s a (h : BodyKept s) ha => h.step ha) acts .init hinit hmeets

/-- What is claimed of a state for the lengths that satisfy `ok`. -/
def BodyServed (ok : ℕ → Prop) (s : BodyState) : Prop :=
  s.copied ++ unsent s.relay.listWriteBuf = s.written ∧
  ∀ length, ok length →
    wp (relayDataSourceReadCallback length) (fun res _ => AnswersRight s length res)
      (fun _ _ => False) s

/-- Whatever calls were made, as long as the lengths asked for are positive `int`s: what came out and
what is still in the list are what was written, and the next read answers as it should. -/
theorem wp_run_bodyServed (acts : List BodyAct) (hacts : ∀ a ∈ acts, a.asksInt = true) :
    wp (run bodyStep acts) (fun _ => BodyServed fun length => 0 < length ∧ length < 2 ^ 31)
      (fun _ _ => False) .init := by
  refine wp_mono (run_bodyKept acts hacts) ?_ (fun _ _ => id)
  intro _ s h
  refine ⟨h.stream, ?_⟩
  rintro length ⟨hpos, hlt⟩
  exact relayDataSourceReadCallback_spec hlt h.pending (readAnswer_answersRight h.pending hpos)

/-- A fragment that is read in two pieces, and then the end of the body. -/
theorem wp_run_bodyServed_cut :
    (∀ a ∈ [BodyAct.write blockAb, .read 1, .complete, .read 1, .read 5], a.asksInt = true) ∧
      wp (run bodyStep [.write blockAb, .read 1, .complete, .read 1, .read 5])
        (fun _ => BodyServed fun length => 0 < length ∧ length < 2 ^ 31) (fun _ _ => False) .init :=
  ⟨by decide, wp_run_bodyServed _ (by decide)⟩

/-- A positive length need not be a positive `int`: asked for `2 ^ 31` bytes, the callback computes
`len_left` as `-2 ^ 31`, and `memcpy` leaves its buffers. -/
theorem not_bodyServed : ¬ ∀ acts : List BodyAct, (∀ a ∈ acts, a.asksRoom = true) →
    wp (run bodyStep acts) (fun _ => BodyServed fun length => 0 < length) (fun _ _ => False) .init := by
  intro h
  have hrun := h [.write blockAb, .read (2 ^ 31)] (by decide)
  have hfault : wp (run bodyStep [.write blockAb, .read (2 ^ 31)]) (fun _ _ => False)
      (fun _ _ => True) .init := by decide +kernel
  obtain ⟨_, _, hnot, _⟩ := exists_of_wp (wp_mono (wp_and hfault hrun) (fun _ _ h => h)
    (fun _ _ h => h.2))
  exact hnot

/-! ### The records -/

/-- The data of the call, if it writes. -/
def BodyAct.data : BodyAct → Bytes
  | .write block => block.data
  | _ => []

/-- The data of an answer. -/
def ReadResult.data : ReadResult → Bytes
  | .copied data => data
  | _ => []

/-- The data that the call answers, if it reads. -/
def readData (s : BodyState) : BodyAct → Bytes
  | .read length =>
    match relayDataSourceReadCallback length s with
    | .ok res _ => res.data
    | .error _ _ => []
  | _ => []

/-- The callback records what it answers. -/
theorem relayDataSourceReadCallback_records (length : ℕ) (s : BodyState) :
    wp (relayDataSourceReadCallback length)
      (fun res s' => s'.written = s.written ∧ s'.copied = s.copied ++ res.data)
      (fun _ _ => True) s := by
  simp only [relayDataSourceReadCallback, wp_bind, wp_get]
  cases copyLoop length s.relay.listWriteBuf 0 with
  | none => trivial
  | some out =>
    obtain ⟨out, q⟩ := out
    simp only [wp_bind, wp_modify, wp_ite, wp_pure]
    split_ifs with hempty hcomplete
    · -- the end of the body
      rw [List.isEmpty_iff] at hempty
      rw [hempty]
      exact ⟨trivial, rfl⟩
    · -- nothing to read yet
      rw [List.isEmpty_iff] at hempty
      rw [hempty]
      exact ⟨trivial, rfl⟩
    · exact ⟨trivial, rfl⟩

/-- A call records its data. -/
theorem bodyStep_records (s : BodyState) (a : BodyAct) :
    wp (bodyStep a)
      (fun _ s' => s'.written = s.written ++ a.data ∧ s'.copied = s.copied ++ readData s a)
      (fun _ _ => True) s := by
  cases a with
  | write block => exact ⟨rfl, (List.append_nil _).symm⟩
  | complete => exact ⟨(List.append_nil _).symm, (List.append_nil _).symm⟩
  | read length =>
    have hread := relayDataSourceReadCallback_records length s
    simp only [bodyStep, wp_bind, wp_pure, BodyAct.data, readData, List.append_nil]
    unfold wp at hread ⊢
    cases hs : relayDataSourceReadCallback length s with
    | ok res s' =>
      rw [hs] at hread
      exact hread
    | error e s' => trivial

/-- **The records are the data of the calls**: what is written is given in the blocks, and what is copied
is what nghttp2 is answered. -/
theorem wp_run_bodyRecords (acts : List BodyAct) (hacts : ∀ a ∈ acts, a.asksInt = true) :
    wp (run bodyStep acts)
      (fun _ s => s.written = acts.flatMap BodyAct.data ∧
        s.copied = yields bodyStep readData acts .init)
      (fun _ _ => False) .init := by
  have hkept := run_bodyKept acts hacts
  have hmeets : Meets bodyStep (fun _ _ => True) acts BodyState.init := meets_true acts _
  have hwritten := run_yields_wp (f := fun _ => BodyAct.data)
    (fun s a _ => wp_mono (bodyStep_records s a) (fun _ _ h => h.1) fun _ _ => id) hmeets
  have hcopied := run_yields_wp (f := readData)
    (fun s a _ => wp_mono (bodyStep_records s a) (fun _ _ h => h.2) fun _ _ => id) hmeets
  refine wp_mono (wp_and hkept (wp_and hwritten hcopied)) (fun _ s h => ?_) fun _ _ h => h.1
  obtain ⟨-, hw, hc⟩ := h
  rw [yields_eq_flatMap (wp_mono hkept (fun _ _ _ => trivial) fun _ _ => id)] at hw
  exact ⟨hw, hc⟩

end H2ClientProxy
