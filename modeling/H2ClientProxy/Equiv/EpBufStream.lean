import H2ClientProxy.EpBuf
import H2ClientProxy.Equiv.Drops

/-!
# The byte stream of an `ep_buf`

What the socket has accepted, followed by what `list_write_buf` still holds, should be what was passed to
`ep_buf_write` (`BufIntact`), and `ep_buf_get_output_len` should be the length of what is held.

* `outputLen_eq_iff`: the `int` sum of the lengths is right iff fewer than `2^31` bytes are held;
* `bufStep_stream`: a step writes to the stream, or takes from it, or leaves it alone;
* `wp_run_bufIntact`: the stream stays intact in every run in which `ep_buf_write` gets an answer of
  `send()` that is no error, and a writable event an answer of `write()` that takes the first buffer as a
  whole or asks to be tried again (`keepsData`);
* `not_bufIntact`: short writes of a writable event break it;
* `wp_run_bufRecords`: `written` is what the calls of `ep_buf_write` of a run pass, and `accepted` what the
  answers of `send()` and `write()` take.
-/

namespace H2ClientProxy

open Wp Machine SendQueue Ep Wrap32

variable {b : EpBufImpl}

/-! ### The length -/

theorem length_unsent_cons (pos : Buf UInt8) (q : List (Buf UInt8)) :
    ((unsent (pos :: q)).length : ℤ) = (pos.data.length - pos.sent) + (unsent q).length := by
  have hle := pos.sent_le
  rw [unsent_cons, List.length_append, Buf.rest, List.length_drop]
  push_cast
  omega

/-- The loop adds the length of what is held, truncated. -/
theorem foldl_outputLen (q : List (Buf UInt8)) (acc : ℤ) :
    q.foldl (fun res pos => wrap32 (res + (pos.data.length - pos.sent))) (wrap32 acc) =
      wrap32 (acc + (unsent q).length) := by
  induction q generalizing acc with
  | nil => rw [List.foldl_nil, unsent_nil, List.length_nil, Nat.cast_zero, add_zero]
  | cons pos q ih =>
    rw [List.foldl_cons, wrap32_wrap32_add, ih, length_unsent_cons, add_assoc]

theorem outputLen_eq (q : List (Buf UInt8)) : outputLen q = wrap32 (unsent q).length := by
  have h := foldl_outputLen q 0
  rw [zero_add] at h
  exact h

/-- **The length is right iff it is an `int`.** -/
theorem outputLen_eq_iff (q : List (Buf UInt8)) :
    outputLen q = (unsent q).length ↔ (unsent q).length < 2 ^ 31 := by
  rw [outputLen_eq]
  exact wrap32_eq_self_iff _

/-! ### The stream -/

/-- What the socket accepted and what is held are what was written, in order, as long as the `ep_buf`
has not been freed. -/
def BufIntact (b : EpBufImpl) : Prop :=
  b.alive = true → b.accepted ++ unsent b.listWriteBuf = b.written

instance (b : EpBufImpl) : Decidable (BufIntact b) :=
  inferInstanceAs (Decidable (b.alive = true → b.accepted ++ unsent b.listWriteBuf = b.written))

/-! ### What a step does to the stream -/

/-- The stream is left as it is, or goes with the whole `ep_buf`. -/
structure BufKept (b b' : EpBufImpl) : Prop where
  written : b'.written = b.written
  accepted : b'.accepted = b.accepted
  queue : b'.alive = true → b.alive = true ∧ b'.listWriteBuf = b.listWriteBuf

theorem BufKept.refl (b : EpBufImpl) : BufKept b b := ⟨rfl, rfl, fun ha => ⟨ha, rfl⟩⟩

theorem BufKept.trans {b' b'' : EpBufImpl} (h : BufKept b b') (h' : BufKept b' b'') :
    BufKept b b'' where
  written := h'.written.trans h.written
  accepted := h'.accepted.trans h.accepted
  queue ha :=
    have hq := h'.queue ha
    ⟨(h.queue hq.1).1, hq.2.trans (h.queue hq.1).2⟩

theorem bufKept_free (b : EpBufImpl) : BufKept b (epBufFree b) := by
  unfold epBufFree
  split_ifs
  · exact ⟨rfl, rfl, fun ha => ⟨ha, rfl⟩⟩
  · exact ⟨rfl, rfl, fun ha => absurd ha Bool.false_ne_true⟩

theorem bufKept_proceed (b : EpBufImpl) (s : BufStage) (what : Mask) :
    BufKept b (proceed b s what) := by
  unfold proceed
  split_ifs
  · have h0 : BufKept b { b with isFreePending := false } := ⟨rfl, rfl, fun ha => ⟨ha, rfl⟩⟩
    have h1 := h0.trans (bufKept_free _)
    exact ⟨h1.written, h1.accepted, h1.queue⟩
  · exact ⟨rfl, rfl, fun ha => ⟨ha, rfl⟩⟩

/-- Behind the answer of `write()`, `ep_buf_file_writecb` leaves the stream alone. -/
theorem bufKept_writecb (b : EpBufImpl) (what : Mask) (res : SendResult) :
    BufKept (writeFirst b res).1 (epBufFileWritecb b what res) := by
  unfold epBufFileWritecb
  generalize writeFirst b res = out
  obtain ⟨b1, isError⟩ := out
  dsimp only
  have h2 : BufKept b1 (if b1.listWriteBuf.isEmpty then
      { b1.detectFile (epFileGetDetect b.file &&& ~~~EP_WRITE) (epFileGetTimeout b.file) with
        isIncb := false } else b1) := by
    split_ifs
    · exact ⟨rfl, rfl, fun ha => ⟨ha, rfl⟩⟩
    · exact .refl b1
  generalize (if b1.listWriteBuf.isEmpty then
      { b1.detectFile (epFileGetDetect b.file &&& ~~~EP_WRITE) (epFileGetTimeout b.file) with
        isIncb := false } else b1) = b2 at h2 ⊢
  split_ifs
  · exact h2.trans (bufKept_proceed _ _ _)
  · exact ⟨h2.written, h2.accepted, h2.queue⟩
  · exact ⟨h2.written, h2.accepted, h2.queue⟩

theorem bufKept_readcb (b : EpBufImpl) (what : Mask) : BufKept b (epBufFileReadcb b what) := by
  have h1 : BufKept b { b with isIncb := true } := ⟨rfl, rfl, fun ha => ⟨ha, rfl⟩⟩
  unfold epBufFileReadcb
  dsimp only
  split_ifs
  · exact ⟨rfl, rfl, fun ha => ⟨ha, rfl⟩⟩
  · exact h1.trans (bufKept_proceed _ _ _)

/-- Only the first stage of a writable event looks at the stream. -/
theorem bufKept_eventcb (b : EpBufImpl) {s : BufStage} {what : Mask} (res : SendResult)
    (hno : s = .write → wantsWrite what = false) : BufKept b (epBufFileEventcb b s what res) := by
  have hkept : ∀ b', b'.written = b.written → b'.accepted = b.accepted → b'.alive = b.alive →
      b'.listWriteBuf = b.listWriteBuf → BufKept b b' := by
    intro b' hw ha halive hq
    exact ⟨hw, ha, fun h => ⟨halive ▸ h, hq⟩⟩
  unfold epBufFileEventcb
  cases s with
  | write =>
    have hw : ¬what &&& EP_WRITE ≠ 0 := of_decide_eq_false (hno rfl)
    dsimp only
    rw [if_neg hw]
    exact hkept _ rfl rfl rfl rfl
  | writeCallback =>
    dsimp only
    split_ifs
    · exact hkept _ rfl rfl rfl rfl
    · exact hkept _ rfl rfl rfl rfl
  | read =>
    dsimp only
    split_ifs
    · exact bufKept_readcb b what
    · exact hkept _ rfl rfl rfl rfl
  | error =>
    dsimp only
    split_ifs
    · exact hkept _ rfl rfl rfl rfl
    · exact hkept _ rfl rfl rfl rfl
  | done => exact hkept _ rfl rfl rfl rfl

theorem bufKept_returns (b : EpBufImpl) (s : BufStage) (what : Mask) :
    BufKept b (callbackReturns b s what) := by
  have h1 : BufKept b { b with isIncb := false } := ⟨rfl, rfl, fun ha => ⟨ha, rfl⟩⟩
  cases s with
  | done => exact ⟨rfl, rfl, fun ha => ⟨ha, rfl⟩⟩
  | write => exact h1.trans (bufKept_proceed _ _ _)
  | writeCallback => exact h1.trans (bufKept_proceed _ _ _)
  | read => exact h1.trans (bufKept_proceed _ _ _)
  | error => exact h1.trans (bufKept_proceed _ _ _)

/-- What one step does to the stream: nothing, or `ep_buf_write`, or the `write()` of a writable event. -/
inductive BufStreamStep (b : EpBufImpl) : BufInput → EpBufImpl → Prop
  | kept {i : BufInput} {b' : EpBufImpl} (hk : BufKept b b')
      (hcall : ∀ data res, i = .call (.write data res) → b.userRuns = false)
      (hnext : ∀ res what, i = .next res → b.phase = .handling .write what →
        wantsWrite what = false) : BufStreamStep b i b'
  | write {data : Bytes} {res : SendResult} {b' : EpBufImpl} (hruns : b.userRuns = true)
      (hb : epBufWrite b data res = some b') : BufStreamStep b (.call (.write data res)) b'
  | writable {what : Mask} {res : SendResult} (hp : b.phase = .handling .write what)
      (hw : wantsWrite what = true) : BufStreamStep b (.next res) (epBufFileWritecb b what res)

theorem bufStep_stream (b : EpBufImpl) (i : BufInput) :
    wp (bufStep i) (fun _ => BufStreamStep b i) (fun _ _ => True) b := by
  have hsame : BufKept b b := .refl b
  cases i with
  | call c =>
    simp only [bufStep, wp_bind, wp_get, wp_ite, wp_pure, wp_throw]
    split_ifs with hruns halive
    · -- the call cannot come now
      rw [Bool.not_eq_true'] at hruns
      exact .kept hsame (fun _ _ _ => hruns) fun _ _ he => BufInput.noConfusion he
    · rw [Bool.not_eq_true', Bool.not_eq_false] at hruns
      cases hb : performCall b c with
      | none => exact True.intro
      | some b' =>
        show BufStreamStep b _ b'
        have hother : BufKept b b' → (∀ data res, c ≠ .write data res) →
            BufStreamStep b (.call c) b' := by
          intro hk hne
          refine .kept hk (fun data res he => ?_) fun _ _ he => BufInput.noConfusion he
          exact absurd (BufInput.call.inj he) (hne data res)
        cases c with
        | write data res => exact .write hruns hb
        | enable what =>
          obtain rfl := Option.some.inj hb
          exact hother ⟨rfl, rfl, fun ha => ⟨ha, rfl⟩⟩ fun _ _ he => BufCall.noConfusion he
        | disable what =>
          obtain rfl := Option.some.inj hb
          exact hother ⟨rfl, rfl, fun ha => ⟨ha, rfl⟩⟩ fun _ _ he => BufCall.noConfusion he
        | setTimeout ms =>
          obtain rfl := Option.some.inj hb
          exact hother ⟨rfl, rfl, fun ha => ⟨ha, rfl⟩⟩ fun _ _ he => BufCall.noConfusion he
        | free =>
          obtain rfl := Option.some.inj hb
          exact hother (bufKept_free b) fun _ _ he => BufCall.noConfusion he
  | event what =>
    have hkept : ∀ b', BufKept b b' → BufStreamStep b (.event what) b' := fun b' hk =>
      .kept hk (fun _ _ he => BufInput.noConfusion he) fun _ _ he => BufInput.noConfusion he
    simp only [bufStep, wp_bind, wp_get]
    cases b.phase with
    | idle =>
      simp only [wp_ite, wp_pure]
      split_ifs
      · exact hkept _ ⟨rfl, rfl, fun ha => ⟨ha, rfl⟩⟩
      · exact hkept _ hsame
    | handling s what' => exact hkept _ hsame
    | calling s what' => exact hkept _ hsame
  | next res =>
    simp only [bufStep, wp_bind, wp_get]
    cases hp : b.phase with
    | idle =>
      exact .kept hsame (fun _ _ he => BufInput.noConfusion he) fun _ _ _ hq =>
        BufPhase.noConfusion (hp.symm.trans hq)
    | handling s what =>
      show BufStreamStep b _ (epBufFileEventcb b s what res)
      by_cases hw : s = .write ∧ wantsWrite what = true
      · obtain ⟨rfl, hw⟩ := hw
        have hrun : epBufFileEventcb b .write what res = epBufFileWritecb b what res :=
          if_pos (of_decide_eq_true hw)
        rw [hrun]
        exact .writable hp hw
      · have hno : s = .write → wantsWrite what = false := fun hs =>
          Bool.eq_false_iff.mpr fun hw' => hw ⟨hs, hw'⟩
        refine .kept (bufKept_eventcb b res hno) (fun _ _ he => BufInput.noConfusion he) ?_
        intro _ what' _ hq
        obtain ⟨rfl, rfl⟩ := BufPhase.handling.inj (hp.symm.trans hq)
        exact hno rfl
    | calling s what =>
      exact .kept hsame (fun _ _ he => BufInput.noConfusion he) fun _ _ _ hq =>
        BufPhase.noConfusion (hp.symm.trans hq)
  | ret =>
    have hkept : ∀ b', BufKept b b' → BufStreamStep b .ret b' := fun b' hk =>
      .kept hk (fun _ _ he => BufInput.noConfusion he) fun _ _ he => BufInput.noConfusion he
    simp only [bufStep, wp_bind, wp_get]
    cases b.phase with
    | idle => exact hkept _ hsame
    | handling s what => exact hkept _ hsame
    | calling s what => exact hkept _ (bufKept_returns b s what)

/-- A step that leaves the stream alone keeps it intact. -/
theorem BufIntact.kept {b' : EpBufImpl} (h : BufIntact b) (hk : BufKept b b') : BufIntact b' := by
  intro ha
  obtain ⟨ha0, hq⟩ := hk.queue ha
  rw [hk.accepted, hq, hk.written]
  exact h ha0

/-! ### Writing -/

/-- `send()` answers with a number, or there is nothing to send. -/
def sendAnswers (data : Bytes) (res : SendResult) : Bool :=
  data.isEmpty ||
    match (send [res] data.length).1 with
    | .error _ => false
    | .ok _ => true

/-- `ep_buf_write` keeps the stream. -/
theorem BufIntact.write {b' : EpBufImpl} {data : Bytes} {res : SendResult} (h : BufIntact b)
    (hres : b.listWriteBuf = [] → sendAnswers data res = true)
    (hb : epBufWrite b data res = some b') : BufIntact b' := by
  have hqueue : ∀ (b1 : EpBufImpl) (rest : Bytes), b1.alive = b.alive →
      (b.alive = true → b1.accepted ++ unsent b1.listWriteBuf ++ rest = b1.written) →
      BufIntact (queueData b1 rest) := by
    intro b1 rest halive hstream ha
    show b1.accepted ++ unsent (b1.listWriteBuf ++ [Buf.fresh rest]) = b1.written
    rw [unsent_append_fresh, ← List.append_assoc]
    exact hstream (halive ▸ ha)
  unfold epBufWrite at hb
  dsimp only at hb
  split_ifs at hb with hq hempty
  · rw [List.isEmpty_iff] at hq
    have hstream : b.alive = true → b.accepted = b.written := by
      intro ha
      have h1 := h ha
      rw [hq, unsent_nil, List.append_nil] at h1
      exact h1
    have hans := hres hq
    unfold sendAnswers at hans
    cases hsend : send [res] data.length with
    | mk answer left =>
      rw [hsend] at hb hans
      cases answer with
      | error e =>
        -- an error is no matter when there is nothing to send
        rw [Bool.or_false, List.isEmpty_iff] at hans
        obtain rfl := Option.some.inj hb
        intro ha
        show b.accepted ++ unsent b.listWriteBuf = b.written ++ data
        rw [h ha, hans, List.append_nil]
      | ok writeLen =>
        dsimp only at hb
        split_ifs at hb with hlt
        · obtain rfl := Option.some.inj hb
          refine hqueue _ _ rfl fun ha => ?_
          show b.accepted ++ data.take writeLen ++ unsent b.listWriteBuf ++ data.drop writeLen =
            b.written ++ data
          rw [hq, unsent_nil, List.append_nil, List.append_assoc, List.take_append_drop, hstream ha]
        · obtain rfl := Option.some.inj hb
          intro ha
          show b.accepted ++ data.take writeLen ++ unsent b.listWriteBuf = b.written ++ data
          rw [hq, unsent_nil, List.append_nil, List.take_of_length_le (not_lt.mp hlt), hstream ha]
  · obtain rfl := Option.some.inj hb
    refine hqueue _ _ rfl fun ha => ?_
    show b.accepted ++ unsent b.listWriteBuf ++ data = b.written ++ data
    rw [h ha]

/-! ### Writable events -/

/-- The answer of `write()` takes the first buffer as a whole, or asks to be tried again. -/
def acceptsFirst (b : EpBufImpl) (res : SendResult) : Bool :=
  match b.listWriteBuf with
  | [] => true
  | pos :: _ =>
    match (send [res] pos.rest.length).1 with
    | .error e => retries e
    | .ok lenWrite => lenWrite = pos.rest.length

theorem BufIntact.writeFirst {res : SendResult} (h : BufIntact b)
    (hres : acceptsFirst b res = true) : BufIntact (H2ClientProxy.writeFirst b res).1 := by
  unfold acceptsFirst at hres
  unfold H2ClientProxy.writeFirst
  cases hq : b.listWriteBuf with
  | nil =>
    have hk : BufKept b
        (b.detectFile (epFileGetDetect b.file &&& ~~~EP_WRITE) (epFileGetTimeout b.file)) :=
      ⟨rfl, rfl, fun ha => ⟨ha, rfl⟩⟩
    exact h.kept hk
  | cons pos n =>
    rw [hq] at hres
    dsimp only at hres ⊢
    cases hsend : send [res] pos.rest.length with
    | mk answer left =>
      rw [hsend] at hres
      cases answer with
      | error e => exact h
      | ok lenWrite =>
        -- the buffer is freed, so it has to be accepted as a whole
        have hall : lenWrite = pos.rest.length := of_decide_eq_true hres
        intro ha
        have h1 := h ha
        rw [hq, unsent_cons, ← List.append_assoc] at h1
        show b.accepted ++ pos.rest.take lenWrite ++ unsent n = b.written
        rw [hall, List.take_length]
        exact h1

/-! ### Runs -/

/-- The condition for an intact stream: a `send()` of `ep_buf_write` does not fail, and the `write()` of a
writable event takes the first buffer as a whole or asks to be tried again. -/
def keepsData (b : EpBufImpl) : BufInput → Bool
  | .call (.write data res) => !b.userRuns || !b.listWriteBuf.isEmpty || sendAnswers data res
  | .next res =>
    match b.phase with
    | .handling .write what => !wantsWrite what || acceptsFirst b res
    | _ => true
  | _ => true

theorem bufStep_intact (i : BufInput) (h : BufIntact b) (hG : keepsData b i = true) :
    wp (bufStep i) (fun _ => BufIntact) (fun _ _ => True) b := by
  refine wp_mono (bufStep_stream b i) (fun _ b' hs => ?_) fun _ _ => id
  cases hs with
  | kept hk _ _ => exact h.kept hk
  | write hruns hb =>
    refine h.write (fun hq => ?_) hb
    rw [keepsData, hruns, hq] at hG
    exact hG
  | writable hp hw =>
    rw [keepsData, hp] at hG
    dsimp only at hG
    rw [hw] at hG
    exact (h.writeFirst hG).kept (bufKept_writecb b _ _)

/-- **The stream of an `ep_buf` stays intact** in every run that meets `keepsData`, and its length is
given right iff it is an `int`. -/
theorem wp_run_bufIntact (is : List BufInput)
    (hG : Meets bufStep (fun b i => keepsData b i = true) is .init) :
    wp (run bufStep is)
      (fun _ b => BufIntact b ∧ (epBufGetOutputLen b = (unsent b.listWriteBuf).length ↔
        (unsent b.listWriteBuf).length < 2 ^ 31))
      (fun _ _ => True) .init := by
  have hrun := run_wp (fun b i (h : BufIntact b) hG => bufStep_intact i h hG) is .init
    (fun _ => rfl) hG
  exact wp_mono hrun (fun _ b h => ⟨h, outputLen_eq_iff b.listWriteBuf⟩) fun _ _ => id

/-- Data that are accepted in two pieces, with an `EAGAIN` in between. -/
theorem wp_run_bufIntact_pieces :
    let is : List BufInput :=
      [.call (.write (bytes "ab") (.accepted 1)), .event EP_WRITE, .next (.error .EAGAIN),
        .next (.accepted 0), .next (.accepted 0), .next (.accepted 0), .event EP_WRITE,
        .next (.accepted 1)]
    Meets bufStep (fun b i => keepsData b i = true) is .init ∧
      wp (run bufStep is)
        (fun _ b => BufIntact b ∧ (epBufGetOutputLen b = (unsent b.listWriteBuf).length ↔
          (unsent b.listWriteBuf).length < 2 ^ 31))
        (fun _ _ => True) .init :=
  ⟨by decide +kernel, wp_run_bufIntact _ (by decide +kernel)⟩

/-- `send()` and `write()` answer with a number or with a temporary error. -/
def temporaryAnswer : BufInput → Bool
  | .call (.write _ res) | .next res => temporary res
  | _ => true

/-- Temporary errors and short writes alone do not keep the stream intact: the first byte of a buffer is
accepted, and the second one is freed with it. -/
theorem not_bufIntact : ¬ ∀ is : List BufInput, is.all temporaryAnswer = true →
    wp (run bufStep is)
      (fun _ b => BufIntact b ∧
        (b.alive = true → epBufGetOutputLen b = (unsent b.listWriteBuf).length))
      (fun _ _ => True) .init := by
  intro h
  have h1 := h [.call (.write (bytes "ab") (.accepted 0)), .event EP_WRITE, .next (.accepted 1)]
    (by decide +kernel)
  have h2 : ¬ wp (run bufStep
      [.call (.write (bytes "ab") (.accepted 0)), .event EP_WRITE, .next (.accepted 1)])
      (fun _ b => BufIntact b) (fun _ _ => True) .init := by
    decide +kernel
  exact h2 (wp_mono h1 (fun _ _ hb => hb.1) fun _ _ => id)

/-! ### The records -/

/-- What an answer of `write()` takes of the first buffer. -/
def takenFirst (q : List (Buf UInt8)) (res : SendResult) : Bytes :=
  match q with
  | [] => []
  | pos :: _ => taken [res] pos.rest

/-- The data that a step passes to `ep_buf_write`. -/
def writesData (b : EpBufImpl) : BufInput → Bytes
  | .call (.write data _) => if b.userRuns then data else []
  | _ => []

/-- The data that the socket takes in a step: of what is written if nothing is held, and of the first
buffer in a writable event. -/
def takesData (b : EpBufImpl) : BufInput → Bytes
  | .call (.write data res) =>
    if b.userRuns && b.listWriteBuf.isEmpty then taken [res] data else []
  | .next res =>
    match b.phase with
    | .handling .write what => if wantsWrite what then takenFirst b.listWriteBuf res else []
    | _ => []
  | _ => []

/-- Between `b` and `b'`, `wrote` has been written and `took` has been accepted. -/
structure Recorded (b b' : EpBufImpl) (wrote took : Bytes) : Prop where
  written : b'.written = b.written ++ wrote
  accepted : b'.accepted = b.accepted ++ took

/-- What leaves the stream alone records nothing. -/
theorem Recorded.kept {b' : EpBufImpl} (hk : BufKept b b') : Recorded b b' [] [] :=
  ⟨by rw [hk.written, List.append_nil], by rw [hk.accepted, List.append_nil]⟩

/-- What follows records nothing more. -/
theorem Recorded.trans_kept {b' b'' : EpBufImpl} {wrote took : Bytes} (h : Recorded b b' wrote took)
    (hk : BufKept b' b'') : Recorded b b'' wrote took :=
  ⟨hk.written.trans h.written, hk.accepted.trans h.accepted⟩

theorem Recorded.write {b' : EpBufImpl} {data : Bytes} {res : SendResult}
    (hb : epBufWrite b data res = some b') :
    Recorded b b' data (if b.listWriteBuf.isEmpty then taken [res] data else []) := by
  unfold epBufWrite at hb
  unfold taken
  dsimp only at hb
  split_ifs at hb ⊢ with hq hempty
  · generalize (send [res] data.length).1 = answer at hb ⊢
    cases answer with
    | error e =>
      obtain rfl := Option.some.inj hb
      exact ⟨rfl, (List.append_nil _).symm⟩
    | ok writeLen =>
      dsimp only at hb
      split_ifs at hb
      · obtain rfl := Option.some.inj hb
        exact ⟨rfl, rfl⟩
      · obtain rfl := Option.some.inj hb
        exact ⟨rfl, rfl⟩
  · obtain rfl := Option.some.inj hb
    exact ⟨rfl, (List.append_nil _).symm⟩

theorem Recorded.writeFirst (b : EpBufImpl) (res : SendResult) :
    Recorded b (H2ClientProxy.writeFirst b res).1 [] (takenFirst b.listWriteBuf res) := by
  unfold H2ClientProxy.writeFirst takenFirst
  cases b.listWriteBuf with
  | nil => exact ⟨(List.append_nil _).symm, (List.append_nil _).symm⟩
  | cons pos n =>
    dsimp only [taken]
    cases (send [res] pos.rest.length).1 with
    | error e => exact ⟨(List.append_nil _).symm, (List.append_nil _).symm⟩
    | ok lenWrite => exact ⟨(List.append_nil _).symm, rfl⟩

/-- A step records what it writes and what the socket takes. -/
theorem bufStep_recorded (b : EpBufImpl) (i : BufInput) :
    wp (bufStep i) (fun _ b' => Recorded b b' (writesData b i) (takesData b i))
      (fun _ _ => True) b := by
  refine wp_mono (bufStep_stream b i) (fun _ b' hs => ?_) fun _ _ => id
  cases hs with
  | kept hk hcall hnext =>
    have hrec := Recorded.kept hk
    cases i with
    | call c =>
      cases c with
      | write data res => simpa [writesData, takesData, hcall data res rfl] using hrec
      | _ => exact hrec
    | next res =>
      cases hp : b.phase with
      | handling s what =>
        cases s with
        | write => simpa [writesData, takesData, hp, hnext res what rfl hp] using hrec
        | _ => simpa [writesData, takesData, hp] using hrec
      | _ => simpa [writesData, takesData, hp] using hrec
    | _ => exact hrec
  | write hruns hb => simpa [writesData, takesData, hruns] using Recorded.write hb
  | writable hp hw =>
    simpa [writesData, takesData, hp, hw] using
      (Recorded.writeFirst b _).trans_kept (bufKept_writecb b _ _)

/-- **The records are the data of the calls**: what is written is passed to `ep_buf_write`, and what is
accepted is taken by `send()` and `write()`. -/
theorem wp_run_bufRecords (is : List BufInput) :
    wp (run bufStep is)
      (fun _ b => b.written = yields bufStep writesData is .init ∧
        b.accepted = yields bufStep takesData is .init)
      (fun _ _ => True) .init := by
  have hmeets : Meets bufStep (fun _ _ => True) is EpBufImpl.init := meets_true is _
  have hwritten := run_yields_wp (f := writesData)
    (fun b i _ => wp_mono (bufStep_recorded b i) (fun _ _ h => h.written) fun _ _ => id) hmeets
  have haccepted := run_yields_wp (f := takesData)
    (fun b i _ => wp_mono (bufStep_recorded b i) (fun _ _ h => h.accepted) fun _ _ => id) hmeets
  exact wp_mono (wp_and hwritten haccepted) (fun _ _ h => h) fun _ _ _ => trivial

end H2ClientProxy
