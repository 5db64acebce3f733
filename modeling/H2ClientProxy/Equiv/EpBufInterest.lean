import H2ClientProxy.EpBuf
import H2ClientProxy.Equiv.ReadInterest

/-!
# What an `ep_buf` is registered for

An `ep_buf` keeps its interest in two places: `detect` says what its user wants to be told of, and the
mask of its file what it is registered for.

* Whatever is queued should wait for a writable event.
* `ep_buf_disable(EP_BUF_READ)` should leave `EP_WRITE` alone, and after it the user should not be called
  for `EP_BUF_READ` until `ep_buf_enable(EP_BUF_READ)` (`JournalOk`).

`ep_buf_disable` clears the whole mask, as `!EP_READ` is `0`, and sets `detect` to what is to be disabled;
and a file that has lost its slot is registered for everything when its mask is next read and written
back.  `wp_run_interestOk`: all of this holds in every run in which these do no harm (`keepsInterest`).
-/

namespace H2ClientProxy

open Wp Machine SendQueue Ep

variable {b : EpBufImpl}

/-! ### What is asked of a run -/

/-- `what` names `EP_BUF_READ`. -/
def namesRead (what : Mask) : Bool := what &&& EP_BUF_READ ≠ 0

/-- `what` names `EP_BUF_WRITE`. -/
def namesWrite (what : Mask) : Bool := what &&& EP_BUF_WRITE ≠ 0

/-- Whether reading is paused after a note. -/
def pauses (paused : Bool) : BufNote → Bool
  | .enabled what => paused && !namesRead what
  | .disabled what _ _ => paused || namesRead what
  | .called _ => paused

/-- Reading is paused: of the calls that name `EP_BUF_READ` the last one was `ep_buf_disable`. -/
def pausedBy (l : List BufNote) : Bool := l.foldl pauses false

theorem pausedBy_append (l : List BufNote) (n : BufNote) :
    pausedBy (l ++ [n]) = pauses (pausedBy l) n := by
  unfold pausedBy
  rw [List.foldl_append]
  rfl

/-- What is claimed of the notes of a run: disabling `EP_BUF_READ` alone keeps the interest in `EP_WRITE`,
and the user is not called for `EP_BUF_READ` while reading is paused. -/
structure JournalOk (l : List BufNote) : Prop where
  disabled : ∀ what before after, .disabled what before after ∈ l → namesRead what = true →
    namesWrite what = false → wantsWrite after = wantsWrite before
  called : ∀ l1 l2, l = l1 ++ .called EP_BUF_READ :: l2 → pausedBy l1 = false

theorem JournalOk.nil : JournalOk [] where
  disabled := fun _ _ _ h => absurd h List.not_mem_nil
  called := fun _ _ h => absurd h.symm (List.append_ne_nil_of_right_ne_nil _ (List.cons_ne_nil _ _))

/-- One more note. -/
theorem JournalOk.append {l : List BufNote} (h : JournalOk l) {n : BufNote}
    (hdisabled : ∀ what before after, n = .disabled what before after → namesRead what = true →
      namesWrite what = false → wantsWrite after = wantsWrite before)
    (hcalled : n = .called EP_BUF_READ → pausedBy l = false) : JournalOk (l ++ [n]) where
  disabled := by
    intro what before after hmem
    rcases List.mem_append.mp hmem with hmem | hmem
    · exact h.disabled what before after hmem
    · exact hdisabled what before after (List.mem_singleton.mp hmem).symm
  called := by
    intro l1 l2 heq
    rcases List.eq_nil_or_concat l2 with rfl | ⟨l3, m, rfl⟩
    · -- the new note is this call
      obtain ⟨rfl, hn⟩ := List.append_inj' heq rfl
      exact hcalled (List.cons.inj hn).1
    · rw [List.concat_eq_append, ← List.cons_append, ← List.append_assoc] at heq
      exact h.called l1 l3 (List.append_inj' heq rfl).1

/-! ### Masks -/

theorem wantsRead_and_not_write (m : Mask) : wantsRead (m &&& ~~~EP_WRITE) = wantsRead m := by
  have hbits : (m &&& ~~~EP_WRITE) &&& EP_READ = m &&& EP_READ := by
    rw [BitVec.and_assoc, show ~~~EP_WRITE &&& EP_READ = EP_READ by decide]
  unfold wantsRead
  rw [hbits]

theorem wantsWrite_or_read (m : Mask) : wantsWrite (m ||| EP_READ) = wantsWrite m := by
  have hbits : (m ||| EP_READ) &&& EP_WRITE = m &&& EP_WRITE := by
    ext i
    rw [BitVec.getElem_and, BitVec.getElem_and, BitVec.getElem_or]
    have hdisj : (EP_READ[i] && EP_WRITE[i]) = false := by
      revert i
      decide
    revert hdisj
    cases m[i] <;> cases EP_WRITE[i] <;> cases EP_READ[i] <;> decide
  unfold wantsWrite
  rw [hbits]

/-- `ep_buf_enable` only adds to the mask. -/
theorem wantsWrite_enableMask {m : Mask} (hm : wantsWrite m = true) (what : Mask) :
    wantsWrite (enableMask m what) = true := by
  unfold enableMask
  split_ifs
  · rw [wantsWrite_or_read]
    exact hm
  · exact wantsWrite_or m
  · exact hm

theorem ne_zero_of_wantsWrite {m : Mask} (hm : wantsWrite m = true) : m ≠ 0 := by
  rintro rfl
  exact absurd hm (by decide)

/-- A file that is interested in something has its slot. -/
def HasSlot (ev : EpFile) : Prop := ev.mask ≠ 0 → ev.file = true

theorem HasSlot.detect {ev : EpFile} (h : HasSlot ev) (what : Mask) (timeout : ℤ) :
    HasSlot (epFileDetect ev what timeout) := by
  unfold HasSlot at h ⊢
  unfold epFileDetect
  split_ifs with h1 h2 h3
  · exact h
  · exact fun _ => rfl
  · exact fun h0 => absurd rfl h0
  · exact fun _ => h h2

theorem HasSlot.getDetect {ev : EpFile} (h : HasSlot ev) (hm : ev.mask ≠ 0) :
    epFileGetDetect ev = ev.mask := by
  unfold epFileGetDetect
  rw [if_pos (h hm)]

/-! ### The invariant -/

/-- `ep_buf_file_readcb` is still to be called for the event that is handled. -/
def readDue : BufPhase → Bool
  | .idle => false
  | .handling s what | .calling s what =>
    wantsRead what && (s = .write || s = .writeCallback || s = .read)

/-- What holds between two steps. -/
structure Watched (b : EpBufImpl) : Prop where
  queue : b.listWriteBuf ≠ [] → wantsWrite b.file.mask = true
  slot : HasSlot b.file
  handling : ∀ what, b.phase = .handling .write what → b.file.mask ≠ 0
  calling : ∀ what, b.phase ≠ .calling .write what
  silent : pausedBy b.journal = true → namesRead b.detect = true →
    wantsRead b.file.mask = false ∧ readDue b.phase = false
  journal : JournalOk b.journal

theorem watched_init : Watched .init where
  queue := fun h => absurd rfl h
  slot := fun h => absurd rfl h
  handling := fun _ h => BufPhase.noConfusion h
  calling := fun _ h => BufPhase.noConfusion h
  silent := fun h => absurd h Bool.false_ne_true
  journal := .nil

/-- The handler goes on, or is begun with less still to be read. -/
theorem Watched.of_eq {b' : EpBufImpl} (h : Watched b) (hq : b'.listWriteBuf = b.listWriteBuf)
    (hfile : b'.file = b.file) (hdetect : b'.detect = b.detect) (hjournal : b'.journal = b.journal)
    (hhandling : ∀ what, b'.phase = .handling .write what → b.file.mask ≠ 0)
    (hcalling : ∀ what, b'.phase ≠ .calling .write what)
    (hdue : readDue b'.phase = true → readDue b.phase = true) : Watched b' where
  queue := by
    rw [hq, hfile]
    exact h.queue
  slot := by
    rw [hfile]
    exact h.slot
  handling := by
    rw [hfile]
    exact hhandling
  calling := hcalling
  silent := by
    intro hp hn
    rw [hjournal] at hp
    rw [hdetect] at hn
    obtain ⟨h1, h2⟩ := h.silent hp hn
    rw [hfile]
    refine ⟨h1, Bool.eq_false_of_not_eq_true fun hd => ?_⟩
    have hd' := hdue hd
    rw [h2] at hd'
    exact Bool.false_ne_true hd'
  journal := by
    rw [hjournal]
    exact h.journal

/-! ### The functions for the user -/

/-- Some of the data of `ep_buf_write` are queued. -/
def queuesData (b : EpBufImpl) (data : Bytes) (res : SendResult) : Bool :=
  !b.listWriteBuf.isEmpty ||
    match (send [res] data.length).1 with
    | .ok writeLen => writeLen < data.length
    | .error _ => false

/-- Reading is paused, `detect` names `EP_BUF_READ`, and the mask of the file reads as one with
`EP_READ`: to write it back is to be told of what can be read. -/
def wouldRead (b : EpBufImpl) : Bool :=
  pausedBy b.journal && namesRead b.detect && wantsRead (epFileGetDetect b.file)

/-- User code does not run while the handler is between two stages. -/
theorem userRuns_handling (hruns : b.userRuns = true) (s : BufStage) (what : Mask) :
    b.phase ≠ .handling s what := by
  intro hp
  unfold EpBufImpl.userRuns at hruns
  rw [hp] at hruns
  exact Bool.false_ne_true hruns

/-- Registering the file anew while user code runs: the new mask watches what is queued, and has no
`EP_READ` while reading is paused and `detect` names `EP_BUF_READ`. -/
theorem Watched.register (h : Watched b) (hruns : b.userRuns = true) {b' : EpBufImpl} {what : Mask}
    {timeout : ℤ} (hfile : b'.file = epFileDetect b.file what timeout) (hphase : b'.phase = b.phase)
    (hqueue : b'.listWriteBuf ≠ [] → wantsWrite what = true)
    (hsilent : pausedBy b'.journal = true → namesRead b'.detect = true →
      wantsRead what = false ∧ readDue b.phase = false)
    (hjournal : JournalOk b'.journal) : Watched b' where
  queue := by
    rw [hfile, epFileDetect_mask]
    exact hqueue
  slot := by
    rw [hfile]
    exact h.slot.detect what timeout
  handling := by
    intro what' hp
    rw [hphase] at hp
    exact absurd hp (userRuns_handling hruns _ _)
  calling := by
    rw [hphase]
    exact h.calling
  silent := by
    rw [hfile, epFileDetect_mask, hphase]
    exact hsilent
  journal := hjournal

/-- What is queued is seen by a reader of the mask. -/
theorem Watched.getDetect (h : Watched b) (hq : b.listWriteBuf ≠ []) :
    wantsWrite (epFileGetDetect b.file) = true := by
  have hw := h.queue hq
  rw [h.slot.getDetect (ne_zero_of_wantsWrite hw)]
  exact hw

/-- Without `wouldRead` the mask reads as one without `EP_READ`. -/
theorem Watched.silent_getDetect (h : Watched b) (hno : wouldRead b = false)
    (hp : pausedBy b.journal = true) (hn : namesRead b.detect = true) :
    wantsRead (epFileGetDetect b.file) = false ∧ readDue b.phase = false := by
  unfold wouldRead at hno
  rw [hp, hn, Bool.true_and, Bool.true_and] at hno
  exact ⟨hno, (h.silent hp hn).2⟩

theorem Watched.queueData (h : Watched b) (hruns : b.userRuns = true) (hno : wouldRead b = false)
    {b1 : EpBufImpl} (hfile : b1.file = b.file) (hphase : b1.phase = b.phase)
    (hdetect : b1.detect = b.detect) (hjournal : b1.journal = b.journal) (data : Bytes) :
    Watched (H2ClientProxy.queueData b1 data) := by
  have hfile' : (H2ClientProxy.queueData b1 data).file =
      epFileDetect b.file (writeMask b) (epFileGetTimeout b.file) := by
    show epFileDetect b1.file (epFileGetDetect b1.file ||| EP_WRITE) (epFileGetTimeout b1.file) = _
    rw [hfile]
    rfl
  refine h.register hruns hfile' hphase (fun _ => wantsWrite_or _) ?_ ?_
  · intro hp hn
    have hp' : pausedBy b.journal = true := hjournal ▸ hp
    have hn' : namesRead b.detect = true := hdetect ▸ hn
    unfold writeMask
    rw [wantsRead_or_write]
    exact h.silent_getDetect hno hp' hn'
  · show JournalOk b1.journal
    rw [hjournal]
    exact h.journal

/-- `ep_buf_write`. -/
theorem Watched.write (h : Watched b) (hruns : b.userRuns = true) {b' : EpBufImpl} {data : Bytes}
    {res : SendResult} (hno : queuesData b data res = true → wouldRead b = false)
    (hb : epBufWrite b data res = some b') : Watched b' := by
  have hhandling : ∀ what, b.phase = .handling .write what → b.file.mask ≠ 0 :=
    fun what hp => absurd hp (userRuns_handling hruns _ _)
  unfold epBufWrite at hb
  unfold queuesData at hno
  dsimp only at hb
  split_ifs at hb with hq hempty
  · rw [hq, Bool.not_true, Bool.false_or] at hno
    cases hsend : send [res] data.length with
    | mk answer left =>
      rw [hsend] at hb hno
      cases answer with
      | error e =>
        obtain rfl := Option.some.inj hb
        exact h.of_eq rfl rfl rfl rfl hhandling h.calling id
      | ok writeLen =>
        dsimp only at hb hno
        split_ifs at hb with hlt
        · obtain rfl := Option.some.inj hb
          refine h.queueData hruns (hno (decide_eq_true hlt)) ?_ ?_ ?_ ?_ _ <;> rfl
        · obtain rfl := Option.some.inj hb
          exact h.of_eq rfl rfl rfl rfl hhandling h.calling id
  · obtain rfl := Option.some.inj hb
    rw [Bool.not_eq_true] at hq
    rw [hq, Bool.not_false, Bool.true_or] at hno
    refine h.queueData hruns (hno rfl) ?_ ?_ ?_ ?_ _ <;> rfl

/-- `ep_buf_enable`. -/
theorem Watched.enable (h : Watched b) (hruns : b.userRuns = true) (what : Mask) :
    Watched (epBufEnable b what) := by
  refine h.register hruns rfl rfl (fun hq => wantsWrite_enableMask (h.getDetect hq) what) ?_ ?_
  · intro hp hn
    have hn' : namesRead what = true := hn
    have hp' : pausedBy (b.journal ++ [BufNote.enabled what]) = true := hp
    rw [pausedBy_append] at hp'
    have hno : (pausedBy b.journal && !namesRead what) = true := hp'
    rw [hn', Bool.not_true, Bool.and_false] at hno
    exact absurd hno Bool.false_ne_true
  · exact h.journal.append (fun _ _ _ heq => BufNote.noConfusion heq)
      fun heq => BufNote.noConfusion heq

/-- `ep_buf_disable`, when nothing is queued and no read is due. -/
theorem Watched.disable (h : Watched b) (hruns : b.userRuns = true) {what : Mask}
    (hqueue : namesRead what || namesWrite what → b.listWriteBuf = [])
    (hwrite : namesRead what = true → namesWrite what = false → wantsWrite b.file.mask = false)
    (hdue : namesRead what = true → readDue b.phase = false) : Watched (epBufDisable b what) := by
  have hmask : namesRead what = true → disableMask (epFileGetDetect b.file) what = 0 := by
    intro hn
    unfold disableMask
    rw [if_pos (of_decide_eq_true hn)]
    exact BitVec.and_zero
  refine h.register hruns rfl rfl (fun hq => ?_) ?_ ?_
  · by_cases hnamed : (namesRead what || namesWrite what) = true
    · exact absurd (hqueue hnamed) hq
    · rw [Bool.not_eq_true, Bool.or_eq_false_iff] at hnamed
      unfold disableMask
      rw [if_neg (of_decide_eq_false hnamed.1), if_neg (of_decide_eq_false hnamed.2)]
      exact h.getDetect hq
  · intro _ hn
    have hn' : namesRead what = true := hn
    rw [hmask hn']
    exact ⟨by decide, hdue hn'⟩
  · refine h.journal.append (fun what' before after heq hn hw => ?_) fun heq =>
      BufNote.noConfusion heq
    obtain ⟨rfl, rfl, rfl⟩ := BufNote.disabled.inj heq
    show wantsWrite (epFileDetect b.file _ _).mask = _
    rw [epFileDetect_mask, hmask hn, hwrite hn hw]
    decide

/-- `ep_buf_set_timeout`. -/
theorem Watched.setTimeout (h : Watched b) (hruns : b.userRuns = true) (hno : wouldRead b = false)
    (ms : ℤ) : Watched (epBufSetTimeout b ms) :=
  h.register hruns rfl rfl h.getDetect (h.silent_getDetect hno) h.journal

/-! ### The event callback -/

/-- The file loses its interest while nothing is queued. -/
theorem Watched.deregister (h : Watched b) {b' : EpBufImpl} {timeout : ℤ}
    (hfile : b'.file = epFileDetect b.file 0 timeout) (hq : b'.listWriteBuf = [])
    (hjournal : b'.journal = b.journal) (hhandling : ∀ what, b'.phase ≠ .handling .write what)
    (hcalling : ∀ what, b'.phase ≠ .calling .write what)
    (hdue : pausedBy b.journal = true → namesRead b'.detect = true → readDue b'.phase = false) :
    Watched b' where
  queue := fun hne => absurd hq hne
  slot := by
    rw [hfile]
    exact h.slot.detect 0 timeout
  handling := fun what hp => absurd hp (hhandling what)
  calling := hcalling
  silent := by
    intro hp hn
    rw [hfile, epFileDetect_mask]
    exact ⟨by decide, hdue (hjournal ▸ hp) hn⟩
  journal := by
    rw [hjournal]
    exact h.journal

/-- The user calls `ep_buf_free`. -/
theorem Watched.free (h : Watched b) (hruns : b.userRuns = true) : Watched (epBufFree b) := by
  unfold epBufFree
  split_ifs
  · exact h.of_eq rfl rfl rfl rfl h.handling h.calling id
  · exact h.deregister rfl rfl rfl (userRuns_handling hruns _) h.calling
      fun hp hn => (h.silent hp hn).2

theorem Watched.proceed (h : Watched b) {s : BufStage} {what : Mask} (hs : s ≠ .write)
    (hdue : readDue (.handling s what) = true → readDue b.phase = true) :
    Watched (H2ClientProxy.proceed b s what) := by
  unfold H2ClientProxy.proceed epBufFree
  split_ifs
  · exact h.of_eq rfl rfl rfl rfl (fun _ hp => BufPhase.noConfusion hp)
      (fun _ hp => BufPhase.noConfusion hp) fun hd => absurd hd Bool.false_ne_true
  · exact h.deregister rfl rfl rfl (fun _ hp => BufPhase.noConfusion hp)
      (fun _ hp => BufPhase.noConfusion hp) fun _ _ => rfl
  · exact h.of_eq rfl rfl rfl rfl (fun _ hp => absurd (BufPhase.handling.inj hp).1 hs)
      (fun _ hp => BufPhase.noConfusion hp) hdue

/-- The user is called back, for `EP_BUF_READ` only while reading is not paused. -/
theorem Watched.callBack (h : Watched b) {call : Mask} {s : BufStage} {what : Mask}
    (hcall : call = EP_BUF_READ → pausedBy b.journal = false) (hs : s ≠ .write)
    (hdue : readDue (.calling s what) = true → readDue b.phase = true) :
    Watched (H2ClientProxy.callBack b call s what) := by
  have h0 : Watched { b with phase := .calling s what } :=
    h.of_eq rfl rfl rfl rfl (fun _ hp => BufPhase.noConfusion hp)
      (fun _ hp => absurd (BufPhase.calling.inj hp).1 hs) hdue
  refine ⟨h0.queue, h0.slot, h0.handling, h0.calling, ?_, ?_⟩
  · intro hp
    have hp' : pausedBy (b.journal ++ [BufNote.called call]) = true := hp
    rw [pausedBy_append] at hp'
    exact h0.silent hp'
  · exact h.journal.append (fun _ _ _ heq => BufNote.noConfusion heq)
      fun heq => hcall (BufNote.called.inj heq)

/-- The answer of `write()` for the first buffer is an error after which there is no other try. -/
def failsForGood (b : EpBufImpl) (res : SendResult) : Bool :=
  match b.listWriteBuf with
  | [] => false
  | pos :: _ =>
    match (send [res] pos.rest.length).1 with
    | .error e => !retries e
    | .ok _ => false

/-- What `write()` and the end of the loop leave. -/
structure WroteFirst (b : EpBufImpl) (res : SendResult) (out : EpBufImpl × Bool) : Prop where
  error : out.2 = failsForGood b res
  detect : out.1.detect = b.detect
  journal : out.1.journal = b.journal
  queued : out.1.listWriteBuf ≠ [] → b.listWriteBuf ≠ [] ∧ out.1.file = b.file
  slot : HasSlot out.1.file

theorem Watched.writeFirst (h : Watched b) (res : SendResult) :
    WroteFirst b res (H2ClientProxy.writeFirst b res) := by
  unfold H2ClientProxy.writeFirst
  cases hq : b.listWriteBuf with
  | nil =>
    have herror : false = failsForGood b res := by
      unfold failsForGood
      rw [hq]
    exact ⟨herror, rfl, rfl, fun hne => absurd hq hne, h.slot.detect _ _⟩
  | cons pos n =>
    have hne : b.listWriteBuf ≠ [] := by
      rw [hq]
      exact List.cons_ne_nil pos n
    dsimp only
    have herror : failsForGood b res = match (send [res] pos.rest.length).1 with
        | .error e => !retries e
        | .ok _ => false := by
      unfold failsForGood
      rw [hq]
    cases hsend : (send [res] pos.rest.length).1 with
    | error e =>
      rw [hsend] at herror
      exact ⟨herror.symm, rfl, rfl, fun _ => ⟨hne, rfl⟩, h.slot⟩
    | ok lenWrite =>
      rw [hsend] at herror
      exact ⟨herror.symm, rfl, rfl, fun _ => ⟨hne, rfl⟩, h.slot⟩

/-- What the handler goes on from does not depend on where it was. -/
theorem proceed_phase (b : EpBufImpl) (p : BufPhase) (s : BufStage) (what : Mask) :
    proceed { b with phase := p } s what = proceed b s what := by
  unfold proceed epBufFree
  dsimp only
  split_ifs <;> rfl

/-- `ep_buf_file_writecb`, when `write()` does not fail for good. -/
theorem Watched.writecb (h : Watched b) {what : Mask} {res : SendResult}
    (hphase : b.phase = .handling .write what) (hres : failsForGood b res = false) :
    Watched (epBufFileWritecb b what res) := by
  have hm := h.handling what hphase
  have hget := h.slot.getDetect hm
  have hw := h.writeFirst res
  unfold epBufFileWritecb
  generalize H2ClientProxy.writeFirst b res = out at hw
  obtain ⟨b1, isError⟩ := out
  obtain ⟨herror, hdetect, hjournal, hqueued, hslot⟩ := hw
  dsimp only at herror hdetect hjournal hqueued hslot ⊢
  rw [hres] at herror
  subst herror
  have hsilent : pausedBy b.journal = true → namesRead b.detect = true →
      wantsRead (b.file.mask &&& ~~~EP_WRITE) = false ∧
        readDue (.handling .writeCallback what) = false := by
    intro hp hn
    obtain ⟨h1, h2⟩ := h.silent hp hn
    rw [hphase] at h2
    rw [wantsRead_and_not_write]
    exact ⟨h1, h2⟩
  by_cases hq : b1.listWriteBuf.isEmpty = true
  · -- nothing is queued any more, and the interest in `EP_WRITE` goes
    simp only [if_pos hq]
    have h3 : Watched { b1.detectFile (epFileGetDetect b.file &&& ~~~EP_WRITE)
        (epFileGetTimeout b.file) with isIncb := false, phase := .handling .writeCallback what } := by
      refine ⟨fun hne => absurd (List.isEmpty_iff.mp hq) hne, hslot.detect _ _,
        fun _ hp => absurd (BufPhase.handling.inj hp).1 (by decide),
        fun _ hp => BufPhase.noConfusion hp, ?_, ?_⟩
      · show pausedBy b1.journal = true → namesRead b1.detect = true →
          wantsRead (epFileDetect b1.file _ _).mask = false ∧ _
        rw [epFileDetect_mask, hget, hjournal, hdetect]
        exact hsilent
      · show JournalOk b1.journal
        rw [hjournal]
        exact h.journal
    have hproceed : Watched (H2ClientProxy.proceed _ .writeCallback what) :=
      h3.proceed (by decide) id
    split_ifs with hpending herr
    · rw [← proceed_phase _ (.handling .writeCallback what)]
      exact hproceed
    · exact herr.elim
    · exact h3
  · have hne : b1.listWriteBuf ≠ [] := fun h0 => hq (List.isEmpty_iff.mpr h0)
    obtain ⟨hne0, hfile⟩ := hqueued hne
    simp only [if_neg hq]
    rw [if_neg (by rw [Bool.eq_false_of_not_eq_true hq]; exact Bool.false_ne_true),
      if_neg Bool.false_ne_true]
    refine ⟨fun _ => ?_, hslot, fun _ hp => absurd (BufPhase.handling.inj hp).1 (by decide),
      fun _ hp => BufPhase.noConfusion hp, ?_, ?_⟩
    · show wantsWrite b1.file.mask = true
      rw [hfile]
      exact h.queue hne0
    · show pausedBy b1.journal = true → namesRead b1.detect = true →
        wantsRead b1.file.mask = false ∧ _
      rw [hfile, hjournal, hdetect, ← wantsRead_and_not_write]
      exact hsilent
    · show JournalOk b1.journal
      rw [hjournal]
      exact h.journal

/-- A stage of `ep_buf_file_eventcb`, when `write()` does not fail for good and no error is reported
while something is queued. -/
theorem Watched.eventcb (h : Watched b) {s : BufStage} {what : Mask} {res : SendResult}
    (hphase : b.phase = .handling s what)
    (hres : s = .write → wantsWrite what = true → failsForGood b res = false)
    (herror : s = .error → what &&& EP_ERROR ≠ 0 → b.listWriteBuf = []) :
    Watched (epBufFileEventcb b s what res) := by
  have hnext : ∀ s' : BufStage, s' ≠ .write →
      (readDue (.handling s' what) = true → readDue (.handling s what) = true) →
      Watched { b with phase := .handling s' what } := by
    intro s' hs' hdue
    rw [← hphase] at hdue
    exact h.of_eq rfl rfl rfl rfl (fun _ hp => absurd (BufPhase.handling.inj hp).1 hs')
      (fun _ hp => BufPhase.noConfusion hp) hdue
  have hidle : Watched { b with phase := .idle } :=
    h.of_eq rfl rfl rfl rfl (fun _ hp => BufPhase.noConfusion hp)
      (fun _ hp => BufPhase.noConfusion hp) fun hd => absurd hd Bool.false_ne_true
  have hincb : Watched { b with isIncb := true } :=
    h.of_eq rfl rfl rfl rfl h.handling h.calling id
  unfold epBufFileEventcb
  cases s with
  | write =>
    dsimp only
    split_ifs with hw
    · exact h.writecb hphase (hres rfl (decide_eq_true hw))
    · exact hnext .read (by decide) id
  | writeCallback =>
    dsimp only
    split_ifs
    · exact hincb.callBack (fun hcall => absurd hcall (by decide)) (by decide) (hphase ▸ id)
    · exact hnext .read (by decide) id
  | read =>
    dsimp only
    unfold epBufFileReadcb
    dsimp only
    have hdone : readDue (.handling .error what) = false := Bool.and_false _
    have hdue : readDue (.handling .error what) = true → readDue b.phase = true := by
      rw [hdone]
      exact fun hd => absurd hd Bool.false_ne_true
    split_ifs with hread hdetect
    · refine hincb.callBack (fun _ => ?_) (by decide) hdue
      -- reading is not paused, or this stage would not be due
      by_contra hp
      have hno := (h.silent (Bool.eq_true_of_not_eq_false hp) (decide_eq_true hdetect)).2
      rw [hphase] at hno
      have hyes : readDue (.handling .read what) = wantsRead what := Bool.and_true _
      rw [hyes] at hno
      exact of_decide_eq_false hno hread
    · exact hincb.proceed (by decide) hdue
    · exact hnext .error (by decide) (hphase ▸ hdue)
  | error =>
    dsimp only
    split_ifs with he
    · have hoff : Watched (b.detectFile 0 (-1)) := by
        refine h.deregister rfl (herror rfl he) rfl (fun _ hp => ?_) h.calling
          fun hp hn => (h.silent hp hn).2
        have hp' : b.phase = .handling .write _ := hp
        rw [hphase] at hp'
        exact absurd (BufPhase.handling.inj hp').1 (by decide)
      refine hoff.callBack (fun hcall => absurd hcall (by decide)) (by decide) fun hd => ?_
      have hdone : readDue (.calling .done what) = false := Bool.and_false _
      rw [hdone] at hd
      exact absurd hd Bool.false_ne_true
    · exact hidle
  | done => exact hidle

/-- The callback returns. -/
theorem Watched.returns (h : Watched b) {s : BufStage} {what : Mask}
    (hphase : b.phase = .calling s what) : Watched (callbackReturns b s what) := by
  have hincb : Watched { b with isIncb := false } :=
    h.of_eq rfl rfl rfl rfl h.handling h.calling id
  have hdue : readDue (.handling s what) = true → readDue b.phase = true := by
    rw [hphase]
    exact id
  cases s with
  | write => exact absurd hphase (h.calling what)
  | writeCallback => exact hincb.proceed (by decide) hdue
  | read => exact hincb.proceed (by decide) hdue
  | error => exact hincb.proceed (by decide) hdue
  | done =>
    exact h.of_eq rfl rfl rfl rfl (fun _ hp => BufPhase.noConfusion hp)
      (fun _ hp => BufPhase.noConfusion hp) fun hd => absurd hd Bool.false_ne_true

/-! ### Runs -/

/-- The condition on calls.  While reading is paused and `detect` names `EP_BUF_READ`, a file that has
lost its slot is not registered again by data that have to be queued or by a timeout.  Something is
disabled only while nothing is queued, `EP_BUF_READ` alone only without an interest in `EP_WRITE`, and it
is not disabled in a callback before `ep_buf_file_readcb` of the same event. -/
def allowsCall (b : EpBufImpl) : BufCall → Bool
  | .write data res => !queuesData b data res || !wouldRead b
  | .enable _ => true
  | .disable what =>
    (!(namesRead what || namesWrite what) || b.listWriteBuf.isEmpty) &&
      (!namesRead what || !readDue b.phase && (namesWrite what || !wantsWrite b.file.mask))
  | .setTimeout _ => !wouldRead b
  | .free => true

/-- The condition: the calls are allowed, and errors come while nothing is queued. -/
def keepsInterest (b : EpBufImpl) : BufInput → Bool
  | .call c => !b.userRuns || allowsCall b c
  | .next res =>
    match b.phase with
    | .handling .write what => !wantsWrite what || !failsForGood b res
    | .handling .error what => decide (what &&& EP_ERROR = 0) || b.listWriteBuf.isEmpty
    | _ => true
  | _ => true

theorem performCall_watched {c : BufCall} {b' : EpBufImpl} (h : Watched b) (hruns : b.userRuns = true)
    (hG : allowsCall b c = true) (hb : performCall b c = some b') : Watched b' := by
  unfold allowsCall at hG
  cases c with
  | write data res =>
    dsimp only at hG
    refine h.write hruns (fun hq => ?_) hb
    rw [hq, Bool.not_true, Bool.false_or, Bool.not_eq_true'] at hG
    exact hG
  | enable what =>
    obtain rfl := Option.some.inj hb
    exact h.enable hruns what
  | disable what =>
    obtain rfl := Option.some.inj hb
    dsimp only at hG
    rw [Bool.and_eq_true] at hG
    obtain ⟨hqueue, hread⟩ := hG
    refine h.disable hruns (fun hn => ?_) (fun hr hw => ?_) fun hr => ?_
    · rw [hn, Bool.not_true, Bool.false_or] at hqueue
      exact List.isEmpty_iff.mp hqueue
    · rw [hr, hw, Bool.not_true, Bool.false_or, Bool.false_or, Bool.and_eq_true,
        Bool.not_eq_true', Bool.not_eq_true'] at hread
      exact hread.2
    · rw [hr, Bool.not_true, Bool.false_or, Bool.and_eq_true, Bool.not_eq_true'] at hread
      exact hread.1
  | setTimeout ms =>
    obtain rfl := Option.some.inj hb
    dsimp only at hG
    rw [Bool.not_eq_true'] at hG
    exact h.setTimeout hruns hG ms
  | free =>
    obtain rfl := Option.some.inj hb
    exact h.free hruns

theorem bufStep_watched (i : BufInput) (h : Watched b) (hG : keepsInterest b i = true) :
    wp (bufStep i) (fun _ => Watched) (fun _ _ => True) b := by
  cases i with
  | call c =>
    simp only [bufStep, wp_bind, wp_get, wp_ite, wp_pure, wp_throw]
    split_ifs with hruns halive
    · exact h
    · rw [Bool.not_eq_true, Bool.not_eq_false'] at hruns
      have hallows : allowsCall b c = true := by
        unfold keepsInterest at hG
        dsimp only at hG
        rw [hruns, Bool.not_true, Bool.false_or] at hG
        exact hG
      cases hb : performCall b c with
      | none => exact True.intro
      | some b' => exact performCall_watched h hruns hallows hb
  | event what =>
    simp only [bufStep, wp_bind, wp_get]
    cases hp : b.phase with
    | idle =>
      simp only [wp_ite, wp_pure]
      split_ifs with hcan
      · unfold canReport at hcan
        rw [Bool.and_eq_true, Bool.and_eq_true, decide_eq_true_eq] at hcan
        obtain ⟨⟨hm, hread⟩, -⟩ := hcan
        show Watched { b with phase := .handling .write what }
        refine ⟨h.queue, h.slot, fun _ _ => hm, fun _ hp => BufPhase.noConfusion hp, ?_, h.journal⟩
        intro hpaused hnames
        have hoff := (h.silent hpaused hnames).1
        rw [hoff, Bool.or_false, Bool.not_eq_true'] at hread
        refine ⟨hoff, ?_⟩
        show (wantsRead what && _) = false
        rw [hread, Bool.false_and]
      · exact h
    | handling s what' => exact h
    | calling s what' => exact h
  | next res =>
    -- the condition is about the answer of `write()` and about the end of the event
    simp only [bufStep, wp_bind, wp_get]
    unfold keepsInterest at hG
    dsimp only at hG
    cases hp : b.phase with
    | idle => exact h
    | handling s what =>
      rw [hp] at hG
      refine h.eventcb hp (fun hs hw => ?_) fun hs he => ?_
      · subst hs
        dsimp only at hG
        rw [hw, Bool.not_true, Bool.false_or, Bool.not_eq_true'] at hG
        exact hG
      · subst hs
        dsimp only at hG
        rw [decide_eq_false he, Bool.false_or] at hG
        exact List.isEmpty_iff.mp hG
    | calling s what => exact h
  | ret =>
    simp only [bufStep, wp_bind, wp_get]
    cases hp : b.phase with
    | idle => exact h
    | handling s what => exact h
    | calling s what => exact h.returns hp

/-- **What is queued waits for a writable event, and pausing is respected**, in every run that meets
`keepsInterest`. -/
theorem wp_run_interestOk (is : List BufInput)
    (hG : Meets bufStep (fun b i => keepsInterest b i = true) is .init) :
    wp (run bufStep is)
      (fun _ b => (b.listWriteBuf ≠ [] → wantsWrite b.file.mask = true) ∧ JournalOk b.journal)
      (fun _ _ => True) .init := by
  have hrun := run_wp (fun b i (h : Watched b) hG => bufStep_watched i h hG) is .init watched_init hG
  exact wp_mono hrun (fun _ b h => ⟨h.queue, h.journal⟩) fun _ _ => id

/-- Data that are queued and sent, and then a pause. -/
theorem wp_run_interestOk_pause :
    let is : List BufInput :=
      [.call (.enable EP_BUF_READ), .call (.write (bytes "ab") (.accepted 1)), .event EP_WRITE,
        .next (.accepted 1), .next (.accepted 0), .next (.accepted 0), .next (.accepted 0),
        .call (.disable EP_BUF_READ), .call (.enable EP_BUF_READ), .event EP_READ,
        .next (.accepted 0), .next (.accepted 0), .ret]
    Meets bufStep (fun b i => keepsInterest b i = true) is .init ∧
      wp (run bufStep is)
        (fun _ b => (b.listWriteBuf ≠ [] → wantsWrite b.file.mask = true) ∧ JournalOk b.journal)
        (fun _ _ => True) .init :=
  ⟨by decide +kernel, wp_run_interestOk _ (by decide +kernel)⟩

/-- In general neither holds: `ep_buf_disable(EP_BUF_READ)` clears `EP_WRITE` while data are queued. -/
theorem not_interestOk : ¬ ∀ is : List BufInput,
    wp (run bufStep is)
      (fun _ b => (b.listWriteBuf ≠ [] → wantsWrite b.file.mask = true) ∧ JournalOk b.journal)
      (fun _ _ => True) .init := by
  intro h
  have h1 := h [.call (.enable EP_BUF_READ), .call (.write (bytes "a") (.accepted 0)),
    .call (.disable EP_BUF_READ)]
  have h2 : ¬ wp (run bufStep [.call (.enable EP_BUF_READ),
      .call (.write (bytes "a") (.accepted 0)), .call (.disable EP_BUF_READ)])
      (fun _ b => b.listWriteBuf ≠ [] → wantsWrite b.file.mask = true) (fun _ _ => True) .init := by
    decide +kernel
  exact h2 (wp_mono h1 (fun _ _ hb => hb.1) fun _ _ => id)

end H2ClientProxy
