import H2ClientProxy.EpBuf

/-!
# Freeing an `ep_buf` from its own callback

While `is_incb` is set, `ep_buf_free` only sets `is_free_pending`, and the function that called back
carries the free out when the callback returns.  `ep_buf_file_readcb` sets `is_incb` even if it is not
going to call back, and then nothing clears it: a free after that waits for ever.

* `FreeRun`: an `ep_buf` with what has been done to it so far.
* `FreeOk`: whenever no event is being handled, `is_incb` is clear, and a free that was asked for has been
  carried out once, with no use of the `ep_buf` behind it.
* `freeOk_iff`: a run satisfies this iff `ep_buf_file_readcb` is entered only with `EP_BUF_READ` enabled.
-/

namespace H2ClientProxy

open Wp Machine

/-! ### The property -/

/-- An `ep_buf`, and what has been done to it: whether `ep_buf_free` was called, how often the `ep_buf`
was released, and whether the code of `ep_buf_tcp.c` used it or called back after that. -/
structure FreeRun where
  buf : EpBufImpl := .init
  asked : Bool := false
  releases : ℕ := 0
  lateUse : Bool := false

/-- The user calls `ep_buf_free`. -/
def asksFree (b : EpBufImpl) : BufInput → Bool
  | .call .free => b.userRuns
  | _ => false

/-- `ep_buf_file_eventcb` is called, or goes on.  After the callback of its `EP_ERROR` branch it returns
without a look at the `ep_buf`. -/
def usesBuf (b : EpBufImpl) : BufInput → Bool
  | .event what => b.phase = .idle && canReport b.file what
  | .next _ =>
    match b.phase with
    | .handling _ _ => true
    | _ => false
  | .ret =>
    match b.phase with
    | .calling s _ => s ≠ .done
    | _ => false
  | .call _ => false

/-- What is recorded of a step that leaves `b`.  `ep_buf_free` releases the `ep_buf` by taking it out of
epoll, closing its socket and freeing it. -/
def FreeRun.after (s : FreeRun) (i : BufInput) (b : EpBufImpl) : FreeRun where
  buf := b
  asked := s.asked || asksFree s.buf i
  releases := if s.buf.alive && !b.alive then s.releases + 1 else s.releases
  lateUse := s.lateUse || (!s.buf.alive && usesBuf s.buf i)

/-- One step, with its record. -/
def freeStep (i : BufInput) : EStateM BufFault FreeRun Unit := do
  let s ← get
  match bufStep i s.buf with
  | .ok _ b => set (s.after i b)
  | .error err _ => throw err

/-- Between two events `is_incb` is clear, and a free that was asked for has been carried out once; after
it nothing has used the `ep_buf`. -/
structure FreeOk (s : FreeRun) : Prop where
  incb : s.buf.phase = .idle → s.buf.alive = true → s.buf.isIncb = false
  released : s.buf.phase = .idle → s.asked = true → s.buf.alive = false ∧ s.releases = 1
  unasked : s.asked = false → s.buf.alive = true ∧ s.releases = 0
  untouched : s.lateUse = false

/-! ### The condition -/

/-- `ep_buf_file_readcb` is entered only with `EP_BUF_READ` enabled. -/
def readsEnabled (s : FreeRun) : BufInput → Bool
  | .next _ =>
    match s.buf.phase with
    | .handling .read what => what &&& EP_READ = 0 || s.buf.detect &&& EP_BUF_READ ≠ 0
    | _ => true
  | _ => true

/-! ### The invariant -/

/-- What the two flags of a live `ep_buf` are worth in each phase. -/
structure Tidy (b : EpBufImpl) : Prop where
  alive : b.alive = true
  pending : b.isFreePending = true → b.isIncb = true
  incb : b.isIncb = true ↔ ∃ s what, b.phase = .calling s what ∧ s ≠ .done

/-- The flags are in order, and no free is pending. -/
structure Unasked (b : EpBufImpl) : Prop where
  tidy : Tidy b
  pending : b.isFreePending = false

/-- A free has been carried out: nothing is left to do for the `ep_buf`. -/
structure Gone (b : EpBufImpl) : Prop where
  dead : b.alive = false
  mask : b.file.mask = 0
  phase : b.phase = .idle ∨ ∃ what, b.phase = .calling .done what

/-- The invariant of a run: as long as the `ep_buf` is live, a free that was asked for is pending. -/
structure Freed (s : FreeRun) : Prop where
  buf : Tidy s.buf ∧ s.asked = s.buf.isFreePending ∧ s.releases = 0 ∨
    Gone s.buf ∧ s.asked = true ∧ s.releases = 1
  late : s.lateUse = false

theorem freed_init : Freed {} := by
  refine ⟨Or.inl ⟨⟨rfl, fun h => h, ?_⟩, rfl, rfl⟩, rfl⟩
  refine iff_of_false Bool.false_ne_true ?_
  rintro ⟨s, what, hp, -⟩
  exact BufPhase.noConfusion hp

theorem Freed.freeOk {s : FreeRun} (h : Freed s) : FreeOk s := by
  obtain ⟨⟨htidy, hasked, hrel⟩ | ⟨hgone, hasked, hrel⟩, hlate⟩ := h
  · -- between two events no callback runs, so that nothing is pending
    have hidle : s.buf.phase = .idle → s.buf.isIncb = false := by
      intro hp
      rw [← Bool.not_eq_true, htidy.incb]
      rintro ⟨s', what, hp', -⟩
      rw [hp] at hp'
      exact BufPhase.noConfusion hp'
    refine ⟨fun hp _ => hidle hp, fun hp ha => ?_, fun _ => ⟨htidy.alive, hrel⟩, hlate⟩
    have hincb := htidy.pending (hasked.symm.trans ha)
    rw [hidle hp] at hincb
    exact absurd hincb Bool.false_ne_true
  · refine ⟨fun _ ha => ?_, fun _ _ => ⟨hgone.dead, hrel⟩, fun ha => ?_, hlate⟩
    · rw [hgone.dead] at ha
      exact absurd ha Bool.false_ne_true
    · rw [hasked] at ha
      exact absurd ha (by decide)

variable {b b' : EpBufImpl}

/-! ### Calls of the user -/

/-- What the calls other than `ep_buf_free` leave alone. -/
structure FlagsKept (b b' : EpBufImpl) : Prop where
  alive : b'.alive = b.alive
  isIncb : b'.isIncb = b.isIncb
  isFreePending : b'.isFreePending = b.isFreePending
  phase : b'.phase = b.phase

theorem epBufWrite_flags {data : Bytes} {res : SendResult} (h : epBufWrite b data res = some b') :
    FlagsKept b b' := by
  unfold epBufWrite at h
  dsimp only at h
  split_ifs at h
  · split at h
    · obtain rfl := Option.some.inj h
      exact ⟨rfl, rfl, rfl, rfl⟩
    · split_ifs at h <;> obtain rfl := Option.some.inj h <;> exact ⟨rfl, rfl, rfl, rfl⟩
  · obtain rfl := Option.some.inj h
    exact ⟨rfl, rfl, rfl, rfl⟩

theorem performCall_flags {c : BufCall} (h : performCall b c = some b') (hc : c ≠ .free) :
    FlagsKept b b' := by
  cases c with
  | write data res => exact epBufWrite_flags h
  | enable what =>
    obtain rfl := Option.some.inj h
    exact ⟨rfl, rfl, rfl, rfl⟩
  | disable what =>
    obtain rfl := Option.some.inj h
    exact ⟨rfl, rfl, rfl, rfl⟩
  | setTimeout ms =>
    obtain rfl := Option.some.inj h
    exact ⟨rfl, rfl, rfl, rfl⟩
  | free => exact absurd rfl hc

theorem Tidy.of_flags (h : Tidy b) (hk : FlagsKept b b') : Tidy b' where
  alive := hk.alive.trans h.alive
  pending := by
    rw [hk.isFreePending, hk.isIncb]
    exact h.pending
  incb := by
    rw [hk.isIncb, hk.phase]
    exact h.incb

/-- `ep_buf_free` when no callback of the `ep_buf` runs that will look at it again. -/
theorem gone_free (hincb : b.isIncb = false)
    (hp : b.phase = .idle ∨ ∃ what, b.phase = .calling .done what) : Gone (epBufFree b) := by
  unfold epBufFree
  rw [hincb, if_neg Bool.false_ne_true]
  exact ⟨rfl, epFileDetect_mask _ _ _, hp⟩

/-! ### The stages of an event -/

/-- Before a stage of an event nothing is pending. -/
theorem Tidy.handling {s : BufStage} {what : Mask} (h : Tidy b) (hp : b.phase = .handling s what) :
    b.isIncb = false ∧ b.isFreePending = false := by
  have hincb : b.isIncb = false := by
    rw [← Bool.not_eq_true, h.incb]
    rintro ⟨s', what', hp', -⟩
    rw [hp] at hp'
    exact BufPhase.noConfusion hp'
  refine ⟨hincb, ?_⟩
  by_contra hpend
  rw [Bool.not_eq_false] at hpend
  rw [h.pending hpend] at hincb
  exact absurd hincb (by decide)

/-- Neither flag is set and no callback runs. -/
theorem Unasked.of_clear (ha : b.alive = true) (hi : b.isIncb = false) (hf : b.isFreePending = false)
    (hp : ∀ s what, b.phase = .calling s what → s = .done) : Unasked b := by
  refine ⟨⟨ha, fun h => absurd (hf.symm.trans h) Bool.false_ne_true, ?_⟩, hf⟩
  refine iff_of_false (by rw [hi]; exact Bool.false_ne_true) ?_
  rintro ⟨s, what, hcall, hs⟩
  exact hs (hp s what hcall)

/-- The user is called back with `is_incb` set. -/
theorem unasked_callBack (ha : b.alive = true) (hi : b.isIncb = true) (hf : b.isFreePending = false)
    (call : Mask) {s : BufStage} (what : Mask) (hs : s ≠ .done) : Unasked (callBack b call s what) :=
  ⟨⟨ha, fun _ => hi, iff_of_true hi ⟨s, what, rfl, hs⟩⟩, hf⟩

/-- With nothing pending the handler goes on. -/
theorem proceed_of_clear (hf : b.isFreePending = false) (s : BufStage) (what : Mask) :
    proceed b s what = { b with phase := .handling s what } := by
  unfold proceed
  rw [hf, if_neg Bool.false_ne_true]

theorem writeFirst_flags (b : EpBufImpl) (res : SendResult) : FlagsKept b (writeFirst b res).1 := by
  unfold writeFirst
  split
  · exact ⟨rfl, rfl, rfl, rfl⟩
  · split <;> exact ⟨rfl, rfl, rfl, rfl⟩

theorem unasked_writecb (ha : b.alive = true) (hi : b.isIncb = false) (hf : b.isFreePending = false)
    (what : Mask) (res : SendResult) : Unasked (epBufFileWritecb b what res) := by
  have hk := writeFirst_flags b res
  unfold epBufFileWritecb
  generalize writeFirst b res = out at hk
  obtain ⟨b1, isError⟩ := out
  dsimp only at hk ⊢
  have h2 : FlagsKept b (if b1.listWriteBuf.isEmpty then
      { b1.detectFile (epFileGetDetect b.file &&& ~~~EP_WRITE) (epFileGetTimeout b.file) with
        isIncb := false } else b1) := by
    split_ifs
    · exact ⟨hk.alive, hi.symm, hk.isFreePending, hk.phase⟩
    · exact hk
  generalize (if b1.listWriteBuf.isEmpty then
      { b1.detectFile (epFileGetDetect b.file &&& ~~~EP_WRITE) (epFileGetTimeout b.file) with
        isIncb := false } else b1) = b2 at h2 ⊢
  have ha2 : b2.alive = true := h2.alive.trans ha
  have hi2 : b2.isIncb = false := h2.isIncb.trans hi
  have hf2 : b2.isFreePending = false := h2.isFreePending.trans hf
  have hgoes : Unasked { b2 with phase := .handling .writeCallback what } :=
    .of_clear ha2 hi2 hf2 fun _ _ hp => BufPhase.noConfusion hp
  split_ifs
  · rw [proceed_of_clear hf2]
    exact hgoes
  · exact unasked_callBack (b := { b2.detectFile 0 (-1) with isIncb := true }) ha2 rfl hf2 _ what
      (by decide)
  · exact hgoes

/-- **A stage of an event** keeps the flags in order if `ep_buf_file_readcb` has something to call. -/
theorem Tidy.eventcb {s : BufStage} {what : Mask} {res : SendResult} (h : Tidy b)
    (hp : b.phase = .handling s what)
    (hG : s = .read → what &&& EP_READ ≠ 0 → b.detect &&& EP_BUF_READ ≠ 0) :
    Unasked (epBufFileEventcb b s what res) := by
  obtain ⟨hi, hf⟩ := h.handling hp
  have hgoes : ∀ s', Unasked { b with phase := .handling s' what } := fun s' =>
    .of_clear h.alive hi hf fun _ _ hp => BufPhase.noConfusion hp
  have hidle : Unasked { b with phase := .idle } :=
    .of_clear h.alive hi hf fun _ _ hp => BufPhase.noConfusion hp
  unfold epBufFileEventcb
  cases s with
  | write =>
    dsimp only
    split_ifs
    · exact unasked_writecb h.alive hi hf what res
    · exact hgoes .read
  | writeCallback =>
    dsimp only
    split_ifs
    · exact unasked_callBack (b := { b with isIncb := true }) h.alive rfl hf _ what (by decide)
    · exact hgoes .read
  | read =>
    dsimp only
    split_ifs with hread
    · unfold epBufFileReadcb
      dsimp only
      rw [if_pos (hG rfl hread)]
      exact unasked_callBack (b := { b with isIncb := true }) h.alive rfl hf _ what (by decide)
    · exact hgoes .error
  | error =>
    dsimp only
    split_ifs
    · refine .of_clear h.alive hi hf ?_
      intro s' what' hcall
      show s' = .done
      exact (BufPhase.calling.inj hcall).1.symm
    · exact hidle
  | done => exact hidle

/-- A callback returns, behind which `ep_buf_tcp.c` looks at the flags. -/
theorem Tidy.returns {s : BufStage} {what : Mask} (h : Tidy b) (hs : s ≠ .done) :
    Unasked (callbackReturns b s what) ∧ b.isFreePending = false ∨
      Gone (callbackReturns b s what) ∧ b.isFreePending = true := by
  have hret : callbackReturns b s what = proceed { b with isIncb := false } s what := by
    cases s with
    | done => exact absurd rfl hs
    | _ => rfl
  rw [hret]
  by_cases hf : b.isFreePending = true
  · refine Or.inr ⟨?_, hf⟩
    unfold proceed
    dsimp only
    rw [if_pos hf]
    have hfree := gone_free (b := { b with isIncb := false, isFreePending := false, phase := .idle }) rfl
      (Or.inl rfl)
    exact ⟨hfree.dead, hfree.mask, Or.inl rfl⟩
  · rw [Bool.not_eq_true] at hf
    have hgoes := proceed_of_clear (b := { b with isIncb := false }) hf s what
    refine Or.inl ⟨?_, hf⟩
    rw [hgoes]
    exact .of_clear h.alive rfl hf fun _ _ hp => BufPhase.noConfusion hp

/-- The callback of the `EP_ERROR` branch returns, whether it has freed the `ep_buf` or not. -/
theorem Tidy.returns_done {what : Mask} (h : Tidy b) (hp : b.phase = .calling .done what) :
    Unasked (callbackReturns b .done what) ∧ b.isFreePending = false := by
  have hi : b.isIncb = false := by
    rw [← Bool.not_eq_true, h.incb]
    rintro ⟨s, what', hp', hs⟩
    rw [hp] at hp'
    exact hs (BufPhase.calling.inj hp').1.symm
  have hf : b.isFreePending = false := by
    by_contra hpend
    rw [h.pending (by simpa using hpend)] at hi
    exact absurd hi (by decide)
  exact ⟨.of_clear h.alive hi hf fun _ _ hp => BufPhase.noConfusion hp, hf⟩

/-! ### Steps -/

/-- A step whose outcome is recorded. -/
theorem wp_freeStep (i : BufInput) (s : FreeRun) {Q : Unit → FreeRun → Prop}
    {E : BufFault → FreeRun → Prop} : wp (freeStep i) Q E s ↔
      wp (bufStep i) (fun _ b => Q () (s.after i b)) (fun err _ => E err s) s.buf := by
  simp only [freeStep, wp_bind, wp_get]
  unfold wp
  cases bufStep i s.buf <;> rfl

/-- A step of a live `ep_buf`: a free that is asked for is pending afterwards, or has been carried
out. -/
theorem Tidy.step {i : BufInput} (h : Tidy b) (hG : ∀ s, s.buf = b → readsEnabled s i = true) :
    wp (bufStep i)
      (fun _ b' => Tidy b' ∧ b'.isFreePending = (b.isFreePending || asksFree b i) ∨
        Gone b' ∧ (b.isFreePending || asksFree b i) = true) (fun _ _ => True) b := by
  have hskip : asksFree b i = false → Tidy b ∧ b.isFreePending = (b.isFreePending || asksFree b i) ∨
      Gone b ∧ (b.isFreePending || asksFree b i) = true := by
    intro hno
    rw [hno, Bool.or_false]
    exact Or.inl ⟨h, rfl⟩
  cases i with
  | call c =>
    simp only [bufStep, wp_bind, wp_get, wp_ite, wp_pure, wp_throw]
    split_ifs with hruns halive
    · apply hskip
      rw [Bool.not_eq_true'] at hruns
      cases c <;> first | rfl | exact hruns
    · -- the branch of a freed `ep_buf` is closed by `split_ifs`
      rw [Bool.not_eq_true, Bool.not_eq_false'] at hruns
      cases hb : performCall b c with
      | none => trivial
      | some b' =>
        show Tidy b' ∧ _ ∨ Gone b' ∧ _
        cases c with
        | free =>
          have hasks : asksFree b (.call .free) = true := hruns
          rw [hasks, Bool.or_true]
          obtain rfl := Option.some.inj hb
          by_cases hi : b.isIncb = true
          · have hb' : epBufFree b = { b with isFreePending := true } := by
              unfold epBufFree
              rw [if_pos hi]
            rw [hb']
            exact Or.inl ⟨⟨h.alive, fun _ => hi, h.incb⟩, rfl⟩
          · -- no callback runs, or the one of the `EP_ERROR` branch
            rw [Bool.not_eq_true] at hi
            refine Or.inr ⟨gone_free hi ?_, rfl⟩
            have hno := h.incb.not.mp (by rw [hi]; exact Bool.false_ne_true)
            unfold EpBufImpl.userRuns at hruns
            cases hp : b.phase with
            | idle => exact Or.inl rfl
            | handling s what =>
              rw [hp] at hruns
              exact absurd hruns Bool.false_ne_true
            | calling s what =>
              refine Or.inr ⟨what, ?_⟩
              by_contra hs
              refine hno ⟨s, what, hp, ?_⟩
              rintro rfl
              exact hs rfl
        | _ =>
          have hk := performCall_flags hb (by simp)
          refine Or.inl ⟨h.of_flags hk, ?_⟩
          rw [hk.isFreePending]
          exact (Bool.or_false _).symm
  | event what =>
    simp only [bufStep, wp_bind, wp_get]
    cases hp : b.phase with
    | idle =>
      simp only [wp_ite, wp_pure]
      split_ifs
      · refine Or.inl ⟨⟨h.alive, h.pending, ?_⟩, (Bool.or_false _).symm⟩
        refine (h.incb.trans ⟨?_, ?_⟩) <;> rintro ⟨s, what', hp', -⟩
        · rw [hp] at hp'
          exact BufPhase.noConfusion hp'
        · exact BufPhase.noConfusion hp'
      · exact hskip rfl
    | handling s what' => exact hskip rfl
    | calling s what' => exact hskip rfl
  | next res =>
    simp only [bufStep, wp_bind, wp_get]
    cases hp : b.phase with
    | idle => exact hskip rfl
    | handling s what =>
      have hu : Unasked (epBufFileEventcb b s what res) := h.eventcb hp fun hs hread => by
        have hg := hG { buf := b } rfl
        subst hs
        unfold readsEnabled at hg
        dsimp only at hg
        rw [hp] at hg
        dsimp only at hg
        rw [decide_eq_false hread, Bool.false_or] at hg
        exact of_decide_eq_true hg
      refine Or.inl ⟨hu.tidy, hu.pending.trans ?_⟩
      rw [(h.handling hp).2]
      rfl
    | calling s what => exact hskip rfl
  | ret =>
    simp only [bufStep, wp_bind, wp_get]
    cases hp : b.phase with
    | idle => exact hskip rfl
    | handling s what => exact hskip rfl
    | calling s what =>
      show Tidy (callbackReturns b s what) ∧ _ ∨ Gone (callbackReturns b s what) ∧ _
      have hno : asksFree b .ret = false := rfl
      rw [hno, Bool.or_false]
      by_cases hs : s = .done
      · subst hs
        obtain ⟨hu, hf⟩ := h.returns_done hp
        exact Or.inl ⟨hu.tidy, hu.pending.trans hf.symm⟩
      · have hreturns : Unasked (callbackReturns b s what) ∧ b.isFreePending = false ∨
            Gone (callbackReturns b s what) ∧ b.isFreePending = true := h.returns hs
        obtain ⟨hu, hf⟩ | ⟨hgone, hf⟩ := hreturns
        · exact Or.inl ⟨hu.tidy, hu.pending.trans hf.symm⟩
        · exact Or.inr ⟨hgone, hf⟩

/-- Nothing uses an `ep_buf` that has been freed. -/
theorem Gone.step (h : Gone b) (i : BufInput) :
    wp (bufStep i) (fun _ b' => Gone b' ∧ usesBuf b i = false) (fun _ _ => True) b := by
  cases i with
  | call c =>
    simp only [bufStep, wp_bind, wp_get, wp_ite, wp_pure, wp_throw]
    split_ifs with hruns halive
    · exact ⟨h, rfl⟩
    · rw [h.dead] at halive
      exact absurd rfl halive
  | event what =>
    have hno : canReport b.file what = false := by
      unfold canReport
      rw [h.mask]
      rfl
    have huse : usesBuf b (.event what) = false := by
      show (_ && canReport b.file what) = false
      rw [hno, Bool.and_false]
    simp only [bufStep, wp_bind, wp_get]
    cases hp : b.phase with
    | idle =>
      simp only [wp_pure, hno, Bool.false_eq_true, if_false]
      exact ⟨h, huse⟩
    | handling s what' => exact ⟨h, huse⟩
    | calling s what' => exact ⟨h, huse⟩
  | next res =>
    simp only [bufStep, wp_bind, wp_get]
    obtain hp | ⟨what, hp⟩ := h.phase
    · simp only [hp]
      exact ⟨h, by simp only [usesBuf, hp]⟩
    · simp only [hp]
      exact ⟨h, by simp only [usesBuf, hp]⟩
  | ret =>
    simp only [bufStep, wp_bind, wp_get]
    obtain hp | ⟨what, hp⟩ := h.phase
    · simp only [hp]
      exact ⟨h, by simp only [usesBuf, hp]⟩
    · simp only [hp]
      exact ⟨⟨h.dead, h.mask, Or.inl rfl⟩, by simp only [usesBuf, hp]; rfl⟩

/-- **A step keeps the invariant.** -/
theorem Freed.step {s : FreeRun} {i : BufInput} (h : Freed s) (hG : readsEnabled s i = true) :
    wp (freeStep i) (fun _ => Freed) (fun _ _ => True) s := by
  rw [wp_freeStep]
  obtain ⟨⟨htidy, hasked, hrel⟩ | ⟨hgone, hasked, hrel⟩, hlate⟩ := h
  · have hG' : ∀ t : FreeRun, t.buf = s.buf → readsEnabled t i = true := by
      intro t ht
      unfold readsEnabled at hG ⊢
      rw [ht]
      exact hG
    refine wp_mono (htidy.step hG') (fun _ b' hb => ?_) fun _ _ => id
    have hlate' : (s.after i b').lateUse = false := by
      show (s.lateUse || (!s.buf.alive && _)) = false
      rw [hlate, htidy.alive]
      rfl
    refine ⟨?_, hlate'⟩
    show Tidy b' ∧ (s.asked || asksFree s.buf i) = b'.isFreePending ∧
        (if s.buf.alive && !b'.alive then s.releases + 1 else s.releases) = 0 ∨
      Gone b' ∧ (s.asked || asksFree s.buf i) = true ∧
        (if s.buf.alive && !b'.alive then s.releases + 1 else s.releases) = 1
    rw [hasked, hrel, htidy.alive, Bool.true_and]
    obtain ⟨htidy', hpend⟩ | ⟨hgone, hpend⟩ := hb
    · rw [htidy'.alive]
      exact Or.inl ⟨htidy', hpend.symm, rfl⟩
    · rw [hgone.dead]
      exact Or.inr ⟨hgone, hpend, rfl⟩
  · refine wp_mono (hgone.step i) (fun _ b' hb => ?_) fun _ _ => id
    refine ⟨Or.inr ⟨hb.1, ?_, ?_⟩, ?_⟩
    · show (s.asked || _) = true
      rw [hasked, Bool.true_or]
    · show (if s.buf.alive && !b'.alive then s.releases + 1 else s.releases) = 1
      rw [hgone.dead, hrel]
      rfl
    · show (s.lateUse || (!s.buf.alive && usesBuf s.buf i)) = false
      rw [hlate, hb.2, Bool.and_false]
      rfl

/-! ### Without the condition -/

/-- `is_incb` is set and will not be cleared in what is left of the event. -/
structure Stuck (b : EpBufImpl) : Prop where
  alive : b.alive = true
  incb : b.isIncb = true
  phase : (∃ what, b.phase = .handling .error what) ∨ ∃ what, b.phase = .calling .done what

/-- The event is over, and `is_incb` is still set. -/
structure LeftSet (b : EpBufImpl) : Prop where
  alive : b.alive = true
  incb : b.isIncb = true
  idle : b.phase = .idle

/-- The step that does not meet the condition. -/
theorem eq_next_of_readsEnabled {i : BufInput} {s : FreeRun} (hG : readsEnabled s i = false) :
    ∃ res what, i = .next res ∧ s.buf.phase = .handling .read what ∧ what &&& EP_READ ≠ 0 ∧
      ¬s.buf.detect &&& EP_BUF_READ ≠ 0 := by
  unfold readsEnabled at hG
  split at hG
  · split at hG
    · rename_i res _ what hp
      rw [Bool.or_eq_false_iff] at hG
      exact ⟨res, what, rfl, hp, of_decide_eq_false hG.1, of_decide_eq_false hG.2⟩
    · exact Bool.noConfusion hG
  · exact Bool.noConfusion hG

/-- `ep_buf_file_readcb` finds nothing to call. -/
theorem Tidy.stuck {i : BufInput} {s : FreeRun} (h : Tidy s.buf) (hG : readsEnabled s i = false) :
    wp (bufStep i) (fun _ => Stuck) (fun _ _ => True) s.buf := by
  obtain ⟨res, what, rfl, hp, hread, hdetect⟩ := eq_next_of_readsEnabled hG
  have hnext : epBufFileEventcb s.buf .read what res =
      { s.buf with isIncb := true, phase := .handling .error what } := by
    unfold epBufFileEventcb
    dsimp only
    rw [if_pos hread]
    unfold epBufFileReadcb
    dsimp only
    rw [if_neg hdetect]
    exact proceed_of_clear (b := { s.buf with isIncb := true }) (h.handling hp).2 .error what
  simp only [bufStep, wp_bind, wp_get, hp]
  show Stuck (epBufFileEventcb s.buf .read what res)
  rw [hnext]
  exact ⟨h.alive, rfl, Or.inl ⟨what, rfl⟩⟩

/-- Nothing clears `is_incb` up to the end of the event: a free only becomes pending. -/
theorem Stuck.step (h : Stuck b) (i : BufInput) :
    wp (bufStep i) (fun _ b' => Stuck b' ∨ LeftSet b') (fun _ _ => True) b := by
  cases i with
  | call c =>
    simp only [bufStep, wp_bind, wp_get, wp_ite, wp_pure, wp_throw]
    split_ifs with hruns halive
    · exact Or.inl h
    · cases hb : performCall b c with
      | none => trivial
      | some b' =>
        show Stuck b' ∨ LeftSet b'
        cases c with
        | free =>
          -- `is_incb` is set: the free is put off
          obtain rfl := Option.some.inj hb
          unfold epBufFree
          rw [if_pos h.incb]
          exact Or.inl ⟨h.alive, h.incb, h.phase⟩
        | _ =>
          have hk := performCall_flags hb (by simp)
          refine Or.inl ⟨hk.alive.trans h.alive, hk.isIncb.trans h.incb, ?_⟩
          rw [hk.phase]
          exact h.phase
  | event what =>
    simp only [bufStep, wp_bind, wp_get]
    obtain ⟨what', hp⟩ | ⟨what', hp⟩ := h.phase <;> simp only [hp] <;> exact Or.inl h
  | next res =>
    simp only [bufStep, wp_bind, wp_get]
    obtain ⟨what, hp⟩ | ⟨what, hp⟩ := h.phase
    · simp only [hp]
      -- with or without an error to report, `is_incb` stays set
      show Stuck (epBufFileEventcb b .error what res) ∨ LeftSet (epBufFileEventcb b .error what res)
      unfold epBufFileEventcb
      dsimp only
      split_ifs
      · exact Or.inl ⟨h.alive, h.incb, Or.inr ⟨what, rfl⟩⟩
      · exact Or.inr ⟨h.alive, h.incb, rfl⟩
    · simp only [hp]
      exact Or.inl h
  | ret =>
    simp only [bufStep, wp_bind, wp_get]
    obtain ⟨what, hp⟩ | ⟨what, hp⟩ := h.phase
    · simp only [hp]
      exact Or.inl h
    · simp only [hp]
      exact Or.inr ⟨h.alive, h.incb, rfl⟩

theorem LeftSet.not_freeOk {s : FreeRun} (h : LeftSet s.buf) : ¬FreeOk s := by
  intro hok
  have hincb := hok.incb h.idle h.alive
  rw [h.incb] at hincb
  exact absurd hincb (by decide)

/-! ### Runs -/

/-- From a state in which `is_incb` will not be cleared, no event ends as it should. -/
theorem Stuck.breaks {is : List BufInput} {s : FreeRun} (h : Stuck s.buf)
    (hend : wp (run freeStep is) (fun _ t => t.buf.phase = .idle) (fun _ _ => False) s) :
    ¬Always freeStep FreeOk is s := by
  induction is generalizing s with
  | nil =>
    rw [run] at hend
    intro _
    have hidle : s.buf.phase = .idle := hend
    obtain ⟨what, hp⟩ | ⟨what, hp⟩ := h.phase <;> rw [hidle] at hp <;> exact BufPhase.noConfusion hp
  | cons i is ih =>
    intro hok
    obtain ⟨s', hs, hend'⟩ := run_cons_ok hend
    have hok' := hok.tail hs
    have hstep : wp (freeStep i) (fun _ t => Stuck t.buf ∨ LeftSet t.buf) (fun _ _ => True) s := by
      rw [wp_freeStep]
      exact h.step i
    obtain hstuck | hset := (wp_of_ok hs).mp hstep
    · exact ih hstuck hend' hok'
    · exact hset.not_freeOk hok'.head

/-- An `ep_buf` that is free of the defect so far is live before a step that shows it. -/
theorem Freed.stuck {s : FreeRun} {i : BufInput} (h : Freed s) (hG : readsEnabled s i = false) :
    wp (freeStep i) (fun _ t => Stuck t.buf) (fun _ _ => True) s := by
  rw [wp_freeStep]
  obtain ⟨⟨htidy, -, -⟩ | ⟨hgone, -, -⟩, -⟩ := h
  · exact htidy.stuck hG
  · -- a freed `ep_buf` handles no event
    obtain ⟨-, what, -, hp, -⟩ := eq_next_of_readsEnabled hG
    obtain hp' | ⟨what', hp'⟩ := hgone.phase <;> rw [hp] at hp' <;> exact BufPhase.noConfusion hp'

theorem Freed.meets {is : List BufInput} {s : FreeRun} (h : Freed s)
    (hend : wp (run freeStep is) (fun _ t => t.buf.phase = .idle) (fun _ _ => False) s)
    (hok : Always freeStep FreeOk is s) : Meets freeStep (fun s i => readsEnabled s i = true) is s := by
  induction is generalizing s with
  | nil => exact meets_nil s
  | cons i is ih =>
    obtain ⟨s', hs, hend'⟩ := run_cons_ok hend
    rw [meets_cons]
    cases hG : readsEnabled s i with
    | false => exact absurd (hok.tail hs) ((wp_of_ok hs).mp (h.stuck hG) |>.breaks hend')
    | true => exact ⟨rfl, (wp_of_ok hs).mpr (ih ((wp_of_ok hs).mp (h.step hG)) hend' (hok.tail hs))⟩

/-- **Freeing an `ep_buf`.**  In a run that enters `ep_buf_file_readcb` only with `EP_BUF_READ` enabled,
the flag is clear whenever no event is handled, and a free is carried out once, with no use of the
`ep_buf` behind it.  A run that ends between two events is such a run if this holds all along it. -/
theorem freeOk_iff (is : List BufInput) :
    (Meets freeStep (fun s i => readsEnabled s i = true) is {} → Always freeStep FreeOk is {}) ∧
      (wp (run freeStep is) (fun _ t => t.buf.phase = .idle) (fun _ _ => False) {} →
        Always freeStep FreeOk is {} → Meets freeStep (fun s i => readsEnabled s i = true) is {}) := by
  refine ⟨fun hG => ?_, freed_init.meets⟩
  exact hG.always (fun _ _ (h : Freed _) hG => h.step hG) (fun _ h => h.freeOk) freed_init

/-- The user enables reads and, in a callback of an event that reports the socket readable, frees the
`ep_buf`. -/
def freesInCallback : List BufInput :=
  [.call (.enable EP_BUF_READ), .event EP_READ, .next (.accepted 0), .next (.accepted 0), .call .free,
    .ret]

/-- An `ep_buf` that is freed in its callback is released when the callback has returned. -/
theorem freeOk_iff_freesInCallback :
    Always freeStep FreeOk freesInCallback {} ∧
      Meets freeStep (fun s i => readsEnabled s i = true) freesInCallback {} :=
  have hmeets : Always freeStep FreeOk freesInCallback {} :=
    (freeOk_iff freesInCallback).1 (by decide +kernel)
  ⟨hmeets, (freeOk_iff freesInCallback).2 (by decide +kernel) hmeets⟩

/-- The user enables reads and then writes, which leaves the socket registered for reads.  When it is
readable `is_incb` is set, and the `ep_buf` is not released when the user frees it after that. -/
def enablesWrites : List BufInput :=
  [.call (.enable EP_BUF_READ), .call (.enable EP_BUF_WRITE), .event EP_READ, .next (.accepted 0),
    .next (.accepted 0), .next (.accepted 0), .call .free]

/-- An `ep_buf` whose `is_incb` was left set is never released. -/
theorem not_always_freeOk : ¬∀ is : List BufInput, Always freeStep FreeOk is {} := by
  intro h
  have h1 := h enablesWrites enablesWrites List.prefix_rfl
  have h2 : wp (run freeStep enablesWrites)
      (fun _ s => s.buf.phase = .idle ∧ s.asked = true ∧ s.buf.alive = true) (fun _ _ => False) {} := by
    decide +kernel
  obtain ⟨-, s, hok, hp, hasked, halive⟩ :=
    exists_of_wp (wp_mono (wp_and h1 h2) (fun _ _ => id) fun _ _ h => h.2)
  rw [(hok.released hp hasked).1] at halive
  exact absurd halive (by decide)

end H2ClientProxy
