import H2ClientProxy.Equiv.Registry
import Mathlib.Data.Finset.Card
import Mathlib.Data.Finset.Range

/-!
# The table of descriptors

`ep_file_detect` writes the kernel's epoll set, `base->files`, `fd_count` and the list of timers, and
`ep_timer_check` arms a file again through the table after its callback, which may have freed the file
and made another one.

* `FilesOk`: these four agree.
* `FileInput`: what a run is made of, where the loop of `ep_timer_check` may also come to the timeout of one
  file alone.
* `wp_run_filesOk`: they agree in every state of every run that makes a file only for a descriptor of the
  table that has none.
-/

namespace H2ClientProxy.Ep

open Wp Machine

/-- `base->cur_poll_size`, which stays at `INIT_POOL_SIZE`. -/
def curPollSize : ℕ := 1024

/-! ### The property -/

/-- The descriptors with a mask. -/
def openFds (files : Fd → FdInfo) : Finset Fd :=
  (Finset.range curPollSize).filter fun fd => (files fd).mask ≠ 0

/-- Epoll, the table, the count and the timeouts agree. -/
structure FilesOk (b : EpBase) : Prop where
  poll : ∀ fd, b.poll fd =
    if (b.files fd).mask = 0 then none else some (pollEvents (b.files fd).mask)
  file : ∀ fd, (b.files fd).mask ≠ 0 →
    ∃ f file, (b.files fd).file = some f ∧ b.epFiles f = some file ∧ file.fd = fd
  count : b.fdCount = (openFds b.files).card
  timer : ∀ f file k, b.epFiles f = some file → file.timerInfo = some k → k ∈ b.listTimers →
    (b.files file.fd).mask ≠ 0 ∧ 0 ≤ file.timeout

/-! ### The users -/

/-- A step of the event base, or the body of the loop of `ep_timer_check` for the file `f` alone. -/
inductive FileInput where
  | step (i : EpInput)
  | expire (now : ℤ) (f : FileId)
  deriving DecidableEq, Repr

/-- The timeout of the file `f` expires, if it is due: `ep_timer_check` calls back, and when the callback
returns there is no other entry to go on with. -/
def expireFile (f : FileId) : EpM Unit := do
  let b ← get
  match (b.epFiles f).bind File.timerInfo with
  | none => pure ()
  | some i =>
    let info ← getInfo i
    if b.checking.isNone ∧ i ∈ b.listTimers ∧ info.timeoutMs ≤ b.now then
      fireInfo b.now i info .head
    else pure ()

/-- One step. -/
def fileStep : FileInput → EpM Unit
  | .step i => epStep i
  | .expire now f => do
    modify fun b => { b with now := now }
    expireFile f

/-- A file is made for a descriptor of the table that has none. -/
def fdFree (b : EpBase) (i : FileInput) : Bool :=
  match i with
  | .step ⟨_, .fileCreate fd⟩ =>
    fd < curPollSize && (List.range b.nextFile).all fun f => (b.epFiles f).all fun file => file.fd ≠ fd
  | _ => true

/-! ### Counting -/

section Count

variable {files files' : Fd → FdInfo} {fd : Fd}

/-- A descriptor gets a mask. -/
theorem card_openFds_add (hfd : fd < curPollSize) (h : (files fd).mask = 0)
    (h' : (files' fd).mask ≠ 0) (hother : ∀ d, d ≠ fd → files' d = files d) :
    (openFds files').card = (openFds files).card + 1 := by
  have hout : fd ∉ openFds files := fun hmem => (Finset.mem_filter.mp hmem).2 h
  have hins : openFds files' = insert fd (openFds files) := by
    ext d
    rw [Finset.mem_insert, openFds, openFds, Finset.mem_filter, Finset.mem_filter]
    by_cases hd : d = fd
    · subst hd
      exact iff_of_true ⟨Finset.mem_range.mpr hfd, h'⟩ (Or.inl rfl)
    · rw [hother d hd]
      exact ⟨Or.inr, fun hor => hor.resolve_left hd⟩
  rw [hins, Finset.card_insert_of_notMem hout]

/-- The set of descriptors with a mask stays the same. -/
theorem openFds_congr (h : (files' fd).mask = 0 ↔ (files fd).mask = 0)
    (hother : ∀ d, d ≠ fd → files' d = files d) : openFds files' = openFds files := by
  refine Finset.filter_congr fun d _ => ?_
  by_cases hd : d = fd
  · rw [hd]
    exact h.not
  · rw [hother d hd]

end Count

/-! ### The invariant -/

/-- What holds of the registry in every state. -/
structure FdsOk (r : Registry) : Prop where
  poll : ∀ fd, r.poll fd =
    if (r.files fd).mask = 0 then none else some (pollEvents (r.files fd).mask)
  slot : ∀ fd, (r.files fd).mask ≠ 0 →
    ∃ f t, (r.files fd).file = some f ∧ r.epFiles f = some (fd, t)
  /-- A live file in a slot is one of this descriptor; before its first `ep_file_detect` it has no
  timeout. -/
  owner : ∀ fd f fd' t, (r.files fd).file = some f → r.epFiles f = some (fd', t) →
    fd' = fd ∧ ((r.files fd).mask = 0 → t < 0)
  unique : ∀ f f' fd t t', r.epFiles f = some (fd, t) → r.epFiles f' = some (fd, t') → f' = f
  fd_lt : ∀ f fd t, r.epFiles f = some (fd, t) → fd < curPollSize
  count : r.fdCount = (openFds r.files).card
  timer : ∀ f, r.linked (.file f) = true →
    ∃ fd t, r.epFiles f = some (fd, t) ∧ (r.files fd).mask ≠ 0 ∧ 0 ≤ t
  slot_lt : ∀ fd f, (r.files fd).file = some f → f < r.nextFile
  file_lt : ∀ f v, r.epFiles f = some v → f < r.nextFile

variable {r r' : Registry} {b : EpBase} {f : FileId} {fd : Fd} {t0 : ℤ}

theorem fdsOk_init : FdsOk (registry .init) where
  poll := fun _ => rfl
  slot := fun _ h => absurd rfl h
  owner := fun _ f _ _ h _ => absurd h.symm (Option.some_ne_none f)
  unique := fun _ _ _ _ _ h _ => absurd h.symm (Option.some_ne_none _)
  fd_lt := fun _ _ _ h => absurd h.symm (Option.some_ne_none _)
  count := by
    have hempty : openFds (registry .init).files = ∅ :=
      Finset.filter_false_of_mem fun _ _ h => h rfl
    rw [hempty]
    rfl
  timer := fun _ h => absurd h Bool.false_ne_true
  slot_lt := fun _ f h => absurd h.symm (Option.some_ne_none f)
  file_lt := fun _ v h => absurd h.symm (Option.some_ne_none v)

/-- Timers do not matter. -/
theorem FdsOk.of_eq (h : FdsOk r) (hfiles : r'.files = r.files) (hpoll : r'.poll = r.poll)
    (hepFiles : r'.epFiles = r.epFiles) (hcount : r'.fdCount = r.fdCount)
    (hnext : r'.nextFile = r.nextFile)
    (hl : ∀ f, r'.linked (.file f) = true →
      r.linked (.file f) = true ∨
        ∃ fd t, r.epFiles f = some (fd, t) ∧ (r.files fd).mask ≠ 0 ∧ 0 ≤ t) : FdsOk r' := by
  obtain ⟨timers', epFiles', linked', files', poll', fdCount', nextFile'⟩ := r'
  obtain rfl : files' = r.files := hfiles
  obtain rfl : poll' = r.poll := hpoll
  obtain rfl : epFiles' = r.epFiles := hepFiles
  obtain rfl : fdCount' = r.fdCount := hcount
  obtain rfl : nextFile' = r.nextFile := hnext
  refine ⟨h.poll, h.slot, h.owner, h.unique, h.fd_lt, h.count, fun f hf => ?_, h.slot_lt, h.file_lt⟩
  rcases hl f hf with hf | hf
  · exact h.timer f hf
  · exact hf

/-- A node is unlinked. -/
theorem FdsOk.unlink (h : FdsOk r) (o : InfoOwner) : FdsOk (r.setLinked o false) := by
  refine h.of_eq rfl rfl rfl rfl rfl fun f hf => Or.inl ?_
  have hf' : Function.update r.linked o false (.file f) = true := hf
  rw [Function.update_apply] at hf'
  split_ifs at hf'
  exact hf'

/-- The node of a timer is linked. -/
theorem FdsOk.setTimer (h : FdsOk r) (t : TimerId) (v : Option Bool) (l : Bool) :
    FdsOk ((r.setTimer t v).setLinked (.timer t) l) := by
  refine h.of_eq rfl rfl rfl rfl rfl fun f hf => Or.inl ?_
  have hne : InfoOwner.file f ≠ .timer t := fun ho => InfoOwner.noConfusion ho
  have hf' : Function.update r.linked (.timer t) l (.file f) = true := hf
  rwa [Function.update_of_ne hne] at hf'

/-- The file of a slot is armed again. -/
theorem FdsOk.rearm (h : FdsOk r) (fd : Fd) : FdsOk (r.rearm fd) := by
  unfold Registry.rearm
  cases hslot : (r.files fd).file with
  | none => exact h
  | some f =>
    dsimp only
    split_ifs with htime
    · obtain ⟨⟨fd', t⟩, hf, ht⟩ := (Option.any_eq_true _ _).mp htime
      have ht0 : 0 ≤ t := of_decide_eq_true ht
      obtain ⟨rfl, hidle⟩ := h.owner fd f fd' t hslot hf
      have hmask : (r.files fd').mask ≠ 0 := fun h0 => by
        have := hidle h0
        omega
      refine h.of_eq rfl rfl rfl rfl rfl fun g hg => ?_
      by_cases hgf : g = f
      · rw [hgf]
        exact Or.inr ⟨fd', t, hf, hmask, ht0⟩
      · have hne : InfoOwner.file g ≠ .file f := fun ho => hgf (InfoOwner.file.inj ho)
        have hg' : Function.update r.linked (.file f) true (.file g) = true := hg
        rw [Function.update_of_ne hne] at hg'
        exact Or.inl hg'
    · exact h

/-! ### Files -/

/-- A file for a descriptor that has none. -/
theorem FdsOk.create (h : FdsOk r) (hfd : fd < curPollSize) (hnone : ∀ f t, r.epFiles f ≠ some (fd, t)) :
    FdsOk (r.create fd) := by
  have hmask : (r.files fd).mask = 0 := by
    by_contra hm
    obtain ⟨f, t, -, hf⟩ := h.slot fd hm
    exact hnone f t hf
  have hfiles : ∀ d, ((r.create fd).files d).mask = (r.files d).mask := by
    intro d
    show (Function.update r.files fd { r.files fd with file := some r.nextFile } d).mask = _
    rw [Function.update_apply]
    split_ifs with hd
    · rw [hd]
    · rfl
  have hslot : ∀ d f, ((r.create fd).files d).file = some f →
      d = fd ∧ f = r.nextFile ∨ d ≠ fd ∧ (r.files d).file = some f := by
    intro d f hf
    have hf' : (Function.update r.files fd { r.files fd with file := some r.nextFile } d).file =
      some f := hf
    rw [Function.update_apply] at hf'
    split_ifs at hf' with hd
    · exact Or.inl ⟨hd, (Option.some.inj hf').symm⟩
    · exact Or.inr ⟨hd, hf'⟩
  have hfile : ∀ f v, (r.create fd).epFiles f = some v →
      f = r.nextFile ∧ v = (fd, -1) ∨ r.epFiles f = some v := by
    intro f v hf
    have hf' : Function.update r.epFiles r.nextFile (some (fd, -1)) f = some v := hf
    rw [Function.update_apply] at hf'
    split_ifs at hf' with hn
    · exact Or.inl ⟨hn, (Option.some.inj hf').symm⟩
    · exact Or.inr hf'
  have hold : ∀ f v, r.epFiles f = some v → (r.create fd).epFiles f = some v := by
    intro f v hf
    have hlt := h.file_lt f v hf
    have hne : f ≠ r.nextFile := Nat.ne_of_lt hlt
    exact (Function.update_of_ne hne _ _).trans hf
  constructor
  · -- `poll`: the masks are the old ones
    intro d
    show Function.update r.poll fd (r.poll fd) d = _
    rw [Function.update_eq_self, hfiles, h.poll]
  · -- `slot`: the new file is in a slot without a mask
    intro d hd
    rw [hfiles] at hd
    have hne : d ≠ fd := fun he => hd (he ▸ hmask)
    obtain ⟨f, t, hs, hf⟩ := h.slot d hd
    refine ⟨f, t, ?_, hold f _ hf⟩
    show (Function.update r.files fd _ d).file = some f
    rw [Function.update_of_ne hne]
    exact hs
  · -- `owner`
    intro d f fd' t hs hf
    rw [hfiles]
    rcases hslot d f hs with ⟨rfl, rfl⟩ | ⟨hd, hs'⟩
    · rcases hfile _ _ hf with ⟨-, hv⟩ | hf'
      · obtain ⟨rfl, rfl⟩ := Prod.mk.inj hv
        exact ⟨rfl, fun _ => by decide⟩
      · exact absurd (h.file_lt _ _ hf') (Nat.lt_irrefl _)
    · rcases hfile _ _ hf with ⟨rfl, -⟩ | hf'
      · exact absurd (h.slot_lt d _ hs') (Nat.lt_irrefl _)
      · exact h.owner d f fd' t hs' hf'
  · -- `unique`: the descriptor had no file
    intro f f' d t t' hf hf'
    rcases hfile _ _ hf with ⟨rfl, hv⟩ | hf1 <;> rcases hfile _ _ hf' with ⟨rfl, hv'⟩ | hf1'
    · rfl
    · obtain ⟨rfl, -⟩ := Prod.mk.inj hv
      exact absurd hf1' (hnone f' t')
    · obtain ⟨rfl, -⟩ := Prod.mk.inj hv'
      exact absurd hf1 (hnone f t)
    · exact h.unique f f' d t t' hf1 hf1'
  · -- `fd_lt`
    intro f d t hf
    rcases hfile _ _ hf with ⟨-, hv⟩ | hf'
    · rw [(Prod.mk.inj hv).1]
      exact hfd
    · exact h.fd_lt f d t hf'
  · -- `count`
    have hopen : openFds (r.create fd).files = openFds r.files :=
      Finset.filter_congr fun d _ => by rw [hfiles]
    rw [hopen]
    exact h.count
  · -- `timer`
    intro f hf
    obtain ⟨d, t, hfile', hm, ht⟩ := h.timer f hf
    exact ⟨d, t, hold f _ hfile', by rwa [hfiles], ht⟩
  · -- `slot_lt`
    intro d f hs
    show f < r.nextFile + 1
    rcases hslot d f hs with ⟨-, rfl⟩ | ⟨-, hs'⟩
    · exact Nat.lt_succ_self _
    · exact Nat.lt_succ_of_lt (h.slot_lt d f hs')
  · -- `file_lt`
    intro f v hf
    show f < r.nextFile + 1
    rcases hfile f v hf with ⟨rfl, -⟩ | hf'
    · exact Nat.lt_succ_self _
    · exact Nat.lt_succ_of_lt (h.file_lt f v hf')

/-- In each of its cases `ep_file_detect` leaves the same slot. -/
theorem FdsOk.detectFd_eq (h : FdsOk r) (hf : r.epFiles f = some (fd, t0)) (what : Mask)
    (hmask : ¬((r.files fd).mask = 0 ∧ what = 0)) :
    r.detectFd f fd what =
      r.setFd fd { mask := what, file := if what = 0 then none else some f }
        (if what = 0 then none else some (pollEvents what))
        (r.fdCount + (if what = 0 then 0 else 1) - if (r.files fd).mask = 0 then 0 else 1) := by
  unfold Registry.detectFd
  split_ifs with h0 hw hw
  · exact absurd ⟨h0, hw⟩ hmask
  · rw [Int.sub_zero]
  · rw [Int.add_zero]
  · -- the slot holds the file already
    obtain ⟨f', t', hslot, hf'⟩ := h.slot fd h0
    obtain rfl := h.unique f f' fd t0 t' hf hf'
    show r.setFd fd { mask := what, file := (r.files fd).file } _ _ = _
    rw [hslot, Int.add_sub_cancel]

/-- The count after `ep_file_detect`. -/
theorem FdsOk.count_detect (h : FdsOk r) (hfd : fd < curPollSize) (what : Mask)
    {files' : Fd → FdInfo} (hself : (files' fd).mask = what)
    (hother : ∀ d, d ≠ fd → files' d = r.files d) :
    r.fdCount + (if what = 0 then 0 else 1) - (if (r.files fd).mask = 0 then 0 else 1) =
      (openFds files').card := by
  have hcount := h.count
  by_cases hm : (r.files fd).mask = 0 <;> by_cases hw : what = 0
  · rw [if_pos hm, if_pos hw, openFds_congr (by rw [hself]; exact iff_of_true hw hm) hother]
    omega
  · rw [if_pos hm, if_neg hw, card_openFds_add hfd hm (by rwa [hself]) hother]
    omega
  · have hback : (openFds r.files).card = (openFds files').card + 1 :=
      card_openFds_add hfd (by rwa [hself]) hm fun d hd => (hother d hd).symm
    rw [if_neg hm, if_pos hw]
    omega
  · rw [if_neg hm, if_neg hw,
      openFds_congr (by rw [hself]; exact iff_of_false hw hm) hother]
    omega

/-- **`ep_file_detect`** of a live file. -/
theorem FdsOk.detect (h : FdsOk r) (hf : r.epFiles f = some (fd, t0)) (what : Mask) (timeout : ℤ) :
    FdsOk (r.detect f fd what timeout) := by
  unfold Registry.detect
  split_ifs with hmask
  · exact h
  · rw [h.detectFd_eq hf what hmask]
    have hfd := h.fd_lt f fd t0 hf
    generalize hslot : ({ mask := what, file := if what = 0 then none else some f } : FdInfo) = slot
    generalize hev : (if what = 0 then none else some (pollEvents what)) = events
    have hw : slot.mask = what := by rw [← hslot]
    have hself : Function.update r.files fd slot fd = slot := Function.update_self ..
    have hother : ∀ d, d ≠ fd → Function.update r.files fd slot d = r.files d :=
      fun d hd => Function.update_of_ne hd _ _
    have hfself : Function.update r.epFiles f (some (fd, timeout)) f = some (fd, timeout) :=
      Function.update_self ..
    have hfother : ∀ g, g ≠ f → Function.update r.epFiles f (some (fd, timeout)) g = r.epFiles g :=
      fun g hg => Function.update_of_ne hg _ _
    -- no other file has this descriptor
    have hfds : ∀ g d t, Function.update r.epFiles f (some (fd, timeout)) g = some (d, t) →
        g = f ∧ d = fd ∧ t = timeout ∨ g ≠ f ∧ d ≠ fd ∧ r.epFiles g = some (d, t) := by
      intro g d t hg
      by_cases hgf : g = f
      · rw [hgf, hfself] at hg
        obtain ⟨h1, h2⟩ := Prod.mk.inj (Option.some.inj hg)
        exact Or.inl ⟨hgf, h1.symm, h2.symm⟩
      · rw [hfother g hgf] at hg
        refine Or.inr ⟨hgf, ?_, hg⟩
        rintro rfl
        exact hgf (h.unique f g d t0 t hf hg)
    constructor
    · intro d
      show Function.update r.poll fd events d =
        if (Function.update r.files fd slot d).mask = 0 then none
        else some (pollEvents (Function.update r.files fd slot d).mask)
      by_cases hd : d = fd
      · rw [hd, Function.update_self, hself, hw, ← hev]
      · rw [Function.update_of_ne hd, hother d hd]
        exact h.poll d
    · intro d hm
      by_cases hd : d = fd
      · subst hd
        have hm' : (Function.update r.files d slot d).mask ≠ 0 := hm
        rw [hself, hw] at hm'
        refine ⟨f, timeout, ?_, hfself⟩
        show (Function.update r.files d slot d).file = some f
        rw [hself, ← hslot]
        exact if_neg hm'
      · have hm' : (Function.update r.files fd slot d).mask ≠ 0 := hm
        rw [hother d hd] at hm'
        obtain ⟨g, t, hs, hg⟩ := h.slot d hm'
        have hgf : g ≠ f := by
          rintro rfl
          rw [hf] at hg
          exact hd (Prod.mk.inj (Option.some.inj hg)).1.symm
        refine ⟨g, t, ?_, (hfother g hgf).trans hg⟩
        show (Function.update r.files fd slot d).file = some g
        rwa [hother d hd]
    · intro d g fd' t hs hg
      have hs' : (Function.update r.files fd slot d).file = some g := hs
      show fd' = d ∧ ((Function.update r.files fd slot d).mask = 0 → t < 0)
      by_cases hd : d = fd
      · subst hd
        rw [hself, ← hslot] at hs'
        have hs2 : (if what = 0 then none else some f) = some g := hs'
        split_ifs at hs2 with h0
        obtain rfl := Option.some.inj hs2
        rw [hself, hw]
        rcases hfds f fd' t hg with ⟨-, rfl, -⟩ | ⟨hne, -⟩
        · exact ⟨rfl, fun hz => absurd hz h0⟩
        · exact absurd rfl hne
      · rw [hother d hd] at hs' ⊢
        rcases hfds g fd' t hg with ⟨rfl, -⟩ | ⟨-, -, hg'⟩
        · -- a file is in the slot of its own descriptor only
          exact absurd (h.owner d g fd t0 hs' hf).1.symm hd
        · exact h.owner d g fd' t hs' hg'
    · intro g g' d t t' hg hg'
      rcases hfds g d t hg with ⟨rfl, rfl, -⟩ | ⟨-, hd, hg1⟩ <;>
        rcases hfds g' d t' hg' with ⟨rfl, hd', -⟩ | ⟨-, hd', hg1'⟩
      · rfl
      · exact absurd rfl hd'
      · exact absurd hd' hd
      · exact h.unique g g' d t t' hg1 hg1'
    · intro g d t hg
      rcases hfds g d t hg with ⟨-, rfl, -⟩ | ⟨-, -, hg'⟩
      · exact hfd
      · exact h.fd_lt g d t hg'
    · have hmask' : (Function.update r.files fd slot fd).mask = what := by rw [hself, hw]
      exact h.count_detect hfd what hmask' hother
    · intro g hg
      have hg' : Function.update r.linked (.file f) (decide (timeout ≥ 0 ∧ what ≠ 0)) (.file g) =
          true := hg
      show ∃ d t, Function.update r.epFiles f (some (fd, timeout)) g = some (d, t) ∧
        (Function.update r.files fd slot d).mask ≠ 0 ∧ 0 ≤ t
      by_cases hgf : g = f
      · rw [hgf, Function.update_self] at hg'
        obtain ⟨htime, hne⟩ := of_decide_eq_true hg'
        refine ⟨fd, timeout, hgf ▸ hfself, ?_, htime⟩
        rw [hself, hw]
        exact hne
      · have hne : InfoOwner.file g ≠ .file f := fun ho => hgf (InfoOwner.file.inj ho)
        rw [Function.update_of_ne hne] at hg'
        obtain ⟨d, t, hgd, hm, ht⟩ := h.timer g hg'
        have hd : d ≠ fd := by
          rintro rfl
          exact hgf (h.unique f g d t0 t hf hgd)
        exact ⟨d, t, (hfother g hgf).trans hgd, by rwa [hother d hd], ht⟩
    · intro d g hs
      have hs' : (Function.update r.files fd slot d).file = some g := hs
      by_cases hd : d = fd
      · rw [hd, hself, ← hslot] at hs'
        have hs2 : (if what = 0 then none else some f) = some g := hs'
        split_ifs at hs2
        obtain rfl := Option.some.inj hs2
        exact h.file_lt f _ hf
      · rw [hother d hd] at hs'
        exact h.slot_lt d g hs'
    · intro g v hg
      obtain ⟨d, t⟩ := v
      rcases hfds g d t hg with ⟨rfl, -⟩ | ⟨-, -, hg'⟩
      · exact h.file_lt _ _ hf
      · exact h.file_lt g _ hg'

/-- A file goes whose descriptor has no mask and whose timeout does not run. -/
theorem FdsOk.dropFile (h : FdsOk r) (hf : ∀ fd t, r.epFiles f = some (fd, t) → (r.files fd).mask = 0)
    (hl : r.linked (.file f) = false) : FdsOk (r.setFile f none) := by
  have hfile : ∀ g v, (r.setFile f none).epFiles g = some v → g ≠ f ∧ r.epFiles g = some v := by
    intro g v hg
    have hg' : Function.update r.epFiles f none g = some v := hg
    rw [Function.update_apply] at hg'
    split_ifs at hg' with hgf
    exact ⟨hgf, hg'⟩
  have hold : ∀ g v, g ≠ f → r.epFiles g = some v → (r.setFile f none).epFiles g = some v :=
    fun g v hgf hg => (Function.update_of_ne hgf _ _).trans hg
  constructor
  · exact h.poll
  · -- `slot`
    intro d hd
    obtain ⟨g, t, hs, hg⟩ := h.slot d hd
    have hgf : g ≠ f := by
      rintro rfl
      exact hd (hf d t hg)
    exact ⟨g, t, hs, hold g _ hgf hg⟩
  · exact fun d g fd' t hs hg => h.owner d g fd' t hs (hfile g _ hg).2
  · exact fun g g' d t t' hg hg' => h.unique g g' d t t' (hfile g _ hg).2 (hfile g' _ hg').2
  · exact fun g d t hg => h.fd_lt g d t (hfile g _ hg).2
  · exact h.count
  · -- `timer`
    intro g hg
    have hgf : g ≠ f := by
      rintro rfl
      exact absurd (hl.symm.trans hg) Bool.false_ne_true
    obtain ⟨d, t, hgd, hm, ht⟩ := h.timer g hg
    exact ⟨d, t, hold g _ hgf hgd, hm, ht⟩
  · exact h.slot_lt
  · exact fun g v hg => h.file_lt g v (hfile g v hg).2

theorem FdsOk.free (h : FdsOk r) (hf : r.epFiles f = some (fd, t0)) : FdsOk (r.free f fd) := by
  have h1 := h.unlink (.file f)
  have h2 := h1.detect hf 0 (-1)
  unfold Registry.free
  have hoff : (r.setLinked (.file f) false).linked (.file f) = false := Function.update_self ..
  refine h2.dropFile ?_ ?_
  · -- the mask: `ep_file_detect` has cleared it, or there was none
    unfold Registry.detect
    split_ifs with hmask
    · intro d t hd
      have hd' : r.epFiles f = some (d, t) := hd
      rw [hf] at hd'
      obtain ⟨rfl, -⟩ := Prod.mk.inj (Option.some.inj hd')
      exact hmask.1
    · rw [h1.detectFd_eq hf 0 hmask]
      intro d t hd
      have hd' : Function.update r.epFiles f (some (fd, -1)) f = some (d, t) := hd
      rw [Function.update_self] at hd'
      obtain ⟨rfl, -⟩ := Prod.mk.inj (Option.some.inj hd')
      show (Function.update r.files fd _ fd).mask = 0
      rw [Function.update_self]
  · -- the timeout
    unfold Registry.detect
    split_ifs
    · exact hoff
    · exact (Function.update_self ..).trans (decide_eq_false fun hno => hno.2 rfl)

/-! ### Runs -/

/-- **A step of the registry** keeps the invariant. -/
theorem FdsOk.step {act : EpAct} {fired : Option InfoOwner} (h : FdsOk r)
    (hs : RegistryStep r act fired r')
    (hG : ∀ fd, act = .fileCreate fd → fd < curPollSize ∧ ∀ f t, r.epFiles f ≠ some (fd, t)) :
    FdsOk r' := by
  cases hs with
  | skip => exact h
  | timerNew _ =>
    exact h.of_eq rfl rfl rfl rfl rfl fun _ => Or.inl
  | timerAdd t _ => exact h.setTimer t _ true
  | timerDel t => exact h.setTimer t _ false
  | timerFree t => exact h.setTimer t _ false
  | fileCreate fd =>
    obtain ⟨hfd, hnone⟩ := hG fd rfl
    exact h.create hfd hnone
  | fileDetect what timeout hf => exact h.detect hf what timeout
  | fileFree hf => exact h.free hf
  | check _ => exact h.unlink _
  | rearm fd => exact h.rearm fd
  | ret _ => exact h.unlink _
  | rearmRet fd _ => exact (h.rearm fd).unlink _

/-- The descriptor of a new file has no live one. -/
theorem Nodes.fdFree (h : Nodes b) {i : EpInput} (hG : Ep.fdFree b (.step i) = true) (fd : Fd)
    (hact : i.act = .fileCreate fd) :
    fd < curPollSize ∧ ∀ f t, (registry b).epFiles f ≠ some (fd, t) := by
  obtain ⟨now, act⟩ := i
  subst hact
  rw [Ep.fdFree, Bool.and_eq_true, List.all_eq_true] at hG
  refine ⟨of_decide_eq_true hG.1, fun f t hf => ?_⟩
  obtain ⟨file, hfile, hv⟩ := Option.map_eq_some_iff.mp hf
  have hlt : f < b.nextFile := by
    by_contra hge
    exact absurd (hfile.symm.trans (h.freshFile f (Nat.le_of_not_lt hge))) (Option.some_ne_none file)
  have hne := hG.2 f (List.mem_range.mpr hlt)
  rw [hfile, Option.all_some] at hne
  exact of_decide_eq_true hne (Prod.mk.inj hv).1

/-- The timeout of one file expires, if it is due. -/
theorem FdsOk.expireFile (h : FdsOk (registry b)) (hn : Nodes b) (f : FileId) :
    wp (expireFile f) (fun _ b' => Nodes b' ∧ FdsOk (registry b')) (fun _ _ => False) b := by
  simp only [Ep.expireFile, wp_bind, wp_get]
  cases hi : (b.epFiles f).bind File.timerInfo with
  | none => exact ⟨hn, h⟩
  | some i =>
    obtain ⟨info, hk, -⟩ := hn.node (.file f) i hi
    simp only [wp_bind, wp_getInfo, hk, wp_ite, wp_pure]
    split_ifs
    · have hfire := wp_and (hn.fire hk b.now .head) (hn.fire_registry hk b.now .head)
      refine wp_mono hfire ?_ fun _ _ => And.left
      rintro _ b' ⟨⟨hn', -⟩, -, hreg⟩
      rw [hreg]
      exact ⟨hn', h.unlink info.owner⟩
    · exact ⟨hn, h⟩

/-- The invariant of the base. -/
theorem FdsOk.filesOk (h : FdsOk (registry b)) (hn : Nodes b) : FilesOk b where
  poll := h.poll
  file := by
    intro fd hfd
    obtain ⟨f, t, hs, hf⟩ := h.slot fd hfd
    obtain ⟨file, hfile, hv⟩ := Option.map_eq_some_iff.mp hf
    exact ⟨f, file, hs, hfile, (Prod.mk.inj hv).1⟩
  count := h.count
  timer := by
    intro f file k hf hk hmem
    have hl : (registry b).linked (.file f) = true := by
      refine (hn.linked_iff _).mpr ⟨k, ?_, hmem⟩
      rw [pointsTo, hf, Option.bind_some, hk]
    obtain ⟨fd, t, hv, hm, ht⟩ := h.timer f hl
    rw [registry_epFiles hf] at hv
    obtain ⟨rfl, rfl⟩ := Prod.mk.inj (Option.some.inj hv)
    exact ⟨hm, ht⟩

/-- **Epoll, the table, the count and the timeouts agree** in every state of a run, in which
`ep_timer_check` is called or the timeouts of single files expire; also in the state in which a run stops
because a freed object, or the `next` of an entry that is not linked any more, is used. -/
theorem wp_run_filesOk (is : List FileInput)
    (hG : Meets fileStep (fun b i => fdFree b i = true) is .init) :
    wp (run fileStep is) (fun _ => FilesOk) (fun _ => FilesOk) .init := by
  have hstep : ∀ b i, Nodes b ∧ FdsOk (registry b) → fdFree b i = true →
      wp (fileStep i) (fun _ b' => Nodes b' ∧ FdsOk (registry b'))
        (fun _ b' => Nodes b' ∧ FdsOk (registry b')) b := by
    rintro b i ⟨hn, h⟩ hGi
    cases i with
    | step i =>
      refine wp_mono (wp_and (hn.anyStep i) (hn.registry_step i)) ?_ ?_
      · exact fun _ b' h' => ⟨h'.1, h.step h'.2 (hn.fdFree hGi)⟩
      · exact fun _ b' h' => ⟨h'.2.1, h.step h'.2.2 (hn.fdFree hGi)⟩
    | expire now f =>
      have hn0 : Nodes { b with now := now } :=
        hn.of_eq rfl rfl rfl (pointsTo_congr rfl rfl) hn.freshTimer hn.freshFile
      have h0 : FdsOk (registry { b with now := now }) := h
      simp only [fileStep, wp_bind, wp_modify]
      exact wp_mono (h0.expireFile hn0 f) (fun _ _ => id) fun _ _ => False.elim
  refine wp_mono (run_wp hstep is .init ⟨nodes_init, fdsOk_init⟩ hG) ?_ ?_
  · exact fun _ _ h => h.2.filesOk h.1
  · exact fun _ _ h => h.2.filesOk h.1

/-- The timeout of a file expires, and its callback frees the file and makes another one for the same
descriptor, which waits in its turn; then the timeout of this one expires too. -/
def replacedFile : List FileInput :=
  [.step ⟨1000000, .fileCreate 5⟩, .step ⟨1000000, .fileDetect 0 EP_READ 1000⟩,
    .step ⟨1002000, .check⟩, .step ⟨1002000, .fileFree 0⟩, .step ⟨1002000, .fileCreate 5⟩,
    .step ⟨1002000, .fileDetect 1 EP_WRITE 2000⟩, .step ⟨1002000, .ret⟩, .expire 1004000 1,
    .step ⟨1004000, .ret⟩]

/-- Epoll, the table and the counter follow the new file. -/
theorem wp_run_filesOk_replaced :
    Meets fileStep (fun b i => fdFree b i = true) replacedFile .init ∧
      wp (run fileStep replacedFile) (fun _ => FilesOk) (fun _ => FilesOk) .init :=
  ⟨by decide +kernel, wp_run_filesOk replacedFile (by decide +kernel)⟩

end H2ClientProxy.Ep
