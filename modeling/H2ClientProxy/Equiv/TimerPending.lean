import H2ClientProxy.Equiv.Registry

/-!
# The flag of a timer

`ep_timer_pending` answers with a flag of the `ep_timer`, while `ep_timer_check` clears the one of its
node.  So the flag of a timer that has fired stays set until the timer is deleted.

* `PendingOk`: the flag of a timer is set iff it is linked and has not fired since it was added.
* `always_pendingOk_iff`: this holds all along a run iff no step of it fires a timer.
-/

namespace H2ClientProxy.Ep

open Wp Machine

/-! ### The property -/

/-- An event base, and which timers have fired since they were added. -/
structure PendingRun where
  base : EpBase := .init
  fired : TimerId → Bool := fun _ => false

/-- What a step to the base `b` makes of it. -/
def PendingRun.after (s : PendingRun) (i : EpInput) (b : EpBase) : PendingRun where
  base := b
  fired t :=
    if (begins s.base i b).map Callback.owner = some (.timer t) then true
    else
      match i.act with
      | .timerAdd t' _ => s.fired t && t' ≠ t
      | _ => s.fired t

/-- One step, with its record. -/
def pendingStep (i : EpInput) : EStateM EpFault PendingRun Unit := do
  let s ← get
  match epStep i s.base with
  | .ok _ b => set (s.after i b)
  | .error err _ => throw err

/-- `ep_timer_pending` is true for a live timer iff it is linked in `list_timers` and has not fired since
it was added. -/
def PendingOk (s : PendingRun) : Prop :=
  ∀ t, (s.base.timers t).isSome = true →
    wp (epTimerPending t) (fun pending _ => pending = true ↔
        (∃ k, pointsTo s.base (.timer t) = some k ∧ k ∈ s.base.listTimers) ∧ s.fired t = false)
      (fun _ _ => False) s.base

/-! ### The condition -/

/-- The owner is a timer. -/
def InfoOwner.isTimer : InfoOwner → Bool
  | .timer _ => true
  | .file _ => false

/-- Whose timeout the loop of `ep_timer_check` finds expired at `pos`, where a linked entry is. -/
def expired (b : EpBase) (ms : ℤ) (pos : ListPos) : Option InfoOwner :=
  match pos with
  | .entry k => if k ∈ b.listTimers then reached b ms pos else none
  | _ => none

/-- The loop of `ep_timer_check` comes to the linked, expired node of a timer. -/
def firesTimer (b : EpBase) (i : EpInput) : Bool :=
  match i.act with
  | .check =>
    b.checking.isNone && (expired b i.now (.ofOption b.listTimers.head?)).any InfoOwner.isTimer
  | .ret => b.checking.any fun cursor => (expired b cursor.ms cursor.temp).any InfoOwner.isTimer
  | _ => false

/-! ### The flags of the registry -/

/-- The flag of each timer says whether it is linked. -/
def Synced (r : Registry) : Prop := ∀ t v, r.timers t = some v → v = r.linked (.timer t)

/-- A timer that does not exist is not linked. -/
def TimersListed (r : Registry) : Prop := ∀ t, r.timers t = none → r.linked (.timer t) = false

variable {b b' : EpBase} {r r' : Registry}

theorem timersListed (b : EpBase) : TimersListed (registry b) := by
  intro t ht
  have hnone : b.timers t = none := Option.map_eq_none_iff.mp ht
  show nodeLinked b ((b.timers t).bind EpTimer.info) = false
  rw [hnone]
  rfl

/-- A timer is added, deleted or freed. -/
theorem Synced.setTimer (h : Synced r) (t : TimerId) (v : Option Bool) (l : Bool)
    (hv : ∀ x, v = some x → x = l) : Synced ((r.setTimer t v).setLinked (.timer t) l) := by
  intro t' x hx
  have hx' : Function.update r.timers t v t' = some x := hx
  show x = Function.update r.linked (.timer t) l (.timer t')
  rw [Function.update_apply] at hx' ⊢
  by_cases he : t' = t
  · rw [if_pos he] at hx'
    rw [if_pos (congrArg InfoOwner.timer he)]
    exact hv x hx'
  · rw [if_neg he] at hx'
    rw [if_neg fun ho => he (InfoOwner.timer.inj ho)]
    exact h t' x hx'

/-- What happens to files is none of the timers' business. -/
theorem Synced.of_eq (h : Synced r) (ht : r'.timers = r.timers)
    (hl : ∀ t, r'.linked (.timer t) = r.linked (.timer t)) : Synced r' := by
  intro t v hv
  rw [hl]
  exact h t v (ht ▸ hv)

theorem setLinked_of_ne (r : Registry) {o o' : InfoOwner} (hne : o' ≠ o) (v : Bool) :
    (r.setLinked o v).linked o' = r.linked o' := by
  show Function.update r.linked o v o' = _
  exact Function.update_of_ne hne v r.linked

theorem setLinked_file (r : Registry) (f : FileId) (v : Bool) (t : TimerId) :
    (r.setLinked (.file f) v).linked (.timer t) = r.linked (.timer t) :=
  setLinked_of_ne r (fun ho => InfoOwner.noConfusion ho) v

theorem detect_timers (r : Registry) (f : FileId) (fd : Fd) (what : Mask) (timeout : ℤ) :
    (r.detect f fd what timeout).timers = r.timers ∧
      ∀ t, (r.detect f fd what timeout).linked (.timer t) = r.linked (.timer t) := by
  unfold Registry.detect
  split_ifs
  · exact ⟨rfl, fun _ => rfl⟩
  · refine ⟨?_, fun t => ?_⟩
    · show (r.detectFd f fd what).timers = r.timers
      unfold Registry.detectFd
      split_ifs <;> rfl
    · rw [setLinked_file]
      show (r.detectFd f fd what).linked _ = _
      rw [detectFd_linked]

theorem rearm_timers (r : Registry) (fd : Fd) :
    (r.rearm fd).timers = r.timers ∧
      ∀ t, (r.rearm fd).linked (.timer t) = r.linked (.timer t) := by
  unfold Registry.rearm
  split
  · exact ⟨rfl, fun _ => rfl⟩
  · split_ifs
    · exact ⟨rfl, setLinked_file r _ true⟩
    · exact ⟨rfl, fun _ => rfl⟩

/-- A step that fires no linked timer. -/
theorem Synced.step {act : EpAct} {fired : Option InfoOwner} (h : Synced r) (hr : TimersListed r)
    (hs : RegistryStep r act fired r')
    (hno : ∀ t, fired = some (.timer t) → r.linked (.timer t) = false) : Synced r' := by
  -- a callback of a file touches no timer, and that of a timer comes only if it was unlinked before
  have hfire : ∀ (r1 : Registry) o, Synced r1 →
      (∀ t, r1.linked (.timer t) = r.linked (.timer t)) → fired = some o →
      Synced (r1.setLinked o false) := by
    intro r1 o h1 hl ho
    cases o with
    | timer t => rwa [setLinked_eq_self ((hl t).trans (hno t ho))]
    | file f => exact h1.of_eq rfl (setLinked_file r1 f false)
  have hrearm : ∀ fd, Synced (r.rearm fd) := fun fd =>
    h.of_eq (rearm_timers r fd).1 (rearm_timers r fd).2
  cases hs with
  | skip => exact h
  | @timerNew t hnone =>
    have hset := h.setTimer t (some false) false fun x hx => (Option.some.inj hx).symm
    have hoff : (r.setTimer t (some false)).linked (.timer t) = false := hr t hnone
    rwa [setLinked_eq_self hoff] at hset
  | timerAdd t _ => exact h.setTimer t (some true) true fun x hx => (Option.some.inj hx).symm
  | timerDel t => exact h.setTimer t (some false) false fun x hx => (Option.some.inj hx).symm
  | timerFree t => exact h.setTimer t none false fun x hx => absurd hx.symm (Option.some_ne_none x)
  | fileCreate fd => exact h.of_eq rfl fun _ => rfl
  | @fileDetect f fd _ what timeout _ =>
    exact h.of_eq (detect_timers r f fd what timeout).1 (detect_timers r f fd what timeout).2
  | @fileFree f fd _ _ =>
    obtain ⟨ht, hl⟩ := detect_timers (r.setLinked (.file f) false) f fd 0 (-1)
    exact h.of_eq ht fun t => (hl t).trans (setLinked_file r f false t)
  | check o => exact hfire r o h (fun _ => rfl) rfl
  | rearm fd => exact hrearm fd
  | ret o => exact hfire r o h (fun _ => rfl) rfl
  | rearmRet fd o => exact hfire _ o (hrearm fd) (rearm_timers r fd).2 rfl

/-- The timer that a step fires: its flag is left as it is, and its node is unlinked. -/
theorem RegistryStep.fires {act : EpAct} {t : TimerId} (hs : RegistryStep r act (some (.timer t)) r') :
    r'.timers = r.timers ∧ r'.linked (.timer t) = false := by
  cases hs with
  | check _ => exact ⟨rfl, Function.update_self ..⟩
  | ret _ => exact ⟨rfl, Function.update_self ..⟩
  | rearmRet fd _ => exact ⟨(rearm_timers r fd).1, Function.update_self ..⟩

/-- A timer gets linked when it is added. -/
theorem RegistryStep.linked_timer {act : EpAct} {fired : Option InfoOwner} {t : TimerId}
    (hs : RegistryStep r act fired r') (hl : r'.linked (.timer t) = true) :
    r.linked (.timer t) = true ∨ ∃ millsec, act = .timerAdd t millsec := by
  -- unlinking a node links no other one
  have hoff : ∀ (r1 : Registry) o, (r1.setLinked o false).linked (.timer t) = true →
      r1.linked (.timer t) = true := by
    intro r1 o h1
    by_cases ho : InfoOwner.timer t = o
    · subst ho
      exact absurd ((Function.update_self ..).symm.trans h1) Bool.false_ne_true
    · rwa [setLinked_of_ne r1 ho] at h1
  cases hs with
  | skip => exact Or.inl hl
  | timerNew _ => exact Or.inl hl
  | timerAdd t' millsec =>
    by_cases ht : t' = t
    · exact Or.inr ⟨millsec, by rw [ht]⟩
    · have ho : InfoOwner.timer t ≠ .timer t' := fun ho => ht (InfoOwner.timer.inj ho).symm
      exact Or.inl ((setLinked_of_ne (r.setTimer t' (some true)) ho true).symm.trans hl)
  | timerDel t' => exact Or.inl (hoff (r.setTimer t' (some false)) _ hl)
  | timerFree t' => exact Or.inl (hoff (r.setTimer t' none) _ hl)
  | fileCreate fd => exact Or.inl hl
  | @fileDetect f fd _ what timeout _ =>
    exact Or.inl (((detect_timers r f fd what timeout).2 t).symm.trans hl)
  | @fileFree f fd _ _ =>
    have hd := (detect_timers (r.setLinked (.file f) false) f fd 0 (-1)).2 t
    exact Or.inl (hoff r _ (hd.symm.trans hl))
  | check o => exact Or.inl (hoff r o hl)
  | rearm fd => exact Or.inl (((rearm_timers r fd).2 t).symm.trans hl)
  | ret o => exact Or.inl (hoff r o hl)
  | rearmRet fd o => exact Or.inl (((rearm_timers r fd).2 t).symm.trans (hoff _ o hl))

/-! ### Which steps fire a timer -/

/-- The node of `o` that the loop comes to is linked. -/
theorem Nodes.expired_iff (h : Nodes b) (ms : ℤ) (pos : ListPos) (o : InfoOwner) :
    expired b ms pos = some o ↔ reached b ms pos = some o ∧ (registry b).linked o = true := by
  have hnone : (none : Option InfoOwner) ≠ some o := (Option.some_ne_none o).symm
  cases pos with
  | head => exact iff_of_false hnone fun hr => hnone hr.1
  | poison => exact iff_of_false hnone fun hr => hnone hr.1
  | entry k =>
    rw [expired, h.linked_iff]
    constructor
    · intro he
      split_ifs at he with hmem
      obtain ⟨k', info, hpos, hk, -, ho⟩ := (reached_iff b ms _ o).mp he
      obtain rfl := ListPos.entry.inj hpos
      exact ⟨he, k, ho ▸ h.owner k info hk, hmem⟩
    · rintro ⟨hr, j, hj, hmem⟩
      obtain ⟨k', info, hpos, hk, -, ho⟩ := (reached_iff b ms _ o).mp hr
      obtain rfl := ListPos.entry.inj hpos
      obtain rfl := h.owner_inj hk ho hj
      rw [if_pos hmem, hr]

/-- The nodes of timers are not touched. -/
def TimerNodesKept (b b' : EpBase) : Prop :=
  ∀ k info, info.owner.isTimer = true → (b'.infos k = some info ↔ b.infos k = some info)

theorem TimerNodesKept.trans {b1 : EpBase} (h : TimerNodesKept b b1) (h' : TimerNodesKept b1 b') :
    TimerNodesKept b b' := fun k info ho => (h' k info ho).trans (h k info ho)

/-- A node of a file comes, or changes. -/
theorem TimerNodesKept.of_update {k : InfoId} {info : TimerInfo}
    (hi : b'.infos = Function.update b.infos k (some info)) (ho : info.owner.isTimer = false)
    (hk : ∀ x, b.infos k = some x → x.owner.isTimer = false) : TimerNodesKept b b' := by
  intro j x hx
  rw [hi, Function.update_apply]
  split_ifs with he
  · rw [he]
    constructor
    · intro heq
      rw [Option.some.inj heq, hx] at ho
      exact absurd ho (by decide)
    · intro heq
      rw [hk x heq] at hx
      exact absurd hx (by decide)
  · exact Iff.rfl

theorem Nodes.rearm_timerNodes (h : Nodes b) (fd : Fd) :
    wp (Ep.rearmFile fd) (fun _ b' => TimerNodesKept b b') (fun _ _ => True) b := by
  simp only [Ep.rearmFile, wp_bind, wp_get]
  cases hslot : (b.files fd).file with
  | none => exact fun _ _ _ => Iff.rfl
  | some f =>
    simp only [wp_bind, wp_getFile]
    cases hf : b.epFiles f with
    | none => exact trivial
    | some file =>
      simp only [wp_ite, wp_bind, wp_pure]
      split_ifs
      · have hinfo : wp (Ep.fileInfo f file) (fun _ b' => TimerNodesKept b b') (fun _ _ => False)
            b := by
          unfold Ep.fileInfo
          cases file.timerInfo with
          | some k => exact fun _ _ _ => Iff.rfl
          | none =>
            -- the new node is that of a file
            simp only [epTimerInfoCreate, wp_bind, wp_get, wp_modify, wp_pure]
            refine .of_update rfl rfl fun x hx => ?_
            exact absurd (hx.symm.trans (h.freshInfo _ le_rfl)) (Option.some_ne_none x)
        have hall := wp_and hinfo (wp_and (h.fileInfo hf) (h.fileInfo_registry hf))
        refine wp_mono hall ?_ fun _ _ h => h.1.elim
        rintro k b1 ⟨hkept, ⟨h1, -⟩, -, hpt1⟩
        obtain ⟨info, hk, ho⟩ := h1.node _ k hpt1
        simp only [wp_epTimerInfoAdd, hk]
        refine hkept.trans ?_
        unfold EpBase.link
        split_ifs
        · exact fun _ _ _ => Iff.rfl
        · refine .of_update rfl (by rw [ho]; rfl) fun x hx => ?_
          rw [← Option.some.inj (hk.symm.trans hx), ho]
          rfl
      · exact fun _ _ _ => Iff.rfl

/-- The loop comes to the same timers. -/
theorem TimerNodesKept.reached_iff (hk : TimerNodesKept b b') (ms : ℤ) (pos : ListPos) (t : TimerId) :
    reached b' ms pos = some (.timer t) ↔ reached b ms pos = some (.timer t) := by
  rw [Ep.reached_iff, Ep.reached_iff]
  constructor
  · rintro ⟨k, info, hpos, hinfo, hms, ho⟩
    exact ⟨k, info, hpos, (hk k info (by rw [ho]; rfl)).mp hinfo, hms, ho⟩
  · rintro ⟨k, info, hpos, hinfo, hms, ho⟩
    exact ⟨k, info, hpos, (hk k info (by rw [ho]; rfl)).mpr hinfo, hms, ho⟩

theorem any_isTimer (o : Option InfoOwner) :
    o.any InfoOwner.isTimer = true ↔ ∃ t, o = some (.timer t) := by
  constructor
  · intro h
    obtain ⟨o', rfl, ho⟩ := (Option.any_eq_true _ _).mp h
    cases o' with
    | timer t => exact ⟨t, rfl⟩
    | file f => exact Bool.noConfusion ho
  · rintro ⟨t, rfl⟩
    rfl

/-- The callback returns, and the loop goes on to the timer that is at the saved entry. -/
theorem Nodes.checkRet_reached (h : Nodes b) :
    wp epTimerCheckRet
      (fun _ b' => ∀ t, (b'.checking.map fun cursor => cursor.callback.owner) = some (.timer t) ↔
        ∃ cursor, b.checking = some cursor ∧ reached b cursor.ms cursor.temp = some (.timer t))
      (fun _ _ => True) b := by
  simp only [epTimerCheckRet, wp_bind, wp_get]
  cases hc : b.checking with
  | none =>
    intro t
    rw [hc]
    refine iff_of_false (Option.some_ne_none _).symm ?_
    rintro ⟨cursor, hcur, -⟩
    exact Option.some_ne_none cursor hcur.symm
  | some cursor =>
    -- arming the file again leaves the timers' nodes alone, so the loop comes to the same timers
    have hloop : ∀ b1, Nodes b1 → TimerNodesKept b b1 →
        wp (Ep.checkAt cursor.ms cursor.temp)
          (fun _ b' => ∀ t, (b'.checking.map fun cursor => cursor.callback.owner) = some (.timer t) ↔
            ∃ cursor', some cursor = some cursor' ∧
              reached b cursor'.ms cursor'.temp = some (.timer t)) (fun _ _ => True) b1 := by
      intro b1 h1 hkept
      refine wp_mono (h1.checkAt_registry cursor.ms cursor.temp) ?_ fun _ _ _ => trivial
      rintro _ b' ⟨hfired, -⟩ t
      rw [hfired, hkept.reached_iff]
      constructor
      · exact fun he => ⟨cursor, rfl, he⟩
      · rintro ⟨cursor', hcur, he⟩
        rwa [Option.some.inj hcur]
    cases hcb : cursor.callback with
    | timer t =>
      simp only [hcb]
      exact hloop b h fun _ _ _ => Iff.rfl
    | file f fd =>
      simp only [hcb, wp_bind]
      have hnodes := wp_mono (h.rearmFile fd) (fun _ _ h' => h'.1) fun _ _ _ => trivial
      refine wp_mono (wp_and (h.rearm_timerNodes fd) hnodes) ?_ fun _ _ _ => trivial
      exact fun _ b1 h1 => hloop b1 h1.2 h1.1

/-- Which steps fire a linked timer can be read off the state before. -/
theorem Nodes.fires_iff (h : Nodes b) (i : EpInput) :
    wp (epStep i) (fun _ b' => firesTimer b i = true ↔
        ∃ t, (begins b i b').map Callback.owner = some (.timer t) ∧
          (registry b).linked (.timer t) = true) (fun _ _ => True) b := by
  obtain ⟨now, act⟩ := i
  have h0 : Nodes { b with now := now } :=
    h.of_eq rfl rfl rfl (pointsTo_congr rfl rfl) h.freshTimer h.freshFile
  have hskip : ∀ act, runsLoop b ⟨now, act⟩ = false → firesTimer b ⟨now, act⟩ = false →
      ∀ b', firesTimer b ⟨now, act⟩ = true ↔
        ∃ t, (begins b ⟨now, act⟩ b').map Callback.owner = some (.timer t) ∧
          (registry b).linked (.timer t) = true := by
    intro act hloop hno b'
    rw [hno, begins, hloop]
    refine iff_of_false Bool.false_ne_true ?_
    rintro ⟨t, ht, -⟩
    exact Option.some_ne_none _ ht.symm
  cases act with
  | check =>
    by_cases hl : b.checking.isNone = true
    · simp only [epStep, epHandle, wp_bind, wp_modify, wp_get, wp_ite, wp_pure, epTimerCheck]
      rw [if_pos hl]
      refine wp_mono (h0.checkAt_registry now (.ofOption b.listTimers.head?)) ?_ fun _ _ _ => trivial
      rintro _ b' ⟨hfired, -⟩
      have hbegins : (begins b ⟨now, .check⟩ b').map Callback.owner =
          reached b now (.ofOption b.listTimers.head?) := by
        have hloop : begins b ⟨now, .check⟩ b' = b'.checking.map Cursor.callback := if_pos hl
        rw [hloop, Option.map_map]
        exact hfired
      rw [hbegins, firesTimer, hl, Bool.true_and, any_isTimer]
      exact exists_congr fun t => h.expired_iff now _ _
    · -- within a callback `ep_timer_check` is not called
      rw [Bool.not_eq_true] at hl
      refine wp_mono (h.anyStep _) (fun _ b' _ => hskip .check hl ?_ b') fun _ _ _ => trivial
      rw [firesTimer, hl, Bool.false_and]
  | ret =>
    simp only [epStep, wp_bind, wp_modify]
    refine wp_mono h0.checkRet_reached ?_ fun _ _ _ => trivial
    intro _ b' hfired
    have hbegins : (begins b ⟨now, .ret⟩ b').map Callback.owner =
        b'.checking.map fun cursor => cursor.callback.owner := Option.map_map ..
    rw [hbegins, firesTimer, Option.any_eq_true]
    constructor
    · rintro ⟨cursor, hc, he⟩
      obtain ⟨t, ht⟩ := (any_isTimer _).mp he
      obtain ⟨hr, hl⟩ := (h.expired_iff _ _ _).mp ht
      exact ⟨t, (hfired t).mpr ⟨cursor, hc, hr⟩, hl⟩
    · rintro ⟨t, ht, hl⟩
      obtain ⟨cursor, hc, hr⟩ := (hfired t).mp ht
      exact ⟨cursor, hc, (any_isTimer _).mpr ⟨t, (h.expired_iff _ _ _).mpr ⟨hr, hl⟩⟩⟩
  | _ => exact wp_mono (h.anyStep _) (fun _ b' _ => hskip _ rfl rfl b') fun _ _ _ => trivial

/-! ### Runs -/

/-- One step, with its record. -/
theorem wp_pendingStep (i : EpInput) (s : PendingRun) {Q : Unit → PendingRun → Prop}
    {E : EpFault → PendingRun → Prop} : wp (pendingStep i) Q E s ↔
      wp (epStep i) (fun _ b => Q () (s.after i b)) (fun err _ => E err s) s.base := by
  simp only [pendingStep, wp_bind, wp_get]
  unfold wp
  cases epStep i s.base <;> rfl

/-- The invariant of a run in which no linked timer fires. -/
structure Unfired (s : PendingRun) : Prop where
  nodes : Nodes s.base
  synced : Synced (registry s.base)
  fired : ∀ t, (registry s.base).linked (.timer t) = true → s.fired t = false

theorem unfired_init : Unfired {} :=
  ⟨nodes_init, fun _ _ hv => absurd hv.symm (Option.some_ne_none _), fun _ _ => rfl⟩

/-- The flag and the list, as `ep_timer_pending` and the code see them. -/
theorem Nodes.pendingOk_iff {s : PendingRun} (h : Nodes s.base) : PendingOk s ↔
    ∀ t v, (registry s.base).timers t = some v →
      (v = true ↔ (registry s.base).linked (.timer t) = true ∧ s.fired t = false) := by
  unfold PendingOk
  constructor
  · intro hok t v hv
    obtain ⟨tm, ht, rfl⟩ := Option.map_eq_some_iff.mp hv
    have h1 := hok t (by rw [ht]; rfl)
    simp only [epTimerPending, wp_bind, wp_getTimer, ht, wp_pure] at h1
    have h2 : tm.pending = true ↔ _ := h1
    rw [h2, h.linked_iff]
  · intro hok t hlive
    obtain ⟨tm, ht⟩ := Option.isSome_iff_exists.mp hlive
    simp only [epTimerPending, wp_bind, wp_getTimer, ht, wp_pure]
    have hv : (registry s.base).timers t = some tm.pending := by
      show (s.base.timers t).map _ = _
      rw [ht]
      rfl
    rw [hok t tm.pending hv, h.linked_iff]

theorem Unfired.pendingOk {s : PendingRun} (h : Unfired s) : PendingOk s := by
  refine h.nodes.pendingOk_iff.mpr fun t v hv => ?_
  rw [h.synced t v hv]
  exact ⟨fun hl => ⟨hl, h.fired t hl⟩, And.left⟩

/-- A step that fires no timer keeps the flags right. -/
theorem Unfired.step {s : PendingRun} {i : EpInput} (h : Unfired s)
    (hG : firesTimer s.base i = false) :
    wp (pendingStep i) (fun _ => Unfired) (fun _ _ => True) s := by
  rw [wp_pendingStep]
  have hall := wp_and (h.nodes.anyStep i) (wp_and (h.nodes.registry_step i) (h.nodes.fires_iff i))
  refine wp_mono hall ?_ fun _ _ _ => trivial
  rintro _ b' ⟨hnodes, hstep, hfires⟩
  have hno : ∀ t, (begins s.base i b').map Callback.owner = some (.timer t) →
      (registry s.base).linked (.timer t) = false := by
    intro t ht
    by_contra hl
    have hf := hfires.mpr ⟨t, ht, Bool.not_eq_false _ ▸ hl⟩
    rw [hG] at hf
    exact Bool.false_ne_true hf
  refine ⟨hnodes, h.synced.step (timersListed s.base) hstep hno, fun t hl => ?_⟩
  have hl' : (registry b').linked (.timer t) = true := hl
  show (if (begins s.base i b').map Callback.owner = some (.timer t) then true else _) = false
  have hnot : (begins s.base i b').map Callback.owner ≠ some (.timer t) := by
    intro ht
    rw [ht] at hstep
    exact absurd (hstep.fires.2.symm.trans hl') Bool.false_ne_true
  rw [if_neg hnot]
  rcases hstep.linked_timer hl' with hold | ⟨millsec, hact⟩
  · split
    · rw [h.fired t hold, Bool.false_and]
    · exact h.fired t hold
  · -- it has been added by this step, which forgets that it fired
    rw [hact]
    simp

/-- When a timer fires its flag stays set. -/
theorem Unfired.breaks {s : PendingRun} {i : EpInput} (h : Unfired s)
    (hG : firesTimer s.base i = true) :
    wp (pendingStep i) (fun _ s' => ¬PendingOk s') (fun _ _ => True) s := by
  rw [wp_pendingStep]
  have hall := wp_and (h.nodes.anyStep i) (wp_and (h.nodes.registry_step i) (h.nodes.fires_iff i))
  refine wp_mono hall ?_ fun _ _ _ => trivial
  rintro _ b' ⟨hnodes, hstep, hfires⟩
  obtain ⟨t, ht, hlinked⟩ := hfires.mp hG
  rw [ht] at hstep
  obtain ⟨htimers, hout⟩ := hstep.fires
  -- it was linked, so it exists and its flag is set
  obtain ⟨v, hv⟩ : ∃ v, (registry s.base).timers t = some v := by
    cases hv : (registry s.base).timers t with
    | none =>
      rw [timersListed s.base t hv] at hlinked
      exact absurd hlinked Bool.false_ne_true
    | some v => exact ⟨v, rfl⟩
  have htrue : v = true := (h.synced t v hv).trans hlinked
  intro hok
  have hbad := (hnodes.pendingOk_iff (s := s.after i b')).mp hok t v (by rw [← hv, ← htimers]; rfl)
  have hl := (hbad.mp htrue).1
  exact absurd (hout.symm.trans hl) Bool.false_ne_true

/-- **The flag of a timer** agrees with the list all along a run in which no timer fires, and in no other
run that does not fault. -/
theorem always_pendingOk_iff (is : List EpInput) :
    (Meets pendingStep (fun s i => firesTimer s.base i = false) is {} →
      Always pendingStep PendingOk is {}) ∧
      (Completes pendingStep is {} → Always pendingStep PendingOk is {} →
        Meets pendingStep (fun s i => firesTimer s.base i = false) is {}) := by
  have hstep : ∀ s i, Unfired s → firesTimer s.base i = false →
      wp (pendingStep i) (fun _ => Unfired) (fun _ _ => True) s := fun _ _ h hG => h.step hG
  refine ⟨fun hG => hG.always hstep (fun _ h => h.pendingOk) unfired_init, fun hend hok => ?_⟩
  refine Always.meets hstep (fun s i h hG => ?_) unfired_init hend hok
  exact h.breaks (Bool.not_eq_false _ ▸ hG)

/-- A timer is added, deleted, and added again, and a check comes before its deadline. -/
def deletedTimer : List EpInput :=
  [⟨1000000, .timerNew⟩, ⟨1000000, .timerAdd 0 1000⟩, ⟨1000500, .timerDel 0⟩,
    ⟨1000500, .timerAdd 0 1000⟩, ⟨1001000, .check⟩]

/-- A timer that is deleted before it is due can be added again. -/
theorem always_pendingOk_deleted : Always pendingStep PendingOk deletedTimer {} ∧
    Meets pendingStep (fun s i => firesTimer s.base i = false) deletedTimer {} :=
  have hok : Always pendingStep PendingOk deletedTimer {} :=
    (always_pendingOk_iff deletedTimer).1 (by decide +kernel)
  ⟨hok, (always_pendingOk_iff deletedTimer).2 (by unfold Completes; decide +kernel) hok⟩

/-- A timer that has fired is pending for `ep_timer_pending`. -/
theorem not_always_pendingOk : ¬∀ is : List EpInput, Always pendingStep PendingOk is {} := by
  intro h
  have h1 := h [⟨1000000, .timerNew⟩, ⟨1000000, .timerAdd 0 1000⟩, ⟨1002000, .check⟩]
    _ List.prefix_rfl
  have h2 : wp (run pendingStep
      [⟨1000000, .timerNew⟩, ⟨1000000, .timerAdd 0 1000⟩, ⟨1002000, .check⟩])
      (fun _ s => s.base.timers 0 = some { info := some 0, pending := true } ∧ s.fired 0 = true)
      (fun _ _ => False) {} := by
    decide +kernel
  obtain ⟨-, s, hok, ht, hf⟩ :=
    exists_of_wp (wp_mono (wp_and h1 h2) (fun _ _ => id) fun _ _ h => h.2)
  have h3 := hok 0 (by rw [ht]; rfl)
  simp only [epTimerPending, wp_bind, wp_getTimer, ht, wp_pure, hf] at h3
  exact absurd (h3.mp trivial).2 (by decide)

end H2ClientProxy.Ep
