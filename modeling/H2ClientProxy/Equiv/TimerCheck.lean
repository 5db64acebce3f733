import H2ClientProxy.Equiv.Nodes

/-!
# The cursor of `ep_timer_check`

`ep_timer_check` saves the next entry of `list_timers` before it calls back, and goes on with it when
the callback returns.  The callback may have unlinked or freed just this entry.

* `EpBase.stale`: the entries that the loop has gone on with when they were not linked.
* `journal`: which entries a run arms, which it calls back, and whether these were linked.
* `wp_run_checkSafe`: as long as the saved entry is linked when a callback returns, the loop never goes
  on with one that is not, calls back linked entries alone, and each at most once per arming.
* `not_checkSafe`: the callback of one timer that frees the next one.
-/

namespace H2ClientProxy.Ep

open Wp Machine Wrap32

variable {b b' : EpBase} {k : InfoId} {info : TimerInfo}

/-! ### What a step arms and calls -/

/-- The file that is armed again after the callback with the cursor `cursor`. -/
def rearmedFile (b : EpBase) (cursor : Cursor) : Option File :=
  match cursor.callback with
  | .timer _ => none
  | .file _ fd => ((b.files fd).file.bind b.epFiles).filter fun file => file.timeout ≥ 0

/-- The entry that a step arms: the node for which `ep_timer_info_add` starts a new period. -/
def arms (b : EpBase) (i : EpInput) : Option InfoId :=
  match i.act with
  | .timerAdd t _ => (b.timers t).bind fun tm => addsNode b tm.info
  | .fileDetect f what timeout => (b.epFiles f).bind fun file => detectsNode file b what timeout
  | .ret => (b.checking.bind (rearmedFile b)).bind fun file => addsNode b file.timerInfo
  | _ => none

/-- What the callback belongs to. -/
def Callback.owner : Callback → InfoOwner
  | .timer t => .timer t
  | .file f _ => .file f

/-- The step runs the loop of `ep_timer_check`. -/
def runsLoop (b : EpBase) (i : EpInput) : Bool :=
  match i.act with
  | .check => b.checking.isNone
  | .ret => true
  | _ => false

/-- The callback that a step begins. -/
def begins (b : EpBase) (i : EpInput) (b' : EpBase) : Option Callback :=
  if runsLoop b i then b'.checking.map Cursor.callback else none

/-- What happens to the entries of the list. -/
inductive Note where
  | armed (k : InfoId)
  /-- A callback begins of the timer or file with the node `k`; `linked` says whether this node was
  linked just before. -/
  | called (k : Option InfoId) (linked : Bool)
  deriving DecidableEq, Repr

/-- The notes of one step, in order. -/
def notes (b : EpBase) (i : EpInput) (b' : EpBase) : List Note :=
  (arms b i).toList.map .armed ++
    (begins b i b').toList.map fun callback =>
      let node := pointsTo b' callback.owner
      .called node (node.any fun k => k ∈ b.listTimers ∨ arms b i = some k)

/-- The notes of a run, up to a fault. -/
def journal : List EpInput → EpBase → List Note
  | [], _ => []
  | i :: is, b =>
    match epStep i b with
    | .ok _ b' => notes b i b' ++ journal is b'
    | .error _ _ => []

/-- How often an entry was armed. -/
def armings (k : InfoId) (l : List Note) : ℕ := l.count (.armed k)

/-- How often an entry was called back. -/
def callings (k : InfoId) (l : List Note) : ℕ :=
  l.countP fun
    | .called k' _ => k' = some k
    | .armed _ => false

/-- What is claimed of the notes of a run: only linked entries are called back, and each at most once
per arming. -/
structure CallsOk (l : List Note) : Prop where
  linked : ∀ k linked, .called k linked ∈ l → linked = true
  once : ∀ k, callings k l ≤ armings k l

/-- The list ends at `pos`, or there is an entry `p` is true of. -/
def ListPos.all (pos : ListPos) (p : InfoId → Bool) : Bool :=
  match pos with
  | .head => true
  | .entry k => p k
  | .poison => false

/-- The condition: when a callback returns, the entry that the loop will go on with is linked, or is
linked again when the file of the callback is armed. -/
def cursorLinked (b : EpBase) (i : EpInput) : Bool :=
  match i.act with
  | .ret => b.checking.all fun cursor =>
    cursor.temp.all fun k => k ∈ b.listTimers ∨ arms b i = some k
  | _ => true

/-! ### The loop -/

/-- The loop does not call back, or it calls back the entry it is at, which is unlinked then. -/
structure Looped (b : EpBase) (pos : ListPos) (b' : EpBase) : Prop where
  nodes : Nodes b'
  stale : b'.stale = b.stale
  mem : ∀ k ∈ b'.listTimers, k ∈ b.listTimers
  called : ∀ cursor, b'.checking = some cursor → ∃ k, pos = .entry k ∧
    pointsTo b' cursor.callback.owner = some k ∧ k ∉ b'.listTimers

/-- What the loop has come to does not matter to the nodes. -/
theorem Nodes.visit (h : Nodes b) (k : InfoId) : Nodes (b.visit k) :=
  h.of_eq rfl rfl rfl (pointsTo_congr rfl rfl) h.freshTimer h.freshFile

theorem Nodes.stop (h : Nodes b) : Nodes (b.setChecking none) :=
  h.of_eq rfl rfl rfl (pointsTo_congr rfl rfl) h.freshTimer h.freshFile

/-- An entry that is due is unlinked, and its owner is called back. -/
theorem Nodes.fire (h : Nodes b) (hk : b.infos k = some info) (ms : ℤ) (temp : ListPos) :
    wp (fireInfo ms k info temp)
      (fun _ b' => Nodes b' ∧ ∃ callback, callback.owner = info.owner ∧
        b' = (b.unlink k info).setChecking (some ⟨ms, callback, temp⟩))
      (fun _ _ => False) b := by
  obtain ⟨hu, -⟩ := h.unlink hk
  have hcalled : ∀ cursor, Nodes ((b.unlink k info).setChecking cursor) := fun cursor =>
    hu.nodes.of_eq rfl rfl rfl (pointsTo_congr rfl rfl) hu.nodes.freshTimer hu.nodes.freshFile
  have hown := h.owner k info hk
  simp only [wp_fireInfo, hk]
  cases ho : info.owner with
  | timer t => exact ⟨hcalled _, .timer t, rfl, rfl⟩
  | file f =>
    rw [ho, pointsTo, Option.bind_eq_some_iff] at hown
    obtain ⟨file, hf, -⟩ := hown
    simp only [hf]
    exact ⟨hcalled _, .file f file.fd, rfl, rfl⟩

theorem Nodes.checkAt (h : Nodes b) (ms : ℤ) {pos : ListPos}
    (hpos : pos.all (fun k => k ∈ b.listTimers) = true) :
    wp (checkAt ms pos) (fun _ => Looped b pos) (fun _ _ => False) b := by
  cases pos with
  | poison => exact Bool.noConfusion hpos
  | head =>
    exact ⟨h.stop, rfl, fun _ => id, fun _ hc => absurd hc.symm (Option.some_ne_none _)⟩
  | entry k =>
    have hmem : k ∈ b.listTimers := of_decide_eq_true hpos
    have hstale : (b.visit k).stale = b.stale := if_pos hmem
    obtain ⟨info, hk, hp⟩ := (h.linked k).mp hmem
    have hv := h.visit k
    simp only [wp_checkAt_entry, hk]
    split_ifs
    · -- the first entry that is not due ends the loop
      exact ⟨hv.stop, hstale, fun _ => id, fun _ hc => absurd hc.symm (Option.some_ne_none _)⟩
    · -- the entry is taken out before its owner is called back
      obtain ⟨hu, hlist⟩ := hv.unlink hk
      obtain ⟨htimers, hfiles, -⟩ := unlink_frame (b.visit k) k info
      refine wp_mono (hv.fire hk ms _) ?_ fun _ _ => id
      rintro _ _ ⟨hn, callback, ho, rfl⟩
      refine ⟨hn, hu.loop.stale.trans hstale, fun j hj => ?_, fun cursor hc => ⟨k, rfl, ?_, ?_⟩⟩
      · exact (hu.mem j hj).resolve_right (Option.some_ne_none j).symm
      · obtain rfl := Option.some.inj hc
        have hpt : pointsTo ((b.visit k).unlink k info) = pointsTo b :=
          pointsTo_congr htimers hfiles
        show pointsTo ((b.visit k).unlink k info) callback.owner = some k
        rw [hpt, ho]
        exact h.owner k info hk
      · show k ∉ ((b.visit k).unlink k info).listTimers
        rw [hlist]
        exact h.nodup.not_mem_erase

/-- The file of a callback is armed again. -/
theorem Nodes.rearmFile (h : Nodes b) (fd : Fd) :
    wp (rearmFile fd)
      (fun _ b' => Nodes b' ∧ SameLoop b b' ∧ ∀ k, k ∈ b'.listTimers ↔
        k ∈ b.listTimers ∨ (((b.files fd).file.bind b.epFiles).filter
          fun file => file.timeout ≥ 0).bind (fun file => addsNode b file.timerInfo) = some k)
      (fun e b' => b' = b ∧ ∃ f, e = .fileFreed f) b := by
  have hnone : ∀ k : InfoId, k ∈ b.listTimers ↔ k ∈ b.listTimers ∨ (none : Option InfoId) = some k :=
    fun k => ⟨Or.inl, fun hk => hk.resolve_right (Option.some_ne_none k).symm⟩
  simp only [Ep.rearmFile, wp_bind, wp_get]
  cases hslot : (b.files fd).file with
  | none => exact ⟨h, ⟨rfl, rfl⟩, hnone⟩
  | some f =>
    simp only [wp_bind, wp_getFile, Option.bind_some]
    cases hf : b.epFiles f with
    | none => exact ⟨trivial, f, rfl⟩
    | some file =>
      simp only [wp_ite, wp_bind, wp_pure]
      split_ifs with htime
      · -- the node may have to be made first
        rw [Option.filter_some, if_pos (decide_eq_true htime)]
        simp only [Option.bind_some]
        refine wp_mono (h.fileInfo hf) ?_ fun _ _ => False.elim
        rintro k b1 ⟨h1, hc1, hl1, rfl, ⟨info, hk⟩, hu⟩
        simp only [wp_epTimerInfoAdd, hk]
        obtain ⟨h2, hc2, -⟩ := h1.link hk file.timeout
        refine ⟨h2, hc1.trans hc2, fun j => ?_⟩
        rw [h1.link_mem_iff hk, hl1]
        have hadds : addsNode b1 (some (armedNode b file.timerInfo)) = addsNode b file.timerInfo := by
          unfold addsNode
          rw [hu]
          rfl
        rw [hadds]
      · rw [Option.filter_some, if_neg fun h => htime (of_decide_eq_true h)]
        exact ⟨h, ⟨rfl, rfl⟩, hnone⟩

/-! ### Steps -/

/-- What a step does to the entries: only what it arms is linked, and what it calls back was linked, or
has just been armed, and is not linked any more. -/
structure Stepped (b : EpBase) (i : EpInput) (b' : EpBase) : Prop where
  nodes : Nodes b'
  stale : b'.stale = b.stale
  mem : ∀ k ∈ b'.listTimers, k ∈ b.listTimers ∨ arms b i = some k
  called : ∀ callback, begins b i b' = some callback → ∃ k,
    pointsTo b' callback.owner = some k ∧ (k ∈ b.listTimers ∨ arms b i = some k) ∧
      k ∉ b'.listTimers

/-- A step outside of the loop. -/
theorem Adds.stepped {i : EpInput} (h : Adds b (arms b i) b') (hi : runsLoop b i = false) :
    Stepped b i b' := by
  refine ⟨h.nodes, h.loop.stale, h.mem, fun callback hc => ?_⟩
  rw [begins, hi] at hc
  exact absurd hc.symm (Option.some_ne_none _)

/-- A step that links nothing. -/
theorem Adds.stepped_none {i : EpInput} (h : Adds b none b') (hi : runsLoop b i = false) :
    Stepped b i b' :=
  Adds.stepped ⟨h.nodes, h.loop,
    fun k hk => Or.inl ((h.mem k hk).resolve_right (Option.some_ne_none k).symm)⟩ hi

/-- A step of the loop, after a file may have been armed again in `b1`. -/
theorem Looped.stepped {i : EpInput} {b1 : EpBase} {pos : ListPos} (h : Looped b1 pos b')
    (hstale : b1.stale = b.stale)
    (hmem : ∀ k, k ∈ b1.listTimers ↔ k ∈ b.listTimers ∨ arms b i = some k)
    (hpos : pos.all (fun k => k ∈ b1.listTimers) = true) : Stepped b i b' := by
  refine ⟨h.nodes, h.stale.trans hstale, fun k hk => (hmem k).mp (h.mem k hk), fun callback hc => ?_⟩
  unfold begins at hc
  split_ifs at hc
  obtain ⟨cursor, hcur, rfl⟩ := Option.map_eq_some_iff.mp hc
  obtain ⟨k, rfl, hpt, hout⟩ := h.called cursor hcur
  exact ⟨k, hpt, (hmem k).mp (of_decide_eq_true hpos), hout⟩

/-- The callback returns, and the loop goes on. -/
theorem Nodes.checkRet (h : Nodes b) (now : ℤ) (hG : cursorLinked b ⟨now, .ret⟩ = true) :
    wp epTimerCheckRet (fun _ => Stepped b ⟨now, .ret⟩)
      (fun e b' => b' = b ∧ ∃ f, e = .fileFreed f) b := by
  simp only [epTimerCheckRet, wp_bind, wp_get]
  cases hc : b.checking with
  | none =>
    refine ⟨h, rfl, fun _ => Or.inl, fun callback hb => ?_⟩
    rw [begins, hc] at hb
    exact absurd hb.symm (Option.some_ne_none _)
  | some cursor =>
    have harms : arms b ⟨now, .ret⟩ =
        (rearmedFile b cursor).bind fun file => addsNode b file.timerInfo := by
      rw [arms, hc, Option.bind_some]
    -- the saved entry is linked once the file has been armed
    have hpos : ∀ b1 : EpBase,
        (∀ k, k ∈ b1.listTimers ↔ k ∈ b.listTimers ∨ arms b ⟨now, .ret⟩ = some k) →
        cursor.temp.all (fun k => k ∈ b1.listTimers) = true := by
      intro b1 hmem
      rw [cursorLinked, hc, Option.all_some] at hG
      revert hG
      cases cursor.temp with
      | head => exact id
      | entry k => exact fun hk => decide_eq_true ((hmem k).mpr (of_decide_eq_true hk))
      | poison => exact id
    cases hcb : cursor.callback with
    | timer t =>
      have hmem : ∀ k, k ∈ b.listTimers ↔ k ∈ b.listTimers ∨ arms b ⟨now, .ret⟩ = some k := by
        intro k
        rw [harms, rearmedFile, hcb]
        exact ⟨Or.inl, fun hk => hk.resolve_right (Option.some_ne_none k).symm⟩
      simp only [hcb]
      exact wp_mono (h.checkAt cursor.ms (hpos b hmem))
        (fun _ _ h' => h'.stepped rfl hmem (hpos b hmem)) fun _ _ => False.elim
    | file f fd =>
      simp only [hcb, wp_bind]
      refine wp_mono (h.rearmFile fd) ?_ fun _ _ => id
      rintro _ b1 ⟨h1, hloop1, hl1⟩
      have hmem : ∀ k, k ∈ b1.listTimers ↔ k ∈ b.listTimers ∨ arms b ⟨now, .ret⟩ = some k := by
        intro k
        rw [harms, rearmedFile, hcb]
        exact hl1 k
      exact wp_mono (h1.checkAt cursor.ms (hpos b1 hmem))
        (fun _ _ h' => h'.stepped hloop1.stale hmem (hpos b1 hmem)) fun _ _ => False.elim

/-- **One step.**  The loop goes on with linked entries alone; the only fault left is that the slot of
a descriptor holds a file that has been freed. -/
theorem Nodes.step (h : Nodes b) {i : EpInput} (hG : cursorLinked b i = true) :
    wp (epStep i) (fun _ => Stepped b i)
      (fun e b' => b'.stale = b.stale ∧ ∃ f, e = .fileFreed f) b := by
  obtain ⟨now, act⟩ := i
  have h0 : Nodes { b with now := now } :=
    h.of_eq rfl rfl rfl (pointsTo_congr rfl rfl) h.freshTimer h.freshFile
  have hsame : Adds b none { b with now := now } := .of_list h0 ⟨rfl, rfl⟩ rfl
  simp only [epStep, wp_bind, wp_modify]
  cases act with
  | timerNew =>
    simp only [epHandle, wp_bind, wp_pure]
    exact wp_mono h0.timerNew (fun _ _ h' => (hsame.trans h').stepped_none rfl) fun _ _ => False.elim
  | timerAdd t millsec =>
    simp only [epHandle, wp_bind, wp_get, wp_ite, wp_pure]
    split_ifs with hl
    · obtain ⟨tm, ht⟩ := Option.isSome_iff_exists.mp hl
      refine wp_mono (h0.timerAdd ht millsec) (fun _ b' h' => ?_) fun _ _ => False.elim
      have harms : arms b ⟨now, .timerAdd t millsec⟩ = addsNode b tm.info := by
        show (b.timers t).bind (fun tm => addsNode b tm.info) = _
        rw [show b.timers t = some tm from ht, Option.bind_some]
      exact Adds.stepped (harms ▸ hsame.trans h') rfl
    · exact hsame.stepped_none rfl
  | timerDel t =>
    simp only [epHandle, wp_bind, wp_get, wp_ite, wp_pure]
    split_ifs with hl
    · obtain ⟨tm, ht⟩ := Option.isSome_iff_exists.mp hl
      exact wp_mono (h0.timerDel ht) (fun _ _ h' => (hsame.trans h').stepped_none rfl)
        fun _ _ => False.elim
    · exact hsame.stepped_none rfl
  | timerFree t =>
    simp only [epHandle, wp_bind, wp_get, wp_ite, wp_pure]
    split_ifs with hl
    · obtain ⟨tm, ht⟩ := Option.isSome_iff_exists.mp hl
      exact wp_mono (h0.timerFree ht) (fun _ _ h' => (hsame.trans h').stepped_none rfl)
        fun _ _ => False.elim
    · exact hsame.stepped_none rfl
  | fileCreate fd =>
    simp only [epHandle, wp_bind, wp_pure]
    exact wp_mono (h0.fileCreate fd) (fun _ _ h' => (hsame.trans h').stepped_none rfl)
      fun _ _ => False.elim
  | fileDetect f what timeout =>
    simp only [epHandle, wp_bind, wp_get, wp_ite, wp_pure]
    split_ifs with hl
    · obtain ⟨file, hf⟩ := Option.isSome_iff_exists.mp hl
      refine wp_mono (h0.fileDetect hf what timeout) (fun _ b' h' => ?_) fun _ _ => False.elim
      have harms : arms b ⟨now, .fileDetect f what timeout⟩ = detectsNode file b what timeout := by
        show (b.epFiles f).bind (fun file => detectsNode file b what timeout) = _
        rw [show b.epFiles f = some file from hf, Option.bind_some]
      exact Adds.stepped (harms ▸ hsame.trans h') rfl
    · exact hsame.stepped_none rfl
  | fileFree f =>
    simp only [epHandle, wp_bind, wp_get, wp_ite, wp_pure]
    split_ifs with hl
    · obtain ⟨file, hf⟩ := Option.isSome_iff_exists.mp hl
      exact wp_mono (h0.fileFree hf) (fun _ _ h' => (hsame.trans h').stepped_none rfl)
        fun _ _ => False.elim
    · exact hsame.stepped_none rfl
  | check =>
    simp only [epHandle, wp_bind, wp_get, wp_ite, wp_pure]
    split_ifs with hl
    · simp only [epTimerCheck, wp_bind, wp_get]
      have hpos : (ListPos.ofOption b.listTimers.head?).all (fun k => k ∈ b.listTimers) = true := by
        cases hl : b.listTimers with
        | nil => rfl
        | cons k rest => exact decide_eq_true List.mem_cons_self
      have hmem : ∀ k, k ∈ b.listTimers ↔ k ∈ b.listTimers ∨ arms b ⟨now, .check⟩ = some k :=
        fun k => ⟨Or.inl, fun hk => hk.resolve_right (Option.some_ne_none k).symm⟩
      exact wp_mono (h0.checkAt now hpos) (fun _ _ h' => h'.stepped rfl hmem hpos)
        fun _ _ => False.elim
    · have hloop : runsLoop b ⟨now, .check⟩ = false := Bool.not_eq_true _ ▸ hl
      exact hsame.stepped_none hloop
  | ret =>
    -- the clock is not read
    have hret := h0.checkRet now hG
    refine wp_mono hret (fun _ _ h' => ⟨h'.nodes, h'.stale, h'.mem, h'.called⟩) ?_
    rintro _ _ ⟨rfl, hf⟩
    exact ⟨rfl, hf⟩

/-! ### Runs -/

/-- Whether an entry is linked, as a number. -/
def linkedCount (b : EpBase) (k : InfoId) : ℕ := if k ∈ b.listTimers then 1 else 0

theorem armings_append (k : InfoId) (l l' : List Note) :
    armings k (l ++ l') = armings k l + armings k l' := List.count_append ..

theorem callings_append (k : InfoId) (l l' : List Note) :
    callings k (l ++ l') = callings k l + callings k l' := List.countP_append ..

/-- The notes of one step balance: whoever is called or linked afterwards was linked before, or has
been armed. -/
theorem Stepped.balance {i : EpInput} (h : Stepped b i b') (k : InfoId) :
    callings k (notes b i b') + linkedCount b' k ≤ linkedCount b k + armings k (notes b i b') := by
  have harmed : armings k (notes b i b') = if arms b i = some k then 1 else 0 := by
    have hno : armings k ((begins b i b').toList.map fun callback =>
        let node := pointsTo b' callback.owner
        Note.called node (node.any fun k => k ∈ b.listTimers ∨ arms b i = some k)) = 0 := by
      refine List.count_eq_zero.mpr fun hmem => ?_
      obtain ⟨_, -, he⟩ := List.mem_map.mp hmem
      exact Note.noConfusion he
    rw [notes, armings_append, hno, Nat.add_zero]
    cases arms b i with
    | none => rfl
    | some j => simp [armings, List.count_cons]
  have hcalled : callings k (notes b i b') =
      if (begins b i b').bind (fun callback => pointsTo b' callback.owner) = some k then 1 else 0 := by
    have hno : callings k ((arms b i).toList.map Note.armed) = 0 := by
      cases arms b i <;> rfl
    rw [notes, callings_append, hno, Nat.zero_add]
    cases begins b i b' with
    | none => rfl
    | some callback => simp [callings, List.countP_cons]
  rw [harmed, hcalled]
  unfold linkedCount
  cases hb : begins b i b' with
  | none =>
    -- no callback: who is linked now was linked or is armed by this step
    have hmem := h.mem k
    rw [Option.bind_none, if_neg (Option.some_ne_none k).symm]
    by_cases hk : k ∈ b'.listTimers
    · rcases hmem hk with hk0 | ha
      · rw [if_pos hk, if_pos hk0]
        omega
      · rw [if_pos hk, if_pos ha]
        omega
    · rw [if_neg hk]
      omega
  | some callback =>
    -- a callback uses up the place in the list of the entry it is for
    obtain ⟨j, hpt, hj, hout⟩ := h.called callback hb
    rw [Option.bind_some, hpt]
    by_cases hjk : j = k
    · subst hjk
      rw [if_pos rfl, if_neg hout]
      rcases hj with hj | hj
      · rw [if_pos hj]
        omega
      · rw [if_pos hj]
        omega
    · rw [if_neg fun he => hjk (Option.some.inj he)]
      by_cases hk : k ∈ b'.listTimers
      · rcases h.mem k hk with hk0 | ha
        · rw [if_pos hk, if_pos hk0]
          omega
        · rw [if_pos hk, if_pos ha]
          omega
      · rw [if_neg hk]
        omega

/-- A step calls back linked entries alone. -/
theorem Stepped.called_linked {i : EpInput} (h : Stepped b i b') {node : Option InfoId}
    {linked : Bool} (hmem : .called node linked ∈ notes b i b') : linked = true := by
  rcases List.mem_append.mp hmem with hmem | hmem
  · obtain ⟨_, -, he⟩ := List.mem_map.mp hmem
    exact Note.noConfusion he
  · obtain ⟨callback, hb, he⟩ := List.mem_map.mp hmem
    obtain ⟨k, hpt, hk, -⟩ := h.called callback (Option.mem_toList.mp hb)
    obtain ⟨-, hl⟩ := Note.called.inj he
    rw [← hl, hpt, Option.any_some]
    exact decide_eq_true hk

/-- The notes of a run balance, from any state. -/
theorem Nodes.journal (h : Nodes b) {is : List EpInput}
    (hG : Meets epStep (fun b i => cursorLinked b i = true) is b) :
    (∀ node linked, .called node linked ∈ journal is b → linked = true) ∧
      ∀ k, callings k (journal is b) ≤ linkedCount b k + armings k (journal is b) := by
  induction is generalizing b with
  | nil => exact ⟨fun _ _ hmem => absurd hmem List.not_mem_nil, fun k => Nat.zero_le _⟩
  | cons i is ih =>
    obtain ⟨hGi, hrest⟩ := meets_cons.mp hG
    have hstep := h.step hGi
    cases hres : epStep i b with
    | error e b' =>
      -- the run stops, and nothing is noted any more
      have hj : Ep.journal (i :: is) b = [] := by rw [Ep.journal, hres]
      rw [hj]
      exact ⟨fun _ _ hmem => absurd hmem List.not_mem_nil, fun k => Nat.zero_le _⟩
    | ok u b' =>
      rw [wp_of_ok hres] at hstep hrest
      obtain ⟨hlinked, hcount⟩ := ih hstep.nodes hrest
      have hj : Ep.journal (i :: is) b = notes b i b' ++ Ep.journal is b' := by
        rw [Ep.journal, hres]
      rw [hj]
      refine ⟨fun node linked hmem => ?_, fun k => ?_⟩
      · rcases List.mem_append.mp hmem with hmem | hmem
        · exact hstep.called_linked hmem
        · exact hlinked node linked hmem
      · -- the step balances, and so does the rest of the run
        have h1 := hstep.balance k
        have h2 := hcount k
        rw [callings_append, armings_append]
        omega

/-- **`ep_timer_check` calls back linked entries alone, each at most once per arming, and never goes on
with an entry that is not linked**, in every run in which the saved entry is linked whenever a callback
returns.  Such a run can stop only because the slot of a descriptor holds a file that has been freed. -/
theorem wp_run_checkSafe (is : List EpInput)
    (hG : Meets epStep (fun b i => cursorLinked b i = true) is .init) :
    wp (run epStep is) (fun _ b => b.stale = [])
        (fun e b => b.stale = [] ∧ ∃ f, e = .fileFreed f) .init ∧
      CallsOk (journal is .init) := by
  have hstep : ∀ b i, Nodes b ∧ b.stale = [] → cursorLinked b i = true →
      wp (epStep i) (fun _ b => Nodes b ∧ b.stale = [])
        (fun e b => b.stale = [] ∧ ∃ f, e = .fileFreed f) b := by
    rintro b i ⟨h, h0⟩ hGi
    exact wp_mono (h.step hGi) (fun _ _ h' => ⟨h'.nodes, h'.stale.trans h0⟩)
      fun _ _ h' => ⟨h'.1.trans h0, h'.2⟩
  constructor
  · exact wp_mono (run_wp hstep is .init ⟨nodes_init, rfl⟩ hG) (fun _ _ h => h.2) fun _ _ => id
  · obtain ⟨hlinked, hcount⟩ := nodes_init.journal hG
    refine ⟨hlinked, fun k => ?_⟩
    have hk := hcount k
    have h0 : linkedCount .init k = 0 := if_neg List.not_mem_nil
    omega

/-- A timer and a file with a timeout are both due; the callback of the timer arms it again, and the file
is armed again after its callback. -/
def checkedTimers : List EpInput :=
  [⟨1000000, .timerNew⟩, ⟨1000000, .fileCreate 5⟩, ⟨1000000, .fileDetect 0 EP_READ 1000⟩,
    ⟨1000000, .timerAdd 0 1000⟩, ⟨1002000, .check⟩, ⟨1002000, .timerAdd 0 1000⟩, ⟨1002000, .ret⟩,
    ⟨1002000, .ret⟩]

/-- Each of the two callbacks is called once. -/
theorem wp_run_checkSafe_both :
    (wp (run epStep checkedTimers) (fun _ b => b.stale = [])
        (fun e b => b.stale = [] ∧ ∃ f, e = .fileFreed f) .init ∧
      CallsOk (journal checkedTimers .init)) ∧
      (callings 0 (journal checkedTimers .init) = 1 ∧ callings 1 (journal checkedTimers .init) = 1) :=
  ⟨wp_run_checkSafe _ (by decide +kernel), by decide +kernel⟩

/-- In general the saved entry may be gone: two timers are due, and the callback of the first one frees
the second one. -/
theorem not_checkSafe : ¬ ∀ is : List EpInput,
    wp (run epStep is) (fun _ b => b.stale = []) (fun _ b => b.stale = []) .init ∧
      CallsOk (journal is .init) := by
  intro h
  have h1 := (h [⟨1000000, .timerNew⟩, ⟨1000000, .timerNew⟩, ⟨1000000, .timerAdd 0 1000⟩,
    ⟨1000000, .timerAdd 1 1000⟩, ⟨1002000, .check⟩, ⟨1002000, .timerFree 0⟩, ⟨1002000, .ret⟩]).1
  revert h1
  decide +kernel

/-- A callback that only unlinks the saved entry: the loop comes to it and ends there, when it is not
due. -/
example : wp (run epStep [⟨1000000, .fileCreate 5⟩, ⟨1000000, .fileCreate 6⟩,
      ⟨1000000, .fileDetect 1 EP_READ 5000⟩, ⟨1000000, .fileDetect 0 EP_READ 1000⟩,
      ⟨1002000, .check⟩, ⟨1002000, .fileDetect 1 EP_READ (-1)⟩, ⟨1002000, .ret⟩])
    (fun _ b => b.stale = [0] ∧ b.checking = none) (fun _ _ => False) .init := by
  decide +kernel

end H2ClientProxy.Ep
