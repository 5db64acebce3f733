import H2ClientProxy.Equiv.Timers

/-!
# The nodes of timers and files

An `ep_timer` and an `ep_file` point to an `ep_timer_info`, and this node points back.  Whatever the
users of `ep.c` do, and whenever they do it, nodes and their owners stay paired, and exactly the nodes
that say so are linked (`Nodes`).

* `Nodes.timerAdd`, `Nodes.fileDetect`, … : each function keeps this, does not fault, and links no
  node but the one it arms (`Adds`).
-/

namespace H2ClientProxy.Ep

open Wp Machine Wrap32

variable {b b' b1 : EpBase} {k : InfoId} {info : TimerInfo} {o : InfoOwner} {new : Option InfoId}

/-- The node that a timer or a file points to. -/
def pointsTo (b : EpBase) : InfoOwner → Option InfoId
  | .timer t => (b.timers t).bind EpTimer.info
  | .file f => (b.epFiles f).bind File.timerInfo

/-- Nodes and their owners are paired, the list holds the pending nodes, and deadlines are `int`s. -/
structure Nodes (b : EpBase) : Prop where
  node : ∀ o k, pointsTo b o = some k → ∃ info, b.infos k = some info ∧ info.owner = o
  owner : ∀ k info, b.infos k = some info → pointsTo b info.owner = some k
  linked : ∀ k, k ∈ b.listTimers ↔ ∃ info, b.infos k = some info ∧ info.pending = true
  nodup : b.listTimers.Nodup
  isInt : ∀ k info, b.infos k = some info → IsInt info.timeoutMs
  freshInfo : ∀ k, b.nextInfo ≤ k → b.infos k = none
  freshTimer : ∀ t, b.nextTimer ≤ t → b.timers t = none
  freshFile : ∀ f, b.nextFile ≤ f → b.epFiles f = none

/-- A call keeps the nodes in order, and links no entry but `new`; it does not touch the loop of
`ep_timer_check`. -/
structure Adds (b : EpBase) (new : Option InfoId) (b' : EpBase) : Prop where
  nodes : Nodes b'
  loop : SameLoop b b'
  mem : ∀ k ∈ b'.listTimers, k ∈ b.listTimers ∨ new = some k

theorem nodes_init : Nodes .init where
  node := by
    intro o k hk
    cases o <;> exact absurd hk.symm (Option.some_ne_none _)
  owner := fun _ _ h => absurd h.symm (Option.some_ne_none _)
  linked := by
    intro k
    constructor
    · exact fun h => absurd h List.not_mem_nil
    · rintro ⟨info, h, -⟩
      exact absurd h.symm (Option.some_ne_none _)
  nodup := List.nodup_nil
  isInt := fun _ _ h => absurd h.symm (Option.some_ne_none _)
  freshInfo := fun _ _ => rfl
  freshTimer := fun _ _ => rfl
  freshFile := fun _ _ => rfl

/-! ### What an owner points to -/

theorem pointsTo_setTimer (t : TimerId) (tm : Option EpTimer) :
    pointsTo (b.setTimer t tm) = Function.update (pointsTo b) (.timer t) (tm.bind EpTimer.info) := by
  funext o
  rw [Function.update_apply]
  cases o with
  | timer t' =>
    show (Function.update b.timers t tm t').bind EpTimer.info = _
    rw [Function.update_apply]
    by_cases he : t' = t
    · rw [if_pos he, if_pos (congrArg InfoOwner.timer he)]
    · rw [if_neg he, if_neg fun h => he (InfoOwner.timer.inj h)]
      rfl
  | file f => exact (if_neg (by simp)).symm

theorem pointsTo_setFile (f : FileId) (file : Option File) :
    pointsTo (b.setFile f file) =
      Function.update (pointsTo b) (.file f) (file.bind File.timerInfo) := by
  funext o
  rw [Function.update_apply]
  cases o with
  | timer t => exact (if_neg (by simp)).symm
  | file f' =>
    show (Function.update b.epFiles f file f').bind File.timerInfo = _
    rw [Function.update_apply]
    by_cases he : f' = f
    · rw [if_pos he, if_pos (congrArg InfoOwner.file he)]
    · rw [if_neg he, if_neg fun h => he (InfoOwner.file.inj h)]
      rfl

/-- The owners point to the nodes they pointed to. -/
theorem pointsTo_congr (ht : b'.timers = b.timers) (hf : b'.epFiles = b.epFiles) :
    pointsTo b' = pointsTo b := by
  funext o
  cases o with
  | timer t => rw [pointsTo, pointsTo, ht]
  | file f => rw [pointsTo, pointsTo, hf]

/-! ### Elementary changes -/

/-- A change of neither the nodes nor the list. -/
theorem Nodes.of_eq (h : Nodes b) (hi : b'.infos = b.infos) (hl : b'.listTimers = b.listTimers)
    (hn : b'.nextInfo = b.nextInfo) (hp : pointsTo b' = pointsTo b)
    (ht : ∀ t, b'.nextTimer ≤ t → b'.timers t = none)
    (hf : ∀ f, b'.nextFile ≤ f → b'.epFiles f = none) : Nodes b' where
  node := by rw [hp, hi]; exact h.node
  owner := by rw [hp, hi]; exact h.owner
  linked := by rw [hl, hi]; exact h.linked
  nodup := by rw [hl]; exact h.nodup
  isInt := by rw [hi]; exact h.isInt
  freshInfo := by rw [hn, hi]; exact h.freshInfo
  freshTimer := ht
  freshFile := hf

/-- The owner of a node does not point to another one. -/
theorem Nodes.owner_inj (h : Nodes b) (hk : b.infos k = some info) {o : InfoOwner} {j : InfoId}
    (ho : info.owner = o) (hj : pointsTo b o = some j) : j = k := by
  have hown := h.owner k info hk
  rw [ho, hj] at hown
  exact Option.some.inj hown

/-- The node `k` changes to `info'`, and the list to `l`. -/
theorem Nodes.setInfo (h : Nodes b) (hk : b.infos k = some info) (info' : TimerInfo)
    (ho : info'.owner = info.owner) (hint : IsInt info'.timeoutMs) (l : List InfoId) (hl : l.Nodup)
    (hother : ∀ j, j ≠ k → (j ∈ l ↔ j ∈ b.listTimers)) (hself : k ∈ l ↔ info'.pending = true) :
    Nodes ((b.setList l).setInfo k (some info')) where
  node := by
    intro o j hj
    obtain ⟨x, hx, hxo⟩ := h.node o j hj
    rw [EpBase.setInfo_infos, Function.update_apply]
    split_ifs with he
    · refine ⟨info', rfl, ?_⟩
      subst he
      rw [hk] at hx
      obtain rfl := Option.some.inj hx
      rw [ho, hxo]
    · exact ⟨x, hx, hxo⟩
  owner := by
    intro j x hx
    rw [EpBase.setInfo_infos, Function.update_apply] at hx
    split_ifs at hx with he
    · obtain rfl := Option.some.inj hx
      rw [he, ho]
      exact h.owner k info hk
    · exact h.owner j x hx
  linked := by
    intro j
    rw [EpBase.setInfo_infos, Function.update_apply]
    split_ifs with he
    · rw [he]
      show k ∈ l ↔ _
      rw [hself]
      constructor
      · exact fun hp => ⟨info', rfl, hp⟩
      · rintro ⟨x, hx, hp⟩
        exact Option.some.inj hx ▸ hp
    · exact (hother j he).trans (h.linked j)
  nodup := hl
  isInt := by
    intro j x hx
    rw [EpBase.setInfo_infos, Function.update_apply] at hx
    split_ifs at hx
    · obtain rfl := Option.some.inj hx
      exact hint
    · exact h.isInt j x hx
  freshInfo := by
    intro j hj
    have hne : j ≠ k := by
      rintro rfl
      exact absurd ((h.freshInfo j hj).symm.trans hk).symm (Option.some_ne_none info)
    rw [EpBase.setInfo_infos, Function.update_of_ne hne]
    exact h.freshInfo j hj
  freshTimer := h.freshTimer
  freshFile := h.freshFile

/-- A node that is not pending is not in the list. -/
theorem Nodes.not_mem (h : Nodes b) (hk : b.infos k = some info) (hp : info.pending = false) :
    k ∉ b.listTimers := by
  rw [h.linked]
  rintro ⟨x, hx, hxp⟩
  rw [hk] at hx
  obtain rfl := Option.some.inj hx
  rw [hp] at hxp
  exact Bool.false_ne_true hxp

/-- `ep_timer_info_del`. -/
theorem Nodes.unlink (h : Nodes b) (hk : b.infos k = some info) :
    Adds b none (b.unlink k info) ∧ (b.unlink k info).listTimers = b.listTimers.erase k := by
  unfold EpBase.unlink
  split_ifs with hp
  · have hself : k ∉ b.listTimers.erase k := h.nodup.not_mem_erase
    have hset := h.setInfo hk { info with pending := false } rfl (h.isInt k info hk)
      (b.listTimers.erase k) (h.nodup.erase k) (fun j hne => List.mem_erase_of_ne hne)
      ⟨fun hmem => absurd hmem hself, fun hf => absurd hf Bool.false_ne_true⟩
    exact ⟨⟨hset, ⟨rfl, rfl⟩, fun j hj => Or.inl (List.mem_of_mem_erase hj)⟩, rfl⟩
  · have hout := h.not_mem hk (Bool.not_eq_true _ ▸ hp)
    exact ⟨⟨h, ⟨rfl, rfl⟩, fun j hj => Or.inl hj⟩, (List.erase_of_not_mem hout).symm⟩

/-- `ep_timer_info_add`: afterwards the node is linked, and so are the nodes that were. -/
theorem Nodes.link (h : Nodes b) (hk : b.infos k = some info) (millsec : ℤ) :
    Nodes (b.link k info millsec) ∧ SameLoop b (b.link k info millsec) ∧
      ∀ j, j ∈ (b.link k info millsec).listTimers ↔ j = k ∨ j ∈ b.listTimers := by
  unfold EpBase.link
  split_ifs with hp
  · refine ⟨h, ⟨rfl, rfl⟩, fun j => ⟨Or.inr, ?_⟩⟩
    rintro (rfl | hj)
    · exact (h.linked j).mpr ⟨info, hk, hp⟩
    · exact hj
  · have hout := h.not_mem hk (Bool.not_eq_true _ ▸ hp)
    have hperm := insertTimer_perm b k millsec
    have hmem : ∀ j, j ∈ insertTimer b k millsec ↔ j = k ∨ j ∈ b.listTimers :=
      fun j => hperm.mem_iff.trans List.mem_cons
    refine ⟨?_, ⟨rfl, rfl⟩, hmem⟩
    refine h.setInfo hk { info with pending := true, timeoutMs := _ } rfl (isInt_wrap32 _) _ ?_ ?_ ?_
    · exact hperm.nodup_iff.mpr (List.nodup_cons.mpr ⟨hout, h.nodup⟩)
    · exact fun j hne => (hmem j).trans ⟨fun hj => hj.resolve_left hne, Or.inr⟩
    · exact ⟨fun _ => rfl, fun _ => (hmem k).mpr (Or.inl rfl)⟩

/-- An owner without a node gets a new one. -/
theorem Nodes.addNode (h : Nodes b) (ho : pointsTo b o = none)
    (hi : b'.infos = Function.update b.infos b.nextInfo (some { owner := o }))
    (hn : b'.nextInfo = b.nextInfo + 1) (hl : b'.listTimers = b.listTimers)
    (hp : pointsTo b' = Function.update (pointsTo b) o (some b.nextInfo))
    (ht : ∀ t, b'.nextTimer ≤ t → b'.timers t = none)
    (hf : ∀ f, b'.nextFile ≤ f → b'.epFiles f = none) : Nodes b' where
  node := by
    intro o' j hj
    rw [hp, Function.update_apply] at hj
    rw [hi, Function.update_apply]
    split_ifs at hj with he
    · obtain rfl := Option.some.inj hj
      rw [if_pos rfl]
      exact ⟨_, rfl, he.symm⟩
    · -- the name of the new node is not in use
      obtain ⟨x, hx, hxo⟩ := h.node o' j hj
      have hne : j ≠ b.nextInfo := by
        rintro rfl
        exact absurd (hx.symm.trans (h.freshInfo _ le_rfl)) (Option.some_ne_none x)
      rw [if_neg hne]
      exact ⟨x, hx, hxo⟩
  owner := by
    intro j x hx
    rw [hi, Function.update_apply] at hx
    rw [hp, Function.update_apply]
    split_ifs at hx with he
    · obtain rfl := Option.some.inj hx
      rw [if_pos rfl, he]
    · have hxo := h.owner j x hx
      have hne : x.owner ≠ o := by
        rintro hxo'
        rw [hxo', ho] at hxo
        exact Option.some_ne_none j hxo.symm
      rw [if_neg hne]
      exact hxo
  linked := by
    intro j
    rw [hl, hi, Function.update_apply]
    split_ifs with he
    · have hnone : b.infos j = none := h.freshInfo j he.ge
      rw [h.linked]
      constructor
      · rintro ⟨x, hx, -⟩
        exact absurd (hx.symm.trans hnone) (Option.some_ne_none x)
      · rintro ⟨x, hx, hxp⟩
        obtain rfl := Option.some.inj hx
        exact absurd hxp Bool.false_ne_true
    · exact h.linked j
  nodup := hl ▸ h.nodup
  isInt := by
    intro j x hx
    rw [hi, Function.update_apply] at hx
    split_ifs at hx
    · obtain rfl := Option.some.inj hx
      have hzero : IsInt 0 := ⟨by decide, by decide⟩
      exact hzero
    · exact h.isInt j x hx
  freshInfo := by
    intro j hj
    rw [hn] at hj
    have hlt : b.nextInfo < j := hj
    rw [hi, Function.update_of_ne hlt.ne']
    exact h.freshInfo j hlt.le
  freshTimer := ht
  freshFile := hf

/-- An owner loses its node, which is unlinked and freed. -/
theorem Nodes.dropNode (h : Nodes b) (hk : b.infos k = some info)
    (hi : b'.infos = Function.update b.infos k none)
    (hn : b'.nextInfo = b.nextInfo) (hl : b'.listTimers = b.listTimers.erase k)
    (hp : pointsTo b' = Function.update (pointsTo b) info.owner none)
    (ht : ∀ t, b'.nextTimer ≤ t → b'.timers t = none)
    (hf : ∀ f, b'.nextFile ≤ f → b'.epFiles f = none) : Nodes b' where
  node := by
    intro o' j hj
    rw [hp, Function.update_apply] at hj
    split_ifs at hj with he
    obtain ⟨x, hx, hxo⟩ := h.node o' j hj
    have hne : j ≠ k := by
      rintro rfl
      rw [hk] at hx
      obtain rfl := Option.some.inj hx
      exact he hxo.symm
    rw [hi, Function.update_of_ne hne]
    exact ⟨x, hx, hxo⟩
  owner := by
    intro j x hx
    rw [hi, Function.update_apply] at hx
    split_ifs at hx with he
    -- a node belongs to one owner, which no other node has
    have hxo := h.owner j x hx
    have hne : x.owner ≠ info.owner := by
      intro hown
      exact he (h.owner_inj hk hown.symm hxo)
    rw [hp, Function.update_of_ne hne]
    exact hxo
  linked := by
    intro j
    rw [hl, hi, Function.update_apply, h.nodup.mem_erase_iff]
    split_ifs with he
    · constructor
      · exact fun hj => absurd he hj.1
      · rintro ⟨x, hx, -⟩
        exact hx.elim
    · rw [← h.linked j]
      exact ⟨And.right, fun hj => ⟨he, hj⟩⟩
  nodup := hl ▸ h.nodup.erase k
  isInt := by
    intro j x hx
    rw [hi, Function.update_apply] at hx
    split_ifs at hx
    exact h.isInt j x hx
  freshInfo := by
    intro j hj
    rw [hi, Function.update_apply]
    split_ifs
    · rfl
    · exact h.freshInfo j (hn ▸ hj)
  freshTimer := ht
  freshFile := hf

/-! ### What is left alone -/

/-- An object with a name that has been given out changes. -/
theorem fresh_update {α : Type} {f : ℕ → Option α} {n t : ℕ} {a : α}
    (h : ∀ t, n ≤ t → f t = none) (ht : f t = some a) (v : Option α) :
    ∀ t', n ≤ t' → Function.update f t v t' = none := by
  intro t' ht'
  have hne : t' ≠ t := by
    rintro rfl
    exact absurd (ht.symm.trans (h t' ht')) (Option.some_ne_none a)
  rw [Function.update_of_ne hne]
  exact h t' ht'

/-- A node that is freed after it was unlinked. -/
theorem unlink_setInfo_infos (b : EpBase) (k : InfoId) (info : TimerInfo) :
    ((b.unlink k info).setInfo k none).infos = Function.update b.infos k none := by
  unfold EpBase.unlink
  split_ifs
  · exact Function.update_idem ..
  · rfl

/-- Registering a descriptor touches neither the timers nor the files. -/
theorem detectFd_frame (b : EpBase) (f : FileId) (fd : Fd) (what : Mask) :
    (detectFd b f fd what).timers = b.timers ∧ (detectFd b f fd what).epFiles = b.epFiles ∧
      (detectFd b f fd what).nextTimer = b.nextTimer ∧
      (detectFd b f fd what).nextFile = b.nextFile ∧ SameLoop b (detectFd b f fd what) := by
  unfold detectFd
  dsimp only
  split_ifs <;> exact ⟨rfl, rfl, rfl, rfl, ⟨rfl, rfl⟩⟩

theorem Adds.refl (h : Nodes b) : Adds b none b := ⟨h, ⟨rfl, rfl⟩, fun _ => Or.inl⟩

/-- A call that links nothing, and then one that may. -/
theorem Adds.trans (h : Adds b none b1) (h' : Adds b1 new b') : Adds b new b' := by
  refine ⟨h'.nodes, h.loop.trans h'.loop, fun k hk => ?_⟩
  rcases h'.mem k hk with hk1 | hk1
  · exact Or.inl ((h.mem k hk1).resolve_right (Option.some_ne_none k).symm)
  · exact Or.inr hk1

/-- The same list. -/
theorem Adds.of_list (h : Nodes b') (hc : SameLoop b b')
    (hl : b'.listTimers = b.listTimers) : Adds b none b' :=
  ⟨h, hc, fun _ hk => Or.inl (hl ▸ hk)⟩

/-! ### Timers -/

variable {t : TimerId} {tm : EpTimer} {f : FileId} {file : File}

/-- A timer keeps its node. -/
theorem Nodes.setTimer (h : Nodes b) (ht : b.timers t = some tm) {tm' : EpTimer}
    (hinfo : tm'.info = tm.info) : Nodes (b.setTimer t (some tm')) := by
  refine h.of_eq rfl rfl rfl ?_ (fresh_update h.freshTimer ht _) h.freshFile
  rw [pointsTo_setTimer, Option.bind_some, hinfo]
  have hpt : pointsTo b (.timer t) = tm.info := by rw [pointsTo, ht, Option.bind_some]
  rw [← hpt, Function.update_eq_self]

/-- A file keeps its node. -/
theorem Nodes.setFile (h : Nodes b) (hf : b.epFiles f = some file) {file' : File}
    (hinfo : file'.timerInfo = file.timerInfo) : Nodes (b.setFile f (some file')) := by
  refine h.of_eq rfl rfl rfl ?_ h.freshTimer (fresh_update h.freshFile hf _)
  rw [pointsTo_setFile, Option.bind_some, hinfo]
  have hpt : pointsTo b (.file f) = file.timerInfo := by rw [pointsTo, hf, Option.bind_some]
  rw [← hpt, Function.update_eq_self]

theorem Nodes.timerNew (h : Nodes b) :
    wp epTimerNew (fun _ => Adds b none) (fun _ _ => False) b := by
  simp only [epTimerNew, wp_bind, wp_get, wp_modify, wp_pure]
  refine .of_list (h.of_eq rfl rfl rfl ?_ ?_ h.freshFile) ⟨rfl, rfl⟩ rfl
  · have hnone : pointsTo b (.timer b.nextTimer) = none := by
      rw [pointsTo, h.freshTimer _ le_rfl, Option.bind_none]
    show pointsTo (b.setTimer b.nextTimer (some {})) = pointsTo b
    rw [pointsTo_setTimer, Option.bind_some, ← hnone, Function.update_eq_self]
  · intro t ht
    have hlt : b.nextTimer < t := ht
    show Function.update b.timers b.nextTimer _ t = none
    rw [Function.update_of_ne hlt.ne']
    exact h.freshTimer t hlt.le

/-- The node that is linked when an owner with the node `info` is armed. -/
def armedNode (b : EpBase) (info : Option InfoId) : InfoId := info.getD b.nextInfo

/-- What `ep_timer_add` links: nothing when the timer is linked. -/
def addsNode (b : EpBase) (info : Option InfoId) : Option InfoId :=
  if unlinked b info then some (armedNode b info) else none

/-- `ep_timer_info_add` for the node that an owner has. -/
theorem Nodes.link_mem_iff (h : Nodes b) (hk : b.infos k = some info) (millsec : ℤ) (j : InfoId) :
    j ∈ (b.link k info millsec).listTimers ↔ j ∈ b.listTimers ∨ addsNode b (some k) = some j := by
  obtain ⟨-, -, hmem⟩ := h.link hk millsec
  rw [hmem, or_comm]
  have hu : unlinked b (some k) = !info.pending := by rw [unlinked, hk, Option.any_some]
  by_cases hp : info.pending = true
  · have hin : k ∈ b.listTimers := (h.linked k).mpr ⟨info, hk, hp⟩
    have hnone : addsNode b (some k) = none := if_neg (by rw [hu, hp]; decide)
    rw [hnone]
    constructor
    · rintro (hj | rfl)
      · exact Or.inl hj
      · exact Or.inl hin
    · exact fun hj => Or.inl (hj.resolve_right (Option.some_ne_none j).symm)
  · have hpf : info.pending = false := Bool.not_eq_true _ ▸ hp
    have hsome : addsNode b (some k) = some k := if_pos (by rw [hu, hpf]; rfl)
    rw [hsome, Option.some.injEq, eq_comm (a := j)]

theorem Nodes.adds_link (h : Nodes b) (hk : b.infos k = some info) (millsec : ℤ) :
    Adds b (addsNode b (some k)) (b.link k info millsec) := by
  obtain ⟨hn, hc, -⟩ := h.link hk millsec
  exact ⟨hn, hc, fun j hj => (h.link_mem_iff hk millsec j).mp hj⟩

theorem Nodes.timerAdd (h : Nodes b) (ht : b.timers t = some tm) (millsec : ℤ) :
    wp (epTimerAdd t millsec) (fun _ => Adds b (addsNode b tm.info)) (fun _ _ => False) b := by
  simp only [epTimerAdd, wp_bind, wp_getTimer, ht]
  cases hinfo : tm.info with
  | some k =>
    obtain ⟨info, hk, -⟩ := h.node (.timer t) k (by rw [pointsTo, ht, Option.bind_some, hinfo])
    simp only [wp_bind, wp_pure, wp_modify, wp_epTimerInfoAdd, EpBase.setTimer_infos, hk]
    have h1 : Nodes (b.setTimer t (some { info := some k, pending := true })) :=
      h.setTimer ht hinfo.symm
    have h0 : Adds b none (b.setTimer t (some { info := some k, pending := true })) :=
      .of_list h1 ⟨rfl, rfl⟩ rfl
    exact h0.trans (h1.adds_link hk millsec)
  | none =>
    -- the timer gets a new node, which is not linked
    have hnone : pointsTo b (.timer t) = none := by rw [pointsTo, ht, Option.bind_some, hinfo]
    have hnew : (b.addInfo (.timer t)).infos b.nextInfo = some { owner := .timer t } :=
      Function.update_self ..
    simp only [epTimerInfoCreate, wp_bind, wp_get, wp_pure, wp_modify, wp_epTimerInfoAdd,
      EpBase.setTimer_infos, hnew]
    have h1 : Nodes ((b.addInfo (.timer t)).setTimer t
        (some { info := some b.nextInfo, pending := true })) := by
      refine h.addNode hnone rfl rfl rfl ?_ (fresh_update h.freshTimer ht _) h.freshFile
      rw [pointsTo_setTimer]
      rfl
    obtain ⟨hn, hc, hmem⟩ := h1.link hnew millsec
    refine ⟨hn, ⟨hc.checking, hc.stale⟩, fun j hj => ?_⟩
    rcases (hmem j).mp hj with rfl | hj
    · exact Or.inr rfl
    · exact Or.inl hj

/-- `ep_timer_del` and `ep_timer_free`. -/
theorem Nodes.dropTimer (h : Nodes b) (ht : b.timers t = some tm) (tm' : Option EpTimer)
    (htm' : tm'.bind EpTimer.info = none) :
    wp (dropInfo tm.info >>= fun _ => modify (·.setTimer t tm')) (fun _ => Adds b none)
      (fun _ _ => False) b := by
  have hpt : pointsTo b (.timer t) = tm.info := by rw [pointsTo, ht, Option.bind_some]
  have hfresh := fresh_update h.freshTimer ht tm'
  cases hinfo : tm.info with
  | none =>
    simp only [dropInfo, wp_bind, wp_pure, wp_modify]
    refine .of_list (h.of_eq rfl rfl rfl ?_ hfresh h.freshFile) ⟨rfl, rfl⟩ rfl
    rw [pointsTo_setTimer, htm', ← hinfo, ← hpt, Function.update_eq_self]
  | some k =>
    rw [hinfo] at hpt
    obtain ⟨info, hk, ho⟩ := h.node (.timer t) k hpt
    simp only [dropInfo, wp_bind, wp_epTimerInfoDel, wp_modify, hk]
    obtain ⟨htimers, hfiles, hni, hnt, hnf, hch⟩ := unlink_frame b k info
    obtain ⟨-, hlist⟩ := h.unlink hk
    -- the node is unlinked, freed, and forgotten by its timer
    have hnodes : Nodes (((b.unlink k info).setInfo k none).setTimer t tm') := by
      refine h.dropNode hk (unlink_setInfo_infos b k info) hni hlist ?_ ?_ ?_
      · have hp : pointsTo ((b.unlink k info).setInfo k none) = pointsTo b :=
          pointsTo_congr htimers hfiles
        rw [pointsTo_setTimer, htm', ho, hp]
      · intro t' ht'
        show Function.update (b.unlink k info).timers t tm' t' = none
        rw [htimers]
        exact hfresh t' (hnt ▸ ht')
      · intro f' hf'
        show (b.unlink k info).epFiles f' = none
        rw [hfiles]
        exact h.freshFile f' (hnf ▸ hf')
    refine ⟨hnodes, ⟨hch.checking, hch.stale⟩, fun j hj => Or.inl ?_⟩
    have hj' : j ∈ (b.unlink k info).listTimers := hj
    rw [hlist] at hj'
    exact List.mem_of_mem_erase hj'

theorem Nodes.timerDel (h : Nodes b) (ht : b.timers t = some tm) :
    wp (epTimerDel t) (fun _ => Adds b none) (fun _ _ => False) b := by
  have hdrop := h.dropTimer ht (some {}) rfl
  simp only [epTimerDel, wp_bind, wp_getTimer, ht] at hdrop ⊢
  exact hdrop

theorem Nodes.timerFree (h : Nodes b) (ht : b.timers t = some tm) :
    wp (epTimerFree t) (fun _ => Adds b none) (fun _ _ => False) b := by
  have hdrop := h.dropTimer ht none rfl
  simp only [epTimerFree, wp_bind, wp_getTimer, ht] at hdrop ⊢
  exact hdrop

/-! ### Files -/

theorem Nodes.fileCreate (h : Nodes b) (fd : Fd) :
    wp (epFileCreate fd) (fun _ => Adds b none) (fun _ _ => False) b := by
  simp only [epFileCreate, wp_bind, wp_get, wp_modify, wp_pure]
  refine .of_list (h.of_eq rfl rfl rfl ?_ h.freshTimer ?_) ⟨rfl, rfl⟩ rfl
  · have hnone : pointsTo b (.file b.nextFile) = none := by
      rw [pointsTo, h.freshFile _ le_rfl, Option.bind_none]
    show pointsTo (b.setFile b.nextFile (some { fd := fd })) = pointsTo b
    rw [pointsTo_setFile, Option.bind_some, ← hnone, Function.update_eq_self]
  · intro f hf
    have hlt : b.nextFile < f := hf
    show Function.update b.epFiles b.nextFile _ f = none
    rw [Function.update_of_ne hlt.ne']
    exact h.freshFile f hlt.le

/-- The node of a file, which is made when there is none. -/
theorem Nodes.fileInfo (h : Nodes b) (hf : b.epFiles f = some file) :
    wp (fileInfo f file)
      (fun k b' => Nodes b' ∧ SameLoop b b' ∧ b'.listTimers = b.listTimers ∧
        k = armedNode b file.timerInfo ∧ (∃ info, b'.infos k = some info) ∧
        unlinked b' (some k) = unlinked b file.timerInfo)
      (fun _ _ => False) b := by
  have hpt : pointsTo b (.file f) = file.timerInfo := by rw [pointsTo, hf, Option.bind_some]
  unfold Ep.fileInfo
  cases hinfo : file.timerInfo with
  | some k =>
    rw [hinfo] at hpt
    obtain ⟨info, hk, -⟩ := h.node (.file f) k hpt
    exact ⟨h, ⟨rfl, rfl⟩, rfl, rfl, ⟨info, hk⟩, rfl⟩
  | none =>
    rw [hinfo] at hpt
    simp only [epTimerInfoCreate, wp_bind, wp_get, wp_modify, wp_pure]
    have hnew : (b.addInfo (.file f)).infos b.nextInfo = some { owner := .file f } :=
      Function.update_self ..
    refine ⟨?_, ⟨rfl, rfl⟩, rfl, rfl, ⟨_, hnew⟩, ?_⟩
    · refine h.addNode hpt rfl rfl rfl ?_ h.freshTimer (fresh_update h.freshFile hf _)
      rw [pointsTo_setFile]
      rfl
    · show (!((b.addInfo (.file f)).infos b.nextInfo).any TimerInfo.pending) = true
      rw [hnew]
      rfl

/-- The slot of a descriptor and the timeout of its file do not matter. -/
theorem Nodes.detectFd (h : Nodes b) (hf : b.epFiles f = some file) (fd : Fd) (what : Mask)
    (timeout : ℤ) : Adds b none ((detectFd b f fd what).setFile f
      (some { file with timeout := timeout })) ∧
      ((detectFd b f fd what).setFile f (some { file with timeout := timeout })).nextInfo =
        b.nextInfo := by
  obtain ⟨e1, e2, e3, -⟩ := detectFd_timers (b := b) f fd what
  obtain ⟨htimers, hfiles, hnt, hnf, hch⟩ := detectFd_frame b f fd what
  have h1 : Nodes (Ep.detectFd b f fd what) := by
    refine h.of_eq e1 e2 e3 (pointsTo_congr htimers hfiles) ?_ ?_
    · rw [htimers, hnt]
      exact h.freshTimer
    · rw [hfiles, hnf]
      exact h.freshFile
  have hf1 : (Ep.detectFd b f fd what).epFiles f = some file := by
    rw [hfiles]
    exact hf
  exact ⟨.of_list (h1.setFile hf1 rfl) ⟨hch.checking, hch.stale⟩ e2, e3⟩

/-- What `ep_file_detect` links: a file with a timeout is taken out of the list and put in again. -/
def detectsNode (file : File) (b : EpBase) (what : Mask) (timeout : ℤ) : Option InfoId :=
  if (b.files file.fd).mask = 0 ∧ what = 0 then none
  else if timeout ≥ 0 ∧ what ≠ 0 then some (armedNode b file.timerInfo)
  else none

theorem Nodes.fileDetect (h : Nodes b) (hf : b.epFiles f = some file) (what : Mask) (timeout : ℤ) :
    wp (epFileDetect f what timeout) (fun _ => Adds b (detectsNode file b what timeout))
      (fun _ _ => False) b := by
  obtain ⟨h1, hnext⟩ := h.detectFd hf file.fd what timeout
  simp only [Ep.epFileDetect, wp_bind, wp_getFile, hf, wp_get, wp_ite, wp_pure, wp_modify,
    detectsNode]
  have hf1 : ((Ep.detectFd b f file.fd what).setFile f
      (some { file with timeout := timeout })).epFiles f = some { file with timeout := timeout } :=
    Function.update_self ..
  split_ifs with h0 harm
  · exact .refl h
  · have hinfo := h1.nodes.fileInfo hf1
    rw [show armedNode _ ({ file with timeout := timeout } : File).timerInfo =
      armedNode b file.timerInfo by rw [armedNode, armedNode, hnext]] at hinfo
    refine wp_mono hinfo ?_ fun _ _ => False.elim
    rintro k b2 ⟨h2, hc2, hl2, rfl, ⟨info, hk⟩, -⟩
    simp only [wp_epTimerInfoDel, hk]
    obtain ⟨hu, hlu⟩ := h2.unlink hk
    -- the node is still there after `ep_timer_info_del`
    obtain ⟨info', hk'⟩ : ∃ info', (b2.unlink (armedNode b file.timerInfo) info).infos
        (armedNode b file.timerInfo) = some info' := by
      unfold EpBase.unlink
      split_ifs
      · exact ⟨_, Function.update_self ..⟩
      · exact ⟨info, hk⟩
    simp only [wp_epTimerInfoAdd, hk']
    obtain ⟨h3, hc3, hmem⟩ := hu.nodes.link hk' timeout
    refine ⟨h3, h1.loop.trans (hc2.trans (hu.loop.trans hc3)), fun j hj => ?_⟩
    rcases (hmem j).mp hj with rfl | hj
    · exact Or.inr rfl
    · rw [hlu, hl2] at hj
      exact (h1.mem j (List.mem_of_mem_erase hj)).imp_right fun hn => absurd hn.symm
        (Option.some_ne_none j)
  · revert h1
    generalize (Ep.detectFd b f file.fd what).setFile f (some { file with timeout := timeout }) = b1
      at hf1
    intro h1
    cases hinfo : file.timerInfo with
    | none => exact h1
    | some k =>
      obtain ⟨info, hk, -⟩ := h1.nodes.node (.file f) k
        (by rw [pointsTo, hf1, Option.bind_some]; exact hinfo)
      simp only [wp_epTimerInfoDel, hk]
      exact h1.trans (h1.nodes.unlink hk).1

/-- `ep_file_free` takes the node out and frees it. -/
theorem Nodes.fileFree (h : Nodes b) (hf : b.epFiles f = some file) :
    wp (epFileFree f) (fun _ => Adds b none) (fun _ _ => False) b := by
  -- what is left is `ep_file_detect(ep, 0, -1)` for a file without a node
  have hrest : ∀ b1, Adds b none b1 → ∀ file1, b1.epFiles f = some file1 → file1.timerInfo = none →
      wp (do
          epFileDetect f 0 (-1)
          modify (·.setFile f none))
        (fun _ => Adds b none) (fun _ _ => False) b1 := by
    intro b1 h1 file1 hf1 hnone
    simp only [Ep.epFileDetect, wp_bind, wp_getFile, hf1, wp_get, wp_ite, wp_pure, wp_modify,
      hnone, ne_eq, not_true_eq_false, and_false, if_false]
    have hset : ∀ b2, Adds b none b2 → ∀ file2, b2.epFiles f = some file2 →
        file2.timerInfo = none → Adds b none (b2.setFile f none) := by
      intro b2 h2 file2 hf2 hno
      refine ⟨?_, ⟨h2.loop.checking, h2.loop.stale⟩, h2.mem⟩
      refine h2.nodes.of_eq rfl rfl rfl ?_ h2.nodes.freshTimer
        (fresh_update h2.nodes.freshFile hf2 _)
      have hpt : pointsTo b2 (.file f) = none := by rw [pointsTo, hf2, Option.bind_some, hno]
      rw [pointsTo_setFile, Option.bind_none, ← hpt, Function.update_eq_self]
    split_ifs
    · exact hset b1 h1 file1 hf1 hnone
    · have h2 := (h1.nodes.detectFd hf1 file1.fd 0 (-1)).1
      rw [hnone] at h2
      exact hset _ (h1.trans h2) _ (Function.update_self ..) rfl
  simp only [epFileFree, wp_bind, wp_getFile, hf] at hrest ⊢
  cases hinfo : file.timerInfo with
  | none =>
    simp only [wp_bind]
    exact hrest b (.refl h) file hf hinfo
  | some k =>
    have hpt : pointsTo b (.file f) = some k := by rw [pointsTo, hf, Option.bind_some, hinfo]
    obtain ⟨info, hk, ho⟩ := h.node (.file f) k hpt
    simp only [wp_bind, wp_getInfo, wp_modify, hk]
    refine hrest _ ?_ { file with timerInfo := none } (Function.update_self ..) rfl
    obtain ⟨-, hlist⟩ := h.unlink hk
    have hl : (if info.pending then b.setList (b.listTimers.erase k) else b).listTimers =
        b.listTimers.erase k := by
      split_ifs with hp
      · rfl
      · exact (List.erase_of_not_mem (h.not_mem hk (Bool.not_eq_true _ ▸ hp))).symm
    have hnodes : Nodes (((if info.pending then b.setList (b.listTimers.erase k) else b).setInfo k
        none).setFile f (some { file with timerInfo := none })) := by
      have hfresh := fresh_update h.freshFile hf (some { file with timerInfo := none })
      split_ifs at hl ⊢
      · refine h.dropNode hk rfl rfl rfl ?_ h.freshTimer hfresh
        rw [pointsTo_setFile, ho]
        rfl
      · refine h.dropNode hk rfl rfl hl ?_ h.freshTimer hfresh
        rw [pointsTo_setFile, ho]
        rfl
    refine ⟨hnodes, ?_, fun j hj => Or.inl (List.mem_of_mem_erase (a := j) (b := k) ?_)⟩
    · split_ifs <;> exact ⟨rfl, rfl⟩
    · rw [← hl]
      exact hj

end H2ClientProxy.Ep
