import H2ClientProxy.Equiv.Deadlines
import H2ClientProxy.Equiv.TimerView

/-!
# The event base without its nodes

The nodes of `list_timers` are an implementation: what matters is whose timeout is running.  A `Registry`
has the flags of the timers, the descriptors and timeouts of the files, the table and the epoll set as
they are, and of the list only whose node is linked.

* `registry`: the registry of an event base.
* `Nodes.detect_registry`, `Nodes.timerAdd_registry`, … : what each function of `ep.c` does to it.
* `registry_step`: what a step does to it (`RegistryStep`).
-/

namespace H2ClientProxy.Ep

open Wp Machine

/-! ### The abstract state -/

/-- An event base as a table of timers, files and descriptors. -/
@[ext]
structure Registry where
  /-- `pending` of the timers that exist. -/
  timers : TimerId → Option Bool
  /-- `fd` and `timeout` of the files that exist. -/
  epFiles : FileId → Option (Fd × ℤ)
  /-- Whose node is linked. -/
  linked : InfoOwner → Bool
  files : Fd → FdInfo
  poll : Fd → Option Mask
  fdCount : ℤ
  /-- The name of the next file. -/
  nextFile : FileId

namespace Registry

def setTimer (r : Registry) (t : TimerId) (v : Option Bool) : Registry :=
  { r with timers := Function.update r.timers t v }

def setFile (r : Registry) (f : FileId) (v : Option (Fd × ℤ)) : Registry :=
  { r with epFiles := Function.update r.epFiles f v }

def setLinked (r : Registry) (o : InfoOwner) (v : Bool) : Registry :=
  { r with linked := Function.update r.linked o v }

def setFd (r : Registry) (fd : Fd) (slot : FdInfo) (events : Option Mask) (fdCount : ℤ) : Registry :=
  { r with files := Function.update r.files fd slot
           poll := Function.update r.poll fd events
           fdCount := fdCount }

/-- A new file on a descriptor. -/
def create (r : Registry) (fd : Fd) : Registry :=
  { (r.setFile r.nextFile (some (fd, -1))).setFd fd { r.files fd with file := some r.nextFile }
      (r.poll fd) r.fdCount with
    nextFile := r.nextFile + 1 }

/-- A descriptor is added to epoll, taken out of it, or changed. -/
def detectFd (r : Registry) (f : FileId) (fd : Fd) (what : Mask) : Registry :=
  if (r.files fd).mask = 0 then
    r.setFd fd { mask := what, file := some f } (some (pollEvents what)) (r.fdCount + 1)
  else if what = 0 then r.setFd fd { mask := what, file := none } none (r.fdCount - 1)
  else r.setFd fd { r.files fd with mask := what } (some (pollEvents what)) r.fdCount

/-- A file is interested in `what`, with a timeout. -/
def detect (r : Registry) (f : FileId) (fd : Fd) (what : Mask) (timeout : ℤ) : Registry :=
  if (r.files fd).mask = 0 ∧ what = 0 then r
  else
    ((r.detectFd f fd what).setFile f (some (fd, timeout))).setLinked (.file f)
      (decide (timeout ≥ 0 ∧ what ≠ 0))

/-- A file is freed. -/
def free (r : Registry) (f : FileId) (fd : Fd) : Registry :=
  ((r.setLinked (.file f) false).detect f fd 0 (-1)).setFile f none

/-- The file in the slot of a descriptor gets its timeout again. -/
def rearm (r : Registry) (fd : Fd) : Registry :=
  match (r.files fd).file with
  | none => r
  | some f => if (r.epFiles f).any fun file => file.2 ≥ 0 then r.setLinked (.file f) true else r

end Registry

/-- The registry of an event base. -/
def registry (b : EpBase) : Registry where
  timers t := (b.timers t).map EpTimer.pending
  epFiles f := (b.epFiles f).map fun file => (file.fd, file.timeout)
  linked o := nodeLinked b (pointsTo b o)
  files := b.files
  poll := b.poll
  fdCount := b.fdCount
  nextFile := b.nextFile

variable {b b' : EpBase} {k : InfoId} {info : TimerInfo} {t : TimerId} {tm : EpTimer} {f : FileId}
  {file : File} {o : InfoOwner}

/-- An owner whose node is linked is in the list with it. -/
theorem Nodes.linked_iff (h : Nodes b) (o : InfoOwner) :
    (registry b).linked o = true ↔ ∃ k, pointsTo b o = some k ∧ k ∈ b.listTimers := by
  show nodeLinked b (pointsTo b o) = true ↔ _
  unfold nodeLinked
  rw [Option.any_eq_true]
  constructor
  · rintro ⟨k, hk, hp⟩
    obtain ⟨info, hinfo, hp⟩ := (Option.any_eq_true _ _).mp hp
    exact ⟨k, hk, (h.linked k).mpr ⟨info, hinfo, hp⟩⟩
  · rintro ⟨k, hk, hmem⟩
    obtain ⟨info, hinfo, hp⟩ := (h.linked k).mp hmem
    exact ⟨k, hk, (Option.any_eq_true _ _).mpr ⟨info, hinfo, hp⟩⟩

/-! ### Elementary changes -/

/-- The parts that the list and the nodes have no part in. -/
structure TablesKept (b b' : EpBase) : Prop where
  timers : b'.timers = b.timers
  epFiles : b'.epFiles = b.epFiles
  files : b'.files = b.files
  poll : b'.poll = b.poll
  fdCount : b'.fdCount = b.fdCount
  nextFile : b'.nextFile = b.nextFile

/-- The node of one owner is linked or unlinked. -/
theorem Nodes.registry_node (h : Nodes b) (hk : b.infos k = some info) (ht : TablesKept b b')
    {v : Bool} (hself : nodeLinked b' (some k) = v) (hother : ∀ j, j ≠ k → b'.infos j = b.infos j) :
    registry b' = (registry b).setLinked info.owner v := by
  have hpt : pointsTo b' = pointsTo b := pointsTo_congr ht.timers ht.epFiles
  have hlinked : (registry b').linked = Function.update (registry b).linked info.owner v := by
    funext o
    show nodeLinked b' (pointsTo b' o) = _
    rw [hpt, Function.update_apply]
    split_ifs with ho
    · rw [ho, h.owner k info hk]
      exact hself
    · -- no other owner points to this node
      show nodeLinked b' (pointsTo b o) = nodeLinked b (pointsTo b o)
      cases hj : pointsTo b o with
      | none => rfl
      | some j =>
        have hne : j ≠ k := by
          rintro rfl
          obtain ⟨info', hi, hio⟩ := h.node o j hj
          rw [hk] at hi
          obtain rfl := Option.some.inj hi
          exact ho hio.symm
        show (b'.infos j).any _ = (b.infos j).any _
        rw [hother j hne]
  refine Registry.ext ?_ ?_ hlinked ht.files ht.poll ht.fdCount ht.nextFile
  · show (fun t => (b'.timers t).map EpTimer.pending) = _
    rw [ht.timers]
    rfl
  · show (fun f => (b'.epFiles f).map fun file => (file.fd, file.timeout)) = _
    rw [ht.epFiles]
    rfl

theorem unlink_tables (b : EpBase) (k : InfoId) (info : TimerInfo) :
    TablesKept b (b.unlink k info) := by
  unfold EpBase.unlink
  split_ifs <;> exact ⟨rfl, rfl, rfl, rfl, rfl, rfl⟩

theorem link_tables (b : EpBase) (k : InfoId) (info : TimerInfo) (millsec : ℤ) :
    TablesKept b (b.link k info millsec) := by
  unfold EpBase.link
  split_ifs <;> exact ⟨rfl, rfl, rfl, rfl, rfl, rfl⟩

theorem Nodes.registry_unlink (h : Nodes b) (hk : b.infos k = some info) :
    registry (b.unlink k info) = (registry b).setLinked info.owner false :=
  h.registry_node hk (unlink_tables b k info) (unlink_self hk) fun _ hne => unlink_infos b info hne

theorem Nodes.registry_link (h : Nodes b) (hk : b.infos k = some info) (millsec : ℤ) :
    registry (b.link k info millsec) = (registry b).setLinked info.owner true :=
  h.registry_node hk (link_tables b k info millsec) (link_self hk millsec)
    fun _ hne => link_infos b info millsec hne

/-- A new node is not linked. -/
theorem Nodes.linked_addNode (h : Nodes b) (ho : pointsTo b o = none)
    (hi : b'.infos = Function.update b.infos b.nextInfo (some { owner := o }))
    (hp : pointsTo b' = Function.update (pointsTo b) o (some b.nextInfo)) :
    (registry b').linked = (registry b).linked := by
  funext o'
  show nodeLinked b' (pointsTo b' o') = nodeLinked b (pointsTo b o')
  rw [hp, Function.update_apply]
  unfold nodeLinked
  split_ifs with he
  · rw [he, ho, Option.any_some, hi, Function.update_self]
    rfl
  · cases hj : pointsTo b o' with
    | none => rfl
    | some j =>
      obtain ⟨info, hinfo, -⟩ := h.node o' j hj
      have hne : j ≠ b.nextInfo := by
        rintro rfl
        exact absurd (hinfo.symm.trans (h.freshInfo _ le_rfl)) (Option.some_ne_none info)
      rw [Option.any_some, Option.any_some, hi, Function.update_of_ne hne]

/-- The node of an owner is freed. -/
theorem Nodes.linked_dropNode (h : Nodes b) (hk : b.infos k = some info)
    (hi : ∀ j, j ≠ k → b'.infos j = b.infos j)
    (hp : pointsTo b' = Function.update (pointsTo b) info.owner none) :
    (registry b').linked = Function.update (registry b).linked info.owner false := by
  funext o
  show nodeLinked b' (pointsTo b' o) = _
  rw [hp, Function.update_apply, Function.update_apply]
  split_ifs with ho
  · rfl
  · show nodeLinked b' (pointsTo b o) = nodeLinked b (pointsTo b o)
    cases hj : pointsTo b o with
    | none => rfl
    | some j =>
      have hne : j ≠ k := by
        rintro rfl
        obtain ⟨info', hi', hio⟩ := h.node o j hj
        rw [hk] at hi'
        obtain rfl := Option.some.inj hi'
        exact ho hio.symm
      show (b'.infos j).any _ = (b.infos j).any _
      rw [hi j hne]

/-! ### Timers -/

theorem update_map {α β : Type} (g : ℕ → Option α) (n : ℕ) (v : Option α) (φ : α → β) :
    (fun m => (Function.update g n v m).map φ) =
      Function.update (fun m => (g m).map φ) n (v.map φ) := by
  funext m
  rw [Function.update_apply, Function.update_apply]
  split_ifs <;> rfl

/-- A timer is replaced that has no node, or the same as before. -/
theorem registry_setTimer {tm' : Option EpTimer}
    (hl : nodeLinked b (tm'.bind EpTimer.info) = nodeLinked b (pointsTo b (.timer t))) :
    registry (b.setTimer t tm') = (registry b).setTimer t (tm'.map EpTimer.pending) := by
  refine Registry.ext (update_map ..) rfl ?_ rfl rfl rfl rfl
  funext o
  show nodeLinked b (pointsTo (b.setTimer t tm') o) = nodeLinked b (pointsTo b o)
  rw [pointsTo_setTimer, Function.update_apply]
  split_ifs with ho
  · rw [ho]
    exact hl
  · rfl

theorem Nodes.timerNew_registry (h : Nodes b) :
    wp epTimerNew (fun t b' => (registry b).timers t = none ∧
      registry b' = (registry b).setTimer t (some false)) (fun _ _ => False) b := by
  simp only [epTimerNew, wp_bind, wp_get, wp_modify, wp_pure]
  have hnone : b.timers b.nextTimer = none := h.freshTimer _ le_rfl
  refine ⟨?_, ?_⟩
  · show (b.timers b.nextTimer).map _ = none
    rw [hnone]
    rfl
  · have hset : registry (b.setTimer b.nextTimer (some {})) = _ := registry_setTimer (by
      show nodeLinked b none = nodeLinked b ((b.timers b.nextTimer).bind _)
      rw [hnone]
      rfl)
    exact hset

theorem Nodes.timerAdd_registry (h : Nodes b) (ht : b.timers t = some tm) (millsec : ℤ) :
    wp (epTimerAdd t millsec) (fun _ b' => registry b' =
      ((registry b).setTimer t (some true)).setLinked (.timer t) true) (fun _ _ => False) b := by
  simp only [epTimerAdd, wp_bind, wp_getTimer, ht]
  have hpt : pointsTo b (.timer t) = tm.info := by rw [pointsTo, ht, Option.bind_some]
  cases hinfo : tm.info with
  | some k =>
    rw [hinfo] at hpt
    obtain ⟨info, hk, ho⟩ := h.node (.timer t) k hpt
    simp only [wp_bind, wp_pure, wp_modify, wp_epTimerInfoAdd, EpBase.setTimer_infos, hk]
    have h1 : Nodes (b.setTimer t (some { info := some k, pending := true })) :=
      h.setTimer ht hinfo.symm
    have hset : registry (b.setTimer t (some { info := some k, pending := true })) =
        (registry b).setTimer t (some true) := registry_setTimer (by rw [hpt]; rfl)
    rw [h1.registry_link hk millsec, hset, ho]
  | none =>
    -- the timer gets a new node, which is not linked
    rw [hinfo] at hpt
    have hnew : (b.addInfo (.timer t)).infos b.nextInfo = some { owner := .timer t } :=
      Function.update_self ..
    simp only [epTimerInfoCreate, wp_bind, wp_get, wp_pure, wp_modify, wp_epTimerInfoAdd,
      EpBase.setTimer_infos, hnew]
    have hpt1 : pointsTo ((b.addInfo (.timer t)).setTimer t
        (some { info := some b.nextInfo, pending := true })) =
        Function.update (pointsTo b) (.timer t) (some b.nextInfo) := by
      rw [pointsTo_setTimer]
      rfl
    have h1 : Nodes ((b.addInfo (.timer t)).setTimer t
        (some { info := some b.nextInfo, pending := true })) :=
      h.addNode hpt rfl rfl rfl hpt1 (fresh_update h.freshTimer ht _) h.freshFile
    have hset : registry ((b.addInfo (.timer t)).setTimer t
        (some { info := some b.nextInfo, pending := true })) =
        (registry b).setTimer t (some true) :=
      Registry.ext (update_map ..) rfl (h.linked_addNode hpt rfl hpt1) rfl rfl rfl rfl
    rw [h1.registry_link hnew millsec, hset]

/-- `ep_timer_del` and `ep_timer_free`. -/
theorem Nodes.dropTimer_registry (h : Nodes b) (ht : b.timers t = some tm) (tm' : Option EpTimer)
    (htm' : tm'.bind EpTimer.info = none) :
    wp (dropInfo tm.info >>= fun _ => modify (·.setTimer t tm'))
      (fun _ b' => registry b' =
        ((registry b).setTimer t (tm'.map EpTimer.pending)).setLinked (.timer t) false)
      (fun _ _ => False) b := by
  have hpt : pointsTo b (.timer t) = tm.info := by rw [pointsTo, ht, Option.bind_some]
  cases hinfo : tm.info with
  | none =>
    rw [hinfo] at hpt
    simp only [dropInfo, wp_bind, wp_pure, wp_modify]
    rw [registry_setTimer (by rw [htm', hpt])]
    refine Registry.ext rfl rfl ?_ rfl rfl rfl rfl
    -- the timer has no node, so that none is linked
    have hoff : (registry b).linked (.timer t) = false := by
      show nodeLinked b (pointsTo b (.timer t)) = false
      rw [hpt]
      rfl
    show (registry b).linked = Function.update (registry b).linked (.timer t) false
    rw [← hoff, Function.update_eq_self]
  | some k =>
    rw [hinfo] at hpt
    obtain ⟨info, hk, ho⟩ := h.node (.timer t) k hpt
    simp only [dropInfo, wp_bind, wp_epTimerInfoDel, wp_modify, hk]
    obtain ⟨htimers, hfiles, -⟩ := unlink_frame b k info
    obtain ⟨-, -, hslots, hpoll, hcount, hnext⟩ := unlink_tables b k info
    have hinfos : (((b.unlink k info).setInfo k none).setTimer t tm').infos =
        Function.update b.infos k none := unlink_setInfo_infos b k info
    have hp : pointsTo (((b.unlink k info).setInfo k none).setTimer t tm') =
        Function.update (pointsTo b) info.owner none := by
      have hp0 : pointsTo ((b.unlink k info).setInfo k none) = pointsTo b :=
        pointsTo_congr htimers hfiles
      rw [pointsTo_setTimer, htm', ho, hp0]
    refine Registry.ext ?_ ?_ ?_ hslots hpoll hcount hnext
    · show (fun s => (Function.update (b.unlink k info).timers t tm' s).map EpTimer.pending) = _
      rw [htimers]
      exact update_map ..
    · show (fun f => ((b.unlink k info).epFiles f).map fun file => (file.fd, file.timeout)) = _
      rw [hfiles]
      rfl
    · rw [h.linked_dropNode hk (fun j hne => by rw [hinfos, Function.update_of_ne hne]) hp, ho]
      rfl

/-! ### Files -/

/-- A file is replaced that has no node, or the same as before. -/
theorem registry_setFile {file' : Option File}
    (hl : nodeLinked b (file'.bind File.timerInfo) = nodeLinked b (pointsTo b (.file f))) :
    registry (b.setFile f file') =
      (registry b).setFile f (file'.map fun file => (file.fd, file.timeout)) := by
  refine Registry.ext rfl (update_map ..) ?_ rfl rfl rfl rfl
  funext o
  show nodeLinked b (pointsTo (b.setFile f file') o) = nodeLinked b (pointsTo b o)
  rw [pointsTo_setFile, Function.update_apply]
  split_ifs with ho
  · rw [ho]
    exact hl
  · rfl

/-- A file with the same descriptor and timeout. -/
theorem epFiles_update_same (hf : b.epFiles f = some file) (file' : File)
    (hfd : file'.fd = file.fd) (htime : file'.timeout = file.timeout) :
    (fun g => (Function.update b.epFiles f (some file') g).map fun file => (file.fd, file.timeout)) =
      (registry b).epFiles := by
  rw [update_map]
  have hsame : (some file').map (fun file : File => (file.fd, file.timeout)) =
      (registry b).epFiles f := by
    show _ = (b.epFiles f).map _
    rw [hf, Option.map_some, Option.map_some, hfd, htime]
  rw [hsame]
  exact Function.update_eq_self f (registry b).epFiles

theorem Nodes.fileCreate_registry (h : Nodes b) (fd : Fd) :
    wp (epFileCreate fd) (fun _ b' => registry b' = (registry b).create fd) (fun _ _ => False) b := by
  simp only [epFileCreate, wp_bind, wp_get, wp_modify, wp_pure]
  have hset : registry (b.setFile b.nextFile (some { fd := fd })) = _ := registry_setFile (by
    show nodeLinked b none = nodeLinked b ((b.epFiles b.nextFile).bind _)
    rw [h.freshFile _ le_rfl]
    rfl)
  show ({ (registry (b.setFile b.nextFile (some { fd := fd }))).setFd fd _ _ _ with
    nextFile := b.nextFile + 1 } : Registry) = _
  rw [hset]
  rfl

/-- A file that gets a node belongs to the registry as before. -/
theorem Nodes.fileInfo_registry (h : Nodes b) (hf : b.epFiles f = some file) :
    wp (Ep.fileInfo f file) (fun k b' => registry b' = registry b ∧ pointsTo b' (.file f) = some k)
      (fun _ _ => False) b := by
  have hpt : pointsTo b (.file f) = file.timerInfo := by rw [pointsTo, hf, Option.bind_some]
  unfold Ep.fileInfo
  cases hinfo : file.timerInfo with
  | some k => exact ⟨rfl, hpt.trans hinfo⟩
  | none =>
    rw [hinfo] at hpt
    simp only [epTimerInfoCreate, wp_bind, wp_get, wp_modify, wp_pure]
    have hp : pointsTo ((b.addInfo (.file f)).setFile f
        (some { file with timerInfo := some b.nextInfo })) =
        Function.update (pointsTo b) (.file f) (some b.nextInfo) := by
      rw [pointsTo_setFile]
      rfl
    refine ⟨Registry.ext rfl ?_ (h.linked_addNode hpt rfl hp) rfl rfl rfl rfl, ?_⟩
    · exact epFiles_update_same hf { file with timerInfo := some b.nextInfo } rfl rfl
    · rw [hp, Function.update_self]

theorem detectFd_linked (r : Registry) (f : FileId) (fd : Fd) (what : Mask) :
    (r.detectFd f fd what).linked = r.linked := by
  unfold Registry.detectFd
  split_ifs <;> rfl

/-- The slot of a descriptor, its events and the timeout of the file. -/
theorem registry_detectFd (hf : b.epFiles f = some file) (what : Mask) (timeout : ℤ) :
    registry ((detectFd b f file.fd what).setFile f (some { file with timeout := timeout })) =
      ((registry b).detectFd f file.fd what).setFile f (some (file.fd, timeout)) := by
  have hpt : pointsTo b (.file f) = file.timerInfo := by rw [pointsTo, hf, Option.bind_some]
  obtain ⟨htimers, hfiles, -⟩ := detectFd_frame b f file.fd what
  have hslots : registry (detectFd b f file.fd what) = (registry b).detectFd f file.fd what := by
    unfold detectFd Registry.detectFd
    dsimp only
    show registry (if (b.files file.fd).mask = 0 then _ else _) =
      if (b.files file.fd).mask = 0 then _ else _
    split_ifs <;> rfl
  rw [← hslots]
  refine registry_setFile ?_
  rw [pointsTo_congr htimers hfiles, hpt]
  rfl

/-- The node of an owner is linked, or taken out and put in again. -/
theorem setLinked_setLinked (r : Registry) (o : InfoOwner) (v v' : Bool) :
    (r.setLinked o v).setLinked o v' = r.setLinked o v' := by
  unfold Registry.setLinked
  rw [Function.update_idem]

/-- Nothing changes for an owner whose node is as it should be. -/
theorem setLinked_eq_self {r : Registry} {v : Bool} (h : r.linked o = v) : r.setLinked o v = r := by
  unfold Registry.setLinked
  rw [← h, Function.update_eq_self]

/-- The last part of `ep_file_detect`: the timeout starts again, or is stopped. -/
theorem Nodes.detect_registry (h : Nodes b) (hf : b.epFiles f = some file) (what : Mask)
    (timeout : ℤ) :
    wp (epFileDetect f what timeout)
      (fun _ b' => registry b' = (registry b).detect f file.fd what timeout) (fun _ _ => False)
      b := by
  have h1 := (h.detectFd hf file.fd what timeout).1.nodes
  have hreg := registry_detectFd hf what timeout
  have hf1 : ((Ep.detectFd b f file.fd what).setFile f
      (some { file with timeout := timeout })).epFiles f = some { file with timeout := timeout } :=
    Function.update_self ..
  simp only [Ep.epFileDetect, wp_bind, wp_getFile, hf, wp_get, wp_ite, wp_pure, wp_modify]
  unfold Registry.detect
  have hmask : ((registry b).files file.fd).mask = (b.files file.fd).mask := rfl
  rw [hmask, ← hreg]
  generalize (Ep.detectFd b f file.fd what).setFile f (some { file with timeout := timeout }) = b1
    at h1 hf1
  split_ifs with h0 harm
  · rfl
  · rw [decide_eq_true harm]
    refine wp_mono (wp_and (h1.fileInfo hf1) (h1.fileInfo_registry hf1)) ?_
      fun _ _ h => h.1.elim
    rintro k b2 ⟨⟨h2, -⟩, hreg2, hpt2⟩
    obtain ⟨info, hk, ho⟩ := h2.node _ k hpt2
    simp only [wp_epTimerInfoDel, hk]
    have h3 := (h2.unlink hk).1.nodes
    have hpt3 : pointsTo (b2.unlink k info) (.file f) = some k := by
      rw [pointsTo_congr (unlink_tables b2 k info).timers (unlink_tables b2 k info).epFiles]
      exact hpt2
    obtain ⟨info', hk', ho'⟩ := h3.node _ k hpt3
    simp only [wp_epTimerInfoAdd, hk']
    rw [h3.registry_link hk', h2.registry_unlink hk, ho, ho', setLinked_setLinked, hreg2]
  · rw [decide_eq_false harm]
    have hpt1 : pointsTo b1 (.file f) = file.timerInfo := by rw [pointsTo, hf1, Option.bind_some]
    cases hinfo : file.timerInfo with
    | none =>
      -- a file without a node has no timeout running
      rw [hinfo] at hpt1
      have hoff : (registry b1).linked (.file f) = false := by
        show nodeLinked b1 (pointsTo b1 (.file f)) = false
        rw [hpt1]
        rfl
      exact (setLinked_eq_self hoff).symm
    | some k =>
      rw [hinfo] at hpt1
      obtain ⟨info, hk, ho⟩ := h1.node _ k hpt1
      simp only [wp_epTimerInfoDel, hk]
      rw [h1.registry_unlink hk, ho]

theorem Nodes.fileFree_registry (h : Nodes b) (hf : b.epFiles f = some file) :
    wp (epFileFree f) (fun _ b' => registry b' = (registry b).free f file.fd) (fun _ _ => False)
      b := by
  have hpt : pointsTo b (.file f) = file.timerInfo := by rw [pointsTo, hf, Option.bind_some]
  -- what is left is `ep_file_detect(ep, 0, -1)` for a file without a node
  have hrest : ∀ b1 file1, b1.epFiles f = some file1 → file1.timerInfo = none →
      file1.fd = file.fd → registry b1 = (registry b).setLinked (.file f) false →
      wp (do
          epFileDetect f 0 (-1)
          modify (·.setFile f none))
        (fun _ b' => registry b' = (registry b).free f file.fd) (fun _ _ => False) b1 := by
    intro b1 file1 hf1 hno hfd hreg
    have hnone : ∀ b2 file2, b2.epFiles f = some file2 → file2.timerInfo = none →
        registry (b2.setFile f none) = (registry b2).setFile f none := by
      intro b2 file2 hf2 hno2
      refine registry_setFile ?_
      rw [pointsTo, hf2, Option.bind_some, hno2]
      rfl
    have hmask : (((registry b).setLinked (.file f) false).files file.fd).mask =
        (b1.files file1.fd).mask := by
      rw [← hreg, hfd]
      rfl
    unfold Registry.free Registry.detect
    rw [hmask, ← hreg, ← hfd]
    simp only [Ep.epFileDetect, wp_bind, wp_getFile, hf1, wp_get, wp_ite, wp_pure, wp_modify,
      hno, ne_eq, not_true_eq_false, and_false, if_false]
    split_ifs
    · exact hnone b1 file1 hf1 hno
    · have hdet := registry_detectFd hf1 0 (-1)
      rw [hno] at hdet
      rw [hnone _ { fd := file1.fd } (Function.update_self ..) rfl, hdet]
      have hoff : (registry b1).linked (.file f) = false := by
        rw [hreg]
        exact Function.update_self ..
      refine congrArg (Registry.setFile · f none) (setLinked_eq_self ?_).symm
      show ((registry b1).detectFd f file1.fd 0).linked (.file f) = false
      rw [detectFd_linked, hoff]
  simp only [epFileFree, wp_bind, wp_getFile, hf] at hrest ⊢
  cases hinfo : file.timerInfo with
  | none =>
    rw [hinfo] at hpt
    have hoff : (registry b).linked (.file f) = false := by
      show nodeLinked b (pointsTo b (.file f)) = false
      rw [hpt]
      rfl
    have h0 := hrest b file hf hinfo rfl (setLinked_eq_self hoff).symm
    rw [wp_bind]
    exact h0
  | some k =>
    rw [hinfo] at hpt
    obtain ⟨info, hk, ho⟩ := h.node (.file f) k hpt
    simp only [wp_bind, wp_getInfo, wp_modify, hk]
    refine hrest _ { file with timerInfo := none } (Function.update_self ..) rfl rfl ?_
    have hinfos : ∀ j, j ≠ k → (((if info.pending then b.setList (b.listTimers.erase k) else b).setInfo
        k none).setFile f (some { file with timerInfo := none })).infos j = b.infos j := by
      intro j hne
      split_ifs <;> exact Function.update_of_ne hne _ _
    have hp : pointsTo (((if info.pending then b.setList (b.listTimers.erase k) else b).setInfo
        k none).setFile f (some { file with timerInfo := none })) =
        Function.update (pointsTo b) info.owner none := by
      rw [pointsTo_setFile, ho]
      split_ifs <;> rfl
    have hlinked := h.linked_dropNode hk hinfos hp
    rw [ho] at hlinked
    refine Registry.ext ?_ ?_ hlinked ?_ ?_ ?_ ?_
    · split_ifs <;> rfl
    · have hfiles := epFiles_update_same hf { file with timerInfo := none } rfl rfl
      show _ = (registry b).epFiles
      rw [← hfiles]
      split_ifs <;> rfl
    · split_ifs <;> rfl
    · split_ifs <;> rfl
    · split_ifs <;> rfl
    · split_ifs <;> rfl

/-! ### The loop of `ep_timer_check` -/

theorem Nodes.rearm_registry (h : Nodes b) (fd : Fd) :
    wp (Ep.rearmFile fd) (fun _ b' => registry b' = (registry b).rearm fd)
      (fun _ b' => b' = b) b := by
  simp only [Ep.rearmFile, wp_bind, wp_get]
  unfold Registry.rearm
  have hslots : (registry b).files = b.files := rfl
  rw [hslots]
  cases hslot : (b.files fd).file with
  | none => exact rfl
  | some f =>
    simp only [wp_bind, wp_getFile]
    have hfile : (registry b).epFiles f = (b.epFiles f).map fun file => (file.fd, file.timeout) := rfl
    cases hf : b.epFiles f with
    | none => exact trivial
    | some file =>
      rw [hfile, hf, Option.map_some, Option.any_some]
      simp only [wp_ite, wp_bind, wp_pure]
      split_ifs with htime hdec hdec
      · refine wp_mono (wp_and (h.fileInfo hf) (h.fileInfo_registry hf)) ?_ fun _ _ h => h.1.elim
        rintro k b1 ⟨⟨h1, -⟩, hreg1, hpt1⟩
        obtain ⟨info, hk, ho⟩ := h1.node _ k hpt1
        simp only [wp_epTimerInfoAdd, hk]
        rw [h1.registry_link hk, ho, hreg1]
      · exact absurd (decide_eq_true htime) hdec
      · exact absurd (of_decide_eq_true hdec) htime
      · exact rfl

/-- Whom the loop of `ep_timer_check` calls back at `pos`: the owner of the entry there, whose deadline
has passed.  A callback may have unlinked this entry. -/
def reached (b : EpBase) (ms : ℤ) (pos : ListPos) : Option InfoOwner :=
  match pos with
  | .entry k => ((b.infos k).filter fun info => info.timeoutMs ≤ ms).map TimerInfo.owner
  | _ => none

theorem reached_iff (b : EpBase) (ms : ℤ) (pos : ListPos) (o : InfoOwner) :
    reached b ms pos = some o ↔ ∃ k info, pos = .entry k ∧ b.infos k = some info ∧
      info.timeoutMs ≤ ms ∧ info.owner = o := by
  constructor
  · intro hr
    cases pos with
    | head => exact absurd hr.symm (Option.some_ne_none o)
    | poison => exact absurd hr.symm (Option.some_ne_none o)
    | entry k =>
      obtain ⟨info, hinfo, ho⟩ := Option.map_eq_some_iff.mp hr
      obtain ⟨hinfo, hms⟩ := Option.filter_eq_some_iff.mp hinfo
      exact ⟨k, info, rfl, hinfo, of_decide_eq_true hms, ho⟩
  · rintro ⟨k, info, rfl, hinfo, hms, ho⟩
    rw [reached, hinfo, Option.filter_some, if_pos (decide_eq_true hms), Option.map_some, ho]

/-- An entry that is due is not linked when its owner is called back. -/
theorem Nodes.fire_registry (h : Nodes b) (hk : b.infos k = some info) (ms : ℤ) (temp : ListPos) :
    wp (fireInfo ms k info temp)
      (fun _ b' => b'.checking.map (fun cursor => cursor.callback.owner) = some info.owner ∧
        registry b' = (registry b).setLinked info.owner false)
      (fun _ _ => False) b := by
  refine wp_mono (h.fire hk ms temp) ?_ fun _ _ => id
  rintro _ _ ⟨-, callback, ho, rfl⟩
  exact ⟨congrArg some ho, h.registry_unlink hk⟩

/-- The loop goes on from `pos`: whom it calls back is not linked then. -/
theorem Nodes.checkAt_registry (h : Nodes b) (ms : ℤ) (pos : ListPos) :
    wp (Ep.checkAt ms pos)
      (fun _ b' => b'.checking.map (fun cursor => cursor.callback.owner) = reached b ms pos ∧
        registry b' = (reached b ms pos).elim (registry b) fun o => (registry b).setLinked o false)
      (fun _ b' => Nodes b' ∧ registry b' = registry b) b := by
  cases pos with
  | head => exact ⟨rfl, rfl⟩
  | poison => exact ⟨h, rfl⟩
  | entry k =>
    have hv := h.visit k
    simp only [wp_checkAt_entry, reached]
    cases hk : b.infos k with
    | none => exact ⟨hv, rfl⟩
    | some info =>
      dsimp only
      rw [Option.filter_some]
      split_ifs with hlate hdec hdec
      · exact absurd (of_decide_eq_true hdec) (not_le.mpr hlate)
      · exact ⟨rfl, rfl⟩
      · exact wp_mono (hv.fire_registry hk ms _) (fun _ _ => id) fun _ _ => False.elim
      · exact absurd (decide_eq_true (not_lt.mp hlate)) hdec

/-! ### Steps -/

/-- What an action does to the registry, where `fired` is called back at its end, linked or not.  An
action on an object that does not exist is skipped, and so is the one that a fault stops. -/
inductive RegistryStep (r : Registry) : EpAct → Option InfoOwner → Registry → Prop
  | skip (act : EpAct) : RegistryStep r act none r
  | timerNew {t : TimerId} (h : r.timers t = none) :
    RegistryStep r .timerNew none (r.setTimer t (some false))
  | timerAdd (t : TimerId) (millsec : ℤ) :
    RegistryStep r (.timerAdd t millsec) none ((r.setTimer t (some true)).setLinked (.timer t) true)
  | timerDel (t : TimerId) :
    RegistryStep r (.timerDel t) none ((r.setTimer t (some false)).setLinked (.timer t) false)
  | timerFree (t : TimerId) :
    RegistryStep r (.timerFree t) none ((r.setTimer t none).setLinked (.timer t) false)
  | fileCreate (fd : Fd) : RegistryStep r (.fileCreate fd) none (r.create fd)
  | fileDetect {f : FileId} {fd : Fd} {timeout0 : ℤ} (what : Mask) (timeout : ℤ)
    (h : r.epFiles f = some (fd, timeout0)) :
    RegistryStep r (.fileDetect f what timeout) none (r.detect f fd what timeout)
  | fileFree {f : FileId} {fd : Fd} {timeout0 : ℤ} (h : r.epFiles f = some (fd, timeout0)) :
    RegistryStep r (.fileFree f) none (r.free f fd)
  | check (o : InfoOwner) : RegistryStep r .check (some o) (r.setLinked o false)
  | rearm (fd : Fd) : RegistryStep r .ret none (r.rearm fd)
  | ret (o : InfoOwner) : RegistryStep r .ret (some o) (r.setLinked o false)
  | rearmRet (fd : Fd) (o : InfoOwner) :
    RegistryStep r .ret (some o) ((r.rearm fd).setLinked o false)

theorem registry_epFiles (hf : b.epFiles f = some file) :
    (registry b).epFiles f = some (file.fd, file.timeout) := by
  show (b.epFiles f).map _ = _
  rw [hf]
  rfl

/-- The callback of `ep_timer_check` returns. -/
theorem Nodes.checkRet_registry (h : Nodes b) :
    wp epTimerCheckRet
      (fun _ b' => RegistryStep (registry b) .ret
        (b'.checking.map fun cursor => cursor.callback.owner) (registry b'))
      (fun _ b' => Nodes b' ∧ RegistryStep (registry b) .ret none (registry b')) b := by
  simp only [epTimerCheckRet, wp_bind, wp_get]
  cases hc : b.checking with
  | none =>
    show RegistryStep (registry b) .ret (b.checking.map _) (registry b)
    rw [hc]
    exact .skip _
  | some cursor =>
    cases hcb : cursor.callback with
    | timer t =>
      -- the loop goes on at once
      simp only [hcb]
      refine wp_mono (h.checkAt_registry cursor.ms cursor.temp) ?_ ?_
      · rintro _ b' ⟨hfired, hreg⟩
        rw [hfired, hreg]
        cases reached b cursor.ms cursor.temp with
        | none => exact .skip _
        | some o => exact .ret o
      · rintro _ b' ⟨h', hreg⟩
        rw [hreg]
        exact ⟨h', .skip _⟩
    | file f fd =>
      -- the file in the slot is armed again, and then the loop goes on
      simp only [hcb, wp_bind]
      have hboth := wp_and (h.rearm_registry fd)
        (wp_mono (h.rearmFile fd) (fun _ _ h' => h'.1) fun _ _ _ => trivial)
      refine wp_mono hboth ?_ ?_
      · rintro _ b1 ⟨hreg1, h1⟩
        refine wp_mono (h1.checkAt_registry cursor.ms cursor.temp) ?_ ?_
        · rintro _ b' ⟨hfired, hreg⟩
          rw [hfired, hreg, hreg1]
          cases reached b1 cursor.ms cursor.temp with
          | none => exact .rearm fd
          | some o => exact .rearmRet fd o
        · rintro _ b' ⟨h', hreg⟩
          rw [hreg, hreg1]
          exact ⟨h', .rearm fd⟩
      · rintro _ b' ⟨rfl, -⟩
        exact ⟨h, .skip _⟩

/-- **Every step of the event base is one of the registry**, also a step that faults. -/
theorem Nodes.registry_step (h : Nodes b) (i : EpInput) :
    wp (epStep i)
      (fun _ b' => RegistryStep (registry b) i.act ((begins b i b').map Callback.owner) (registry b'))
      (fun _ b' => Nodes b' ∧ RegistryStep (registry b) i.act none (registry b')) b := by
  obtain ⟨now, act⟩ := i
  have h0 : Nodes { b with now := now } :=
    h.of_eq rfl rfl rfl (pointsTo_congr rfl rfl) h.freshTimer h.freshFile
  have hskip : ∀ act, RegistryStep (registry b) act none (registry { b with now := now }) :=
    fun act => .skip act
  simp only [epStep, wp_bind, wp_modify]
  cases act with
  | timerNew =>
    simp only [epHandle, wp_bind, wp_pure]
    refine wp_mono h0.timerNew_registry ?_ fun _ _ => False.elim
    rintro t b' ⟨hnone, hreg⟩
    rw [hreg]
    exact .timerNew hnone
  | timerAdd t millsec =>
    -- a handle that is not live is skipped
    simp only [epHandle, wp_bind, wp_get, wp_ite, wp_pure]
    split_ifs with hl
    · obtain ⟨tm, ht⟩ := Option.isSome_iff_exists.mp hl
      refine wp_mono (h0.timerAdd_registry ht millsec) ?_ fun _ _ => False.elim
      intro _ b' hreg
      rw [hreg]
      exact .timerAdd t millsec
    · exact hskip _
  | timerDel t =>
    simp only [epHandle, wp_bind, wp_get, wp_ite, wp_pure]
    split_ifs with hl
    · obtain ⟨tm, ht⟩ := Option.isSome_iff_exists.mp hl
      have hdrop := h0.dropTimer_registry ht (some {}) rfl
      simp only [epTimerDel, wp_bind, wp_getTimer, ht] at hdrop ⊢
      refine wp_mono hdrop ?_ fun _ _ => False.elim
      intro _ b' hreg
      refine wp_mono hreg ?_ fun _ _ => False.elim
      intro _ b'' hreg
      rw [hreg]
      exact .timerDel t
    · exact hskip _
  | timerFree t =>
    simp only [epHandle, wp_bind, wp_get, wp_ite, wp_pure]
    split_ifs with hl
    · obtain ⟨tm, ht⟩ := Option.isSome_iff_exists.mp hl
      have hdrop := h0.dropTimer_registry ht none rfl
      simp only [epTimerFree, wp_bind, wp_getTimer, ht] at hdrop ⊢
      refine wp_mono hdrop ?_ fun _ _ => False.elim
      intro _ b' hreg
      refine wp_mono hreg ?_ fun _ _ => False.elim
      intro _ b'' hreg
      rw [hreg]
      exact .timerFree t
    · exact hskip _
  | fileCreate fd =>
    simp only [epHandle, wp_bind, wp_pure]
    refine wp_mono (h0.fileCreate_registry fd) ?_ fun _ _ => False.elim
    intro _ b' hreg
    rw [hreg]
    exact .fileCreate fd
  | fileDetect f what timeout =>
    simp only [epHandle, wp_bind, wp_get, wp_ite, wp_pure]
    split_ifs with hl
    · obtain ⟨file, hf⟩ := Option.isSome_iff_exists.mp hl
      refine wp_mono (h0.detect_registry hf what timeout) ?_ fun _ _ => False.elim
      intro _ b' hreg
      rw [hreg]
      exact .fileDetect what timeout (registry_epFiles (b := b) hf)
    · exact hskip _
  | fileFree f =>
    simp only [epHandle, wp_bind, wp_get, wp_ite, wp_pure]
    split_ifs with hl
    · obtain ⟨file, hf⟩ := Option.isSome_iff_exists.mp hl
      refine wp_mono (h0.fileFree_registry hf) ?_ fun _ _ => False.elim
      intro _ b' hreg
      rw [hreg]
      exact .fileFree (registry_epFiles (b := b) hf)
    · exact hskip _
  | check =>
    -- the loop runs up to the first callback
    simp only [epHandle, wp_bind, wp_get, wp_ite, wp_pure]
    split_ifs with hl
    · simp only [epTimerCheck, wp_bind, wp_get]
      have hloop : ∀ b', begins b ⟨now, .check⟩ b' = b'.checking.map Cursor.callback :=
        fun b' => if_pos hl
      refine wp_mono (h0.checkAt_registry now (.ofOption b.listTimers.head?)) ?_ ?_
      · rintro _ b' ⟨hfired, hreg⟩
        rw [hloop, Option.map_map, hreg]
        show RegistryStep _ _ (b'.checking.map fun cursor => cursor.callback.owner) _
        rw [hfired]
        cases reached { b with now := now } now (.ofOption b.listTimers.head?) with
        | none => exact .skip _
        | some o => exact .check o
      · rintro _ b' ⟨h', hreg⟩
        rw [hreg]
        exact ⟨h', hskip _⟩
    · have hloop : begins b ⟨now, .check⟩ { b with now := now } = none := if_neg hl
      rw [hloop]
      exact hskip _
  | ret =>
    -- the loop goes on behind the callback
    refine wp_mono h0.checkRet_registry ?_ fun _ _ => id
    intro _ b' hstep
    have hloop : begins b ⟨now, .ret⟩ b' = b'.checking.map Cursor.callback := rfl
    rw [hloop, Option.map_map]
    exact hstep

end H2ClientProxy.Ep
