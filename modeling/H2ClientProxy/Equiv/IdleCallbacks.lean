import H2ClientProxy.Equiv.IdlePool

/-!
# No callback of an idle relay

A relay is put into the pool while the parser is in the middle of what was read, and nobody stops the
parser or the timers of the relay then.

* `IdleSilent`: no client has been called for a relay that was idle.
* `PooledAlone`: when a relay is pooled, the parser is done with its client and no timer is set for it.
* `IdleInv`: what then holds of every relay, its timers and the tasks that are left.
* `wp_run_idleSilent`: such runs call no client of an idle relay, and no assertion fails in them.
-/

namespace H2ClientProxy.RelayHttp

open Wp Machine

/-! ### The property -/

/-- No client was called for an idle relay. -/
def IdleSilent (s : Relays) : Prop := ∀ n ∈ s.calls, n.idle = false

/-- A run may end in another fault. -/
def Harmless (e : RelayFault) (s : Relays) : Prop := e ≠ .assertFailed ∧ IdleSilent s

/-- What the client is called for. -/
def ParserCall.loud : ParserCall → Bool
  | .headersComplete | .body _ | .messageComplete => true
  | _ => false

/-- The tasks that are not for an idle relay. -/
def Task.loud : Task → Bool
  | .call c => c.loud
  | .reuse => true
  | _ => false

/-- `client.c` sends a request when it has been told that the relay is connected, and forgets the relay
when its response is complete. -/
def CallerKeeps (s : Relays) : RelayInput → Bool
  | .call (.sendRequest r _) => (s.relays r).all (fun relay => !relay.isIdle)
      && s.calls.any fun n => n.relay = r && n.what = .connected
  | _ => true

/-- No timer is set for the relay. -/
def timersOut (s : Relays) (r : RelayId) : Bool :=
  (List.range s.nextTimer).all fun t => (s.timers t).all fun tm => tm.relay ≠ r

/-- When `relay_sys_reuse_relay` pools a relay, no callback of the client is left to make for what has
been read, and no timer is set for the relay. -/
def PooledAlone (s : Relays) : RelayInput → Bool
  | .next =>
    match s.handling with
    | some (r, .reuse :: tasks) => s.calling || (tasks.all (!·.loud) && timersOut s r)
    | _ => true
  | _ => true

/-! ### The invariant -/

/-- What holds of every relay: a connection is made when the name has been looked up, and it waits for
one event at a time. -/
structure Sound (relay : HttpRelay) : Prop where
  shouldFree : relay.shouldFree = false
  dns : relay.dnsReq = true → relay.conn = none
  mask : ∀ c, relay.conn = some c → c.detect.read = true → c.detect.write = false

/-- A relay with a connection that will not call back for being connected. -/
def Ready (relay : HttpRelay) : Prop :=
  ∃ c, relay.conn = some c ∧ relay.dnsReq = false ∧ (relay.connected = true ∨ c.detect.write = false)

/-- The relay is ready, unless it is about to be freed. -/
def Settled (s : Relays) (r : RelayId) : Prop :=
  ∀ relay, s.relays r = some relay → Ready relay ∨ s.handling = some (r, [.free])

/-- The tasks of the parser. -/
def Task.parses : Task → Bool
  | .call _ => true
  | .reuse => true
  | _ => false

/-- What is left to do for a relay suits it. -/
structure TasksOk (relay : HttpRelay) (tasks : List Task) : Prop where
  loud : tasks.any Task.loud = true → relay.isIdle = false
  ready : tasks.any Task.parses = true → Ready relay

structure IdleInv (s : Relays) : Prop where
  silent : IdleSilent s
  sound : ∀ r relay, s.relays r = some relay → Sound relay
  idle : ∀ r relay, s.relays r = some relay → relay.isIdle = true →
    Ready relay ∧ ∀ t tm, s.timers t = some tm → tm.relay ≠ r
  timer : ∀ t tm, s.timers t = some tm → Settled s tm.relay
  told : ∀ n ∈ s.calls, n.what = .connected → Settled s n.relay
  tasks : ∀ r tasks, s.handling = some (r, tasks) → ∀ relay, s.relays r = some relay →
    TasksOk relay tasks
  relayLt : ∀ r relay, s.relays r = some relay → r < s.nextRelay
  timerLt : ∀ t tm, s.timers t = some tm → t < s.nextTimer ∧ tm.relay < s.nextRelay
  noteLt : ∀ n ∈ s.calls, n.relay < s.nextRelay
  taskLt : ∀ r tasks, s.handling = some (r, tasks) → r < s.nextRelay

variable {s s' : Relays} {r : RelayId} {relay relay' : HttpRelay}

theorem idleInv_init : IdleInv .init where
  silent := fun _ hn => absurd hn List.not_mem_nil
  sound := fun _ relay hr => absurd hr.symm (Option.some_ne_none relay)
  idle := fun _ relay hr => absurd hr.symm (Option.some_ne_none relay)
  timer := fun _ tm htm => absurd htm.symm (Option.some_ne_none tm)
  told := fun _ hn => absurd hn List.not_mem_nil
  tasks := fun _ _ hh => absurd hh.symm (Option.some_ne_none _)
  relayLt := fun _ relay hr => absurd hr.symm (Option.some_ne_none relay)
  timerLt := fun _ tm htm => absurd htm.symm (Option.some_ne_none tm)
  noteLt := fun _ hn => absurd hn List.not_mem_nil
  taskLt := fun _ _ hh => absurd hh.symm (Option.some_ne_none _)

/-- What is no part of the invariant, and timers that stop. -/
theorem IdleInv.of_eq (h : IdleInv s) (hrel : s'.relays = s.relays)
    (htm : ∀ t tm, s'.timers t = some tm → s.timers t = some tm) (hnt : s'.nextTimer = s.nextTimer)
    (hh : s'.handling = s.handling) (hc : s'.calls = s.calls) (hn : s'.nextRelay = s.nextRelay) :
    IdleInv s' where
  silent := by
    unfold IdleSilent
    rw [hc]
    exact h.silent
  sound := by
    rw [hrel]
    exact h.sound
  idle := by
    rw [hrel]
    intro r relay hr hi
    obtain ⟨hready, hout⟩ := h.idle r relay hr hi
    exact ⟨hready, fun t tm ht => hout t tm (htm t tm ht)⟩
  timer := by
    unfold Settled
    rw [hrel, hh]
    exact fun t tm ht => h.timer t tm (htm t tm ht)
  told := by
    unfold Settled
    rw [hrel, hh, hc]
    exact h.told
  tasks := by
    rw [hrel, hh]
    exact h.tasks
  relayLt := by
    rw [hrel, hn]
    exact h.relayLt
  timerLt := by
    rw [hnt, hn]
    exact fun t tm ht => h.timerLt t tm (htm t tm ht)
  noteLt := by
    rw [hc, hn]
    exact h.noteLt
  taskLt := by
    rw [hh, hn]
    exact h.taskLt

/-- Nothing is left but what an idle relay allows. -/
theorem tasksOk_free (relay : HttpRelay) : TasksOk relay [.free] := ⟨nofun, nofun⟩

theorem tasksOk_nil (relay : HttpRelay) : TasksOk relay [] := ⟨nofun, nofun⟩

theorem tasksOk_enableRead (relay : HttpRelay) : TasksOk relay [.enableRead] := ⟨nofun, nofun⟩

theorem readEnd_ne_free (ok : Bool) : Task.readEnd ok ≠ .free := nofun

theorem newRelay_not_connected (host : Bytes) (port : ℤ) :
    (newRelay host port).relayStatus ≠ .connected := nofun

/-- A relay that waits for a name is not ready. -/
theorem not_ready (hd : relay.dnsReq = true) : ¬Ready relay := by
  rintro ⟨_, _, hd', -⟩
  exact absurd (hd.symm.trans hd') (by decide)

/-- A relay changes: what has to hold of it afterwards. -/
theorem IdleInv.change (h : IdleInv s) (hr : s.relays r = some relay) (hs : Sound relay')
    (hready : Ready relay → Ready relay' ∨ s.handling = some (r, [.free]))
    (hidle : relay'.isIdle = true →
      Ready relay' ∧ ∀ t tm, s.timers t = some tm → tm.relay ≠ r)
    (htasks : ∀ tasks, s.handling = some (r, tasks) → TasksOk relay' tasks) :
    IdleInv (s.setRelay r (some relay')) := by
  -- every relay after the change is the one that changes, or one from before
  have hfrom : ∀ r' x, (s.setRelay r (some relay')).relays r' = some x →
      (r' = r ∧ x = relay') ∨ s.relays r' = some x := by
    intro r' x hx
    have hx' : Function.update s.relays r (some relay') r' = some x := hx
    by_cases he : r' = r
    · rw [he, Function.update_self] at hx'
      exact Or.inl ⟨he, (Option.some.inj hx').symm⟩
    · rw [Function.update_of_ne he] at hx'
      exact Or.inr hx'
  have hsettled : ∀ r', Settled s r' → Settled (s.setRelay r (some relay')) r' := by
    intro r' hs' x hx
    rcases hfrom r' x hx with ⟨rfl, rfl⟩ | hx
    · rcases hs' relay hr with hy | hfree
      · exact hready hy
      · exact Or.inr hfree
    · exact hs' x hx
  constructor
  · exact h.silent
  · -- `sound`
    intro r' x hx
    rcases hfrom r' x hx with ⟨rfl, rfl⟩ | hx
    · exact hs
    · exact h.sound r' x hx
  · -- `idle`
    intro r' x hx hi
    rcases hfrom r' x hx with ⟨rfl, rfl⟩ | hx
    · exact hidle hi
    · exact h.idle r' x hx hi
  · exact fun t tm ht => hsettled _ (h.timer t tm ht)
  · exact fun n hn hw => hsettled _ (h.told n hn hw)
  · -- `tasks`
    intro r' tasks hh x hx
    rcases hfrom r' x hx with ⟨rfl, rfl⟩ | hx
    · exact htasks tasks hh
    · exact h.tasks r' tasks hh x hx
  · -- `relayLt`
    intro r' x hx
    rcases hfrom r' x hx with ⟨rfl, -⟩ | hx
    · exact h.relayLt r' relay hr
    · exact h.relayLt r' x hx
  · exact h.timerLt
  · exact h.noteLt
  · exact h.taskLt

/-- A relay changes, and is as ready and as idle as before. -/
theorem IdleInv.setRelay (h : IdleInv s) (hr : s.relays r = some relay) (hs : Sound relay')
    (hready : Ready relay → Ready relay') (hidle : relay'.isIdle = true → relay.isIdle = true) :
    IdleInv (s.setRelay r (some relay')) := by
  refine h.change hr hs (fun hx => Or.inl (hready hx)) (fun hi => ?_) fun tasks hh => ?_
  · obtain ⟨hx, hout⟩ := h.idle r relay hr (hidle hi)
    exact ⟨hready hx, hout⟩
  · have hok := h.tasks r tasks hh relay hr
    refine ⟨fun hloud => ?_, fun hp => hready (hok.ready hp)⟩
    rw [Bool.eq_false_iff]
    intro hi
    exact absurd ((hidle hi).symm.trans (hok.loud hloud)) (by decide)

/-- A timer is set for a relay that is not idle. -/
theorem IdleInv.addTimer (h : IdleInv s) (hr : s.relays r = some relay) (hi : relay.isIdle = false)
    (hs : Settled s r) (cb : TmrCallback) : IdleInv (s.addTimer { callback := cb, relay := r }) := by
  have hfrom : ∀ t tm, (s.addTimer { callback := cb, relay := r }).timers t = some tm →
      s.timers t = some tm ∨ (t = s.nextTimer ∧ tm.relay = r) := by
    intro t tm ht
    have ht' : Function.update s.timers s.nextTimer (some { callback := cb, relay := r }) t =
        some tm := ht
    by_cases he : t = s.nextTimer
    · rw [he, Function.update_self] at ht'
      rw [← Option.some.inj ht']
      exact Or.inr ⟨he, rfl⟩
    · rw [Function.update_of_ne he] at ht'
      exact Or.inl ht'
  constructor
  · exact h.silent
  · exact h.sound
  · -- `idle`
    intro r' x hx hi'
    obtain ⟨hready, hout⟩ := h.idle r' x hx hi'
    refine ⟨hready, fun t tm ht => ?_⟩
    rcases hfrom t tm ht with ht | ⟨-, hr'⟩
    · exact hout t tm ht
    · rw [hr']
      rintro rfl
      have hsame : s.relays r = some x := hx
      rw [hr] at hsame
      rw [← Option.some.inj hsame, hi] at hi'
      exact Bool.false_ne_true hi'
  · -- `timer`
    intro t tm ht
    rcases hfrom t tm ht with ht | ⟨-, hr'⟩
    · exact h.timer t tm ht
    · rw [hr']
      exact hs
  · exact h.told
  · exact h.tasks
  · exact h.relayLt
  · -- `timerLt`
    intro t tm ht
    show t < s.nextTimer + 1 ∧ tm.relay < s.nextRelay
    rcases hfrom t tm ht with ht | ⟨he, hr'⟩
    · obtain ⟨hlt, hlt'⟩ := h.timerLt t tm ht
      exact ⟨Nat.lt_succ_of_lt hlt, hlt'⟩
    · rw [he, hr']
      exact ⟨Nat.lt_succ_self _, h.relayLt r relay hr⟩
  · exact h.noteLt
  · exact h.taskLt

/-- What is left to do changes; a relay that was about to be freed is ready. -/
theorem IdleInv.setTasks (h : IdleInv s)
    (hfree : ∀ r', s.handling = some (r', [.free]) → ∀ relay, s.relays r' = some relay → Ready relay)
    (hlt : r < s.nextRelay) {tasks : List Task}
    (ht : ∀ relay, s.relays r = some relay → TasksOk relay tasks) : IdleInv (s.setTasks r tasks) := by
  have hsettled : ∀ r', Settled s r' → Settled (s.setTasks r tasks) r' := by
    intro r' hs x hx
    rcases hs x hx with hready | hh
    · exact Or.inl hready
    · exact Or.inl (hfree r' hh x hx)
  constructor
  · exact h.silent
  · exact h.sound
  · exact h.idle
  · exact fun t tm ht => hsettled _ (h.timer t tm ht)
  · exact fun n hn hw => hsettled _ (h.told n hn hw)
  · -- `tasks`
    intro r' tasks' hh x hx
    have hh' : some (r, tasks) = some (r', tasks') := hh
    obtain ⟨rfl, rfl⟩ := Prod.mk.inj (Option.some.inj hh')
    exact ht x hx
  · exact h.relayLt
  · exact h.timerLt
  · exact h.noteLt
  · -- `taskLt`
    intro r' tasks' hh
    have hh' : some (r, tasks) = some (r', tasks') := hh
    obtain ⟨rfl, rfl⟩ := Prod.mk.inj (Option.some.inj hh')
    exact hlt

/-- An event is handled. -/
theorem IdleInv.start (h : IdleInv s) (hh : s.handling = none) (hlt : r < s.nextRelay)
    {tasks : List Task} (ht : ∀ relay, s.relays r = some relay → TasksOk relay tasks) :
    IdleInv (s.setTasks r tasks) :=
  h.setTasks (fun _ hh' => absurd (hh'.symm.trans hh) (Option.some_ne_none _)) hlt ht

/-- The event has been handled. -/
theorem IdleInv.done (h : IdleInv s) (hfree : ∀ r', s.handling ≠ some (r', [.free])) :
    IdleInv { s with handling := none } := by
  have hsettled : ∀ r', Settled s r' → Settled { s with handling := none } r' := by
    intro r' hs x hx
    rcases hs x hx with hready | hh
    · exact Or.inl hready
    · exact absurd hh (hfree r')
  constructor
  · exact h.silent
  · exact h.sound
  · exact h.idle
  · exact fun t tm ht => hsettled _ (h.timer t tm ht)
  · exact fun n hn hw => hsettled _ (h.told n hn hw)
  · exact fun r' tasks hh => absurd hh.symm (Option.some_ne_none _)
  · exact h.relayLt
  · exact h.timerLt
  · exact h.noteLt
  · exact fun r' tasks hh => absurd hh.symm (Option.some_ne_none _)

/-- A relay is gone, and at most the tasks for it change. -/
theorem IdleInv.drop (h : IdleInv s) (hlt : r < s.nextRelay)
    (hrel : s'.relays = Function.update s.relays r none)
    (htm : ∀ t tm, s'.timers t = some tm → s.timers t = some tm) (hnt : s'.nextTimer = s.nextTimer)
    (hh : s'.handling = s.handling ∨
      ∃ tasks tasks', s.handling = some (r, tasks) ∧ s'.handling = some (r, tasks'))
    (hc : s'.calls = s.calls) (hn : s'.nextRelay = s.nextRelay) : IdleInv s' := by
  have hfrom : ∀ r' x, s'.relays r' = some x → r' ≠ r ∧ s.relays r' = some x := by
    intro r' x hx
    rw [hrel] at hx
    by_cases he : r' = r
    · rw [he, Function.update_self] at hx
      exact absurd hx.symm (Option.some_ne_none x)
    · rw [Function.update_of_ne he] at hx
      exact ⟨he, hx⟩
  have hsettled : ∀ r', Settled s r' → Settled s' r' := by
    intro r' hs x hx
    obtain ⟨hne, hx'⟩ := hfrom r' x hx
    rcases hs x hx' with hready | hfree
    · exact Or.inl hready
    · refine Or.inr ?_
      rcases hh with hh | ⟨tasks, -, hh, -⟩
      · rw [hh, hfree]
      · rw [hh] at hfree
        exact absurd (Prod.mk.inj (Option.some.inj hfree)).1.symm hne
  constructor
  · -- `silent`
    unfold IdleSilent
    rw [hc]
    exact h.silent
  · intro r' x hx
    exact h.sound r' x (hfrom r' x hx).2
  · -- `idle`
    intro r' x hx hi
    obtain ⟨hready, hout⟩ := h.idle r' x (hfrom r' x hx).2 hi
    exact ⟨hready, fun t tm ht => hout t tm (htm t tm ht)⟩
  · exact fun t tm ht => hsettled _ (h.timer t tm (htm t tm ht))
  · rw [hc]
    exact fun n hn hw => hsettled _ (h.told n hn hw)
  · -- `tasks`
    intro r' tasks' hh' x hx
    obtain ⟨hne, hx'⟩ := hfrom r' x hx
    rcases hh with hh | ⟨-, tasks, -, hh⟩
    · rw [hh] at hh'
      exact h.tasks r' tasks' hh' x hx'
    · rw [hh] at hh'
      exact absurd (Prod.mk.inj (Option.some.inj hh')).1.symm hne
  · rw [hn]
    exact fun r' x hx => h.relayLt r' x (hfrom r' x hx).2
  · rw [hnt, hn]
    exact fun t tm ht => h.timerLt t tm (htm t tm ht)
  · rw [hc, hn]
    exact h.noteLt
  · -- `taskLt`
    rw [hn]
    intro r' tasks' hh'
    rcases hh with hh | ⟨-, tasks, -, hh⟩
    · rw [hh] at hh'
      exact h.taskLt r' tasks' hh'
    · rw [hh] at hh'
      rw [← (Prod.mk.inj (Option.some.inj hh')).1]
      exact hlt

/-! ### Functions -/

/-- A call keeps the invariant, or ends the run without harm. -/
def KeepsIdle {α : Type} (s : Relays) (x : RelayM α) : Prop :=
  wp x (fun _ => IdleInv) Harmless s

theorem KeepsIdle.bind {α β : Type} {x : RelayM α} {f : α → RelayM β} (hx : KeepsIdle s x)
    (hf : ∀ a s', IdleInv s' → KeepsIdle s' (f a)) : KeepsIdle s (x >>= f) := by
  unfold KeepsIdle at hx hf ⊢
  rw [wp_bind]
  exact wp_mono hx (fun a s' h => hf a s' h) fun _ _ => id

/-- A relay that is used after it has been freed ends the run. -/
theorem IdleSilent.freed (h : IdleSilent s) (r : RelayId) : Harmless (.relayFreed r) s :=
  ⟨nofun, h⟩

theorem IdleInv.freed (h : IdleInv s) (r : RelayId) : Harmless (.relayFreed r) s :=
  h.silent.freed r

/-- The client is called for a relay that is not idle. -/
theorem IdleInv.callback (h : IdleInv s) (hr : s.relays r = some relay) (hi : relay.isIdle = false)
    {what : RelayWhat} (hw : what = .connected → Settled s r) : KeepsIdle s (callback r what) := by
  unfold KeepsIdle
  simp only [RelayHttp.callback, wp_bind, wp_getRelay, hr, wp_modify]
  have hcases : ∀ n ∈ s.calls ++ [⟨r, what, relay.isIdle⟩],
      n ∈ s.calls ∨ n = ⟨r, what, relay.isIdle⟩ := by
    intro n hn
    rcases List.mem_append.mp hn with hn | hn
    · exact Or.inl hn
    · exact Or.inr (List.mem_singleton.mp hn)
  constructor
  · -- `silent`
    intro n hn
    rcases hcases n hn with hn | rfl
    · exact h.silent n hn
    · exact hi
  · exact h.sound
  · exact h.idle
  · exact h.timer
  · -- `told`
    intro n hn hconn
    rcases hcases n hn with hn | rfl
    · exact h.told n hn hconn
    · exact hw hconn
  · exact h.tasks
  · exact h.relayLt
  · exact h.timerLt
  · -- `noteLt`
    intro n hn
    rcases hcases n hn with hn | rfl
    · exact h.noteLt n hn
    · exact h.relayLt r relay hr
  · exact h.taskLt

/-- `relay_free`, of a relay that may have lost its connection or its last task. -/
theorem IdleInv.free (h : IdleInv s) (hlt : r < s.nextRelay)
    (hrel : Function.update s'.relays r none = Function.update s.relays r none)
    (htm : s'.timers = s.timers) (hnt : s'.nextTimer = s.nextTimer)
    (hh : s'.handling = s.handling ∨
      ∃ tasks tasks', s.handling = some (r, tasks) ∧ s'.handling = some (r, tasks'))
    (hc : s'.calls = s.calls) (hn : s'.nextRelay = s.nextRelay) : KeepsIdle s' (relayFree r) := by
  unfold KeepsIdle
  simp only [relayFree, wp_bind, wp_getRelay, wp_modify, wp_ite]
  cases s'.relays r with
  | none => exact IdleSilent.freed (by rw [IdleSilent, hc]; exact h.silent) r
  | some relay =>
    -- a timer that is stopped was set
    have hstop : ∀ t0 t tm, Function.update s'.timers t0 none t = some tm → s.timers t = some tm := by
      intro t0 t tm ht
      by_cases he : t = t0
      · rw [he, Function.update_self] at ht
        exact absurd ht.symm (Option.some_ne_none tm)
      · rw [Function.update_of_ne he, htm] at ht
        exact ht
    have hkeep : ∀ t tm, s'.timers t = some tm → s.timers t = some tm := by
      rw [htm]
      exact fun _ _ => id
    dsimp only
    split_ifs
    · cases relay.tmrConnected with
      | none => exact h.drop hlt hrel hkeep hnt hh hc hn
      | some t => exact h.drop hlt hrel (hstop t) hnt hh hc hn
    · cases relay.tmrConnected with
      | none => exact h.drop hlt hrel hkeep hnt hh hc hn
      | some t => exact h.drop hlt hrel (hstop t) hnt hh hc hn

/-- A change of a relay that does not concern its connection. -/
theorem Sound.of_eq (h : Sound relay) (hf : relay'.shouldFree = relay.shouldFree)
    (hd : relay'.dnsReq = relay.dnsReq) (hc : relay'.conn = relay.conn) : Sound relay' where
  shouldFree := by rw [hf]; exact h.shouldFree
  dns := by rw [hd, hc]; exact h.dns
  mask := by rw [hc]; exact h.mask

/-- The same for a relay in its state. -/
theorem IdleInv.stays (h : IdleInv s) (hr : s.relays r = some relay)
    (hf : relay'.shouldFree = relay.shouldFree) (hd : relay'.dnsReq = relay.dnsReq)
    (hc : relay'.conn = relay.conn) (hconn : relay'.connected = relay.connected)
    (hidle : relay'.isIdle = relay.isIdle) : IdleInv (s.setRelay r (some relay')) := by
  refine h.setRelay hr ((h.sound r relay hr).of_eq hf hd hc) ?_ fun hi => by rw [← hidle, hi]
  rintro ⟨c, hcsome, hdns, hready⟩
  exact ⟨c, hc.trans hcsome, hd.trans hdns, hready.imp (fun hx => hconn.trans hx) id⟩

/-- A function of the connection that does not make it wait for its establishment. -/
theorem IdleInv.updateConn (h : IdleInv s) (r : RelayId) {f : Conn → Conn}
    (hf : ∀ c, (f c).detect = c.detect ∨ (f c).detect.write = false) :
    KeepsIdle s (updateConn r f) := by
  unfold KeepsIdle
  simp only [RelayHttp.updateConn, wp_bind, wp_getRelay]
  cases hr : s.relays r with
  | none => exact h.freed r
  | some relay =>
    dsimp only
    cases hconn : relay.conn with
    | none => exact ⟨by decide, h.silent⟩
    | some conn =>
      have hs := h.sound r relay hr
      have hwait : conn.detect.write = false → (f conn).detect.write = false := by
        intro hw
        rcases hf conn with he | he
        · rw [he, hw]
        · exact he
      refine h.setRelay hr ⟨hs.shouldFree, fun hd => ?_, fun c hc hread => ?_⟩ ?_ fun hi => hi
      · exact absurd ((hs.dns hd).symm.trans hconn).symm (Option.some_ne_none conn)
      · rw [← Option.some.inj hc] at hread ⊢
        rcases hf conn with he | he
        · rw [he] at hread ⊢
          exact hs.mask conn hconn hread
        · exact he
      · rintro ⟨c, hc, hdns, hready⟩
        rw [hconn] at hc
        obtain rfl := Option.some.inj hc
        exact ⟨f conn, rfl, hdns, hready.imp id hwait⟩

theorem IdleInv.writeConn (h : IdleInv s) (r : RelayId) (data : Bytes) :
    KeepsIdle s (writeConn r data) := h.updateConn r fun _ => Or.inl rfl

/-- `relay_sys_find_alive_relay` on idle relays. -/
theorem IdleInv.findAlive (h : IdleInv s) (host : Bytes) (port : ℤ) {l : List RelayId}
    (hl : ∀ r ∈ l, ∀ relay, s.relays r = some relay → relay.isIdle = true) :
    wp (findAlive host port l)
      (fun res s' => IdleInv s' ∧ ∀ r, res = some r → ∃ relay, s'.relays r = some relay ∧
        relay.isIdle = false ∧ Ready relay) Harmless s := by
  induction l with
  | nil => exact ⟨h, fun r hr => absurd hr.symm (Option.some_ne_none r)⟩
  | cons r l ih =>
    simp only [RelayHttp.findAlive, wp_bind, wp_getRelay]
    cases hr : s.relays r with
    | none => exact h.freed r
    | some relay =>
      simp only [wp_bind, wp_ite, wp_putRelay, wp_modify, wp_pure]
      split_ifs
      · have hready := (h.idle r relay hr (hl r List.mem_cons_self relay hr)).1
        have h1 : IdleInv (s.setRelay r (some { relay with isIdle := false })) :=
          h.setRelay hr ((h.sound r relay hr).of_eq rfl rfl rfl) id
            fun hi => absurd hi Bool.false_ne_true
        refine ⟨h1.of_eq rfl (fun _ _ => id) rfl rfl rfl rfl, fun r' hr' => ?_⟩
        rw [← Option.some.inj hr']
        exact ⟨_, setRelay_self .., rfl, hready⟩
      · exact ih fun r' hr' => hl r' (List.mem_cons_of_mem r hr')

/-- A new relay. -/
theorem IdleInv.new (h : IdleInv s) (host : Bytes) (port : ℤ) :
    IdleInv { s.setRelay s.nextRelay (some (newRelay host port)) with
      nextRelay := s.nextRelay + 1 } := by
  generalize hs' : ({ s.setRelay s.nextRelay (some (newRelay host port)) with
    nextRelay := s.nextRelay + 1 } : Relays) = s'
  have hrel : s'.relays = Function.update s.relays s.nextRelay (some (newRelay host port)) := by
    rw [← hs']
    rfl
  have hn : s'.nextRelay = s.nextRelay + 1 := by rw [← hs']
  have hcalls : s'.calls = s.calls := by rw [← hs']; rfl
  have htimers : s'.timers = s.timers := by rw [← hs']; rfl
  have hnt : s'.nextTimer = s.nextTimer := by rw [← hs']; rfl
  have hhand : s'.handling = s.handling := by rw [← hs']; rfl
  have hfrom : ∀ r' x, s'.relays r' = some x →
      (r' = s.nextRelay ∧ x = newRelay host port) ∨ s.relays r' = some x := by
    intro r' x hx
    rw [hrel] at hx
    by_cases he : r' = s.nextRelay
    · rw [he, Function.update_self] at hx
      exact Or.inl ⟨he, (Option.some.inj hx).symm⟩
    · rw [Function.update_of_ne he] at hx
      exact Or.inr hx
  -- nothing refers to the new name
  have hsettled : ∀ r', r' < s.nextRelay → Settled s r' → Settled s' r' := by
    intro r' hlt hs x hx
    rcases hfrom r' x hx with ⟨rfl, -⟩ | hx
    · exact absurd hlt (Nat.lt_irrefl _)
    · rw [hhand]
      exact hs x hx
  constructor
  · -- `silent`
    unfold IdleSilent
    rw [hcalls]
    exact h.silent
  · -- `sound`
    intro r' x hx
    rcases hfrom r' x hx with ⟨-, rfl⟩ | hx
    · exact ⟨rfl, fun _ => rfl, fun c hc => absurd hc.symm (Option.some_ne_none c)⟩
    · exact h.sound r' x hx
  · -- `idle`
    intro r' x hx hi
    rw [htimers]
    rcases hfrom r' x hx with ⟨-, rfl⟩ | hx
    · exact absurd hi Bool.false_ne_true
    · exact h.idle r' x hx hi
  · rw [htimers]
    exact fun t tm ht => hsettled _ (h.timerLt t tm ht).2 (h.timer t tm ht)
  · rw [hcalls]
    exact fun n hn hw => hsettled _ (h.noteLt n hn) (h.told n hn hw)
  · -- `tasks`
    rw [hhand]
    intro r' tasks hh x hx
    rcases hfrom r' x hx with ⟨rfl, -⟩ | hx
    · exact absurd (h.taskLt _ tasks hh) (Nat.lt_irrefl _)
    · exact h.tasks r' tasks hh x hx
  · -- `relayLt`
    rw [hn]
    intro r' x hx
    rcases hfrom r' x hx with ⟨rfl, -⟩ | hx
    · exact Nat.lt_succ_self _
    · exact Nat.lt_succ_of_lt (h.relayLt r' x hx)
  · rw [htimers, hnt, hn]
    exact fun t tm ht => ⟨(h.timerLt t tm ht).1, Nat.lt_succ_of_lt (h.timerLt t tm ht).2⟩
  · rw [hcalls, hn]
    exact fun n hn' => Nat.lt_succ_of_lt (h.noteLt n hn')
  · rw [hhand, hn]
    exact fun r' tasks hh => Nat.lt_succ_of_lt (h.taskLt r' tasks hh)

/-- `relay_create` sets a timer only for a relay from the pool. -/
theorem IdleInv.create (h : IdleInv s) (hp : PoolInv s) (host : Bytes) (port : ℤ) (args : ℕ) :
    KeepsIdle s (relayCreate host port args) := by
  -- what is left when the relay has been found or made
  have hrest : ∀ r s1 relay, IdleInv s1 → s1.relays r = some relay → relay.isIdle = false →
      (relay.relayStatus = .connected → Ready relay) →
      KeepsIdle s1 (relayCreateRest args r) := by
    intro r s1 relay h1 hr hi hready
    unfold KeepsIdle
    simp only [relayCreateRest, wp_bind, wp_getRelay, hr, wp_ite, wp_pure, wp_putRelay]
    split_ifs with hstatus
    · obtain ⟨conn, hconn, hdns, -⟩ := hready hstatus
      rw [hconn]
      simp only [wp_bind, wp_get, wp_putRelay, wp_modify]
      have hs := h1.sound r relay hr
      have h2 : IdleInv (s1.setRelay r (some { relay with
          args := some args, conn := some (conn.enable { read := true })
          tmrConnected := some s1.nextTimer })) := by
        refine h1.setRelay hr ⟨hs.shouldFree, fun hd => ?_, fun c hc _ => ?_⟩ (fun _ => ?_) id
        · exact absurd (hd.symm.trans hdns) (by decide)
        · rw [← Option.some.inj hc]
          rfl
        · exact ⟨_, rfl, hdns, Or.inr rfl⟩
      refine h2.addTimer (setRelay_self ..) hi (fun x hx => Or.inl ?_) .connected
      rw [setRelay_self] at hx
      rw [← Option.some.inj hx]
      exact ⟨_, rfl, hdns, Or.inr rfl⟩
    · exact h1.stays hr rfl rfl rfl rfl rfl
  unfold KeepsIdle at hrest ⊢
  simp only [relayCreateRest, relayCreate, relaySysFindAliveRelay, wp_bind, wp_get] at hrest ⊢
  refine wp_mono (h.findAlive host port fun r hr x hx => (hp.idle hr hx).1) ?_ fun _ _ => id
  rintro res s1 ⟨h1, hfound⟩
  cases res with
  | none =>
    simp only [wp_bind, wp_get, wp_modify, wp_pure]
    exact hrest _ _ _ (h1.new host port) (setRelay_self ..) rfl fun hx =>
      absurd hx (newRelay_not_connected host port)
  | some r =>
    obtain ⟨relay, hr, hi, hready⟩ := hfound r rfl
    dsimp only
    rw [wp_bind, wp_pure, wp_bind]
    exact hrest r s1 relay h1 hr hi fun _ => hready

/-! ### Calls of the client -/

/-- `relay_send_request`, for a relay that is connected and not idle. -/
theorem IdleInv.sendRequest (h : IdleInv s) (r : RelayId) (header : Header)
    (hi : ∀ relay, s.relays r = some relay → relay.isIdle = false) (hs : Settled s r) :
    KeepsIdle s (relaySendRequest r header) := by
  unfold KeepsIdle
  simp only [relaySendRequest, wp_bind, wp_getRelay, wp_ite, wp_putRelay, wp_modify]
  cases hr : s.relays r with
  | none => exact h.freed r
  | some relay =>
    dsimp only
    split_ifs
    · have h1 : IdleInv (s.setRelay r (some { relay with
          requests := relay.requests ++ [header], relayStatus := .connected })) :=
        h.stays hr rfl rfl rfl rfl rfl
      refine h1.addTimer (setRelay_self ..) (hi relay hr) (fun x hx => ?_) .response
      rw [setRelay_self] at hx
      rw [← Option.some.inj hx]
      exact hs relay hr
    · have h1 : IdleInv (s.setRelay r (some { relay with
          requests := relay.requests ++ [header]
          isChunkPost := relay.isChunkPost || chunkedPost header })) :=
        h.stays hr rfl rfl rfl rfl rfl
      cases requestHead header with
      | none => exact ⟨by decide, h1.silent⟩
      | some buf =>
        simp only [wp_bind, wp_getRelay, wp_putRelay]
        refine wp_mono (h1.writeConn r buf) (fun _ s2 h2 => ?_) fun _ _ => id
        cases hr2 : s2.relays r with
        | none => exact h2.freed r
        | some relay2 => exact h2.stays hr2 rfl rfl rfl rfl rfl

theorem IdleInv.writeBody (h : IdleInv s) (r : RelayId) (data : Bytes) :
    KeepsIdle s (relayWriteBody r data) := by
  unfold KeepsIdle
  simp only [relayWriteBody, wp_bind, wp_getRelay, wp_ite, wp_pure]
  cases s.relays r with
  | none => exact h.freed r
  | some relay =>
    dsimp only
    split_ifs
    · have hwrites : KeepsIdle s (do
          RelayHttp.writeConn r (chunkSizeLine data.length)
          RelayHttp.writeConn r data
          RelayHttp.writeConn r crlf) :=
        (h.writeConn r _).bind fun _ s1 h1 => (h1.writeConn r _).bind fun _ s2 h2 => h2.writeConn r _
      unfold KeepsIdle at hwrites
      simp only [wp_bind] at hwrites
      exact hwrites
    · exact h.writeConn r _

theorem IdleInv.completeRequest (h : IdleInv s) (r : RelayId) :
    KeepsIdle s (relayCompleteRequest r) := by
  unfold KeepsIdle
  simp only [relayCompleteRequest, wp_bind, wp_getRelay, wp_ite, wp_pure]
  cases s.relays r with
  | none => exact h.freed r
  | some relay =>
    dsimp only
    split_ifs
    · exact h.writeConn r _
    · exact h

/-- `relay_close`. -/
theorem IdleInv.close (h : IdleInv s) (r : RelayId) : KeepsIdle s (relayClose r) := by
  cases hr : s.relays r with
  | none =>
    unfold KeepsIdle
    simp only [relayClose, relayFree, wp_bind, wp_getRelay, hr]
    exact h.freed r
  | some relay => exact h.free (h.relayLt r relay hr) rfl rfl rfl (Or.inl rfl) rfl rfl

theorem IdleInv.clientCall (h : IdleInv s) (hp : PoolInv s) (c : ClientCall)
    (hc : CallerKeeps s (.call c) = true) : KeepsIdle s (clientCall c) := by
  cases c with
  | create host port args =>
    unfold KeepsIdle
    simp only [RelayHttp.clientCall, wp_bind, wp_pure]
    exact wp_mono (h.create hp host port args) (fun _ _ => id) fun _ _ => id
  | sendRequest r header =>
    simp only [CallerKeeps, Bool.and_eq_true, List.any_eq_true, decide_eq_true_eq] at hc
    obtain ⟨hidle, n, hn, rfl, hw⟩ := hc
    refine h.sendRequest n.relay header (fun relay hr => ?_) (h.told n hn hw)
    rw [hr] at hidle
    exact Bool.not_eq_eq_eq_not.mp hidle
  | writeBody r data => exact h.writeBody r data
  | completeRequest r => exact h.completeRequest r
  | close r => exact h.close r
  | suspendRead r => exact h.updateConn r fun _ => Or.inr rfl
  | resumeRead r => exact h.updateConn r fun _ => Or.inr rfl

/-! ### Tasks -/

/-- The connection of a relay is gone. -/
theorem IdleInv.handleConnErr (h : IdleInv s) (hh : s.handling = none) (r : RelayId) :
    KeepsIdle s (relayHandleConnErr r) := by
  unfold KeepsIdle
  simp only [relayHandleConnErr, wp_bind, wp_getRelay, wp_putRelay, wp_ite, wp_modify]
  cases hr : s.relays r with
  | none => exact h.freed r
  | some relay =>
    have hlt := h.relayLt r relay hr
    dsimp only
    split_ifs with hi
    · refine h.free hlt ?_ rfl rfl (Or.inl rfl) rfl rfl
      exact Function.update_idem ..
    · have hi' : relay.isIdle = false := Bool.eq_false_iff.mpr hi
      -- until the task runs, the relay is about to be freed
      have h1 : IdleInv (s.setTasks r [.free]) := h.start hh hlt fun x _ => tasksOk_free x
      have hs := h.sound r relay hr
      have h2 : IdleInv ((s.setTasks r [.free]).setRelay r (some { relay with conn := none })) :=
        h1.change hr ⟨hs.shouldFree, fun _ => rfl, fun _ hc => absurd hc.symm (Option.some_ne_none _)⟩
          (fun _ => Or.inr rfl) (fun hi1 => absurd hi1 hi) fun tasks hh1 => by
            rw [← (Prod.mk.inj (Option.some.inj hh1)).2]
            exact tasksOk_free _
      exact h2.callback (setRelay_self ..) hi' fun _ _ _ => Or.inr rfl

theorem IdleInv.updateHeader (h : IdleInv s) (r : RelayId) (f : Header → Option Header) :
    KeepsIdle s (updateHeader r f) := by
  unfold KeepsIdle
  simp only [RelayHttp.updateHeader, wp_bind, wp_getRelay]
  cases hr : s.relays r with
  | none => exact h.freed r
  | some relay =>
    dsimp only
    cases relay.responseHeader.bind f with
    | none => exact ⟨by decide, h.silent⟩
    | some x => exact h.stays hr rfl rfl rfl rfl rfl

/-- A callback of the parser, with `tasks` left to do. -/
theorem IdleInv.parserCall (h : IdleInv s) {tasks : List Task} (hh : s.handling = some (r, tasks))
    (c : ParserCall)
    (hok : ∀ relay, s.relays r = some relay → TasksOk relay (.call c :: tasks)) :
    KeepsIdle s (parserCall r tasks c) := by
  -- a call that tells the client something comes only while the relay is in use
  have hquiet : c.loud = true → ∀ relay, s.relays r = some relay → relay.isIdle = false := by
    intro hloud relay hr
    refine (hok relay hr).loud ?_
    rw [List.any_cons, Task.loud, hloud, Bool.true_or]
  have hready : ∀ relay, s.relays r = some relay → Ready relay :=
    fun relay hr => (hok relay hr).ready rfl
  cases c with
  | messageBegin =>
    unfold KeepsIdle
    simp only [RelayHttp.parserCall, wp_bind, wp_getRelay, wp_putRelay]
    cases hr : s.relays r with
    | none => exact h.freed r
    | some relay => exact h.stays hr rfl rfl rfl rfl rfl
  | statusComplete code => exact h.updateHeader r _
  | url data => exact h.updateHeader r _
  | headerField data => exact h.updateHeader r _
  | headerValue data => exact h.updateHeader r _
  | headersComplete =>
    unfold KeepsIdle
    simp only [RelayHttp.parserCall, RelayHttp.updateHeader, wp_bind, wp_getRelay]
    cases hr : s.relays r with
    | none => exact h.freed r
    | some relay =>
      dsimp only
      cases relay.responseHeader.bind headerAppendComplete with
      | none => exact ⟨by decide, h.silent⟩
      | some x =>
        simp only [wp_putRelay, setRelay_self]
        have h1 : IdleInv (s.setRelay r (some { relay with responseHeader := some x })) :=
          h.stays hr rfl rfl rfl rfl rfl
        have h2 : IdleInv ((s.setRelay r (some { relay with responseHeader := some x })).setRelay r
            (some { relay with responseHeader := some x, relayStatus := .connected })) :=
          h1.stays (setRelay_self ..) rfl rfl rfl rfl rfl
        exact h2.callback (setRelay_self ..) (hquiet rfl relay hr) fun hw => absurd hw (by decide)
  | body data =>
    cases hr : s.relays r with
    | none =>
      unfold KeepsIdle
      simp only [RelayHttp.parserCall, RelayHttp.callback, wp_bind, wp_getRelay, hr]
      exact h.freed r
    | some relay => exact h.callback hr (hquiet rfl relay hr) fun hw => absurd hw (by decide)
  | messageComplete =>
    unfold KeepsIdle
    simp only [RelayHttp.parserCall, wp_bind, wp_getRelay, wp_putRelay, wp_modify]
    cases hr : s.relays r with
    | none => exact h.freed r
    | some relay =>
      have hi := hquiet rfl relay hr
      have h1 : IdleInv (s.setRelay r (some { relay with relayStatus := .connected })) :=
        h.stays hr rfl rfl rfl rfl rfl
      -- the relay stays in use until the callback has returned; then it may be pooled
      have hready1 : ∀ x, (s.setRelay r (some { relay with relayStatus := .connected })).relays r =
          some x → Ready x ∧ x.isIdle = false := by
        intro x hx
        rw [setRelay_self] at hx
        rw [← Option.some.inj hx]
        exact ⟨hready relay hr, hi⟩
      have h2 : IdleInv ((s.setRelay r (some { relay with relayStatus := .connected })).setTasks r
          (.reuse :: tasks)) := by
        refine h1.setTasks (fun r' hh' x hx => ?_) (h.relayLt r relay hr) fun x hx => ?_
        · have hsame : some (r, tasks) = some (r', [.free]) := hh.symm.trans hh'
          obtain ⟨rfl, -⟩ := Prod.mk.inj (Option.some.inj hsame)
          exact (hready1 x hx).1
        · exact ⟨fun _ => (hready1 x hx).2, fun _ => (hready1 x hx).1⟩
      exact h2.callback (setRelay_self ..) hi fun hw => absurd hw (by decide)

/-- `relay_sys_reuse_relay`: nothing is left to do for the relay that it pools. -/
theorem IdleInv.reuse (h : IdleInv s)
    (hok : ∀ relay, s.relays r = some relay → Ready relay ∧ relay.isIdle = false)
    (htimers : ∀ t tm, s.timers t = some tm → tm.relay ≠ r)
    (hquiet : ∀ tasks, s.handling = some (r, tasks) → tasks.any Task.loud = false) :
    KeepsIdle s (relaySysReuseRelay r) := by
  unfold KeepsIdle
  simp only [relaySysReuseRelay, wp_bind, wp_getRelay, wp_ite, wp_throw, wp_putRelay, wp_modify]
  cases hr : s.relays r with
  | none => exact h.freed r
  | some relay =>
    obtain ⟨hready, hi⟩ := hok relay hr
    obtain ⟨c, hconn, hdns, -⟩ := id hready
    have hs := h.sound r relay hr
    -- the assertions hold
    have hassert : (relay.shouldFree || relay.isIdle || relay.dnsReq || relay.conn.isNone) = false := by
      rw [hs.shouldFree, hi, hdns, hconn]
      rfl
    dsimp only
    rw [hassert, if_neg Bool.false_ne_true]
    have h1 : IdleInv (s.setRelay r (some { relay with
        relayStatus := .connected, args := none, isIdle := true, responseHeader := none })) := by
      refine h.change hr (hs.of_eq rfl rfl rfl) Or.inl (fun _ => ⟨hready, htimers⟩) fun tasks hh => ?_
      exact ⟨fun hloud => absurd (hloud.symm.trans (hquiet tasks hh)) (by decide), fun _ => hready⟩
    exact h1.of_eq rfl (fun _ _ => id) rfl rfl rfl rfl

theorem TasksOk.tail {task : Task} {tasks : List Task} (h : TasksOk relay (task :: tasks)) :
    TasksOk relay tasks where
  loud := by
    intro hloud
    refine h.loud ?_
    rw [List.any_cons, hloud, Bool.or_true]
  ready := by
    intro hp
    refine h.ready ?_
    rw [List.any_cons, hp, Bool.or_true]

/-- No timer is set, when the check says so. -/
theorem IdleInv.timersOut (h : IdleInv s) (hout : timersOut s r = true) :
    ∀ t tm, s.timers t = some tm → tm.relay ≠ r := by
  intro t tm ht
  have hall := List.all_eq_true.mp hout t (List.mem_range.mpr (h.timerLt t tm ht).1)
  rw [ht] at hall
  exact of_decide_eq_true hall

/-- A task is taken from what is left to do. -/
theorem IdleInv.pop (h : IdleInv s) {task : Task} {tasks : List Task}
    (hh : s.handling = some (r, task :: tasks)) (hne : task ≠ .free) {tasks' : List Task}
    (ht : ∀ relay, s.relays r = some relay → TasksOk relay tasks') : IdleInv (s.setTasks r tasks') := by
  refine h.setTasks (fun r' hh' => ?_) (h.taskLt r _ hh) ht
  rw [hh] at hh'
  have hhead := (Prod.mk.inj (Option.some.inj hh')).2
  exact absurd (List.cons.inj hhead).1 hne

/-- The end of what was read: the client is told of an error, if it still has the relay. -/
theorem IdleInv.readEnd (h : IdleInv s) {ok : Bool} {tasks : List Task}
    (hh : s.handling = some (r, .readEnd ok :: tasks)) :
    KeepsIdle (s.setTasks r tasks) (runTask r tasks (.readEnd ok)) := by
  have hok : ∀ relay, s.relays r = some relay → TasksOk relay tasks :=
    fun relay hr => (h.tasks r _ hh relay hr).tail
  have h1 : IdleInv (s.setTasks r tasks) := h.pop hh (readEnd_ne_free ok) hok
  unfold KeepsIdle
  simp only [runTask, wp_bind, wp_getRelay, wp_ite, wp_modify, wp_pure]
  cases hr : (s.setTasks r tasks).relays r with
  | none => exact h1.freed r
  | some relay =>
    dsimp only
    split_ifs with hend
    · rw [Bool.and_eq_true, Bool.not_eq_eq_eq_not, Bool.not_eq_eq_eq_not] at hend
      have h2 : IdleInv (s.setTasks r (.free :: tasks)) :=
        h.pop hh (readEnd_ne_free ok) fun x hx => ⟨(hok x hx).loud, (hok x hx).ready⟩
      exact h2.callback hr hend.2 fun hw => absurd hw (by decide)
    · exact h1.free (h1.relayLt r relay hr) rfl rfl rfl (Or.inl rfl) rfl rfl
    · exact h1

/-- **A task**, when nothing else is left for a relay that is pooled. -/
theorem IdleInv.next (h : IdleInv s) (hcalling : s.calling = false)
    (hg : PooledAlone s .next = true) : KeepsIdle s next := by
  unfold KeepsIdle
  simp only [RelayHttp.next, wp_bind, wp_get]
  cases hh : s.handling with
  | none => exact h
  | some p =>
    obtain ⟨r, tasks⟩ := p
    have hlt := h.taskLt r tasks hh
    cases tasks with
    | nil =>
      refine h.done fun r' hh' => ?_
      rw [hh] at hh'
      exact absurd (Prod.mk.inj (Option.some.inj hh')).2.symm (List.cons_ne_nil _ _)
    | cons task tasks =>
      simp only [wp_bind, wp_modify]
      by_cases hfree : task = .free
      · -- the relay was about to be freed, and is now
        rw [hfree]
        exact h.free hlt rfl rfl rfl (Or.inr ⟨_, _, hh, rfl⟩) rfl rfl
      · have h1 : IdleInv (s.setTasks r tasks) :=
          h.pop hh hfree fun relay hr => (h.tasks r _ hh relay hr).tail
        cases task with
        | call c => exact h1.parserCall rfl c fun relay hr => h.tasks r _ hh relay hr
        | reuse =>
          rw [PooledAlone, hh] at hg
          dsimp only at hg
          rw [hcalling, Bool.false_or, Bool.and_eq_true] at hg
          refine h1.reuse (fun relay hr => ?_) (h.timersOut hg.2) fun tasks' hh' => ?_
          · have hok := h.tasks r _ hh relay hr
            exact ⟨hok.ready rfl, hok.loud rfl⟩
          · have hsame : some (r, tasks) = some (r, tasks') := hh'
            rw [← (Prod.mk.inj (Option.some.inj hsame)).2, Bool.eq_false_iff]
            intro hany
            obtain ⟨x, hx, hloud⟩ := List.any_eq_true.mp hany
            have hno := List.all_eq_true.mp hg.1 x hx
            rw [hloud] at hno
            exact Bool.false_ne_true hno
        | enableRead => exact h1.updateConn r fun _ => Or.inr rfl
        | readEnd ok => exact h.readEnd hh
        | free => exact absurd rfl hfree

/-! ### Events -/

/-- The name of a host has been looked up: the relay has no connection yet. -/
theorem IdleInv.dnsResolved (h : IdleInv s) (hh : s.handling = none) (r : RelayId) (ok : Bool) :
    KeepsIdle s (relayDnsResolved r ok) := by
  unfold KeepsIdle
  simp only [relayDnsResolved, wp_bind, wp_getRelay, wp_ite, wp_pure, wp_putRelay, wp_modify]
  cases hr : s.relays r with
  | none => exact h.freed r
  | some relay =>
    have hlt := h.relayLt r relay hr
    have hs := h.sound r relay hr
    dsimp only
    split_ifs with hdns
    · exact h
    · have hd : relay.dnsReq = true := by
        rwa [Bool.not_eq_true', Bool.not_eq_false] at hdns
      have hno : ¬Ready relay := not_ready hd
      refine h.setRelay hr ⟨hs.shouldFree, fun hx => absurd hx Bool.false_ne_true, fun c hc hread => ?_⟩
        (fun hx => absurd hx hno) id
      rw [← Option.some.inj hc] at hread
      exact absurd hread Bool.false_ne_true
    · have hd : relay.dnsReq = true := by
        rwa [Bool.not_eq_true', Bool.not_eq_false] at hdns
      have hno : ¬Ready relay := not_ready hd
      have hi : relay.isIdle = false :=
        Bool.eq_false_iff.mpr fun hi => hno (h.idle r relay hr hi).1
      have h1 : IdleInv (s.setRelay r (some { relay with dnsReq := false })) :=
        h.setRelay hr ⟨hs.shouldFree, fun hx => absurd hx Bool.false_ne_true, hs.mask⟩
          (fun hx => absurd hx hno) id
      have h2 : IdleInv ((s.setRelay r (some { relay with dnsReq := false })).setTasks r [.free]) :=
        h1.start hh hlt fun x _ => tasksOk_free x
      exact h2.callback (setRelay_self ..) hi fun hw => absurd hw (by decide)

/-- The connection is there: the relay was waiting for it, so it is not idle. -/
theorem IdleInv.writable (h : IdleInv s) (hh : s.handling = none) (r : RelayId) :
    KeepsIdle s (relayWritable r) := by
  unfold KeepsIdle
  simp only [relayWritable, wp_bind, wp_getRelay, wp_ite, wp_pure, wp_putRelay, wp_modify]
  cases hr : s.relays r with
  | none => exact h.freed r
  | some relay =>
    have hlt := h.relayLt r relay hr
    have hs := h.sound r relay hr
    dsimp only
    split_ifs with hwait hconn
    · exact h
    · exact h
    · rw [Bool.not_eq_true', Bool.not_eq_false] at hwait
      obtain ⟨c, hc, hwrite⟩ := (Option.any_eq_true _ _).mp hwait
      have hi : relay.isIdle = false := by
        rw [Bool.eq_false_iff]
        intro hi
        obtain ⟨c', hc', -, hready⟩ := (h.idle r relay hr hi).1
        rw [hc] at hc'
        rw [← Option.some.inj hc', hwrite] at hready
        exact hready.elim hconn fun hx => Bool.false_ne_true hx.symm
      have hdns : relay.dnsReq = false := by
        rw [Bool.eq_false_iff]
        intro hd
        exact absurd (hc.symm.trans (hs.dns hd)) (Option.some_ne_none c)
      have hready : Ready { relay with connected := true } := ⟨c, hc, hdns, Or.inl rfl⟩
      have h1 : IdleInv (s.setRelay r (some { relay with connected := true })) :=
        h.setRelay hr (hs.of_eq rfl rfl rfl) (fun _ => hready) id
      have h2 : IdleInv ((s.setRelay r (some { relay with connected := true })).setTasks r
          [.enableRead]) := h1.start hh hlt fun x _ => tasksOk_enableRead x
      refine h2.callback (setRelay_self ..) hi fun _ x hx => Or.inl ?_
      have hx' : (s.setRelay r (some { relay with connected := true })).relays r = some x := hx
      rw [setRelay_self] at hx'
      rw [← Option.some.inj hx']
      exact hready

/-- Something has been read, for a relay that is not idle. -/
theorem IdleInv.readable (h : IdleInv s) (hh : s.handling = none) (r : RelayId)
    (res : Option (List ParserCall × Bool)) : KeepsIdle s (relayReadable r res) := by
  unfold KeepsIdle
  simp only [relayReadable, wp_bind, wp_getRelay, wp_ite, wp_pure]
  cases hr : s.relays r with
  | none => exact h.freed r
  | some relay =>
    have hs := h.sound r relay hr
    dsimp only
    by_cases hread : (!relay.conn.any (·.detect.read)) = true
    · rw [if_pos hread]
      exact h
    · rw [if_neg hread]
      cases res with
      | none => exact h.handleConnErr hh r
      | some p =>
        obtain ⟨calls, ok⟩ := p
        simp only [wp_ite, wp_modify]
        split_ifs with hi
        · exact h.handleConnErr hh r
        · rw [Bool.not_eq_true', Bool.not_eq_false] at hread
          obtain ⟨c, hc, hread⟩ := (Option.any_eq_true _ _).mp hread
          have hdns : relay.dnsReq = false := by
            rw [Bool.eq_false_iff]
            intro hd
            exact absurd (hc.symm.trans (hs.dns hd)) (Option.some_ne_none c)
          have hready : Ready relay := ⟨c, hc, hdns, Or.inr (hs.mask c hc hread)⟩
          refine h.start hh (h.relayLt r relay hr) fun x hx => ?_
          rw [hr] at hx
          rw [← Option.some.inj hx]
          exact ⟨fun _ => Bool.eq_false_iff.mpr hi, fun _ => hready⟩

theorem IdleInv.connError (h : IdleInv s) (hh : s.handling = none) (r : RelayId) :
    KeepsIdle s (relayConnError r) := by
  unfold KeepsIdle
  simp only [relayConnError, wp_bind, wp_getRelay, wp_ite, wp_pure]
  cases s.relays r with
  | none => exact h.freed r
  | some relay =>
    dsimp only
    split_ifs
    · exact h
    · exact h.handleConnErr hh r

/-- A timer of a relay fires: then the relay is ready and not idle. -/
theorem IdleInv.timerFires (h : IdleInv s) (hh : s.handling = none) (t : TmrId)
    (calls : List ParserCall) : KeepsIdle s (timerFires t calls) := by
  unfold KeepsIdle
  simp only [RelayHttp.timerFires, wp_bind, wp_get]
  cases ht : s.timers t with
  | none => exact h
  | some tm =>
    -- timers only stop
    have hstop : ∀ t0 (s0 : Relays) t' tm', Function.update s0.timers t0 none t' = some tm' →
        s0.timers t' = some tm' := by
      intro t0 s0 t' tm' ht'
      by_cases he : t' = t0
      · rw [he, Function.update_self] at ht'
        exact absurd ht'.symm (Option.some_ne_none tm')
      · rwa [Function.update_of_ne he] at ht'
    have h1 : IdleInv (s.setTimer t none) := h.of_eq rfl (hstop t s) rfl rfl rfl rfl
    have hready : ∀ relay, s.relays tm.relay = some relay → Ready relay ∧ relay.isIdle = false := by
      intro relay hr
      constructor
      · exact (h.timer t tm ht relay hr).resolve_right (by rw [hh]; exact (Option.some_ne_none _).symm)
      · rw [Bool.eq_false_iff]
        intro hi
        exact (h.idle _ relay hr hi).2 t tm ht rfl
    simp only [wp_bind, wp_modify]
    cases tm.callback with
    | connected =>
      simp only [relayConnTmrcb, wp_bind, wp_getRelay]
      cases hr : (s.setTimer t none).relays tm.relay with
      | none => exact h1.freed _
      | some relay =>
        obtain ⟨hx, hi⟩ := hready relay hr
        have hlt := h.relayLt _ relay hr
        -- whichever timer is freed
        have hrest : ∀ s1 : Relays, IdleInv s1 → s1.relays = s.relays → s1.handling = none →
            s1.nextRelay = s.nextRelay → KeepsIdle s1 (do
              putRelay tm.relay { relay with tmrConnected := none }
              modify (·.setTasks tm.relay [])
              RelayHttp.callback tm.relay .connected) := by
          intro s1 h1 hrel hh1 hn
          have hr1 : s1.relays tm.relay = some relay := by rw [hrel]; exact hr
          have h2 : IdleInv (s1.setRelay tm.relay (some { relay with tmrConnected := none })) :=
            h1.stays hr1 rfl rfl rfl rfl rfl
          have h3 : IdleInv ((s1.setRelay tm.relay (some { relay with tmrConnected := none })).setTasks
              tm.relay []) := h2.start hh1 (by rw [← hn] at hlt; exact hlt) fun x _ => tasksOk_nil x
          refine h3.callback (setRelay_self ..) hi fun _ y hy => Or.inl ?_
          have hy' : (s1.setRelay tm.relay (some { relay with tmrConnected := none })).relays
              tm.relay = some y := hy
          rw [setRelay_self] at hy'
          rw [← Option.some.inj hy']
          exact hx
        dsimp only
        cases relay.tmrConnected with
        | none => exact hrest _ h1 rfl hh rfl
        | some t' =>
          have h2 : IdleInv ((s.setTimer t none).setTimer t' none) :=
            h1.of_eq rfl (hstop t' _) rfl rfl rfl rfl
          exact hrest _ h2 rfl hh rfl
    | response =>
      simp only [wp_bind, wp_getRelay, wp_modify]
      cases hr : (s.setTimer t none).relays tm.relay with
      | none => exact h1.freed _
      | some relay =>
        refine h1.start hh (h.relayLt _ relay hr) fun x hx => ?_
        obtain ⟨hx', hi⟩ := hready x hx
        exact ⟨fun _ => hi, fun _ => hx'⟩

/-- Whatever happens to a relay. -/
theorem IdleInv.relayEvent (h : IdleInv s) (hh : s.handling = none) (e : RelayEvent) :
    KeepsIdle s (relayEvent e) := by
  -- an event of a relay that does not exist does not happen
  have hguard : ∀ r x, KeepsIdle s x → KeepsIdle s (do
      if ((← get).relays r).isSome then x else pure ()) := by
    intro r x hx
    unfold KeepsIdle at hx ⊢
    simp only [wp_bind, wp_get, wp_ite, wp_pure]
    split_ifs
    · exact hx
    · exact h
  cases e with
  | dnsResolved r ok => exact hguard r _ (h.dnsResolved hh r ok)
  | writable r => exact hguard r _ (h.writable hh r)
  | readable r res => exact hguard r _ (h.readable hh r res)
  | connError r => exact hguard r _ (h.connError hh r)
  | timer t calls => exact h.timerFires hh t calls

/-! ### Every run -/

/-- One step. -/
theorem IdleInv.step (h : IdleInv s) (hp : PoolInv s) (i : RelayInput) (hc : CallerKeeps s i = true)
    (hg : PooledAlone s i = true) : KeepsIdle s (relayStep i) := by
  unfold KeepsIdle
  simp only [relayStep, wp_bind, wp_get]
  cases i with
  | call c =>
    simp only [wp_ite, wp_pure]
    split_ifs
    · exact h.clientCall hp c hc
    · exact h
  | event e =>
    simp only [wp_ite, wp_pure]
    split_ifs with hh
    · exact h.relayEvent (Option.isNone_iff_eq_none.mp hh) e
    · exact h
  | next =>
    simp only [wp_ite, wp_pure]
    split_ifs with hcalling
    · exact h
    · exact h.next (Bool.eq_false_iff.mpr hcalling) hg
  | ret => exact h.of_eq rfl (fun _ _ => id) rfl rfl rfl rfl

/-- **No client is called for an idle relay, and no assertion fails**, in every run in which a relay is
pooled when nothing is left that could call its client. -/
theorem wp_run_idleSilent (is : List RelayInput)
    (hg : Meets relayStep (fun s i => CallerKeeps s i = true ∧ PooledAlone s i = true) is
      Relays.init) :
    wp (run relayStep is) (fun _ => IdleSilent) Harmless Relays.init := by
  have hstep : ∀ s i, PoolInv s ∧ IdleInv s → CallerKeeps s i = true ∧ PooledAlone s i = true →
      wp (relayStep i) (fun _ s' => PoolInv s' ∧ IdleInv s') Harmless s := by
    rintro s i ⟨hp, h⟩ ⟨hc, hgi⟩
    exact wp_mono (wp_and (hp.step i) (h.step hp i hc hgi)) (fun _ _ => id) fun _ _ hx => hx.2
  exact wp_mono (run_wp hstep is Relays.init ⟨poolInv_init, idleInv_init⟩ hg)
    (fun _ _ hx => hx.2.silent) fun _ _ => id

/-- A request whose response is all that the server sends. -/
theorem wp_run_idleSilent_served :
    wp (run relayStep
        (servedOnce (bytes "a.org") 80 { method := bytes "GET", url := some (bytes "/") }))
      (fun _ => IdleSilent) Harmless Relays.init :=
  wp_run_idleSilent _ (by decide +kernel)

/-- A response to a request, and a second one in the same read. -/
def answeredTwice : List RelayInput :=
  [.call (.create (bytes "a.org") 80 1), .event (.dnsResolved 0 true), .event (.writable 0),
    .call (.sendRequest 0 { method := bytes "GET", url := some (bytes "/") }), .ret, .next, .next,
    .event (.readable 0 (some (emptyResponseCalls ++ emptyResponseCalls, true))),
    .next, .next, .next, .next, .next, .ret, .next, .ret, .next,
    .next, .next, .next, .next, .next, .ret]

/-- The client of a relay in the pool is called for the second of two responses in one read, and when
this one is complete an assertion fails. -/
theorem not_always_idleSilent : ¬∀ is : List RelayInput,
    Meets relayStep (fun s i => CallerKeeps s i = true) is Relays.init →
      wp (run relayStep is) (fun _ => IdleSilent) Harmless Relays.init := by
  intro hall
  have hcalled : wp (run relayStep answeredTwice) (fun _ s => s.calls.any (·.idle) = true)
      (fun _ _ => False) Relays.init := by decide +kernel
  obtain ⟨-, s, hany, hsilent⟩ := exists_of_wp (wp_mono
    (wp_and hcalled (hall answeredTwice (by decide +kernel))) (fun _ _ h => h) fun _ _ h => h.1)
  obtain ⟨n, hn, hidle⟩ := List.any_eq_true.mp hany
  exact absurd (hidle.symm.trans (hsilent n hn)) (by decide)

/-- The next steps of this run. -/
example : wp (run relayStep (answeredTwice ++ [RelayInput.next, .ret, .next])) (fun _ _ => False)
    (fun e _ => e = .assertFailed) Relays.init := by decide +kernel

end H2ClientProxy.RelayHttp
