import H2ClientProxy.BodyList
import H2ClientProxy.Equiv.Client
import Mathlib.Data.List.Perm.Subperm

/-!
# What waits in `list_request_body_buffer`

`client_bodycb` calls `list_add_tail` with its arguments exchanged: not the buffer is put into the list
of the client, but the head of that list into the ring of the buffer.

* `bodycbEarly_spec`: whatever the list held before, it then holds the new buffer alone.
* `handleRelayConnected_spec`: the loop writes what the list holds and empties it.
* `bodycbEarly_represents`: this is the list that the state machine of the proxy keeps.
* `writesAll_iff`: all the fragments are written iff there is at most one.
-/

namespace H2ClientProxy

open Wp ListHead

variable {s : BodyList} {q : List Bytes}

/-! ### What the list holds -/

/-- The list holds the texts `q`, in the buffers `ids`. -/
structure BodyList.HoldsIn (s : BodyList) (ids : List ℕ) (q : List Bytes) : Prop where
  ring : Ring s.links .head (ids.map .buffer)
  texts : ids.map s.bufs = q.map some

/-- The list holds the texts `q`. -/
structure BodyList.Holds (s : BodyList) (q : List Bytes) : Prop where
  fresh : ∀ n, s.nextBuf ≤ n → s.bufs n = none
  list : ∃ ids, s.HoldsIn ids q

theorem holds_init : BodyList.init.Holds [] := by
  refine ⟨fun _ _ => rfl, [], ?_, rfl⟩
  exact ring_init _ _

variable {ids : List ℕ}

theorem BodyList.HoldsIn.isSome (h : s.HoldsIn ids q) {i : ℕ} (hi : i ∈ ids) : (s.bufs i).isSome = true := by
  have hmem : s.bufs i ∈ q.map some := by
    rw [← h.texts]
    exact List.mem_map_of_mem hi
  obtain ⟨data, -, hdata⟩ := List.mem_map.1 hmem
  rw [← hdata]
  rfl

/-- The nodes of the list are live. -/
theorem BodyList.HoldsIn.live (h : s.HoldsIn ids q) {a : Addr} (ha : a ∈ Addr.head :: ids.map .buffer) :
    s.live a = true := by
  obtain rfl | ha := List.mem_cons.1 ha
  · rfl
  · obtain ⟨i, hi, rfl⟩ := List.mem_map.1 ha
    exact h.isSome hi

/-- The address that comes first, or the head, is one of the nodes. -/
theorem headD_mem (ids : List ℕ) :
    (ids.map Addr.buffer).headD .head ∈ Addr.head :: ids.map .buffer := by
  cases ids with
  | nil => exact List.mem_cons_self
  | cons i ids => exact List.mem_cons_of_mem _ List.mem_cons_self

/-- There are not more buffers in the list than were allocated. -/
theorem BodyList.HoldsIn.length_le (h : s.HoldsIn ids q) (hfresh : ∀ n, s.nextBuf ≤ n → s.bufs n = none) :
    ids.length ≤ s.nextBuf := by
  have hnodup : ids.Nodup := (List.nodup_cons.1 h.ring.nodup).2.of_map _
  have hsub : ids ⊆ List.range s.nextBuf := by
    intro i hi
    rw [List.mem_range]
    by_contra hlt
    have hsome := h.isSome hi
    rw [hfresh i (by omega)] at hsome
    exact absurd hsome Bool.false_ne_true
  have hlen := (hnodup.subperm hsub).length_le
  rwa [List.length_range] at hlen

/-! ### The operations -/

variable {E : ListFault → BodyList → Prop}

theorem wp_follow (a : Addr) {Q : Unit → BodyList → Prop} :
    wp (follow a) Q E = fun s => if s.live a then Q () s else E .wildPointer s := by
  funext s
  simp only [follow, wp_bind, wp_get, wp_ite, wp_pure, wp_throw]

/-- Whatever the list held, it holds the new buffer alone. -/
theorem bodycbEarly_spec (hfresh : ∀ n, s.nextBuf ≤ n → s.bufs n = none) {data : Bytes}
    (hdata : data ≠ []) :
    wp (bodycbEarly data) (fun _ s' => s'.Holds [data] ∧ s'.writes = s.writes) E s := by
  have hempty : data.isEmpty = false := List.isEmpty_eq_false_iff.2 hdata
  have hself : Function.update s.bufs s.nextBuf (some data) s.nextBuf = some data :=
    Function.update_self ..
  have hprev : (s.links.init (.buffer s.nextBuf)).prev (.buffer s.nextBuf) = .buffer s.nextBuf :=
    (ring_init s.links (.buffer s.nextBuf)).chain.2
  simp only [bodycbEarly, epBufferCreate, initListHead, listAddTail, wp_bind, wp_get, wp_modify,
    wp_follow, wp_pure, hempty, Bool.false_eq_true, if_false, BodyList.live, hself, hprev,
    Option.isSome_some, if_true]
  refine ⟨⟨?_, [s.nextBuf], ?_, ?_⟩, trivial⟩
  · intro n hn
    have hle : s.nextBuf + 1 ≤ n := hn
    have hne : n ≠ s.nextBuf := by omega
    show Function.update s.bufs s.nextBuf (some data) n = none
    rw [Function.update_of_ne hne]
    exact hfresh n (by omega)
  · -- the head of the client's list is inserted before the head of the buffer's own ring
    have hring := (ring_init s.links (.buffer s.nextBuf)).addTail
      (show Addr.head ∉ [.buffer s.nextBuf] by simp)
    exact hring.rotate
  · show [Function.update s.bufs s.nextBuf (some data) s.nextBuf] = [some data]
    rw [hself]

/-- What one time around the loop leaves: the text of the buffer `i` is written and the buffer is
gone. -/
def BodyList.pop (s : BodyList) (i : ℕ) (data : Bytes) : BodyList where
  links := s.links.del (.buffer i) .poison1 .poison2
  bufs := Function.update s.bufs i none
  nextBuf := s.nextBuf
  writes := s.writes ++ [data]

theorem BodyList.HoldsIn.pop {i : ℕ} {data : Bytes} (h : s.HoldsIn (i :: ids) (data :: q)) :
    (s.pop i data).HoldsIn ids q := by
  have hring := h.ring
  have htexts := h.texts
  rw [List.map_cons] at hring
  rw [List.map_cons, List.map_cons, List.cons.injEq] at htexts
  have hi : i ∉ ids := by
    intro hi
    exact (List.nodup_cons.1 (List.nodup_cons.1 hring.nodup).2).1 (List.mem_map_of_mem hi)
  refine ⟨hring.delFirst _ _, ?_⟩
  rw [← htexts.2]
  apply List.map_congr_left
  intro j hj
  have hne : j ≠ i := fun he => hi (he ▸ hj)
  exact Function.update_of_ne hne ..

theorem pop_fresh (hfresh : ∀ n, s.nextBuf ≤ n → s.bufs n = none) (i : ℕ) (data : Bytes) :
    ∀ n, (s.pop i data).nextBuf ≤ n → (s.pop i data).bufs n = none := by
  intro n hn
  show Function.update s.bufs i none n = none
  rw [Function.update_apply]
  split_ifs
  · rfl
  · exact hfresh n hn

/-- The loop writes what the list holds. -/
theorem flushLoop_spec {fuel : ℕ} (h : s.HoldsIn ids q) (hfuel : ids.length ≤ fuel)
    (hfresh : ∀ n, s.nextBuf ≤ n → s.bufs n = none) :
    wp (flushLoop fuel (s.links.next .head) (s.links.next (s.links.next .head)))
      (fun _ s' => s'.Holds [] ∧ s'.writes = s.writes ++ q) E s := by
  induction ids generalizing s q fuel with
  | nil =>
    have hq : q = [] := by
      have htexts := h.texts
      rw [List.map_nil, eq_comm, List.map_eq_nil_iff] at htexts
      exact htexts
    have hpos : s.links.next .head = .head := h.ring.chain.1
    rw [hpos, hq]
    unfold flushLoop
    rw [if_pos rfl, wp_pure, List.append_nil]
    rw [hq] at h
    exact ⟨⟨hfresh, [], h⟩, rfl⟩
  | cons i ids ih =>
    cases q with
    | nil => exact absurd h.texts (by simp)
    | cons data q =>
      obtain ⟨fuel, rfl⟩ : ∃ f, fuel = f + 1 := Nat.exists_eq_add_one_of_ne_zero (by
        rw [List.length_cons] at hfuel
        omega)
      have hring := h.ring
      rw [List.map_cons] at hring
      have hpos : s.links.next .head = .buffer i := hring.chain.1
      have hprev : s.links.prev (.buffer i) = .head := hring.chain.2.1
      have hnext : s.links.next (.buffer i) = (ids.map Addr.buffer).headD .head :=
        hring.chain.2.2.next_eq
      have hhead : (s.pop i data).links.next .head = (ids.map Addr.buffer).headD .head :=
        h.pop.ring.chain.next_eq
      have hbufs : s.bufs i = some data := (List.cons.inj h.texts).1
      have hlive : s.live (.buffer i) = true := h.isSome List.mem_cons_self
      -- the next node is live before the buffer is freed, and after
      have htmp : s.live ((ids.map Addr.buffer).headD .head) = true := by
        apply h.live
        have hmem := headD_mem ids
        rw [List.mem_cons] at hmem ⊢
        exact hmem.imp_right (List.mem_cons_of_mem _)
      have htmp' : (s.pop i data).live ((ids.map Addr.buffer).headD .head) = true :=
        h.pop.live (headD_mem ids)
      have hrec := ih h.pop (Nat.le_of_succ_le_succ hfuel) (pop_fresh hfresh i data)
      rw [hhead] at hrec
      have happend : s.writes ++ data :: q = (s.pop i data).writes ++ q := List.append_cons ..
      rw [hpos, hnext, happend]
      unfold flushLoop
      simp only [reduceCtorEq, if_false, wp_bind, bufOf, wp_get, hbufs, wp_pure, wp_modify, listDel,
        wp_follow, hprev, hnext, epBufferFree, nextOf]
      exact (if_pos hlive).mpr ((if_pos rfl).mpr ((if_pos htmp).mpr ((if_pos htmp').mpr hrec)))

/-- `client_handle_relay_connected` writes what the list holds, and empties it. -/
theorem handleRelayConnected_spec (h : s.Holds q) :
    wp handleRelayConnected (fun _ s' => s'.Holds [] ∧ s'.writes = s.writes ++ q) E s := by
  obtain ⟨ids, hlist⟩ := h.list
  have hnext : s.links.next .head = (ids.map Addr.buffer).headD .head := hlist.ring.chain.next_eq
  have hlive : s.live (s.links.next .head) = true := by
    rw [hnext]
    exact hlist.live (headD_mem ids)
  simp only [handleRelayConnected, nextOf, wp_bind, wp_get, wp_pure, wp_follow]
  have hrun := flushLoop_spec (E := E) hlist (hlist.length_le h.fresh) h.fresh
  exact (if_pos rfl).mpr ((if_pos hlive).mpr hrun)

/-! ### The list of the state machine of the proxy -/

/-- The links hold what the state machine keeps for the client. -/
def Represents (s : BodyList) (cl : Client) : Prop :=
  s.Holds (cl.listRequestBodyBuffer.map BodyBuffer.data)

/-- As long as its relay is not connected, the list of a client follows the links. -/
theorem bodycbEarly_represents {w : World} {c : ClientId} {cl : Client} {r : RelayId} {rel : Relay}
    (hc : w.clients c = some cl) (hsys : cl.relaySys = true) (hr : cl.relay = some r)
    (hrel : w.relays r = some rel) (hstatus : rel.relayStatus.toNat < RelayStatus.connected.toNat)
    (hs : Represents s cl) (block : Block) :
    wp (clientBodycb c block.data) (fun _ w' => ∃ cl', w'.clients c = some cl' ∧
      wp (bodycbEarly block.data) (fun _ s' => Represents s' cl') (fun _ _ => False) s)
      (fun _ _ => False) w := by
  have hempty : block.data.isEmpty = false := List.isEmpty_eq_false_iff.2 block.ne_nil
  simp only [clientBodycb, clientRelay, relayGetStatus, wp_bind, wp_getClient, hc, hsys, hr,
    wp_getRelay, hrel, wp_pure, wp_ite, hstatus, if_true, hempty, Bool.false_eq_true, if_false,
    wp_putClient]
  refine ⟨_, Function.update_self .., ?_⟩
  exact wp_mono (bodycbEarly_spec hs.fresh block.ne_nil) (fun _ _ h => h.1) fun _ _ => id

/-! ### The fragments of a body -/

/-- After some fragments the list holds the last one; before the first, what it held. -/
theorem bodycbAll_spec (h : s.Holds q) (blocks : List Block) :
    wp (bodycbAll blocks)
      (fun _ s' => s'.Holds (match blocks.getLast? with
        | none => q
        | some block => [block.data]) ∧ s'.writes = s.writes) E s := by
  induction blocks generalizing s q with
  | nil => exact ⟨h, rfl⟩
  | cons block blocks ih =>
    rw [bodycbAll, wp_bind]
    refine wp_mono (bodycbEarly_spec h.fresh block.ne_nil) ?_ (fun _ _ => id)
    rintro - s1 ⟨h1, hwrites⟩
    refine wp_mono (ih h1) ?_ (fun _ _ => id)
    rintro - s2 ⟨h2, hwrites2⟩
    refine ⟨?_, hwrites2.trans hwrites⟩
    rw [List.getLast?_cons]
    cases hlast : blocks.getLast? with
    | none =>
      rw [hlast] at h2
      exact h2
    | some last =>
      rw [hlast] at h2
      exact h2

/-- The fragments come, and then the relay is connected. -/
def receiveThenConnect (blocks : List Block) : ListM Unit := do
  bodycbAll blocks
  handleRelayConnected

/-- What is claimed: the fragments are written, in order, and the list is empty. -/
def WritesAll (blocks : List Block) (s : BodyList) : Prop :=
  wp (receiveThenConnect blocks)
    (fun _ s' => s'.writes = s.writes ++ blocks.map Block.data ∧ s'.links.next .head = .head)
    (fun _ _ => False) s

/-- From an empty list, all the fragments are written iff there is at most one. -/
theorem writesAll_iff (h : s.Holds []) (blocks : List Block) :
    WritesAll blocks s ↔ blocks.length ≤ 1 := by
  -- what is written is the last fragment
  have hruns : wp (receiveThenConnect blocks)
      (fun _ s' => s'.writes = s.writes ++ (blocks.getLast?.map Block.data).toList ∧
        s'.links.next .head = .head) (fun _ _ => False) s := by
    rw [receiveThenConnect, wp_bind]
    refine wp_mono (bodycbAll_spec h blocks) ?_ (fun _ _ => id)
    rintro - s1 ⟨h1, hwrites⟩
    refine wp_mono (handleRelayConnected_spec h1) ?_ (fun _ _ => id)
    rintro - s2 ⟨h2, hwrites2⟩
    constructor
    · rw [hwrites2, hwrites]
      cases blocks.getLast? <;> rfl
    · obtain ⟨ids, hlist⟩ := h2.list
      have hids : ids = [] := by
        have htexts := hlist.texts
        rwa [List.map_nil, List.map_eq_nil_iff] at htexts
      rw [hids] at hlist
      exact hlist.ring.chain.1
  constructor
  · intro hall
    obtain ⟨_, s', hall', hruns'⟩ := exists_of_wp (wp_mono (wp_and hall hruns) (fun _ _ h => h)
      fun _ _ h => h.1)
    have hwrites := hall'.1.symm.trans hruns'.1
    rw [List.append_cancel_left_eq] at hwrites
    have hlen := congrArg List.length hwrites
    rw [List.length_map] at hlen
    rw [hlen]
    cases blocks.getLast? <;> simp
  · intro hlen
    have hlast : (blocks.getLast?.map Block.data).toList = blocks.map Block.data := by
      match blocks, hlen with
      | [], _ => rfl
      | [block], _ => rfl
    rw [hlast] at hruns
    exact hruns

/-- A single fragment is written. -/
theorem writesAll_iff_single :
    BodyList.init.Holds [] ∧ (WritesAll [blockAb] .init ↔ [blockAb].length ≤ 1) :=
  ⟨holds_init, writesAll_iff holds_init _⟩

/-- Of two fragments, the first is lost. -/
theorem not_writesAll : ¬ ∀ blocks, WritesAll blocks .init := by
  intro h
  have htwo := h [blockAb, ⟨bytes "c", by decide, by decide⟩]
  unfold WritesAll at htwo
  revert htwo
  decide +kernel

end H2ClientProxy
