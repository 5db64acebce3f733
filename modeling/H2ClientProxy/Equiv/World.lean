import H2ClientProxy.World
import Mathlib.Tactic.SplitIfs

/-!
# Symbolic execution over the world

The rules of `Wp` for the access functions of `World.lean`.  A read of an object splits on whether
it is still there.
-/

namespace H2ClientProxy

open Wp

variable {E : Fault → World → Prop}

@[simp]
theorem wp_getClient (c : ClientId) {Q : Client → World → Prop} :
    wp (getClient c) Q E = fun w =>
      match w.clients c with
      | some cl => Q cl w
      | none => E (.clientFreed c) w := by
  funext w
  simp only [getClient, wp_bind, wp_get]
  cases w.clients c <;> rfl

@[simp]
theorem wp_getRelay (r : RelayId) {Q : Relay → World → Prop} :
    wp (getRelay r) Q E = fun w =>
      match w.relays r with
      | some rel => Q rel w
      | none => E (.relayFreed r) w := by
  funext w
  simp only [getRelay, wp_bind, wp_get]
  cases w.relays r <;> rfl

@[simp]
theorem wp_putClient (c : ClientId) (cl : Client) {Q : Unit → World → Prop} :
    wp (putClient c cl) Q E = fun w => Q () (w.setClient c (some cl)) := rfl

@[simp]
theorem wp_putRelay (r : RelayId) (rel : Relay) {Q : Unit → World → Prop} :
    wp (putRelay r rel) Q E = fun w => Q () (w.setRelay r rel) := rfl

@[simp]
theorem wp_note (o : Obs) {Q : Unit → World → Prop} :
    wp (note o) Q E = fun w => Q () (w.log o) := rfl

@[simp]
theorem wp_needSession (session : Bool) {Q : Unit → World → Prop} :
    wp (needSession session) Q E = fun w => if session then Q () w else E .nullSession w := by
  cases session <;> rfl

/-- A stream after a change of one stream. -/
theorem World.mapStream_eq_some {w : World} {s s' : StreamId} {f : Stream → Stream} {st' : Stream}
    (h : (w.mapStream s f).streams s' = some st') :
    ∃ st, w.streams s' = some st ∧ st' = if s' = s then f st else st := by
  rw [World.mapStream_streams, Function.update_apply] at h
  split_ifs at h with he
  · rw [Option.map_eq_some_iff] at h
    obtain ⟨st, hst, rfl⟩ := h
    exact ⟨st, he ▸ hst, by rw [if_pos he]⟩
  · exact ⟨st', h, by rw [if_neg he]⟩

end H2ClientProxy
