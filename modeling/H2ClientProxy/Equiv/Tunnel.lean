import H2ClientProxy.Conn.Tunnel
import Mathlib.Data.List.Induction

/-!
# What nghttp2 takes for sent

nghttp2 forgets the bytes that `relay_session_send_callback` reports as sent, so these must be the
bytes that the socket accepted (`Honest`).

* `honest_iff`: this holds at every moment exactly if every `send()` accepts all it is offered.
* `not_honest`: a short write is enough to break it.
-/

namespace H2ClientProxy

/-- What the socket accepted is a prefix of what nghttp2 takes for sent, and no byte is taken for
sent that the socket did not accept. -/
def Honest (t : TunnelConn) : Prop :=
  t.accepted <+: t.reported ∧ t.reported.length ≤ t.accepted.length

/-- The number of bytes that `send()` does not accept of what it is offered. -/
def lost (call : Bytes × SendResult) : ℕ :=
  match call.2 with
  | .accepted n => call.1.length - n
  | .error _ => call.1.length

/-- The `send()` accepts all it is offered. -/
def takesAll (call : Bytes × SendResult) : Bool :=
  match call.2 with
  | .accepted n => call.1.length ≤ n
  | .error _ => call.1.isEmpty

theorem takesAll_iff (call : Bytes × SendResult) : takesAll call = true ↔ lost call = 0 := by
  obtain ⟨data, res⟩ := call
  cases res with
  | accepted n =>
    simp only [takesAll, lost, decide_eq_true_eq]
    omega
  | error e => simp only [takesAll, lost, List.isEmpty_iff, List.length_eq_zero_iff]

/-! ### One round -/

theorem offer_reported (t : TunnelConn) (call : Bytes × SendResult) :
    (offer t call).reported = t.reported ++ call.1 := by
  have hkeep : (tcpConnWrite t call.1 call.2).1.reported = t.reported := by
    unfold tcpConnWrite
    split <;> rfl
  simp only [offer, relaySessionSendCallback, hkeep, Int.toNat_natCast, List.take_length]

theorem offer_accepted (t : TunnelConn) (call : Bytes × SendResult) :
    (offer t call).accepted = t.accepted ++ call.1.take (call.1.length - lost call) := by
  obtain ⟨data, res⟩ := call
  cases res with
  | accepted n =>
    have hmin : min n data.length = data.length - (data.length - n) := by omega
    simp only [offer, relaySessionSendCallback, tcpConnWrite, send, lost, hmin]
  | error e =>
    simp only [offer, relaySessionSendCallback, tcpConnWrite, send, lost, Nat.sub_self,
      List.take_zero, List.append_nil]

/-! ### The whole stream -/

/-- A round at the end. -/
theorem offers_concat (calls : List (Bytes × SendResult)) (call : Bytes × SendResult) :
    offers (calls ++ [call]) = offer (offers calls) call := by
  simp only [offers, List.foldl_append, List.foldl_cons, List.foldl_nil]

/-- What is reported and not accepted is what the calls lost. -/
theorem length_reported (calls : List (Bytes × SendResult)) :
    (offers calls).reported.length = (offers calls).accepted.length + (calls.map lost).sum := by
  induction calls using List.reverseRecOn with
  | nil => rfl
  | append_singleton calls call ih =>
    have hle : lost call ≤ call.1.length := by
      unfold lost
      split <;> omega
    rw [offers_concat, offer_reported, offer_accepted, List.length_append, List.length_append,
      List.length_take, List.map_append, List.sum_append, List.map_singleton, List.sum_singleton]
    omega

/-- As long as nothing is lost, the socket has accepted all that is reported. -/
theorem offers_of_takesAll {calls : List (Bytes × SendResult)}
    (h : ∀ call ∈ calls, takesAll call = true) :
    (offers calls).accepted = (offers calls).reported := by
  induction calls using List.reverseRecOn with
  | nil => rfl
  | append_singleton calls call ih =>
    have hcall := (takesAll_iff call).mp (h call (by simp))
    have hcalls := ih fun c hc => h c (by simp [hc])
    rw [offers_concat, offer_reported, offer_accepted, hcall, Nat.sub_zero, List.take_length, hcalls]

/-- **The callback is honest at every moment exactly if every `send()` accepts all it is offered.** -/
theorem honest_iff (calls : List (Bytes × SendResult)) :
    (∀ k, Honest (offers (calls.take k))) ↔ ∀ call ∈ calls, takesAll call = true := by
  constructor
  · intro h call hcall
    have hlen := (h calls.length).2
    rw [List.take_length, length_reported] at hlen
    have hsum : (calls.map lost).sum = 0 := by omega
    rw [takesAll_iff]
    exact List.sum_eq_zero_iff_forall_eq_nat.mp hsum _ (List.mem_map_of_mem hcall)
  · intro h k
    have htake : ∀ call ∈ calls.take k, takesAll call = true :=
      fun call hcall => h call (List.mem_of_mem_take hcall)
    have heq := offers_of_takesAll htake
    unfold Honest
    rw [heq]
    exact ⟨List.prefix_refl _, le_refl _⟩

/-- A socket that accepts three of the four bytes of a frame: nghttp2 takes all four for sent. -/
theorem not_honest :
    ¬ ∀ calls : List (Bytes × SendResult), ∀ k, Honest (offers (calls.take k)) := by
  intro h
  have h1 := (h [(bytes "abcd", .accepted 3)] 1).2
  exact absurd h1 (by decide)

end H2ClientProxy
