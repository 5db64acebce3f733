import Mathlib.Init

/-!
# Weakest preconditions for stateful programs that can fault

A program that changes a state `σ` and may stop with a fault `ε` is an `EStateM ε σ α`.  A fault
keeps the state it happened in, so a specification has two postconditions: `Q a s` for a normal
return of `a` in state `s`, and `E e s` for a fault `e` in state `s`.

* `wp x Q E` is the weakest precondition of `x` for the pair `(Q, E)`.
* `wp_bind`, `wp_get`, `wp_modify`, … compute `wp` along the syntax of a `do` block; they are the
  `simp` set with which a program is executed symbolically.
* `wp_mono` replaces the postconditions of a call by those of its own specification, so that a
  caller never unfolds a callee.
-/

namespace Wp

variable {ε σ α β : Type}

/-- The weakest precondition of `x`: `Q` holds after a normal return, `E` after a fault. -/
def wp (x : EStateM ε σ α) (Q : α → σ → Prop) (E : ε → σ → Prop) (s : σ) : Prop :=
  match x s with
  | .ok a s' => Q a s'
  | .error e s' => E e s'

variable {Q : α → σ → Prop} {E : ε → σ → Prop}

/-! ### The rules of the calculus -/

@[simp]
theorem wp_pure (a : α) : wp (pure a) Q E = Q a := rfl

@[simp]
theorem wp_bind (x : EStateM ε σ β) (f : β → EStateM ε σ α) :
    wp (x >>= f) Q E = wp x (fun b => wp (f b) Q E) E := by
  funext s
  simp only [wp, bind, EStateM.bind]
  cases x s <;> rfl

@[simp]
theorem wp_get {Q : σ → σ → Prop} : wp (get : EStateM ε σ σ) Q E = fun s => Q s s := rfl

@[simp]
theorem wp_modify (f : σ → σ) {Q : PUnit → σ → Prop} :
    wp (modify f : EStateM ε σ PUnit) Q E = fun s => Q ⟨⟩ (f s) := rfl

@[simp]
theorem wp_throw (e : ε) : wp (throw e : EStateM ε σ α) Q E = E e := rfl

@[simp]
theorem wp_ite (c : Prop) [Decidable c] (x y : EStateM ε σ α) :
    wp (if c then x else y) Q E = fun s => if c then wp x Q E s else wp y Q E s := by
  funext s
  split <;> rfl

/-! ### Consequence -/

/-- Postconditions may be weakened: the form in which a callee's specification is used. -/
theorem wp_mono {x : EStateM ε σ α} {s : σ} {Q' : α → σ → Prop} {E' : ε → σ → Prop}
    (h : wp x Q E s) (hQ : ∀ a s', Q a s' → Q' a s') (hE : ∀ e s', E e s' → E' e s') :
    wp x Q' E' s := by
  unfold wp at h ⊢
  split at h
  · exact hQ _ _ h
  · exact hE _ _ h

/-- Two specifications of one program hold together. -/
theorem wp_and {x : EStateM ε σ α} {s : σ} {Q' : α → σ → Prop} {E' : ε → σ → Prop}
    (h : wp x Q E s) (h' : wp x Q' E' s) :
    wp x (fun a t => Q a t ∧ Q' a t) (fun e t => E e t ∧ E' e t) s := by
  unfold wp at h h' ⊢
  split at h
  · rename_i heq
    rw [heq] at h'
    exact ⟨h, h'⟩
  · rename_i heq
    rw [heq] at h'
    exact ⟨h, h'⟩

/-- What a program that has been run satisfies. -/
theorem wp_of_ok {x : EStateM ε σ α} {s s' : σ} {a : α} (h : x s = .ok a s') :
    wp x Q E s ↔ Q a s' := by
  rw [wp, h]

theorem wp_of_error {x : EStateM ε σ α} {s s' : σ} {e : ε} (h : x s = .error e s') :
    wp x Q E s ↔ E e s' := by
  rw [wp, h]

/-- A program that cannot fault ends in some state. -/
theorem exists_of_wp {x : EStateM ε σ α} {s : σ} (h : wp x Q (fun _ _ => False) s) :
    ∃ a s', Q a s' := by
  unfold wp at h
  split at h
  · exact ⟨_, _, h⟩
  · exact h.elim

/-- The same, with the run that ends there. -/
theorem eq_ok_of_wp {x : EStateM ε σ α} {s : σ} (h : wp x Q (fun _ _ => False) s) :
    ∃ a s', x s = .ok a s' ∧ Q a s' := by
  unfold wp at h
  split at h
  · rename_i a s' heq
    exact ⟨a, s', heq, h⟩
  · exact h.elim

/-! ### Evaluation -/

instance {x : EStateM ε σ α} {s : σ} [∀ a s, Decidable (Q a s)] [∀ e s, Decidable (E e s)] :
    Decidable (wp x Q E s) := by
  unfold wp
  exact match x s with
    | .ok a s' => inferInstanceAs (Decidable (Q a s'))
    | .error e s' => inferInstanceAs (Decidable (E e s'))

/-- A specification that is the same for a return and for a fault is one about the final state. -/
def finalState : EStateM.Result ε σ α → σ
  | .ok _ s => s
  | .error _ s => s

theorem finalState_of_wp {x : EStateM ε σ α} {s : σ} {P : σ → Prop}
    (h : wp x (fun _ => P) (fun _ => P) s) : P (finalState (x s)) := by
  unfold wp at h
  split at h
  · rename_i heq
    rw [heq]
    exact h
  · rename_i heq
    rw [heq]
    exact h

end Wp
