import Mathlib.Data.List.Infix

/-!
# Prefix codes

A code gives every symbol a string of bits, and a word is encoded symbol by symbol.  No code string begins
another one, so the encoded words can be told apart.

* `IsPrefixCode code`, `encode code w`.
* `eq_of_encode_append`: the word and what stands behind it are determined, as long as no further symbol
  can be read there.
* `Automaton`: a decoder that reads a block of bits in a step, and in a step completes a symbol at most;
  a state stands for the bits that have been read of the next symbol.
* `Automaton.run_encode`: it decodes what has been encoded.
* `Automaton.run_some`: it decodes nothing else.
-/

namespace PrefixCode

variable {α β σ : Type} {code : α → List Bool} {v w : List α} {p q eos : List Bool}

/-- No code string is empty, and none begins another one. -/
structure IsPrefixCode (code : α → List Bool) : Prop where
  ne : ∀ a, code a ≠ []
  free : ∀ a b, code a <+: code b → a = b

/-- The bits of a word. -/
def encode (code : α → List Bool) (w : List α) : List Bool := w.flatMap code

@[simp]
theorem encode_nil : encode code [] = [] := rfl

theorem encode_cons (a : α) (w : List α) : encode code (a :: w) = code a ++ encode code w := rfl

theorem encode_append (v w : List α) : encode code (v ++ w) = encode code v ++ encode code w :=
  List.flatMap_append

/-- No symbol can be read from these bits. -/
def NoSymbol (code : α → List Bool) (p : List Bool) : Prop := ∀ a, ¬ code a <+: p

theorem eq_of_encode_append (hcode : IsPrefixCode code) (hp : NoSymbol code p) (hq : NoSymbol code q)
    (h : encode code v ++ p = encode code w ++ q) : v = w ∧ p = q := by
  induction v generalizing w with
  | nil =>
    cases w with
    | nil => exact ⟨rfl, h⟩
    | cons b w =>
      rw [encode_nil, List.nil_append, encode_cons, List.append_assoc] at h
      exact absurd ⟨_, h.symm⟩ (hp b)
  | cons a v ih =>
    cases w with
    | nil =>
      rw [encode_nil, List.nil_append, encode_cons, List.append_assoc] at h
      exact absurd ⟨_, h⟩ (hq a)
    | cons b w =>
      rw [encode_cons, encode_cons, List.append_assoc, List.append_assoc] at h
      have hab : a = b := by
        rcases List.prefix_or_prefix_of_prefix ⟨_, h⟩ (List.prefix_append (code b) _) with hab | hba
        · exact hcode.free a b hab
        · exact (hcode.free b a hba).symm
      subst hab
      obtain ⟨hvw, hpq⟩ := ih (List.append_cancel_left h)
      exact ⟨congrArg (a :: ·) hvw, hpq⟩

/-! ### Trees -/

/-- A code as a tree, with a leaf for the string that marks the end. -/
inductive CodeTree (α : Type) where
  | leaf (a : α)
  | stop
  | node (zero one : CodeTree α)

namespace CodeTree

variable {t : CodeTree α} {a b : α}

/-- The tree below a string of bits. -/
def walk : CodeTree α → List Bool → Option (CodeTree α)
  | t, [] => some t
  | node zero one, b :: p => walk (if b then one else zero) p
  | leaf _, _ :: _ => none
  | stop, _ :: _ => none

theorem walk_append (t : CodeTree α) (p q : List Bool) :
    t.walk (p ++ q) = (t.walk p).bind fun u => u.walk q := by
  induction p generalizing t with
  | nil => rw [List.nil_append, walk, Option.bind_some]
  | cons b p ih =>
    cases t with
    | node zero one => rw [List.cons_append, walk, walk, ih]
    | leaf a => rfl
    | stop => rfl

theorem walk_leaf (h : (leaf a).walk p = some t) : p = [] ∧ t = leaf a := by
  cases p with
  | nil => exact ⟨rfl, (Option.some.inj h).symm⟩
  | cons b p => exact absurd h.symm (Option.some_ne_none _)

theorem walk_stop (h : (stop : CodeTree α).walk p = some t) : p = [] ∧ t = stop := by
  cases p with
  | nil => exact ⟨rfl, (Option.some.inj h).symm⟩
  | cons b p => exact absurd h.symm (Option.some_ne_none _)

theorem node_ne_leaf (zero one : CodeTree α) (a : α) : node zero one ≠ leaf a := by
  intro h
  cases h

theorem stop_ne_leaf (a : α) : stop ≠ leaf a := by
  intro h
  cases h

/-- A string that leads to a leaf begins only those that lead to the same leaf. -/
theorem eq_leaf_of_walk {u : CodeTree α} (ha : t.walk p = some (leaf a)) (hq : t.walk q = some u)
    (h : p <+: q) : u = leaf a := by
  obtain ⟨r, rfl⟩ := h
  rw [walk_append, ha, Option.bind_some] at hq
  exact (walk_leaf hq).2

/-- The leaves of a tree are a prefix code. -/
theorem isPrefixCode {zero one : CodeTree α} (h : ∀ a, (node zero one).walk (code a) = some (leaf a)) :
    IsPrefixCode code where
  ne := fun a hnil => by
    have ha := h a
    rw [hnil, walk, Option.some_inj] at ha
    exact node_ne_leaf _ _ _ ha
  free := fun a b hab => by
    have hb := eq_leaf_of_walk (h a) (h b) hab
    exact (CodeTree.leaf.inj hb).symm

/-- No symbol can be read on the way to a node. -/
theorem noSymbol_of_node {zero one : CodeTree α} (h : ∀ a, t.walk (code a) = some (leaf a))
    (hp : t.walk p = some (node zero one)) : NoSymbol code p := by
  intro a ha
  exact node_ne_leaf _ _ _ (eq_leaf_of_walk (h a) hp ha)

/-- Nor on the way to the string that marks the end. -/
theorem noSymbol_of_prefix_eos (h : ∀ a, t.walk (code a) = some (leaf a)) (he : t.walk eos = some stop)
    (hp : p <+: eos) : NoSymbol code p := by
  intro a ha
  exact stop_ne_leaf _ (eq_leaf_of_walk (h a) he (ha.trans hp))

/-- Nor can one be read where the string that marks the end stands. -/
theorem noSymbol_of_eos (h : ∀ a, t.walk (code a) = some (leaf a)) (he : t.walk eos = some stop)
    (hp : eos <+: p) : NoSymbol code p := by
  intro a ha
  rcases List.prefix_or_prefix_of_prefix ha hp with hae | hea
  · exact stop_ne_leaf _ (eq_leaf_of_walk (h a) he hae)
  · obtain ⟨r, hr⟩ := hea
    have hleaf := h a
    rw [← hr, walk_append, he, Option.bind_some] at hleaf
    exact stop_ne_leaf _ (walk_stop hleaf).2.symm

end CodeTree

/-! ### Decoders -/

/-- A decoder for `code`.  `eos` is the string that nothing but the end of all input would be, and the
decoder fails where it meets it. -/
structure Automaton (code : α → List Bool) (eos : List Bool) (σ β : Type) where
  /-- the bits of a block -/
  bits : β → List Bool
  /-- the bits that have been read of the next symbol -/
  path : σ → List Bool
  step : σ → β → Option (Option α × σ)
  path_noSymbol : ∀ s, NoSymbol code (path s)
  step_some : ∀ {s b o s'}, step s b = some (o, s') → path s ++ bits b = encode code o.toList ++ path s'
  step_none : ∀ {s b}, step s b = none → eos <+: path s ++ bits b

namespace Automaton

variable (A : Automaton code eos σ β) {s s' : σ} {bs : List β}

/-- The symbols of a text, and the state behind it. -/
def run : σ → List β → Option (List α × σ)
  | s, [] => some ([], s)
  | s, b :: bs => (A.step s b).bind fun r => (run r.2 bs).map fun t => (r.1.toList ++ t.1, t.2)

theorem run_cons (s : σ) (b : β) (bs : List β) :
    A.run s (b :: bs) = (A.step s b).bind fun r => (A.run r.2 bs).map fun t => (r.1.toList ++ t.1, t.2) :=
  rfl

variable {A}

/-- **Soundness**: the text is made of the symbols and of what the state stands for. -/
theorem run_some (h : A.run s bs = some (w, s')) :
    A.path s ++ bs.flatMap A.bits = encode code w ++ A.path s' := by
  induction bs generalizing s w with
  | nil =>
    rw [run, Option.some_inj, Prod.mk.injEq] at h
    obtain ⟨rfl, rfl⟩ := h
    rw [List.flatMap_nil, List.append_nil, encode_nil, List.nil_append]
  | cons b bs ih =>
    rw [run_cons] at h
    obtain ⟨⟨o, s1⟩, hstep, h⟩ := Option.bind_eq_some_iff.mp h
    obtain ⟨⟨w1, s2⟩, hrun, h⟩ := Option.map_eq_some_iff.mp h
    obtain ⟨rfl, rfl⟩ := Prod.mk.inj h
    rw [List.flatMap_cons, ← List.append_assoc, A.step_some hstep, List.append_assoc, ih hrun, encode_append,
      List.append_assoc]

/-- It fails only at the string that marks the end. -/
theorem run_none (h : A.run s bs = none) :
    ∃ w p, eos <+: p ∧ A.path s ++ bs.flatMap A.bits = encode code w ++ p := by
  induction bs generalizing s with
  | nil => exact absurd h (Option.some_ne_none _)
  | cons b bs ih =>
    rw [run_cons] at h
    rw [List.flatMap_cons, ← List.append_assoc]
    cases hstep : A.step s b with
    | none => exact ⟨[], _, (A.step_none hstep).trans (List.prefix_append _ _), rfl⟩
    | some r =>
      rw [hstep, Option.bind_some, Option.map_eq_none_iff] at h
      obtain ⟨w, p, hp, hw⟩ := ih h
      refine ⟨r.1.toList ++ w, p, hp, ?_⟩
      have hr : A.step s b = some (r.1, r.2) := hstep
      rw [A.step_some hr, List.append_assoc, hw, encode_append, List.append_assoc]

/-- **Completeness**: a word that was encoded is decoded, with the rest of the bits in the state. -/
theorem run_encode (hcode : IsPrefixCode code) (heos : ∀ p, eos <+: p → NoSymbol code p)
    (hp : NoSymbol code p) (hend : ¬ eos <+: p)
    (h : A.path s ++ bs.flatMap A.bits = encode code w ++ p) :
    ∃ s', A.run s bs = some (w, s') ∧ A.path s' = p := by
  cases hrun : A.run s bs with
  | none =>
    obtain ⟨v, q, hq, hv⟩ := run_none hrun
    obtain ⟨-, rfl⟩ := eq_of_encode_append hcode (heos q hq) hp (hv.symm.trans h)
    exact absurd hq hend
  | some r =>
    obtain ⟨v, s'⟩ := r
    obtain ⟨rfl, hs⟩ := eq_of_encode_append hcode (A.path_noSymbol s') hp ((run_some hrun).symm.trans h)
    exact ⟨s', rfl, hs⟩

end Automaton

end PrefixCode
