import H2ClientProxy.Lib.Wp

/-!
# Runs of a machine whose steps can fault

A machine is a function `step : α → EStateM ε σ Unit` from the inputs it can be given to the program
that handles one of them.  `run step as` feeds it the inputs `as` in order; a fault ends the run.

* `Meets step G as s`: every step of the run of `as` from `s` is taken in a state and with an input
  that satisfy the condition `G`.
* `run_inputs_wp`: what one step keeps under `G`, a whole run keeps; the invariant may speak of the inputs
  that have been handled.  `run_wp` is the case in which it does not.
* `run_step_wp`: what every step under `G` does, the last step of a run does.
* `Meets.of_append`: the condition is inherited by every beginning of a run, so a statement about
  the end of every run is a statement about every state that is reached.
* `Always step P as s`: every state that the run of `as` from `s` reaches satisfies `P`.
* `Always.meets`: if each step that does not meet `G` breaks `P`, then `Meets` is exactly what a run
  needs.
* `yields step f as s`: what the steps of the run give out, one after the other, where `f` says what
  one step gives out.
* `run_yields_wp`: a record to which each step adds what it gives out is added to by the whole run.
-/

namespace Machine

open Wp

variable {ε σ α : Type}

/-- Handle the inputs one after the other; the first fault ends the run. -/
def run (step : α → EStateM ε σ Unit) : List α → EStateM ε σ Unit
  | [] => pure ()
  | a :: as => do
    step a
    run step as

/-- Each step of the run of `as` from `s` satisfies the condition `G` in the state before it. -/
def Meets (step : α → EStateM ε σ Unit) (G : σ → α → Prop) : List α → σ → Prop
  | [], _ => True
  | a :: as, s => G s a ∧ wp (step a) (fun _ => Meets step G as) (fun _ _ => True) s

variable {step : α → EStateM ε σ Unit} {G : σ → α → Prop}

theorem meets_nil (s : σ) : Meets step G [] s := trivial

theorem meets_cons {a : α} {as : List α} {s : σ} : Meets step G (a :: as) s ↔
    G s a ∧ wp (step a) (fun _ => Meets step G as) (fun _ _ => True) s := Iff.rfl

/-- **The invariant rule**, for an invariant of the state and of the inputs that led to it. -/
theorem run_inputs_wp {I : List α → σ → Prop} {E : ε → σ → Prop}
    (hstep : ∀ done s a, I done s → G s a → wp (step a) (fun _ => I (done ++ [a])) E s) :
    ∀ (as done : List α) (s : σ), I done s → Meets step G as s →
      wp (run step as) (fun _ => I (done ++ as)) E s := by
  intro as
  induction as with
  | nil =>
    intro done s hI _
    rw [List.append_nil]
    exact hI
  | cons a as ih =>
    intro done s hI hG
    rw [run, wp_bind, List.append_cons]
    obtain ⟨hGa, hrest⟩ := hG
    exact wp_mono (wp_and (hstep done s a hI hGa) hrest) (fun _ s' h => ih _ s' h.1 h.2)
      (fun _ _ h => h.1)

/-- **The invariant rule.**  If every step that meets `G` keeps `I`, and `E` holds of every fault
of such a step, then every run that meets `G` keeps `I` and faults only with `E`. -/
theorem run_wp {I : σ → Prop} {E : ε → σ → Prop}
    (hstep : ∀ s a, I s → G s a → wp (step a) (fun _ => I) E s) (as : List α) (s : σ) (hI : I s)
    (hG : Meets step G as s) : wp (run step as) (fun _ => I) E s :=
  run_inputs_wp (fun _ s a => hstep s a) as [] s hI hG

/-- A condition met by a whole run is met by each of its beginnings. -/
theorem Meets.of_append {as bs : List α} {s : σ} (h : Meets step G (as ++ bs) s) :
    Meets step G as s := by
  induction as generalizing s with
  | nil => trivial
  | cons a as ih => exact ⟨h.1, wp_mono h.2 (fun _ _ => ih) (fun _ _ => id)⟩

/-- A condition that a whole run meets is met by its end, from the state that its beginning
reaches. -/
theorem Meets.append_right {as bs : List α} {s : σ} (h : Meets step G (as ++ bs) s) :
    wp (run step as) (fun _ => Meets step G bs) (fun _ _ => True) s := by
  induction as generalizing s with
  | nil => exact h
  | cons a as ih =>
    rw [run, wp_bind]
    exact wp_mono h.2 (fun _ _ => ih) (fun _ _ => id)

/-- **The rule for what one step does.**  If every step that meets `G` keeps `I` and relates the
states before and after it by `R`, then so does the last step of every run that meets `G`. -/
theorem run_step_wp {I : σ → Prop} {R : σ → α → σ → Prop}
    (hstep : ∀ s a, I s → G s a →
      wp (step a) (fun _ s' => I s' ∧ R s a s') (fun _ _ => True) s)
    {as : List α} {a : α} {s : σ} (hI : I s) (hG : Meets step G (as ++ [a]) s) :
    wp (run step as)
      (fun _ s' => I s' ∧ wp (step a) (fun _ s'' => R s' a s'') (fun _ _ => True) s')
      (fun _ _ => True) s := by
  have hrun : wp (run step as) (fun _ => I) (fun _ _ => True) s :=
    run_wp (fun s a hI hG => wp_mono (hstep s a hI hG) (fun _ _ h => h.1) fun _ _ => id) as s hI
      hG.of_append
  refine wp_mono (wp_and hrun hG.append_right) (fun _ s' h => ⟨h.1, ?_⟩) fun _ _ _ => trivial
  exact wp_mono (hstep s' a h.1 h.2.1) (fun _ _ h' => h'.2) fun _ _ => id

/-- A condition that each input satisfies in every state is met by the run. -/
theorem meets_of_forall {as : List α} (h : ∀ a ∈ as, ∀ s, G s a) (s : σ) : Meets step G as s := by
  induction as generalizing s with
  | nil => exact meets_nil s
  | cons a as ih =>
    refine ⟨h a List.mem_cons_self s, ?_⟩
    unfold wp
    split
    · exact ih (fun b hb => h b (List.mem_cons_of_mem _ hb)) _
    · trivial

/-- Every run meets the condition that asks for nothing. -/
theorem meets_true (as : List α) (s : σ) : Meets step (fun _ _ => True) as s :=
  meets_of_forall (fun _ _ _ => trivial) s

/-! ### Every state of a run -/

/-- Every state that the run of `as` from `s` reaches satisfies `P`. -/
def Always (step : α → EStateM ε σ Unit) (P : σ → Prop) (as : List α) (s : σ) : Prop :=
  ∀ pre, pre <+: as → wp (run step pre) (fun _ => P) (fun _ _ => True) s

/-- No step of the run faults. -/
def Completes (step : α → EStateM ε σ Unit) (as : List α) (s : σ) : Prop :=
  wp (run step as) (fun _ _ => True) (fun _ _ => False) s

variable {P : σ → Prop}

theorem Always.head {as : List α} {s : σ} (h : Always step P as s) : P s := by
  have h0 := h [] List.nil_prefix
  rwa [run] at h0

theorem Always.tail {a : α} {as : List α} {s s' : σ} (h : Always step P (a :: as) s)
    (hs : step a s = .ok () s') : Always step P as s' := by
  intro pre hpre
  have h1 := h (a :: pre) ((List.prefix_cons_inj a).mpr hpre)
  rw [run, wp_bind] at h1
  exact (wp_of_ok hs).mp h1

/-- What holds at the end of every run that meets `G` holds all along one. -/
theorem Meets.always {I : σ → Prop}
    (hstep : ∀ s a, I s → G s a → wp (step a) (fun _ => I) (fun _ _ => True) s)
    (hP : ∀ s, I s → P s) {as : List α} {s : σ} (hI : I s) (hG : Meets step G as s) :
    Always step P as s := by
  rintro pre ⟨post, rfl⟩
  exact wp_mono (run_wp hstep pre s hI hG.of_append) (fun _ s' => hP s') fun _ _ => id

/-- A run to an end that satisfies `Q` is a first step and a run to that end. -/
theorem run_cons_ok {Q : Unit → σ → Prop} {a : α} {as : List α} {s : σ}
    (h : wp (run step (a :: as)) Q (fun _ _ => False) s) :
    ∃ s', step a s = .ok () s' ∧ wp (run step as) Q (fun _ _ => False) s' := by
  rw [run, wp_bind] at h
  obtain ⟨⟨⟩, s', hs, h'⟩ := eq_ok_of_wp h
  exact ⟨s', hs, h'⟩

/-- **The rule for an exact condition.**  If the steps that meet `G` keep `I`, and the others break `P`,
then a run without faults satisfies `P` all along iff it meets `G`. -/
theorem Always.meets {I : σ → Prop}
    (hstep : ∀ s a, I s → G s a → wp (step a) (fun _ => I) (fun _ _ => True) s)
    (hbad : ∀ s a, I s → ¬G s a → wp (step a) (fun _ s' => ¬P s') (fun _ _ => True) s)
    {as : List α} {s : σ} (hI : I s) (hend : Completes step as s) (h : Always step P as s) :
    Meets step G as s := by
  induction as generalizing s with
  | nil => exact meets_nil s
  | cons a as ih =>
    obtain ⟨s', hs, hend'⟩ := run_cons_ok hend
    rw [meets_cons]
    by_cases hG : G s a
    · have hI' : I s' := (wp_of_ok hs).mp (hstep s a hI hG)
      exact ⟨hG, (wp_of_ok hs).mpr (ih hI' hend' (h.tail hs))⟩
    · exact absurd (h.tail hs).head ((wp_of_ok hs).mp (hbad s a hI hG))

/-! ### What a run gives out -/

variable {β : Type}

/-- What the steps of the run of `as` from `s` give out, if a step gives out `f`. -/
def yields (step : α → EStateM ε σ Unit) (f : σ → α → List β) : List α → σ → List β
  | [], _ => []
  | a :: as, s =>
    match step a s with
    | .ok _ s' => f s a ++ yields step f as s'
    | .error _ _ => []

/-- What a step gives out that does not look at the state is read off the inputs. -/
theorem yields_eq_flatMap {g : α → List β} {as : List α} {s : σ} (h : Completes step as s) :
    yields step (fun _ => g) as s = as.flatMap g := by
  induction as generalizing s with
  | nil => rfl
  | cons a as ih =>
    obtain ⟨s', hs, h'⟩ := run_cons_ok h
    rw [yields, hs, List.flatMap_cons]
    exact congrArg (g a ++ ·) (ih h')

/-- **The rule for records.**  A record to which every step under `G` adds what it gives out is added to
by every run under `G`. -/
theorem run_yields_wp {record : σ → List β} {f : σ → α → List β}
    (hstep : ∀ s a, G s a →
      wp (step a) (fun _ s' => record s' = record s ++ f s a) (fun _ _ => True) s)
    {as : List α} {s : σ} (hG : Meets step G as s) :
    wp (run step as) (fun _ s' => record s' = record s ++ yields step f as s)
      (fun _ _ => True) s := by
  induction as generalizing s with
  | nil => exact (List.append_nil _).symm
  | cons a as ih =>
    obtain ⟨hGa, hrest⟩ := hG
    have ha := hstep s a hGa
    rw [run, wp_bind, yields]
    unfold wp at ha hrest ⊢
    cases hs : step a s with
    | error e s' => trivial
    | ok u s' =>
      rw [hs] at ha hrest
      refine wp_mono (ih hrest) (fun _ s'' h => ?_) fun _ _ => id
      rw [h, ha, List.append_assoc]

/-- Whether a run meets a condition can be computed. -/
instance decidableMeets [∀ s a, Decidable (G s a)] :
    ∀ (as : List α) (s : σ), Decidable (Meets step G as s)
  | [], _ => isTrue trivial
  | a :: as, s =>
    have : ∀ s, Decidable (Meets step G as s) := decidableMeets as
    inferInstanceAs
      (Decidable (G s a ∧ wp (step a) (fun _ => Meets step G as) (fun _ _ => True) s))

-- a concrete run is computed by the kernel when it is decided, and nowhere else
attribute [irreducible] run Meets

end Machine
