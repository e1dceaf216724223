import Mathlib.Data.List.Induction
import Mathlib.Logic.Relation

/-!
# Transition systems driven by schedules

A system takes at most one step for each action, so a finite run is given by its
first state and its schedule, the list of the actions taken. A property of every run
is then a property of every schedule. `Guarded` restricts a run to steps that meet a
condition, and `refines_of_step` maps a run to a run of a more abstract relation.
-/

namespace Transition

variable {σ α τ : Type*} (step : σ → α → Option σ)

/-- The state after a schedule, if each of its actions is possible in turn. -/
def exec (s : σ) (as : List α) : Option σ := as.foldlM step s

/-- Every step of the schedule from `s` is taken in a state where the guard admits it. -/
def Guarded (G : σ → α → Prop) (s : σ) (as : List α) : Prop :=
  ∀ pre a post t, as = pre ++ a :: post → exec step s pre = some t → G t a

@[simp] lemma exec_nil (s : σ) : exec step s [] = some s := rfl

@[simp] lemma exec_cons (s : σ) (a : α) (as : List α) :
    exec step s (a :: as) = (step s a).bind (fun t => exec step t as) := rfl

lemma exec_append (s : σ) (as bs : List α) :
    exec step s (as ++ bs) = (exec step s as).bind (fun t => exec step t bs) := by
  unfold exec
  rw [List.foldlM_append]
  rfl

variable {step}

lemma exec_append_eq_some {s u : σ} {as bs : List α} :
    exec step s (as ++ bs) = some u ↔ ∃ t, exec step s as = some t ∧ exec step t bs = some u := by
  rw [exec_append, Option.bind_eq_some_iff]

lemma exec_concat_eq_some {s u : σ} {as : List α} {a : α} :
    exec step s (as ++ [a]) = some u ↔ ∃ t, exec step s as = some t ∧ step t a = some u := by
  rw [exec_append_eq_some]
  simp

lemma guarded_of_append {G : σ → α → Prop} {s : σ} {as bs : List α}
    (h : Guarded step G s (as ++ bs)) : Guarded step G s as := by
  intro pre a post t has ht
  exact h pre a (post ++ bs) t (by rw [has]; simp) ht

lemma guarded_concat {G : σ → α → Prop} {s t : σ} {as : List α} {a : α}
    (h : Guarded step G s (as ++ [a])) (ht : exec step s as = some t) :
    Guarded step G s as ∧ G t a :=
  ⟨guarded_of_append h, h as a [] t rfl ht⟩

lemma guarded_of_forall_mem {P : α → Prop} {s : σ} {as : List α} (h : ∀ a ∈ as, P a) :
    Guarded step (fun _ a => P a) s as := by
  intro pre a post t has _
  exact h a (by rw [has]; simp)

/-- What holds of the schedule and the state at the start, and still holds after one more
step, holds of a run. -/
theorem history_of_exec {I : List α → σ → Prop} {s t : σ} {as : List α} (hs : I [] s)
    (hstep : ∀ pre a u v, exec step s pre = some u → I pre u → step u a = some v → I (pre ++ [a]) v)
    (ht : exec step s as = some t) : I as t := by
  induction as using List.reverseRecOn generalizing t with
  | nil =>
    rw [exec_nil] at ht
    exact Option.some.inj ht ▸ hs
  | append_singleton as a ih =>
    obtain ⟨u, hu, hut⟩ := exec_concat_eq_some.mp ht
    exact hstep as a u t hu (ih hu) hut

/-- What one guarded step from a reached state preserves, a guarded run preserves. -/
theorem invariant_of_guarded {I : σ → Prop} {G : σ → α → Prop} {s t : σ} {as : List α} (hs : I s)
    (hstep : ∀ pre u a v, exec step s pre = some u → I u → G u a → step u a = some v → I v)
    (hG : Guarded step G s as) (ht : exec step s as = some t) : I t := by
  refine history_of_exec (I := fun pre u => Guarded step G s pre → I u) (fun _ => hs) ?_ ht hG
  intro pre a u v hu ih huv hGpre
  obtain ⟨hGas, hGa⟩ := guarded_concat hGpre hu
  exact hstep pre u a v hu (ih hGas) hGa huv

/-- What one step from a reached state preserves, a run preserves. -/
theorem invariant_of_exec {I : σ → Prop} {s t : σ} {as : List α} (hs : I s)
    (hstep : ∀ pre u a v, exec step s pre = some u → I u → step u a = some v → I v)
    (ht : exec step s as = some t) : I t :=
  history_of_exec (I := fun _ u => I u) hs (fun pre a u v hu ih huv => hstep pre u a v hu ih huv) ht

/-- While `Q` holds, a step of `P` decreases the measure and no step increases it, unless the
step leads to `R`, which is kept. So `R` holds after as many steps of `P` as the measure was. -/
theorem measure_of_exec {Q R : σ → Prop} {P : α → Bool} {m : σ → ℕ} {s t : σ} {as : List α}
    (hstep : ∀ pre u a v, exec step s pre = some u → Q u → step u a = some v →
      R v ∨ Q v ∧ m v + (if P a then 1 else 0) ≤ m u)
    (hkeep : ∀ u a v, R u → step u a = some v → R v) (hs : Q s) (ht : exec step s as = some t) :
    R t ∨ Q t ∧ m t + as.countP P ≤ m s := by
  refine history_of_exec (I := fun pre u => R u ∨ Q u ∧ m u + pre.countP P ≤ m s) ?_ ?_ ht
  · exact Or.inr ⟨hs, by simp⟩
  · intro pre a u v hu ih huv
    rcases ih with hR | ⟨hQ, hle⟩
    · exact Or.inl (hkeep u a v hR huv)
    · rcases hstep pre u a v hu hQ huv with hR | ⟨hQ', hle'⟩
      · exact Or.inl hR
      · refine Or.inr ⟨hQ', ?_⟩
        rw [List.countP_append, List.countP_singleton]
        omega

/-- Two systems that take related steps for the same actions, or none, stay related. -/
theorem exec_lockstep {R : σ → τ → Prop} {step' : τ → α → Option τ}
    (hstep : ∀ s t a, R s t → Option.Rel R (step s a) (step' t a)) {s : σ} {t : τ} (h : R s t)
    (as : List α) : Option.Rel R (exec step s as) (exec step' t as) := by
  induction as generalizing s t with
  | nil => exact .some h
  | cons a as ih =>
    rw [exec_cons, exec_cons]
    have hrel := hstep s t a h
    revert hrel
    cases step s a <;> cases step' t a <;> rintro (_ | _)
    · exact .none
    · exact ih ‹_›

/-- If each step is a step of `r` between the abstractions, or leaves no trace in them,
then each run is a run of `r`. -/
theorem refines_of_step {r : τ → τ → Prop} {abs : σ → τ}
    (hstep : ∀ s a t, step s a = some t → Relation.ReflGen r (abs s) (abs t))
    {s t : σ} {as : List α} (ht : exec step s as = some t) :
    Relation.ReflTransGen r (abs s) (abs t) := by
  refine invariant_of_exec (I := fun u => Relation.ReflTransGen r (abs s) (abs u)) .refl ?_ ht
  intro _ u a v _ hu huv
  exact hu.trans (hstep u a v huv).to_reflTransGen

end Transition
