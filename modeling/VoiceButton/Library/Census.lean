import VoiceButton.Library.Supervision

/-!
# A census of the supervised workers

The supervisor makes events and workers in pairs: the worker at position `i` of the table of
workers was made for the event at position `i` of the table of events. Only the last worker
can be yet to start or running. So nothing that the supervisor made is started twice or left
behind, however long it runs.
-/

namespace Supervision

variable {τ : Type*}

/-- The supervisor has made an event for which there is no worker yet. -/
def armed (stage : Option (τ × Stage)) : Bool := stage.any (fun p => p.2 = .armed)

structure Census (s : State τ) : Prop where
  events : s.events.length = s.workers.length + (armed s.stage).toNat
  bound : ∀ x, s.stage = some (x, .armed) → s.stop x = some s.workers.length
  own : ∀ (i : ℕ) (w : Worker τ), s.workers[i]? = some w → w.stop = some i ∧
    ∃ event, s.events[i]? = some event ∧ event.cycle = w.cycle
  initial : ∀ (i : ℕ) (w : Worker τ), s.workers[i]? = some w → w.status = .initial →
    ∃ x, s.stage = some (x, .made) ∧ s.handle x = some i
  ended : ∀ (i : ℕ) (w : Worker τ), s.workers[i]? = some w → i + 1 < s.workers.length →
    w.status.ended

lemma Status.ended_of_not_alive {status : Status} (h : status.alive = false)
    (hinitial : status ≠ .initial) : status.ended := by
  cases status with
  | initial => exact absurd rfl hinitial
  | looping | leaving => cases h
  | finished | crashed => rfl

/-- A worker that has not ended, and so is the last one, goes on to another status. -/
lemma Census.goto {s : State τ} {stage : Option (τ × Stage)} (h : Census s)
    (harmed : armed stage = armed s.stage)
    (hbound : ∀ x, stage = some (x, .armed) → s.stop x = some s.workers.length)
    {i : ℕ} {w : Worker τ} {status : Status} (hw : s.workers[i]? = some w)
    (hended : w.status.ended = false) (hinitial : status ≠ .initial)
    (hothers : ∀ (j : ℕ) (v : Worker τ), i ≠ j → s.workers[j]? = some v → v.status ≠ .initial) :
    Census { s with stage := stage, workers := s.workers.modify i (Worker.goto status) } := by
  refine ⟨?_, ?_, ?_, ?_, ?_⟩
  · simp only [List.length_modify, harmed]
    exact h.events
  · simpa using hbound
  · intro j v hv
    obtain ⟨u, hu, rfl⟩ := Table.getElem?_modify_eq_some.mp hv
    split <;> exact h.own j u hu
  · intro j v hv hv'
    obtain ⟨u, hu, rfl⟩ := Table.getElem?_modify_eq_some.mp hv
    split at hv'
    · exact absurd hv' hinitial
    · rename_i hij
      exact absurd hv' (hothers j u hij hu)
  · intro j v hv hlast
    rw [List.length_modify] at hlast
    obtain ⟨u, hu, rfl⟩ := Table.getElem?_modify_eq_some.mp hv
    split
    · rename_i hij
      subst hij
      have hwu : w = u := Option.mem_unique hw hu
      subst hwu
      have hcontra := h.ended i w hw hlast
      rw [hended] at hcontra
      cases hcontra
    · exact h.ended j u hu hlast

/-- No worker is yet to start, unless the supervisor is about to start it. -/
lemma Census.not_initial {s : State τ} (h : Census s) (hs : ∀ x, s.stage ≠ some (x, .made)) {i : ℕ}
    {w : Worker τ} (hw : s.workers[i]? = some w) : w.status ≠ .initial := by
  intro hinitial
  obtain ⟨x, hx, -⟩ := h.initial i w hw hinitial
  exact hs x hx

lemma Census.goto_of_alive {s : State τ} (h : Census s) (hinv : Inv s) {i : ℕ} {w : Worker τ}
    {status : Status} (hw : s.workers[i]? = some w) (halive : w.status.alive)
    (hinitial : status ≠ .initial) :
    Census { s with workers := s.workers.modify i (Worker.goto status) } := by
  obtain ⟨g, hg, hstage, -⟩ := hinv.live i w hw halive
  have hmade : ∀ x, s.stage ≠ some (x, .made) := by rcases hstage with rfl | rfl <;> simp [hg]
  have hended : w.status.ended = false := by
    cases hstatus : w.status <;> first | rfl | simp [hstatus, Status.alive] at halive
  exact h.goto rfl h.bound hw hended hinitial (fun _ _ _ => h.not_initial hmade)

variable [DecidableEq τ]

theorem next_census {s t : State τ} (hinv : Inv s) (h : Census s) (hst : Next s t) : Census t := by
  cases hst with
  | tick hs => exact ⟨h.events, h.bound, h.own, h.initial, h.ended⟩
  | newEvent x hs =>
    have hinitial := fun i w => h.not_initial (i := i) (w := w) (by simp [hs])
    have hlength : s.events.length = s.workers.length := by simpa [hs, armed] using h.events
    refine ⟨?_, ?_, ?_, ?_, h.ended⟩
    · simp [armed, hlength]
    · rintro y ⟨rfl, -⟩
      simp [hlength]
    · intro i w hw
      obtain ⟨hstop, event, hevent, hcycle⟩ := h.own i w hw
      exact ⟨hstop, event, Table.getElem?_concat_of_eq_some hevent, hcycle⟩
    · intro i w hw hw'
      exact absurd hw' (hinitial i w hw)
  | newThread x hs =>
    have hinitial := fun i w => h.not_initial (i := i) (w := w) (by simp [hs])
    have hdead := fun i w => hinv.not_alive_of_stage (i := i) (w := w) (by simp [hs])
    obtain ⟨e, he, hevent⟩ := hinv.staged x .armed hs
    have hstop := h.bound x hs
    have hlast : e = s.workers.length := Option.some.inj (he.symm.trans hstop)
    refine ⟨?_, by simp, ?_, ?_, ?_⟩
    · simpa [hs, armed] using h.events
    · intro i w hw
      rcases Table.getElem?_concat_eq_some.mp hw with hold | ⟨rfl, rfl⟩
      · exact h.own i w hold
      · exact ⟨hstop, _, hlast ▸ hevent, rfl⟩
    · intro i w hw hw'
      rcases Table.getElem?_concat_eq_some.mp hw with hold | ⟨rfl, rfl⟩
      · exact absurd hw' (hinitial i w hold)
      · exact ⟨x, rfl, by simp⟩
    · intro i w hw hi
      rcases Table.getElem?_concat_eq_some.mp hw with hold | ⟨rfl, rfl⟩
      · exact Status.ended_of_not_alive (hdead i w hold) (hinitial i w hold)
      · simp at hi
  | start x i w hs hi hw hst =>
    refine h.goto (by simp [hs, armed]) (by simp) hw (by rw [hst]; rfl) (by decide) ?_
    intro j v hij hv hv'
    obtain ⟨y, hy, hj⟩ := h.initial j v hv hv'
    have hxy : x = y := by simpa using congrArg (Option.map Prod.fst) (hs.symm.trans hy)
    exact hij (Option.some.inj (hi.symm.trans (hxy ▸ hj)))
  | set x e hs he =>
    refine ⟨?_, by simp, ?_, ?_, h.ended⟩
    · simpa [hs, armed] using h.events
    · intro i w hw
      obtain ⟨hstop, event, hevent, hcycle⟩ := h.own i w hw
      refine ⟨hstop, _, Table.getElem?_modify_eq_some.mpr ⟨event, hevent, rfl⟩, ?_⟩
      split <;> exact hcycle
    · intro i w hw hw'
      exact absurd hw' (h.not_initial (by simp [hs]) hw)
  | join x i w hs hi hw hst =>
    refine ⟨?_, by simp, h.own, ?_, h.ended⟩
    · simpa [hs, armed] using h.events
    · intro j v hv hv'
      exact absurd hv' (h.not_initial (by simp [hs]) hv)
  | leave i w hw hst | finish i w hw hst | crash i w hw hst =>
    exact h.goto_of_alive hinv hw (by rw [hst]; rfl) (by decide)

theorem census_of_reflTransGen {s t : State τ} (hinv : Inv s) (h : Census s)
    (hst : Relation.ReflTransGen Next s t) : Census t := by
  induction hst with
  | refl => exact h
  | tail hsu hnext ih => exact next_census (inv_of_reflTransGen hinv hsu) ih hnext

omit [DecidableEq τ] in
lemma Census.of_no_worker {s : State τ} (hs : s.stage = none) (hw : s.workers = [])
    (he : s.events = []) : Census s :=
  ⟨by simp [hs, hw, he, armed], by simp [hs], by simp [hw], by simp [hw], by simp [hw]⟩

end Supervision
