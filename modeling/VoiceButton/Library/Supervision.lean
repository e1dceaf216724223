import VoiceButton.Library.Table
import Mathlib.Logic.Function.Basic
import Mathlib.Logic.Relation

/-!
# Supervision of workers by stop events

A supervisor deals with one worker at a time. It makes a stop event and binds it to a
variable, makes a thread, starts it, sets the event and joins the thread. A worker looks
the variable up afresh whenever it asks whether to stop, so what it reads is the event
that is bound at that moment. `Next` is this hand-shake over an arbitrary type of worker
targets, with the workers' own code left open, and `Inv` is what holds across any
interleaving of its steps.
-/

namespace Supervision

/-- How far the supervisor has come with the worker it deals with. -/
inductive Stage
  | armed
  | made
  | started
  | told
  deriving DecidableEq

/-- A thread before, in and after its target function. It is `leaving` once it has read a
set stop event, and `crashed` when an exception ended it. -/
inductive Status
  | initial
  | looping
  | leaving
  | finished
  | crashed
  deriving DecidableEq

def Status.alive : Status → Bool
  | .looping | .leaving => true
  | _ => false

def Status.ended : Status → Bool
  | .finished | .crashed => true
  | _ => false

/-- A stop event, with the cycle of the supervisor in which it was made. -/
structure Event where
  cycle : ℕ
  flag : Bool
  deriving DecidableEq

def Event.set (event : Event) : Event := { event with flag := true }

/-- The flag of the event that a variable is bound to, if it is bound. -/
def isSet (events : List Event) (var : Option ℕ) : Option Bool := do
  let e ← var
  let event ← events[e]?
  some event.flag

lemma isSet_eq_some {events : List Event} {var : Option ℕ} {b : Bool} :
    isSet events var = some b ↔ ∃ e event, var = some e ∧ events[e]? = some event ∧ event.flag = b := by
  simp only [isSet, bind, Option.bind_eq_some_iff, Option.some.injEq]
  aesop

lemma isSet_concat {events : List Event} {var : Option ℕ} {b : Bool} (event : Event)
    (h : isSet events var = some b) : isSet (events ++ [event]) var = some b := by
  obtain ⟨e, old, hvar, hold, hb⟩ := isSet_eq_some.mp h
  exact isSet_eq_some.mpr ⟨e, old, hvar, Table.getElem?_concat_of_eq_some hold, hb⟩

/-- A flag that is set stays set. -/
lemma isSet_modify_set {events : List Event} {var : Option ℕ} (e : ℕ)
    (h : isSet events var = some true) : isSet (events.modify e Event.set) var = some true := by
  obtain ⟨d, old, hvar, hold, hflag⟩ := isSet_eq_some.mp h
  refine isSet_eq_some.mpr ⟨d, _, hvar, Table.getElem?_modify_eq_some.mpr ⟨old, hold, rfl⟩, ?_⟩
  split
  · rfl
  · exact hflag

/-- A thread object. `stop` and `cycle` record which event its own cycle made for it. -/
structure Worker (τ : Type*) where
  target : τ
  stop : Option ℕ
  cycle : ℕ
  status : Status

def Worker.goto {τ : Type*} (status : Status) (w : Worker τ) : Worker τ := { w with status := status }

/-- `stop x` and `handle x` are the variables for the stop event and the thread of `x`. -/
structure State (τ : Type*) where
  stage : Option (τ × Stage)
  cycle : ℕ
  stop : τ → Option ℕ
  handle : τ → Option ℕ
  events : List Event
  workers : List (Worker τ)

variable {τ : Type*} [DecidableEq τ]

/-- One step of the supervisor or of a worker. -/
inductive Next : State τ → State τ → Prop
  | tick (s : State τ) (hs : s.stage = none) : Next s { s with cycle := s.cycle + 1 }
  | newEvent (s : State τ) (x : τ) (hs : s.stage = none) :
      Next s { s with
        stage := some (x, .armed)
        stop := Function.update s.stop x (some s.events.length)
        events := s.events ++ [⟨s.cycle, false⟩] }
  | newThread (s : State τ) (x : τ) (hs : s.stage = some (x, .armed)) :
      Next s { s with
        stage := some (x, .made)
        handle := Function.update s.handle x (some s.workers.length)
        workers := s.workers ++ [⟨x, s.stop x, s.cycle, .initial⟩] }
  | start (s : State τ) (x : τ) (i : ℕ) (w : Worker τ) (hs : s.stage = some (x, .made))
      (hi : s.handle x = some i) (hw : s.workers[i]? = some w) (hst : w.status = .initial) :
      Next s { s with
        stage := some (x, .started)
        workers := s.workers.modify i (Worker.goto .looping) }
  | set (s : State τ) (x : τ) (e : ℕ) (hs : s.stage = some (x, .started)) (he : s.stop x = some e) :
      Next s { s with stage := some (x, .told), events := s.events.modify e Event.set }
  | join (s : State τ) (x : τ) (i : ℕ) (w : Worker τ) (hs : s.stage = some (x, .told))
      (hi : s.handle x = some i) (hw : s.workers[i]? = some w) (hst : w.status.ended) :
      Next s { s with stage := none }
  | leave (s : State τ) (i : ℕ) (w : Worker τ) (hw : s.workers[i]? = some w)
      (hst : w.status = .looping) (hflag : isSet s.events (s.stop w.target) = some true) :
      Next s { s with workers := s.workers.modify i (Worker.goto .leaving) }
  | finish (s : State τ) (i : ℕ) (w : Worker τ) (hw : s.workers[i]? = some w)
      (hst : w.status = .leaving) :
      Next s { s with workers := s.workers.modify i (Worker.goto .finished) }
  | crash (s : State τ) (i : ℕ) (w : Worker τ) (hw : s.workers[i]? = some w)
      (hst : w.status = .looping) :
      Next s { s with workers := s.workers.modify i (Worker.goto .crashed) }

/-- What ties the supervisor's stage to the events, the variables and the workers. -/
structure Inv (s : State τ) : Prop where
  staged : ∀ x g, s.stage = some (x, g) →
    ∃ e, s.stop x = some e ∧ s.events[e]? = some ⟨s.cycle, decide (g = .told)⟩
  handled : ∀ x g, s.stage = some (x, g) → g ≠ .armed →
    ∃ i w, s.handle x = some i ∧ s.workers[i]? = some w ∧ w.target = x ∧ w.stop = s.stop x ∧
      w.cycle = s.cycle ∧ (g = .made ↔ w.status = .initial)
  live : ∀ (i : ℕ) (w : Worker τ), s.workers[i]? = some w → w.status.alive →
    ∃ g, s.stage = some (w.target, g) ∧ (g = .started ∨ g = .told) ∧ s.handle w.target = some i
  left : ∀ (i : ℕ) (w : Worker τ), s.workers[i]? = some w → w.status = .leaving ∨ w.status = .finished →
    isSet s.events w.stop = some true

omit [DecidableEq τ] in
/-- A live worker is the one that the supervisor deals with, and the variable that it reads
is bound to the event of its own cycle. -/
lemma Inv.own_stop {s : State τ} (h : Inv s) {i : ℕ} {w : Worker τ} (hw : s.workers[i]? = some w)
    (halive : w.status.alive) : w.stop = s.stop w.target ∧ w.cycle = s.cycle := by
  obtain ⟨g, hg, hstage, hi⟩ := h.live i w hw halive
  have harmed : g ≠ .armed := by rcases hstage with rfl | rfl <;> decide
  obtain ⟨j, v, hj, hv, -, hstop, hcycle, -⟩ := h.handled _ g hg harmed
  have hij : i = j := Option.mem_unique hi hj
  subst hij
  have hwv : w = v := Option.mem_unique hw hv
  subst hwv
  exact ⟨hstop, hcycle⟩

omit [DecidableEq τ] in
/-- A live worker may move on, provided that it leaves only after its own event was set. -/
lemma Inv.goto {s : State τ} (h : Inv s) {i : ℕ} {w : Worker τ} {status : Status}
    (hw : s.workers[i]? = some w) (halive : w.status.alive) (hinitial : status ≠ .initial)
    (hleft : status = .leaving ∨ status = .finished → isSet s.events w.stop = some true) :
    Inv { s with workers := s.workers.modify i (Worker.goto status) } := by
  refine ⟨h.staged, ?_, ?_, ?_⟩
  · intro x g hg harmed
    obtain ⟨j, v, hj, hv, htarget, hstop, hcycle, hmade⟩ := h.handled x g hg harmed
    refine ⟨j, _, hj, Table.getElem?_modify_eq_some.mpr ⟨v, hv, rfl⟩, ?_⟩
    by_cases hij : i = j
    · subst hij
      have hwv : w = v := Option.mem_unique hw hv
      subst hwv
      have hmade' : g ≠ .made := by
        intro hg
        rw [hmade.mp hg] at halive
        cases halive
      simp [Worker.goto, htarget, hstop, hcycle, hmade', hinitial]
    · simp [hij, htarget, hstop, hcycle, hmade]
  · intro j v hv hv'
    obtain ⟨u, hu, rfl⟩ := Table.getElem?_modify_eq_some.mp hv
    by_cases hij : i = j
    · subst hij
      have hwu : w = u := Option.mem_unique hw hu
      subst hwu
      simpa [Worker.goto] using h.live i w hw halive
    · simp only [hij, if_false] at hv' ⊢
      exact h.live j u hu hv'
  · intro j v hv hv'
    obtain ⟨u, hu, rfl⟩ := Table.getElem?_modify_eq_some.mp hv
    by_cases hij : i = j
    · subst hij
      have hwu : w = u := Option.mem_unique hw hu
      subst hwu
      simp only [Worker.goto, if_true] at hv' ⊢
      exact hleft hv'
    · simp only [hij, if_false] at hv' ⊢
      exact h.left j u hu hv'

omit [DecidableEq τ] in
lemma Inv.not_alive_of_stage {s : State τ} (h : Inv s)
    (hs : ∀ x, s.stage ≠ some (x, .started) ∧ s.stage ≠ some (x, .told)) {i : ℕ} {w : Worker τ}
    (hw : s.workers[i]? = some w) : w.status.alive = false := by
  by_contra halive
  rw [Bool.not_eq_false] at halive
  obtain ⟨g, hg, rfl | rfl, -⟩ := h.live i w hw halive
  · exact (hs w.target).1 hg
  · exact (hs w.target).2 hg

theorem next_inv {s t : State τ} (h : Inv s) (hst : Next s t) : Inv t := by
  cases hst with
  | tick hs =>
    have hdead := fun i w => h.not_alive_of_stage (i := i) (w := w) (by simp [hs])
    exact ⟨by simp [hs], by simp [hs], fun i w hw hw' => by simp [hdead i w hw] at hw', h.left⟩
  | newEvent x hs =>
    have hdead := fun i w => h.not_alive_of_stage (i := i) (w := w) (by simp [hs])
    refine ⟨?_, ?_, ?_, ?_⟩
    · rintro y g ⟨rfl, rfl⟩
      exact ⟨s.events.length, by simp, by simp⟩
    · rintro y g ⟨rfl, rfl⟩ harmed
      exact absurd rfl harmed
    · intro i w hw hw'
      simp [hdead i w hw] at hw'
    · intro i w hw hw'
      exact isSet_concat _ (h.left i w hw hw')
  | newThread x hs =>
    have hdead := fun i w => h.not_alive_of_stage (i := i) (w := w) (by simp [hs])
    refine ⟨?_, ?_, ?_, ?_⟩
    · rintro y g ⟨rfl, rfl⟩
      exact h.staged x .armed hs
    · rintro y g ⟨rfl, rfl⟩ -
      exact ⟨s.workers.length, _, by simp, List.getElem?_concat_length, rfl, rfl, rfl, by simp⟩
    · intro i w hw hw'
      rcases Table.getElem?_concat_eq_some.mp hw with hold | ⟨rfl, rfl⟩
      · simp [hdead i w hold] at hw'
      · cases hw'
    · intro i w hw hw'
      rcases Table.getElem?_concat_eq_some.mp hw with hold | ⟨rfl, rfl⟩
      · exact h.left i w hold hw'
      · rcases hw' with hw' | hw' <;> cases hw'
  | start x i w hs hi hw hinitial =>
    have hdead := fun i w => h.not_alive_of_stage (i := i) (w := w) (by simp [hs])
    refine ⟨?_, ?_, ?_, ?_⟩
    · rintro y g ⟨rfl, rfl⟩
      exact h.staged x .made hs
    · rintro y g ⟨rfl, rfl⟩ -
      obtain ⟨j, v, hj, hv, htarget, hstop, hcycle, -⟩ := h.handled x .made hs (by decide)
      have hij : i = j := Option.mem_unique hi hj
      subst hij
      exact ⟨i, _, hi, Table.getElem?_modify_self hv, htarget, hstop, hcycle, by simp [Worker.goto]⟩
    · intro j v hv hv'
      obtain ⟨u, hu, rfl⟩ := Table.getElem?_modify_eq_some.mp hv
      by_cases hij : i = j
      · subst hij
        obtain ⟨k, v, hk, hv, htarget, -⟩ := h.handled x .made hs (by decide)
        have hik : i = k := Option.mem_unique hi hk
        subst hik
        have huv : u = v := Option.mem_unique hu hv
        subst huv
        simp [Worker.goto, htarget, hi]
      · simp [hij, hdead j u hu] at hv'
    · intro j v hv hv'
      obtain ⟨u, hu, rfl⟩ := Table.getElem?_modify_eq_some.mp hv
      by_cases hij : i = j
      · simp [hij, Worker.goto] at hv'
      · simp only [hij, if_false] at hv' ⊢
        exact h.left j u hu hv'
  | set x e hs he =>
    refine ⟨?_, ?_, ?_, ?_⟩
    · rintro y g ⟨rfl, rfl⟩
      obtain ⟨d, hd, hevent⟩ := h.staged x .started hs
      have hde : e = d := Option.mem_unique he hd
      subst hde
      exact ⟨e, he, Table.getElem?_modify_self hevent⟩
    · rintro y g ⟨rfl, rfl⟩ -
      obtain ⟨i, w, hi, hw, htarget, hstop, hcycle, hmade⟩ := h.handled x .started hs (by decide)
      exact ⟨i, w, hi, hw, htarget, hstop, hcycle, by simpa using hmade⟩
    · intro i w hw hw'
      obtain ⟨g, hg, -, hi⟩ := h.live i w hw hw'
      have hx : x = w.target := by simpa using congrArg (Option.map Prod.fst) (hs.symm.trans hg)
      exact ⟨.told, by rw [hx], Or.inr rfl, hi⟩
    · intro i w hw hw'
      exact isSet_modify_set e (h.left i w hw hw')
  | join x i w hs hi hw hended =>
    refine ⟨by simp, by simp, ?_, h.left⟩
    intro j v hv hv'
    obtain ⟨g, hg, -, hj⟩ := h.live j v hv hv'
    have hx : x = v.target := by simpa using congrArg (Option.map Prod.fst) (hs.symm.trans hg)
    have hij : i = j := Option.some.inj (hi.symm.trans (hx ▸ hj))
    subst hij
    have hwv : w = v := Option.mem_unique hw hv
    subst hwv
    cases hstatus : w.status <;> simp [hstatus, Status.alive, Status.ended] at hv' hended
  | leave i w hw hlooping hflag =>
    have halive : w.status.alive := by rw [hlooping]; rfl
    exact h.goto hw halive (by decide) (fun _ => (h.own_stop hw halive).1 ▸ hflag)
  | finish i w hw hleaving =>
    exact h.goto hw (by rw [hleaving]; rfl) (by decide) (fun _ => h.left i w hw (Or.inl hleaving))
  | crash i w hw hlooping =>
    exact h.goto hw (by rw [hlooping]; rfl) (by decide) (by simp)

theorem inv_of_reflTransGen {s t : State τ} (h : Inv s) (hst : Relation.ReflTransGen Next s t) :
    Inv t := by
  induction hst with
  | refl => exact h
  | tail _ hnext ih => exact next_inv ih hnext

omit [DecidableEq τ] in
lemma Inv.of_no_worker {s : State τ} (hs : s.stage = none) (hw : s.workers = []) : Inv s :=
  ⟨by simp [hs], by simp [hs], by simp [hw], by simp [hw]⟩

section Consequences

variable {s : State τ} {i j : ℕ} {v w : Worker τ}

omit [DecidableEq τ]

/-- At most one worker is alive. -/
theorem Inv.alive_unique (h : Inv s) (hv : s.workers[i]? = some v) (hw : s.workers[j]? = some w)
    (hv' : v.status.alive) (hw' : w.status.alive) : i = j := by
  obtain ⟨g, hg, -, hi⟩ := h.live i v hv hv'
  obtain ⟨k, hk, -, hj⟩ := h.live j w hw hw'
  have htarget : v.target = w.target := by
    simpa using congrArg (Option.map Prod.fst) (hg.symm.trans hk)
  exact Option.some.inj (hi.symm.trans (htarget ▸ hj))

/-- The event that a live worker reads was made in its own cycle, and it is set exactly when
the supervisor has told the worker to stop. -/
theorem Inv.alive_event (h : Inv s) (hw : s.workers[i]? = some w) (halive : w.status.alive) :
    ∃ e event, w.stop = some e ∧ s.stop w.target = some e ∧ s.events[e]? = some event ∧
      event.cycle = w.cycle ∧ (event.flag = true ↔ s.stage = some (w.target, .told)) := by
  obtain ⟨hstop, hcycle⟩ := h.own_stop hw halive
  obtain ⟨g, hg, -, -⟩ := h.live i w hw halive
  obtain ⟨e, he, hevent⟩ := h.staged _ g hg
  exact ⟨e, _, hstop.trans he, he, hevent, hcycle.symm, by simp [hg]⟩

/-- A worker that was started and not told to stop is alive unless it crashed. -/
theorem Inv.started_status (h : Inv s) {x : τ} (hs : s.stage = some (x, .started)) :
    ∃ i w, s.handle x = some i ∧ s.workers[i]? = some w ∧ w.target = x ∧
      (w.status = .looping ∨ w.status = .crashed) := by
  obtain ⟨i, w, hi, hw, htarget, hstop, -, hmade⟩ := h.handled x .started hs (by decide)
  refine ⟨i, w, hi, hw, htarget, ?_⟩
  obtain ⟨e, he, hevent⟩ := h.staged x .started hs
  have hunset : isSet s.events w.stop ≠ some true := by
    rw [hstop, he]
    simp [isSet, hevent]
  have hleft := fun hst => hunset (h.left i w hw hst)
  cases hstatus : w.status with
  | initial => simp [hstatus] at hmade
  | looping => exact Or.inl rfl
  | leaving => exact absurd (Or.inl hstatus) hleft
  | finished => exact absurd (Or.inr hstatus) hleft
  | crashed => exact Or.inr rfl

end Consequences

end Supervision
