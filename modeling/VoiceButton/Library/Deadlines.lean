import Mathlib.Data.List.Chain
import Mathlib.Data.List.Basic

/-!
# Logs whose events announce their successors

Each event of a log belongs to a key and announces when the next event of its key is due. A log is
on time if every event comes when the one before it said. It is enough to look at the time that
the last event of each key has announced.
-/

namespace Deadlines

variable {κ τ ω : Type*} [DecidableEq κ]

structure Event (κ τ ω : Type*) where
  key : κ
  time : τ
  next : τ
  out : ω

/-- The events of a key. -/
def events (k : κ) (log : List (Event κ τ ω)) : List (Event κ τ ω) :=
  log.filter (fun e => e.key = k)

/-- When the next event of a key is due, if the key has an event. -/
def due (k : κ) (log : List (Event κ τ ω)) : Option τ := (events k log).getLast?.map Event.next

/-- Every event comes when the one before it of the same key said. -/
def OnTime (log : List (Event κ τ ω)) : Prop :=
  ∀ k, (events k log).IsChain (fun e e' => e'.time = e.next)

variable {k : κ} {log more : List (Event κ τ ω)} {e : Event κ τ ω}

@[simp] lemma events_nil : events k ([] : List (Event κ τ ω)) = [] := rfl

@[simp] lemma due_nil : due k ([] : List (Event κ τ ω)) = none := rfl

lemma onTime_nil : OnTime ([] : List (Event κ τ ω)) := fun _ => List.isChain_nil

lemma events_append : events k (log ++ more) = events k log ++ events k more :=
  List.filter_append ..

lemma events_eq_self (h : ∀ e ∈ log, e.key = k) : events k log = log :=
  List.filter_eq_self.mpr (by simpa using h)

lemma events_eq_nil (h : ∀ e ∈ log, e.key ≠ k) : events k log = [] :=
  List.filter_eq_nil_iff.mpr (by simpa using h)

@[simp] lemma events_singleton_self : events e.key [e] = [e] := by
  simp [events]

lemma events_singleton_of_ne (h : e.key ≠ k) : events k [e] = [] := by
  simp [events, h]

lemma due_concat_self : due e.key (log ++ [e]) = some e.next := by
  simp [due, events_append]

lemma due_concat_of_ne (h : e.key ≠ k) : due k (log ++ [e]) = due k log := by
  simp [due, events_append, events_singleton_of_ne h]

/-- One more event keeps a log on time if it comes when it was announced. -/
lemma OnTime.concat (h : OnTime log) (hdue : ∀ t ∈ due e.key log, e.time = t) :
    OnTime (log ++ [e]) := by
  intro k
  rw [events_append]
  by_cases hk : e.key = k
  · subst hk
    rw [events_singleton_self, List.isChain_append]
    refine ⟨h e.key, List.isChain_singleton e, ?_⟩
    intro x hx y hy
    rw [List.head?_cons, Option.mem_some_iff] at hy
    subst hy
    exact hdue x.next (by simp [due, Option.mem_def.mp hx])
  · rw [events_singleton_of_ne hk, List.append_nil]
    exact h k

end Deadlines
