import VoiceButton.Button.Handshake
import VoiceButton.Library.Census

/-!
# What each pass makes

Each pass makes a thread for `record` and a thread for `thinky_blinky`, each with a stop event
of its own, and joins both. So the threads and events alternate through the passes, and all
threads but the last have ended.
-/

namespace VoiceButton

open Supervision (Inv Census armed)

/-- How many threads the pass of the main loop is still to make. -/
def MainPc.unmade (pc : MainPc) : ℕ :=
  match pc.stage with
  | some (.record, .armed) => 2
  | some (.record, _) | some (.thinkyBlinky, .armed) => 1
  | some (.thinkyBlinky, _) => 0
  | none => 2 - pc.phase

/-- The target of the thread at position `i` of the threads. -/
def Target.nth (i : ℕ) : Target := if i % 2 = 0 then .record else .thinkyBlinky

/-- The threads in the order in which the passes made them. -/
structure Numbered (s : State) : Prop where
  length : 2 * s.cycle = s.threads.length + s.pc.unmade
  cycle : ∀ (i : ℕ) (w : Thread), s.threads[i]? = some w → w.cycle = i / 2 + 1
  target : ∀ (i : ℕ) (w : Thread), s.threads[i]? = some w → w.status.target = Target.nth i

section Unmade

variable {p q : MainPc} {x : Target}

lemma unmade_of_none (h : p.stage = none) : p.unmade = 2 - p.phase := by simp [MainPc.unmade, h]

lemma unmade_of_follows (hstage : q.stage = p.stage) (h : p.Follows q) : q.unmade = p.unmade := by
  simp only [MainPc.unmade, hstage, h.phase]

/-- Of the stages of a worker, only the making of its thread counts. -/
lemma unmade_of_stage {g k : Supervision.Stage} (hp : p.stage = some (x, g)) (hq : q.stage = some (x, k))
    (hg : g ≠ .armed) (hk : k ≠ .armed) : q.unmade = p.unmade := by
  cases x <;> cases g <;> cases k <;> simp_all [MainPc.unmade]

/-- The phase at which the thread of `x` is still to be made. -/
lemma unmade_of_armed (h : p.stage = some (x, .armed)) : p.unmade = 2 - p.phase := by
  cases p <;> first | rfl | cases h

lemma unmade_of_joined (hp : p.stage = some (x, .told)) (hq : q.stage = none) (h : p.Follows q) :
    q.unmade = p.unmade := by
  rw [unmade_of_none hq, h.phase]
  cases p <;> first | rfl | cases hp

end Unmade

section Steps

variable {s t : State}

/-- A step that keeps the threads, and what is left to make in the pass. -/
lemma Numbered.frame (h : Numbered s) (hcycle : t.cycle = s.cycle) (hthreads : t.threads = s.threads)
    (hunmade : t.pc.unmade = s.pc.unmade) : Numbered t := by
  refine ⟨?_, ?_, ?_⟩
  · rw [hcycle, hthreads, hunmade]
    exact h.length
  · rw [hthreads]
    exact h.cycle
  · rw [hthreads]
    exact h.target

lemma Numbered.setStatus (h : Numbered s) {i : ℕ} {w : Thread} {status : Status}
    (hw : s.threads[i]? = some w) (htarget : status.target = w.status.target)
    (hcycle : t.cycle = s.cycle) (hthreads : t.threads = (s.setStatus i status).threads)
    (hunmade : t.pc.unmade = s.pc.unmade) : Numbered t := by
  refine ⟨?_, ?_, ?_⟩
  · rw [hcycle, hthreads, hunmade, State.setStatus, List.length_modify]
    exact h.length
  · intro j v hv
    rw [hthreads] at hv
    obtain ⟨u, hu, rfl⟩ := Table.getElem?_modify_eq_some.mp hv
    split <;> exact h.cycle j u hu
  · intro j v hv
    rw [hthreads] at hv
    obtain ⟨u, hu, rfl⟩ := Table.getElem?_modify_eq_some.mp hv
    split
    · rename_i hij
      subst hij
      have hwu : w = u := Option.mem_unique hw hu
      subst hwu
      exact htarget.trans (h.target i w hw)
    · exact h.target j u hu

/-- The new thread is the first or the second of its pass. -/
lemma Numbered.newThread (h : Numbered s) {x : Target} {next : MainPc}
    (hs : s.pc.stage = some (x, .armed)) (hnext : next.stage = some (x, .made)) :
    Numbered { s.newThread x with pc := next } := by
  have hthreads : (s.newThread x).threads = s.threads ++ [⟨s.stop x, s.cycle, .initial x⟩] := by
    cases x <;> rfl
  have hcycle : (s.newThread x).cycle = s.cycle := by cases x <;> rfl
  have hlength := h.length
  have hunmade : s.pc.unmade = next.unmade + 1 := by
    cases x <;> simp [MainPc.unmade, hs, hnext]
  have hlast : s.cycle = s.threads.length / 2 + 1 ∧ x = Target.nth s.threads.length := by
    cases x with
    | record =>
      have htwo : s.pc.unmade = 2 := by simp [MainPc.unmade, hs]
      have heven : s.threads.length % 2 = 0 := by omega
      exact ⟨by omega, by simp [Target.nth, heven]⟩
    | thinkyBlinky =>
      have hone : s.pc.unmade = 1 := by simp [MainPc.unmade, hs]
      have hodd : s.threads.length % 2 = 1 := by omega
      exact ⟨by omega, by simp [Target.nth, hodd]⟩
  refine ⟨?_, ?_, ?_⟩
  · simp only [hthreads, hcycle, List.length_append, List.length_singleton]
    omega
  · intro i w hw
    rw [show _ = s.threads ++ _ from hthreads] at hw
    rcases Table.getElem?_concat_eq_some.mp hw with hold | ⟨rfl, rfl⟩
    · exact h.cycle i w hold
    · exact hlast.1
  · intro i w hw
    rw [show _ = s.threads ++ _ from hthreads] at hw
    rcases Table.getElem?_concat_eq_some.mp hw with hold | ⟨rfl, rfl⟩
    · exact h.target i w hold
    · exact hlast.2

lemma mainMove_numbered (h : Numbered s) (hmove : MainMove s t) : Numbered t := by
  cases hmove with
  | quiet _ hstage hfollows _ _ hframe =>
    exact h.frame (by rw [hframe]) (by rw [hframe]) (unmade_of_follows hstage hfollows)
  | press hs =>
    refine ⟨?_, h.cycle, h.target⟩
    have hlength := h.length
    rw [hs] at hlength
    simp only [MainPc.unmade, MainPc.stage, MainPc.phase] at hlength ⊢
    omega
  | newEvent x next hs hnext hfollows =>
    refine h.frame (by cases x <;> rfl) (by cases x <;> rfl) ?_
    rw [unmade_of_armed hnext, unmade_of_none hs, hfollows.phase]
  | newThread x next hs hnext => exact h.newThread hs hnext
  | start x next i w hs hnext _ _ hi hw =>
    exact h.setStatus hw (Target.target_entry _) rfl rfl
      (unmade_of_stage hs hnext (by decide) (by decide))
  | set x next e hs hnext => exact h.frame rfl rfl (unmade_of_stage hs hnext (by decide) (by decide))
  | join x next i w hs hnext hfollows => exact h.frame rfl rfl (unmade_of_joined hs hnext hfollows)
  | read hs | send content hs => exact h.frame rfl rfl (by rw [hs]; rfl)
  | led next hs hnext hphase =>
    exact h.frame rfl rfl (by rw [unmade_of_none hnext, unmade_of_none hs, hphase])

lemma step_numbered {a : Action} (h : Numbered s) (hstep : step s a = some t) : Numbered t := by
  cases step_move hstep with
  | main _ _ _ _ hmove => exact mainMove_numbered h hmove
  | worker i w reply status _ hw _ hmove =>
    exact h.setStatus hw hmove.target hmove.cycle (by rw [hmove.frame]) (by rw [hmove.pc])
  | recorder p act disk => exact h.frame rfl rfl rfl

end Steps

theorem run_numbered {file : Option Audio} {as : List Action} {t : State} (h : run file as = some t) :
    Numbered t := by
  refine Transition.invariant_of_exec ?_ (fun _ _ _ _ _ hnumbered hstep => step_numbered hnumbered hstep) h
  exact ⟨rfl, by simp [init], by simp [init]⟩

theorem run_census {file : Option Audio} {as : List Action} {t : State} (h : run file as = some t) :
    Census (abs t) :=
  Supervision.census_of_reflTransGen (init_inv file) (Census.of_no_worker rfl rfl rfl) (run_refines h)

/-- The thread at position `i` was made in pass `i / 2 + 1`, for `record` if `i` is even and for
`thinky_blinky` if it is odd, with the event at position `i`. If a later thread was made, it
has ended. -/
structure InTurn (s : State) (i : ℕ) (w : Thread) : Prop where
  cycle : w.cycle = i / 2 + 1
  target : w.status.target = Target.nth i
  stop : w.stop = some i
  event : ∃ event, s.events[i]? = some event ∧ event.cycle = w.cycle
  ended : i + 1 < s.threads.length → w.status.abs.ended

/-- However long the program runs, each pass makes two threads and two events, and no thread but
the last is yet to start or running. -/
theorem run_inTurn {file : Option Audio} {as : List Action} {t : State} (h : run file as = some t) :
    2 * t.cycle = t.threads.length + t.pc.unmade ∧
      t.events.length = t.threads.length + (armed t.pc.stage).toNat ∧
      ∀ (i : ℕ) (w : Thread), t.threads[i]? = some w → InTurn t i w := by
  have hnumbered := run_numbered h
  have hcensus := run_census h
  have hlength : (abs t).workers.length = t.threads.length := List.length_map _
  refine ⟨hnumbered.length, hlength ▸ hcensus.events, ?_⟩
  intro i w hw
  have hw' := abs_workers_getElem? hw
  obtain ⟨hstop, hevent⟩ := hcensus.own i w.abs hw'
  exact ⟨hnumbered.cycle i w hw, hnumbered.target i w hw, hstop, hevent,
    fun hlast => hcensus.ended i w.abs hw' (hlength.symm ▸ hlast)⟩

theorem run_inTurn_hello : ∃ t, run none helloSchedule = some t ∧ t.threads.length = 2 ∧
    2 * t.cycle = t.threads.length + t.pc.unmade ∧
      t.events.length = t.threads.length + (armed t.pc.stage).toNat ∧
      ∀ (i : ℕ) (w : Thread), t.threads[i]? = some w → InTurn t i w := by
  have h : run none helloSchedule = some _ := rfl
  exact ⟨_, h, rfl, run_inTurn h⟩

end VoiceButton
