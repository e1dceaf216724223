import VoiceButton.Button.Handshake

/-!
# The hand-over of the LED and of the stop events

The three threads share the LED and the stop events without a lock. `Lit` says which value
the LED has at each program point, and `HandOver` collects what makes the sharing safe: one
worker at a time, each reading the event of its own pass, and the LED off whenever it
changes hands.
-/

namespace VoiceButton

open Supervision (Inv isSet)

/-- The main thread is about to write the LED. -/
def MainPc.writesLed : MainPc → Bool
  | .ledOn _ | .ledColor _ | .ledOff => true
  | _ => false

/-- The main thread is about to bind a stop variable to a new event. -/
def MainPc.rebinds : MainPc → Bool
  | .newStopRecording | .newStopBlinking => true
  | _ => false

/-- The LED while no thread has ended by an exception: the live worker determines it, and
the main thread's program point does when there is none. -/
structure Lit (s : State) : Prop where
  crashed : ∀ (i : ℕ) (w : Thread), s.threads[i]? = some w → w.status.abs ≠ .crashed
  worker : ∀ (i : ℕ) (w : Thread), s.threads[i]? = some w → w.status.alive → w.status.Lights s.led
  main : (∀ (i : ℕ) (w : Thread), s.threads[i]? = some w → w.status.alive = false) →
    s.led = s.pc.light

/-- Between the making of a stop event and the join, the main thread leaves the LED off. -/
lemma light_of_stage {pc : MainPc} {p : Target × Supervision.Stage} (h : pc.stage = some p) :
    pc.light = .off := by
  cases pc <;> first | rfl | cases h

lemma stage_of_writesLed {pc : MainPc} (h : pc.writesLed) : pc.stage = none := by
  cases pc <;> first | rfl | cases h

lemma stage_of_rebinds {pc : MainPc} (h : pc.rebinds) : pc.stage = none := by
  cases pc <;> first | rfl | cases h

lemma lights_entry {x : Target} {led : Color} (h : led = .off) : x.entry.Lights led := by
  cases x <;> exact h

lemma led_off_of_finished {status : Status} {led : Color} (h : status.abs = .finished)
    (hlights : status.Lights led) : led = .off := by
  cases status with
  | finished _ => exact hlights
  | record pc => cases pc <;> cases h
  | thinkyBlinky pc => cases pc <;> cases h
  | _ => cases h

/-- A step that keeps the threads and the LED, and at which the main thread expects the same
LED value as before. -/
lemma Lit.frame {s t : State} (h : Lit s) (hthreads : t.threads = s.threads) (hled : t.led = s.led)
    (hlight : t.pc.light = s.pc.light) : Lit t := by
  refine ⟨?_, ?_, ?_⟩
  · rw [hthreads]
    exact h.crashed
  · rw [hthreads, hled]
    exact h.worker
  · rw [hthreads, hled, hlight]
    exact h.main

lemma not_crashed_of_mainMove {s t : State} (h : Lit s) (hmove : MainMove s t) {i : ℕ} {w : Thread}
    (hw : t.threads[i]? = some w) : w.status.abs ≠ .crashed := by
  rcases hmove.thread hw with hold | ⟨x, hstatus⟩ | ⟨x, v, -, -, -, hstatus⟩
  · exact h.crashed i w hold
  · rw [hstatus]
    nofun
  · rw [hstatus, Target.abs_entry]
    decide

/-- A step of the main thread while no worker is alive, after which the LED is off as the
main thread expects. -/
lemma mainMove_lit_of_off {s t : State} (h : Lit s) (hmove : MainMove s t)
    (hdead : ∀ (i : ℕ) (w : Thread), s.threads[i]? = some w → w.status.alive = false)
    (hled : t.led = .off) (hlight : t.pc.light = .off) : Lit t := by
  refine ⟨fun i w => not_crashed_of_mainMove h hmove, ?_, fun _ => hled.trans hlight.symm⟩
  intro i w hw halive
  rcases hmove.thread hw with hold | ⟨x, hstatus⟩ | ⟨x, v, -, -, -, hstatus⟩
  · simp [hdead i w hold] at halive
  · rw [hstatus] at halive
    cases halive
  · rw [hstatus]
    exact lights_entry hled

lemma mainMove_lit {s t : State} (hinv : Inv (abs s)) (h : Lit s) (hmove : MainMove s t) : Lit t := by
  have hdead (hs : ∀ x, s.pc.stage ≠ some (x, .started) ∧ s.pc.stage ≠ some (x, .told)) (i : ℕ)
      (w : Thread) (hw : s.threads[i]? = some w) : w.status.alive = false :=
    not_alive_of_stage hinv hs hw
  cases hmove with
  | quiet _ _ hfollows _ _ hframe => exact h.frame (by rw [hframe]) (by rw [hframe]) hfollows.light
  | press hs => exact h.frame rfl rfl (by rw [hs]; rfl)
  | newEvent x next _ _ hfollows => cases x <;> exact h.frame rfl rfl hfollows.light
  | newThread x next hs hnext hfollows =>
    have hled : (s.newThread x).led = s.led := by cases x <;> rfl
    have hdead := hdead (by simp [hs])
    have hoff : s.led = .off := (h.main hdead).trans (light_of_stage hs)
    exact mainMove_lit_of_off h (.newThread x next hs hnext hfollows) hdead (hled.trans hoff)
      (light_of_stage hnext)
  | start x next i w hs hnext hlight hphase hi hw hinitial =>
    have hdead := hdead (by simp [hs])
    have hoff : s.led = .off := (h.main hdead).trans (light_of_stage hs)
    exact mainMove_lit_of_off h (.start x next i w hs hnext hlight hphase hi hw hinitial) hdead hoff
      (light_of_stage hnext)
  | set x next e _ _ hfollows => exact h.frame rfl rfl hfollows.light
  | join x next i w _ _ hfollows => exact h.frame rfl rfl hfollows.light
  | read hs => exact h.frame rfl rfl (by rw [hs]; rfl)
  | send content hs => exact h.frame rfl rfl (by rw [hs]; rfl)
  | led next hs hnext =>
    refine ⟨h.crashed, ?_, fun _ => rfl⟩
    intro i w hw halive
    simp [hdead (by simp [hs]) i w hw] at halive

/-- A worker that takes a step neither crashes nor writes the LED unexpectedly, unless its
`Popen` fails. -/
lemma workerMove_lit {s t : State} {i : ℕ} {w : Thread} {reply : WorkerReply} {status : Status}
    (hinv : Inv (abs s)) (h : Lit s) (hreply : reply ≠ .popenFails) (hw : s.threads[i]? = some w)
    (halive : w.status.alive) (hmove : WorkerMove s i w reply status t) : Lit t := by
  have hlights : status.Lights t.led := hmove.lights (h.worker i w hw halive)
  have hstatus : status.alive ∨ status.abs = .finished := by
    cases hmove.moves with
    | stay hsame =>
      left
      rw [← Status.alive_abs, hsame, Status.alive_abs, halive]
    | leave _ hnew =>
      left
      rw [← Status.alive_abs, hnew]
      rfl
    | finish _ hnew => exact Or.inr hnew
    | popenFails _ _ hfails => exact absurd hfails hreply
    | unbound _ _ hunbound => exact absurd hunbound (isSet_stop_ne_none hinv hw halive)
  refine ⟨?_, ?_, ?_⟩
  · intro j v hv
    rcases hmove.thread hw hv with ⟨rfl, rfl⟩ | ⟨-, hold⟩
    · rcases hstatus with hstatus | hstatus
      · intro hcrashed
        rw [← Status.alive_abs, hcrashed] at hstatus
        cases hstatus
      · simp [hstatus]
    · exact h.crashed j v hold
  · intro j v hv halive'
    rcases hmove.thread hw hv with ⟨rfl, rfl⟩ | ⟨hij, hold⟩
    · exact hlights
    · exact absurd (alive_unique hinv hw hold halive halive') hij
  · intro hdead
    have hoff : s.pc.light = .off := by
      rcases alive_stage hinv hw halive with hs | hs <;> exact light_of_stage hs
    have hended : status.alive = false := hdead i _ (hmove.thread_self hw)
    rw [hmove.pc, hoff]
    rcases hstatus with hstatus | hstatus
    · rw [hended] at hstatus
      cases hstatus
    · exact led_off_of_finished hstatus hlights

/-- No step is the failure of a worker's `Popen`. -/
def Action.popenFails : Action → Bool
  | .worker _ .popenFails => true
  | _ => false

lemma step_lit {s t : State} {a : Action} (hinv : Inv (abs s)) (h : Lit s)
    (ha : a.popenFails = false) (hstep : step s a = some t) : Lit t := by
  cases step_move hstep with
  | main _ _ _ _ hmove => exact mainMove_lit hinv h hmove
  | worker i w reply status _ hw halive hmove =>
    refine workerMove_lit hinv h ?_ hw halive hmove
    rintro rfl
    cases ha
  | recorder p act disk => exact h.frame rfl rfl rfl

lemma init_lit (file : Option Audio) : Lit (init file) := ⟨by simp [init], by simp [init], fun _ => rfl⟩

theorem run_lit {file : Option Audio} {as : List Action} {t : State}
    (hpopen : ∀ a ∈ as, a.popenFails = false) (h : run file as = some t) : Lit t :=
  Transition.invariant_of_guarded (G := fun _ a => a.popenFails = false) (init_lit file)
    (fun _ _ _ _ hs hlit ha hstep => step_lit (run_inv hs) hlit ha hstep)
    (Transition.guarded_of_forall_mem hpopen) h

/-- The hand-over between the threads in one state. -/
structure HandOver (s : State) : Prop where
  /-- At most one worker is alive. -/
  one_worker : ∀ (i j : ℕ) (v w : Thread), s.threads[i]? = some v → s.threads[j]? = some w →
    v.status.alive → w.status.alive → i = j
  /-- The main thread writes the LED, binds a new stop event, or waits for the button to be
  pressed only when none is. -/
  main_alone : s.pc.writesLed ∨ s.pc.rebinds ∨ s.pc = .waitForPress →
    ∀ (i : ℕ) (w : Thread), s.threads[i]? = some w → w.status.alive = false
  /-- A worker that is alive reads the event that its own pass of the main loop made for it,
  and reads it as set exactly when the main thread waits for it in `join`. -/
  own_event : ∀ (i : ℕ) (w : Thread), s.threads[i]? = some w → w.status.alive →
    ∃ e event, s.stop w.status.target = some e ∧ w.stop = some e ∧ s.events[e]? = some event ∧
      event.cycle = w.cycle ∧ w.cycle = s.cycle ∧
      (event.flag = true ↔ s.pc.stage = some (w.status.target, .told))
  /-- A worker has left its loop only if the event of its own pass is set. -/
  left_loop : ∀ (i : ℕ) (w : Thread), s.threads[i]? = some w →
    w.status.abs = .leaving ∨ w.status.abs = .finished → isSet s.events w.stop = some true
  /-- The LED shows what the worker that is alive last wrote, -/
  led_worker : ∀ (i : ℕ) (w : Thread), s.threads[i]? = some w → w.status.alive →
    w.status.Lights s.led
  /-- and else what the main thread last wrote. -/
  led_main : (∀ (i : ℕ) (w : Thread), s.threads[i]? = some w → w.status.alive = false) →
    s.led = s.pc.light
  /-- The LED is off while the button waits to be pressed. -/
  led_idle : s.pc = .waitForPress → s.led = .off

/-- Whatever the button, the external calls, the `rec` processes and the scheduler do, the
hand-over is safe in every state of every run in which no worker's `Popen` fails. -/
theorem run_handOver {file : Option Audio} {as : List Action} {t : State}
    (hpopen : ∀ a ∈ as, a.popenFails = false) (h : run file as = some t) : HandOver t := by
  have hinv := run_inv h
  have hlit := run_lit hpopen h
  have hdead (hs : t.pc.stage = none) (i : ℕ) (w : Thread) (hw : t.threads[i]? = some w) :
      w.status.alive = false := not_alive_of_stage hinv (by simp [hs]) hw
  refine ⟨?_, ?_, ?_, ?_, hlit.worker, hlit.main, ?_⟩
  · intro i j v w hv hw hv' hw'
    exact alive_unique hinv hv hw hv' hw'
  · rintro (hwrites | hrebinds | hpc)
    · exact hdead (stage_of_writesLed hwrites)
    · exact hdead (stage_of_rebinds hrebinds)
    · exact hdead (by rw [hpc]; rfl)
  · intro i w hw halive
    obtain ⟨e, event, hown, hstop, hevent, hcycle, hflag⟩ := alive_event hinv hw halive
    exact ⟨e, event, hstop, hown, hevent, hcycle, alive_cycle hinv hw halive, hflag⟩
  · intro i w hw hleft
    exact hinv.left i w.abs (abs_workers_getElem? hw) hleft
  · intro hpc
    have hstage : t.pc.stage = none := by rw [hpc]; rfl
    rw [hlit.main (hdead hstage), hpc]
    rfl

/-- A first pass that reaches the join while the record worker is still asleep. -/
def sleepingSchedule : List Action :=
  [.main .ok, .main .ok, .main .ok, .main .ok, .worker 0 .ok, .worker 0 .ok, .worker 0 .ok,
    .worker 0 .ok, .main .ok, .main .ok]

theorem run_handOver_sleeping :
    ∃ t, run none sleepingSchedule = some t ∧ t.pc = .joinThread ∧ HandOver t := by
  have h : run none sleepingSchedule = some _ := rfl
  exact ⟨_, h, rfl, run_handOver (by decide) h⟩

end VoiceButton
