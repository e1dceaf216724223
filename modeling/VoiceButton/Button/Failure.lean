import VoiceButton.Button.Handshake

/-!
# Exceptions in the main thread

No exception is caught in `button.py`, and its workers are not daemons: when the main thread
ends, a worker runs on until it reads its stop event as set, and keeps the interpreter
alive. This file determines the points at which an exception leaves such a worker behind.
-/

namespace VoiceButton

open Supervision (Inv isSet isSet_eq_some)
open Transition (Guarded exec)

/-- If the main thread has ended, every worker that is still alive has been told to stop. -/
def OrphanFree (s : State) : Prop :=
  s.raised.isSome → ∀ (i : ℕ) (w : Thread), s.threads[i]? = some w → w.status.alive →
    isSet s.events w.stop = some true

/-- An exception has ended the `record` thread of this pass. -/
def RecordCrashed (s : State) : Prop :=
  ∃ i w, s.thread = some i ∧ s.threads[i]? = some w ∧ w.status = .crashed .record

/-- The main thread is not between the start of a worker and the setting of its stop event,
or that worker is a `record` whose `Popen` has already failed. -/
def SafePoint (s : State) : Prop :=
  match s.pc with
  | .waitForRelease | .setStopRecording => RecordCrashed s
  | .speechToText _ | .printText _ | .generateContent _ | .printResponse _ | .setStopBlinking _ =>
    False
  | _ => True

/-- The step ends the main thread by an exception. -/
def Raises (s : State) (a : Action) : Prop :=
  s.raised = none ∧ ∃ t, step s a = some t ∧ t.raised.isSome

/-- Only a `record` thread can end by an exception. -/
def OnlyRecordCrashes (s : State) : Prop :=
  ∀ (i : ℕ) (w : Thread), s.threads[i]? = some w → w.status.abs = .crashed → w.status = .crashed .record

/-- All workers that are alive after the end of the main thread have been told to stop. -/
def Told (s : State) : Prop :=
  s.raised.isSome → ∀ (i : ℕ) (w : Thread), s.threads[i]? = some w → w.status.alive →
    s.pc.stage = some (w.status.target, .told)

section Steps

variable {s t : State}

lemma mainMove_raising (h : MainMove s t) (hs : s.raised = none) (ht : t.raised.isSome) :
    t.pc.stage = s.pc.stage ∧ t.threads = s.threads ∧ t.events = s.events := by
  cases h with
  | quiet _ hstage _ _ _ hframe => exact ⟨hstage, by rw [hframe], by rw [hframe]⟩
  | newEvent x => cases x <;> simp [State.newEvent, hs] at ht
  | newThread x => cases x <;> simp [State.newThread, hs] at ht
  | start => simp [State.setStatus, hs] at ht
  | send => simp [State.log, hs] at ht
  | _ => simp [hs] at ht

/-- An exception changes neither the threads nor the events. -/
lemma step_raising {a : Action} (h : step s a = some t) (hs : s.raised = none) (ht : t.raised.isSome) :
    t.pc.stage = s.pc.stage ∧ t.threads = s.threads ∧ t.events = s.events := by
  cases step_move h with
  | main _ _ _ _ hmove => exact mainMove_raising hmove hs ht
  | worker i w reply status _ _ _ hmove =>
    rw [hmove.raised, hs] at ht
    cases ht
  | recorder p act disk =>
    rw [hs] at ht
    cases ht

end Steps

section SafePoints

variable {s : State}

lemma safePoint_iff :
    SafePoint s ↔ ∀ x, s.pc.stage = some (x, .started) → x = .record ∧ RecordCrashed s := by
  cases hpc : s.pc <;> simp [SafePoint, MainPc.stage, hpc]

/-- No point after the start of a worker is safe while that worker is alive. -/
lemma not_safePoint_of_alive (hinv : Inv (abs s)) {i : ℕ} {w : Thread}
    (hw : s.threads[i]? = some w) (halive : w.status.alive)
    (hstage : s.pc.stage = some (w.status.target, .started)) :
    ¬SafePoint s := by
  intro hsafe
  obtain ⟨htarget, j, v, hj, hv, hcrashed⟩ := safePoint_iff.mp hsafe _ hstage
  have hi := alive_handle hinv hw halive
  rw [htarget] at hi
  have hij : i = j := Option.mem_unique hi hj
  subst hij
  have hwv : w = v := Option.mem_unique hw hv
  subst hwv
  rw [hcrashed] at halive
  cases halive

/-- A point at which every live worker has been told to stop is safe. -/
lemma safePoint_of_told (hinv : Inv (abs s)) (hcrashes : OnlyRecordCrashes s)
    (h : ∀ (i : ℕ) (w : Thread), s.threads[i]? = some w → w.status.alive →
      isSet s.events w.stop = some true) : SafePoint s := by
  rw [safePoint_iff]
  intro x hstage
  obtain ⟨i, v, hi, hv, htarget, hstatus⟩ := hinv.started_status hstage
  obtain ⟨w, hw, rfl⟩ := abs_workers_eq_some hv
  rcases hstatus with hlooping | hcrashed
  · have halive : w.status.alive := by
      rw [← Status.alive_abs, show w.status.abs = .looping from hlooping]
      rfl
    obtain ⟨e, event, hstop, -, hevent, -, hflag⟩ := alive_event hinv hw halive
    obtain ⟨d, event', hd, hevent', htrue⟩ := isSet_eq_some.mp (h i w hw halive)
    have hde : e = d := Option.mem_unique hstop hd
    subst hde
    have heq : event = event' := Option.mem_unique hevent hevent'
    subst heq
    have htold := hflag.mp htrue
    rw [hstage] at htold
    cases htold
  · have hrecord := hcrashes i w hw hcrashed
    have hx : x = .record := by
      rw [← htarget]
      simp only [Thread.abs, hrecord, Status.target]
    subst hx
    exact ⟨rfl, i, w, hi, hw, hrecord⟩

end SafePoints

lemma eq_crashed_of_abs {status : Status} (h : status.abs = .crashed) :
    status = .crashed status.target := by
  cases status with
  | crashed target => rfl
  | record pc => cases pc <;> cases h
  | thinkyBlinky pc => cases pc <;> cases h
  | _ => cases h

lemma step_onlyRecordCrashes {s t : State} {a : Action} (hinv : Inv (abs s)) (h : OnlyRecordCrashes s)
    (hstep : step s a = some t) : OnlyRecordCrashes t := by
  cases step_move hstep with
  | main _ _ _ _ hmove =>
    intro i w hw hcrashed
    rcases hmove.thread hw with hold | ⟨x, hstatus⟩ | ⟨x, v, -, -, -, hstatus⟩
    · exact h i w hold hcrashed
    · rw [hstatus] at hcrashed
      cases hcrashed
    · rw [hstatus, Target.abs_entry] at hcrashed
      cases hcrashed
  | worker i w reply status _ hw halive hmove =>
    intro j v hv hcrashed
    rcases hmove.thread hw hv with ⟨rfl, rfl⟩ | ⟨-, hold⟩
    · have hstatus : status.abs = .crashed := hcrashed
      cases hmove.moves with
      | stay hsame =>
        rw [← Status.alive_abs, ← hsame, hstatus] at halive
        cases halive
      | leave _ hnew | finish _ hnew =>
        rw [hstatus] at hnew
        cases hnew
      | popenFails hpopen =>
        have htarget : status.target = .record := by
          rw [hmove.target, hpopen]
          rfl
        exact htarget ▸ eq_crashed_of_abs hstatus
      | unbound _ _ hunbound => exact absurd hunbound (isSet_stop_ne_none hinv hw halive)
    · exact h j v hold hcrashed
  | recorder p act disk => exact h

/-- Told workers stay told, and an exception at a safe point leaves only told workers. -/
lemma step_told {s t : State} {a : Action} (hinv : Inv (abs s)) (h : Told s)
    (hsafe : Raises s a → SafePoint s) (hstep : step s a = some t) : Told t := by
  intro ht i v hv halive
  cases hs : s.raised with
  | none =>
    obtain ⟨hstage, hthreads, -⟩ := step_raising hstep hs ht
    rw [hstage]
    rw [hthreads] at hv
    rcases alive_stage hinv hv halive with hstarted | htold
    · exact absurd (hsafe ⟨hs, t, hstep, ht⟩) (not_safePoint_of_alive hinv hv halive hstarted)
    · exact htold
  | some exc =>
    have hraised : s.raised.isSome := by rw [hs]; rfl
    cases step_move hstep with
    | main _ _ hnone =>
      rw [hs] at hnone
      cases hnone
    | worker j w reply status _ hw hwalive hmove =>
      rw [hmove.pc]
      rcases hmove.thread hw hv with ⟨rfl, rfl⟩ | ⟨-, hold⟩
      · rw [show _ = w.status.target from hmove.target]
        exact h hraised j w hw hwalive
      · exact h hraised i v hold halive
    | recorder p act disk => exact h hraised i v hv halive

/-- Workers that have been told read their event as set. -/
lemma orphanFree_of_told {s : State} (hinv : Inv (abs s)) (h : Told s) : OrphanFree s := by
  intro hraised i w hw halive
  obtain ⟨e, event, hstop, -, hevent, -, hflag⟩ := alive_event hinv hw halive
  exact isSet_eq_some.mpr ⟨e, event, hstop, hevent, hflag.mpr (h hraised i w hw halive)⟩

theorem run_onlyRecordCrashes {file : Option Audio} {as : List Action} {t : State}
    (h : run file as = some t) : OnlyRecordCrashes t :=
  Transition.invariant_of_exec (by simp [OnlyRecordCrashes, init])
    (fun _ _ _ _ hs hcrashes hstep => step_onlyRecordCrashes (run_inv hs) hcrashes hstep) h

/-- If every exception reaches the main thread at a safe point, no state has an orphan. -/
theorem run_told {file : Option Audio} {as : List Action} {t : State}
    (hsafe : Guarded step (fun s a => Raises s a → SafePoint s) (init file) as)
    (h : run file as = some t) : Told t :=
  Transition.invariant_of_guarded (by simp [Told, init])
    (fun _ _ _ _ hs htold hG hstep => step_told (run_inv hs) htold hG hstep) hsafe h

/-- A run meets no state with an orphaned worker exactly when each exception of the main
thread is raised at a safe point. -/
theorem orphanFree_iff (file : Option Audio) (as : List Action) :
    (∀ pre post t, as = pre ++ post → run file pre = some t → OrphanFree t) ↔
      Guarded step (fun s a => Raises s a → SafePoint s) (init file) as := by
  constructor
  · intro horphan pre a post s has hs hraises
    obtain ⟨hnone, t, hstep, ht⟩ := hraises
    have hrun : run file (pre ++ [a]) = some t :=
      Transition.exec_concat_eq_some.mpr ⟨s, hs, hstep⟩
    have hfree := horphan (pre ++ [a]) post t (by rw [has]; simp) hrun ht
    obtain ⟨-, hthreads, hevents⟩ := step_raising hstep hnone ht
    rw [hthreads, hevents] at hfree
    exact safePoint_of_told (run_inv hs) (run_onlyRecordCrashes hs) hfree
  · intro hsafe pre post t has ht
    rw [has] at hsafe
    exact orphanFree_of_told (run_inv ht) (run_told (Transition.guarded_of_append hsafe) ht)

/-- A first pass in which the request to the speech service fails. -/
def networkErrorSchedule : List Action :=
  [.main .ok, .main .ok, .main .ok, .main .ok, .worker 0 .ok, .worker 0 .ok, .worker 0 .ok,
    .worker 0 .ok, .recorder 0 .openFile, .main .ok, .main .ok, .worker 0 .ok, .worker 0 .ok,
    .worker 0 .ok, .worker 0 .ok, .main .ok, .main .ok, .main .ok, .main .ok, .main .ok, .main .ok,
    .main .ok, .raise .other]

/-- An interrupt while the main thread waits for the release of the button. -/
def interruptSchedule : List Action :=
  [.main .ok, .main .ok, .main .ok, .main .ok, .worker 0 .ok, .raise .keyboardInterrupt]

/-- Both workers can be left behind. -/
theorem exists_orphan :
    (∃ t, run none networkErrorSchedule = some t ∧ ¬OrphanFree t) ∧
      ∃ t, run none interruptSchedule = some t ∧ ¬OrphanFree t := by
  constructor
  · refine ⟨_, rfl, fun h => ?_⟩
    have hset := h rfl 1 _ rfl rfl
    cases hset
  · refine ⟨_, rfl, fun h => ?_⟩
    have hset := h rfl 0 _ rfl rfl
    cases hset

/-- The main thread has ended, and worker `i` is in its loop with its stop event unset. -/
def Orphaned (i : ℕ) (s : State) : Prop :=
  s.raised.isSome ∧ ∃ w, s.threads[i]? = some w ∧ w.status.abs = .looping ∧
    w.status.beforePopen = false ∧ isSet s.events w.stop = some false

/-- A worker past its `Popen` stays in its loop while its stop event is unset. -/
lemma workerMove_looping {s t : State} {i : ℕ} {w : Thread} {reply : WorkerReply} {status : Status}
    (hinv : Inv (abs s)) (hw : s.threads[i]? = some w) (halive : w.status.alive)
    (hmove : WorkerMove s i w reply status t) (hlooping : w.status.abs = .looping)
    (hpopen : w.status.beforePopen = false) (hunset : isSet s.events w.stop = some false) :
    status.abs = .looping ∧ status.beforePopen = false := by
  constructor
  · cases hmove.moves with
    | stay hsame => exact hsame.trans hlooping
    | leave _ _ hset =>
      rw [← alive_stop hinv hw halive, hunset] at hset
      cases hset
    | finish hold =>
      rw [hlooping] at hold
      cases hold
    | popenFails hstatus =>
      rw [hstatus] at hpopen
      cases hpopen
    | unbound _ _ hunbound => exact absurd hunbound (isSet_stop_ne_none hinv hw halive)
  · cases hmove.disk with
    | same _ _ hbefore =>
      rw [Bool.eq_false_iff] at hpopen ⊢
      exact fun hstatus => hpopen (hbefore hstatus)
    | spawn _ _ _ hafter => exact hafter
    | signal _ _ _ hafter => exact hafter

lemma step_orphaned {s t : State} {a : Action} {i : ℕ} (hinv : Inv (abs s)) (h : Orphaned i s)
    (hstep : step s a = some t) : Orphaned i t := by
  obtain ⟨hraised, w, hw, hlooping, hpopen, hunset⟩ := h
  cases step_move hstep with
  | main _ _ hnone =>
    rw [hnone] at hraised
    cases hraised
  | worker j v reply status _ hv hvalive hmove =>
    rw [Orphaned, hmove.events, hmove.raised]
    by_cases hij : j = i
    · subst hij
      have hvw : v = w := Option.mem_unique hv hw
      subst hvw
      obtain ⟨hlooping', hpopen'⟩ := workerMove_looping hinv hv hvalive hmove hlooping hpopen hunset
      exact ⟨hraised, _, hmove.thread_self hv, hlooping', hpopen', hunset⟩
    · exact ⟨hraised, w, hmove.thread_of_ne hij hw, hlooping, hpopen, hunset⟩
  | recorder p act disk => exact ⟨hraised, w, hw, hlooping, hpopen, hunset⟩

/-- An orphan past its `Popen` never ends, so that the interpreter does not either. -/
theorem orphan_stays {file : Option Audio} {as bs : List Action} {s t : State} {i : ℕ}
    (hs : run file as = some s) (h : Orphaned i s) (ht : run file (as ++ bs) = some t) :
    Orphaned i t := by
  obtain ⟨u, hu, hut⟩ := Transition.exec_append_eq_some.mp ht
  have hsu : s = u := Option.mem_unique hs hu
  subst hsu
  refine Transition.invariant_of_exec (I := Orphaned i) h ?_ hut
  intro pre v a w hv horphaned hstep
  have hrun : run file (as ++ pre) = some v := Transition.exec_append_eq_some.mpr ⟨s, hs, hv⟩
  exact step_orphaned (run_inv hrun) horphaned hstep

theorem orphan_stays_networkError : ∃ t,
    run none (networkErrorSchedule ++ [.worker 1 .ok, .worker 1 .ok]) = some t ∧ Orphaned 1 t := by
  have hs : run none networkErrorSchedule = some _ := rfl
  have ht : run none (networkErrorSchedule ++ [.worker 1 .ok, .worker 1 .ok]) = some _ := rfl
  exact ⟨_, ht, orphan_stays hs ⟨rfl, _, rfl, rfl, rfl, rfl⟩ ht⟩

end VoiceButton
