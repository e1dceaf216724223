import VoiceButton.Button.Moves

/-!
# The hand-shake of `button.py`

Forgetting the devices and the program points between two thread operations turns
`button.py` into an instance of the supervision hand-shake: each step is a step of
`Supervision.Next` or leaves no trace. So its invariant holds in every state of every run,
whatever the external calls return or raise.
-/

namespace VoiceButton

open Supervision (Inv Next Worker isSet)
open Relation (ReflGen)

def Thread.abs (w : Thread) : Worker Target := ⟨w.status.target, w.stop, w.cycle, w.status.abs⟩

/-- The supervision state of the program. -/
def abs (s : State) : Supervision.State Target where
  stage := s.pc.stage
  cycle := s.cycle
  stop := s.stop
  handle := s.handle
  events := s.events
  workers := s.threads.map Thread.abs

@[simp] lemma Status.alive_abs (status : Status) : status.abs.alive = status.alive := by
  cases status with
  | record pc => cases pc <;> rfl
  | thinkyBlinky pc => cases pc <;> rfl
  | _ => rfl

@[simp] lemma Target.target_entry (x : Target) : x.entry.target = x := by cases x <;> rfl

@[simp] lemma Target.abs_entry (x : Target) : x.entry.abs = .looping := by cases x <;> rfl

lemma abs_workers_getElem? {s : State} {i : ℕ} {w : Thread} (h : s.threads[i]? = some w) :
    (abs s).workers[i]? = some w.abs := by
  simp [abs, h]

lemma abs_workers_eq_some {s : State} {i : ℕ} {v : Worker Target} (h : (abs s).workers[i]? = some v) :
    ∃ w, s.threads[i]? = some w ∧ v = w.abs := by
  simp only [abs, List.getElem?_map, Option.map_eq_some_iff] at h
  obtain ⟨w, hw, rfl⟩ := h
  exact ⟨w, hw, rfl⟩

section Frames

variable {s t : State}

lemma abs_goto (s : State) (next : MainPc) :
    abs { s with pc := next } = { abs s with stage := next.stage } := rfl

/-- A step within a stage that touches only the devices leaves no trace. -/
lemma abs_frame (hstage : t.pc.stage = s.pc.stage)
    (h : t = { s with pc := t.pc, raised := t.raised, led := t.led, disk := t.disk, calls := t.calls }) :
    abs t = abs s := by
  have hstop : t.stop = s.stop := by rw [h]; funext x; cases x <;> rfl
  have hhandle : t.handle = s.handle := by rw [h]; funext x; cases x <;> rfl
  simp only [abs, hstage, hstop, hhandle]
  rw [h]

lemma abs_setStatus {i : ℕ} {w : Thread} {status : Status} (hw : s.threads[i]? = some w)
    (htarget : status.target = w.status.target)
    (h : t = { s.setStatus i status with led := t.led, disk := t.disk, calls := t.calls }) :
    abs t = { abs s with workers := (abs s).workers.modify i (Worker.goto status.abs) } := by
  have hstop : t.stop = s.stop := by rw [h]; funext x; cases x <;> rfl
  have hhandle : t.handle = s.handle := by rw [h]; funext x; cases x <;> rfl
  have hworkers : t.threads.map Thread.abs =
      (s.threads.map Thread.abs).modify i (Worker.goto status.abs) := by
    rw [h]
    apply Table.map_modify_of_comm
    intro v hv
    have hvw : v = w := Option.mem_unique hv hw
    simp [Thread.abs, Worker.goto, hvw, htarget]
  simp only [abs, hstop, hhandle, hworkers]
  rw [h]
  rfl

/-- A worker that moves on without leaving its loop leaves no trace. -/
lemma abs_setStatus_of_abs_eq {i : ℕ} {w : Thread} {status : Status} (hw : s.threads[i]? = some w)
    (htarget : status.target = w.status.target) (habs : status.abs = w.status.abs)
    (h : t = { s.setStatus i status with led := t.led, disk := t.disk, calls := t.calls }) :
    abs t = abs s := by
  rw [abs_setStatus hw htarget h]
  have hworkers : (abs s).workers.modify i (Worker.goto status.abs) = (abs s).workers := by
    apply List.ext_getElem?
    intro j
    rw [List.getElem?_modify]
    by_cases hij : i = j
    · subst hij
      simp [abs_workers_getElem? hw, Worker.goto, Thread.abs, habs]
    · simp [hij]
  rw [hworkers]

end Frames

section Operations

variable {s : State} {x : Target} {next : MainPc}

lemma newEvent_next (hs : s.pc.stage = none) (hnext : next.stage = some (x, .armed)) :
    Next (abs s) (abs { s.newEvent x with pc := next }) := by
  have h := Next.newEvent (abs s) x hs
  convert h using 1
  cases x <;> simp only [abs, State.newEvent, hnext] <;> congr 1 <;> funext y <;> cases y <;> rfl

lemma newThread_next (hs : s.pc.stage = some (x, .armed)) (hnext : next.stage = some (x, .made)) :
    Next (abs s) (abs { s.newThread x with pc := next }) := by
  have h := Next.newThread (abs s) x hs
  convert h using 1
  cases x <;> simp only [abs, State.newThread, hnext, List.map_append, List.length_map] <;> congr 1 <;>
    funext y <;> cases y <;> rfl

lemma start_next {i : ℕ} {w : Thread} (hs : s.pc.stage = some (x, .made))
    (hnext : next.stage = some (x, .started)) (hi : s.handle x = some i)
    (hw : s.threads[i]? = some w) (hinitial : w.status = .initial w.status.target) :
    Next (abs s) (abs { s.setStatus i w.status.target.entry with pc := next }) := by
  have hstatus : w.abs.status = .initial := by
    simp only [Thread.abs]
    rw [hinitial]
    rfl
  have h := Next.start (abs s) x i _ hs hi (abs_workers_getElem? hw) hstatus
  have habs : abs (s.setStatus i w.status.target.entry) = _ :=
    abs_setStatus hw (Target.target_entry _) rfl
  rw [Target.abs_entry] at habs
  rw [abs_goto (s.setStatus i w.status.target.entry) next, habs, hnext]
  exact h

end Operations

/-- A step of the main thread is a step of the supervisor or leaves no trace. -/
lemma mainMove_reflGen {s t : State} (h : MainMove s t) : ReflGen Next (abs s) (abs t) := by
  cases h with
  | quiet _ hstage _ _ _ hframe =>
    have habs : abs t = abs s := abs_frame hstage (by rw [hframe])
    exact habs ▸ .refl
  | press hs =>
    have hstage : (abs s).stage = MainPc.stage .newStopRecording := by simp only [abs, hs]; rfl
    have htick := Next.tick (abs s) hstage
    rw [hstage] at htick
    exact .single htick
  | newEvent x next hs hnext => exact .single (newEvent_next hs hnext)
  | newThread x next hs hnext => exact .single (newThread_next hs hnext)
  | start x next i w hs hnext _ _ hi hw hinitial => exact .single (start_next hs hnext hi hw hinitial)
  | set x next e hs hnext _ he =>
    have hset := Next.set (abs s) x e hs he
    rw [← hnext] at hset
    exact .single hset
  | join x next i w hs hnext _ hi hw hended =>
    have hjoin := Next.join (abs s) x i w.abs hs hi (abs_workers_getElem? hw) hended
    rw [← hnext] at hjoin
    exact .single hjoin
  | read hs =>
    have habs : abs { s with pc := .speechToText (.recognize s.audio) } = abs s :=
      abs_frame (by rw [hs]; rfl) rfl
    exact habs ▸ .refl
  | send content hs =>
    have habs : abs { s.log s.cycle (.recognize speechConfig content) with
        pc := .speechToText .awaitResponse } = abs s := abs_frame (by rw [hs]; rfl) rfl
    exact habs ▸ .refl
  | led next hs hnext =>
    have habs : abs { s with led := next.light, pc := next } = abs s :=
      abs_frame (hnext.trans hs.symm) rfl
    exact habs ▸ .refl

/-- A step of a worker is a step of that worker in the hand-shake or leaves no trace. -/
lemma workerMove_reflGen {s t : State} {i : ℕ} {w : Thread} {reply : WorkerReply} {status : Status}
    (hw : s.threads[i]? = some w) (h : WorkerMove s i w reply status t) :
    ReflGen Next (abs s) (abs t) := by
  have habs := abs_setStatus hw h.target h.frame
  have hw' := abs_workers_getElem? hw
  cases h.moves with
  | stay hsame =>
    have hsame : abs t = abs s := abs_setStatus_of_abs_eq hw h.target hsame h.frame
    exact hsame ▸ .refl
  | leave hold hnew hset =>
    rw [habs, hnew]
    exact .single (Next.leave (abs s) i w.abs hw' hold hset)
  | finish hold hnew =>
    rw [habs, hnew]
    exact .single (Next.finish (abs s) i w.abs hw' hold)
  | popenFails hold hnew =>
    have hlooping : w.status.abs = .looping := by rw [hold]; rfl
    rw [habs, hnew]
    exact .single (Next.crash (abs s) i w.abs hw' hlooping)
  | unbound hold hnew =>
    rw [habs, hnew]
    exact .single (Next.crash (abs s) i w.abs hw' hold)

/-- The program refines the hand-shake. -/
theorem step_reflGen {s t : State} {a : Action} (h : step s a = some t) :
    ReflGen Next (abs s) (abs t) := by
  cases step_move h with
  | main _ _ _ _ hmove => exact mainMove_reflGen hmove
  | worker i w reply status _ hw _ hmove => exact workerMove_reflGen hw hmove
  | recorder p act disk =>
    have habs : abs { s with disk := disk } = abs s := abs_frame rfl rfl
    exact habs ▸ .refl

theorem run_refines {file : Option Audio} {as : List Action} {t : State} (h : run file as = some t) :
    Relation.ReflTransGen Next (abs (init file)) (abs t) :=
  Transition.refines_of_step (fun _ _ _ => step_reflGen) h

lemma init_inv (file : Option Audio) : Inv (abs (init file)) := Inv.of_no_worker rfl rfl

theorem run_inv {file : Option Audio} {as : List Action} {t : State} (h : run file as = some t) :
    Inv (abs t) :=
  Supervision.inv_of_reflTransGen (init_inv file) (run_refines h)

section Consequences

variable {s : State} (hinv : Inv (abs s)) {i j : ℕ} {v w : Thread}

include hinv

lemma alive_unique (hv : s.threads[i]? = some v) (hw : s.threads[j]? = some w)
    (hv' : v.status.alive) (hw' : w.status.alive) : i = j :=
  hinv.alive_unique (abs_workers_getElem? hv) (abs_workers_getElem? hw)
    ((Status.alive_abs _).trans hv') ((Status.alive_abs _).trans hw')

/-- The event that a live worker reads was made in its own pass of the main loop, and it is
set exactly when the main thread has reached the join. -/
lemma alive_event (hw : s.threads[i]? = some w) (hw' : w.status.alive) :
    ∃ e event, w.stop = some e ∧ s.stop w.status.target = some e ∧ s.events[e]? = some event ∧
      event.cycle = w.cycle ∧ (event.flag = true ↔ s.pc.stage = some (w.status.target, .told)) :=
  hinv.alive_event (abs_workers_getElem? hw) ((Status.alive_abs _).trans hw')

/-- A live worker reads the event that was bound when its thread was made. -/
lemma alive_stop (hw : s.threads[i]? = some w) (hw' : w.status.alive) :
    w.stop = s.stop w.status.target :=
  (hinv.own_stop (abs_workers_getElem? hw) ((Status.alive_abs _).trans hw')).1

lemma alive_cycle (hw : s.threads[i]? = some w) (hw' : w.status.alive) : w.cycle = s.cycle :=
  (hinv.own_stop (abs_workers_getElem? hw) ((Status.alive_abs _).trans hw')).2

/-- A live worker is the one that the main thread last made for its target. -/
lemma alive_handle (hw : s.threads[i]? = some w) (hw' : w.status.alive) :
    s.handle w.status.target = some i := by
  obtain ⟨-, -, -, hi⟩ := hinv.live i w.abs (abs_workers_getElem? hw) ((Status.alive_abs _).trans hw')
  exact hi

/-- A worker is alive only between its start and the join. -/
lemma alive_stage (hw : s.threads[i]? = some w) (hw' : w.status.alive) :
    s.pc.stage = some (w.status.target, .started) ∨ s.pc.stage = some (w.status.target, .told) := by
  obtain ⟨g, hg, rfl | rfl, -⟩ :=
    hinv.live i w.abs (abs_workers_getElem? hw) ((Status.alive_abs _).trans hw')
  · exact Or.inl hg
  · exact Or.inr hg

lemma not_alive_of_stage
    (hs : ∀ x, s.pc.stage ≠ some (x, .started) ∧ s.pc.stage ≠ some (x, .told))
    (hw : s.threads[i]? = some w) : w.status.alive = false :=
  (Status.alive_abs _).symm.trans (hinv.not_alive_of_stage hs (abs_workers_getElem? hw))

lemma isSet_stop_ne_none (hw : s.threads[i]? = some w) (hw' : w.status.alive) :
    isSet s.events (s.stop w.status.target) ≠ none := by
  obtain ⟨e, event, -, hstop, hevent, -⟩ := alive_event hinv hw hw'
  simp [isSet, hstop, hevent]

end Consequences

end VoiceButton
