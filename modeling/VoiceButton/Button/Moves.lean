import VoiceButton.Button.Step

/-!
# What a step of `button.py` can do

The main thread and the workers have many program points but few kinds of steps. `MainMove`
and `WorkerMove` say once what a step changes and under which condition it is taken; the
invariants of the later files are proved from them and not from the program text.
-/

namespace VoiceButton

open Supervision (Event isSet)

/-- The value that the LED has at a program point of the main thread, unless a worker that
is alive changed it. -/
def MainPc.light : MainPc → Color
  | .ledColor _ => .on
  | .spdSay _ | .poll | .sleep | .ledOff => .speaking
  | _ => .off

/-- Where a program point of the main thread lies in its pass: before the record worker is
started, before the audio file is read, before its content is sent, or after that. -/
def MainPc.phase : MainPc → ℕ
  | .newStopRecording | .newThread | .startThread => 0
  | .waitForRelease | .setStopRecording | .joinThread | .newStopBlinking | .newThread2
  | .startThread2 | .speechToText .speechClient | .speechToText .openAudioFile
  | .speechToText .readAudioFile => 1
  | .speechToText (.recognize _) => 2
  | _ => 3

/-- The main thread goes from `p` to `q` without writing the LED or changing its phase. -/
structure MainPc.Follows (p q : MainPc) : Prop where
  light : q.light = p.light
  phase : q.phase = p.phase

def Call.isRequest : Call → Bool
  | .recognize _ _ => true
  | _ => false

/-- A value that the LED can have while its thread is at a program point. -/
def Status.Lights : Status → Color → Prop
  | .initial _, led | .finished _, led => led = .off
  | .record .ledOn, led | .thinkyBlinky .ledOn, led => led = .off
  | .record .ledColor, led => led = .on
  | .record _, led => led = .recording
  | .thinkyBlinky _, led => led ∈ colors
  | .crashed _, _ => True

def Status.abs : Status → Supervision.Status
  | .initial _ => .initial
  | .record (.terminate _) | .record .ledOff | .thinkyBlinky .ledOff => .leaving
  | .record _ | .thinkyBlinky _ => .looping
  | .finished _ => .finished
  | .crashed _ => .crashed

/-- The thread runs `record` and has not started a `rec` process. -/
def Status.beforePopen : Status → Bool
  | .record .ledOn | .record .ledColor | .record .popen => true
  | _ => false

/-- The `rec` process that the thread has started and not yet terminated. -/
def Status.process : Status → Option ℕ
  | .record (.isSet process) | .record (.sleep process) | .record (.terminate process) => some process
  | _ => none

/-- How many steps the thread takes until it ends, once it has been told to stop. -/
def Status.remaining : Status → ℕ
  | .record .ledOn => 6
  | .record .ledColor => 5
  | .record .popen | .record (.sleep _) | .thinkyBlinky .ledColor => 4
  | .record (.isSet _) | .thinkyBlinky .ledOn | .thinkyBlinky .sleep => 3
  | .record (.terminate _) | .thinkyBlinky .isSet => 2
  | .record .ledOff | .thinkyBlinky .ledOff => 1
  | .initial _ | .finished _ | .crashed _ => 0

/-- The kinds of steps of the main thread, from `s`. -/
inductive MainMove (s : State) : State → Prop
  | quiet (t : State) (hstage : t.pc.stage = s.pc.stage) (hfollows : s.pc.Follows t.pc)
      (hread : ∀ content, t.pc = .speechToText (.recognize content) → s.pc = t.pc)
      (hcalls : t.calls = s.calls ∨
        ∃ call, t.calls = s.calls ++ [(s.cycle, call)] ∧ call.isRequest = false)
      (hframe : t = { s with pc := t.pc, raised := t.raised, calls := t.calls }) : MainMove s t
  | press (hs : s.pc = .waitForPress) :
      MainMove s { s with pc := .newStopRecording, cycle := s.cycle + 1 }
  | newEvent (x : Target) (next : MainPc) (hs : s.pc.stage = none)
      (hnext : next.stage = some (x, .armed)) (hfollows : s.pc.Follows next) :
      MainMove s { s.newEvent x with pc := next }
  | newThread (x : Target) (next : MainPc) (hs : s.pc.stage = some (x, .armed))
      (hnext : next.stage = some (x, .made)) (hfollows : s.pc.Follows next) :
      MainMove s { s.newThread x with pc := next }
  | start (x : Target) (next : MainPc) (i : ℕ) (w : Thread) (hs : s.pc.stage = some (x, .made))
      (hnext : next.stage = some (x, .started)) (hlight : next.light = s.pc.light)
      (hphase : next.phase = 1) (hi : s.handle x = some i) (hw : s.threads[i]? = some w)
      (hinitial : w.status = .initial w.status.target) :
      MainMove s { s.setStatus i w.status.target.entry with pc := next }
  | set (x : Target) (next : MainPc) (e : ℕ) (hs : s.pc.stage = some (x, .started))
      (hnext : next.stage = some (x, .told)) (hfollows : s.pc.Follows next)
      (he : s.stop x = some e) :
      MainMove s { s with events := s.events.modify e Event.set, pc := next }
  | join (x : Target) (next : MainPc) (i : ℕ) (w : Thread) (hs : s.pc.stage = some (x, .told))
      (hnext : next.stage = none) (hfollows : s.pc.Follows next)
      (hi : s.handle x = some i) (hw : s.threads[i]? = some w) (hended : w.status.abs.ended) :
      MainMove s { s with pc := next }
  | read (hs : s.pc = .speechToText .readAudioFile) :
      MainMove s { s with pc := .speechToText (.recognize s.audio) }
  | send (content : Audio) (hs : s.pc = .speechToText (.recognize content)) :
      MainMove s { s.log s.cycle (.recognize speechConfig content) with
        pc := .speechToText .awaitResponse }
  | led (next : MainPc) (hs : s.pc.stage = none) (hnext : next.stage = none)
      (hphase : next.phase = s.pc.phase) : MainMove s { s with led := next.light, pc := next }

/-- A thread after a step of the main thread is as it was before, not started, or at the entry
of its target function. -/
lemma MainMove.thread {s t : State} (h : MainMove s t) {i : ℕ} {w : Thread}
    (hw : t.threads[i]? = some w) :
    s.threads[i]? = some w ∨ (∃ x, w.status = .initial x) ∨
      ∃ x v, s.pc.stage = some (x, .made) ∧ s.handle x = some i ∧ s.threads[i]? = some v ∧
        w.status = v.status.target.entry := by
  cases h with
  | quiet _ _ _ _ _ hframe =>
    rw [hframe] at hw
    exact Or.inl hw
  | newEvent x => cases x <;> exact Or.inl hw
  | newThread x =>
    have hthreads : (s.newThread x).threads = s.threads ++ [⟨s.stop x, s.cycle, .initial x⟩] := by
      cases x <;> rfl
    rw [show _ = s.threads ++ _ from hthreads] at hw
    rcases Table.getElem?_concat_eq_some.mp hw with hold | ⟨-, rfl⟩
    · exact Or.inl hold
    · exact Or.inr (Or.inl ⟨x, rfl⟩)
  | start x next j v hs _ _ _ hj hv =>
    obtain ⟨u, hu, rfl⟩ := Table.getElem?_modify_eq_some.mp hw
    split
    · rename_i hji
      exact Or.inr (Or.inr ⟨x, v, hs, hji ▸ hj, hji ▸ hv, rfl⟩)
    · exact Or.inl hu
  | _ => exact Or.inl hw

/-- A step of the main thread keeps the threads that it does not start. -/
lemma MainMove.thread_of_started {s t : State} (h : MainMove s t) {i : ℕ} {w : Thread}
    (hw : s.threads[i]? = some w) (hstarted : ∀ x, w.status ≠ .initial x) :
    t.threads[i]? = some w := by
  cases h with
  | quiet _ _ _ _ _ hframe =>
    rw [hframe]
    exact hw
  | newEvent x => cases x <;> exact hw
  | newThread x => cases x <;> exact Table.getElem?_concat_of_eq_some hw
  | start x next j v _ _ _ _ _ hv hinitial =>
    refine Table.getElem?_modify_eq_some.mpr ⟨w, hw, ?_⟩
    split
    · rename_i hji
      subst hji
      have hvw : v = w := Option.mem_unique hv hw
      exact absurd hinitial (hvw ▸ hstarted _)
    · rfl
  | _ => exact hw

lemma MainMove.disk {s t : State} (h : MainMove s t) : t.disk = s.disk := by
  cases h with
  | quiet _ _ _ _ _ hframe => rw [hframe]
  | newEvent x | newThread x => cases x <;> rfl
  | _ => rfl

lemma stage_ne_of_recognize {pc : MainPc} {content : Audio} {p : Option (Target × Supervision.Stage)}
    (hp : p ≠ some (.thinkyBlinky, .started)) (h : pc.stage = p) :
    pc ≠ .speechToText (.recognize content) := by
  rintro rfl
  exact hp h.symm

/-- What a step of the main thread does within its pass. -/
inductive PassMove (s t : State) : Prop
  | press (hcycle : t.cycle = s.cycle + 1) (hs : s.pc = .waitForPress) (hphase : t.pc.phase = 0)
  | start (hcycle : t.cycle = s.cycle) (hphase : t.pc.phase = 1)
  | read (hcycle : t.cycle = s.cycle) (hs : s.pc = .speechToText .readAudioFile)
      (ht : t.pc = .speechToText (.recognize s.audio))
  | send (content : Audio) (hcycle : t.cycle = s.cycle)
      (hs : s.pc = .speechToText (.recognize content)) (hphase : t.pc.phase = 3)
      (hcalls : t.calls = s.calls ++ [(s.cycle, .recognize speechConfig content)])
  | stay (hcycle : t.cycle = s.cycle) (hphase : t.pc.phase = s.pc.phase)
      (hread : ∀ content, t.pc = .speechToText (.recognize content) → s.pc = t.pc)

/-- The main thread goes through the phases of each pass in order. -/
lemma MainMove.pass {s t : State} (h : MainMove s t) : PassMove s t := by
  cases h with
  | quiet _ _ hfollows hread _ hframe => exact .stay (by rw [hframe]) hfollows.phase hread
  | press hs => exact .press rfl hs rfl
  | newEvent x next _ hnext hfollows =>
    refine .stay (by cases x <;> rfl) hfollows.phase ?_
    exact fun _ hpc => absurd hpc (stage_ne_of_recognize (by simp) hnext)
  | newThread x next _ hnext hfollows =>
    refine .stay (by cases x <;> rfl) hfollows.phase ?_
    exact fun _ hpc => absurd hpc (stage_ne_of_recognize (by simp) hnext)
  | start x next _ _ _ _ _ hphase => exact .start rfl hphase
  | set x next _ _ hnext hfollows =>
    exact .stay rfl hfollows.phase (fun _ hpc => absurd hpc (stage_ne_of_recognize (by simp) hnext))
  | join x next _ _ _ hnext hfollows =>
    exact .stay rfl hfollows.phase (fun _ hpc => absurd hpc (stage_ne_of_recognize (by simp) hnext))
  | read hs => exact .read rfl hs rfl
  | send content hs => exact .send content rfl hs rfl rfl
  | led next _ hnext hphase =>
    exact .stay rfl hphase (fun _ hpc => absurd hpc (stage_ne_of_recognize (by simp) hnext))

lemma MainMove.cycle {s t : State} (h : MainMove s t) :
    t.cycle = s.cycle ∨ t.cycle = s.cycle + 1 ∧ s.pc = .waitForPress := by
  cases h.pass with
  | press hcycle hs => exact Or.inr ⟨hcycle, hs⟩
  | start hcycle | read hcycle | send _ hcycle | stay hcycle => exact Or.inl hcycle

/-- A step of the main thread makes at most one call, and a request to the speech service
only with the content that it has read. -/
lemma MainMove.calls {s t : State} (h : MainMove s t) :
    t.calls = s.calls ∨ ∃ call, t.calls = s.calls ++ [(s.cycle, call)] ∧
      (call.isRequest → ∃ content, s.pc = .speechToText (.recognize content) ∧
        call = .recognize speechConfig content) := by
  cases h with
  | quiet _ _ _ _ hcalls =>
    rcases hcalls with hsame | ⟨call, hnew, hcall⟩
    · exact Or.inl hsame
    · exact Or.inr ⟨call, hnew, by simp [hcall]⟩
  | newEvent x | newThread x => cases x <;> exact Or.inl rfl
  | send content hs => exact Or.inr ⟨_, rfl, fun _ => ⟨content, hs, rfl⟩⟩
  | _ => exact Or.inl rfl

lemma raise_move (s : State) (exc : Exc) : MainMove s (s.raise exc) :=
  .quiet _ rfl ⟨rfl, rfl⟩ (fun _ _ => rfl) (Or.inl rfl) rfl

section Statements

variable {s t : State} {pc : MainPc} {x : Target} {next : MainPc} (hpc : s.pc = pc)

include hpc

lemma start_move (hs : pc.stage = some (x, .made)) (hnext : next.stage = some (x, .started))
    (hlight : next.light = pc.light) (hphase : next.phase = 1) : MainMove s (s.start x next) := by
  subst hpc
  unfold State.start
  split
  · exact raise_move s _
  · rename_i i hi
    split
    · rename_i hw
      exact .start x next i _ hs hnext hlight hphase hi hw rfl
    · exact raise_move s _

lemma set_move (hs : pc.stage = some (x, .started)) (hnext : next.stage = some (x, .told))
    (hfollows : pc.Follows next) : MainMove s (s.set x next) := by
  subst hpc
  unfold State.set
  split
  · exact raise_move s _
  · rename_i e he
    exact .set x next e hs hnext hfollows he

lemma join_move (h : s.join x next = some t) (hs : pc.stage = some (x, .told))
    (hnext : next.stage = none) (hfollows : pc.Follows next) : MainMove s t := by
  subst hpc
  unfold State.join at h
  split at h
  · cases h
    exact raise_move s _
  · rename_i i hi
    split at h
    · cases h
      exact raise_move s _
    · rename_i w hw
      split at h <;> cases h
      · exact raise_move s _
      · rename_i hstatus
        exact .join x next i w hs hnext hfollows hi hw (by rw [hstatus]; rfl)
      · rename_i hstatus
        exact .join x next i w hs hnext hfollows hi hw (by rw [hstatus]; rfl)

/-- A statement that only goes on to `next`. -/
lemma goto_move (next : MainPc) (hstage : next.stage = pc.stage) (hfollows : pc.Follows next)
    (hread : ∀ content, next ≠ .speechToText (.recognize content)) :
    MainMove s { s with pc := next } := by
  subst hpc
  exact .quiet _ hstage hfollows (fun content h => absurd h (hread content)) (Or.inl rfl) rfl

/-- A statement that goes on to `next` after a call other than the request. -/
lemma call_move (next : MainPc) {call : Call} (hcall : call.isRequest = false)
    (hstage : next.stage = pc.stage) (hfollows : pc.Follows next)
    (hread : ∀ content, next ≠ .speechToText (.recognize content)) :
    MainMove s { s.log s.cycle call with pc := next } := by
  subst hpc
  exact .quiet _ hstage hfollows (fun content h => absurd h (hread content))
    (Or.inr ⟨call, rfl, hcall⟩) rfl

end Statements

lemma speechStep_move {s t : State} {pc : SpeechPc} {reply : Reply} (hpc : s.pc = .speechToText pc)
    (h : speechStep s pc reply = some t) : MainMove s t := by
  unfold speechStep at h
  split at h
  · cases h
    exact goto_move hpc _ rfl ⟨rfl, rfl⟩ nofun
  · split at h <;> cases h
    · exact raise_move s _
    · exact goto_move hpc _ rfl ⟨rfl, rfl⟩ nofun
  · cases h
    exact .read hpc
  · cases h
    exact .send _ hpc
  · cases h
    exact goto_move hpc _ rfl ⟨rfl, rfl⟩ nofun
  · split at h <;> cases h
    · exact raise_move s _
    · exact goto_move hpc _ rfl ⟨rfl, rfl⟩ nofun
  · cases h
    exact goto_move hpc _ rfl ⟨rfl, rfl⟩ nofun
  · cases h

/-- Every step of the main thread is of one of the kinds of `MainMove`. -/
theorem mainStep_move {s t : State} {reply : Reply} (h : mainStep s reply = some t) :
    MainMove s t := by
  unfold mainStep at h
  cases hpc : s.pc with
  | waitForPress =>
    cases reply <;> simp only [hpc, reduceCtorEq] at h
    cases h
    exact .press hpc
  | newStopRecording =>
    cases reply <;> simp only [hpc, reduceCtorEq] at h
    cases h
    exact .newEvent .record .newThread (by rw [hpc]; rfl) rfl (by rw [hpc]; exact ⟨rfl, rfl⟩)
  | newThread =>
    cases reply <;> simp only [hpc, reduceCtorEq] at h
    cases h
    exact .newThread .record .startThread (by rw [hpc]; rfl) rfl (by rw [hpc]; exact ⟨rfl, rfl⟩)
  | startThread =>
    cases reply <;> simp only [hpc, reduceCtorEq] at h
    cases h
    exact start_move hpc rfl rfl rfl rfl
  | waitForRelease =>
    cases reply <;> simp only [hpc, reduceCtorEq] at h
    cases h
    exact goto_move hpc _ rfl ⟨rfl, rfl⟩ nofun
  | setStopRecording =>
    cases reply <;> simp only [hpc, reduceCtorEq] at h
    cases h
    exact set_move hpc rfl rfl ⟨rfl, rfl⟩
  | joinThread =>
    cases reply <;> simp only [hpc, reduceCtorEq] at h
    exact join_move hpc h rfl rfl ⟨rfl, rfl⟩
  | newStopBlinking =>
    cases reply <;> simp only [hpc, reduceCtorEq] at h
    cases h
    exact .newEvent .thinkyBlinky .newThread2 (by rw [hpc]; rfl) rfl (by rw [hpc]; exact ⟨rfl, rfl⟩)
  | newThread2 =>
    cases reply <;> simp only [hpc, reduceCtorEq] at h
    cases h
    exact .newThread .thinkyBlinky .startThread2 (by rw [hpc]; rfl) rfl (by rw [hpc]; exact ⟨rfl, rfl⟩)
  | startThread2 =>
    cases reply <;> simp only [hpc, reduceCtorEq] at h
    cases h
    exact start_move hpc rfl rfl rfl rfl
  | speechToText pc =>
    simp only [hpc] at h
    exact speechStep_move hpc h
  | printText text =>
    cases reply <;> simp only [hpc, reduceCtorEq] at h
    cases h
    exact call_move hpc _ rfl rfl ⟨rfl, rfl⟩ nofun
  | generateContent text =>
    cases reply <;> simp only [hpc, reduceCtorEq] at h
    cases h
    exact call_move hpc _ rfl rfl ⟨rfl, rfl⟩ nofun
  | printResponse response =>
    cases reply <;> simp only [hpc, reduceCtorEq] at h
    split at h <;> cases h
    · exact raise_move s _
    · exact call_move hpc _ rfl rfl ⟨rfl, rfl⟩ nofun
  | setStopBlinking response =>
    cases reply <;> simp only [hpc, reduceCtorEq] at h
    cases h
    exact set_move hpc rfl rfl ⟨rfl, rfl⟩
  | joinThread2 response =>
    cases reply <;> simp only [hpc, reduceCtorEq] at h
    exact join_move hpc h rfl rfl ⟨rfl, rfl⟩
  | ledOn response =>
    cases reply <;> simp only [hpc, reduceCtorEq] at h
    cases h
    exact .led (.ledColor response) (by rw [hpc]; rfl) rfl (by rw [hpc]; rfl)
  | ledColor response =>
    cases reply <;> simp only [hpc, reduceCtorEq] at h
    cases h
    exact .led (.spdSay response) (by rw [hpc]; rfl) rfl (by rw [hpc]; rfl)
  | spdSay response =>
    cases reply <;> simp only [hpc, reduceCtorEq] at h
    split at h <;> cases h
    · exact raise_move s _
    · exact call_move hpc _ rfl rfl ⟨rfl, rfl⟩ nofun
  | poll =>
    cases reply with
    | returncode code =>
      cases code <;> simp only [hpc] at h <;> cases h
      · exact goto_move hpc _ rfl ⟨rfl, rfl⟩ nofun
      · exact goto_move hpc _ rfl ⟨rfl, rfl⟩ nofun
    | _ => simp only [hpc, reduceCtorEq] at h
  | sleep =>
    cases reply <;> simp only [hpc, reduceCtorEq] at h
    cases h
    exact goto_move hpc _ rfl ⟨rfl, rfl⟩ nofun
  | ledOff =>
    cases reply <;> simp only [hpc, reduceCtorEq] at h
    cases h
    exact .led .waitForPress (by rw [hpc]; rfl) rfl (by rw [hpc]; rfl)

/-- How far a step takes a thread, the object `w`, in the hand-shake. -/
inductive StatusMove (s : State) (w : Thread) (reply : WorkerReply) (status : Status) : Prop
  | stay (hsame : status.abs = w.status.abs)
  | leave (hold : w.status.abs = .looping) (hnew : status.abs = .leaving)
      (hset : isSet s.events (s.stop w.status.target) = some true)
  | finish (hold : w.status.abs = .leaving) (hnew : status.abs = .finished)
  | popenFails (hold : w.status = .record .popen) (hnew : status.abs = .crashed)
      (hreply : reply = .popenFails)
  | unbound (hold : w.status.abs = .looping) (hnew : status.abs = .crashed)
      (hunbound : isSet s.events (s.stop w.status.target) = none)

/-- What a step of a thread, the object `w`, does to the audio file and its `rec` processes. -/
inductive DiskMove (s : State) (w : Thread) (status : Status) (t : State) : Prop
  | same (hdisk : t.disk = s.disk) (hcalls : t.calls = s.calls)
      (hbefore : status.beforePopen → w.status.beforePopen)
      (hprocess : status.process = w.status.process ∨
        isSet s.events (s.stop w.status.target) = none)
  | spawn (hdisk : t.disk = s.disk.spawn w.cycle)
      (hcalls : t.calls = s.calls ++ [(w.cycle, .popen recArgs)])
      (hbefore : w.status.beforePopen) (hafter : status.beforePopen = false)
      (hprocess : status.process = some s.disk.writers.length)
  | signal (p : ℕ) (hdisk : t.disk = s.disk.signal p) (hcalls : t.calls = s.calls)
      (hafter : status.beforePopen = false) (hprocess : w.status.process = some p)

/-- What a step that takes thread `i`, the object `w`, to a new status may do. -/
structure WorkerMove (s : State) (i : ℕ) (w : Thread) (reply : WorkerReply) (status : Status)
    (t : State) : Prop where
  frame : t = { s.setStatus i status with led := t.led, disk := t.disk, calls := t.calls }
  target : status.target = w.status.target
  moves : StatusMove s w reply status
  lights : w.status.Lights s.led → status.Lights t.led
  disk : DiskMove s w status t
  remaining : isSet s.events (s.stop w.status.target) = some true →
    status.remaining < w.status.remaining

section Frame

variable {s t : State} {i : ℕ} {w : Thread} {reply : WorkerReply} {status : Status}
  (h : WorkerMove s i w reply status t)

include h

lemma WorkerMove.pc : t.pc = s.pc := by rw [h.frame]; rfl

lemma WorkerMove.raised : t.raised = s.raised := by rw [h.frame]; rfl

lemma WorkerMove.cycle : t.cycle = s.cycle := by rw [h.frame]; rfl

lemma WorkerMove.events : t.events = s.events := by rw [h.frame]; rfl

lemma WorkerMove.thread_self (hw : s.threads[i]? = some w) :
    t.threads[i]? = some { w with status := status } := by
  rw [h.frame]
  exact Table.getElem?_modify_self hw

/-- A step of one worker leaves the other threads as they were. -/
lemma WorkerMove.thread_of_ne {j : ℕ} {v : Thread} (hij : i ≠ j) (hv : s.threads[j]? = some v) :
    t.threads[j]? = some v := by
  rw [h.frame]
  exact Table.getElem?_modify_eq_some.mpr ⟨v, hv, by simp [hij]⟩

lemma WorkerMove.thread {j : ℕ} {v : Thread} (hw : s.threads[i]? = some w)
    (hv : t.threads[j]? = some v) :
    (i = j ∧ v = { w with status := status }) ∨ (i ≠ j ∧ s.threads[j]? = some v) := by
  rw [h.frame] at hv
  obtain ⟨u, hu, rfl⟩ := Table.getElem?_modify_eq_some.mp hv
  by_cases hij : i = j
  · subst hij
    have hwu : w = u := Option.mem_unique hw hu
    exact Or.inl ⟨rfl, by simp [hwu]⟩
  · exact Or.inr ⟨hij, by simpa [hij] using hu⟩

end Frame

lemma recordStep_move {s t : State} {i cycle : ℕ} {stop : Option ℕ} {pc : RecordPc}
    {reply : WorkerReply} (h : recordStep s i cycle pc reply = some t) :
    ∃ status, WorkerMove s i ⟨stop, cycle, .record pc⟩ reply status t := by
  have hlt {m n : ℕ} (hble : Nat.ble (m + 1) n = true)
      (_ : isSet s.events s.stopRecording = some true) : m < n := Nat.le_of_ble_eq_true hble
  cases pc with
  | ledOn =>
    cases reply <;> simp only [recordStep, reduceCtorEq] at h
    cases h
    exact ⟨.record .ledColor, rfl, rfl, .stay rfl, fun _ => rfl,
      .same rfl rfl (fun _ => rfl) (Or.inl rfl), hlt rfl⟩
  | ledColor =>
    cases reply <;> simp only [recordStep, reduceCtorEq] at h
    cases h
    exact ⟨.record .popen, rfl, rfl, .stay rfl, fun _ => rfl,
      .same rfl rfl (fun _ => rfl) (Or.inl rfl), hlt rfl⟩
  | popen =>
    cases reply <;> simp only [recordStep, reduceCtorEq] at h
    · cases h
      exact ⟨.record (.isSet s.disk.writers.length), rfl, rfl, .stay rfl, id,
        .spawn rfl rfl rfl rfl rfl, hlt rfl⟩
    · cases h
      exact ⟨.crashed .record, rfl, rfl, .popenFails rfl rfl rfl, fun _ => trivial,
        .same rfl rfl (fun _ => rfl) (Or.inl rfl), hlt rfl⟩
  | isSet process =>
    cases reply <;> simp only [recordStep, reduceCtorEq] at h
    split at h <;> cases h
    · rename_i hset
      exact ⟨.crashed .record, rfl, rfl, .unbound rfl rfl hset, fun _ => trivial,
        .same rfl rfl nofun (Or.inr hset), hlt rfl⟩
    · rename_i hset
      exact ⟨.record (.terminate process), rfl, rfl, .leave rfl rfl hset, id,
        .same rfl rfl nofun (Or.inl rfl), hlt rfl⟩
    · rename_i hset
      exact ⟨.record (.sleep process), rfl, rfl, .stay rfl, id,
        .same rfl rfl nofun (Or.inl rfl), fun htrue => absurd (hset.symm.trans htrue) (by decide)⟩
  | sleep process =>
    cases reply <;> simp only [recordStep, reduceCtorEq] at h
    cases h
    exact ⟨.record (.isSet process), rfl, rfl, .stay rfl, id,
      .same rfl rfl nofun (Or.inl rfl), hlt rfl⟩
  | terminate process =>
    cases reply <;> simp only [recordStep, reduceCtorEq] at h
    cases h
    exact ⟨.record .ledOff, rfl, rfl, .stay rfl, id, .signal process rfl rfl rfl rfl, hlt rfl⟩
  | ledOff =>
    cases reply <;> simp only [recordStep, reduceCtorEq] at h
    cases h
    exact ⟨.finished .record, rfl, rfl, .finish rfl rfl, fun _ => rfl,
      .same rfl rfl nofun (Or.inl rfl), hlt rfl⟩

lemma thinkyBlinkyStep_move {s t : State} {i cycle : ℕ} {stop : Option ℕ} {pc : ThinkyBlinkyPc}
    {reply : WorkerReply} (h : thinkyBlinkyStep s i pc reply = some t) :
    ∃ status, WorkerMove s i ⟨stop, cycle, .thinkyBlinky pc⟩ reply status t := by
  have hlt {m n : ℕ} (hble : Nat.ble (m + 1) n = true)
      (_ : isSet s.events s.stopBlinking = some true) : m < n := Nat.le_of_ble_eq_true hble
  cases pc with
  | ledOn =>
    cases reply <;> simp only [thinkyBlinkyStep, reduceCtorEq] at h
    cases h
    have hon : Color.on ∈ colors := by decide
    exact ⟨.thinkyBlinky .isSet, rfl, rfl, .stay rfl, fun _ => hon,
      .same rfl rfl nofun (Or.inl rfl), hlt rfl⟩
  | isSet =>
    cases reply <;> simp only [thinkyBlinkyStep, reduceCtorEq] at h
    split at h <;> cases h
    · rename_i hset
      exact ⟨.crashed .thinkyBlinky, rfl, rfl, .unbound rfl rfl hset, fun _ => trivial,
        .same rfl rfl nofun (Or.inl rfl), hlt rfl⟩
    · rename_i hset
      exact ⟨.thinkyBlinky .ledOff, rfl, rfl, .leave rfl rfl hset, id,
        .same rfl rfl nofun (Or.inl rfl), hlt rfl⟩
    · rename_i hset
      exact ⟨.thinkyBlinky .ledColor, rfl, rfl, .stay rfl, id,
        .same rfl rfl nofun (Or.inl rfl), fun htrue => absurd (hset.symm.trans htrue) (by decide)⟩
  | ledColor =>
    cases reply with
    | choice color =>
      simp only [thinkyBlinkyStep] at h
      split at h <;> cases h
      rename_i hcolor
      exact ⟨.thinkyBlinky .sleep, rfl, rfl, .stay rfl, fun _ => hcolor,
        .same rfl rfl nofun (Or.inl rfl), hlt rfl⟩
    | _ => simp only [thinkyBlinkyStep, reduceCtorEq] at h
  | sleep =>
    cases reply <;> simp only [thinkyBlinkyStep, reduceCtorEq] at h
    cases h
    exact ⟨.thinkyBlinky .isSet, rfl, rfl, .stay rfl, id,
      .same rfl rfl nofun (Or.inl rfl), hlt rfl⟩
  | ledOff =>
    cases reply <;> simp only [thinkyBlinkyStep, reduceCtorEq] at h
    cases h
    exact ⟨.finished .thinkyBlinky, rfl, rfl, .finish rfl rfl, fun _ => rfl,
      .same rfl rfl nofun (Or.inl rfl), hlt rfl⟩

/-- Every step of a worker is a `WorkerMove` of a thread that is alive. -/
theorem workerStep_move {s t : State} {i : ℕ} {reply : WorkerReply}
    (h : workerStep s i reply = some t) :
    ∃ w status, s.threads[i]? = some w ∧ w.status.alive ∧ WorkerMove s i w reply status t := by
  unfold workerStep at h
  split at h
  · rename_i hw
    obtain ⟨status, hmove⟩ := recordStep_move h
    exact ⟨_, status, hw, rfl, hmove⟩
  · rename_i hw
    obtain ⟨status, hmove⟩ := thinkyBlinkyStep_move h
    exact ⟨_, status, hw, rfl, hmove⟩
  · cases h

def Action.isMain : Action → Bool
  | .main _ | .raise _ => true
  | _ => false

/-- The kinds of steps of the program, from `s`. -/
inductive StepMove (s : State) : Action → State → Prop
  | main (a : Action) (t : State) (hraised : s.raised = none) (ha : a.isMain)
      (hmove : MainMove s t) : StepMove s a t
  | worker (i : ℕ) (w : Thread) (reply : WorkerReply) (status : Status) (t : State)
      (hw : s.threads[i]? = some w) (halive : w.status.alive)
      (hmove : WorkerMove s i w reply status t) : StepMove s (.worker i reply) t
  | recorder (p : ℕ) (act : SharedFile.Act UInt8) (disk : SharedFile.Disk UInt8)
      (hact : s.disk.act p act = some disk) : StepMove s (.recorder p act) { s with disk := disk }

theorem step_move {s t : State} {a : Action} (h : step s a = some t) : StepMove s a t := by
  cases a with
  | main reply =>
    simp only [step] at h
    split at h
    · cases h
    · rename_i hraised
      exact .main _ t (by simpa using hraised) rfl (mainStep_move h)
  | raise exc =>
    simp only [step] at h
    split at h <;> cases h
    rename_i hraised
    exact .main _ _ (by simpa using hraised) rfl (raise_move s exc)
  | worker i reply =>
    obtain ⟨w, status, hw, halive, hmove⟩ := workerStep_move h
    exact .worker i w reply status t hw halive hmove
  | recorder p act =>
    obtain ⟨disk, hdisk, rfl⟩ := Option.map_eq_some_iff.mp h
    exact .recorder p act disk hdisk

end VoiceButton
