import VoiceButton.Lg.ScriptSafety

/-!
# The thread of a script

The thread of a script waits for a signal, runs the script from its start, and waits again. Other
threads ask it to run, stop or end by setting `request` and signalling. What each side does under
`pthMutex`, and each instruction of the script, is one step here. `lgScriptDelete` keeps the handle
of the script until the thread has ended, so that the other calls wait from then on.
-/

namespace Lg

open Transition (exec)

/-- The points of `pthScript`. -/
inductive Point
  | start
  | test
  | lock
  | wait
  | woken
  | inner
  | after
  | purge
  | exited
  deriving DecidableEq

/-- `lgScript_t`, with the point of its thread and whether `lgScriptDelete` has its handle. -/
structure Script where
  request : Request
  machine : Machine
  point : Point
  deleting : Bool

/-- What the thread of the script does, with the result of a command of the library, and what the
other threads call. A thread that waits can also wake without a signal. -/
inductive ScriptAct
  | thread (result : BitVec 32)
  | wake
  | run (scriptParam : List (BitVec 32))
  | update (scriptParam : List (BitVec 32))
  | status
  | stop
  | delete

def ScriptAct.isThread : ScriptAct → Bool
  | .thread _ => true
  | _ => false

def ScriptAct.isRun : ScriptAct → Bool
  | .run _ => true
  | _ => false

/-- The steps of the thread, and the calls that do not signal it. -/
def ScriptAct.isQuiet : ScriptAct → Bool
  | .thread _ | .update _ | .status => true
  | _ => false

namespace Script

/-- What `lgScriptStore` makes. -/
def store : Script where
  request := .halt
  machine := ⟨⟨fun _ => 0, fun _ => 0, .initing, 0, 0, [], []⟩, 0⟩
  point := .start
  deleting := false

abbrev runState (s : Script) : RunState := s.machine.regs.runState

def setRunState (s : Script) (runState : RunState) : Script :=
  { s with machine := { s.machine with regs := { s.machine.regs with runState := runState } } }

def setParams (s : Script) (scriptParam : List (BitVec 32)) : Script :=
  { s with machine := { s.machine with regs := s.machine.regs.setParams scriptParam } }

/-- `run_state = LG_SCRIPT_RUNNING`, and `A`, `F`, `PC` and `SP` are zero. -/
def begin (s : Script) : Script :=
  { s with
    machine := ⟨{ s.machine.regs with runState := .running, A := 0, F := 0, S := [] }, 0⟩
    point := .inner }

/-- `pthread_cond_signal`. -/
def signal (s : Script) : Script := if s.point = .wait then { s with point := .woken } else s

/-- A step of `pthScript`. `none` is the wait for a signal, or the end of the thread, or a fault of
the script. -/
def threadStep (code : List Instr) (s : Script) (result : BitVec 32) : Option Script :=
  match s.point with
  | .start => some { s.setRunState .ready with point := .test }
  | .test => some { s with point := if s.request ≠ .delete then .lock else .purge }
  | .lock => some (if s.request ≠ .delete then { s with point := .wait } else s.begin)
  | .wait => none
  | .woken => some s.begin
  | .inner =>
    if s.request = .run ∧ s.runState = .running then
      (s.machine.step code result).map (fun m => { s with machine := m })
    else some { s with point := .after }
  | .after =>
    let s' := if s.request = .halt ∨ s.request = .delete then s.setRunState .halted else s
    some { s' with point := .test }
  | .purge => some { s.setRunState .exited with point := .exited }
  | .exited => none

def lgScriptRun (s : Script) (scriptParam : List (BitVec 32)) : Script :=
  if s.runState ≠ .initing then { s.setParams scriptParam with request := .run }.signal else s

/-- `lgScriptStatus` returns the run state, and does so once for the end of a run. -/
def lgScriptStatus (s : Script) : RunState × Script :=
  (s.runState,
    if s.runState = .ended ∨ s.runState = .halted ∨ s.runState = .failed then s.setRunState .ready else s)

def step (code : List Instr) (s : Script) : ScriptAct → Option Script
  | .thread result => s.threadStep code result
  | .wake => if s.point = .wait then some { s with point := .woken } else none
  | .run scriptParam =>
    if scriptParam.length > scriptParams then some s
    else if s.deleting then none
    else some (s.lgScriptRun scriptParam)
  | .update scriptParam =>
    if scriptParam.length > scriptParams then some s
    else if s.deleting then none
    else some (s.setParams scriptParam)
  | .status => if s.deleting then none else some s.lgScriptStatus.2
  | .stop => if s.deleting then none else some { s with request := .halt }.signal
  | .delete => if s.deleting then none else some { s with request := .delete, deleting := true }.signal

@[simp] lemma signal_request (s : Script) : s.signal.request = s.request := by
  unfold signal
  split <;> rfl

@[simp] lemma signal_machine (s : Script) : s.signal.machine = s.machine := by
  unfold signal
  split <;> rfl

@[simp] lemma signal_deleting (s : Script) : s.signal.deleting = s.deleting := by
  unfold signal
  split <;> rfl

lemma signal_point (s : Script) : s.signal.point = if s.point = .wait then .woken else s.point := by
  unfold signal
  split <;> rfl

/-- The thread is about to execute an instruction. -/
def Executing (s : Script) : Prop := s.point = .inner ∧ s.request = .run ∧ s.runState = .running

end Script

section Machine

variable {code : List Instr} {m m' : Machine}

lemma runState_scrPush (r : Regs) (v : BitVec 32) :
    (r.scrPush v).runState = r.runState ∨ (r.scrPush v).runState = .failed := by
  unfold Regs.scrPush
  split
  · exact Or.inl rfl
  · exact Or.inr rfl

lemma runState_scrPop (r : Regs) :
    r.scrPop.2.runState = r.runState ∨ r.scrPop.2.runState = .failed := by
  unfold Regs.scrPop
  split
  · exact Or.inl rfl
  · exact Or.inr rfl

lemma runState_set {r r' : Regs} {opt : Opt} {arg v : BitVec 32} (h : r.set opt arg v = some r') :
    r'.runState = r.runState := by
  unfold Regs.set Regs.setPar Regs.setVar at h
  split at h <;> split at h <;> cases h <;> rfl

lemma runState_execInstr {r r' : Regs} {instr : Instr} {result : BitVec 32} {flow : Flow}
    (h : execInstr r instr result = some (r', flow)) :
    r'.runState = r.runState ∨ r'.runState = .ended ∨ r'.runState = .failed := by
  unfold execInstr at h
  split at h
  · rename_i cmd hcmd
    obtain ⟨p0, -, h⟩ := Option.bind_eq_some_iff.mp h
    obtain ⟨p1, -, h⟩ := Option.bind_eq_some_iff.mp h
    have hpop := runState_scrPop r
    have hpush := runState_scrPush r
    cases cmd
    all_goals simp only [scriptCmd, setA, updateA, updateReg, jumpIf, Option.bind_eq_bind,
      Option.bind_eq_some_iff, Option.some.injEq, Prod.mk.injEq] at h
    all_goals grind [→ runState_set]
  · obtain ⟨args, -, h⟩ := Option.bind_eq_some_iff.mp h
    cases h
    exact Or.inl rfl

/-- A script leaves its run state as it is, or it has ended or failed. -/
lemma runState_step {result : BitVec 32} (h : m.step code result = some m') :
    m'.regs.runState = m.regs.runState ∨ m'.regs.runState = .ended ∨ m'.regs.runState = .failed := by
  obtain ⟨instr, -, h⟩ := Option.bind_eq_some_iff.mp h
  obtain ⟨⟨r, flow⟩, hexec, h⟩ := Option.bind_eq_some_iff.mp h
  cases h
  have hr := runState_execInstr hexec
  have hgo : (Machine.go ⟨r, m.PC⟩ flow).regs.runState = r.runState ∨
      (Machine.go ⟨r, m.PC⟩ flow).regs.runState = .failed := by
    cases flow with
    | call p0 => exact runState_scrPush r _
    | ret => exact runState_scrPop r
    | _ => exact Or.inl rfl
  unfold Machine.checkEnd
  split
  · exact Or.inr (Or.inl rfl)
  · rcases hgo with hgo | hgo
    · rwa [hgo]
    · exact Or.inr (Or.inr hgo)

end Machine

section Valid

variable {code : List Instr} {s t : Script}

/-- What holds between the fields of a script at any time. -/
structure Valid (s : Script) : Prop where
  deleting : s.deleting = true ↔ s.request = .delete
  waits : s.point = .wait → s.request ≠ .delete
  leaves : s.point = .purge ∨ s.point = .exited → s.request = .delete
  exited : s.runState = .exited ↔ s.point = .exited
  initing : s.runState = .initing ↔ s.point = .start
  unready : s.point = .start → s.request ≠ .run

lemma Valid.store : Valid .store := by
  constructor <;> simp [Script.store]

lemma Valid.threadStep {result : BitVec 32} (h : Valid s) (hst : s.threadStep code result = some t) :
    Valid t := by
  obtain ⟨hdel, hwaits, hleaves, hexited, hiniting, hunready⟩ := h
  unfold Script.threadStep at hst
  split at hst
  case h_6 hpoint =>
    split at hst
    · rename_i hcond
      obtain ⟨m, hm, rfl⟩ := Option.map_eq_some_iff.mp hst
      have hrun := runState_step hm
      constructor <;> grind
    · constructor <;> grind
  all_goals constructor <;> grind [Script.setRunState, Script.begin]

lemma Valid.step {a : ScriptAct} (h : Valid s) (hst : s.step code a = some t) : Valid t := by
  cases a with
  | thread result => exact h.threadStep hst
  | _ =>
    obtain ⟨hdel, hwaits, hleaves, hexited, hiniting, hunready⟩ := h
    constructor <;> grind [Script.step, Script.lgScriptRun, Script.lgScriptStatus, Script.setRunState,
      Script.setParams, Regs.setParams, Script.signal]

lemma run_valid {as : List ScriptAct} (h : exec (Script.step code) .store as = some s) : Valid s :=
  Transition.invariant_of_exec .store (fun _ _ _ _ _ hu huv => hu.step huv) h

end Valid

end Lg
