import VoiceButton.Lg.ScriptThread

/-!
# What the calls of a script achieve

A request to delete a script is never lost, and one to stop it neither. A request to run it is lost
when it comes after the last instruction of a run and before the thread waits again.
-/

namespace Lg

open Transition (exec)

/-- The thread starts, waits, and begins the script after a request to run. -/
def begun : List ScriptAct := [.thread 0, .thread 0, .thread 0, .run [7], .thread 0]

section Delete

variable {code : List Instr} {s t : Script}

/-- The steps of the thread that are left once it is to end. -/
def Script.left (s : Script) : ℕ :=
  match s.point with
  | .exited => 0
  | .purge => 1
  | .test => 2
  | .start => 3
  | .after => 3
  | .inner => 4
  | .lock => 5
  | .woken => 5
  | .wait => 5

lemma Script.left_le (s : Script) : s.left ≤ 5 := by
  unfold Script.left
  split <;> decide

/-- Unless it is to run the script, the thread can go on until it waits or has ended. -/
lemma threadStep_isSome (hreq : s.request ≠ .run) (hwait : s.point ≠ .wait) (hexited : s.point ≠ .exited)
    (result : BitVec 32) : (s.threadStep code result).isSome := by
  unfold Script.threadStep
  split <;> simp_all

lemma left_threadStep {result : BitVec 32} (hv : Valid s) (hreq : s.request = .delete)
    (h : s.threadStep code result = some t) : t.request = .delete ∧ t.left + 1 ≤ s.left := by
  have hwaits := hv.waits
  unfold Script.threadStep at h
  split at h
  all_goals grind [Script.left, Script.setRunState, Script.begin]

/-- While a script is deleted, each step of its thread brings it nearer to its end. -/
lemma left_step {a : ScriptAct} (hv : Valid s) (hreq : s.request = .delete)
    (h : s.step code a = some t) :
    t.request = .delete ∧ t.left + (if a.isThread then 1 else 0) ≤ s.left := by
  have hwaits := hv.waits
  have hdel := hv.deleting
  cases a with
  | thread result => exact left_threadStep hv hreq h
  | _ => grind [Script.step, ScriptAct.isThread]

end Delete

section Stop

variable {code : List Instr} {s t u : Script}

/-- The steps of the thread until it waits, when it is not to run the script. -/
def Script.leftToWait (s : Script) : ℕ :=
  match s.point with
  | .wait => 0
  | .lock => 1
  | .test => 2
  | .start => 3
  | .after => 3
  | .inner => 4
  | .woken => 5
  | .purge => 0
  | .exited => 0

/-- The commands that the script has executed and its variables are those of `s`. -/
structure SameEffects (s t : Script) : Prop where
  var : t.machine.regs.var = s.machine.regs.var
  calls : t.machine.regs.calls = s.machine.regs.calls

lemma SameEffects.trans (h : SameEffects s t) (h' : SameEffects t u) : SameEffects s u :=
  ⟨h'.var.trans h.var, h'.calls.trans h.calls⟩

/-- The thread executes an instruction, or has no effect. -/
lemma threadStep_effects {result : BitVec 32} (h : s.threadStep code result = some t) :
    t.request = s.request ∧ (s.Executing ∨ SameEffects s t) := by
  unfold Script.threadStep at h
  split at h
  all_goals grind [Script.Executing, SameEffects, Script.setRunState, Script.begin,
    Option.map_eq_some_iff]

lemma step_effects {a : ScriptAct} (h : s.step code a = some t) (hreq : s.request ≠ .run)
    (ha : a.isRun = false) : t.request ≠ .run ∧ SameEffects s t := by
  cases a with
  | thread result =>
    obtain ⟨hrequest, heffects⟩ := threadStep_effects h
    rw [hrequest]
    exact ⟨hreq, heffects.resolve_left (fun hexec => hreq hexec.2.1)⟩
  | _ => grind [Script.step, ScriptAct.isRun, SameEffects, Script.lgScriptStatus, Script.setRunState,
      Script.setParams, Regs.setParams, Script.signal]

lemma quiet_step {a : ScriptAct} (hv : Valid s) (h : s.step code a = some t) (hreq : s.request = .halt)
    (ha : a.isQuiet) : t.request = .halt ∧ t.leftToWait + (if a.isThread then 1 else 0) ≤ s.leftToWait := by
  have hleaves := hv.leaves
  cases a with
  | thread result =>
    have h : s.threadStep code result = some t := h
    refine ⟨(threadStep_effects h).1.trans hreq, ?_⟩
    unfold Script.threadStep at h
    split at h
    all_goals grind [Script.leftToWait, Script.setRunState, Script.begin, ScriptAct.isThread]
  | _ => grind [Script.step, ScriptAct.isQuiet, ScriptAct.isThread, Script.lgScriptStatus, Script.setRunState,
      Script.setParams, Script.leftToWait]

/-- A thread that is to stop waits after as many steps as there are left. -/
lemma quiet_exec {bs : List ScriptAct} (hv : Valid t) (hreq : t.request = .halt)
    (hbs : ∀ a ∈ bs, a.isQuiet) (hu : exec (Script.step code) t bs = some u) :
    u.request = .halt ∧ u.leftToWait + bs.countP ScriptAct.isThread ≤ t.leftToWait := by
  induction bs generalizing t with
  | nil =>
    cases hu
    exact ⟨hreq, Nat.le_refl _⟩
  | cons a bs ih =>
    obtain ⟨v, hv', hu⟩ := Option.bind_eq_some_iff.mp hu
    obtain ⟨hvreq, hvleft⟩ := quiet_step hv hv' hreq (hbs a List.mem_cons_self)
    obtain ⟨hureq, huleft⟩ := ih (hv.step hv') hvreq (fun b hb => hbs b (List.mem_cons_of_mem _ hb)) hu
    refine ⟨hureq, ?_⟩
    rw [List.countP_cons]
    omega

lemma effects_exec {bs : List ScriptAct} (hreq : t.request ≠ .run) (hbs : ∀ a ∈ bs, a.isRun = false)
    (hu : exec (Script.step code) t bs = some u) : u.request ≠ .run ∧ SameEffects t u := by
  induction bs generalizing t with
  | nil =>
    cases hu
    exact ⟨hreq, rfl, rfl⟩
  | cons a bs ih =>
    obtain ⟨v, hv, hu⟩ := Option.bind_eq_some_iff.mp hu
    obtain ⟨hvreq, hveffects⟩ := step_effects hv hreq (hbs a List.mem_cons_self)
    obtain ⟨hureq, hueffects⟩ := ih hvreq (fun b hb => hbs b (List.mem_cons_of_mem _ hb)) hu
    exact ⟨hureq, hveffects.trans hueffects⟩

end Stop

section Run

variable {code : List Instr} {s t u : Script}

/-- A request to run has come too late for the last run, and the thread goes to its wait. -/
def Script.Missed (s : Script) : Prop :=
  s.point = .test ∨ s.point = .lock ∨ s.point = .wait ∨ s.point = .after ∨
    (s.point = .inner ∧ s.runState ≠ .running)

lemma missed_step {a : ScriptAct} (h : s.step code a = some t) (hmissed : s.Missed)
    (hreq : s.request = .run) (ha : a.isQuiet) : t.Missed ∧ t.request = .run := by
  cases a with
  | thread result =>
    have h : s.threadStep code result = some t := h
    unfold Script.threadStep at h
    split at h
    all_goals grind [Script.Missed]
  | status =>
    unfold Script.step Script.lgScriptStatus Script.setRunState at h
    grind [Script.Missed]
  | _ => grind [Script.step, ScriptAct.isQuiet, Script.setParams, Regs.setParams, Script.Missed]

lemma missed_exec {bs : List ScriptAct} (h : exec (Script.step code) s bs = some t) (hmissed : s.Missed)
    (hreq : s.request = .run) (hbs : ∀ a ∈ bs, a.isQuiet) : t.Missed := by
  induction bs generalizing s with
  | nil =>
    cases h
    exact hmissed
  | cons a bs ih =>
    obtain ⟨u, hu, h⟩ := Option.bind_eq_some_iff.mp h
    obtain ⟨humissed, hureq⟩ := missed_step hu hmissed hreq (hbs a List.mem_cons_self)
    exact ih h humissed hureq (fun b hb => hbs b (List.mem_cons_of_mem _ hb))

lemma Script.Missed.not_executing (h : s.Missed) : ¬ s.Executing := by
  rintro ⟨hpoint, -, hrun⟩
  unfold Script.Missed at h
  simp_all

/-- An accepted request to run. -/
lemma step_run {scriptParam : List (BitVec 32)} (hparam : scriptParam.length ≤ scriptParams)
    (ht : s.step code (.run scriptParam) = some t) :
    s.deleting = false ∧ t = s.lgScriptRun scriptParam := by
  simp only [Script.step, gt_iff_lt, if_neg (Nat.not_lt.mpr hparam)] at ht
  split at ht
  · cases ht
  · rename_i hdel
    exact ⟨Bool.of_not_eq_true hdel, (Option.some.inj ht).symm⟩

lemma isRun_of_isQuiet {a : ScriptAct} (h : a.isQuiet) : a.isRun = false := by
  cases a <;> first | rfl | cases h

/-- A request that is not refused wakes the thread if it waits. -/
lemma lgScriptRun_eq (scriptParam : List (BitVec 32)) (h : s.runState ≠ .initing) :
    (s.lgScriptRun scriptParam).request = .run ∧
      (s.lgScriptRun scriptParam).machine.regs = s.machine.regs.setParams scriptParam ∧
      (s.lgScriptRun scriptParam).point = if s.point = .wait then .woken else s.point := by
  simp [Script.lgScriptRun, h, Script.signal_point, Script.setParams]

end Run

section Status

variable {code : List Instr} {s t : Script}

/-- The thread has left the loop over the instructions and still says that the script runs. -/
def Script.SaysRunning (s : Script) : Prop :=
  s.runState = .running ∧
    (s.point = .test ∨ s.point = .lock ∨ s.point = .wait ∨ s.point = .after ∧ s.request = .run)

/-- The thread is about to set the run state to `LG_SCRIPT_HALTED`. -/
def Script.Stopping (s : Script) : Prop :=
  s.point = .after ∧ s.request = .halt ∧ s.runState = .running

/-- Only a request to run that meets a stopping thread makes it say so. -/
lemma saysRunning_step {a : ScriptAct} (hv : Valid s) (h : s.step code a = some t)
    (hsaying : t.SaysRunning) : s.SaysRunning ∨ s.Stopping ∧ a.isRun := by
  have hrequest : s.request = .halt ∨ s.request = .run ∨ s.request = .delete := by
    cases s.request <;> simp
  cases a with
  | thread result =>
    have h : s.threadStep code result = some t := h
    unfold Script.threadStep at h
    split at h
    all_goals grind [Script.SaysRunning, Script.Executing, Script.setRunState, Script.begin,
      Option.map_eq_some_iff]
  | run scriptParam =>
    by_cases hparam : scriptParam.length ≤ scriptParams
    · obtain ⟨hdel, rfl⟩ := step_run hparam h
      have hdelete : s.request ≠ .delete := fun hdelete => by simp [hv.deleting.mpr hdelete] at hdel
      by_cases hinit : s.runState = .initing
      · left
        simpa [Script.lgScriptRun, hinit] using hsaying
      · obtain ⟨hreq, hregs, hpoint⟩ := lgScriptRun_eq scriptParam hinit
        grind [Script.SaysRunning, Script.Stopping, Regs.setParams, ScriptAct.isRun]
    · left
      simp only [Script.step, gt_iff_lt, if_pos (Nat.lt_of_not_le hparam), Option.some.injEq] at h
      rwa [h]
  | _ => grind [Script.step, Script.SaysRunning, Script.lgScriptStatus, Script.setRunState,
      Script.setParams, Regs.setParams, Script.signal]

end Status

section Meaning

variable {code : List Instr} {s t : Script}

/-- What an action is for the script that runs. -/
def ScriptAct.pass : ScriptAct → Option Pass
  | .thread result => some (.instr result)
  | .run scriptParam | .update scriptParam =>
    if scriptParam.length ≤ scriptParams then some (.update scriptParam) else none
  | _ => none

/-- The script was started by a step of its thread, and what has happened since has brought its
machine where it is. -/
def Begun (code : List Instr) (as : List ScriptAct) (s : Script) : Prop :=
  ∃ pre result post w, as = pre ++ .thread result :: post ∧
    exec (Script.step code) .store pre = some w ∧ w.threadStep code result = some w.begin ∧
    exec (Machine.pass code) w.begin.machine (post.filterMap ScriptAct.pass) = some s.machine

lemma Begun.concat {as : List ScriptAct} (h : Begun code as s) {a : ScriptAct}
    (ha : exec (Machine.pass code) s.machine a.pass.toList = some t.machine) : Begun code (as ++ [a]) t := by
  obtain ⟨pre, result, post, w, rfl, hw, hbegin, hpass⟩ := h
  refine ⟨pre, result, post ++ [a], w, by simp, hw, hbegin, ?_⟩
  have hlist : (post ++ [a]).filterMap ScriptAct.pass = post.filterMap ScriptAct.pass ++ a.pass.toList := by
    rw [List.filterMap_append, List.filterMap_cons]
    cases a.pass <;> rfl
  rw [hlist]
  exact Transition.exec_append_eq_some.mpr ⟨_, hpass, ha⟩

/-- A thread in the loop over the instructions has started it, or was there before. -/
lemma inner_step {a : ScriptAct} (h : s.step code a = some t) (hinner : t.point = .inner)
    (hrun : t.runState = .running) :
    (∃ result, a = .thread result ∧ s.threadStep code result = some s.begin ∧ t = s.begin) ∨
      (s.point = .inner ∧ s.runState = .running ∧
        exec (Machine.pass code) s.machine a.pass.toList = some t.machine) := by
  cases a with
  | thread result =>
    have h : s.threadStep code result = some t := h
    by_cases hpoint : s.point = .inner
    · right
      simp only [Script.threadStep, hpoint] at h
      split at h
      · rename_i hexec
        obtain ⟨m, hm, rfl⟩ := Option.map_eq_some_iff.mp h
        exact ⟨hpoint, hexec.2, by simp [ScriptAct.pass, Machine.pass, hexec.2, hm]⟩
      · cases h
        cases hinner
    · left
      refine ⟨result, rfl, ?_⟩
      unfold Script.threadStep at h ⊢
      split at h
      all_goals grind [Script.setRunState]
  | run scriptParam =>
    right
    by_cases hparam : scriptParam.length ≤ scriptParams
    · obtain ⟨-, rfl⟩ := step_run hparam h
      by_cases hinit : s.runState = .initing
      · have hsame : s.lgScriptRun scriptParam = s := by simp [Script.lgScriptRun, hinit]
        rw [hsame, hinit] at hrun
        cases hrun
      · obtain ⟨-, hregs, hpoint⟩ := lgScriptRun_eq scriptParam hinit
        have hmachine : (s.lgScriptRun scriptParam).machine = (s.setParams scriptParam).machine := by
          simp [Script.lgScriptRun, hinit, Script.setParams]
        refine ⟨by grind, ?_, ?_⟩
        · unfold Script.runState at hrun
          rw [hregs] at hrun
          exact hrun
        · simp [ScriptAct.pass, hparam, Machine.pass, hmachine, Script.setParams]
    · simp only [Script.step, gt_iff_lt, if_pos (Nat.lt_of_not_le hparam), Option.some.injEq] at h
      subst h
      exact ⟨hinner, hrun, by simp [ScriptAct.pass, hparam]⟩
  | update scriptParam =>
    right
    by_cases hparam : scriptParam.length ≤ scriptParams
    · simp only [Script.step, gt_iff_lt, if_neg (Nat.not_lt.mpr hparam)] at h
      split at h
      · cases h
      · cases h
        exact ⟨hinner, hrun, by simp [ScriptAct.pass, hparam, Machine.pass, Script.setParams]⟩
    · simp only [Script.step, gt_iff_lt, if_pos (Nat.lt_of_not_le hparam), Option.some.injEq] at h
      subst h
      exact ⟨hinner, hrun, by simp [ScriptAct.pass, hparam]⟩
  | _ =>
    right
    have hsame : s.machine = t.machine ∧ s.point = .inner := by
      grind [Script.step, Script.lgScriptStatus, Script.setRunState, Script.signal]
    refine ⟨hsame.2, ?_, congrArg some hsame.1⟩
    unfold Script.runState
    rw [hsame.1]
    exact hrun

lemma run_begun {as : List ScriptAct} (h : exec (Script.step code) .store as = some s)
    (hinner : s.point = .inner) (hrun : s.runState = .running) : Begun code as s := by
  refine Transition.history_of_exec
    (I := fun as s => s.point = .inner → s.runState = .running → Begun code as s) ?_ ?_ h hinner hrun
  · intro hinner
    cases hinner
  · intro pre a u v hu ih huv hinner hrun
    rcases inner_step huv hinner hrun with ⟨result, rfl, hbegin, rfl⟩ | ⟨hinner, hrun, hpass⟩
    · exact ⟨pre, result, [], u, rfl, hu, hbegin, rfl⟩
    · exact (ih hinner hrun).concat hpass

end Meaning

end Lg
