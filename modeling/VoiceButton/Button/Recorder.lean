import VoiceButton.Button.Handshake
import Mathlib.Data.List.Nodup

/-!
# The `rec` processes

Each pass of the main loop starts at most one `rec` process, and its worker sends it a
SIGTERM before the main thread reads the file. When the process opens the file, writes to it
and exits is its own affair: nothing in the program waits for it.
-/

namespace VoiceButton

open Supervision (Inv)
open SharedFile (Disk Finished)
open Transition (exec)

section Steps

variable {s t : State} {a : Action}

/-- What a step does to the audio file and its processes. -/
inductive DiskStep (s : State) (a : Action) (t : State) : Prop
  | same (ha : ∀ p act, a ≠ .recorder p act) (hdisk : t.disk = s.disk)
  | spawn (tag : ℕ) (ha : ∀ p act, a ≠ .recorder p act) (hdisk : t.disk = s.disk.spawn tag)
  | signal (q : ℕ) (ha : ∀ p act, a ≠ .recorder p act) (hdisk : t.disk = s.disk.signal q)
  | act (q : ℕ) (act : SharedFile.Act UInt8) (ha : a = .recorder q act)
      (hact : s.disk.act q act = some t.disk)

lemma step_disk (h : step s a = some t) : DiskStep s a t := by
  cases step_move h with
  | main _ _ _ ha hmove =>
    refine .same ?_ hmove.disk
    rintro p act rfl
    cases ha
  | worker i w reply status _ _ _ hmove =>
    cases hmove.disk with
    | same hdisk => exact .same nofun hdisk
    | spawn hdisk => exact .spawn w.cycle nofun hdisk
    | signal q hdisk => exact .signal q nofun hdisk
  | recorder q act disk hact => exact .act q act rfl hact

/-- The recording that a process has left stays. -/
lemma step_finished {p tag : ℕ} {bs : Audio} (h : Finished s.disk p tag bs)
    (hstep : step s a = some t) : Finished t.disk p tag bs := by
  cases step_disk hstep with
  | same _ hdisk =>
    rw [hdisk]
    exact h
  | spawn tag' _ hdisk =>
    rw [hdisk]
    exact SharedFile.spawn_finished tag' h
  | signal q _ hdisk =>
    rw [hdisk]
    exact SharedFile.signal_finished q h
  | act q act _ hact => exact SharedFile.act_finished h hact

lemma exec_finished {p tag : ℕ} {bs : Audio} {as : List Action} (h : Finished s.disk p tag bs)
    (hexec : exec step s as = some t) : Finished t.disk p tag bs :=
  Transition.invariant_of_exec (I := fun u => Finished u.disk p tag bs) h
    (fun _ _ _ _ _ hfinished hstep => step_finished hfinished hstep) hexec

end Steps

/-- The processes have opened the file, and exited, as the schedule says. -/
structure Acted (as : List Action) (d : Disk UInt8) : Prop where
  bound : ∀ p act, .recorder p act ∈ as → p < d.writers.length
  exited : ∀ (p : ℕ) (w : SharedFile.Writer UInt8), d.writers[p]? = some w →
    (w.exited = true ↔ .recorder p .exit ∈ as)
  opened : ∀ (p : ℕ) (w : SharedFile.Writer UInt8), d.writers[p]? = some w →
    (w.recording.isSome = true ↔ .recorder p .openFile ∈ as)

section Acted

variable {as : List Action} {d : Disk UInt8}

lemma Acted.concat_of_ne {a : Action} (h : Acted as d) (ha : ∀ p act, a ≠ .recorder p act) :
    Acted (as ++ [a]) d := by
  have hmem (p act) : .recorder p act ∈ as ++ [a] ↔ .recorder p act ∈ as := by
    simp [(ha p act).symm]
  exact ⟨fun p act hp => h.bound p act ((hmem p act).mp hp),
    fun p w hw => (h.exited p w hw).trans (hmem p .exit).symm,
    fun p w hw => (h.opened p w hw).trans (hmem p .openFile).symm⟩

lemma Acted.spawn (h : Acted as d) (tag : ℕ) : Acted as (d.spawn tag) := by
  have hnew (act) : .recorder d.writers.length act ∉ as := fun hp => absurd (h.bound _ act hp) (by simp)
  refine ⟨?_, ?_, ?_⟩
  · intro p act hp
    exact (h.bound p act hp).trans_le (by simp [Disk.spawn])
  · intro p w hw
    rcases SharedFile.writer_of_spawn hw with hold | ⟨rfl, rfl⟩
    · exact h.exited p w hold
    · simp [hnew]
  · intro p w hw
    rcases SharedFile.writer_of_spawn hw with hold | ⟨rfl, rfl⟩
    · exact h.opened p w hold
    · simp [hnew]

lemma Acted.signal (h : Acted as d) (q : ℕ) : Acted as (d.signal q) := by
  refine ⟨?_, ?_, ?_⟩
  · intro p act hp
    simpa [Disk.signal] using h.bound p act hp
  · intro p w hw
    obtain ⟨v, hv, -, -, hexited, -⟩ := SharedFile.writer_of_signal hw
    rw [hexited]
    exact h.exited p v hv
  · intro p w hw
    obtain ⟨v, hv, -, hrecording, -⟩ := SharedFile.writer_of_signal hw
    rw [hrecording]
    exact h.opened p v hv

lemma Acted.act {d' : Disk UInt8} {q : ℕ} {act : SharedFile.Act UInt8} (h : Acted as d)
    (hact : d.act q act = some d') : Acted (as ++ [.recorder q act]) d' := by
  have hlength : d'.writers.length = d.writers.length := by
    simpa [Disk.tags] using congrArg List.length (SharedFile.tags_act hact)
  refine ⟨?_, ?_, ?_⟩
  · intro p act' hp
    rw [hlength]
    rcases List.mem_append.mp hp with hold | hnew
    · exact h.bound p act' hold
    · obtain ⟨rfl, rfl⟩ : p = q ∧ act' = act := by simpa using hnew
      obtain ⟨w, w', hw, -⟩ := SharedFile.act_eq_some hact
      exact (List.getElem?_eq_some_iff.mp hw).1
  · intro p w hw
    obtain ⟨v, hv, -, -, hexited, -⟩ := SharedFile.writer_of_act hact hw
    rw [hexited, h.exited p v hv]
    simp [eq_comm]
  · intro p w hw
    obtain ⟨v, hv, -, -, -, hopened⟩ := SharedFile.writer_of_act hact hw
    rw [hopened, h.opened p v hv]
    simp [eq_comm]

end Acted

theorem run_acted {file : Option Audio} {as : List Action} {t : State} (h : run file as = some t) :
    Acted as t.disk := by
  refine Transition.history_of_exec (I := fun pre u => Acted pre u.disk) ?_ ?_ h
  · exact ⟨by simp, by simp [init], by simp [init]⟩
  · intro pre a u v _ hacted hstep
    cases step_disk hstep with
    | same ha hdisk =>
      rw [hdisk]
      exact hacted.concat_of_ne ha
    | spawn tag ha hdisk =>
      rw [hdisk]
      exact (hacted.spawn tag).concat_of_ne ha
    | signal q ha hdisk =>
      rw [hdisk]
      exact (hacted.signal q).concat_of_ne ha
    | act q act ha hact =>
      subst ha
      exact hacted.act hact

section Status

variable {status : Status} {pc : MainPc}

lemma alive_of_beforePopen (h : status.beforePopen) : status.alive ∧ status.target = .record := by
  cases status with
  | record pc => exact ⟨rfl, rfl⟩
  | _ => cases h

lemma alive_of_process {p : ℕ} (h : status.process = some p) :
    status.alive ∧ status.target = .record := by
  cases status with
  | record pc => exact ⟨rfl, rfl⟩
  | _ => cases h

lemma process_of_beforePopen (h : status.beforePopen) : status.process = none := by
  cases status with
  | record pc => cases pc <;> first | rfl | cases h
  | _ => cases h

lemma eq_record_of_entry {x : Target} (h : x.entry.beforePopen) : x = .record := by
  cases x with
  | record => rfl
  | thinkyBlinky => cases h

lemma phase_of_made (h : pc.stage = some (.record, .made)) : pc.phase = 0 := by
  cases pc <;> first | rfl | cases h

lemma phase_of_record (h : pc.stage = some (.record, .started) ∨ pc.stage = some (.record, .told)) :
    pc.phase = 1 := by
  cases pc <;> first | rfl | simp [MainPc.stage] at h

end Status

/-- Each process carries the number of the pass that started it, and no pass starts two. -/
structure Tagged (s : State) : Prop where
  nodup : s.disk.tags.Nodup
  le : ∀ tag ∈ s.disk.tags, tag ≤ s.cycle
  unstarted : s.pc.phase = 0 → s.cycle ∉ s.disk.tags
  beforePopen : ∀ (i : ℕ) (w : Thread), s.threads[i]? = some w → w.status.beforePopen →
    s.cycle ∉ s.disk.tags

section Tagged

variable {s t : State}

lemma mainMove_tagged (hinv : Inv (abs s)) (h : Tagged s) (hmove : MainMove s t) : Tagged t := by
  have hnext : s.cycle + 1 ∉ s.disk.tags := by
    intro hmem
    have hle := h.le _ hmem
    omega
  have hfresh (hs : s.cycle ∉ s.disk.tags) : t.cycle ∉ s.disk.tags := by
    rcases hmove.cycle with hc | ⟨hc, -⟩ <;> rw [hc]
    · exact hs
    · exact hnext
  refine ⟨?_, ?_, ?_, ?_⟩ <;> rw [hmove.disk]
  · exact h.nodup
  · intro tag htag
    have hle := h.le tag htag
    rcases hmove.cycle with hc | ⟨hc, -⟩ <;> omega
  · intro hphase
    cases hmove.pass with
    | press hc =>
      rw [hc]
      exact hnext
    | start _ hp => omega
    | read _ _ hpc =>
      rw [hpc] at hphase
      cases hphase
    | send _ _ _ hp => omega
    | stay _ hp => exact hfresh (h.unstarted (hp ▸ hphase))
  · intro i w hw hbefore
    apply hfresh
    rcases hmove.thread hw with hold | ⟨x, hstatus⟩ | ⟨x, v, hs, hi, hv, hstatus⟩
    · exact h.beforePopen i w hold hbefore
    · rw [hstatus] at hbefore
      cases hbefore
    · -- the main thread starts the worker of this pass
      obtain ⟨j, u, hj, hu, htarget, -⟩ := hinv.handled x .made hs (by decide)
      have hij : i = j := Option.mem_unique hi hj
      subst hij
      have huv : u = v.abs := Option.some.inj (hu.symm.trans (abs_workers_getElem? hv))
      have hrecord : v.status.target = .record := eq_record_of_entry (hstatus ▸ hbefore)
      have hx : x = .record := by
        rw [← htarget, huv]
        exact hrecord
      exact h.unstarted (phase_of_made (hx ▸ hs))

lemma workerMove_tagged {i : ℕ} {w : Thread} {reply : WorkerReply} {status : Status}
    (hinv : Inv (abs s)) (h : Tagged s) (hw : s.threads[i]? = some w) (halive : w.status.alive)
    (hmove : WorkerMove s i w reply status t) : Tagged t := by
  have hpc := hmove.pc
  have hcycle := hmove.cycle
  -- a worker that is yet to start its process was so before the step
  have hbefore (hstatus : status.beforePopen → w.status.beforePopen) (j : ℕ) (v : Thread)
      (hv : t.threads[j]? = some v) (hv' : v.status.beforePopen) : s.cycle ∉ s.disk.tags := by
    rcases hmove.thread hw hv with ⟨rfl, rfl⟩ | ⟨-, hold⟩
    · exact h.beforePopen i w hw (hstatus hv')
    · exact h.beforePopen j v hold hv'
  cases hmove.disk with
  | same hdisk _ hstatus =>
    refine ⟨?_, ?_, ?_, ?_⟩ <;> rw [hdisk]
    · exact h.nodup
    · rw [hcycle]
      exact h.le
    · rw [hpc, hcycle]
      exact h.unstarted
    · rw [hcycle]
      exact hbefore hstatus
  | spawn hdisk _ hpopen hafter =>
    have hnew : s.cycle ∉ s.disk.tags := h.beforePopen i w hw hpopen
    have hwcycle : w.cycle = s.cycle := alive_cycle hinv hw halive
    refine ⟨?_, ?_, ?_, ?_⟩ <;> rw [hdisk, SharedFile.tags_spawn, hwcycle]
    · rw [← List.concat_eq_append]
      exact h.nodup.concat hnew
    · intro tag htag
      rw [hcycle]
      rcases List.mem_append.mp htag with hold | hlast
      · exact h.le tag hold
      · exact (List.mem_singleton.mp hlast).le
    · intro hphase
      have htarget : w.status.target = .record := (alive_of_beforePopen hpopen).2
      have hstage := alive_stage hinv hw halive
      rw [htarget, ← hpc] at hstage
      rw [phase_of_record hstage] at hphase
      cases hphase
    · intro j v hv hv'
      rcases hmove.thread hw hv with ⟨rfl, rfl⟩ | ⟨hij, hold⟩
      · exact absurd (hv'.symm.trans hafter) (by decide)
      · exact absurd (alive_unique hinv hw hold halive (alive_of_beforePopen hv').1) hij
  | signal p hdisk _ hafter =>
    refine ⟨?_, ?_, ?_, ?_⟩ <;> rw [hdisk, SharedFile.tags_signal]
    · exact h.nodup
    · rw [hcycle]
      exact h.le
    · rw [hpc, hcycle]
      exact h.unstarted
    · rw [hcycle]
      exact hbefore (fun hstatus => absurd (hstatus.symm.trans hafter) (by decide))

lemma step_tagged {a : Action} (hinv : Inv (abs s)) (h : Tagged s) (hstep : step s a = some t) :
    Tagged t := by
  cases step_move hstep with
  | main _ _ _ _ hmove => exact mainMove_tagged hinv h hmove
  | worker i w reply status _ hw halive hmove => exact workerMove_tagged hinv h hw halive hmove
  | recorder p act disk hact =>
    refine ⟨?_, ?_, ?_, ?_⟩ <;> rw [SharedFile.tags_act hact]
    · exact h.nodup
    · exact h.le
    · exact h.unstarted
    · exact h.beforePopen

lemma init_tagged (file : Option Audio) : Tagged (init file) :=
  ⟨by simp [init, Disk.tags], by simp [init, Disk.tags], nofun, by simp [init]⟩

end Tagged

theorem run_tagged {file : Option Audio} {as : List Action} {t : State} (h : run file as = some t) :
    Tagged t :=
  Transition.invariant_of_exec (init_tagged file)
    (fun _ _ _ _ hs htagged hstep => step_tagged (run_inv hs) htagged hstep) h

/-- A process that was not sent a SIGTERM is held by the worker that started it. -/
def Held (s : State) : Prop :=
  ∀ (q : ℕ) (p : SharedFile.Writer UInt8), s.disk.writers[q]? = some p → p.signalled = true ∨
    ∃ (i : ℕ) (w : Thread), s.threads[i]? = some w ∧ w.status.process = some q

section Held

variable {s t : State}

lemma mainMove_held (h : Held s) (hmove : MainMove s t) : Held t := by
  intro q p hp
  rw [hmove.disk] at hp
  rcases h q p hp with hsignalled | ⟨i, w, hw, hprocess⟩
  · exact Or.inl hsignalled
  · refine Or.inr ⟨i, w, hmove.thread_of_started hw ?_, hprocess⟩
    rintro x hx
    rw [hx] at hprocess
    cases hprocess

lemma workerMove_held {i : ℕ} {w : Thread} {reply : WorkerReply} {status : Status}
    (hinv : Inv (abs s)) (h : Held s) (hw : s.threads[i]? = some w) (halive : w.status.alive)
    (hmove : WorkerMove s i w reply status t) : Held t := by
  have hself := hmove.thread_self hw
  intro q p hp
  cases hmove.disk with
  | same hdisk _ _ hstatus =>
    rw [hdisk] at hp
    rcases h q p hp with hsignalled | ⟨j, v, hv, hprocess⟩
    · exact Or.inl hsignalled
    · by_cases hij : i = j
      · subst hij
        have hvw : v = w := Option.mem_unique hv hw
        subst hvw
        rcases hstatus with hsame | hunbound
        · exact Or.inr ⟨i, _, hself, hsame.trans hprocess⟩
        · exact absurd hunbound (isSet_stop_ne_none hinv hv halive)
      · exact Or.inr ⟨j, v, hmove.thread_of_ne hij hv, hprocess⟩
  | spawn hdisk _ hbefore _ hstatus =>
    rw [hdisk] at hp
    rcases SharedFile.writer_of_spawn hp with hold | ⟨rfl, -⟩
    · rcases h q p hold with hsignalled | ⟨j, v, hv, hprocess⟩
      · exact Or.inl hsignalled
      · have hij : i ≠ j := by
          rintro rfl
          have hvw : v = w := Option.mem_unique hv hw
          rw [hvw, process_of_beforePopen hbefore] at hprocess
          cases hprocess
        exact Or.inr ⟨j, v, hmove.thread_of_ne hij hv, hprocess⟩
    · exact Or.inr ⟨i, _, hself, hstatus⟩
  | signal r hdisk _ _ hstatus =>
    rw [hdisk] at hp
    obtain ⟨p', hp', -, -, -, hsignalled⟩ := SharedFile.writer_of_signal hp
    rw [hsignalled]
    rcases h q p' hp' with hold | ⟨j, v, hv, hprocess⟩
    · exact Or.inl (Or.inl hold)
    · by_cases hij : i = j
      · subst hij
        have hvw : v = w := Option.mem_unique hv hw
        subst hvw
        exact Or.inl (Or.inr (Option.mem_unique hstatus hprocess))
      · exact Or.inr ⟨j, v, hmove.thread_of_ne hij hv, hprocess⟩

lemma step_held {a : Action} (hinv : Inv (abs s)) (h : Held s) (hstep : step s a = some t) :
    Held t := by
  cases step_move hstep with
  | main _ _ _ _ hmove => exact mainMove_held h hmove
  | worker i w reply status _ hw halive hmove => exact workerMove_held hinv h hw halive hmove
  | recorder r act disk hact =>
    intro q p hp
    obtain ⟨p', hp', -, hsignalled, -⟩ := SharedFile.writer_of_act hact hp
    rw [hsignalled]
    exact h q p' hp'

end Held

theorem run_held {file : Option Audio} {as : List Action} {t : State} (h : run file as = some t) :
    Held t :=
  Transition.invariant_of_exec (by simp [Held, init])
    (fun _ _ _ _ hs hheld hstep => step_held (run_inv hs) hheld hstep) h

/-- When no `record` worker is alive, every `rec` process has been sent a SIGTERM. -/
theorem run_signalled {file : Option Audio} {as : List Action} {t : State} (h : run file as = some t)
    (hdead : ∀ (i : ℕ) (w : Thread), t.threads[i]? = some w → w.status.target = .record →
      w.status.alive = false) (q : ℕ) (p : SharedFile.Writer UInt8)
    (hp : t.disk.writers[q]? = some p) : p.signalled = true := by
  rcases run_held h q p hp with hsignalled | ⟨i, w, hw, hprocess⟩
  · exact hsignalled
  · obtain ⟨halive, htarget⟩ := alive_of_process hprocess
    rw [hdead i w hw htarget] at halive
    cases halive

end VoiceButton
