import VoiceButton.Button.Handshake

/-!
# Every `join` returns

A worker that has been told to stop is never blocked and takes at most six more steps,
however the other threads and the `rec` processes are scheduled. So the main thread does not
wait in `join` forever.
-/

namespace VoiceButton

open Supervision (Inv isSet isSet_eq_some)
open Transition (exec)

/-- The action is a step of thread `i`. -/
def Action.ofWorker (i : ℕ) : Action → Bool
  | .worker j _ => i == j
  | _ => false

/-- The main thread waits for thread `i`, which is alive. -/
def Awaited (i : ℕ) (s : State) : Prop :=
  ∃ w, s.threads[i]? = some w ∧ w.status.alive ∧ s.pc.stage = some (w.status.target, .told)

def Ended (i : ℕ) (s : State) : Prop :=
  ∃ w, s.threads[i]? = some w ∧ w.status.abs.ended

def remaining (i : ℕ) (s : State) : ℕ := (s.threads[i]?).elim 0 (fun w => w.status.remaining)

section Status

variable {status : Status}

lemma Status.remaining_le (status : Status) : status.remaining ≤ 6 := by
  cases status with
  | record pc => cases pc <;> simp [Status.remaining]
  | thinkyBlinky pc => cases pc <;> simp [Status.remaining]
  | _ => simp [Status.remaining]

lemma Status.remaining_pos (h : status.alive) : 0 < status.remaining := by
  cases status with
  | record pc => cases pc <;> simp [Status.remaining]
  | thinkyBlinky pc => cases pc <;> simp [Status.remaining]
  | _ => cases h

lemma Status.not_ended_of_alive (h : status.alive) : status.abs.ended = false := by
  rw [← Status.alive_abs] at h
  cases habs : status.abs <;> first | rfl | simp [habs, Supervision.Status.alive] at h

end Status

lemma remaining_le (i : ℕ) (s : State) : remaining i s ≤ 6 := by
  unfold remaining
  cases s.threads[i]? with
  | none => exact Nat.zero_le 6
  | some w => exact w.status.remaining_le

section Enabled

lemma recordStep_enabled (s : State) (i cycle : ℕ) (pc : RecordPc) :
    ∃ t, recordStep s i cycle pc .ok = some t := by
  cases pc with
  | isSet process =>
    simp only [recordStep]
    split <;> exact ⟨_, rfl⟩
  | _ => exact ⟨_, rfl⟩

lemma thinkyBlinkyStep_enabled (s : State) (i : ℕ) (pc : ThinkyBlinkyPc) :
    ∃ reply t, thinkyBlinkyStep s i pc reply = some t := by
  cases pc with
  | isSet =>
    refine ⟨.ok, ?_⟩
    simp only [thinkyBlinkyStep]
    split <;> exact ⟨_, rfl⟩
  | ledColor =>
    have hcolor : Color.recording ∈ colors := by decide
    exact ⟨.choice .recording, _, by rw [thinkyBlinkyStep, if_pos hcolor]⟩
  | _ => exact ⟨.ok, _, rfl⟩

/-- No call of a worker waits for another thread. -/
lemma worker_enabled {s : State} {i : ℕ} {w : Thread} (hw : s.threads[i]? = some w)
    (halive : w.status.alive) : ∃ reply t, step s (.worker i reply) = some t := by
  obtain ⟨stop, cycle, status⟩ := w
  simp only [step, workerStep, hw]
  cases status with
  | record pc => exact ⟨.ok, recordStep_enabled s i cycle pc⟩
  | thinkyBlinky pc => exact thinkyBlinkyStep_enabled s i pc
  | _ => cases halive

end Enabled

section Steps

variable {s t : State} {a : Action} {i : ℕ}

/-- The main thread stays where it is while the worker that it waits for is alive. -/
lemma mainMove_stage_of_told {w : Thread} (hinv : Inv (abs s)) (hw : s.threads[i]? = some w)
    (halive : w.status.alive) (htold : s.pc.stage = some (w.status.target, .told))
    (hmove : MainMove s t) : t.pc.stage = s.pc.stage := by
  cases hmove with
  | quiet _ hstage => exact hstage
  | press hs | read hs => simp [hs, MainPc.stage] at htold
  | send content hs => rw [hs]; rfl
  | newEvent _ _ hs | newThread _ _ hs | start _ _ _ _ hs | set _ _ _ hs | led _ hs =>
    rw [hs] at htold
    cases htold
  | join x next j v hs _ _ hj hv hended =>
    have hi := alive_handle hinv hw halive
    have hx : x = w.status.target := by
      rw [hs] at htold
      cases htold
      rfl
    rw [hx] at hj
    have hji : j = i := Option.mem_unique hj hi
    subst hji
    have hvw : v = w := Option.mem_unique hv hw
    rw [hvw, Status.not_ended_of_alive halive] at hended
    cases hended

/-- Each step of the awaited worker takes it closer to its end, and no other step stops it. -/
lemma step_awaited (hinv : Inv (abs s)) (h : Awaited i s) (hstep : step s a = some t) :
    Ended i t ∨ Awaited i t ∧ remaining i t + (if a.ofWorker i then 1 else 0) ≤ remaining i s := by
  obtain ⟨w, hw, halive, htold⟩ := h
  have hremaining : remaining i s = w.status.remaining := by simp [remaining, hw]
  cases step_move hstep with
  | main _ _ _ ha hmove =>
    have hw' : t.threads[i]? = some w := by
      refine hmove.thread_of_started hw ?_
      rintro x hx
      rw [hx] at halive
      cases halive
    have hstage := mainMove_stage_of_told hinv hw halive htold hmove
    have hother : a.ofWorker i = false := by cases a <;> first | rfl | cases ha
    exact Or.inr ⟨⟨w, hw', halive, hstage.trans htold⟩, by simp [remaining, hw, hw', hother]⟩
  | worker j v reply status _ hv hvalive hmove =>
    have hij : j = i := alive_unique hinv hv hw hvalive halive
    subst hij
    have hvw : v = w := Option.mem_unique hv hw
    subst hvw
    have hself := hmove.thread_self hw
    have halive_or : status.alive ∨ status.abs.ended := by
      cases hmove.moves with
      | stay hsame =>
        left
        rw [← Status.alive_abs, hsame, Status.alive_abs, halive]
      | leave _ hnew =>
        left
        rw [← Status.alive_abs, hnew]
        rfl
      | finish _ hnew | popenFails _ hnew | unbound _ hnew =>
        right
        rw [hnew]
        rfl
    rcases halive_or with halive' | hended
    · have hset : isSet s.events (s.stop v.status.target) = some true := by
        obtain ⟨e, event, -, hstop, hevent, -, hflag⟩ := alive_event hinv hw halive
        exact isSet_eq_some.mpr ⟨e, event, hstop, hevent, hflag.mpr htold⟩
      refine Or.inr ⟨⟨_, hself, halive', ?_⟩, ?_⟩
      · rw [hmove.pc, htold, ← hmove.target]
      · have hlt := hmove.remaining hset
        simpa [remaining, hself, hw, Action.ofWorker] using Nat.succ_le_of_lt hlt
    · exact Or.inl ⟨_, hself, hended⟩
  | recorder p act disk => exact Or.inr ⟨⟨w, hw, halive, htold⟩, le_rfl⟩

lemma step_ended (h : Ended i s) (hstep : step s a = some t) : Ended i t := by
  obtain ⟨w, hw, hended⟩ := h
  cases step_move hstep with
  | main _ _ _ _ hmove =>
    refine ⟨w, hmove.thread_of_started hw ?_, hended⟩
    rintro x hx
    rw [hx] at hended
    cases hended
  | worker j v reply status _ hv hvalive hmove =>
    have hji : j ≠ i := by
      rintro rfl
      have hvw : v = w := Option.mem_unique hv hw
      rw [← hvw, Status.not_ended_of_alive hvalive] at hended
      cases hended
    exact ⟨w, hmove.thread_of_ne hji hw, hended⟩
  | recorder p act disk => exact ⟨w, hw, hended⟩

end Steps

section Runs

variable {file : Option Audio} {as : List Action} {s : State} {i : ℕ}

/-- After six more steps of its own the awaited worker has ended, so that `join` returns. -/
theorem join_returns {bs : List Action} {t : State} (hs : run file as = some s) (h : Awaited i s)
    (ht : run file (as ++ bs) = some t) (hbs : 6 ≤ bs.countP (Action.ofWorker i)) : Ended i t := by
  obtain ⟨u, hu, hut⟩ := Transition.exec_append_eq_some.mp ht
  have hsu : s = u := Option.mem_unique hs hu
  subst hsu
  have hmeasure := Transition.measure_of_exec (Q := Awaited i) (R := Ended i)
    (P := Action.ofWorker i) (m := remaining i) ?_ (fun _ _ _ => step_ended) h hut
  · rcases hmeasure with hended | ⟨⟨w, hw, halive, -⟩, hle⟩
    · exact hended
    · have hpos : 0 < remaining i t := by simpa [remaining, hw] using Status.remaining_pos halive
      have hsix := remaining_le i s
      omega
  · intro pre u a v hu hawaited hstep
    have hrun : run file (as ++ pre) = some u := Transition.exec_append_eq_some.mpr ⟨s, hs, hu⟩
    exact step_awaited (run_inv hrun) hawaited hstep

/-- A release that follows the press before the record worker has taken a step. -/
def promptRelease : List Action := List.replicate 6 (.main .ok)

theorem join_returns_promptRelease :
    ∃ t, run none (promptRelease ++ List.replicate 6 (.worker 0 .ok)) = some t ∧ Ended 0 t := by
  have hs : run none promptRelease = some _ := rfl
  have ht : run none (promptRelease ++ List.replicate 6 (.worker 0 .ok)) = some _ := rfl
  exact ⟨_, ht, join_returns hs ⟨_, rfl, rfl, rfl⟩ ht (by decide)⟩

/-- The awaited worker can always go on to its end. -/
theorem exists_join (hs : run file as = some s) (h : Awaited i s) :
    ∃ bs t, (∀ a ∈ bs, a.ofWorker i) ∧ run file (as ++ bs) = some t ∧ Ended i t := by
  induction hn : remaining i s using Nat.strong_induction_on generalizing as s with
  | _ n ih =>
    obtain ⟨w, hw, halive, -⟩ := id h
    obtain ⟨reply, t, hstep⟩ := worker_enabled hw halive
    have ht : run file (as ++ [.worker i reply]) = some t :=
      Transition.exec_concat_eq_some.mpr ⟨s, hs, hstep⟩
    have hown : (Action.worker i reply).ofWorker i = true := by simp [Action.ofWorker]
    rcases step_awaited (run_inv hs) h hstep with hended | ⟨hawaited, hle⟩
    · exact ⟨[.worker i reply], t, by simpa using hown, ht, hended⟩
    · rw [hown, if_pos rfl] at hle
      obtain ⟨bs, u, hbs, hu, hended⟩ := ih (remaining i t) (by omega) ht hawaited rfl
      refine ⟨.worker i reply :: bs, u, ?_, by simpa using hu, hended⟩
      simpa [hown] using hbs

end Runs

end VoiceButton
