import VoiceButton.Button.Recorder

/-!
# What the speech service hears

`speech_to_text` sends what the audio file contains when it is read. This file determines
the runs in which that is the complete recording of the same pass: those in which the `rec`
process of the pass has opened the file and exited by then.
-/

namespace VoiceButton

open Supervision (Inv)
open SharedFile (Disk Finished Sole)
open Transition (Guarded exec)

/-- The main thread is about to read the audio file. -/
def ReadsAudio (s : State) : Prop := s.raised = none ∧ s.pc = .speechToText .readAudioFile

instance : DecidablePred ReadsAudio := fun s =>
  inferInstanceAs (Decidable (s.raised = none ∧ s.pc = .speechToText .readAudioFile))

/-- The schedule reads the audio file in state `s`, after `pre`, and goes on to send what it
has read. -/
structure ReadSent (file : Option Audio) (as pre : List Action) (s : State) : Prop where
  split : ∃ post, as = pre ++ .main .ok :: post
  state : run file pre = some s
  reads : ReadsAudio s
  sent : ∃ t, run file as = some t ∧ (s.cycle, .recognize speechConfig s.audio) ∈ t.calls

/-- Whenever the audio file is read and its content sent, the `rec` process of the same pass
has exited, and the content is all that it recorded. -/
def AudioComplete (file : Option Audio) (as : List Action) : Prop :=
  ∀ pre s, ReadSent file as pre s → ∃ p, Finished s.disk p s.cycle s.audio

/-- A first pass up to the read of the audio file, with a release that follows the press at
once: the `rec` process is terminated before it has opened the file. -/
def earlyRelease : List Action :=
  [.main .ok, .main .ok, .main .ok, .main .ok, .worker 0 .ok, .worker 0 .ok, .worker 0 .ok,
    .worker 0 .ok, .main .ok, .main .ok, .worker 0 .ok, .worker 0 .ok, .worker 0 .ok, .worker 0 .ok,
    .main .ok, .main .ok, .main .ok, .main .ok, .main .ok, .main .ok]

/-- A first pass up to the read, in which the `rec` process has yet to write its last samples. -/
def lateFlush : List Action :=
  [.main .ok, .main .ok, .main .ok, .main .ok, .worker 0 .ok, .worker 0 .ok, .worker 0 .ok,
    .worker 0 .ok, .recorder 0 .openFile, .recorder 0 (.append [1]), .main .ok, .main .ok,
    .worker 0 .ok, .worker 0 .ok, .worker 0 .ok, .worker 0 .ok, .main .ok, .main .ok, .main .ok,
    .main .ok, .main .ok, .main .ok]

/-- The program may send what an earlier run has left in the file, or the beginning of a
recording. -/
theorem exists_not_audioComplete :
    ¬AudioComplete (some [9]) (earlyRelease ++ [.main .ok, .main .ok]) ∧
      ¬AudioComplete (some [9]) (lateFlush ++ [.main .ok, .recorder 0 (.append [2]), .main .ok]) := by
  constructor
  · intro h
    obtain ⟨p, w, hw, -, -, hexited⟩ :=
      h earlyRelease _ ⟨⟨_, rfl⟩, rfl, ⟨rfl, rfl⟩, _, rfl, by decide⟩
    cases p <;> cases hw
    cases hexited
  · intro h
    obtain ⟨p, w, hw, -, -, hexited⟩ :=
      h lateFlush _ ⟨⟨_, rfl⟩, rfl, ⟨rfl, rfl⟩, _, rfl, by decide⟩
    cases p <;> cases hw
    cases hexited

/-- This pass has started a `rec` process, which has opened the audio file and exited. -/
def RecorderDone (pre : List Action) (s : State) : Prop :=
  ∃ (p : ℕ) (w : SharedFile.Writer UInt8), s.disk.writers[p]? = some w ∧ w.tag = s.cycle ∧
    .recorder p .openFile ∈ pre ∧ .recorder p .exit ∈ pre

section Steps

variable {s t : State} {a : Action}

lemma step_calls (h : step s a = some t) : ∀ call ∈ s.calls, call ∈ t.calls := by
  intro call hcall
  cases step_move h with
  | main _ _ _ _ hmove =>
    rcases hmove.calls with hsame | ⟨new, hnew, -⟩
    · rwa [hsame]
    · rw [hnew]
      exact List.mem_append_left _ hcall
  | worker i w reply status _ _ _ hmove =>
    cases hmove.disk with
    | same _ hcalls | signal _ _ hcalls => rwa [hcalls]
    | spawn _ hcalls =>
      rw [hcalls]
      exact List.mem_append_left _ hcall
  | recorder p act disk => exact hcall

lemma exec_calls {as : List Action} (h : exec step s as = some t) : ∀ call ∈ s.calls, call ∈ t.calls :=
  Transition.invariant_of_exec (I := fun u => ∀ call ∈ s.calls, call ∈ u.calls) (fun _ hcall => hcall)
    (fun _ _ _ _ _ hcalls hstep call hcall => step_calls hstep call (hcalls call hcall)) h

/-- Only a successful `f.read()` goes on from the read. -/
lemma action_of_read (h : step s a = some t) (hs : s.pc = .speechToText .readAudioFile)
    (ht : t.pc ≠ s.pc) : a = .main .ok := by
  cases a with
  | main reply =>
    simp only [step] at h
    split at h
    · cases h
    · cases reply with
      | ok => rfl
      | _ => simp [mainStep, hs, speechStep] at h
  | raise exc =>
    simp only [step] at h
    split at h <;> cases h
    exact absurd rfl ht
  | worker i reply =>
    obtain ⟨w, status, -, -, hmove⟩ := workerStep_move h
    exact absurd hmove.pc ht
  | recorder p act =>
    obtain ⟨disk, -, rfl⟩ := Option.map_eq_some_iff.mp h
    exact absurd rfl ht

end Steps

/-- The schedule has read `content` in pass `cycle`. -/
def ReadIn (file : Option Audio) (as : List Action) (cycle : ℕ) (content : Audio) : Prop :=
  ∃ pre post s, as = pre ++ .main .ok :: post ∧ run file pre = some s ∧ ReadsAudio s ∧
    s.cycle = cycle ∧ s.audio = content

lemma ReadIn.concat {file : Option Audio} {as : List Action} {cycle : ℕ} {content : Audio}
    (h : ReadIn file as cycle content) (a : Action) : ReadIn file (as ++ [a]) cycle content := by
  obtain ⟨pre, post, s, has, hrest⟩ := h
  exact ⟨pre, post ++ [a], s, by rw [has]; simp, hrest⟩

/-- Requests to the speech service are preceded by a read in the same pass. -/
structure Sends (file : Option Audio) (as : List Action) (s : State) : Prop where
  pending : ∀ content, s.pc = .speechToText (.recognize content) → ReadIn file as s.cycle content
  sent : s.pc.phase = 3 → s.cycle ∈ s.disk.tags →
    ∃ content, ReadIn file as s.cycle content ∧ (s.cycle, .recognize speechConfig content) ∈ s.calls
  requests : ∀ k config content, (k, .recognize config content) ∈ s.calls →
    config = speechConfig ∧ ReadIn file as k content

section Sends

variable {file : Option Audio} {as : List Action} {s t : State} {a : Action}

/-- A step that keeps the pass, the program point and the requests. -/
lemma Sends.frame (h : Sends file as s) (hcycle : t.cycle = s.cycle) (hpc : t.pc = s.pc)
    (htags : t.pc.phase = 3 → t.disk.tags = s.disk.tags)
    (hcalls : ∀ call ∈ s.calls, call ∈ t.calls)
    (hrequests : ∀ k config content, (k, .recognize config content) ∈ t.calls →
      (k, .recognize config content) ∈ s.calls) : Sends file (as ++ [a]) t := by
  refine ⟨?_, ?_, ?_⟩
  · intro content hcontent
    rw [hcycle]
    exact (h.pending content (hpc ▸ hcontent)).concat a
  · intro hphase hmem
    rw [htags hphase, hcycle] at hmem
    obtain ⟨content, hread, hcall⟩ := h.sent (hpc ▸ hphase) hmem
    rw [hcycle]
    exact ⟨content, hread.concat a, hcalls _ hcall⟩
  · intro k config content hcall
    obtain ⟨hconfig, hread⟩ := h.requests k config content (hrequests k config content hcall)
    exact ⟨hconfig, hread.concat a⟩

lemma mainMove_sends (hs : run file as = some s) (h : Sends file as s) (hstep : step s a = some t)
    (hraised : s.raised = none) (hmove : MainMove s t) : Sends file (as ++ [a]) t := by
  refine ⟨?_, ?_, ?_⟩
  · intro content hcontent
    have hphase : t.pc.phase = 2 := by rw [hcontent]; rfl
    cases hmove.pass with
    | press _ _ hp => omega
    | start _ hp => omega
    | read hc hpc hp =>
      have ha : a = .main .ok := action_of_read hstep hpc (by rw [hp, hpc]; nofun)
      have haudio : s.audio = content := by
        rw [hp] at hcontent
        cases hcontent
        rfl
      exact ⟨as, [], s, by rw [ha], hs, ⟨hraised, hpc⟩, hc.symm, haudio⟩
    | send _ _ _ hp => omega
    | stay hc _ hread =>
      rw [hc]
      exact (h.pending content ((hread content hcontent).trans hcontent)).concat a
  · intro hphase hmem
    rw [hmove.disk] at hmem
    cases hmove.pass with
    | press _ _ hp => omega
    | start _ hp => omega
    | read _ _ hp =>
      rw [hp] at hphase
      cases hphase
    | send content hc hpc _ hcalls =>
      rw [hc, hcalls]
      exact ⟨content, (h.pending content hpc).concat a, by simp⟩
    | stay hc hp =>
      rw [hc] at hmem ⊢
      obtain ⟨content, hread, hcall⟩ := h.sent (hp ▸ hphase) hmem
      exact ⟨content, hread.concat a, step_calls hstep _ hcall⟩
  · intro k config content hcall
    have hold (hcall : (k, .recognize config content) ∈ s.calls) :
        config = speechConfig ∧ ReadIn file (as ++ [a]) k content := by
      obtain ⟨hconfig, hread⟩ := h.requests k config content hcall
      exact ⟨hconfig, hread.concat a⟩
    rcases hmove.calls with hsame | ⟨call, hnew, hrequest⟩
    · exact hold (hsame ▸ hcall)
    · rw [hnew] at hcall
      rcases List.mem_append.mp hcall with hcall | hcall
      · exact hold hcall
      · obtain ⟨rfl, rfl⟩ : k = s.cycle ∧ Call.recognize config content = call := by
          simpa using hcall
        obtain ⟨content', hpc, hcontent⟩ := hrequest rfl
        cases hcontent
        exact ⟨rfl, (h.pending _ hpc).concat a⟩

lemma step_sends (hs : run file as = some s) (h : Sends file as s) (hstep : step s a = some t) :
    Sends file (as ++ [a]) t := by
  cases step_move hstep with
  | main _ _ hraised _ hmove => exact mainMove_sends hs h hstep hraised hmove
  | worker i w reply status _ hw halive hmove =>
    refine h.frame hmove.cycle hmove.pc ?_ (step_calls hstep) ?_
    · intro hphase
      cases hmove.disk with
      | same hdisk => rw [hdisk]
      | spawn _ _ hbefore =>
        -- no pass starts a process as late as this
        have hstage := alive_stage (run_inv hs) hw halive
        rw [(alive_of_beforePopen hbefore).2, ← hmove.pc] at hstage
        have hrecord := phase_of_record hstage
        omega
      | signal q hdisk => rw [hdisk, SharedFile.tags_signal]
    · intro k config content hcall
      cases hmove.disk with
      | same _ hcalls | signal _ _ hcalls => rwa [hcalls] at hcall
      | spawn _ hcalls =>
        rw [hcalls] at hcall
        simpa using hcall
  | recorder p act disk hact =>
    exact h.frame rfl rfl (fun _ => SharedFile.tags_act hact) (fun _ => id) (fun _ _ _ => id)

end Sends

theorem run_sends {file : Option Audio} {as : List Action} {t : State} (h : run file as = some t) :
    Sends file as t := by
  refine Transition.history_of_exec (I := Sends file) ?_ ?_ h
  · exact ⟨nofun, by simp [init, Disk.tags], by simp [init]⟩
  · intro pre a u v hu hsends hstep
    exact step_sends hu hsends hstep

/-- Every request of a run sends, with the parameters of `speech_to_text`, what the run has
read in the same pass. -/
theorem exists_readSent {file : Option Audio} {as : List Action} {t : State} {k : ℕ}
    {config : RecognitionConfig} {content : Audio} (h : run file as = some t)
    (hcall : (k, .recognize config content) ∈ t.calls) :
    config = speechConfig ∧ ∃ pre s, ReadSent file as pre s ∧ s.cycle = k ∧ s.audio = content := by
  obtain ⟨rfl, pre, post, s, has, hs, hreads, rfl, rfl⟩ := (run_sends h).requests k config content hcall
  exact ⟨rfl, pre, s, ⟨⟨post, has⟩, hs, hreads, t, h, hcall⟩, rfl, rfl⟩

theorem exists_readSent_hello :
    ∃ pre s, ReadSent none (helloSchedule.take 25) pre s ∧ s.cycle = 1 ∧ s.audio = [] := by
  have h : run none (helloSchedule.take 25) = some _ := rfl
  exact (exists_readSent h (show (1, Call.recognize speechConfig []) ∈ _ by decide)).2

/-- The processes of the earlier passes have exited, so that only that of this pass writes. -/
structure Fresh (s : State) : Prop where
  earlier : ∀ (q : ℕ) (w : SharedFile.Writer UInt8), s.disk.writers[q]? = some w →
    w.tag ≠ s.cycle → w.exited = true
  own : ∀ (p : ℕ) (w : SharedFile.Writer UInt8), s.disk.writers[p]? = some w →
    w.tag = s.cycle → Sole s.disk p

/-- The process of this pass has exited before the next pass begins. -/
def ExitsInPass (s : State) : Prop :=
  s.pc = .waitForPress → ∀ (q : ℕ) (w : SharedFile.Writer UInt8), s.disk.writers[q]? = some w →
    w.tag = s.cycle → w.exited = true

section Fresh

variable {s t : State}

lemma mainMove_fresh (htagged : Tagged s) (h : Fresh s) (hexits : ExitsInPass s)
    (hmove : MainMove s t) : Fresh t := by
  rcases hmove.cycle with hc | ⟨hc, hpc⟩
  · refine ⟨?_, ?_⟩ <;> rw [hmove.disk, hc]
    · exact h.earlier
    · exact h.own
  · refine ⟨?_, ?_⟩ <;> rw [hmove.disk, hc]
    · intro q w hw _
      by_cases htag : w.tag = s.cycle
      · exact hexits hpc q w hw htag
      · exact h.earlier q w hw htag
    · intro p w hw htag
      have hle := htagged.le _ (SharedFile.mem_tags hw)
      omega

lemma workerMove_fresh {i : ℕ} {w : Thread} {reply : WorkerReply} {status : Status}
    (hinv : Inv (abs s)) (htagged : Tagged s) (h : Fresh s) (hw : s.threads[i]? = some w)
    (halive : w.status.alive) (hmove : WorkerMove s i w reply status t) : Fresh t := by
  have hcycle := hmove.cycle
  cases hmove.disk with
  | same hdisk =>
    refine ⟨?_, ?_⟩ <;> rw [hdisk, hcycle]
    · exact h.earlier
    · exact h.own
  | spawn hdisk _ hbefore =>
    have hnew : s.cycle ∉ s.disk.tags := htagged.beforePopen i w hw hbefore
    have hexited (q : ℕ) (v : SharedFile.Writer UInt8) (hv : s.disk.writers[q]? = some v) :
        v.exited = true := by
      refine h.earlier q v hv ?_
      rintro htag
      exact hnew (htag ▸ SharedFile.mem_tags hv)
    refine ⟨?_, ?_⟩ <;> rw [hdisk, hcycle, alive_cycle hinv hw halive]
    · intro q v hv htag
      rcases SharedFile.writer_of_spawn hv with hold | ⟨-, rfl⟩
      · exact hexited q v hold
      · exact absurd rfl htag
    · intro p v hv htag
      rcases SharedFile.writer_of_spawn hv with hold | ⟨rfl, -⟩
      · exact absurd (htag ▸ SharedFile.mem_tags hold) hnew
      · exact SharedFile.spawn_sole s.cycle hexited
  | signal r hdisk =>
    refine ⟨?_, ?_⟩ <;> rw [hdisk, hcycle]
    · intro q v hv htag
      obtain ⟨u, hu, hutag, -, hexited, -⟩ := SharedFile.writer_of_signal hv
      exact hexited.trans (h.earlier q u hu (hutag ▸ htag))
    · intro p v hv htag
      obtain ⟨u, hu, hutag, -⟩ := SharedFile.writer_of_signal hv
      exact SharedFile.signal_sole r (h.own p u hu (hutag ▸ htag))

lemma step_fresh {a : Action} (hinv : Inv (abs s)) (htagged : Tagged s) (h : Fresh s)
    (hexits : ExitsInPass s) (hstep : step s a = some t) : Fresh t := by
  cases step_move hstep with
  | main _ _ _ _ hmove => exact mainMove_fresh htagged h hexits hmove
  | worker i w reply status _ hw halive hmove => exact workerMove_fresh hinv htagged h hw halive hmove
  | recorder r act disk hact =>
    refine ⟨?_, ?_⟩
    · intro q v hv htag
      obtain ⟨u, hu, hutag, -, hexited, -⟩ := SharedFile.writer_of_act hact hv
      exact hexited.mpr (Or.inl (h.earlier q u hu (hutag ▸ htag)))
    · intro p v hv htag
      obtain ⟨u, hu, hutag, -⟩ := SharedFile.writer_of_act hact hv
      exact SharedFile.act_sole (h.own p u hu (hutag ▸ htag)) hact

end Fresh

theorem run_fresh {file : Option Audio} {as : List Action} {t : State}
    (hexits : Guarded step (fun s _ => ExitsInPass s) (init file) as) (h : run file as = some t) :
    Fresh t :=
  Transition.invariant_of_guarded ⟨by simp [init], by simp [init]⟩
    (fun _ _ _ _ hs hfresh hG hstep => step_fresh (run_inv hs) (run_tagged hs) hfresh hG hstep) hexits h

section Complete

variable {file : Option Audio} {as pre : List Action} {s t : State}

lemma RecorderDone.finished (hs : run file pre = some s) (h : RecorderDone pre s) :
    ∃ p bs, Finished s.disk p s.cycle bs := by
  obtain ⟨p, w, hw, htag, hopened, hexited⟩ := h
  have hacted := run_acted hs
  obtain ⟨bs, hbs⟩ := Option.isSome_iff_exists.mp ((hacted.opened p w hw).mpr hopened)
  exact ⟨p, bs, w, hw, htag, hbs, (hacted.exited p w hw).mpr hexited⟩

/-- A pass that is over has sent what it read, so its process has exited. -/
lemma exitsInPass_of_done (h : run file as = some t)
    (hdone : ∀ pre s, ReadSent file as pre s → RecorderDone pre s) :
    Guarded step (fun s _ => ExitsInPass s) (init file) as := by
  intro pre a post u has hu hpc q w hw htag
  obtain ⟨content, ⟨pre', post', s, hpre, hs, hreads, hcycle, rfl⟩, hcall⟩ :=
    (run_sends hu).sent (by rw [hpc]; rfl) (htag ▸ SharedFile.mem_tags hw)
  rw [← hcycle] at hcall
  obtain ⟨_, hu', hut⟩ := Transition.exec_append_eq_some.mp (has ▸ h)
  obtain rfl : u = _ := Option.mem_unique hu hu'
  have hsent : ReadSent file as pre' s :=
    ⟨⟨post' ++ a :: post, by rw [has, hpre]; simp⟩, hs, hreads, t, h, exec_calls hut _ hcall⟩
  obtain ⟨p, bs, hfinished⟩ := (hdone pre' s hsent).finished hs
  obtain ⟨_, hs', hsu⟩ := Transition.exec_append_eq_some.mp (hpre ▸ hu)
  obtain rfl : s = _ := Option.mem_unique hs hs'
  obtain ⟨v, hv, hvtag, -, hexited⟩ := exec_finished hfinished hsu
  have hpq : p = q :=
    SharedFile.eq_of_tag_eq (run_tagged hu).nodup hv hw (hvtag.trans (hcycle.trans htag.symm))
  subst hpq
  obtain rfl : v = w := Option.mem_unique hv hw
  exact hexited

/-- The audio that a run sends is complete exactly when, at each read whose content is sent,
the `rec` process of that pass has opened the file and exited. -/
theorem audioComplete_iff (file : Option Audio) (as : List Action) :
    AudioComplete file as ↔ ∀ pre s, ReadSent file as pre s → RecorderDone pre s := by
  constructor
  · intro hcomplete pre s hsent
    obtain ⟨p, w, hw, htag, hrecording, hexited⟩ := hcomplete pre s hsent
    have hacted := run_acted hsent.state
    exact ⟨p, w, hw, htag, (hacted.opened p w hw).mp (by rw [hrecording]; rfl),
      (hacted.exited p w hw).mp hexited⟩
  · intro hdone pre s hsent
    obtain ⟨p, bs, w, hw, htag, hbs, hexited⟩ := (hdone pre s hsent).finished hsent.state
    obtain ⟨post, has⟩ := hsent.split
    obtain ⟨t, ht, -⟩ := hsent.sent
    have hexits := exitsInPass_of_done ht hdone
    rw [has] at hexits
    have hsole := (run_fresh (Transition.guarded_of_append hexits) hsent.state).own p w hw htag
    have haudio : s.audio = bs := by simp [State.audio, hsole.content w bs hw hbs]
    exact ⟨p, w, hw, htag, haudio ▸ hbs, hexited⟩

end Complete

/-- The pass of `lateFlush`, in which the process writes its last samples and exits in time. -/
def settledRelease : List Action := lateFlush ++ [.recorder 0 (.append [2]), .recorder 0 .exit]

def settledSchedule : List Action := settledRelease ++ [.main .ok, .main .ok]

theorem audioComplete_settled :
    (∃ s, ReadSent (some [9]) settledSchedule settledRelease s ∧ s.audio = [1, 2]) ∧
      AudioComplete (some [9]) settledSchedule := by
  constructor
  · exact ⟨_, ⟨⟨_, rfl⟩, rfl, ⟨rfl, rfl⟩, _, rfl, by decide⟩, rfl⟩
  · rw [audioComplete_iff]
    intro pre s hsent
    obtain ⟨post, hsplit⟩ := hsent.split
    have hpre : pre = settledSchedule.take pre.length := by
      rw [hsplit]
      simp
    have hlength : pre.length ≤ 26 := by
      have h := congrArg List.length hsplit
      simp only [settledSchedule, settledRelease, lateFlush, List.length_append, List.length_cons,
        List.length_nil] at h
      omega
    have hreads : ∀ n ≤ 26, ∀ s ∈ run (some [9]) (settledSchedule.take n), ReadsAudio s →
        settledSchedule[n]? = some (.main .ok) → n = 24 := by
      decide
    have h24 := hreads pre.length hlength s (hpre ▸ hsent.state) hsent.reads (by rw [hsplit]; simp)
    rw [h24] at hpre
    subst hpre
    obtain rfl : _ = s := Option.some.inj hsent.state
    exact ⟨0, _, rfl, rfl, by decide, by decide⟩

/-- Outside the stretch from the start of the record worker to its join, and so at the read of
the file, every `rec` process has been sent a SIGTERM. The code does not order more. -/
theorem recorder_signalled {file : Option Audio} {as : List Action} {s : State}
    (h : run file as = some s) (hstarted : s.pc.stage ≠ some (.record, .started))
    (htold : s.pc.stage ≠ some (.record, .told)) (p : ℕ) (w : SharedFile.Writer UInt8)
    (hw : s.disk.writers[p]? = some w) : w.signalled = true := by
  refine run_signalled h ?_ p w hw
  intro i v hv htarget
  by_contra halive
  have hstage := alive_stage (run_inv h) hv (Bool.not_eq_false _ ▸ halive)
  rw [htarget] at hstage
  rcases hstage with hstage | hstage
  · exact hstarted hstage
  · exact htold hstage

theorem recorder_signalled_earlyRelease : ∃ s w, run (some [9]) earlyRelease = some s ∧
    s.disk.writers[0]? = some w ∧ w.recording = none ∧ w.signalled = true := by
  have h : run (some [9]) earlyRelease = some _ := rfl
  exact ⟨_, _, h, rfl, rfl, recorder_signalled h (by decide) (by decide) 0 _ rfl⟩

end VoiceButton
