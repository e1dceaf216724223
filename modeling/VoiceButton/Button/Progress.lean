import VoiceButton.Button.Conversation
import VoiceButton.Button.Join

/-!
# What can go wrong, and what can go on

The hand-shake rules out the exceptions that a wrong use of the threads would raise. What is
left are three faults of the data, each at one program point. A pass that meets none of them
can always be completed, so no schedule of the threads leads into a dead end.
-/

namespace VoiceButton

open Supervision (Inv isSet)
open Transition (exec)

section Operations

variable {s : State} {x : Target} (next : MainPc)

/-- `start` always finds the thread that was just made. -/
lemma start_of_inv (hinv : Inv (abs s)) (hs : s.pc.stage = some (x, .made)) :
    ∃ i status, s.start x next = { s.setStatus i status with pc := next } := by
  obtain ⟨i, v, hi, hv, htarget, -, -, hmade⟩ := hinv.handled x .made hs (by decide)
  obtain ⟨w, hw, rfl⟩ := abs_workers_eq_some hv
  have hi' : s.handle x = some i := hi
  have habs : w.status.abs = .initial := hmade.mp rfl
  obtain ⟨stop, cycle, status⟩ := w
  cases status with
  | initial target => exact ⟨i, target.entry, by simp [State.start, hi', hw]⟩
  | record pc => cases pc <;> cases habs
  | thinkyBlinky pc => cases pc <;> cases habs
  | finished _ | crashed _ => cases habs

/-- `set` always finds the event that was made for the worker. -/
lemma set_of_inv (hinv : Inv (abs s)) (hs : s.pc.stage = some (x, .started)) :
    ∃ events, s.set x next = { s with events := events, pc := next } := by
  obtain ⟨e, he, -⟩ := hinv.staged x .started hs
  have he' : s.stop x = some e := he
  exact ⟨s.events.modify e Supervision.Event.set, by simp [State.set, he']⟩

/-- `join` waits for a live worker or returns. -/
lemma join_of_inv (hinv : Inv (abs s)) (hs : s.pc.stage = some (x, .told)) :
    (∃ i, Awaited i s ∧ s.join x next = none) ∨ s.join x next = some { s with pc := next } := by
  obtain ⟨i, v, hi, hv, htarget, -, -, hmade⟩ := hinv.handled x .told hs (by decide)
  obtain ⟨w, hw, rfl⟩ := abs_workers_eq_some hv
  have hi' : s.handle x = some i := hi
  have hx : w.status.target = x := htarget
  cases hstatus : w.status with
  | initial target =>
    have habs : w.abs.status = .initial := by simp only [Thread.abs, hstatus]; rfl
    exact absurd (hmade.mpr habs) (by decide)
  | record pc | thinkyBlinky pc =>
    refine Or.inl ⟨i, ⟨w, hw, by rw [hstatus]; rfl, by rw [hs, hx]⟩, ?_⟩
    simp [State.join, hi', hw, hstatus]
  | finished _ | crashed _ =>
    refine Or.inr ?_
    simp [State.join, hi', hw, hstatus]

end Operations

/-- The faults of the data at which the main thread raises an exception of its own. -/
inductive Fault (s : State) : Exc → Prop
  | noFile (hpc : s.pc = .speechToText .openAudioFile) : Fault s .fileNotFoundError
  | noAlternative (text : String) (result : Result) (results : List Result)
      (hpc : s.pc = .speechToText (.transcribe text (result :: results)))
      (hresult : result.alternatives = []) : Fault s .indexError
  | blocked (response : Response) (hpc : s.pc = .printResponse response)
      (hresponse : response.text = none) : Fault s .valueError

/-- The response that is spoken has a text, as it was printed before. -/
lemma text_of_answering {as : List Action} {s : State} {response : Response} (h : Converses as s)
    (hpc : s.pc.answering = some response) : ∃ text, response.text = some text := by
  cases h with
  | idle _ hidle => simp [hidle, MainPc.answering] at hpc
  | turn _ _ _ _ _ _ _ _ hturn =>
    generalize s.pc = pc at hpc hturn
    cases hturn with
    | listening _ hphase => cases pc <;> simp [MainPc.answering, MainPc.phase] at hpc hphase
    | answering _ x hx => exact ⟨x.answer, Option.some.inj (hx.symm.trans hpc) ▸ x.text_eq⟩
    | speaking _ _ hspeaking => cases pc <;> simp [MainPc.answering, MainPc.speaking] at hpc hspeaking
    | _ => simp [MainPc.answering] at hpc

section Faults

variable {s t : State} {reply : Reply} {exc : Exc}

lemma speechStep_fault {pc : SpeechPc} (hpc : s.pc = .speechToText pc)
    (h : speechStep s pc reply = some t) (hs : s.raised = none) (ht : t.raised = some exc) :
    Fault t exc := by
  have hquiet (hraised : t.raised = s.raised) : Fault t exc := by
    rw [hraised, hs] at ht
    cases ht
  cases pc with
  | openAudioFile =>
    cases reply <;> simp only [speechStep, reduceCtorEq] at h
    split at h <;> cases h
    · cases ht
      exact .noFile hpc
    · exact hquiet rfl
  | transcribe text results =>
    cases results with
    | nil =>
      cases reply <;> simp only [speechStep, reduceCtorEq] at h
      cases h
      exact hquiet rfl
    | cons result results =>
      cases reply <;> simp only [speechStep, reduceCtorEq] at h
      split at h <;> cases h
      · rename_i hresult
        cases ht
        exact .noAlternative text result results hpc hresult
      · exact hquiet rfl
  | _ =>
    cases reply <;> simp only [speechStep, reduceCtorEq] at h
    cases h
    exact hquiet rfl

/-- The main thread raises no other exception of its own. -/
lemma mainStep_fault {as : List Action} (hinv : Inv (abs s)) (hconverses : Converses as s)
    (h : mainStep s reply = some t) (hs : s.raised = none) (ht : t.raised = some exc) :
    Fault t exc := by
  have hquiet (hraised : t.raised = s.raised) : Fault t exc := by
    rw [hraised, hs] at ht
    cases ht
  cases hpc : s.pc with
  | startThread | startThread2 =>
    cases reply <;> simp only [mainStep, hpc, reduceCtorEq] at h
    cases h
    obtain ⟨i, status, hstart⟩ := start_of_inv _ hinv (by rw [hpc]; rfl)
    exact hquiet (by rw [hstart]; rfl)
  | setStopRecording | setStopBlinking response =>
    cases reply <;> simp only [mainStep, hpc, reduceCtorEq] at h
    cases h
    obtain ⟨events, hset⟩ := set_of_inv _ hinv (by rw [hpc]; rfl)
    exact hquiet (by rw [hset])
  | joinThread | joinThread2 response =>
    cases reply <;> simp only [mainStep, hpc, reduceCtorEq] at h
    rcases join_of_inv _ hinv (by rw [hpc]; rfl) with ⟨i, -, hnone⟩ | hjoin
    · rw [hnone] at h
      cases h
    · rw [hjoin] at h
      cases h
      exact hquiet rfl
  | speechToText pc =>
    simp only [mainStep, hpc] at h
    exact speechStep_fault hpc h hs ht
  | printResponse response =>
    cases reply <;> simp only [mainStep, hpc, reduceCtorEq] at h
    split at h <;> cases h
    · rename_i hblocked
      cases ht
      exact .blocked response hpc hblocked
    · exact hquiet rfl
  | spdSay response =>
    obtain ⟨text, htext⟩ := text_of_answering hconverses (by rw [hpc]; rfl)
    cases reply <;> simp only [mainStep, hpc, htext, reduceCtorEq] at h
    cases h
    exact hquiet rfl
  | poll =>
    cases reply with
    | returncode code =>
      cases code <;> simp only [mainStep, hpc, Option.some.injEq] at h <;> exact hquiet (by rw [← h])
    | _ => simp only [mainStep, hpc, reduceCtorEq] at h
  | newStopRecording | newThread | newStopBlinking | newThread2 =>
    cases reply <;> simp only [mainStep, hpc, reduceCtorEq] at h
    cases h
    exact hquiet rfl
  | _ =>
    cases reply <;> simp only [mainStep, hpc, reduceCtorEq] at h
    cases h
    exact hquiet rfl

lemma Fault.frame (h : Fault s exc) (hpc : t.pc = s.pc) : Fault t exc := by
  cases h with
  | noFile hs => exact .noFile (hpc.trans hs)
  | noAlternative text result results hs hresult =>
    exact .noAlternative text result results (hpc.trans hs) hresult
  | blocked response hs hresponse => exact .blocked response (hpc.trans hs) hresponse

/-- Each exception in the state was in the schedule or has its fault. -/
def Explained (as : List Action) (s : State) : Prop :=
  ∀ exc, s.raised = some exc → .raise exc ∈ as ∨ Fault s exc

lemma Explained.frame {as : List Action} {a : Action} (h : Explained as s) (hpc : t.pc = s.pc)
    (hraised : t.raised = s.raised) : Explained (as ++ [a]) t := by
  intro exc hexc
  rcases h exc (hraised ▸ hexc) with hmem | hfault
  · exact Or.inl (List.mem_append_left _ hmem)
  · exact Or.inr (hfault.frame hpc)

lemma step_explained {as : List Action} {a : Action} (hinv : Inv (abs s))
    (hconverses : Converses as s) (h : Explained as s) (hstep : step s a = some t) :
    Explained (as ++ [a]) t := by
  cases a with
  | main reply =>
    simp only [step] at hstep
    split at hstep
    · cases hstep
    · rename_i hraised
      intro exc hexc
      exact Or.inr (mainStep_fault hinv hconverses hstep (by simpa using hraised) hexc)
  | raise exc =>
    simp only [step] at hstep
    split at hstep <;> cases hstep
    rintro _ ⟨⟩
    exact Or.inl (by simp)
  | worker i reply =>
    obtain ⟨w, status, -, -, hmove⟩ := workerStep_move hstep
    exact h.frame hmove.pc hmove.raised
  | recorder p act =>
    obtain ⟨disk, -, rfl⟩ := Option.map_eq_some_iff.mp hstep
    exact h.frame rfl rfl

end Faults

/-- An exception that ends the main thread comes from outside, or it is one of the three faults
of the data: no `NameError` and no `RuntimeError` of a thread is ever raised. -/
theorem run_raised {file : Option Audio} {as : List Action} {t : State} {exc : Exc}
    (h : run file as = some t) (ht : t.raised = some exc) : .raise exc ∈ as ∨ Fault t exc := by
  have hexplained : Explained as t := by
    refine Transition.history_of_exec (I := Explained) (by simp [Explained, init]) ?_ h
    intro pre a u v hu ih hstep
    exact step_explained (run_inv hu) (run_converses hu) ih hstep
  exact hexplained exc ht

/-- The main thread of a first pass without a file to read. -/
theorem run_raised_noFile : ∃ t, run none (promptRelease ++ List.replicate 4 (.worker 0 .ok) ++
    [.worker 0 .ok, .worker 0 .ok] ++ List.replicate 6 (.main .ok)) = some t ∧
      Fault t .fileNotFoundError := by
  have h : run none (promptRelease ++ List.replicate 4 (.worker 0 .ok) ++
    [.worker 0 .ok, .worker 0 .ok] ++ List.replicate 6 (.main .ok)) = some _ := rfl
  exact ⟨_, h, (run_raised h rfl).resolve_left (by decide)⟩

/-- How many statements the main thread has before it until the end of the pass, if it stops
listening and speaking at once. -/
def MainPc.left : MainPc → ℕ
  | .newStopRecording => 25
  | .newThread => 24
  | .startThread => 23
  | .waitForRelease => 22
  | .setStopRecording => 21
  | .joinThread => 20
  | .newStopBlinking => 19
  | .newThread2 => 18
  | .startThread2 => 17
  | .speechToText .speechClient => 16
  | .speechToText .openAudioFile => 15
  | .speechToText .readAudioFile => 14
  | .speechToText (.recognize _) => 13
  | .speechToText .awaitResponse => 12
  | .speechToText (.transcribe _ results) => 11 + results.length
  | .printText _ => 10
  | .generateContent _ => 9
  | .printResponse _ => 8
  | .setStopBlinking _ => 7
  | .joinThread2 _ => 6
  | .ledOn _ => 5
  | .ledColor _ => 4
  | .spdSay _ | .sleep => 3
  | .poll => 2
  | .ledOff => 1
  | .waitForPress => 0

/-- The data that the main thread holds does not make it raise an exception. -/
def MainPc.Usable : MainPc → Prop
  | .speechToText (.transcribe _ results) => ∀ result ∈ results, result.alternatives ≠ []
  | .printResponse response => response.text ≠ none
  | _ => True

/-- The main thread has not ended and meets no fault with what it has. -/
structure Usable (s : State) : Prop where
  raised : s.raised = none
  file : s.disk.content ≠ none
  pc : s.pc.Usable

section Completion

variable {s t : State}

lemma speech_enabled {pc : SpeechPc} (h : Usable s) (hpc : s.pc = .speechToText pc) :
    ∃ reply t, speechStep s pc reply = some t ∧ Usable t ∧ t.pc.left < s.pc.left ∧ t.cycle = s.cycle := by
  obtain ⟨hraised, hfile, husable⟩ := h
  rw [hpc] at husable
  rw [hpc]
  cases pc with
  | speechClient | readAudioFile | recognize content =>
    exact ⟨.ok, _, rfl, ⟨hraised, hfile, trivial⟩, by simp [MainPc.left], rfl⟩
  | openAudioFile =>
    cases hcontent : s.disk.content with
    | none => exact absurd hcontent hfile
    | some content =>
      have ht : speechStep s .openAudioFile .ok = some { s with pc := .speechToText .readAudioFile } := by
        simp only [speechStep, hcontent]
      exact ⟨.ok, _, ht, ⟨hraised, hfile, trivial⟩, by simp [MainPc.left], rfl⟩
  | awaitResponse =>
    exact ⟨.results [], _, rfl, ⟨hraised, hfile, by simp [MainPc.Usable]⟩, by simp [MainPc.left], rfl⟩
  | transcribe text results =>
    cases results with
    | nil => exact ⟨.ok, _, rfl, ⟨hraised, hfile, trivial⟩, by simp [MainPc.left], rfl⟩
    | cons result results =>
      cases hresult : result.alternatives with
      | nil => exact absurd hresult (husable result (List.mem_cons_self ..))
      | cons best others =>
        have ht : speechStep s (.transcribe text (result :: results)) .ok =
            some { s with pc := .speechToText (.transcribe (text ++ best.transcript) results) } := by
          simp only [speechStep, hresult]
        refine ⟨.ok, _, ht, ⟨hraised, hfile, ?_⟩, by simp [MainPc.left], rfl⟩
        exact fun other hother => husable other (List.mem_cons_of_mem _ hother)

/-- The main thread can take a step towards the end of its pass, unless it waits for a worker. -/
lemma main_enabled {as : List Action} (hinv : Inv (abs s)) (hconverses : Converses as s)
    (h : Usable s) (hpress : s.pc ≠ .waitForPress) (hawaited : ∀ i, ¬Awaited i s) :
    ∃ reply t, mainStep s reply = some t ∧ Usable t ∧ t.pc.left < s.pc.left ∧ t.cycle = s.cycle := by
  obtain ⟨hraised, hfile, husable⟩ := id h
  -- a statement that goes on to `t`
  have hgo (reply : Reply) (t : State) (ht : mainStep s reply = some t)
      (hraised' : t.raised = s.raised) (hdisk : t.disk = s.disk) (hcycle : t.cycle = s.cycle)
      (hpc : t.pc.Usable) (hlt : t.pc.left < s.pc.left) :
      ∃ reply t, mainStep s reply = some t ∧ Usable t ∧ t.pc.left < s.pc.left ∧ t.cycle = s.cycle :=
    ⟨reply, t, ht, ⟨hraised'.trans hraised, hdisk ▸ hfile, hpc⟩, hlt, hcycle⟩
  obtain ⟨pc, hpc⟩ : ∃ pc, s.pc = pc := ⟨_, rfl⟩
  cases pc with
  | waitForPress => exact absurd hpc hpress
  | newStopRecording =>
    exact hgo .ok { s.newEvent .record with pc := .newThread }
      (by simp only [mainStep, hpc]) rfl rfl rfl trivial (by simp [hpc, MainPc.left])
  | newThread =>
    exact hgo .ok { s.newThread .record with pc := .startThread }
      (by simp only [mainStep, hpc]) rfl rfl rfl trivial (by simp [hpc, MainPc.left])
  | waitForRelease =>
    exact hgo .ok { s with pc := .setStopRecording }
      (by simp only [mainStep, hpc]) rfl rfl rfl trivial (by simp [hpc, MainPc.left])
  | newStopBlinking =>
    exact hgo .ok { s.newEvent .thinkyBlinky with pc := .newThread2 }
      (by simp only [mainStep, hpc]) rfl rfl rfl trivial (by simp [hpc, MainPc.left])
  | newThread2 =>
    exact hgo .ok { s.newThread .thinkyBlinky with pc := .startThread2 }
      (by simp only [mainStep, hpc]) rfl rfl rfl trivial (by simp [hpc, MainPc.left])
  | printText text =>
    exact hgo .ok { s.log s.cycle (.print text) with pc := .generateContent text }
      (by simp only [mainStep, hpc]) rfl rfl rfl trivial (by simp [hpc, MainPc.left])
  | ledOn response =>
    exact hgo .ok { s with led := .on, pc := .ledColor response }
      (by simp only [mainStep, hpc]) rfl rfl rfl trivial (by simp [hpc, MainPc.left])
  | ledColor response =>
    exact hgo .ok { s with led := .speaking, pc := .spdSay response }
      (by simp only [mainStep, hpc]) rfl rfl rfl trivial (by simp [hpc, MainPc.left])
  | sleep =>
    exact hgo .ok { s with pc := .poll }
      (by simp only [mainStep, hpc]) rfl rfl rfl trivial (by simp [hpc, MainPc.left])
  | ledOff =>
    exact hgo .ok { s with led := .off, pc := .waitForPress }
      (by simp only [mainStep, hpc]) rfl rfl rfl trivial (by simp [hpc, MainPc.left])
  | startThread =>
    obtain ⟨i, status, hstart⟩ := start_of_inv .waitForRelease hinv (by rw [hpc]; rfl)
    exact hgo .ok { s.setStatus i status with pc := .waitForRelease }
      (by simp only [mainStep, hpc, hstart]) rfl rfl rfl trivial (by simp [hpc, MainPc.left])
  | startThread2 =>
    obtain ⟨i, status, hstart⟩ := start_of_inv (.speechToText .speechClient) hinv (by rw [hpc]; rfl)
    exact hgo .ok { s.setStatus i status with pc := .speechToText .speechClient }
      (by simp only [mainStep, hpc, hstart]) rfl rfl rfl trivial (by simp [hpc, MainPc.left])
  | setStopRecording =>
    obtain ⟨events, hset⟩ := set_of_inv .joinThread hinv (by rw [hpc]; rfl)
    exact hgo .ok { s with events := events, pc := .joinThread }
      (by simp only [mainStep, hpc, hset]) rfl rfl rfl trivial (by simp [hpc, MainPc.left])
  | setStopBlinking response =>
    obtain ⟨events, hset⟩ := set_of_inv (.joinThread2 response) hinv (by rw [hpc]; rfl)
    exact hgo .ok { s with events := events, pc := .joinThread2 response }
      (by simp only [mainStep, hpc, hset]) rfl rfl rfl trivial (by simp [hpc, MainPc.left])
  | joinThread =>
    rcases join_of_inv .newStopBlinking hinv (by rw [hpc]; rfl) with ⟨i, hi, -⟩ | hjoin
    · exact absurd hi (hawaited i)
    · exact hgo .ok { s with pc := .newStopBlinking } (by simp only [mainStep, hpc, hjoin]) rfl rfl rfl
        trivial (by simp [hpc, MainPc.left])
  | joinThread2 response =>
    rcases join_of_inv (.ledOn response) hinv (by rw [hpc]; rfl) with ⟨i, hi, -⟩ | hjoin
    · exact absurd hi (hawaited i)
    · exact hgo .ok { s with pc := .ledOn response } (by simp only [mainStep, hpc, hjoin]) rfl rfl rfl
        trivial (by simp [hpc, MainPc.left])
  | speechToText pc =>
    obtain ⟨reply, t, ht, hrest⟩ := speech_enabled h hpc
    exact ⟨reply, t, by simpa only [mainStep, hpc] using ht, hrest⟩
  | generateContent text =>
    exact hgo (.response ⟨some ""⟩) { s.log s.cycle (.generateContent text) with pc := .printResponse ⟨some ""⟩ }
      (by simp only [mainStep, hpc]) rfl rfl rfl (by simp [MainPc.Usable])
      (by simp [hpc, MainPc.left])
  | printResponse response =>
    rw [hpc] at husable
    obtain ⟨text, htext⟩ := Option.ne_none_iff_exists'.mp husable
    exact hgo .ok { s.log s.cycle (.print text) with pc := .setStopBlinking response }
      (by simp only [mainStep, hpc, htext]) rfl rfl rfl trivial (by simp [hpc, MainPc.left])
  | spdSay response =>
    obtain ⟨text, htext⟩ := text_of_answering hconverses (by rw [hpc]; rfl)
    exact hgo .ok { s.log s.cycle (.popen (spdSayArgs text)) with pc := .poll }
      (by simp only [mainStep, hpc, htext]) rfl rfl rfl trivial (by simp [hpc, MainPc.left])
  | poll =>
    exact hgo (.returncode (some 0)) { s with pc := .ledOff } (by simp only [mainStep, hpc]) rfl rfl rfl
      trivial (by simp [hpc, MainPc.left])

/-- What the steps of a worker leave as it was. -/
structure SameMain (s t : State) : Prop where
  pc : t.pc = s.pc
  raised : t.raised = s.raised
  cycle : t.cycle = s.cycle
  handle : t.handle = s.handle
  content : t.disk.content = s.disk.content

lemma exec_sameMain {bs : List Action} {i : ℕ} (hbs : ∀ a ∈ bs, a.ofWorker i)
    (h : exec step s bs = some t) : SameMain s t := by
  refine Transition.invariant_of_guarded (I := SameMain s) ⟨rfl, rfl, rfl, rfl, rfl⟩ ?_
    (Transition.guarded_of_forall_mem hbs) h
  intro _ u a v _ hu ha hstep
  cases a with
  | worker j reply =>
    obtain ⟨w, status, -, -, hmove⟩ := workerStep_move hstep
    refine ⟨hmove.pc.trans hu.pc, hmove.raised.trans hu.raised, hmove.cycle.trans hu.cycle, ?_, ?_⟩
    · rw [← hu.handle, hmove.frame]
      funext x
      cases x <;> rfl
    · rw [← hu.content]
      cases hmove.disk with
      | same hdisk => rw [hdisk]
      | spawn hdisk | signal _ hdisk => rw [hdisk]; rfl
  | _ => cases ha

/-- A worker that the main thread waits for can be run to its end. -/
lemma exists_not_awaited {file : Option Audio} {as : List Action} (hs : run file as = some s) :
    ∃ bs t, run file (as ++ bs) = some t ∧ SameMain s t ∧ ∀ i, ¬Awaited i t := by
  by_cases h : ∃ i, Awaited i s
  · obtain ⟨i, hi⟩ := h
    obtain ⟨bs, t, hbs, ht, v, hv, hended⟩ := exists_join hs hi
    obtain ⟨u, hu, hut⟩ := Transition.exec_append_eq_some.mp ht
    have hsu : s = u := Option.mem_unique hs hu
    subst hsu
    have hsame := exec_sameMain hbs hut
    refine ⟨bs, t, ht, hsame, ?_⟩
    rintro j ⟨w, hw, halive, hstage⟩
    obtain ⟨x, hx, hxalive, hxstage⟩ := hi
    have hj := alive_handle (run_inv ht) hw halive
    have hi := alive_handle (run_inv hs) hx hxalive
    have htarget : w.status.target = x.status.target := by
      rw [hsame.pc, hxstage] at hstage
      simpa using hstage.symm
    rw [hsame.handle, htarget, hi] at hj
    cases hj
    have hvw : v = w := Option.mem_unique hv hw
    rw [hvw, Status.not_ended_of_alive halive] at hended
    cases hended
  · exact ⟨[], s, by simpa using hs, ⟨rfl, rfl, rfl, rfl, rfl⟩, not_exists.mp h⟩

/-- From every reachable state in which the main thread meets no fault, the pass can be completed. -/
theorem exists_pass {file : Option Audio} {as : List Action} (hs : run file as = some s)
    (h : Usable s) : ∃ bs t, run file (as ++ bs) = some t ∧ Usable t ∧ t.pc = .waitForPress ∧
      t.cycle = s.cycle := by
  induction hn : s.pc.left using Nat.strong_induction_on generalizing as s with
  | _ n ih =>
    by_cases hpress : s.pc = .waitForPress
    · exact ⟨[], s, by simpa using hs, h, hpress, rfl⟩
    · obtain ⟨bs, t, ht, hsame, hawaited⟩ := exists_not_awaited hs
      have husable : Usable t :=
        ⟨hsame.raised.trans h.raised, hsame.content ▸ h.file, hsame.pc ▸ h.pc⟩
      obtain ⟨reply, u, htu, hu, hlt, hcycle⟩ :=
        main_enabled (run_inv ht) (run_converses ht) husable (hsame.pc ▸ hpress) hawaited
      have hstep : step t (.main reply) = some u := by simpa [step, husable.raised] using htu
      have hrun : run file (as ++ bs ++ [.main reply]) = some u :=
        Transition.exec_concat_eq_some.mpr ⟨t, ht, hstep⟩
      rw [hsame.pc, hn] at hlt
      obtain ⟨cs, v, hv, hvusable, hvpc, hvcycle⟩ := ih u.pc.left hlt hrun hu rfl
      refine ⟨bs ++ .main reply :: cs, v, by simpa using hv, hvusable, hvpc, ?_⟩
      rw [hvcycle, hcycle, hsame.cycle]

theorem exists_pass_promptRelease : ∃ bs t, run (some [9]) (promptRelease ++ bs) = some t ∧ Usable t ∧
    t.pc = .waitForPress ∧ t.cycle = 1 := by
  have hs : run (some [9]) promptRelease = some _ := rfl
  exact exists_pass hs ⟨rfl, by decide, trivial⟩

end Completion

end VoiceButton
