import VoiceButton.Button.Handshake

/-!
# The conversation

Taken without its threads, `button.py` holds a conversation: what was said is recognized,
printed and put to the model, whose answer is printed and spoken. `Exchange` is one finished
pass of it and `Turn` says how far a pass has come at each program point. The calls that the
main thread makes in any run are the finished exchanges in order, followed by the turn that
is under way.
-/

namespace VoiceButton

open Supervision (Inv)
open Transition (exec)

/-- What lines 36-39 make of the results: the best alternatives, put together. It fails if a
result has no alternative. -/
def heard (results : List Result) : Option String :=
  results.foldlM (fun text result => result.alternatives.head?.map (fun best => text ++ best.transcript)) ""

/-- The data of a finished pass: the model was asked what was heard, and it answered. -/
structure Exchange where
  content : Audio
  results : List Result
  text : String
  response : Response
  answer : String
  heard_eq : heard results = some text
  text_eq : response.text = some answer

def Exchange.calls (x : Exchange) : List Call :=
  [.recognize speechConfig x.content, .print x.text, .generateContent x.text, .print x.answer,
    .popen (spdSayArgs x.answer)]

/-- The calls of finished passes, each under the number of its pass. -/
def conversation (past : List Exchange) : List (ℕ × Call) :=
  (past.zipIdx 1).flatMap (fun p => p.1.calls.map (Prod.mk p.2))

/-- The calls of the main thread. The workers make no other call than starting `rec`. -/
def State.said (s : State) : List (ℕ × Call) := s.calls.filter (fun c => c.2 ≠ .popen recArgs)

def Action.results : Action → Option (List Result)
  | .main (.results results) => some results
  | _ => none

def Action.response : Action → Option Response
  | .main (.response response) => some response
  | _ => none

/-- The answer that the main thread holds while it ends the thinking and begins to speak. -/
def MainPc.answering : MainPc → Option Response
  | .setStopBlinking response | .joinThread2 response | .ledOn response | .ledColor response
  | .spdSay response => some response
  | _ => none

def MainPc.speaking : MainPc → Bool
  | .poll | .sleep | .ledOff => true
  | _ => false

/-- At a program point, the calls that the pass has made, and the results of the speech
service and the responses of the model that it has received. -/
inductive Turn : MainPc → List Call → List (List Result) → List Response → Prop
  | listening (pc : MainPc) (hpc : pc.phase ≤ 2) : Turn pc [] [] []
  | recognizing (content : Audio) :
      Turn (.speechToText .awaitResponse) [.recognize speechConfig content] [] []
  | transcribing (content : Audio) (done rest : List Result) (text : String)
      (hheard : heard done = some text) :
      Turn (.speechToText (.transcribe text rest)) [.recognize speechConfig content]
        [done ++ rest] []
  | printing (content : Audio) (results : List Result) (text : String)
      (hheard : heard results = some text) :
      Turn (.printText text) [.recognize speechConfig content] [results] []
  | asking (content : Audio) (results : List Result) (text : String)
      (hheard : heard results = some text) :
      Turn (.generateContent text) [.recognize speechConfig content, .print text] [results] []
  | answered (content : Audio) (results : List Result) (text : String) (response : Response)
      (hheard : heard results = some text) :
      Turn (.printResponse response)
        [.recognize speechConfig content, .print text, .generateContent text] [results] [response]
  | answering (pc : MainPc) (x : Exchange) (hpc : pc.answering = some x.response) :
      Turn pc (x.calls.take 4) [x.results] [x.response]
  | speaking (pc : MainPc) (x : Exchange) (hpc : pc.speaking) :
      Turn pc x.calls [x.results] [x.response]

lemma heard_concat {done : List Result} {text : String} {result : Result} {best : Alternative}
    {others : List Alternative} (h : heard done = some text)
    (hresult : result.alternatives = best :: others) :
    heard (done ++ [result]) = some (text ++ best.transcript) := by
  unfold heard at h ⊢
  rw [List.foldlM_append, h]
  simp [hresult]

lemma conversation_concat (past : List Exchange) (x : Exchange) :
    conversation (past ++ [x]) = conversation past ++ x.calls.map (Prod.mk (past.length + 1)) := by
  simp [conversation, List.zipIdx_append, Nat.add_comm]

lemma numbered_ne_recArgs {k : ℕ} {calls : List Call} (h : ∀ c ∈ calls, c ≠ .popen recArgs) :
    (calls.map (Prod.mk k)).filter (fun c => c.2 ≠ .popen recArgs) = calls.map (Prod.mk k) := by
  apply List.filter_eq_self.mpr
  intro c hc
  obtain ⟨call, hcall, rfl⟩ := List.mem_map.mp hc
  simpa using h call hcall

/-- A step of the main thread takes the turn of its pass further. -/
structure Says (s t : State) (reply : Reply) (said : List Call) (results : List (List Result))
    (responses : List Response) : Prop where
  cycle : t.cycle = s.cycle
  turn : ∃ calls, t.calls = s.calls ++ calls.map (Prod.mk s.cycle) ∧
    (∀ c ∈ calls, c ≠ .popen recArgs) ∧ Turn t.pc (said ++ calls)
      (results ++ (Action.main reply).results.toList) (responses ++ (Action.main reply).response.toList)

section Steps

variable {s t : State} {reply : Reply} {said : List Call} {results : List (List Result)}
  {responses : List Response}

lemma Says.silent (hcycle : t.cycle = s.cycle) (hcalls : t.calls = s.calls)
    (hresults : (Action.main reply).results = none) (hresponse : (Action.main reply).response = none)
    (hturn : Turn t.pc said results responses) : Says s t reply said results responses :=
  ⟨hcycle, [], by simpa using hcalls, by simp, by simpa [hresults, hresponse] using hturn⟩

lemma Says.call (c : Call) (hcycle : t.cycle = s.cycle) (hcalls : t.calls = s.calls ++ [(s.cycle, c)])
    (hc : c ≠ .popen recArgs)
    (hturn : Turn t.pc (said ++ [c]) (results ++ (Action.main reply).results.toList)
      (responses ++ (Action.main reply).response.toList)) : Says s t reply said results responses :=
  ⟨hcycle, [c], hcalls, by simpa using hc, hturn⟩

lemma start_frame (s : State) (x : Target) (next : MainPc) :
    (s.start x next).cycle = s.cycle ∧ (s.start x next).calls = s.calls ∧
      ((s.start x next).pc = next ∨ (s.start x next).pc = s.pc) := by
  unfold State.start
  split
  · exact ⟨rfl, rfl, Or.inr rfl⟩
  · split
    · exact ⟨rfl, rfl, Or.inl rfl⟩
    · exact ⟨rfl, rfl, Or.inr rfl⟩

lemma set_frame (s : State) (x : Target) (next : MainPc) :
    (s.set x next).cycle = s.cycle ∧ (s.set x next).calls = s.calls ∧
      ((s.set x next).pc = next ∨ (s.set x next).pc = s.pc) := by
  unfold State.set
  split
  · exact ⟨rfl, rfl, Or.inr rfl⟩
  · exact ⟨rfl, rfl, Or.inl rfl⟩

lemma join_frame {x : Target} {next : MainPc} (h : s.join x next = some t) :
    t.cycle = s.cycle ∧ t.calls = s.calls ∧ (t.pc = next ∨ t.pc = s.pc) := by
  unfold State.join at h
  split at h
  · cases h
    exact ⟨rfl, rfl, Or.inr rfl⟩
  · split at h
    · cases h
      exact ⟨rfl, rfl, Or.inr rfl⟩
    · split at h <;> cases h
      · exact ⟨rfl, rfl, Or.inr rfl⟩
      · exact ⟨rfl, rfl, Or.inl rfl⟩
      · exact ⟨rfl, rfl, Or.inl rfl⟩

/-- A step before the request is sent, other than sending it, says nothing. -/
lemma listening_says (hcycle : t.cycle = s.cycle) (hcalls : t.calls = s.calls)
    (hpc : t.pc.phase ≤ 2) : Says s t .ok [] [] [] :=
  .silent hcycle hcalls rfl rfl (.listening t.pc hpc)

lemma phase_of_frame {next : MainPc} (h : t.pc = next ∨ t.pc = s.pc) (hnext : next.phase ≤ 2)
    (hs : s.pc.phase ≤ 2) : t.pc.phase ≤ 2 := by
  rcases h with h | h <;> rw [h]
  · exact hnext
  · exact hs

lemma mainStep_listening (h : mainStep s reply = some t) (hpc : s.pc.phase ≤ 2) :
    Says s t reply [] [] [] := by
  cases hs : s.pc with
  | newStopRecording | newThread | newStopBlinking | newThread2 | waitForRelease =>
    cases reply <;> simp only [mainStep, hs, reduceCtorEq] at h
    cases h
    exact listening_says rfl rfl (by simp [MainPc.phase])
  | startThread | startThread2 =>
    cases reply <;> simp only [mainStep, hs, reduceCtorEq] at h
    cases h
    obtain ⟨hcycle, hcalls, hnext⟩ := start_frame s _ _
    exact listening_says hcycle hcalls (phase_of_frame hnext (by decide) hpc)
  | setStopRecording =>
    cases reply <;> simp only [mainStep, hs, reduceCtorEq] at h
    cases h
    obtain ⟨hcycle, hcalls, hnext⟩ := set_frame s _ _
    exact listening_says hcycle hcalls (phase_of_frame hnext (by decide) hpc)
  | joinThread =>
    cases reply <;> simp only [mainStep, hs, reduceCtorEq] at h
    obtain ⟨hcycle, hcalls, hnext⟩ := join_frame h
    exact listening_says hcycle hcalls (phase_of_frame hnext (by decide) hpc)
  | speechToText pc =>
    simp only [mainStep, hs] at h
    cases pc with
    | speechClient | readAudioFile =>
      cases reply <;> simp only [speechStep, reduceCtorEq] at h
      cases h
      exact listening_says rfl rfl (by simp [MainPc.phase])
    | openAudioFile =>
      cases reply <;> simp only [speechStep, reduceCtorEq] at h
      split at h <;> cases h
      · exact listening_says rfl rfl hpc
      · exact listening_says rfl rfl (by simp [MainPc.phase])
    | recognize content =>
      cases reply <;> simp only [speechStep, reduceCtorEq] at h
      cases h
      exact .call _ rfl rfl nofun (.recognizing content)
    | _ => simp [hs, MainPc.phase] at hpc
  | _ => simp [hs, MainPc.phase] at hpc

lemma mainStep_answering {x : Exchange} (h : mainStep s reply = some t)
    (hpc : s.pc.answering = some x.response) :
    Says s t reply (x.calls.take 4) [x.results] [x.response] := by
  have hstays {u : State} (hcycle : u.cycle = s.cycle) (hcalls : u.calls = s.calls)
      (hu : u.pc.answering = some x.response) :
      Says s u .ok (x.calls.take 4) [x.results] [x.response] :=
    .silent hcycle hcalls rfl rfl (.answering u.pc x hu)
  cases hs : s.pc with
  | setStopBlinking response =>
    cases reply <;> simp only [mainStep, hs, reduceCtorEq] at h
    cases h
    obtain ⟨hcycle, hcalls, hnext⟩ := set_frame s .thinkyBlinky (.joinThread2 response)
    refine hstays hcycle hcalls ?_
    rw [hs] at hpc hnext
    rcases hnext with hnext | hnext <;> rw [hnext] <;> exact hpc
  | joinThread2 response =>
    cases reply <;> simp only [mainStep, hs, reduceCtorEq] at h
    obtain ⟨hcycle, hcalls, hnext⟩ := join_frame h
    refine hstays hcycle hcalls ?_
    rw [hs] at hpc hnext
    rcases hnext with hnext | hnext <;> rw [hnext] <;> exact hpc
  | ledOn response | ledColor response =>
    cases reply <;> simp only [mainStep, hs, reduceCtorEq] at h
    cases h
    rw [hs] at hpc
    exact hstays rfl rfl hpc
  | spdSay response =>
    cases reply <;> simp only [mainStep, hs, reduceCtorEq] at h
    have hresponse : response = x.response := by simpa [hs, MainPc.answering] using hpc
    subst hresponse
    simp only [x.text_eq, Option.some.injEq] at h
    subst h
    exact .call _ rfl rfl (by simp [spdSayArgs, recArgs]) (.speaking .poll x rfl)
  | _ => simp [hs, MainPc.answering] at hpc

/-- Each step of the main thread within a pass takes the turn one call further or not at all. -/
lemma mainStep_says (h : mainStep s reply = some t) (hturn : Turn s.pc said results responses)
    (hs : s.pc ≠ .ledOff) : Says s t reply said results responses := by
  generalize hpc : s.pc = pc at hturn
  cases hturn with
  | listening _ hphase => exact mainStep_listening h (hpc ▸ hphase)
  | recognizing content =>
    cases reply <;> simp only [mainStep, hpc, speechStep, reduceCtorEq] at h
    cases h
    exact ⟨rfl, [], by simp, by simp, .transcribing content [] _ "" rfl⟩
  | transcribing content done rest text hheard =>
    cases rest with
    | nil =>
      cases reply <;> simp only [mainStep, hpc, speechStep, reduceCtorEq] at h
      cases h
      rw [List.append_nil]
      exact .silent rfl rfl rfl rfl (.printing content done text hheard)
    | cons result rest =>
      cases reply <;> simp only [mainStep, hpc, speechStep, reduceCtorEq] at h
      split at h <;> cases h
      · exact .silent rfl rfl rfl rfl (hpc ▸ .transcribing content done _ text hheard)
      · rename_i best others hresult
        refine .silent rfl rfl rfl rfl ?_
        rw [List.append_cons]
        exact .transcribing content _ rest _ (heard_concat hheard hresult)
  | printing content results text hheard =>
    cases reply <;> simp only [mainStep, hpc, reduceCtorEq] at h
    cases h
    exact .call _ rfl rfl nofun (.asking content results text hheard)
  | asking content results text hheard =>
    cases reply with
    | response response =>
      simp only [mainStep, hpc, Option.some.injEq] at h
      subst h
      exact .call _ rfl rfl nofun (.answered content results text response hheard)
    | _ => simp only [mainStep, hpc, reduceCtorEq] at h
  | answered content results text response hheard =>
    cases reply <;> simp only [mainStep, hpc, reduceCtorEq] at h
    split at h <;> cases h
    · exact .silent rfl rfl rfl rfl (hpc ▸ .answered content results text response hheard)
    · rename_i answer hanswer
      exact .call _ rfl rfl nofun
        (.answering _ ⟨content, results, text, response, answer, hheard, hanswer⟩ rfl)
  | answering _ x hanswering => exact mainStep_answering h (hpc ▸ hanswering)
  | speaking _ x hspeaking =>
    cases hcase : s.pc with
    | poll =>
      cases reply with
      | returncode code =>
        cases code <;> simp only [mainStep, hcase, Option.some.injEq] at h <;> subst h
        · exact .silent rfl rfl rfl rfl (.speaking .sleep x rfl)
        · exact .silent rfl rfl rfl rfl (.speaking .ledOff x rfl)
      | _ => simp only [mainStep, hcase, reduceCtorEq] at h
    | sleep =>
      cases reply <;> simp only [mainStep, hcase, reduceCtorEq] at h
      cases h
      exact .silent rfl rfl rfl rfl (.speaking .poll x rfl)
    | ledOff => exact absurd hcase hs
    | _ => simp [← hpc, hcase, MainPc.speaking] at hspeaking

end Steps

/-- What the main thread has said at the end of the schedule `as`, in the state `s`: between
two passes only finished exchanges, and else also a part of the one under way. -/
inductive Converses (as : List Action) (s : State) : Prop
  | idle (past : List Exchange) (hpc : s.pc = .waitForPress) (hcycle : s.cycle = past.length)
      (hsaid : s.said = conversation past)
      (hresults : as.filterMap Action.results = past.map Exchange.results)
      (hresponses : as.filterMap Action.response = past.map Exchange.response)
  | turn (past : List Exchange) (said : List Call) (results : List (List Result))
      (responses : List Response) (hcycle : s.cycle = past.length + 1)
      (hsaid : s.said = conversation past ++ said.map (Prod.mk s.cycle))
      (hresults : as.filterMap Action.results = past.map Exchange.results ++ results)
      (hresponses : as.filterMap Action.response = past.map Exchange.response ++ responses)
      (hturn : Turn s.pc said results responses)

lemma filterMap_concat {β : Type*} (f : Action → Option β) (as : List Action) (a : Action) :
    (as ++ [a]).filterMap f = as.filterMap f ++ (f a).toList := by
  rw [List.filterMap_append]
  cases hfa : f a <;> simp [hfa]

/-- A step that is not one of the conversation. -/
lemma Converses.frame {as : List Action} {s t : State} {a : Action} (h : Converses as s)
    (hpc : t.pc = s.pc) (hcycle : t.cycle = s.cycle) (hsaid : t.said = s.said)
    (hresults : a.results = none) (hresponse : a.response = none) : Converses (as ++ [a]) t := by
  have hresults' : (as ++ [a]).filterMap Action.results = as.filterMap Action.results := by
    simp [hresults]
  have hresponses' : (as ++ [a]).filterMap Action.response = as.filterMap Action.response := by
    simp [hresponse]
  cases h with
  | idle past hidle hpast hcalls hresults hresponses =>
    exact .idle past (hpc.trans hidle) (hcycle.trans hpast) (hsaid.trans hcalls)
      (hresults'.trans hresults) (hresponses'.trans hresponses)
  | turn past said results responses hpast hcalls hresults hresponses hturn =>
    refine .turn past said results responses (hcycle.trans hpast) ?_ (hresults'.trans hresults)
      (hresponses'.trans hresponses) (hpc ▸ hturn)
    rw [hsaid, hcycle]
    exact hcalls

lemma mainStep_converses {as : List Action} {s t : State} {reply : Reply} (h : Converses as s)
    (hstep : mainStep s reply = some t) : Converses (as ++ [.main reply]) t := by
  cases h with
  | idle past hpc hpast hsaid hresults hresponses =>
    cases reply <;> simp only [mainStep, hpc, reduceCtorEq] at hstep
    cases hstep
    refine .turn past [] [] [] (congrArg (· + 1) hpast) ?_ ?_ ?_ (.listening _ (by simp [MainPc.phase]))
    · rw [List.map_nil, List.append_nil]
      exact hsaid
    · rw [filterMap_concat, hresults]
      rfl
    · rw [filterMap_concat, hresponses]
      rfl
  | turn past said results responses hpast hsaid hresults hresponses hturn =>
    by_cases hledOff : s.pc = .ledOff
    · cases reply <;> simp only [mainStep, hledOff, reduceCtorEq] at hstep
      cases hstep
      rw [hledOff] at hturn
      generalize hpc : MainPc.ledOff = pc at hturn
      cases hturn with
      | listening _ hphase => simp [← hpc, MainPc.phase] at hphase
      | answering _ _ hanswering => simp [← hpc, MainPc.answering] at hanswering
      | speaking _ x =>
        refine .idle (past ++ [x]) rfl (by simpa using hpast) ?_ ?_ ?_
        · rw [conversation_concat, ← hpast]
          exact hsaid
        · rw [filterMap_concat, hresults, List.map_append]
          exact List.append_nil _
        · rw [filterMap_concat, hresponses, List.map_append]
          exact List.append_nil _
      | _ => cases hpc
    · obtain ⟨hcycle, calls, hcalls, hown, hturn'⟩ := mainStep_says hstep hturn hledOff
      refine .turn past _ _ _ (hcycle.trans hpast) ?_ ?_ ?_ hturn'
      · have hsaid' : t.said = s.said ++ calls.map (Prod.mk s.cycle) := by
          rw [State.said, hcalls, List.filter_append, numbered_ne_recArgs hown]
          rfl
        rw [hsaid', hsaid, hcycle, List.map_append, List.append_assoc]
      · rw [filterMap_concat, hresults, List.append_assoc]
      · rw [filterMap_concat, hresponses, List.append_assoc]

lemma step_converses {as : List Action} {s t : State} {a : Action} (h : Converses as s)
    (hstep : step s a = some t) : Converses (as ++ [a]) t := by
  cases a with
  | main reply =>
    simp only [step] at hstep
    split at hstep
    · cases hstep
    · exact mainStep_converses h hstep
  | raise exc =>
    simp only [step] at hstep
    split at hstep <;> cases hstep
    exact h.frame rfl rfl rfl rfl rfl
  | worker i reply =>
    obtain ⟨w, status, -, -, hmove⟩ := workerStep_move hstep
    refine h.frame hmove.pc hmove.cycle ?_ rfl rfl
    cases hmove.disk with
    | same _ hcalls | signal _ _ hcalls => rw [State.said, hcalls, State.said]
    | spawn _ hcalls => simp [State.said, hcalls]
  | recorder p act =>
    obtain ⟨disk, -, rfl⟩ := Option.map_eq_some_iff.mp hstep
    exact h.frame rfl rfl rfl rfl rfl

theorem run_converses {file : Option Audio} {as : List Action} {t : State}
    (h : run file as = some t) : Converses as t := by
  refine Transition.history_of_exec (I := Converses) ?_ ?_ h
  · exact .idle [] rfl rfl rfl rfl rfl
  · intro pre a u v _ hconverses hstep
    exact step_converses hconverses hstep

/-- In every run the main thread holds a conversation: pass after pass it sends a recording,
prints and asks what was heard, prints the answer and speaks it. It says nothing else, nothing
twice and nothing out of order, and it uses the results and responses in the order in which
it received them. -/
theorem run_conversation {file : Option Audio} {as : List Action} {t : State}
    (h : run file as = some t) :
    ∃ (past : List Exchange) (said : List Call) (results : List (List Result))
      (responses : List Response),
      t.said = conversation past ++ said.map (Prod.mk t.cycle) ∧
      as.filterMap Action.results = past.map Exchange.results ++ results ∧
      as.filterMap Action.response = past.map Exchange.response ++ responses ∧
      (t.cycle = past.length ∧ t.pc = .waitForPress ∧ said = [] ∧ results = [] ∧ responses = [] ∨
        t.cycle = past.length + 1 ∧ Turn t.pc said results responses) := by
  cases run_converses h with
  | idle past hpc hcycle hsaid hresults hresponses =>
    exact ⟨past, [], [], [], by simpa using hsaid, by simpa using hresults, by simpa using hresponses,
      Or.inl ⟨hcycle, hpc, rfl, rfl, rfl⟩⟩
  | turn past said results responses hcycle hsaid hresults hresponses hturn =>
    exact ⟨past, said, results, responses, hsaid, hresults, hresponses, Or.inr ⟨hcycle, hturn⟩⟩

theorem run_conversation_hello : ∃ t, run none helloSchedule = some t ∧ t.cycle = 1 ∧
    ∃ (past : List Exchange) (said : List Call) (results : List (List Result))
      (responses : List Response),
      t.said = conversation past ++ said.map (Prod.mk t.cycle) ∧
      helloSchedule.filterMap Action.results = past.map Exchange.results ++ results ∧
      helloSchedule.filterMap Action.response = past.map Exchange.response ++ responses ∧
      (t.cycle = past.length ∧ t.pc = .waitForPress ∧ said = [] ∧ results = [] ∧ responses = [] ∨
        t.cycle = past.length + 1 ∧ Turn t.pc said results responses) := by
  have h : run none helloSchedule = some _ := rfl
  exact ⟨_, h, rfl, run_conversation h⟩

end VoiceButton
