import VoiceButton.Button.State
import VoiceButton.Library.Transition

/-!
# The steps of `button.py`

Each step of the main thread, of a worker and of a `rec` process is one action. The action
names what the surroundings decide: which thread runs, what an external call returns,
whether it raises, and when the button lets a wait return.
-/

namespace VoiceButton

open Supervision (Event isSet)
open Transition (exec)

/-- What a call of the main thread returns. -/
inductive Reply
  | ok
  | results (results : List Result)
  | response (response : Response)
  | returncode (code : Option ℤ)
  deriving DecidableEq

/-- What the surroundings of a worker decide. -/
inductive WorkerReply
  | ok
  | choice (color : Color)
  | popenFails
  deriving DecidableEq

inductive Action
  | main (reply : Reply)
  | raise (exc : Exc)
  | worker (i : ℕ) (reply : WorkerReply)
  | recorder (p : ℕ) (act : SharedFile.Act UInt8)
  deriving DecidableEq

namespace State

def raise (s : State) (exc : Exc) : State := { s with raised := some exc }

def setStatus (s : State) (i : ℕ) (status : Status) : State :=
  { s with threads := s.threads.modify i (fun w => { w with status := status }) }

/-- `stop_recording = threading.Event()` and `stop_blinking = threading.Event()`. -/
def newEvent (s : State) (x : Target) : State :=
  let events := s.events ++ [⟨s.cycle, false⟩]
  match x with
  | .record => { s with events := events, stopRecording := some s.events.length }
  | .thinkyBlinky => { s with events := events, stopBlinking := some s.events.length }

/-- `thread = threading.Thread(target=record)` and `thread2 = ...`. -/
def newThread (s : State) (x : Target) : State :=
  let threads := s.threads ++ [⟨s.stop x, s.cycle, .initial x⟩]
  match x with
  | .record => { s with threads := threads, thread := some s.threads.length }
  | .thinkyBlinky => { s with threads := threads, thread2 := some s.threads.length }

/-- `thread.start()` and `thread2.start()`. A thread can be started once. -/
def start (s : State) (x : Target) (next : MainPc) : State :=
  match s.handle x with
  | none => s.raise .nameError
  | some i =>
    match s.threads[i]? with
    | some ⟨_, _, .initial target⟩ => { s.setStatus i target.entry with pc := next }
    | _ => s.raise .runtimeError

/-- `stop_recording.set()` and `stop_blinking.set()`. -/
def set (s : State) (x : Target) (next : MainPc) : State :=
  match s.stop x with
  | none => s.raise .nameError
  | some e => { s with events := s.events.modify e Event.set, pc := next }

/-- `thread.join()` and `thread2.join()`, which wait until the thread has ended. -/
def join (s : State) (x : Target) (next : MainPc) : Option State :=
  match s.handle x with
  | none => some (s.raise .nameError)
  | some i =>
    match s.threads[i]? with
    | none => some (s.raise .runtimeError)
    | some w =>
      match w.status with
      | .initial _ => some (s.raise .runtimeError)
      | .finished _ | .crashed _ => some { s with pc := next }
      | .record _ | .thinkyBlinky _ => none

/-- What `f.read()` returns. -/
def audio (s : State) : Audio := s.disk.content.getD []

/-- A call that leaves the program, made in pass `cycle` of the main loop. -/
def log (s : State) (cycle : ℕ) (call : Call) : State := { s with calls := s.calls ++ [(cycle, call)] }

end State

def speechConfig : RecognitionConfig where
  languageCode := "en"
  encoding := .flac
  sampleRateHertz := 48000
  audioChannelCount := 2

def recArgs : List String := ["rec", audioFile, "rate", "48k"]

def spdSayArgs (text : String) : List String :=
  ["spd-say", "--wait", "--volume", "+100", "\"" ++ text ++ "\""]

/-- `speech_to_text`. -/
def speechStep (s : State) : SpeechPc → Reply → Option State
  | .speechClient, .ok => some { s with pc := .speechToText .openAudioFile }
  | .openAudioFile, .ok =>
    match s.disk.content with
    | none => some (s.raise .fileNotFoundError)
    | some _ => some { s with pc := .speechToText .readAudioFile }
  | .readAudioFile, .ok => some { s with pc := .speechToText (.recognize s.audio) }
  | .recognize content, .ok =>
    some { s.log s.cycle (.recognize speechConfig content) with pc := .speechToText .awaitResponse }
  | .awaitResponse, .results results => some { s with pc := .speechToText (.transcribe "" results) }
  | .transcribe transcript (result :: results), .ok =>
    match result.alternatives with
    | [] => some (s.raise .indexError)
    | best :: _ =>
      some { s with pc := .speechToText (.transcribe (transcript ++ best.transcript) results) }
  | .transcribe transcript [], .ok => some { s with pc := .printText transcript }
  | _, _ => none

/-- The main loop. -/
def mainStep (s : State) (reply : Reply) : Option State :=
  match s.pc, reply with
  | .waitForPress, .ok => some { s with pc := .newStopRecording, cycle := s.cycle + 1 }
  | .newStopRecording, .ok => some { s.newEvent .record with pc := .newThread }
  | .newThread, .ok => some { s.newThread .record with pc := .startThread }
  | .startThread, .ok => some (s.start .record .waitForRelease)
  | .waitForRelease, .ok => some { s with pc := .setStopRecording }
  | .setStopRecording, .ok => some (s.set .record .joinThread)
  | .joinThread, .ok => s.join .record .newStopBlinking
  | .newStopBlinking, .ok => some { s.newEvent .thinkyBlinky with pc := .newThread2 }
  | .newThread2, .ok => some { s.newThread .thinkyBlinky with pc := .startThread2 }
  | .startThread2, .ok => some (s.start .thinkyBlinky (.speechToText .speechClient))
  | .speechToText pc, reply => speechStep s pc reply
  | .printText text, .ok => some { s.log s.cycle (.print text) with pc := .generateContent text }
  | .generateContent text, .response response =>
    some { s.log s.cycle (.generateContent text) with pc := .printResponse response }
  | .printResponse response, .ok =>
    match response.text with
    | none => some (s.raise .valueError)
    | some text => some { s.log s.cycle (.print text) with pc := .setStopBlinking response }
  | .setStopBlinking response, .ok => some (s.set .thinkyBlinky (.joinThread2 response))
  | .joinThread2 response, .ok => s.join .thinkyBlinky (.ledOn response)
  | .ledOn response, .ok => some { s with led := .on, pc := .ledColor response }
  | .ledColor response, .ok => some { s with led := .speaking, pc := .spdSay response }
  | .spdSay response, .ok =>
    match response.text with
    | none => some (s.raise .valueError)
    | some text => some { s.log s.cycle (.popen (spdSayArgs text)) with pc := .poll }
  | .poll, .returncode none => some { s with pc := .sleep }
  | .poll, .returncode (some _) => some { s with pc := .ledOff }
  | .sleep, .ok => some { s with pc := .poll }
  | .ledOff, .ok => some { s with led := .off, pc := .waitForPress }
  | _, _ => none

/-- `record`, run by thread `i`, which pass `cycle` of the main loop made. -/
def recordStep (s : State) (i cycle : ℕ) : RecordPc → WorkerReply → Option State
  | .ledOn, .ok => some { s.setStatus i (.record .ledColor) with led := .on }
  | .ledColor, .ok => some { s.setStatus i (.record .popen) with led := .recording }
  | .popen, .ok =>
    some { (s.setStatus i (.record (.isSet s.disk.writers.length))).log cycle (.popen recArgs) with
      disk := s.disk.spawn cycle }
  | .popen, .popenFails => some (s.setStatus i (.crashed .record))
  | .isSet process, .ok =>
    match isSet s.events s.stopRecording with
    | none => some (s.setStatus i (.crashed .record))
    | some true => some (s.setStatus i (.record (.terminate process)))
    | some false => some (s.setStatus i (.record (.sleep process)))
  | .sleep process, .ok => some (s.setStatus i (.record (.isSet process)))
  | .terminate process, .ok =>
    some { s.setStatus i (.record .ledOff) with disk := s.disk.signal process }
  | .ledOff, .ok => some { s.setStatus i (.finished .record) with led := .off }
  | _, _ => none

/-- `thinky_blinky`, run by thread `i`. -/
def thinkyBlinkyStep (s : State) (i : ℕ) : ThinkyBlinkyPc → WorkerReply → Option State
  | .ledOn, .ok => some { s.setStatus i (.thinkyBlinky .isSet) with led := .on }
  | .isSet, .ok =>
    match isSet s.events s.stopBlinking with
    | none => some (s.setStatus i (.crashed .thinkyBlinky))
    | some true => some (s.setStatus i (.thinkyBlinky .ledOff))
    | some false => some (s.setStatus i (.thinkyBlinky .ledColor))
  | .ledColor, .choice color =>
    if color ∈ colors then some { s.setStatus i (.thinkyBlinky .sleep) with led := color } else none
  | .sleep, .ok => some (s.setStatus i (.thinkyBlinky .isSet))
  | .ledOff, .ok => some { s.setStatus i (.finished .thinkyBlinky) with led := .off }
  | _, _ => none

/-- A step of thread `i`, if it is alive. -/
def workerStep (s : State) (i : ℕ) (reply : WorkerReply) : Option State :=
  match s.threads[i]? with
  | some ⟨_, cycle, .record pc⟩ => recordStep s i cycle pc reply
  | some ⟨_, _, .thinkyBlinky pc⟩ => thinkyBlinkyStep s i pc reply
  | _ => none

/-- One step of the program. An interrupt may reach the main thread at any point, and the
workers and the `rec` processes go on when the main thread has ended. -/
def step (s : State) : Action → Option State
  | .main reply => if s.raised.isSome then none else mainStep s reply
  | .raise exc => if s.raised.isSome then none else some (s.raise exc)
  | .worker i reply => workerStep s i reply
  | .recorder p act => (s.disk.act p act).map (fun disk => { s with disk := disk })

/-- The state after the schedule `as`, from the start of the program. -/
def run (file : Option Audio) (as : List Action) : Option State := exec step (init file) as

/-- A first pass, in which the answer to "hello world" is "hi". -/
def helloSchedule : List Action :=
  [.main .ok, .main .ok, .main .ok, .main .ok, .worker 0 .ok, .worker 0 .ok, .worker 0 .ok,
    .worker 0 .ok, .recorder 0 .openFile, .main .ok, .main .ok, .worker 0 .ok, .worker 0 .ok,
    .worker 0 .ok, .worker 0 .ok, .main .ok, .main .ok, .main .ok, .main .ok, .worker 1 .ok,
    .worker 1 .ok, .main .ok, .main .ok, .main .ok, .main .ok,
    .main (.results [⟨[⟨"hello"⟩]⟩, ⟨[⟨" world"⟩, ⟨" word"⟩]⟩]), .main .ok, .main .ok, .main .ok,
    .main .ok, .main (.response ⟨some "hi"⟩), .main .ok, .main .ok, .worker 1 (.choice .recording),
    .worker 1 .ok, .worker 1 .ok, .worker 1 .ok, .main .ok, .main .ok, .main .ok, .main .ok,
    .main (.returncode none), .main .ok, .main (.returncode (some 0)), .main .ok]

end VoiceButton
