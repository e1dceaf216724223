import VoiceButton.Library.SharedFile
import VoiceButton.Library.Supervision
import Mathlib.Data.Rat.Defs

/-!
# The state of `button.py`

Program points of the main thread and of the two worker functions, the objects they make
and the devices they share. A program point carries the values that its thread still
holds. The numbers in the comments are the lines of `button.py`.
-/

namespace VoiceButton

open Supervision (Event Stage)
open SharedFile (Disk)

/-- The value of the RGB LED, one channel per component. -/
structure Color where
  red : ℚ
  green : ℚ
  blue : ℚ
  deriving DecidableEq

/-- `led.on()` and `led.off()` set all channels. -/
def Color.on : Color := ⟨1, 1, 1⟩
def Color.off : Color := ⟨0, 0, 0⟩

def Color.recording : Color := ⟨1, 0, 0⟩
def Color.speaking : Color := ⟨0, 0.2, 1⟩

/-- The choices of `thinky_blinky`. -/
def colors : List Color :=
  [⟨0, 0, 0⟩, ⟨1, 0, 0⟩, ⟨1, 1, 0⟩, ⟨1, 0, 1⟩, ⟨0, 1, 0⟩, ⟨0, 1, 1⟩, ⟨1, 1, 1⟩]

def audioFile : String := "user.flac"

abbrev Audio := List UInt8

inductive AudioEncoding
  | flac
  deriving DecidableEq

structure RecognitionConfig where
  languageCode : String
  encoding : AudioEncoding
  sampleRateHertz : ℕ
  audioChannelCount : ℕ
  deriving DecidableEq

structure Alternative where
  transcript : String
  deriving DecidableEq

/-- One entry of `response.results`. -/
structure Result where
  alternatives : List Alternative
  deriving DecidableEq

/-- The model's answer. Reading `text` raises a `ValueError` if the answer was blocked. -/
structure Response where
  text : Option String
  deriving DecidableEq

inductive Exc
  | keyboardInterrupt
  | fileNotFoundError
  | indexError
  | valueError
  | nameError
  | runtimeError
  | other
  deriving DecidableEq

/-- The functions that run in a thread of their own. -/
inductive Target
  | record
  | thinkyBlinky
  deriving DecidableEq

/-- `record`, lines 44-54. -/
inductive RecordPc
  | ledOn -- 45
  | ledColor -- 46
  | popen -- 48
  | isSet (process : ℕ) -- 50
  | sleep (process : ℕ) -- 52
  | terminate (process : ℕ) -- 53
  | ledOff -- 54
  deriving DecidableEq

/-- `thinky_blinky`, lines 56-71. -/
inductive ThinkyBlinkyPc
  | ledOn -- 67
  | isSet -- 68
  | ledColor -- 69
  | sleep -- 70
  | ledOff -- 71
  deriving DecidableEq

/-- A thread before, in and after its target function. -/
inductive Status
  | initial (target : Target)
  | record (pc : RecordPc)
  | thinkyBlinky (pc : ThinkyBlinkyPc)
  | finished (target : Target)
  | crashed (target : Target)
  deriving DecidableEq

def Target.entry : Target → Status
  | .record => .record .ledOn
  | .thinkyBlinky => .thinkyBlinky .ledOn

def Status.target : Status → Target
  | .initial target | .finished target | .crashed target => target
  | .record _ => .record
  | .thinkyBlinky _ => .thinkyBlinky

/-- `is_alive()`: the thread was started and its target function has not returned. -/
def Status.alive : Status → Bool
  | .record _ | .thinkyBlinky _ => true
  | _ => false

/-- A `Thread` object. The code reads neither `stop`, the event that was bound when the
thread was made, nor `cycle`, the pass of the main loop that made it. -/
structure Thread where
  stop : Option ℕ
  cycle : ℕ
  status : Status
  deriving DecidableEq

/-- `speech_to_text`, lines 23-39. -/
inductive SpeechPc
  | speechClient -- 24
  | openAudioFile -- 26
  | readAudioFile -- 27
  | recognize (content : Audio) -- 28-35, until the request is out
  | awaitResponse -- 35
  | transcribe (transcript : String) (results : List Result) -- 37-39
  deriving DecidableEq

/-- The main loop, lines 73-97. -/
inductive MainPc
  | waitForPress -- 74
  | newStopRecording -- 75
  | newThread -- 76
  | startThread -- 77
  | waitForRelease -- 78
  | setStopRecording -- 79
  | joinThread -- 80
  | newStopBlinking -- 81
  | newThread2 -- 82
  | startThread2 -- 83
  | speechToText (pc : SpeechPc) -- 86
  | printText (text : String) -- 87
  | generateContent (text : String) -- 88
  | printResponse (response : Response) -- 89
  | setStopBlinking (response : Response) -- 90
  | joinThread2 (response : Response) -- 91
  | ledOn (response : Response) -- 92
  | ledColor (response : Response) -- 93
  | spdSay (response : Response) -- 94
  | poll -- 95
  | sleep -- 96
  | ledOff -- 97
  deriving DecidableEq

/-- The calls that leave the program, with what they pass on. -/
inductive Call
  | popen (args : List String)
  | recognize (config : RecognitionConfig) (content : Audio)
  | generateContent (text : String)
  | print (text : String)
  deriving DecidableEq

/-- `raised` is the exception that ended the main thread, which then stays at the program
point that raised it. `cycle` counts the passes of the main loop, and `calls` has each call
under the pass that made it. `disk` is `audio_file` with the `rec` processes. -/
structure State where
  pc : MainPc
  raised : Option Exc
  cycle : ℕ
  stopRecording : Option ℕ
  stopBlinking : Option ℕ
  thread : Option ℕ
  thread2 : Option ℕ
  events : List Event
  threads : List Thread
  led : Color
  disk : Disk UInt8
  calls : List (ℕ × Call)
  deriving DecidableEq

/-- The program at line 73. The audio file may be left from an earlier run. -/
def init (file : Option Audio) : State where
  pc := .waitForPress
  raised := none
  cycle := 0
  stopRecording := none
  stopBlinking := none
  thread := none
  thread2 := none
  events := []
  threads := []
  led := .off
  disk := ⟨file, []⟩
  calls := []

/-- The global variable that `target` asks whether to stop. -/
def State.stop (s : State) : Target → Option ℕ
  | .record => s.stopRecording
  | .thinkyBlinky => s.stopBlinking

/-- The global variable that holds the thread of `target`. -/
def State.handle (s : State) : Target → Option ℕ
  | .record => s.thread
  | .thinkyBlinky => s.thread2

/-- The worker that the main thread deals with at a program point, and how far it is. -/
def MainPc.stage : MainPc → Option (Target × Stage)
  | .newThread => some (.record, .armed)
  | .startThread => some (.record, .made)
  | .waitForRelease | .setStopRecording => some (.record, .started)
  | .joinThread => some (.record, .told)
  | .newThread2 => some (.thinkyBlinky, .armed)
  | .startThread2 => some (.thinkyBlinky, .made)
  | .speechToText _ | .printText _ | .generateContent _ | .printResponse _ | .setStopBlinking _ =>
    some (.thinkyBlinky, .started)
  | .joinThread2 _ => some (.thinkyBlinky, .told)
  | _ => none

end VoiceButton
