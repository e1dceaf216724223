import VoiceButton.Library.Transition
import VoiceButton.Library.MachineInt

/-!
# The alert thread of `lgPthAlerts.c`

One thread reports the edges of all GPIO. In a pass it lists the active records, reads the events of
each one, lets the debounce and watchdog times of each one end, sorts the reports by time, and emits
those that are 500 microseconds old. When no record is active it waits for a signal. Other threads
create records, set them inactive, and change their times.

Every lock is left between two steps here: the thread processes one record at a time, and a caller
that has changed the records signals the thread later. The ids of the records, their calls, the
reports of each record and the emitted reports are not in the source. `malloc` is taken to succeed,
and the memory that it gives is arbitrary.
-/

namespace Lg

open MachineInt (int32 int64 uint64)
open Transition (exec)

/-- `LG_MAX_ALERTS`. -/
def maxAlerts : ℕ := 2000

/-- `LG_BOTH_EDGES`. -/
def bothEdges : ℤ := 3

/-- `LG_TIMEOUT`. -/
def timeout : ℤ := 2

/-- What a `lgChipObj_t` says about its chip. -/
structure Chip where
  handle : ℕ
  gpiochip : ℕ
  deriving DecidableEq

/-- What `lgLineInf_t` says about the alerts of its GPIO. -/
structure LineInf where
  eFlags : ℤ
  debounceUs : ℤ
  watchdogUs : ℤ

/-- `GPIO_V2_LINE_EVENT_RISING_EDGE` and `GPIO_V2_LINE_EVENT_FALLING_EDGE`. -/
inductive EdgeId
  | rising
  | falling
  deriving DecidableEq

/-- `2 - ep->id`. -/
def EdgeId.level : EdgeId → ℤ
  | .rising => 1
  | .falling => 0

/-- `gpio_v2_line_event`. -/
structure LineEvent where
  timestampNs : ℤ
  id : EdgeId

/-- `lgGpioReport_t`. -/
structure Report where
  timestamp : ℤ
  level : ℤ
  chip : ℕ
  gpio : ℕ
  flags : ℕ
  deriving DecidableEq

/-- `lgGpioAlert_t`. -/
structure Alert where
  report : Report
  nfyHandle : ℤ
  deriving DecidableEq

/-- `lgAlertRec_t`. -/
structure AlertRec where
  id : ℕ
  lastRptTs : ℤ
  lastEvtTs : ℤ
  debounceNanos : ℤ
  watchdogNanos : ℤ
  lastEvtLv : ℤ
  lastRptLv : ℤ
  debounced : Bool
  watchdogd : Bool
  eFlags : ℤ
  gpio : ℕ
  nfyHandle : ℤ
  active : Bool
  chip : Chip

/-- A record after a call, the reports that the call has put into `aBuf`, and how often it has
logged that there were more than `LG_MAX_ALERTS`. -/
structure Called where
  after : AlertRec
  alerts : List Alert
  dropped : ℕ

namespace AlertRec

/-- The entry of `aBuf` for a report of the record. -/
def alert (p : AlertRec) (timestamp level : ℤ) : Alert :=
  ⟨⟨uint64 timestamp, level, p.chip.gpiochip, p.gpio, 0⟩, p.nfyHandle⟩

/-- `if (++(*cp) < LG_MAX_ALERTS)`, where `q` is the record after the report. -/
def put (p q : AlertRec) (count : ℕ) (a : Alert) : Called :=
  if count + 1 < maxAlerts then ⟨q, [a], 0⟩ else ⟨p, [], 1⟩

/-- The time of the report of a stable edge, and of a watchdog report. -/
def debounceEnd (p : AlertRec) : ℤ := p.lastEvtTs + p.debounceNanos

def watchdogEnd (p : AlertRec) : ℤ := p.lastRptTs + p.watchdogNanos

/-- A stable edge is reported unless both edges are monitored and its level is the last one. -/
def Differs (p : AlertRec) : Prop := p.eFlags ≠ bothEdges ∨ p.lastRptLv ≠ p.lastEvtLv

instance (p : AlertRec) : Decidable p.Differs := by unfold Differs; infer_instance

/-- The record after the report of a stable edge. -/
def edgeReported (p : AlertRec) : AlertRec :=
  { p with
    lastRptTs := uint64 p.debounceEnd
    lastRptLv := p.lastEvtLv
    debounced := true
    watchdogd := false }

/-- The debounce part of `xDebWatEvt`. -/
def debounce (p : AlertRec) (ts : ℤ) (count : ℕ) : Called :=
  if p.debounceNanos ≠ 0 ∧ p.debounced = false then
    if int64 (ts - p.lastEvtTs) > p.debounceNanos then
      if p.Differs then p.put p.edgeReported count (p.alert p.debounceEnd p.lastEvtLv) else ⟨p, [], 0⟩
    else ⟨p, [], 0⟩
  else ⟨p, [], 0⟩

/-- The record after a watchdog report. -/
def timeoutReported (p : AlertRec) : AlertRec :=
  { p with
    watchdogd := true
    lastRptTs := uint64 p.watchdogEnd
    lastRptLv := timeout }

/-- The watchdog part of `xDebWatEvt`. -/
def watchdog (p : AlertRec) (ts : ℤ) (count : ℕ) : Called :=
  if p.watchdogNanos ≠ 0 ∧ p.watchdogd = false then
    if int64 (ts - p.lastRptTs) > p.watchdogNanos then
      p.put p.timeoutReported count (p.alert p.watchdogEnd timeout)
    else ⟨p, [], 0⟩
  else ⟨p, [], 0⟩

/-- The record after an event, and after the report of it. -/
def gotEvent (p : AlertRec) (ts : ℤ) (ep : EdgeId) : AlertRec :=
  { p with lastEvtTs := ts, lastEvtLv := ep.level, debounced := false }

def eventReported (p : AlertRec) : AlertRec :=
  { p with watchdogd := false, lastRptTs := p.lastEvtTs, lastRptLv := p.lastEvtLv }

/-- The part of `xDebWatEvt` for an event, which is reported at once if there is no debounce. -/
def event (p : AlertRec) (ts : ℤ) (ep : EdgeId) (count : ℕ) : Called :=
  let q := p.gotEvent ts ep
  if p.debounceNanos = 0 then q.put q.eventReported count (p.alert ts ep.level) else ⟨q, [], 0⟩

def xDebWatEvt (p : AlertRec) (ts : ℤ) (count : ℕ) (ep : Option EdgeId) : Called :=
  let d := p.debounce ts count
  let w := d.after.watchdog ts (count + d.alerts.length)
  let e := match ep with
    | some ep => w.after.event ts ep (count + d.alerts.length + w.alerts.length)
    | none => ⟨w.after, [], 0⟩
  ⟨e.after, d.alerts ++ w.alerts ++ e.alerts, d.dropped + w.dropped + e.dropped⟩

end AlertRec

/-- What is done to a record: `xDebWatEvt` with and without an event, the end of a read, and new
times. -/
inductive AlertCall
  | event (ts : ℤ) (ep : EdgeId)
  | poll (ts : ℤ)
  | readEnd (ts : ℤ)
  | setDebounce (debounceUs : ℤ)
  | setWatchdog (watchdogUs : ℤ)
  deriving DecidableEq

def AlertRec.call (p : AlertRec) (count : ℕ) : AlertCall → Called
  | .event ts ep => p.xDebWatEvt ts count (some ep)
  | .poll ts => p.xDebWatEvt ts count none
  | .readEnd ts => ⟨{ p with lastRptTs := ts }, [], 0⟩
  | .setDebounce debounceUs => ⟨{ p with debounceNanos := debounceUs * 1000 }, [], 0⟩
  | .setWatchdog watchdogUs => ⟨{ p with watchdogNanos := watchdogUs * 1000 }, [], 0⟩

/-- The points of `lgPthAlert` between its steps. -/
inductive AlertPoint
  | scan
  | poll (polled : List ℕ)
  | read (polled todo : List ℕ) (nowLT : ℤ)
  | time (todo : List ℕ) (nowGT : ℤ)
  | emit (nowGT : ℤ)
  | empty
  | wait
  deriving DecidableEq

/-- The state of the alerts: `alertRec`, the used part of `aBuf`, `lastGT` and `lastLT`, the point of
the thread, and the number of callers that are about to signal it. -/
structure Alerts where
  recs : List AlertRec
  aBuf : List Alert
  lastGT : ℤ
  lastLT : ℤ
  point : AlertPoint
  signals : ℕ
  made : List AlertRec
  calls : List (ℕ × AlertCall)
  reports : List (ℕ × Alert)
  emitted : List Alert
  dropped : ℕ

def tscomp (e1 e2 : Alert) : ℤ := int32 (uint64 (e1.report.timestamp - e2.report.timestamp))

/-- A `qsort` with `tscomp`. Its result is in order if the comparison is one on the elements. -/
structure Qsort where
  sort : List Alert → List Alert
  perm : ∀ l, (sort l).Perm l
  sorted : ∀ l : List Alert, (∀ a ∈ l, ∀ b ∈ l, tscomp a b ≤ 0 ∨ tscomp b a ≤ 0) →
    (∀ a ∈ l, ∀ b ∈ l, ∀ c ∈ l, tscomp a b ≤ 0 → tscomp b c ≤ 0 → tscomp a c ≤ 0) →
    (sort l).Pairwise (fun a b => tscomp a b ≤ 0)

/-- The loop that lists the active records. `first` says that the record has no `prev`, and when such
a record is deleted the loop ends. -/
def scanAlerts (first : Bool) : List AlertRec → List AlertRec × List ℕ
  | [] => ([], [])
  | p :: rest =>
    if p.active then
      let (recs, polled) := scanAlerts false rest
      (p :: recs, p.id :: polled)
    else if first then (rest, [])
    else scanAlerts false rest

namespace Alerts

/-- A call for a record, which is the one with its id. -/
def called (s : Alerts) (p : AlertRec) (c : AlertCall) : Alerts :=
  let called := p.call s.aBuf.length c
  { s with
    recs := s.recs.map (fun q => if q.id = p.id then called.after else q)
    aBuf := s.aBuf ++ called.alerts
    calls := s.calls ++ [(p.id, c)]
    reports := s.reports ++ called.alerts.map (fun a => (p.id, a))
    dropped := s.dropped + called.dropped }

/-- A call through a pointer to the record with the id. -/
def call (s : Alerts) (id : ℕ) (c : AlertCall) : Option Alerts :=
  (s.recs.find? (fun p => p.id = id)).map (fun p => s.called p c)

/-- The calls for the events that were read. -/
def readCalls (events : List LineEvent) : List AlertCall :=
  events.map (fun e => .event e.timestampNs e.id) ++
    (events.getLast?.map (fun e => AlertCall.readEnd e.timestampNs)).toList

/-- `lastGT` and `lastLT` after a read. -/
def latest (s : Alerts) (events : List LineEvent) (nowLT : ℤ) : Alerts :=
  match events.getLast? with
  | some e => if e.timestampNs > s.lastGT then { s with lastGT := e.timestampNs, lastLT := nowLT } else s
  | none => s

def nowGT (s : Alerts) (nowLT : ℤ) : ℤ := uint64 (s.lastGT + (nowLT - s.lastLT))

/-- The point after the read of a record. -/
def afterRead (s : Alerts) (polled todo : List ℕ) (nowLT : ℤ) : AlertPoint :=
  if todo ≠ [] then .read polled todo nowLT
  else if s.lastGT ≠ 0 then .time polled (s.nowGT nowLT)
  else .emit (s.nowGT nowLT)

def afterTime (todo : List ℕ) (nowGT : ℤ) : AlertPoint :=
  if todo ≠ [] then .time todo nowGT else .emit nowGT

/-- `emit`, and the entries that stay. -/
def emits (s : Alerts) (tmax : ℤ) : Alerts :=
  { s with
    emitted := s.emitted ++ s.aBuf.takeWhile (fun a => a.report.timestamp ≤ tmax)
    aBuf := s.aBuf.dropWhile (fun a => a.report.timestamp ≤ tmax) }

/-- `qsort` of more than one entry. -/
def sorted (s : Alerts) (qsort : Qsort) : Alerts :=
  { s with aBuf := if s.aBuf.length > 1 then qsort.sort s.aBuf else s.aBuf }

def getAlertRec (s : Alerts) (chip : Chip) (gpio : ℕ) : Option AlertRec :=
  s.recs.find? (fun p => p.chip = chip ∧ p.gpio = gpio)

/-- `lgGpioCreateAlertRec` up to its signal. The record becomes the first one. -/
def create (s : Alerts) (chip : Chip) (gpio : ℕ) (state : LineInf) (nfyHandle : ℤ)
    (lastRptTs lastEvtTs lastEvtLv : ℤ) : Alerts :=
  let p : AlertRec := {
    id := s.made.length
    lastRptTs, lastEvtTs, lastEvtLv, chip, gpio, nfyHandle
    debounceNanos := state.debounceUs * 1000
    watchdogNanos := state.watchdogUs * 1000
    lastRptLv := -1
    debounced := true
    watchdogd := true
    eFlags := state.eFlags
    active := true }
  { s with recs := p :: s.recs, made := s.made ++ [p], signals := s.signals + 1 }

/-- `active = 0` for some records. -/
def deactivate (s : Alerts) (inactive : AlertRec → Bool) : Alerts :=
  { s with recs := s.recs.map (fun p => { p with active := p.active && !inactive p }) }

/-- `active = 0` for the record that `lgGpioGetAlertRec` finds. -/
def free (s : Alerts) (chip : Chip) (gpio : ℕ) : Alerts :=
  match s.getAlertRec chip gpio with
  | some p => s.deactivate (fun q => q.id = p.id)
  | none => s

/-- A new time, if it is in its range, for the record that `lgGpioGetAlertRec` finds. -/
def setMicros (s : Alerts) (chip : Chip) (gpio : ℕ) (us max : ℤ) (c : AlertCall) : Option Alerts :=
  if us < 0 ∨ us > max then some s
  else match s.getAlertRec chip gpio with
    | some p => s.call p.id c
    | none => some s

end Alerts

/-- The thread makes a step, with the time, the events or the emission of it, or wakes without a
signal, or another thread makes one. -/
inductive AlertAct
  | scan
  | ppoll (nowLT : ℤ)
  | read (events : List LineEvent)
  | time
  | emit
  | sleep
  | wake
  | create (chip : Chip) (gpio : ℕ) (state : LineInf) (nfyHandle lastRptTs lastEvtTs lastEvtLv : ℤ)
  | free (chip : Chip) (gpio : ℕ)
  | stop (handle : ℕ)
  | signal
  | setDebounce (chip : Chip) (gpio : ℕ) (debounceUs : ℤ)
  | setWatchdog (chip : Chip) (gpio : ℕ) (watchdogUs : ℤ)

/-- The arrays `pfd` and `pAlertRec` have 64 entries, and a pointer to a freed record is not used. -/
def Alerts.step (qsort : Qsort) (s : Alerts) : AlertAct → Option Alerts
  | .scan =>
    if s.point = .scan then
      let (recs, polled) := scanAlerts true s.recs
      if polled.length ≤ 64 then
        some { s with recs := recs, point := if polled = [] then .empty else .poll polled }
      else none
    else none
  | .ppoll nowLT =>
    match s.point with
    | .poll polled => some { s with point := .read polled polled nowLT }
    | _ => none
  | .read events =>
    match s.point with
    | .read polled (id :: todo) nowLT => do
      let t ← exec (fun s c => s.call id c) s (readCalls events)
      let t := t.latest events nowLT
      some { t with point := t.afterRead polled todo nowLT }
    | _ => none
  | .time =>
    match s.point with
    | .time (id :: todo) nowGT => do
      let t ← s.call id (.poll (uint64 (nowGT - 50000)))
      some { t with point := afterTime todo nowGT }
    | _ => none
  | .emit =>
    match s.point with
    | .emit nowGT => some { (s.sorted qsort).emits (uint64 (nowGT - 500000)) with point := .scan }
    | _ => none
  | .sleep =>
    if s.point = .empty then
      some { s.emits (uint64 (-1)) with aBuf := [], lastGT := 0, point := .wait }
    else none
  | .wake => if s.point = .wait then some { s with point := .scan } else none
  | .create chip gpio state nfyHandle lastRptTs lastEvtTs lastEvtLv =>
    some (s.create chip gpio state nfyHandle lastRptTs lastEvtTs lastEvtLv)
  | .free chip gpio => some (s.free chip gpio)
  | .stop handle =>
    some { s.deactivate (fun p => p.chip.handle = handle) with signals := s.signals + 1 }
  | .signal =>
    if s.signals > 0 then
      some { s with signals := s.signals - 1, point := if s.point = .wait then .scan else s.point }
    else none
  | .setDebounce chip gpio debounceUs =>
    s.setMicros chip gpio debounceUs 5000000 (.setDebounce debounceUs)
  | .setWatchdog chip gpio watchdogUs =>
    s.setMicros chip gpio watchdogUs 300000000 (.setWatchdog watchdogUs)

/-- The alerts when the thread starts. -/
def Alerts.start : Alerts := ⟨[], [], 0, 0, .scan, 0, [], [], [], [], 0⟩

end Lg
