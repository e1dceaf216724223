import VoiceButton.Library.Transition
import VoiceButton.Library.Deadlines
import VoiceButton.Library.MachineInt

/-!
# The transmitter of `lgPthTx.c`

One thread outputs the pulses of all GPIO. It keeps a record for each GPIO that transmits, with the
microseconds until its next edge, and sleeps until the first edge of all records. A PWM record has
a queue of pulse trains, a wave record one of waves. Other threads queue pulses and waves and set
records inactive, and the thread deletes inactive records.

Numbers are those of C, and `int32` is the conversion to `int`. The ids of the records, the log and
the list of the waves that each record was given are not in the source. The GPIO is taken to be
an output, and `malloc` to succeed.
-/

namespace Lg

open Deadlines (Event)
open MachineInt (int32)

/-- `LG_TX_BUF`. -/
def txBuf : ℕ := 10

/-- `lgPulse_t`. -/
structure Pulse where
  bits : BitVec 64
  mask : BitVec 64
  delay : ℤ
  deriving DecidableEq

/-- An entry of a PWM queue. -/
structure Pwm where
  microsOn : ℤ
  microsOff : ℤ
  cycles : ℤ

/-- `LG_TX_PWM` and `LG_TX_WAVE`. -/
inductive TxType
  | pwm
  | wave
  deriving DecidableEq

/-- The entries of a record, of which there is at least one. -/
inductive Entries
  | pwm (head : Pwm) (queued : List Pwm) (nextLevel : Bool)
  | wave (head : List Pulse) (queued : List (List Pulse)) (pulsePos : ℕ)

def Entries.type : Entries → TxType
  | .pwm .. => .pwm
  | .wave .. => .wave

def Entries.length : Entries → ℕ
  | .pwm _ queued _ => queued.length + 1
  | .wave _ queued _ => queued.length + 1

/-- `lgTxRec_t`. -/
structure TxRec where
  id : ℕ
  active : Bool
  nextMicros : ℤ
  chip : ℕ
  gpio : ℕ
  entries : Entries

/-- The level that `xWrite` outputs, or the levels of `xGroupWrite`. -/
inductive Output
  | level (value : Bool)
  | group (bits mask : BitVec 64)
  deriving DecidableEq

/-- What the thread does for a record at an edge: the entries after it, whether the record stays
active, what is added to `next_micros`, and what is output. -/
structure Edge where
  entries : Entries
  active : Bool
  micros : ℤ
  out : Option Output

/-- `if (--p->cycles[0] < 0) p->cycles[0] = -1`. -/
def Pwm.count (p : Pwm) : Pwm := { p with cycles := if p.cycles - 1 < 0 then -1 else p.cycles - 1 }

/-- The start of a cycle of `head`. -/
def startCycle (head : Pwm) (queued : List Pwm) (nextLevel : Bool) : Edge :=
  if head.cycles = 0 then ⟨.pwm head.count queued nextLevel, false, 0, some (.level false)⟩
  else if head.microsOn ≠ 0 then
    ⟨.pwm head.count queued (if head.microsOff ≠ 0 then false else nextLevel), true, head.microsOn,
      some (.level true)⟩
  else ⟨.pwm head.count queued true, true, head.microsOff, some (.level false)⟩

def pwmEdge (head : Pwm) (queued : List Pwm) (nextLevel : Bool) : Edge :=
  if nextLevel = true ∨ head.microsOn = 0 then
    match queued with
    | next :: rest =>
      if head.cycles ≤ 0 then startCycle next rest nextLevel else startCycle head queued nextLevel
    | [] => startCycle head [] nextLevel
  else ⟨.pwm head queued true, true, head.microsOff, some (.level false)⟩ -- middle of cycle

def outputPulse (head : List Pulse) (queued : List (List Pulse)) (pulsePos : ℕ) : Edge :=
  match head[pulsePos]? with
  | some p => ⟨.wave head queued (pulsePos + 1), true, p.delay, some (.group p.bits p.mask)⟩
  | none => ⟨.wave head queued pulsePos, false, 0, none⟩

def waveEdge (head : List Pulse) (queued : List (List Pulse)) (pulsePos : ℕ) : Edge :=
  if pulsePos ≥ head.length then
    match queued with
    | next :: rest => outputPulse next rest 0
    | [] => outputPulse head [] pulsePos
  else outputPulse head queued pulsePos

def Entries.edge : Entries → Edge
  | .pwm head queued nextLevel => pwmEdge head queued nextLevel
  | .wave head queued pulsePos => waveEdge head queued pulsePos

/-- A call of `xWrite` or `xGroupWrite`. -/
structure Write where
  chip : ℕ
  gpio : ℕ
  out : Output

abbrev TxEvent : Type := Event ℕ ℤ Write

/-- The state of the transmitter: the records, `pthTxDelayMicros`, `pthTxReq` and `lgMinTxDelay`,
the number of records so far, the log of the outputs with their times in nanoseconds, and the
waves given to each record. -/
structure Tx where
  recs : List TxRec
  delayMicros : ℤ
  sec : ℤ
  nsec : ℤ
  minTxDelay : ℤ
  made : ℕ
  log : List TxEvent
  given : List (ℕ × List Pulse)

/-- The time in nanoseconds at which the thread wakes. -/
def Tx.now (s : Tx) : ℤ := s.sec * 1000000000 + s.nsec

/-- An active record in a pass at the time `now`. -/
def TxRec.output (now : ℤ) (p : TxRec) : TxRec × List TxEvent :=
  if p.nextMicros ≤ 0 then
    let edge := p.entries.edge
    ({ p with
        active := edge.active
        nextMicros := int32 (p.nextMicros + edge.micros)
        entries := edge.entries },
      edge.out.toList.map (fun out => ⟨p.id, now, now + edge.micros * 1000, ⟨p.chip, p.gpio, out⟩⟩))
  else (p, [])

/-- The loop over the records: what is left of them, the delay and the outputs. `first` says that
the record has no `prev`, and when such a record is deleted the loop ends. -/
def scan (now : ℤ) (first : Bool) (delayMicros : ℤ) : List TxRec → List TxRec × ℤ × List TxEvent
  | [] => ([], delayMicros, [])
  | p :: rest =>
    if p.active then
      let (q, events) := p.output now
      let (recs, delayMicros, more) :=
        scan now false (if q.nextMicros < delayMicros then q.nextMicros else delayMicros) rest
      (q :: recs, delayMicros, events ++ more)
    else if first then (rest, delayMicros, [])
    else scan now false delayMicros rest

/-- `p->next_micros -= pthTxDelayMicros`. -/
def TxRec.elapse (delayMicros : ℤ) (p : TxRec) : TxRec :=
  { p with nextMicros := int32 (p.nextMicros - delayMicros) }

/-- `pthTxReq` after the delay. -/
def Tx.advance (s : Tx) (delayMicros : ℤ) : Tx :=
  let nsec := s.nsec + delayMicros * 1000
  if nsec ≥ 1000000000 then { s with sec := s.sec + 1, nsec := nsec - 1000000000 }
  else { s with nsec := nsec }

/-- `clock_nanosleep` returns zero for a valid time, and is called again and again otherwise. -/
def Tx.Sleeps (s : Tx) : Prop := 0 ≤ s.nsec ∧ s.nsec < 1000000000

instance (s : Tx) : Decidable s.Sleeps := by unfold Tx.Sleeps; infer_instance

/-- `lgPthTx` wakes and makes one pass. -/
def Tx.pass (s : Tx) : Tx :=
  let (recs, delayMicros, events) := scan s.now true 20000 (s.recs.map (TxRec.elapse s.delayMicros))
  { s with recs := recs, delayMicros := delayMicros, log := s.log ++ events }.advance delayMicros

def isTxRec (chip gpio : ℕ) (type : TxType) (p : TxRec) : Bool :=
  p.chip = chip ∧ p.gpio = gpio ∧ p.entries.type = type

/-- `lgGpioGetTxRec`. -/
def Tx.getTxRec (s : Tx) (chip gpio : ℕ) (type : TxType) : Option TxRec :=
  s.recs.find? (isTxRec chip gpio type)

/-- The record that `lgGpioGetTxRec` finds is changed. -/
def Tx.modifyTxRec (s : Tx) (p : TxRec) (f : TxRec → TxRec) : Tx :=
  { s with recs := s.recs.map (fun q => if q.id = p.id then f q else q) }

/-- A new record becomes the first one. -/
def Tx.create (s : Tx) (chip gpio : ℕ) (nextMicros : ℤ) (entries : Entries) : Tx :=
  { s with recs := ⟨s.made, true, nextMicros, chip, gpio, entries⟩ :: s.recs, made := s.made + 1 }

def Pwm.new (microsOn microsOff cycles : ℤ) : Pwm :=
  ⟨microsOn, microsOff, if cycles ≠ 0 then cycles else -1⟩

/-- `lgGpioCreateTxRec`. The first edge is at a multiple of the cycle in the second, and later. -/
def Tx.createPwm (s : Tx) (chip gpio : ℕ) (microsOn microsOff microsOffset cycles : ℤ) : Tx :=
  let usec := s.nsec.tdiv 1000
  let ct := microsOn + microsOff
  let left := ct - usec.tmod ct + s.delayMicros + microsOffset
  s.create chip gpio (int32 left) (.pwm (.new microsOn microsOff cycles) [] (microsOn ≠ 0))

/-- An entry of a PWM queue is added. The last entry is replaced if it has no end. -/
def Entries.pushPwm (e : Pwm) : Entries → Entries
  | .pwm head queued nextLevel =>
    let queued := if queued.getLast?.any (·.cycles = -1) then queued.dropLast else queued
    .pwm head (if queued.length + 1 < txBuf then queued ++ [e] else queued) nextLevel
  | entries => entries

def Entries.pushWave (pulses : List Pulse) : Entries → Entries
  | .wave head queued pulsePos => .wave head (queued ++ [pulses]) pulsePos
  | entries => entries

/-- `xSetAsPwm` for an output. -/
def Tx.pulse (s : Tx) (chip gpio : ℕ) (microsOn microsOff microsOffset cycles : ℤ) : Tx :=
  match (s.getTxRec chip gpio .pwm).filter TxRec.active with
  | some p =>
    if microsOn ≠ 0 ∨ microsOff ≠ 0 then
      if microsOn + microsOff > s.minTxDelay then
        s.modifyTxRec p (fun p =>
          { p with entries := p.entries.pushPwm (.new microsOn microsOff cycles) })
      else s
    else s.modifyTxRec p (fun p => { p with active := false })
  | none =>
    if microsOn + microsOff > s.minTxDelay then
      s.createPwm chip gpio microsOn microsOff microsOffset cycles
    else s

/-- `xWave` for an output, with `lgGroupCreateWaveRec`. -/
def Tx.wave (s : Tx) (chip gpio : ℕ) (pulses : List Pulse) : Tx :=
  match (s.getTxRec chip gpio .wave).filter TxRec.active with
  | some p =>
    if p.entries.length < txBuf then
      { s.modifyTxRec p (fun p => { p with entries := p.entries.pushWave pulses }) with
        given := s.given ++ [(p.id, pulses)] }
    else s
  | none =>
    { s.create chip gpio s.delayMicros (.wave pulses [] 0) with given := s.given ++ [(s.made, pulses)] }

/-- `pTx->active = 0` for the record that `lgGpioGetTxRec` finds. -/
def Tx.deactivate (s : Tx) (chip gpio : ℕ) (type : TxType) : Tx :=
  match s.getTxRec chip gpio type with
  | some p => s.modifyTxRec p (fun p => { p with active := false })
  | none => s

/-- What `xSetAsFree` does to the records of a GPIO. -/
def Tx.free (s : Tx) (chip gpio : ℕ) : Tx := (s.deactivate chip gpio .pwm).deactivate chip gpio .wave

/-- `lgPthTxStop`. -/
def Tx.stop (s : Tx) (chip : ℕ) : Tx :=
  { s with recs := s.recs.map (fun p => if p.chip = chip then { p with active := false } else p) }

/-- The thread makes a pass, or another thread calls the transmitter. -/
inductive TxAct
  | pass
  | pulse (chip gpio : ℕ) (microsOn microsOff microsOffset cycles : ℤ)
  | wave (chip gpio : ℕ) (pulses : List Pulse)
  | free (chip gpio : ℕ)
  | stop (chip : ℕ)
  | setMinDelay (cfgVal : ℕ)

def Tx.step (s : Tx) : TxAct → Option Tx
  | .pass => if s.Sleeps then some s.pass else none
  | .pulse chip gpio microsOn microsOff microsOffset cycles =>
    some (s.pulse chip gpio microsOn microsOff microsOffset cycles)
  | .wave chip gpio pulses => some (s.wave chip gpio pulses)
  | .free chip gpio => some (s.free chip gpio)
  | .stop chip => some (s.stop chip)
  | .setMinDelay cfgVal => some (if cfgVal ≤ 1000 then { s with minTxDelay := cfgVal } else s)

/-- The transmitter when its thread starts. -/
def Tx.start (sec nsec : ℤ) : Tx := ⟨[], 0, sec, nsec, 10, 0, [], []⟩

/-- `lgTxBusy` and `lgTxRoom` for a GPIO of the chip. -/
def Tx.lgTxBusy (s : Tx) (chip gpio : ℕ) (kind : TxType) : Bool :=
  ((s.getTxRec chip gpio kind).filter TxRec.active).isSome

def Tx.lgTxRoom (s : Tx) (chip gpio : ℕ) (kind : TxType) : ℕ :=
  match (s.getTxRec chip gpio kind).filter TxRec.active with
  | some p => txBuf - p.entries.length
  | none => txBuf

end Lg
