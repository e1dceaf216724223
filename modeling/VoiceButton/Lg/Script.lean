import VoiceButton.Lg.CmdScript
import VoiceButton.Library.Transition
import Mathlib.Data.List.FinRange

/-!
# The script machine of `lgScript.c`

Each script has a thread, which waits until the script is to run and then executes its
instructions one by one. Other threads start, update, stop and delete the script. What
`lgExecCmd` returns for a command of the library is an input of the step that executes it.

The arithmetic is that of 32-bit numbers in two's complement. A step whose result is `none` does
what C leaves undefined: it reads outside the variables, the parameters or the instructions,
divides by zero, divides the least number by -1, or shifts by 32 bits or more.
-/

namespace Lg

open Function (update)

/-- The `LG_SCRIPT_` states. -/
inductive RunState
  | initing
  | ready
  | running
  | exited
  | ended
  | halted
  | failed
  deriving DecidableEq

/-- `LG_SCRIPT_HALT`, `LG_SCRIPT_RUN` and `LG_SCRIPT_DELETE`. -/
inductive Request
  | halt
  | run
  | delete
  deriving DecidableEq

def scriptStackSize : ℕ := 256

/-- The parameters and variables of a script, its run state, and the variables `A`, `F` and `S` of
`pthScript`, with the commands of the library that it has executed. The top of the stack is the
head of `S`. -/
structure Regs where
  par : Fin scriptParams → BitVec 32
  var : Fin scriptVars → BitVec 32
  runState : RunState
  A : BitVec 32
  F : BitVec 32
  S : List (BitVec 32)
  calls : List (Cmd × List (BitVec 32))

namespace Regs

def getVar (r : Regs) (t : BitVec 32) : Option (BitVec 32) :=
  if h : t.toNat < scriptVars then some (r.var ⟨t.toNat, h⟩) else none

def getPar (r : Regs) (t : BitVec 32) : Option (BitVec 32) :=
  if h : t.toNat < scriptParams then some (r.par ⟨t.toNat, h⟩) else none

def setVar (r : Regs) (t v : BitVec 32) : Option Regs :=
  if h : t.toNat < scriptVars then some { r with var := update r.var ⟨t.toNat, h⟩ v } else none

def setPar (r : Regs) (t v : BitVec 32) : Option Regs :=
  if h : t.toNat < scriptParams then some { r with par := update r.par ⟨t.toNat, h⟩ v } else none

/-- The value of a parameter of a command. -/
def subst (r : Regs) (opt : Opt) (arg : BitVec 32) : Option (BitVec 32) :=
  match opt with
  | .var => r.getVar arg
  | .par => r.getPar arg
  | _ => some arg

/-- A register of a command is a variable, unless it names a parameter. -/
def get (r : Regs) (opt : Opt) (arg : BitVec 32) : Option (BitVec 32) :=
  if opt = .par then r.getPar arg else r.getVar arg

def set (r : Regs) (opt : Opt) (arg v : BitVec 32) : Option Regs :=
  if opt = .par then r.setPar arg v else r.setVar arg v

def scrPop (r : Regs) : BitVec 32 × Regs :=
  match r.S with
  | v :: s => (v, { r with S := s })
  | [] => (0, { r with runState := .failed })

def scrPush (r : Regs) (v : BitVec 32) : Regs :=
  if r.S.length < scriptStackSize then { r with S := v :: r.S } else { r with runState := .failed }

end Regs

def xrl (x n : BitVec 32) : Option (BitVec 32) :=
  if n.toNat < 32 then some (x <<< n ||| x >>> (-n &&& 31)) else none

def xrr (x n : BitVec 32) : Option (BitVec 32) :=
  if n.toNat < 32 then some (x >>> n ||| x <<< (-n &&& 31)) else none

def xsl (x n : BitVec 32) : Option (BitVec 32) := if n.toNat < 32 then some (x <<< n) else none

def xsr (x n : BitVec 32) : Option (BitVec 32) := if n.toNat < 32 then some (x >>> n) else none

def DivOk (x y : BitVec 32) : Prop := y ≠ 0 ∧ ¬ (x = BitVec.intMin 32 ∧ y = -1)

instance (x y : BitVec 32) : Decidable (DivOk x y) := by unfold DivOk; infer_instance

/-- How the machine goes on: with `PC++`, with `PC=p0`, with the push of `PC+1` before, with the
pop of the new `PC`, or with the same `PC`. -/
inductive Flow
  | next
  | jump (p0 : BitVec 32)
  | call (p0 : BitVec 32)
  | ret
  | stay

/-- The value of the register of an instruction becomes `f` of it, and `F` with it. -/
def updateReg (r : Regs) (instr : Instr) (f : BitVec 32 → Option (BitVec 32)) : Option (Regs × Flow) := do
  let x ← r.get (instr.opt 0) (instr.arg 0)
  let tmp ← f x
  let r ← r.set (instr.opt 0) (instr.arg 0) tmp
  some ({ r with F := tmp }, .next)

def updateA (r : Regs) (f : BitVec 32 → Option (BitVec 32)) : Option (Regs × Flow) := do
  let x ← f r.A
  some ({ r with A := x, F := x }, .next)

/-- `A` becomes `x`, and `F` with it. -/
def setA (r : Regs) (x : BitVec 32) : Option (Regs × Flow) := some ({ r with A := x, F := x }, .next)

def jumpIf (r : Regs) (b : Bool) (p0 : BitVec 32) : Option (Regs × Flow) :=
  some (r, if b then .jump p0 else .next)

/-- The `switch` on the commands of the script machine, with the values `p0` and `p1` of the
parameters. -/
def scriptCmd (r : Regs) (instr : Instr) (cmd : ScriptCmd) (p0 p1 : BitVec 32) : Option (Regs × Flow) :=
  match cmd with
  | .add => setA r (r.A + p0)
  | .and => setA r (r.A &&& p0)
  | .call => some (r, .call p0)
  | .cmp => some ({ r with F := r.A - p0 }, .next)
  | .dcr => updateReg r instr (fun x => some (x - 1))
  | .dcra => setA r (r.A - 1)
  | .div => if DivOk r.A p0 then setA r (r.A.sdiv p0) else none
  | .halt => some ({ r with runState := .ended }, .stay)
  | .inr => updateReg r instr (fun x => some (x + 1))
  | .inra => setA r (r.A + 1)
  | .jle => jumpIf r (r.F.toInt ≤ 0) p0
  | .jlt => jumpIf r (r.F.toInt < 0) p0
  | .jmp => jumpIf r true p0
  | .jnz => jumpIf r (r.F ≠ 0) p0
  | .jge => jumpIf r (r.F.toInt ≥ 0) p0
  | .jgt => jumpIf r (r.F.toInt > 0) p0
  | .jz => jumpIf r (r.F = 0) p0
  | .ld => do
    let r ← r.set (instr.opt 0) (instr.arg 0) p1
    some (r, .next)
  | .lda => some ({ r with A := p0 }, .next)
  | .mlt => setA r (r.A * p0)
  | .mod => if DivOk r.A p0 then setA r (r.A.srem p0) else none
  | .or => setA r (r.A ||| p0)
  | .pop => do
    let (v, r) := r.scrPop
    let r ← r.set (instr.opt 0) (instr.arg 0) v
    some (r, .next)
  | .popa =>
    let (v, r) := r.scrPop
    some ({ r with A := v }, .next)
  | .push => do
    let x ← r.get (instr.opt 0) (instr.arg 0)
    some (r.scrPush x, .next)
  | .pusha => some (r.scrPush r.A, .next)
  | .ret => some (r, .ret)
  | .rl => updateReg r instr (fun x => xrl x p1)
  | .rla => updateA r (fun x => xrl x p0)
  | .rr => updateReg r instr (fun x => xrr x p1)
  | .rra => updateA r (fun x => xrr x p0)
  | .shl => updateReg r instr (fun x => xsl x p1)
  | .shla => updateA r (fun x => xsl x p0)
  | .shr => updateReg r instr (fun x => xsr x p1)
  | .shra => updateA r (fun x => xsr x p0)
  | .sta => do
    let r ← r.set (instr.opt 0) (instr.arg 0) r.A
    some (r, .next)
  | .sub => setA r (r.A - p0)
  | .sys => some ({ r with F := r.A }, .next)
  | .x => do
    let v1 ← r.get (instr.opt 0) (instr.arg 0)
    let v2 ← r.get (instr.opt 1) (instr.arg 1)
    let r ← r.set (instr.opt 0) (instr.arg 0) v2
    let r ← r.set (instr.opt 1) (instr.arg 1) v1
    some (r, .next)
  | .xa => do
    let v ← r.get (instr.opt 0) (instr.arg 0)
    let r ← r.set (instr.opt 0) (instr.arg 0) r.A
    some ({ r with A := v }, .next)
  | .xor => setA r (r.A ^^^ p0)
  | .cmdr | .cmdw | .ldab | .nop | .stab | .tag => some (r, .stay) -- no case

/-- What an instruction does to the registers. `result` is what `lgExecCmd` returns. -/
def execInstr (r : Regs) (instr : Instr) (result : BitVec 32) : Option (Regs × Flow) :=
  match instr.cmd with
  | .script cmd => do
    let p0 ← r.subst (instr.opt 0) (instr.arg 0)
    let p1 ← r.subst (instr.opt 1) (instr.arg 1)
    scriptCmd r instr cmd p0 p1
  | cmd => do
    let args ← (List.finRange 8).mapM (fun i => r.subst (instr.opt i) (instr.arg i))
    some ({ r with A := result, F := result, calls := r.calls ++ [(cmd, args)] }, .next)

/-- The registers with `PC`. -/
structure Machine where
  regs : Regs
  PC : ℤ

/-- What `calloc` leaves in the memory for instructions. -/
def Instr.zero : Instr := ⟨fun _ => 0, .zero, fun _ => .none⟩

/-- The instruction at `PC`. The memory has room for one instruction even if there is none. -/
def fetch (code : List Instr) (PC : ℤ) : Option Instr :=
  if PC < 0 then none else if code = [] ∧ PC = 0 then some .zero else code[PC.toNat]?

def Machine.go (m : Machine) (flow : Flow) : Machine :=
  match flow with
  | .next => { m with PC := m.PC + 1 }
  | .jump p0 => { m with PC := p0.toInt }
  | .call p0 => ⟨m.regs.scrPush (.ofInt 32 (m.PC + 1)), p0.toInt⟩
  | .ret =>
    let (v, r) := m.regs.scrPop
    ⟨r, v.toInt⟩
  | .stay => m

/-- `if (PC >= s->script.instrs) s->run_state = LG_SCRIPT_ENDED`. -/
def Machine.checkEnd (m : Machine) (instrs : ℕ) : Machine :=
  if m.PC ≥ instrs then { m with regs := { m.regs with runState := .ended } } else m

/-- One pass of the inner loop of `pthScript`. -/
def Machine.step (code : List Instr) (m : Machine) (result : BitVec 32) : Option Machine := do
  let instr ← fetch code m.PC
  let (r, flow) ← execInstr m.regs instr result
  some ((Machine.go ⟨r, m.PC⟩ flow).checkEnd code.length)

/-- `lgScriptRun` and `lgScriptUpdate` set the first parameters of a script. -/
def Regs.setParams (r : Regs) (scriptParam : List (BitVec 32)) : Regs :=
  { r with par := fun i => scriptParam.getD i (r.par i) }

/-- What happens while a script runs: its thread executes an instruction, or another thread sets
its parameters. -/
inductive Pass
  | instr (result : BitVec 32)
  | update (scriptParam : List (BitVec 32))

/-- The inner loop is over when the script does not run any more. -/
def Machine.pass (code : List Instr) (m : Machine) : Pass → Option Machine
  | .instr result => if m.regs.runState = .running then m.step code result else some m
  | .update scriptParam => some { m with regs := m.regs.setParams scriptParam }

end Lg
