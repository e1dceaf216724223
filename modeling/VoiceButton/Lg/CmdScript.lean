import VoiceButton.Lg.Cmd
import VoiceButton.Library.Labels

/-!
# Compiling a script

`cmdParseScript` reads the commands of a script one after the other. A tag is entered into a
table with the number of the instruction that follows it, any other command becomes an
instruction. At the end the jumps are resolved: the tag of a jump is replaced by its number. The
status is that of the first error, and reading goes on after an error.
-/

namespace Lg

def lgDupTag : ℤ := -13
def lgTooManyTags : ℤ := -14
def lgBadScriptCmd : ℤ := -15
def lgBadTag : ℤ := -23

def maxScriptTags : ℕ := 50

/-- The arguments of a command are numbered from zero. -/
instance instNeZeroMaxArg : NeZero 8 := ⟨by decide⟩

/-- `cmdInstr_t`. -/
structure Instr where
  arg : Fin 8 → BitVec 32
  cmd : Cmd
  opt : Fin 8 → Opt

/-- `cmdTagStep_t`. -/
structure TagStep where
  tag : BitVec 32
  step : ℕ

/-- The variables of the loop of `cmdParseScript`. -/
structure ParseState where
  rest : List Char
  instr : List Instr
  tagStep : List TagStep
  status : ℤ

/-- `if (!status) status = code`. -/
def ParseState.setStatus (s : ParseState) (code : ℤ) : ParseState :=
  { s with status := if s.status = 0 then code else s.status }

/-- Why a command is not accepted. -/
def Parsed.error (p : Parsed) : Option CmdError :=
  match p.info with
  | none => some .unknownCmd
  | some info =>
    if info.cvis = false then some .notInScript
    else if p.scan.valid = false then some .badParameter
    else none

def Parsed.cmd (p : Parsed) : Cmd := p.info.elim .zero CmdInfo.cmd

def Parsed.instr (p : Parsed) : Instr where
  arg i := p.scan.arg i
  cmd := p.cmd
  opt i := p.scan.opt i

/-- The tag of the command `TAG`. -/
def Parsed.tag (p : Parsed) : BitVec 32 := p.scan.arg 0

/-- The body of the loop of `cmdParseScript` after `cmdParse`. -/
def takeCmd (s : ParseState) (p : Parsed) : ParseState :=
  let s := { s with rest := p.scan.rest }
  match p.error with
  | some _ => s.setStatus lgBadScriptCmd
  | none =>
    if p.cmd = .script .tag then
      if s.tagStep.length < maxScriptTags then
        -- check tag not already used
        let s' := if s.tagStep.any (fun r => r.tag = p.tag) then s.setStatus lgDupTag else s
        { s' with tagStep := s.tagStep ++ [⟨p.tag, s.instr.length⟩] }
      else s.setStatus lgTooManyTags
    else { s with instr := s.instr ++ [p.instr] }

section Loop

variable (scanF : ScanF) (stale : List Char → ℕ → BitVec 32)

/-- The loop `while (ctlP.eaten<len)` with `fuel` passes. `stale` tells what the buffer for the
parameters holds before each command. -/
def parseLoop : ℕ → ParseState → Option ParseState
  | 0, s => if s.rest = [] then some s else none
  | fuel + 1, s =>
    if s.rest = [] then some s
    else do
      let p ← cmdParse scanF s.rest (stale s.rest)
      parseLoop fuel (takeCmd s p)

end Loop

def ScriptCmd.isJump : ScriptCmd → Bool
  | .jmp | .call | .jz | .jnz | .jge | .jgt | .jle | .jlt => true
  | _ => false

def Instr.isJump (instr : Instr) : Bool :=
  match instr.cmd with
  | .script cmd => cmd.isJump
  | _ => false

/-- Replace the tag of a jump by its step. -/
def resolve (tags : List TagStep) (instr : Instr) : Instr :=
  if instr.isJump then
    match tags.find? (fun r => instr.arg 0 = r.tag) with
    | some r => { instr with arg := Function.update instr.arg 0 (.ofNat 32 r.step) }
    | none => instr
  else instr

def unresolved (tags : List TagStep) (instr : Instr) : Bool :=
  instr.isJump && !tags.any (fun r => instr.arg 0 = r.tag)

/-- `cmdScript_t`, with the variables and parameters of a script, which are zero at first. -/
structure CmdScript where
  par : Fin scriptParams → BitVec 32
  var : Fin scriptVars → BitVec 32
  instr : List Instr

/-- The status and the script. `mem` says whether `calloc` succeeds. -/
def cmdParseScript (scanF : ScanF) (stale : List Char → ℕ → BitVec 32) (script : List Char) (mem : Bool) :
    Option (ℤ × Option CmdScript) :=
  if mem = false then some (-1, none)
  else do
    let s ← parseLoop scanF stale script.length { rest := script, instr := [], tagStep := [], status := 0 }
    let s' := if s.instr.any (unresolved s.tagStep) then s.setStatus lgBadTag else s
    some (s'.status, some
      { par := fun _ => 0
        var := fun _ => 0
        instr := s.instr.map (resolve s.tagStep) })

end Lg
