import VoiceButton.Lg.Scan

/-!
# The commands of `lgCmd.c`

`cmdParse` reads one command and its parameters. The commands that a script may contain are a
part of those of the library, with the commands of the script machine itself. Of the buffer that
receives the parameters, words are modelled but not the bytes and strings, and what a command
leaves in it from those before is open.
-/

namespace Lg

open Function (update)

/-- The commands below `LG_CMD_SCRIPT`. -/
inductive LibCmd
  | fo | fc | fr | fw | fs | fl | go | gc | gic | gil | gmode | gsi | gsix | gso | gsox | gsa
  | gsax | gsf | gsgi | gsgix | gsgo | gsgox | gsgf | gr | gw | ggr | ggw | ggwx | gp | gpx
  | gwave | gbusy | groom | p | px | s | sx | gdeb | gwdog | i2co | i2cc | i2cwq | i2crs | i2cws
  | i2crb | i2cwb | i2crw | i2cww | i2crk | i2cwk | i2cri | i2cwi | i2crd | i2cwd | i2cpc | i2cpk
  | i2cz | no | nc | np | nr | proc | procr | procu | procp | procs | procd | parse | sero | serc
  | serrb | serwb | serr | serw | serda | shell | spio | spic | spir | spiw | spix | lgv | sbc
  | cgi | csi | tick | mics | mils | user | share | lcfg | pcd | pwd | shrs | shru | passw
  deriving DecidableEq

/-- The commands from `LG_CMD_SCRIPT` on. -/
inductive ScriptCmd
  | add | and | call | cmdr | cmdw | cmp | dcr | dcra | div | halt | inr | inra | jge | jgt | jle
  | jlt | jmp | jnz | jz | ld | lda | ldab | mlt | mod | nop | or | pop | popa | push | pusha
  | ret | rl | rla | rr | rra | shl | shla | shr | shra | sta | stab | sub | sys | tag | x | xa
  | xor
  deriving DecidableEq

/-- `zero` is no command, but what `calloc` leaves in an instruction. -/
inductive Cmd
  | zero
  | lib (cmd : LibCmd)
  | script (cmd : ScriptCmd)
  deriving DecidableEq

structure CmdInfo where
  cmd : Cmd
  name : String
  vt : ℕ
  cvis : Bool
  deriving DecidableEq

def cmdInfo : List CmdInfo :=
  [ ⟨.lib .fo, "FO", 102, false⟩, ⟨.lib .fc, "FC", 101, true⟩, ⟨.lib .fr, "FR", 101, false⟩,
    ⟨.lib .fw, "FW", 103, false⟩, ⟨.lib .fs, "FS", 101, true⟩, ⟨.lib .fl, "FL", 102, false⟩,
    ⟨.lib .go, "GO", 101, true⟩, ⟨.lib .gc, "GC", 101, true⟩, ⟨.lib .gic, "GIC", 101, false⟩,
    ⟨.lib .gil, "GIL", 101, false⟩, ⟨.lib .gmode, "GMODE", 101, true⟩,
    ⟨.lib .gsi, "GSI", 101, true⟩, ⟨.lib .gsix, "GSIX", 101, true⟩, ⟨.lib .gso, "GSO", 101, true⟩,
    ⟨.lib .gsox, "GSOX", 101, true⟩, ⟨.lib .gsa, "GSA", 101, true⟩,
    ⟨.lib .gsax, "GSAX", 101, true⟩, ⟨.lib .gsf, "GSF", 101, true⟩,
    ⟨.lib .gsgi, "GSGI", 101, false⟩, ⟨.lib .gsgix, "GSGIX", 101, false⟩,
    ⟨.lib .gsgo, "GSGO", 101, false⟩, ⟨.lib .gsgox, "GSGOX", 101, false⟩,
    ⟨.lib .gsgf, "GSGF", 101, true⟩, ⟨.lib .gr, "GR", 101, true⟩, ⟨.lib .gw, "GW", 101, true⟩,
    ⟨.lib .ggr, "GGR", 101, true⟩, ⟨.lib .ggw, "GGW", 101, true⟩, ⟨.lib .ggwx, "GGWX", 101, true⟩,
    ⟨.lib .gp, "GP", 101, true⟩, ⟨.lib .gpx, "GPX", 101, true⟩, ⟨.lib .gwave, "GWAVE", 101, true⟩,
    ⟨.lib .gbusy, "GBUSY", 101, true⟩, ⟨.lib .groom, "GROOM", 101, true⟩,
    ⟨.lib .p, "P", 101, true⟩, ⟨.lib .px, "PX", 101, true⟩, ⟨.lib .s, "S", 101, true⟩,
    ⟨.lib .sx, "SX", 101, true⟩, ⟨.lib .gdeb, "GDEB", 101, true⟩,
    ⟨.lib .gwdog, "GWDOG", 101, true⟩, ⟨.lib .i2co, "I2CO", 101, true⟩,
    ⟨.lib .i2cc, "I2CC", 101, true⟩, ⟨.lib .i2cwq, "I2CWQ", 101, true⟩,
    ⟨.lib .i2crs, "I2CRS", 101, true⟩, ⟨.lib .i2cws, "I2CWS", 101, true⟩,
    ⟨.lib .i2crb, "I2CRB", 101, true⟩, ⟨.lib .i2cwb, "I2CWB", 101, true⟩,
    ⟨.lib .i2crw, "I2CRW", 101, true⟩, ⟨.lib .i2cww, "I2CWW", 101, true⟩,
    ⟨.lib .i2crk, "I2CRK", 101, false⟩, ⟨.lib .i2cwk, "I2CWK", 104, false⟩,
    ⟨.lib .i2cri, "I2CRI", 101, false⟩, ⟨.lib .i2cwi, "I2CWI", 104, false⟩,
    ⟨.lib .i2crd, "I2CRD", 101, false⟩, ⟨.lib .i2cwd, "I2CWD", 103, false⟩,
    ⟨.lib .i2cpc, "I2CPC", 101, true⟩, ⟨.lib .i2cpk, "I2CPK", 104, false⟩,
    ⟨.lib .i2cz, "I2CZ", 103, false⟩, ⟨.lib .no, "NO", 100, true⟩, ⟨.lib .nc, "NC", 101, true⟩,
    ⟨.lib .np, "NP", 101, true⟩, ⟨.lib .nr, "NR", 101, true⟩, ⟨.lib .proc, "PROC", 106, false⟩,
    ⟨.lib .procr, "PROCR", 107, false⟩, ⟨.lib .procu, "PROCU", 107, false⟩,
    ⟨.lib .procp, "PROCP", 101, false⟩, ⟨.lib .procs, "PROCS", 101, false⟩,
    ⟨.lib .procd, "PROCD", 101, false⟩, ⟨.lib .parse, "PARSE", 106, false⟩,
    ⟨.lib .sero, "SERO", 108, false⟩, ⟨.lib .serc, "SERC", 101, true⟩,
    ⟨.lib .serrb, "SERRB", 101, true⟩, ⟨.lib .serwb, "SERWB", 101, true⟩,
    ⟨.lib .serr, "SERR", 101, false⟩, ⟨.lib .serw, "SERW", 103, false⟩,
    ⟨.lib .serda, "SERDA", 101, true⟩, ⟨.lib .shell, "SHELL", 109, false⟩,
    ⟨.lib .spio, "SPIO", 101, false⟩, ⟨.lib .spic, "SPIC", 101, true⟩,
    ⟨.lib .spir, "SPIR", 101, false⟩, ⟨.lib .spiw, "SPIW", 103, false⟩,
    ⟨.lib .spix, "SPIX", 103, false⟩, ⟨.lib .lgv, "LGV", 100, true⟩, ⟨.lib .sbc, "SBC", 100, true⟩,
    ⟨.lib .cgi, "CGI", 101, true⟩, ⟨.lib .csi, "CSI", 101, true⟩, ⟨.lib .tick, "T", 100, true⟩,
    ⟨.lib .tick, "TICK", 100, true⟩, ⟨.lib .mics, "MICS", 101, true⟩,
    ⟨.lib .mils, "MILS", 101, true⟩, ⟨.lib .user, "U", 105, false⟩,
    ⟨.lib .user, "USER", 105, false⟩, ⟨.lib .share, "C", 101, true⟩,
    ⟨.lib .share, "SHARE", 101, true⟩, ⟨.lib .lcfg, "LCFG", 100, false⟩,
    ⟨.lib .pcd, "PCD", 100, false⟩, ⟨.lib .pwd, "PWD", 100, false⟩,
    ⟨.lib .shrs, "SHRS", 101, true⟩, ⟨.lib .shru, "SHRU", 101, true⟩,
    ⟨.lib .passw, "PASSW", 105, false⟩, ⟨.script .add, "ADD", 201, true⟩,
    ⟨.script .and, "AND", 201, true⟩, ⟨.script .call, "CALL", 202, true⟩,
    ⟨.script .cmdr, "CMDR", 201, true⟩, ⟨.script .cmdw, "CMDW", 201, true⟩,
    ⟨.script .cmp, "CMP", 201, true⟩, ⟨.script .dcr, "DCR", 203, true⟩,
    ⟨.script .dcra, "DCRA", 200, true⟩, ⟨.script .div, "DIV", 201, true⟩,
    ⟨.script .halt, "HALT", 200, true⟩, ⟨.script .inr, "INR", 203, true⟩,
    ⟨.script .inra, "INRA", 200, true⟩, ⟨.script .jge, "JGE", 202, true⟩,
    ⟨.script .jgt, "JGT", 202, true⟩, ⟨.script .jle, "JLE", 202, true⟩,
    ⟨.script .jlt, "JLT", 202, true⟩, ⟨.script .jmp, "JMP", 202, true⟩,
    ⟨.script .jnz, "JNZ", 202, true⟩, ⟨.script .jz, "JZ", 202, true⟩,
    ⟨.script .ld, "LD", 204, true⟩, ⟨.script .lda, "LDA", 201, true⟩,
    ⟨.script .ldab, "LDAB", 201, true⟩, ⟨.script .mlt, "MLT", 201, true⟩,
    ⟨.script .mod, "MOD", 201, true⟩, ⟨.script .nop, "NOP", 200, true⟩,
    ⟨.script .or, "OR", 201, true⟩, ⟨.script .pop, "POP", 203, true⟩,
    ⟨.script .popa, "POPA", 200, true⟩, ⟨.script .push, "PUSH", 203, true⟩,
    ⟨.script .pusha, "PUSHA", 200, true⟩, ⟨.script .ret, "RET", 200, true⟩,
    ⟨.script .rl, "RL", 204, true⟩, ⟨.script .rla, "RLA", 201, true⟩,
    ⟨.script .rr, "RR", 204, true⟩, ⟨.script .rra, "RRA", 201, true⟩,
    ⟨.script .shl, "SHL", 204, true⟩, ⟨.script .shla, "SHLA", 201, true⟩,
    ⟨.script .shr, "SHR", 204, true⟩, ⟨.script .shra, "SHRA", 201, true⟩,
    ⟨.script .sta, "STA", 203, true⟩, ⟨.script .stab, "STAB", 201, true⟩,
    ⟨.script .sub, "SUB", 201, true⟩, ⟨.script .sys, "SYS", 206, true⟩,
    ⟨.script .tag, "TAG", 202, true⟩, ⟨.script .x, "X", 205, true⟩, ⟨.script .xa, "XA", 203, true⟩,
    ⟨.script .xor, "XOR", 201, true⟩ ]

/-- The first command of a name, by `strcasecmp`. -/
def cmdMatch (str : List Char) : Option CmdInfo :=
  cmdInfo.find? (fun info => info.name.toList.map Char.toLower = str.map Char.toLower)

/-- What is left of the text, the buffer for the parameters and their kinds, and the position in
the buffer and number of parameters of the call of `cmdScanf` at hand. -/
structure Scan where
  rest : List Char
  arg : ℕ → BitVec 32
  opt : ℕ → Opt
  offset : ℕ
  matched : ℕ
  valid : Bool

section Scanf

variable (scanF : ScanF)

/-- Store the number at the position for words, or for pairs of words. -/
def Scan.store (s : Scan) (n : Num) (long : Bool) : Scan :=
  if n.opt.ok then
    { s with
      rest := n.rest
      arg :=
        if long then
          update (update s.arg (s.offset / 8 * 2) (.ofNat 32 n.val)) (s.offset / 8 * 2 + 1)
            (.ofNat 32 (n.val / 2 ^ 32))
        else update s.arg (s.offset / 4) (.ofNat 32 n.val)
      opt := if s.matched < 8 then update s.opt s.matched n.opt else s.opt
      offset := if long then s.offset + 8 else s.offset + 4
      matched := s.matched + 1 }
  else { s with rest := n.rest, valid := false }

/-- Store the number as a byte. -/
def Scan.storeByte (s : Scan) (n : Num) : Scan :=
  if n.opt = .numeric then
    { s with rest := n.rest, offset := s.offset + 1, matched := s.matched + 1 }
  else { s with valid := false }

/-- One pass of the loop for a letter. -/
def scanOne (letter : Char) (s : Scan) : Scan :=
  match letter with
  | 'Q' => s.store (getNum scanF s.rest 0xffffffffffffffff false) true
  | 'F' => s.store (getNum scanF s.rest 0xffffffff true) false
  | 'I' => s.store (getNum scanF s.rest 0xffffffff false) false
  | 'B' => s.storeByte (getNum scanF s.rest 0xff false)
  | _ => { s with valid := false }

def scanUpto (letter : Char) : ℕ → Scan → Scan
  | 0, s => s
  | n + 1, s =>
    let s := scanOne scanF letter s
    if s.valid then scanUpto letter n s else s

def scanfLoop : List Char → ℕ → Scan → Scan
  | [], _, s => s
  | letter :: fmt, upto, s =>
    if s.valid then
      match letter with
      | 'q' => scanfLoop fmt 1 (scanUpto scanF 'Q' 200 s)
      | 'f' => scanfLoop fmt 1 (scanUpto scanF 'F' 200 s)
      | 'i' => scanfLoop fmt 1 (scanUpto scanF 'I' 200 s)
      | 'b' => scanfLoop fmt 1 (scanUpto scanF 'B' 200 s)
      | '*' => scanfLoop fmt 200 s
      | '<' => scanfLoop fmt upto { s with offset := s.offset - 4 } -- retreat 4 bytes
      | '>' => scanfLoop fmt upto { s with offset := s.offset + 4 } -- advance 4 bytes
      | letter => scanfLoop fmt 1 (scanUpto scanF letter upto s)
    else s

def cmdScanf (fmt : List Char) (s : Scan) : Scan :=
  scanfLoop scanF fmt 1 { s with offset := 0, matched := 0, valid := true }

end Scanf

section Parse

variable (scanF : ScanF)

/-- A further way for the parameters to be valid, once `cmdScanf` has counted them. -/
def Scan.orValid (s : Scan) (valid : Bool) : Scan := { s with valid := s.valid || valid }

/-- Store a number that is no part of a format. -/
def Scan.put (s : Scan) (word : ℕ) (n : Num) : Scan :=
  { s with
    rest := n.rest
    arg := update s.arg word (.ofNat 32 n.val)
    opt := update s.opt word n.opt }

/-- The number after the chip and the GPIO of `GWAVE`, which are stored behind the values. -/
def parseWave (s : Scan) : Scan :=
  let h := getNum scanF s.rest 0xffffffff false
  let g := getNum scanF h.rest 0xffffffff false
  let s := cmdScanf scanF ['*', 'Q'] { s with rest := g.rest }
  if h.opt.ok && g.opt.ok && s.matched ≠ 0 && s.matched % 3 = 0 then
    { s with
      arg := update (update s.arg (s.matched * 2) (.ofNat 32 h.val)) (s.matched * 2 + 1)
        (.ofNat 32 g.val)
      valid := true }
  else { s with valid := false }

/-- The commands with `vt` 101. -/
def parse101 (cmd : LibCmd) (s : Scan) : Scan :=
  match cmd with
  | .cgi | .fc | .i2cc | .i2crs | .mics | .mils | .nr | .nc | .np | .procd | .procp | .procs | .serc
  | .serda | .serrb | .share | .shru | .spic | .gc | .gic | .go => cmdScanf scanF ['I'] s
  | .csi => cmdScanf scanF ['>', '>', 'I', '<', '<', '<', 'Q'] s
  | .gwave => parseWave scanF s
  | .fr | .ggr | .gil | .gmode | .gr | .gsi | .gso | .gsf | .gsgf | .i2crb | .i2crd | .i2crk | .i2crw
  | .i2cwq | .i2cws | .serr | .serwb | .shrs | .spir => cmdScanf scanF ['I', 'I'] s
  | .gdeb | .groom | .gbusy | .gsa | .gsix | .gw | .gwdog | .fs | .i2co | .i2cpc | .i2cri | .i2cwb
  | .i2cww | .s => cmdScanf scanF ['I', 'I', 'I'] s
  | .p => cmdScanf scanF ['I', 'I', 'F', 'F'] s
  | .gp | .gsox | .spio => cmdScanf scanF ['I', 'I', 'I', 'I'] s
  | .ggw => cmdScanf scanF ['>', '>', 'I', 'I', '<', '<', '<', '<', 'Q'] s
  | .gsax => cmdScanf scanF ['I', 'I', 'I', 'I', 'I'] s
  | .ggwx =>
    cmdScanf scanF ['>', '>', '>', '>', 'I', 'I', '<', '<', '<', '<', '<', '<', 'Q', 'Q'] s
  | .px => cmdScanf scanF ['I', 'I', 'F', 'F', 'I', 'I'] s
  | .gpx | .sx => cmdScanf scanF ['I', 'I', 'I', 'I', 'I', 'I'] s
  | .gsgo | .gsgi =>
    let s := cmdScanf scanF ['i'] s
    s.orValid (s.matched > 1)
  | .gsgix =>
    let s := cmdScanf scanF ['i'] s
    s.orValid (s.matched > 2)
  | .gsgox =>
    let s := cmdScanf scanF ['i'] s
    s.orValid (s.matched > 3 && s.matched % 2 = 0)
  | _ => s

/-- A string, and the rest of the text after it. `none` where the string is missing. -/
def Scan.string (s : Scan) : Option Scan := (scanString s.rest).map (fun rest => { s with rest := skipSpace rest })

/-- The parameters of a command. `none` stands for a read behind the end of the text. -/
def parseArgs (info : CmdInfo) (s : Scan) : Option Scan :=
  match info.vt with
  | 100 => some { s with valid := true }
  | 101 =>
    match info.cmd with
    | .lib cmd => some (parse101 scanF cmd s)
    | _ => some s
  | 102 =>
    match s.string with
    | none => some s
    | some s =>
      let s := { s with opt := update s.opt 1 .numeric }
      let n := getNum scanF s.rest 0xffffffff false
      some { s.put 0 n with valid := n.opt.ok && (BitVec.ofNat 32 n.val).toInt ≥ 0 }
  | 103 =>
    let s := cmdScanf scanF ['I', 'b'] s
    some (s.orValid (s.matched > 1))
  | 104 =>
    let s := cmdScanf scanF ['I', 'I', 'b'] s
    some (s.orValid (s.matched > 2 && s.matched < 35))
  | 105 => some (s.string.elim s (fun s => { s with valid := true }))
  | 106 => some { s with rest := [], valid := true }
  | 107 =>
    let s := cmdScanf scanF ['i'] s
    some (s.orValid (s.matched > 0 && s.matched ≤ scriptParams + 1))
  | 108 =>
    match s.string with
    | none => some s
    | some s =>
      let n := getNum scanF s.rest 0xffffffff false
      let s := s.put 0 n
      let m := getNum scanF s.rest 0xffffffff false
      let s := s.put 1 m
      some { s with
        valid := n.opt.ok && (BitVec.ofNat 32 n.val).toInt ≥ 0 && m.opt.ok &&
          (BitVec.ofNat 32 m.val).toInt ≥ 0 }
  | 109 =>
    match scanString s.rest with
    | none => some s
    | some [] => none
    | some (_ :: _) => some { s with rest := [], valid := true }
  | 200 => some { s with valid := true }
  | 201 => -- one parameter, any value
    let n := getNum scanF s.rest 0xffffffff false
    some { s.put 0 n with valid := n.opt.ok }
  | 202 => -- one numeric parameter, any value
    let n := getNum scanF s.rest 0xffffffff false
    some { s.put 0 n with valid := n.opt = .numeric }
  | 203 => -- one register parameter
    let n := getNum scanF s.rest 0xffffffff false
    some { s.put 0 n with valid := n.opt.ok && (BitVec.ofNat 32 n.val).toNat < scriptVars }
  | 204 => -- two parameters, first register, second any value
    let n := getNum scanF s.rest 0xffffffff false
    let s := s.put 0 n
    let m := getNum scanF s.rest 0xffffffff false
    some { s.put 1 m with
      valid := n.opt.ok && (BitVec.ofNat 32 n.val).toNat < scriptVars && m.opt.ok }
  | 205 => -- two register parameters
    let n := getNum scanF s.rest 0xffffffff false
    let s := s.put 0 n
    let m := getNum scanF s.rest 0xffffffff false
    some { s.put 1 m with
      valid := n.opt.ok && (BitVec.ofNat 32 n.val).toNat < scriptVars && m.opt.ok &&
        (BitVec.ofNat 32 m.val).toNat < scriptVars }
  | 206 => -- one parameter, a string
    match s.string with
    | none => some s
    | some s => some { s with opt := update s.opt 3 .numeric, valid := true }
  | _ => some s

/-- The negative results of `cmdParse`. -/
inductive CmdError
  | unknownCmd
  | badParameter
  | notInScript
  deriving DecidableEq

/-- A command that was parsed, and the row of its name. -/
structure Parsed where
  info : Option CmdInfo
  scan : Scan

/-- `arg` is what the buffer holds. `none` stands for a read of what was never written: there is
no command in a text of white space. -/
def cmdParse (text : List Char) (arg : ℕ → BitVec 32) : Option Parsed := do
  let (word, rest) ← scanWord text
  let s : Scan := { rest := rest, arg := arg, opt := fun _ => .none, offset := 0, matched := 0, valid := false }
  match cmdMatch word with
  | none => some ⟨none, s⟩
  | some info => do
    let s ← parseArgs scanF info s
    some ⟨some info, s⟩

end Parse

end Lg
