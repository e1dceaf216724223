import VoiceButton.Lg.Operands
import VoiceButton.Lg.Script

/-!
# What a script means

A script is a program with labels, and its meaning is told without numbers for the jumps: control
is the list of the lines that are left, and a jump goes on after the first line with its tag.
Numbers of instructions remain where a script can see them, on the stack, on which `CALL` pushes
the number of the next instruction and from which `RET` takes any number. The machine that runs
the compiled script does the same, instruction by instruction.
-/

namespace Lg

open Labels (Line code labels table target after address)

/-- The lines of a script. -/
abbrev Lines := List (Line (BitVec 32) Instr)

/-- A script in execution. There are no lines left to name after a return to a negative number. -/
structure Source where
  regs : Regs
  rest : Option Lines

/-- Control after an instruction that is followed by the lines `rest`. -/
def Source.go (script : Lines) (r : Regs) (here rest : Lines) (flow : Flow) : Source :=
  match flow with
  | .next => ⟨r, some rest⟩
  | .jump tag => ⟨r, target tag script⟩
  | .call tag => ⟨r.scrPush (.ofNat 32 (address script rest)), target tag script⟩
  | .ret =>
    let (v, r) := r.scrPop
    ⟨r, if v.toInt < 0 then none else some (after v.toInt.toNat script)⟩
  | .stay => ⟨r, some here⟩

/-- The script has ended where no instruction is left. -/
def Source.checkEnd (s : Source) : Source :=
  match s.rest with
  | some rest => if code rest = [] then { s with regs := { s.regs with runState := .ended } } else s
  | none => s

def Source.step (script : Lines) (s : Source) (result : BitVec 32) : Option Source := do
  let here ← s.rest
  let (instr, rest) ← Labels.next here
  let (r, flow) ← execInstr s.regs instr result
  some (Source.go script r here rest flow).checkEnd

def Source.pass (script : Lines) (s : Source) : Pass → Option Source
  | .instr result => if s.regs.runState = .running then s.step script result else some s
  | .update scriptParam => some { s with regs := s.regs.setParams scriptParam }

/-- `PC` is the number of the next of the lines that are left. -/
def AtLine (script : Lines) (PC : ℤ) (rest : Option Lines) : Prop :=
  match rest with
  | some rest => ∃ n : ℕ, PC = n ∧ code rest = (code script).drop n
  | none => PC < 0

/-- The compiled script is where the script is. -/
structure Simulates (script : Lines) (m : Machine) (s : Source) : Prop where
  regs : m.regs = s.regs
  control : AtLine script m.PC s.rest

section Resolve

variable {script : Lines} {tags : List TagStep}

lemma resolve_cmd (tags : List TagStep) (i : Instr) : (resolve tags i).cmd = i.cmd := by
  unfold resolve
  split
  · split <;> rfl
  · rfl

lemma resolve_of_not_jump {i : Instr} (h : i.isJump = false) : resolve tags i = i := by
  simp [resolve, h]

/-- A jump to a tag is resolved to the number of the instruction after it. -/
lemma resolve_of_jump (htags : tags.map TagStep.entry = table 0 script) {i : Instr}
    (h : i.isJump = true) {rest : Lines} (hrest : target (i.arg 0) script = some rest) :
    ∃ n, resolve tags i = { i with arg := Function.update i.arg 0 (.ofNat 32 n) } ∧
      n ≤ (code script).length ∧ code rest = (code script).drop n := by
  obtain ⟨n, hfind, hle, hcode⟩ := Labels.find_table hrest 0
  rw [← htags, List.find?_map, Option.map_eq_some_iff] at hfind
  obtain ⟨r, hr, hentry⟩ := hfind
  have hpred : (fun r : TagStep => decide (i.arg 0 = r.tag)) =
      (fun x => decide (x.1 = i.arg 0)) ∘ TagStep.entry := by
    funext r
    exact decide_eq_decide.mpr eq_comm
  refine ⟨n, ?_, hle, hcode⟩
  simp only [TagStep.entry, Prod.mk.injEq, Nat.zero_add] at hentry
  simp only [resolve, h, if_true, hpred, hr, hentry.2]

/-- The way on with another target of the jump. -/
def Flow.retarget (p0 : BitVec 32) : Flow → Flow
  | .jump _ => .jump p0
  | .call _ => .call p0
  | flow => flow

/-- The target of a jump, if the way on is one. -/
def Flow.target : Flow → Option (BitVec 32)
  | .jump p0 => some p0
  | .call p0 => some p0
  | _ => none

/-- Only jumps have a target, and it is their parameter. -/
lemma target_scriptCmd {r r' : Regs} {i : Instr} {cmd : ScriptCmd} {p0 p1 p : BitVec 32} {flow : Flow}
    (h : scriptCmd r i cmd p0 p1 = some (r', flow)) (hp : flow.target = some p) :
    cmd.isJump = true ∧ p = p0 := by
  cases cmd
  all_goals simp only [scriptCmd, setA, updateA, updateReg, jumpIf, Option.bind_eq_bind,
    Option.bind_eq_some_iff, Option.some.injEq, Prod.mk.injEq] at h
  all_goals grind [Flow.target, ScriptCmd.isJump]

/-- What a jump does depends on its parameter only for its target. -/
lemma scriptCmd_retarget {r : Regs} {cmd : ScriptCmd} (hjump : cmd.isJump = true) (i i' : Instr)
    (p0 p0' p1 : BitVec 32) : scriptCmd r i' cmd p0' p1 =
      (scriptCmd r i cmd p0 p1).map (fun x => (x.1, x.2.retarget p0')) := by
  cases cmd <;> simp only [ScriptCmd.isJump, Bool.false_eq_true] at hjump
  case call => rfl
  all_goals
    simp only [scriptCmd, jumpIf, Option.map_some, Option.some.injEq, Prod.mk.injEq, true_and]
    split <;> rfl

lemma isJump_of_cmd {i : Instr} {cmd : ScriptCmd} (hcmd : i.cmd = .script cmd) :
    i.isJump = cmd.isJump := by
  simp [Instr.isJump, hcmd]

lemma exists_cmd_of_isJump {i : Instr} (h : i.isJump = true) : ∃ cmd, i.cmd = .script cmd := by
  unfold Instr.isJump at h
  split at h
  · exact ⟨_, ‹_›⟩
  · cases h

lemma target_execInstr {r r' : Regs} {i : Instr} {result p : BitVec 32} {flow : Flow}
    (h : execInstr r i result = some (r', flow)) (hp : flow.target = some p)
    (hopt : i.isJump → i.opt 0 = .numeric) : i.isJump = true ∧ p = i.arg 0 := by
  unfold execInstr at h
  split at h
  · rename_i cmd hcmd
    obtain ⟨p0, hp0, h⟩ := Option.bind_eq_some_iff.mp h
    obtain ⟨p1, -, h⟩ := Option.bind_eq_some_iff.mp h
    obtain ⟨hjump, rfl⟩ := target_scriptCmd h hp
    rw [← isJump_of_cmd hcmd] at hjump
    rw [hopt hjump] at hp0
    exact ⟨hjump, (Option.some.inj hp0).symm⟩
  · obtain ⟨args, -, h⟩ := Option.bind_eq_some_iff.mp h
    cases h
    cases hp

lemma execInstr_retarget {r : Regs} {i : Instr} (hjump : i.isJump = true) (hopt : i.opt 0 = .numeric)
    (p0 result : BitVec 32) : execInstr r { i with arg := Function.update i.arg 0 p0 } result =
      (execInstr r i result).map (fun x => (x.1, x.2.retarget p0)) := by
  obtain ⟨cmd, hcmd⟩ := exists_cmd_of_isJump hjump
  rw [isJump_of_cmd hcmd] at hjump
  have hone : Function.update i.arg 0 p0 1 = i.arg 1 := Function.update_of_ne (by decide) _ _
  have hsubst : ∀ x, r.subst .numeric x = some x := fun x => rfl
  simp only [execInstr, hcmd, hopt, hsubst, hone, Function.update_self, Option.bind_eq_bind, Option.bind_some]
  cases r.subst (i.opt 1) (i.arg 1) with
  | none => rfl
  | some p1 => exact scriptCmd_retarget hjump _ _ _ _ _

end Resolve

section Simulation

variable {script : Lines} {tags : List TagStep} {m : Machine} {s : Source}

/-- What the lines of an accepted script are, as far as the simulation needs it. -/
structure Compiled (script : Lines) (tags : List TagStep) : Prop where
  tags : tags.map TagStep.entry = table 0 script
  jumps : ∀ i ∈ code script, i.isJump → i.opt 0 = .numeric ∧ i.arg 0 ∈ labels script
  length : (code script).length < 2 ^ 31

lemma address_eq {n : ℕ} {rest : Lines} (hrest : code rest = (code script).drop (n + 1))
    (hn : n < (code script).length) : address script rest = n + 1 := by
  rw [address, hrest, List.length_drop]
  omega

lemma toInt_ofNat_of_lt {k : ℕ} (hk : k < 2 ^ 31) : (BitVec.ofNat 32 k).toInt = k := by
  have hnat : (BitVec.ofNat 32 k).toNat = k := by
    rw [BitVec.toNat_ofNat]
    exact Nat.mod_eq_of_lt (by omega)
  rw [BitVec.toInt_eq_toNat_of_lt (by omega), hnat]

/-- The machine and the script go on to the same line. -/
lemma simulates_go (hlength : (code script).length < 2 ^ 31) {n k : ℕ} {here rest : Lines} (r : Regs)
    (hhere : code here = (code script).drop n) (hrest : code rest = (code script).drop (n + 1))
    (hn : n < (code script).length) {flow : Flow} (hk : k ≤ (code script).length)
    (hflow : ∀ p, flow.target = some p → ∃ q, target p script = some q ∧ code q = (code script).drop k) :
    Simulates script (Machine.go ⟨r, n⟩ (flow.retarget (.ofNat 32 k)))
      (Source.go script r here rest flow) := by
  have hint : (BitVec.ofNat 32 k).toInt = k := toInt_ofNat_of_lt (Nat.lt_of_le_of_lt hk hlength)
  cases flow with
  | next => exact ⟨rfl, n + 1, rfl, hrest⟩
  | jump p =>
    obtain ⟨q, hq, hcode⟩ := hflow p rfl
    refine ⟨rfl, ?_⟩
    simp only [Machine.go, Flow.retarget, Source.go, hq, hint]
    exact ⟨k, rfl, hcode⟩
  | call p =>
    obtain ⟨q, hq, hcode⟩ := hflow p rfl
    refine ⟨?_, ?_⟩
    · simp only [Machine.go, Flow.retarget, Source.go, address_eq hrest hn]
      rfl
    · simp only [Machine.go, Flow.retarget, Source.go, hq, hint]
      exact ⟨k, rfl, hcode⟩
  | ret =>
    refine ⟨rfl, ?_⟩
    simp only [Machine.go, Flow.retarget, Source.go]
    split
    · assumption
    · rename_i hv
      exact ⟨r.scrPop.1.toInt.toNat, (Int.toNat_of_nonneg (Int.not_lt.mp hv)).symm, Labels.code_after _ _⟩
  | stay => exact ⟨rfl, n, rfl, hhere⟩

lemma retarget_of_target_eq_none {flow : Flow} (h : flow.target = none) (p : BitVec 32) :
    flow.retarget p = flow := by
  cases flow <;> first | rfl | cases h

/-- A resolved instruction does what the line does. -/
lemma Compiled.exec (hscript : Compiled script tags) {n : ℕ} {here rest : Lines} {i : Instr}
    (hhere : code here = (code script).drop n) (hnext : Labels.next here = some (i, rest))
    {r r' : Regs} {result : BitVec 32} {flow : Flow} (hexec : execInstr r i result = some (r', flow)) :
    ∃ flow', execInstr r (resolve tags i) result = some (r', flow') ∧
      Simulates script (Machine.go ⟨r', n⟩ flow') (Source.go script r' here rest flow) := by
  have hcons : (code script).drop n = i :: code rest := by rw [← hhere, Labels.code_of_next hnext]
  have hn : n < (code script).length := by
    rw [← Nat.not_le, ← List.drop_eq_nil_iff, hcons]
    exact List.cons_ne_nil _ _
  have hrest : code rest = (code script).drop (n + 1) := by
    rw [← List.tail_drop, hcons, List.tail_cons]
  have hmem : i ∈ code script := List.mem_of_mem_drop (hcons ▸ List.mem_cons_self)
  have hopt : i.isJump → i.opt 0 = .numeric := fun hjump => (hscript.jumps i hmem hjump).1
  by_cases hjump : i.isJump = true
  · obtain ⟨hnumeric, htag⟩ := hscript.jumps i hmem hjump
    obtain ⟨q, hq⟩ := Option.isSome_iff_exists.mp (Labels.target_isSome_iff.mpr htag)
    obtain ⟨k, hresolve, hk, hcode⟩ := resolve_of_jump hscript.tags hjump hq
    refine ⟨flow.retarget (.ofNat 32 k), ?_, ?_⟩
    · rw [hresolve, execInstr_retarget hjump hnumeric, hexec]
      rfl
    · refine simulates_go hscript.length r' hhere hrest hn hk ?_
      intro p hp
      obtain ⟨-, rfl⟩ := target_execInstr hexec hp hopt
      exact ⟨q, hq, hcode⟩
  · have htarget : flow.target = none := by
      by_contra hne
      obtain ⟨p, hp⟩ := Option.ne_none_iff_exists'.mp hne
      exact hjump (target_execInstr hexec hp hopt).1
    refine ⟨flow, by rw [resolve_of_not_jump (Bool.of_not_eq_true hjump), hexec], ?_⟩
    have hgo := simulates_go hscript.length r' hhere hrest hn (Nat.zero_le _)
      (fun p (hp : flow.target = some p) => by rw [htarget] at hp; cases hp)
    rwa [retarget_of_target_eq_none htarget] at hgo

lemma Compiled.exec_none (hscript : Compiled script tags) {i : Instr} (hi : i ∈ code script) {r : Regs}
    {result : BitVec 32} (hexec : execInstr r i result = none) :
    execInstr r (resolve tags i) result = none := by
  by_cases hjump : i.isJump = true
  · obtain ⟨hnumeric, htag⟩ := hscript.jumps i hi hjump
    obtain ⟨q, hq⟩ := Option.isSome_iff_exists.mp (Labels.target_isSome_iff.mpr htag)
    obtain ⟨k, hresolve, -, -⟩ := resolve_of_jump hscript.tags hjump hq
    rw [hresolve, execInstr_retarget hjump hnumeric, hexec]
    rfl
  · rwa [resolve_of_not_jump (Bool.of_not_eq_true hjump)]

/-- The two sides see the end of the script at the same time. -/
lemma Simulates.checkEnd (h : Simulates script m s) :
    Simulates script (m.checkEnd (code script).length) s.checkEnd := by
  obtain ⟨hregs, hcontrol⟩ := h
  unfold AtLine at hcontrol
  unfold Machine.checkEnd Source.checkEnd
  cases hrest : s.rest with
  | none =>
    rw [hrest] at hcontrol
    dsimp only at hcontrol
    rw [if_neg (by omega)]
    exact ⟨hregs, by simpa [AtLine, hrest] using hcontrol⟩
  | some rest =>
    rw [hrest] at hcontrol
    obtain ⟨n, hPC, hcode⟩ := hcontrol
    have hend : m.PC ≥ (code script).length ↔ code rest = [] := by
      rw [hcode, List.drop_eq_nil_iff, hPC]
      omega
    dsimp only
    by_cases hnil : code rest = []
    · rw [if_pos (hend.mpr hnil), if_pos hnil]
      exact ⟨by rw [hregs], n, hPC, hcode⟩
    · rw [if_neg (fun hPC => hnil (hend.mp hPC)), if_neg hnil]
      refine ⟨hregs, ?_⟩
      rw [hrest]
      exact ⟨n, hPC, hcode⟩

lemma fetch_eq {instrs : List Instr} (hne : instrs ≠ []) (n : ℕ) : fetch instrs n = instrs[n]? := by
  simp [fetch, hne]

/-- A step of the machine is a step of the script. -/
lemma Simulates.step (hscript : Compiled script tags) (hne : code script ≠ []) (h : Simulates script m s)
    (result : BitVec 32) : Option.Rel (Simulates script)
      (m.step ((code script).map (resolve tags)) result) (s.step script result) := by
  obtain ⟨hregs, hcontrol⟩ := h
  unfold AtLine at hcontrol
  unfold Machine.step Source.step
  have hne' : (code script).map (resolve tags) ≠ [] := by simpa using hne
  cases hhere : s.rest with
  | none =>
    rw [hhere] at hcontrol
    simp only [fetch, if_pos hcontrol]
    exact .none
  | some here =>
    rw [hhere] at hcontrol
    obtain ⟨n, hPC, hcode⟩ := hcontrol
    have hfetch : fetch ((code script).map (resolve tags)) n = (code here).head?.map (resolve tags) := by
      rw [fetch_eq hne', List.getElem?_map, hcode, List.head?_drop]
    rw [hPC, hfetch]
    cases hnext : Labels.next here with
    | none =>
      rw [Labels.next_eq_none.mp hnext]
      simp only [List.head?_nil, Option.map_none, Option.bind_eq_bind, Option.bind_none, Option.bind_some, hnext]
      exact .none
    | some x =>
      obtain ⟨i, rest⟩ := x
      have hi : i ∈ code script := by
        have hcons := Labels.code_of_next hnext
        rw [hcode] at hcons
        exact List.mem_of_mem_drop (hcons ▸ List.mem_cons_self)
      rw [Labels.code_of_next hnext]
      simp only [List.head?_cons, Option.map_some, Option.bind_eq_bind, Option.bind_some, hnext, hregs]
      cases hexec : execInstr s.regs i result with
      | none =>
        rw [hscript.exec_none hi hexec]
        exact .none
      | some y =>
        obtain ⟨r, flow⟩ := y
        obtain ⟨flow', hexec', hgo⟩ := hscript.exec hcode hnext hexec
        rw [hexec', List.length_map]
        exact .some hgo.checkEnd

lemma Simulates.pass (hscript : Compiled script tags) (hne : code script ≠ []) (h : Simulates script m s)
    (a : Pass) : Option.Rel (Simulates script)
      (m.pass ((code script).map (resolve tags)) a) (s.pass script a) := by
  cases a with
  | instr result =>
    unfold Machine.pass Source.pass
    dsimp only
    rw [h.regs]
    split
    · exact h.step hscript hne result
    · exact .some h
  | update scriptParam => exact .some ⟨by rw [h.regs], h.control⟩

end Simulation

section Compile

variable {scanF : ScanF} {stale : List Char → ℕ → BitVec 32} {text : List Char} {c : CmdScript}
  {ps : List Parsed}

lemma exists_compiled (htext : text.length < 2 ^ 31)
    (h : cmdParseScript scanF stale text true = some (0, some c))
    (hps : parseCmds scanF stale text.length text = some ps) :
    ∃ tags, Compiled (ps.map Parsed.line) tags ∧
      c.instr = (code (ps.map Parsed.line)).map (resolve tags) := by
  obtain ⟨tags, htable, hinstr⟩ := instr_of_accepted h hps
  obtain ⟨herror, hacc⟩ := (status_eq_zero_iff h hps).mp rfl
  have hfit := two_mul_instrs_le h
  rw [hinstr, List.length_map] at hfit
  refine ⟨tags, ⟨htable, ?_, by omega⟩, hinstr⟩
  intro i hi hjump
  refine ⟨?_, hacc.jumps i hi hjump⟩
  obtain ⟨p, hp, rfl⟩ := mem_code_lines hi
  obtain ⟨text, hparse⟩ := exists_cmdParse hps hp
  obtain ⟨cmd, hcmd⟩ := exists_cmd_of_isJump hjump
  rw [isJump_of_cmd hcmd] at hjump
  exact (scriptOk_of_cmdParse hparse (herror p hp) hcmd).jump hjump

/-- The machine follows the script through each run. -/
lemma compile_simulates (htext : text.length < 2 ^ 31)
    (h : cmdParseScript scanF stale text true = some (0, some c))
    (hps : parseCmds scanF stale text.length text = some ps) (hne : c.instr ≠ []) (r : Regs)
    (as : List Pass) : Option.Rel (Simulates (ps.map Parsed.line))
      (Transition.exec (Machine.pass c.instr) ⟨r, 0⟩ as)
      (Transition.exec (Source.pass (ps.map Parsed.line)) ⟨r, some (ps.map Parsed.line)⟩ as) := by
  obtain ⟨tags, hscript, hinstr⟩ := exists_compiled htext h hps
  have hcode : code (ps.map Parsed.line) ≠ [] := by
    rw [hinstr] at hne
    simpa using hne
  have hstart : Simulates (ps.map Parsed.line) ⟨r, 0⟩ ⟨r, some (ps.map Parsed.line)⟩ := ⟨rfl, 0, rfl, rfl⟩
  rw [hinstr]
  exact Transition.exec_lockstep (fun m s a hms => Simulates.pass hscript hcode hms a) hstart as

/-- The registers when a script starts. -/
def Regs.start : Regs := ⟨fun _ => 0, fun _ => 0, .running, 0, 0, [], []⟩

end Compile

end Lg
