import VoiceButton.Lg.ScriptMeaning

/-!
# What can go wrong in a running script

In an accepted script a register, a parameter and the target of a jump are always in range, and
the stack never overflows its array. What is left is a division by zero or with overflow, a shift
by 32 bits or more, a return to a negative number, and a command of the library whose parameters
are stored in another order than their kinds.
-/

namespace Lg

open Labels (code labels table)

/-- The ways in which an instruction of an accepted script can do what C leaves undefined. -/
inductive Faulty (r : Regs) (instr : Instr) : Prop
  | divide (cmd : ScriptCmd) (hcmd : instr.cmd = .script cmd) (hdiv : cmd = .div ∨ cmd = .mod)
      (p0 : BitVec 32) (hp0 : r.subst (instr.opt 0) (instr.arg 0) = some p0) (h : ¬ DivOk r.A p0)
  | shiftA (cmd : ScriptCmd) (hcmd : instr.cmd = .script cmd)
      (hshift : cmd = .rla ∨ cmd = .rra ∨ cmd = .shla ∨ cmd = .shra)
      (p0 : BitVec 32) (hp0 : r.subst (instr.opt 0) (instr.arg 0) = some p0) (h : 32 ≤ p0.toNat)
  | shift (cmd : ScriptCmd) (hcmd : instr.cmd = .script cmd)
      (hshift : cmd = .rl ∨ cmd = .rr ∨ cmd = .shl ∨ cmd = .shr)
      (p1 : BitVec 32) (hp1 : r.subst (instr.opt 1) (instr.arg 1) = some p1) (h : 32 ≤ p1.toNat)
  | operand (cmd : LibCmd) (hcmd : instr.cmd = .lib cmd) (hreorders : cmd.reorders = true)
      (k : Fin 8) (h : ¬ InRange (instr.opt k) (instr.arg k))

section Registers

variable {r : Regs} {opt : Opt} {arg : BitVec 32}

lemma subst_isSome : (r.subst opt arg).isSome ↔ InRange opt arg := by
  unfold Regs.subst InRange Regs.getVar Regs.getPar
  cases opt <;> simp

lemma get_isSome : (r.get opt arg).isSome ↔ IsRegister opt arg := by
  unfold Regs.get IsRegister Regs.getVar Regs.getPar
  cases opt <;> simp

lemma set_isSome (v : BitVec 32) : (r.set opt arg v).isSome ↔ IsRegister opt arg := by
  unfold Regs.set IsRegister Regs.setVar Regs.setPar
  cases opt <;> simp

end Registers

section Instr

variable {r : Regs} {instr : Instr}

lemma exists_get {opt : Opt} {arg : BitVec 32} (h : IsRegister opt arg) (r : Regs) : ∃ v, r.get opt arg = some v :=
  Option.isSome_iff_exists.mp (get_isSome.mpr h)

lemma exists_set {opt : Opt} {arg : BitVec 32} (h : IsRegister opt arg) (r : Regs) (v : BitVec 32) : ∃ r', r.set opt arg v = some r' :=
  Option.isSome_iff_exists.mp ((set_isSome v).mpr h)

/-- The shifts and divisions that are undefined. -/
def Undefined (r : Regs) (cmd : ScriptCmd) (p0 p1 : BitVec 32) : Prop :=
  match cmd with
  | .div | .mod => ¬ DivOk r.A p0
  | .rla | .rra | .shla | .shra => 32 ≤ p0.toNat
  | .rl | .rr | .shl | .shr => 32 ≤ p1.toNat
  | _ => False

lemma xrl_eq_none (x n : BitVec 32) : xrl x n = none ↔ 32 ≤ n.toNat := by simp [xrl]

lemma xrr_eq_none (x n : BitVec 32) : xrr x n = none ↔ 32 ≤ n.toNat := by simp [xrr]

lemma xsl_eq_none (x n : BitVec 32) : xsl x n = none ↔ 32 ≤ n.toNat := by simp [xsl]

lemma xsr_eq_none (x n : BitVec 32) : xsr x n = none ↔ 32 ≤ n.toNat := by simp [xsr]

lemma updateReg_eq_none {f : BitVec 32 → Option (BitVec 32)} {P : Prop}
    (h : IsRegister (instr.opt 0) (instr.arg 0)) (hf : ∀ x, f x = none ↔ P) :
    updateReg r instr f = none ↔ P := by
  obtain ⟨x, hx⟩ := exists_get h r
  rw [← hf x, updateReg, hx]
  cases hfx : f x with
  | none => simp [hfx]
  | some v =>
    obtain ⟨r', hr'⟩ := exists_set h r v
    simp [hfx, hr']

lemma updateA_eq_none {f : BitVec 32 → Option (BitVec 32)} {P : Prop} (hf : ∀ x, f x = none ↔ P) :
    updateA r f = none ↔ P := by
  rw [← hf r.A, updateA]
  cases hfx : f r.A <;> simp

lemma scriptCmd_eq_none {cmd : ScriptCmd} (hok : ScriptOk cmd instr) (p0 p1 : BitVec 32) :
    scriptCmd r instr cmd p0 p1 = none ↔ Undefined r cmd p0 p1 := by
  have hget := fun (k : Fin 8) (hk : k.val < cmd.registers) => exists_get (hok.register k hk)
  have hset := fun (k : Fin 8) (hk : k.val < cmd.registers) => exists_set (hok.register k hk)
  have hreg := fun (hk : 0 < cmd.registers) => hok.register 0 hk
  cases cmd
  case rl => exact updateReg_eq_none (hreg (by decide)) (fun x => xrl_eq_none x p1)
  case rr => exact updateReg_eq_none (hreg (by decide)) (fun x => xrr_eq_none x p1)
  case shl => exact updateReg_eq_none (hreg (by decide)) (fun x => xsl_eq_none x p1)
  case shr => exact updateReg_eq_none (hreg (by decide)) (fun x => xsr_eq_none x p1)
  case rla => exact updateA_eq_none (fun x => xrl_eq_none x p0)
  case rra => exact updateA_eq_none (fun x => xrr_eq_none x p0)
  case shla => exact updateA_eq_none (fun x => xsl_eq_none x p0)
  case shra => exact updateA_eq_none (fun x => xsr_eq_none x p0)
  case dcr => exact updateReg_eq_none (hreg (by decide)) (by simp [Undefined])
  case inr => exact updateReg_eq_none (hreg (by decide)) (by simp [Undefined])
  case div => simp [scriptCmd, setA, Undefined]
  case mod => simp [scriptCmd, setA, Undefined]
  case ld =>
    obtain ⟨r', hr'⟩ := hset 0 (by decide) r p1
    simp [scriptCmd, Undefined, hr']
  case pop =>
    obtain ⟨r', hr'⟩ := hset 0 (by decide) r.scrPop.2 r.scrPop.1
    simp [scriptCmd, Undefined, hr']
  case push =>
    obtain ⟨x, hx⟩ := hget 0 (by decide) r
    simp [scriptCmd, Undefined, hx]
  case sta =>
    obtain ⟨r', hr'⟩ := hset 0 (by decide) r r.A
    simp [scriptCmd, Undefined, hr']
  case xa =>
    obtain ⟨x, hx⟩ := hget 0 (by decide) r
    obtain ⟨r', hr'⟩ := hset 0 (by decide) r r.A
    simp [scriptCmd, Undefined, hx, hr']
  case x =>
    obtain ⟨v1, hv1⟩ := hget 0 (by decide) r
    obtain ⟨v2, hv2⟩ := hget 1 (by decide) r
    obtain ⟨r', hr'⟩ := hset 0 (by decide) r v2
    obtain ⟨r'', hr''⟩ := hset 1 (by decide) r' v1
    simp [scriptCmd, Undefined, hv1, hv2, hr', hr'']
  all_goals simp [scriptCmd, setA, jumpIf, Undefined]

/-- What holds of an instruction of an accepted script. -/
def InstrOk (instr : Instr) : Prop :=
  match instr.cmd with
  | .zero => False
  | .script cmd => ScriptOk cmd instr
  | .lib cmd => cmd.reorders = false → ∀ k, InRange (instr.opt k) (instr.arg k)

lemma mapM_eq_none {α β : Type} (f : α → Option β) (l : List α) :
    l.mapM f = none ↔ ∃ a ∈ l, f a = none := by
  induction l with
  | nil => simp
  | cons a l ih =>
    rw [List.mapM_cons]
    cases ha : f a with
    | none => simp [ha]
    | some b => cases hl : l.mapM f <;> simp_all

lemma subst_eq_none {opt : Opt} {arg : BitVec 32} : r.subst opt arg = none ↔ ¬ InRange opt arg := by
  rw [← subst_isSome (r := r), ← Option.not_isSome_iff_eq_none]

lemma faulty_of_undefined {cmd : ScriptCmd} (hcmd : instr.cmd = .script cmd) {p0 p1 : BitVec 32}
    (hp0 : r.subst (instr.opt 0) (instr.arg 0) = some p0) (hp1 : r.subst (instr.opt 1) (instr.arg 1) = some p1)
    (h : Undefined r cmd p0 p1) : Faulty r instr := by
  unfold Undefined at h
  split at h
  case h_1 => exact .divide _ hcmd (by simp) p0 hp0 h
  case h_2 => exact .divide _ hcmd (by simp) p0 hp0 h
  case h_11 => exact h.elim
  case h_3 | h_4 | h_5 | h_6 => exact .shiftA _ hcmd (by simp) p0 hp0 h
  case h_7 | h_8 | h_9 | h_10 => exact .shift _ hcmd (by simp) p1 hp1 h

/-- An instruction of an accepted script can be executed unless it is faulty. -/
lemma execInstr_eq_none (hok : InstrOk instr) (result : BitVec 32) :
    execInstr r instr result = none ↔ Faulty r instr := by
  unfold InstrOk at hok
  unfold execInstr
  cases hcmd : instr.cmd with
  | zero =>
    rw [hcmd] at hok
    exact hok.elim
  | script cmd =>
    rw [hcmd] at hok
    obtain ⟨p0, hp0⟩ := Option.isSome_iff_exists.mp ((subst_isSome (r := r)).mpr (hok.range 0 (by decide)))
    obtain ⟨p1, hp1⟩ := Option.isSome_iff_exists.mp ((subst_isSome (r := r)).mpr (hok.range 1 (by decide)))
    simp only [hp0, hp1, Option.bind_eq_bind, Option.bind_some]
    rw [scriptCmd_eq_none hok]
    constructor
    · exact faulty_of_undefined hcmd hp0 hp1
    · intro hfault
      cases hfault with
      | divide cmd' hcmd' hdiv q hq h =>
        rw [hcmd] at hcmd'
        cases hcmd'
        rw [hp0] at hq
        cases hq
        rcases hdiv with rfl | rfl <;> exact h
      | shiftA cmd' hcmd' hshift q hq h =>
        rw [hcmd] at hcmd'
        cases hcmd'
        rw [hp0] at hq
        cases hq
        rcases hshift with rfl | rfl | rfl | rfl <;> exact h
      | shift cmd' hcmd' hshift q hq h =>
        rw [hcmd] at hcmd'
        cases hcmd'
        rw [hp1] at hq
        cases hq
        rcases hshift with rfl | rfl | rfl | rfl <;> exact h
      | operand cmd' hcmd' =>
        rw [hcmd] at hcmd'
        cases hcmd'
  | lib cmd =>
    rw [hcmd] at hok
    simp only [Option.bind_eq_bind, Option.bind_eq_none_iff, reduceCtorEq, imp_false]
    rw [← Option.eq_none_iff_forall_ne_some, mapM_eq_none]
    constructor
    · rintro ⟨k, -, hk⟩
      rw [subst_eq_none] at hk
      cases hreorders : cmd.reorders with
      | false => exact absurd (hok hreorders k) hk
      | true => exact .operand cmd hcmd hreorders k hk
    · intro hfault
      cases hfault with
      | operand cmd' _ _ k h => exact ⟨k, List.mem_finRange k, subst_eq_none.mpr h⟩
      | divide cmd' hcmd' =>
        rw [hcmd] at hcmd'
        cases hcmd'
      | shiftA cmd' hcmd' =>
        rw [hcmd] at hcmd'
        cases hcmd'
      | shift cmd' hcmd' =>
        rw [hcmd] at hcmd'
        cases hcmd'

end Instr

section Stack

variable {r r' : Regs} {instr : Instr} {flow : Flow}

lemma set_S {opt : Opt} {arg v : BitVec 32} (h : r.set opt arg v = some r') : r'.S = r.S := by
  unfold Regs.set Regs.setPar Regs.setVar at h
  split at h <;> split at h <;> cases h <;> rfl

lemma scrPop_S (r : Regs) : r.scrPop.2.S.length ≤ r.S.length := by
  unfold Regs.scrPop
  split <;> simp_all

lemma scrPush_S (v : BitVec 32) (h : r.S.length ≤ scriptStackSize) :
    (r.scrPush v).S.length ≤ scriptStackSize := by
  unfold Regs.scrPush
  split
  · simpa using ‹_›
  · exact h

lemma stack_scriptCmd {cmd : ScriptCmd} {p0 p1 : BitVec 32} (h : r.S.length ≤ scriptStackSize)
    (hexec : scriptCmd r instr cmd p0 p1 = some (r', flow)) : r'.S.length ≤ scriptStackSize := by
  have hpop := scrPop_S r
  have hpush := fun v => scrPush_S (r := r) v h
  cases cmd
  all_goals simp only [scriptCmd, setA, updateA, updateReg, jumpIf, Option.bind_eq_bind,
    Option.bind_eq_some_iff, Option.some.injEq, Prod.mk.injEq] at hexec
  all_goals grind [→ set_S]

lemma stack_execInstr {result : BitVec 32} (h : r.S.length ≤ scriptStackSize)
    (hexec : execInstr r instr result = some (r', flow)) : r'.S.length ≤ scriptStackSize := by
  unfold execInstr at hexec
  split at hexec
  · obtain ⟨p0, -, hexec⟩ := Option.bind_eq_some_iff.mp hexec
    obtain ⟨p1, -, hexec⟩ := Option.bind_eq_some_iff.mp hexec
    exact stack_scriptCmd h hexec
  · obtain ⟨args, -, hexec⟩ := Option.bind_eq_some_iff.mp hexec
    cases hexec
    exact h

lemma stack_go {PC : ℤ} (h : r.S.length ≤ scriptStackSize) :
    (Machine.go ⟨r, PC⟩ flow).regs.S.length ≤ scriptStackSize := by
  cases flow with
  | call p0 => exact scrPush_S _ h
  | ret => exact Nat.le_trans (scrPop_S r) h
  | _ => exact h

end Stack

section Accepted

variable {scanF : ScanF} {stale : List Char → ℕ → BitVec 32} {text : List Char} {c : CmdScript}
  {ps : List Parsed}

lemma instrOk_of_parsed {text : List Char} {arg : ℕ → BitVec 32} {p : Parsed}
    (h : cmdParse scanF text arg = some p) (herror : p.error = none) : InstrOk p.instr := by
  cases hcmd : p.cmd with
  | zero => exact absurd hcmd (cmd_ne_zero h herror)
  | script cmd => simpa [InstrOk, Parsed.instr, hcmd] using scriptOk_of_cmdParse h herror hcmd
  | lib cmd => simpa [InstrOk, Parsed.instr, hcmd] using inRange_of_cmdParse h herror hcmd

/-- A resolved jump keeps what the machine relies on. -/
lemma InstrOk.retarget {i : Instr} (h : InstrOk i) (hjump : i.isJump = true) (p0 : BitVec 32) :
    InstrOk { i with arg := Function.update i.arg 0 p0 } := by
  obtain ⟨cmd, hcmd⟩ := exists_cmd_of_isJump hjump
  rw [isJump_of_cmd hcmd] at hjump
  simp only [InstrOk, hcmd] at h ⊢
  have hregisters : cmd.registers = 0 := by simp [ScriptCmd.registers, isJump_vt cmd hjump]
  refine ⟨?_, ?_, h.jump⟩
  · intro k hk
    by_cases hzero : k = 0
    · subst hzero
      rw [h.jump hjump]
      trivial
    · simpa [hzero] using h.range k hk
  · intro k hk
    rw [hregisters] at hk
    exact absurd hk (Nat.not_lt_zero _)

/-- An instruction of an accepted script, with the target of a jump among its instructions or at
their end. -/
structure CodeOk (instrs : List Instr) : Prop where
  instr : ∀ i ∈ instrs, InstrOk i
  target : ∀ i ∈ instrs, i.isJump → i.opt 0 = .numeric ∧ 0 ≤ (i.arg 0).toInt ∧
    (i.arg 0).toInt ≤ instrs.length

lemma codeOk_of_accepted (htext : text.length < 2 ^ 31)
    (h : cmdParseScript scanF stale text true = some (0, some c))
    (hps : parseCmds scanF stale text.length text = some ps) : CodeOk c.instr := by
  obtain ⟨tags, hscript, hinstr⟩ := exists_compiled htext h hps
  obtain ⟨herror, hacc⟩ := (status_eq_zero_iff h hps).mp rfl
  have hline : ∀ j ∈ code (ps.map Parsed.line), InstrOk j := by
    intro j hj
    obtain ⟨p, hp, rfl⟩ := mem_code_lines hj
    obtain ⟨text, hparse⟩ := exists_cmdParse hps hp
    exact instrOk_of_parsed hparse (herror p hp)
  have hresolve : ∀ j ∈ code (ps.map Parsed.line), j.isJump = true →
      ∃ k ≤ (code (ps.map Parsed.line)).length,
        resolve tags j = { j with arg := Function.update j.arg 0 (.ofNat 32 k) } := by
    intro j hj hjump
    obtain ⟨q, hq⟩ := Option.isSome_iff_exists.mp (Labels.target_isSome_iff.mpr (hscript.jumps j hj hjump).2)
    obtain ⟨k, hk, hle, -⟩ := resolve_of_jump hscript.tags hjump hq
    exact ⟨k, hle, hk⟩
  rw [hinstr]
  refine ⟨?_, ?_⟩
  · intro i hi
    obtain ⟨j, hj, rfl⟩ := List.mem_map.mp hi
    by_cases hjump : j.isJump = true
    · obtain ⟨k, -, hk⟩ := hresolve j hj hjump
      rw [hk]
      exact (hline j hj).retarget hjump _
    · rw [resolve_of_not_jump (Bool.of_not_eq_true hjump)]
      exact hline j hj
  · intro i hi hijump
    obtain ⟨j, hj, rfl⟩ := List.mem_map.mp hi
    have hjump : j.isJump = true := by rwa [Instr.isJump, resolve_cmd] at hijump
    obtain ⟨k, hle, hk⟩ := hresolve j hj hjump
    have hlength := hscript.length
    rw [hk, List.length_map]
    refine ⟨(hscript.jumps j hj hjump).1, ?_⟩
    simp only [Function.update_self, toInt_ofNat_of_lt (Nat.lt_of_le_of_lt hle hlength)]
    omega

end Accepted

section Run

variable {instrs : List Instr} {r : Regs} {m m' : Machine}

/-- `PC` is a negative number that a `RET` of the run has taken from the stack. -/
def ReturnedBelow (instrs : List Instr) (r : Regs) (as : List Pass) (m : Machine) : Prop :=
  m.PC < 0 ∧ ∃ bs cs result u instr, as = bs ++ .instr result :: cs ∧
    Transition.exec (Machine.pass instrs) ⟨r, 0⟩ bs = some u ∧ fetch instrs u.PC = some instr ∧
    instr.cmd = .script .ret ∧ u.regs.scrPop.1.toInt = m.PC

lemma ret_of_flow {r' : Regs} {instr : Instr} {result : BitVec 32}
    (h : execInstr r instr result = some (r', .ret)) : instr.cmd = .script .ret ∧ r' = r := by
  unfold execInstr at h
  split at h
  · rename_i cmd hcmd
    rw [hcmd]
    obtain ⟨p0, -, h⟩ := Option.bind_eq_some_iff.mp h
    obtain ⟨p1, -, h⟩ := Option.bind_eq_some_iff.mp h
    cases cmd
    all_goals simp only [scriptCmd, setA, updateA, updateReg, jumpIf, Option.bind_eq_bind,
      Option.bind_eq_some_iff, Option.some.injEq, Prod.mk.injEq] at h
    all_goals grind
  · obtain ⟨args, -, h⟩ := Option.bind_eq_some_iff.mp h
    cases h

lemma fetch_eq_some {PC : ℤ} {instr : Instr} (hne : instrs ≠ []) (h : fetch instrs PC = some instr) :
    0 ≤ PC ∧ instr ∈ instrs := by
  unfold fetch at h
  split at h
  · cases h
  · rename_i hPC
    simp only [hne, false_and, if_false] at h
    exact ⟨Int.not_lt.mp hPC, List.mem_of_getElem? h⟩

@[simp] lemma checkEnd_PC (m : Machine) (instrs : ℕ) : (m.checkEnd instrs).PC = m.PC := by
  unfold Machine.checkEnd
  split <;> rfl

@[simp] lemma checkEnd_S (m : Machine) (instrs : ℕ) : (m.checkEnd instrs).regs.S = m.regs.S := by
  unfold Machine.checkEnd
  split <;> rfl

lemma PC_of_running {n : ℕ} (h : (m.checkEnd n).regs.runState = .running) : (m.checkEnd n).PC < n := by
  rw [checkEnd_PC]
  unfold Machine.checkEnd at h
  split at h
  · cases h
  · omega

/-- A step keeps the stack in its array, and only `RET` leads to a negative `PC`. -/
lemma Machine.step_ok (hcode : CodeOk instrs) (hne : instrs ≠ []) (hS : m.regs.S.length ≤ scriptStackSize)
    {result : BitVec 32} (h : m.step instrs result = some m') :
    m'.regs.S.length ≤ scriptStackSize ∧ (m'.regs.runState = .running → m'.PC < instrs.length) ∧
      (m'.PC < 0 → ∃ instr, fetch instrs m.PC = some instr ∧ instr.cmd = .script .ret ∧
        m.regs.scrPop.1.toInt = m'.PC) := by
  obtain ⟨instr, hfetch, h⟩ := Option.bind_eq_some_iff.mp h
  obtain ⟨⟨r, flow⟩, hexec, h⟩ := Option.bind_eq_some_iff.mp h
  cases h
  obtain ⟨hPC, hmem⟩ := fetch_eq_some hne hfetch
  refine ⟨?_, PC_of_running, ?_⟩
  · rw [checkEnd_S]
    exact stack_go (stack_execInstr hS hexec)
  · rw [checkEnd_PC]
    intro hneg
    have htarget : ∀ p, flow.target = some p → 0 ≤ p.toInt := by
      intro p hp
      obtain ⟨hjump, rfl⟩ := target_execInstr hexec hp (fun hjump => (hcode.target instr hmem hjump).1)
      exact (hcode.target instr hmem hjump).2.1
    cases flow with
    | next =>
      have hnext : m.PC + 1 < 0 := hneg
      omega
    | stay => exact absurd hneg (Int.not_lt.mpr hPC)
    | jump p => exact absurd hneg (Int.not_lt.mpr (htarget p rfl))
    | call p => exact absurd hneg (Int.not_lt.mpr (htarget p rfl))
    | ret =>
      obtain ⟨hret, rfl⟩ := ret_of_flow hexec
      exact ⟨instr, hfetch, hret, rfl⟩

/-- What holds of the machine after each run. -/
structure RunOk (instrs : List Instr) (r : Regs) (as : List Pass) (m : Machine) : Prop where
  stack : m.regs.S.length ≤ scriptStackSize
  bound : m.regs.runState = .running → m.PC < instrs.length
  below : m.PC < 0 → ReturnedBelow instrs r as m

lemma ReturnedBelow.concat {as : List Pass} (h : ReturnedBelow instrs r as m) (a : Pass)
    (hPC : m'.PC = m.PC) : ReturnedBelow instrs r (as ++ [a]) m' := by
  obtain ⟨hneg, bs, cs, result, u, instr, rfl, hu, hfetch, hret, hpop⟩ := h
  exact ⟨hPC ▸ hneg, bs, cs ++ [a], result, u, instr, by simp, hu, hfetch, hret, hPC ▸ hpop⟩

lemma run_ok (hcode : CodeOk instrs) (hne : instrs ≠ []) (hS : r.S.length ≤ scriptStackSize)
    {as : List Pass} (h : Transition.exec (Machine.pass instrs) ⟨r, 0⟩ as = some m) :
    RunOk instrs r as m := by
  refine Transition.history_of_exec (I := RunOk instrs r) ?_ ?_ h
  · have hpos := List.length_pos_iff.mpr hne
    exact ⟨hS, fun _ => Int.natCast_pos.mpr hpos, fun hneg => absurd hneg (Int.lt_irrefl 0)⟩
  · intro pre a u v hu hok huv
    cases a with
    | update scriptParam =>
      cases huv
      exact ⟨hok.stack, hok.bound, fun hneg => (hok.below hneg).concat _ rfl⟩
    | instr result =>
      unfold Machine.pass at huv
      dsimp only at huv
      split at huv
      · obtain ⟨hstack, hbound, hbelow⟩ := Machine.step_ok hcode hne hok.stack huv
        refine ⟨hstack, hbound, ?_⟩
        intro hneg
        obtain ⟨instr, hfetch, hret, hpop⟩ := hbelow hneg
        exact ⟨hneg, pre, [], result, u, instr, rfl, hu, hfetch, hret, hpop⟩
      · cases huv
        exact ⟨hok.stack, hok.bound, fun hneg => (hok.below hneg).concat _ rfl⟩

lemma step_eq_none (hcode : CodeOk instrs) (hne : instrs ≠ []) (hbound : m.PC < instrs.length)
    (result : BitVec 32) : m.step instrs result = none ↔
      (∃ instr, fetch instrs m.PC = some instr ∧ Faulty m.regs instr) ∨ m.PC < 0 := by
  simp only [Machine.step, Option.bind_eq_bind]
  cases hfetch : fetch instrs m.PC with
  | none =>
    suffices hneg : m.PC < 0 by simp [hneg]
    unfold fetch at hfetch
    split at hfetch
    · assumption
    · simp only [hne, false_and, if_false, List.getElem?_eq_none_iff] at hfetch
      omega
  | some instr =>
    obtain ⟨hPC, hmem⟩ := fetch_eq_some hne hfetch
    have hnot : ¬ m.PC < 0 := Int.not_lt.mpr hPC
    simp only [Option.bind_some, Option.some.injEq, exists_eq_left', hnot, or_false]
    rw [← execInstr_eq_none (hcode.instr instr hmem) result]
    cases execInstr m.regs instr result <;> simp

end Run

end Lg
