import VoiceButton.Lg.Accepted

/-!
# The operands of accepted commands

The kind of a parameter says whether it is a number or names a variable or a parameter of the
script. In a command that was accepted a name is in its range, and where the script machine takes
a register, a number is in the range of the variables too. Of the commands of the library this
holds for those that store their parameters in the order in which they are read.
-/

namespace Lg

open Function (update)

/-- A parameter that names a variable or a parameter of the script is in range. -/
def InRange (opt : Opt) (arg : BitVec 32) : Prop :=
  match opt with
  | .var => arg.toNat < scriptVars
  | .par => arg.toNat < scriptParams
  | _ => True

/-- A parameter is a register: a variable, unless it names a parameter. -/
def IsRegister (opt : Opt) (arg : BitVec 32) : Prop :=
  match opt with
  | .par => arg.toNat < scriptParams
  | _ => arg.toNat < scriptVars

lemma inRange_of_num {n : Num} {max : ℕ} (h : n.InRange max) : InRange n.opt (.ofNat 32 n.val) := by
  unfold Num.InRange at h
  unfold InRange
  split <;> simp_all
  · exact Nat.lt_of_le_of_lt (Nat.mod_le _ _) h
  · exact Nat.lt_of_le_of_lt (Nat.mod_le _ _) h

lemma isRegister_of_num {n : Num} {max : ℕ} (h : n.InRange max)
    (hvar : (BitVec.ofNat 32 n.val).toNat < scriptVars) : IsRegister n.opt (.ofNat 32 n.val) := by
  have hrange := inRange_of_num h
  unfold InRange at hrange
  unfold IsRegister
  split <;> simp_all

/-- The parameters in the order of their kinds. -/
def Scan.Ordered (s : Scan) : Prop := ∀ k < 8, InRange (s.opt k) (s.arg k)

section Scanf

variable {scanF : ScanF} {s : Scan}

lemma Scan.Ordered.store (h : s.Ordered) (hoffset : s.offset = 4 * s.matched) {n : Num} {max : ℕ}
    (hn : n.InRange max) :
    (s.store n false).Ordered ∧ (s.store n false).offset = 4 * (s.store n false).matched := by
  unfold Scan.store
  split
  · have hword : s.offset / 4 = s.matched := by omega
    refine ⟨?_, by simp only [Bool.false_eq_true, if_false]; omega⟩
    intro k hk
    simp only [Bool.false_eq_true, if_false, hword]
    by_cases hm : s.matched < 8
    · rw [if_pos hm]
      by_cases hkm : k = s.matched
      · subst hkm
        simpa using inRange_of_num hn
      · simpa [hkm] using h k hk
    · have hkm : k ≠ s.matched := by omega
      simpa [hm, hkm] using h k hk
  · exact ⟨h, hoffset⟩

variable (scanF) in
lemma Scan.Ordered.scanUpto {letter : Char} (hletter : letter = 'I' ∨ letter = 'F') (n : ℕ)
    (h : s.Ordered) (hoffset : s.offset = 4 * s.matched) :
    (scanUpto scanF letter n s).Ordered ∧
      (scanUpto scanF letter n s).offset = 4 * (scanUpto scanF letter n s).matched := by
  induction n generalizing s with
  | zero => exact ⟨h, hoffset⟩
  | succ n ih =>
    have hone : (scanOne scanF letter s).Ordered ∧
        (scanOne scanF letter s).offset = 4 * (scanOne scanF letter s).matched := by
      rcases hletter with rfl | rfl
      · exact h.store hoffset (getNum_inRange _ _ _ _)
      · exact h.store hoffset (getNum_inRange _ _ _ _)
    unfold Lg.scanUpto
    dsimp only
    split
    · exact ih hone.1 hone.2
    · exact hone

/-- A format that stores words one after the other. -/
def IsOrdered (fmt : List Char) : Prop := ∀ c ∈ fmt, c = 'I' ∨ c = 'F' ∨ c = 'i'

instance (fmt : List Char) : Decidable (IsOrdered fmt) := List.decidableBAll _ fmt

lemma Scan.Ordered.scanfLoop {fmt : List Char} (hfmt : IsOrdered fmt) (upto : ℕ) (h : s.Ordered)
    (hoffset : s.offset = 4 * s.matched) : (scanfLoop scanF fmt upto s).Ordered := by
  induction fmt generalizing s upto with
  | nil => exact h
  | cons c fmt ih =>
    have hrest : IsOrdered fmt := fun d hd => hfmt d (List.mem_cons_of_mem _ hd)
    unfold Lg.scanfLoop
    split
    · rcases hfmt c List.mem_cons_self with rfl | rfl | rfl
      · obtain ⟨h, hoffset⟩ := h.scanUpto scanF (Or.inl rfl) upto hoffset
        exact ih hrest 1 h hoffset
      · obtain ⟨h, hoffset⟩ := h.scanUpto scanF (Or.inr rfl) upto hoffset
        exact ih hrest 1 h hoffset
      · obtain ⟨h, hoffset⟩ := h.scanUpto scanF (Or.inl rfl) 200 hoffset
        exact ih hrest 1 h hoffset
    · exact h

lemma Scan.Ordered.cmdScanf {fmt : List Char} (hfmt : IsOrdered fmt) (h : s.Ordered) :
    (cmdScanf scanF fmt s).Ordered := by
  refine Scan.Ordered.scanfLoop hfmt 1 ?_ rfl
  exact h

/-- The commands that store their parameters in another order than they read them. -/
def LibCmd.reorders : LibCmd → Bool
  | .csi | .gwave | .ggw | .ggwx => true
  | _ => false

lemma Scan.Ordered.parse101 {cmd : LibCmd} (hcmd : cmd.reorders = false) (h : s.Ordered) :
    (parse101 scanF cmd s).Ordered := by
  unfold Lg.parse101
  split
  all_goals first
    | exact h.cmdScanf (by decide)
    | exact h
    | cases hcmd

end Scanf

/-- The verification types of the commands of the script machine. -/
def ScriptCmd.vt : ScriptCmd → ℕ
  | .dcra | .halt | .inra | .nop | .popa | .pusha | .ret => 200
  | .call | .jge | .jgt | .jle | .jlt | .jmp | .jnz | .jz | .tag => 202
  | .dcr | .inr | .pop | .push | .sta | .xa => 203
  | .ld | .rl | .rr | .shl | .shr => 204
  | .x => 205
  | .sys => 206
  | _ => 201

/-- How many of the first parameters of a command are registers. -/
def ScriptCmd.registers (c : ScriptCmd) : ℕ :=
  match c.vt with
  | 203 | 204 => 1
  | 205 => 2
  | _ => 0

def CmdInfo.consistent (info : CmdInfo) : Bool :=
  match info.cmd with
  | .zero => false
  | .lib _ => info.cvis = false || info.vt = 100 || info.vt = 101
  | .script c => info.vt = c.vt

lemma consistent_of_mem : ∀ info ∈ cmdInfo, info.consistent := by decide +kernel

/-- What the script machine relies on in an instruction of its own. -/
structure ScriptOk (c : ScriptCmd) (i : Instr) : Prop where
  range : ∀ k : Fin 8, k.val < 2 → InRange (i.opt k) (i.arg k)
  register : ∀ k : Fin 8, k.val < c.registers → IsRegister (i.opt k) (i.arg k)
  jump : c.isJump → i.opt 0 = .numeric

section Parsed

variable {scanF : ScanF} {s s' : Scan}

lemma isJump_vt (c : ScriptCmd) : c.isJump → c.vt = 202 := by
  cases c <;> simp [ScriptCmd.isJump, ScriptCmd.vt]

lemma vt_cases (c : ScriptCmd) : c.vt = 200 ∨ c.vt = 201 ∨ c.vt = 202 ∨ c.vt = 203 ∨ c.vt = 204 ∨
    c.vt = 205 ∨ c.vt = 206 := by
  cases c <;> simp [ScriptCmd.vt]

lemma inRange_none (arg : BitVec 32) : InRange .none arg := trivial

/-- No parameter, or one that is no register. -/
lemma ScriptOk.of_value {c : ScriptCmd} {arg : ℕ → BitVec 32} {opt : ℕ → Opt}
    (hregisters : c.registers = 0) (h0 : InRange (opt 0) (arg 0)) (h1 : opt 1 = .none)
    (hjump : c.isJump → opt 0 = .numeric) : ScriptOk c ⟨fun k => arg k, .script c, fun k => opt k⟩ := by
  refine ⟨?_, ?_, hjump⟩
  · intro k hk
    obtain hk | hk : k.val = 0 ∨ k.val = 1 := by omega
    · simpa [hk] using h0
    · simpa [hk, h1] using inRange_none (arg 1)
  · intro k hk
    rw [hregisters] at hk
    exact absurd hk (Nat.not_lt_zero _)

/-- The first parameter is a register. -/
lemma ScriptOk.of_register {c : ScriptCmd} {arg : ℕ → BitVec 32} {opt : ℕ → Opt}
    (hregisters : c.registers ≤ 2) (hjump : c.isJump = false)
    (h0 : InRange (opt 0) (arg 0) ∧ IsRegister (opt 0) (arg 0)) (h1 : InRange (opt 1) (arg 1))
    (h1' : c.registers = 2 → IsRegister (opt 1) (arg 1)) :
    ScriptOk c ⟨fun k => arg k, .script c, fun k => opt k⟩ := by
  refine ⟨?_, ?_, by simp [hjump]⟩
  · intro k hk
    obtain hk | hk : k.val = 0 ∨ k.val = 1 := by omega
    · simpa [hk] using h0.1
    · simpa [hk] using h1
  · intro k hk
    obtain hk' | hk' : k.val = 0 ∨ k.val = 1 := by omega
    · simpa [hk'] using h0.2
    · simpa [hk'] using h1' (by omega)

lemma parseArgs_script {info : CmdInfo} {c : ScriptCmd} (hvt : info.vt = c.vt)
    (hopt : s.opt = fun _ => .none) (h : parseArgs scanF info s = some s') (hvalid : s'.valid = true) :
    ScriptOk c ⟨fun k => s'.arg k, .script c, fun k => s'.opt k⟩ := by
  have hnum := fun text => getNum_inRange scanF text 0xffffffff false
  have hjump : c.vt ≠ 202 → c.isJump = false := fun hne => by
    rw [← Bool.not_eq_true]
    exact fun hc => hne (isJump_vt c hc)
  rcases vt_cases c with hv | hv | hv | hv | hv | hv | hv <;>
    simp only [parseArgs, hvt, hv] at h
  · -- 200
    cases h
    exact .of_value (by simp [ScriptCmd.registers, hv]) (by simp [hopt, inRange_none]) (by simp [hopt])
      (by simp [hjump, hv])
  · -- 201
    cases h
    exact .of_value (by simp [ScriptCmd.registers, hv]) (by simpa [Scan.put] using inRange_of_num (hnum _))
      (by simp [Scan.put, hopt]) (by simp [hjump, hv])
  · -- 202
    cases h
    refine .of_value (by simp [ScriptCmd.registers, hv]) (by simpa [Scan.put] using inRange_of_num (hnum _))
      (by simp [Scan.put, hopt]) ?_
    intro _
    simpa [Scan.put] using hvalid
  · -- 203
    cases h
    simp only [Bool.and_eq_true, decide_eq_true_eq] at hvalid
    refine .of_register (by simp [ScriptCmd.registers, hv]) (hjump (by simp [hv])) ?_
      (by simp [Scan.put, hopt, inRange_none]) (by simp [ScriptCmd.registers, hv])
    simpa [Scan.put] using And.intro (inRange_of_num (hnum _)) (isRegister_of_num (hnum _) hvalid.2)
  · -- 204
    cases h
    simp only [Bool.and_eq_true, decide_eq_true_eq] at hvalid
    refine .of_register (by simp [ScriptCmd.registers, hv]) (hjump (by simp [hv])) ?_ ?_
      (by simp [ScriptCmd.registers, hv])
    · simpa [Scan.put] using And.intro (inRange_of_num (hnum _)) (isRegister_of_num (hnum _) hvalid.1.2)
    · simpa [Scan.put] using inRange_of_num (hnum _)
  · -- 205
    cases h
    simp only [Bool.and_eq_true, decide_eq_true_eq] at hvalid
    refine .of_register (by simp [ScriptCmd.registers, hv]) (hjump (by simp [hv])) ?_ ?_ ?_
    · simpa [Scan.put] using And.intro (inRange_of_num (hnum _)) (isRegister_of_num (hnum _) hvalid.1.1.2)
    · simpa [Scan.put] using inRange_of_num (hnum _)
    · simpa [Scan.put] using fun _ => isRegister_of_num (hnum _) hvalid.2
  · -- 206
    have hnone : c.isJump → s'.opt 0 = .numeric := by simp [hjump, hv]
    split at h <;> cases h
    · exact .of_value (by simp [ScriptCmd.registers, hv]) (by simp [hopt, inRange_none]) (by simp [hopt]) hnone
    · rename_i s₁ hs
      obtain ⟨rest, -, rfl⟩ := Option.map_eq_some_iff.mp hs
      exact .of_value (by simp [ScriptCmd.registers, hv]) (by simp [hopt, inRange_none]) (by simp [hopt]) hnone

/-- An accepted command is one of the table whose parameters were read. -/
lemma exists_parseArgs {text : List Char} {arg : ℕ → BitVec 32} {p : Parsed}
    (h : cmdParse scanF text arg = some p) (herror : p.error = none) :
    ∃ info s, info ∈ cmdInfo ∧ p.cmd = info.cmd ∧ info.cvis = true ∧ p.scan.valid = true ∧
      s.opt = (fun _ => .none) ∧ parseArgs scanF info s = some p.scan := by
  unfold cmdParse at h
  obtain ⟨⟨word, rest⟩, hword, h⟩ := Option.bind_eq_some_iff.mp h
  dsimp only at h
  split at h
  · cases h
    cases herror
  · rename_i info hmatch
    obtain ⟨s, hs, h⟩ := Option.bind_eq_some_iff.mp h
    cases h
    unfold Parsed.error at herror
    dsimp only at herror
    split at herror
    · cases herror
    · rename_i hcvis
      split at herror
      · cases herror
      · rename_i hvalid
        exact ⟨info, _, List.mem_of_find?_eq_some hmatch, rfl, Bool.of_not_eq_false hcvis,
          Bool.of_not_eq_false hvalid, rfl, hs⟩

/-- What an accepted command of the script machine is. -/
theorem scriptOk_of_cmdParse {text : List Char} {arg : ℕ → BitVec 32} {p : Parsed} {c : ScriptCmd}
    (h : cmdParse scanF text arg = some p) (herror : p.error = none) (hc : p.cmd = .script c) :
    ScriptOk c p.instr := by
  obtain ⟨info, s, hinfo, hcmd, -, hvalid, hopt, hargs⟩ := exists_parseArgs h herror
  have hvt := consistent_of_mem info hinfo
  simp only [CmdInfo.consistent, ← hcmd, hc, decide_eq_true_eq] at hvt
  have hok := parseArgs_script hvt hopt hargs hvalid
  rw [← hc] at hok
  exact hok

/-- The parameters of an accepted command of the library that name a register are in range, unless
the command reorders them. -/
theorem inRange_of_cmdParse {text : List Char} {arg : ℕ → BitVec 32} {p : Parsed} {c : LibCmd}
    (h : cmdParse scanF text arg = some p) (herror : p.error = none) (hc : p.cmd = .lib c)
    (hreorders : c.reorders = false) (k : Fin 8) : InRange (p.instr.opt k) (p.instr.arg k) := by
  obtain ⟨info, s, hinfo, hcmd, hcvis, -, hopt, hargs⟩ := exists_parseArgs h herror
  have hordered : s.Ordered := fun k _ => by
    rw [hopt]
    exact inRange_none _
  have hvt := consistent_of_mem info hinfo
  simp only [CmdInfo.consistent, ← hcmd, hc, hcvis, Bool.or_eq_true, decide_eq_true_eq, reduceCtorEq,
    decide_false, Bool.false_eq_true, false_or] at hvt
  suffices hscan : p.scan.Ordered from hscan k k.isLt
  rcases hvt with hvt | hvt
  · simp only [parseArgs, hvt] at hargs
    rw [← Option.some.inj hargs]
    exact hordered
  · simp only [parseArgs, hvt, ← hcmd, hc] at hargs
    rw [← Option.some.inj hargs]
    exact hordered.parse101 hreorders

lemma cmd_ne_zero {text : List Char} {arg : ℕ → BitVec 32} {p : Parsed}
    (h : cmdParse scanF text arg = some p) (herror : p.error = none) : p.cmd ≠ .zero := by
  obtain ⟨info, s, hinfo, hcmd, -⟩ := exists_parseArgs h herror
  intro hzero
  have hconsistent := consistent_of_mem info hinfo
  simp [CmdInfo.consistent, ← hcmd, hzero] at hconsistent

end Parsed

end Lg
