import VoiceButton.Lg.CmdScript

/-!
# What reading a script eats

Each command of a script eats at least two characters or the rest of the text. So the
instructions fit into the memory that is allocated for them, and reading ends.
-/

namespace Lg

section Eats

variable (scanF : ScanF) (s : Scan)

lemma store_eats (n : Num) (long : Bool) (h : Eats s.rest n.rest) : Eats s.rest (s.store n long).rest := by
  unfold Scan.store
  split <;> exact h

lemma scanOne_eats (letter : Char) : Eats s.rest (scanOne scanF letter s).rest := by
  unfold scanOne
  split
  · exact store_eats s _ _ (getNum_eats _ _ _ _)
  · exact store_eats s _ _ (getNum_eats _ _ _ _)
  · exact store_eats s _ _ (getNum_eats _ _ _ _)
  · unfold Scan.storeByte
    split
    · exact getNum_eats _ _ _ _
    · exact .refl _
  · exact .refl _

lemma scanUpto_eats (letter : Char) (n : ℕ) : Eats s.rest (scanUpto scanF letter n s).rest := by
  induction n generalizing s with
  | zero => exact .refl _
  | succ n ih =>
    have hone := scanOne_eats scanF s letter
    unfold scanUpto
    dsimp only
    split
    · exact hone.trans (ih _)
    · exact hone

lemma scanfLoop_eats (fmt : List Char) (upto : ℕ) : Eats s.rest (scanfLoop scanF fmt upto s).rest := by
  induction fmt generalizing s upto with
  | nil => exact .refl _
  | cons letter fmt ih =>
    unfold scanfLoop
    split
    · split
      all_goals first
        | exact (scanUpto_eats scanF s _ _).trans (ih _ _)
        | exact ih _ _
    · exact .refl _

lemma cmdScanf_eats (fmt : List Char) : Eats s.rest (cmdScanf scanF fmt s).rest :=
  scanfLoop_eats scanF _ fmt 1

lemma parseWave_eats : Eats s.rest (parseWave scanF s).rest := by
  have hh := getNum_eats scanF s.rest 0xffffffff false
  have hg := getNum_eats scanF (getNum scanF s.rest 0xffffffff false).rest 0xffffffff false
  have hrest := (hh.trans hg).trans (cmdScanf_eats scanF { s with rest := _ } ['*', 'Q'])
  unfold parseWave
  dsimp only
  split <;> exact hrest

lemma parse101_eats (cmd : LibCmd) : Eats s.rest (parse101 scanF cmd s).rest := by
  unfold parse101
  split
  all_goals first
    | exact cmdScanf_eats scanF s _
    | exact parseWave_eats scanF s
    | exact .refl _

lemma eats_nil (text : List Char) : Eats text [] := ⟨List.nil_suffix, fun _ => rfl⟩

lemma string_eats {s s' : Scan} (h : s.string = some s') : Eats s.rest s'.rest := by
  obtain ⟨rest, hrest, rfl⟩ := Option.map_eq_some_iff.mp h
  exact eats_skipSpace (scanString_suffix hrest)

lemma parseArgs_eats {info : CmdInfo} {s s' : Scan} (h : parseArgs scanF info s = some s') :
    Eats s.rest s'.rest := by
  have hnum : ∀ text, Eats text (getNum scanF text 0xffffffff false).rest := fun text =>
    getNum_eats scanF text _ _
  unfold parseArgs at h
  dsimp only at h
  split at h
  · cases h -- 100
    exact .refl _
  · split at h <;> cases h -- 101
    · exact parse101_eats scanF s _
    · exact .refl _
  · split at h <;> cases h -- 102
    · exact .refl _
    · exact (string_eats ‹_›).trans (hnum _)
  · cases h -- 103
    exact cmdScanf_eats scanF s _
  · cases h -- 104
    exact cmdScanf_eats scanF s _
  · cases hs : s.string <;> rw [hs] at h <;> cases h -- 105
    · exact .refl _
    · have hstring := string_eats hs
      exact hstring
  · cases h -- 106
    exact eats_nil _
  · cases h -- 107
    exact cmdScanf_eats scanF s _
  · split at h <;> cases h -- 108
    · exact .refl _
    · exact ((string_eats ‹_›).trans (hnum _)).trans (hnum _)
  · split at h <;> cases h -- 109
    · exact .refl _
    · exact eats_nil _
  · cases h -- 200
    exact .refl _
  · cases h -- 201
    exact hnum _
  · cases h -- 202
    exact hnum _
  · cases h -- 203
    exact hnum _
  · cases h -- 204
    exact (hnum _).trans (hnum _)
  · cases h -- 205
    exact (hnum _).trans (hnum _)
  · cases hs : s.string <;> rw [hs] at h <;> cases h -- 206
    · exact .refl _
    · have hstring := string_eats hs
      exact hstring
  · cases h
    exact .refl _

end Eats

section Word

variable {text word rest : List Char}

lemma scanWord_eq_none : scanWord text = none ↔ skipSpace text = [] := by
  unfold scanWord
  split <;> simp_all

/-- A word has a character, and where it ends there is white space or the end of the text. -/
lemma scanWord_eats (h : scanWord text = some (word, rest)) :
    Eats text rest ∧ skipSpace rest = rest ∧ (rest = [] ∨ rest.length + 2 ≤ text.length) := by
  unfold scanWord at h
  split at h
  · cases h
  · rename_i cs hne
    cases h
    have hcs := skipSpace_suffix text
    refine ⟨eats_skipSpace ((List.drop_suffix _ _).trans hcs), skipSpace_skipSpace _, ?_⟩
    obtain ⟨c, cs, hc⟩ := List.exists_cons_of_ne_nil hne
    have hspace : isspace c = false := by
      have hhead := skipSpace_skipSpace text
      rw [hc, skipSpace, List.dropWhile_eq_self_iff] at hhead
      simpa using hhead
    have hlength := hcs.length_le
    rw [hc] at hlength ⊢
    cases cs with
    | nil => exact Or.inl (by simp [hspace, skipSpace])
    | cons d cs =>
      right
      rw [List.length_cons, List.length_cons] at hlength
      have hrest : ∀ n, (skipSpace (cs.drop n)).length ≤ cs.length := fun n =>
        ((skipSpace_suffix _).trans (List.drop_suffix n cs)).length_le
      by_cases hd : isspace d
      · have hone := hrest 0
        simp only [List.takeWhile_cons, hspace, hd, skipSpace, Bool.not_true, Bool.not_false, if_true,
          Bool.false_eq_true, if_false, List.take_succ_cons, List.take_nil, List.length_cons,
          List.length_nil, List.drop_succ_cons, List.drop_zero, List.dropWhile_cons] at hone ⊢
        omega
      · have hmany := hrest ((cs.takeWhile (fun c => !isspace c)).take 29).length
        simp only [List.takeWhile_cons, hspace, hd, Bool.not_false, if_true, List.take_succ_cons,
          List.length_cons, List.drop_succ_cons]
        omega

end Word

section Read

variable {scanF : ScanF} {text : List Char} {arg : ℕ → BitVec 32} {p : Parsed}

/-- A command eats at least two characters or all that is left. -/
lemma cmdParse_eats (h : cmdParse scanF text arg = some p) :
    Eats text p.scan.rest ∧ skipSpace p.scan.rest = p.scan.rest ∧
      (p.scan.rest = [] ∨ p.scan.rest.length + 2 ≤ text.length) := by
  unfold cmdParse at h
  obtain ⟨⟨word, rest⟩, hword, h⟩ := Option.bind_eq_some_iff.mp h
  obtain ⟨heats, htrim, hrest⟩ := scanWord_eats hword
  dsimp only at h
  split at h
  · cases h
    exact ⟨heats, htrim, hrest⟩
  · obtain ⟨s, hs, h⟩ := Option.bind_eq_some_iff.mp h
    cases h
    have hargs := parseArgs_eats scanF hs
    refine ⟨heats.trans hargs, hargs.2 htrim, ?_⟩
    rcases hrest with hnil | hlength
    · left
      have hsuffix := hargs.1
      rw [hnil] at hsuffix
      exact List.suffix_nil.mp hsuffix
    · have hle : s.rest.length ≤ rest.length := hargs.1.length_le
      exact Or.inr (Nat.le_trans (Nat.add_le_add_right hle 2) hlength)

/-- The one command that may read behind the end of the text is `SHELL` with one word. -/
def ShellAtEnd (text : List Char) : Prop :=
  ∃ word rest info, scanWord text = some (word, rest) ∧ cmdMatch word = some info ∧
    info.cmd = .lib .shell ∧ scanString rest = some []

lemma vt_shell : ∀ info ∈ cmdInfo, info.vt = 109 ↔ info.cmd = .lib .shell := by
  decide +kernel

lemma parseArgs_eq_none {info : CmdInfo} {s : Scan} :
    parseArgs scanF info s = none ↔ info.vt = 109 ∧ scanString s.rest = some [] := by
  unfold parseArgs
  dsimp only
  split <;> simp_all
  all_goals split <;> simp_all

lemma cmdParse_eq_none : cmdParse scanF text arg = none ↔ skipSpace text = [] ∨ ShellAtEnd text := by
  rw [← scanWord_eq_none]
  cases hword : scanWord text with
  | none => simp [cmdParse, hword]
  | some r =>
    obtain ⟨word, rest⟩ := r
    cases hmatch : cmdMatch word with
    | none =>
      suffices hnot : ¬ ShellAtEnd text by simp [cmdParse, hword, hmatch, hnot]
      rintro ⟨word', rest', info, hword', hinfo, -⟩
      rw [hword] at hword'
      cases hword'
      rw [hmatch] at hinfo
      cases hinfo
    | some info =>
      have hvt := vt_shell info (List.mem_of_find?_eq_some hmatch)
      simp only [cmdParse, hword, hmatch, Option.bind_eq_bind, Option.bind_some, Option.bind_eq_none_iff,
        reduceCtorEq, false_or, imp_false]
      rw [← Option.eq_none_iff_forall_ne_some, parseArgs_eq_none, hvt]
      constructor
      · rintro ⟨hcmd, hstring⟩
        exact ⟨word, rest, info, hword, hmatch, hcmd, hstring⟩
      · rintro ⟨word', rest', info', hword', hinfo, hcmd, hstring⟩
        rw [hword] at hword'
        cases hword'
        rw [hmatch] at hinfo
        cases hinfo
        exact ⟨hcmd, hstring⟩

end Read

section Loop

variable {scanF : ScanF} {stale : List Char → ℕ → BitVec 32} {s s' : ParseState} {p : Parsed}

@[simp] lemma takeCmd_rest (s : ParseState) (p : Parsed) : (takeCmd s p).rest = p.scan.rest := by
  unfold takeCmd ParseState.setStatus
  dsimp only
  split
  · rfl
  · split
    · split
      · split <;> rfl
      · rfl
    · rfl

lemma takeCmd_instr (s : ParseState) (p : Parsed) :
    (takeCmd s p).instr = s.instr ∨ (takeCmd s p).instr = s.instr ++ [p.instr] := by
  unfold takeCmd ParseState.setStatus
  dsimp only
  split
  · exact Or.inl rfl
  · split
    · split
      · split <;> exact Or.inl rfl
      · exact Or.inl rfl
    · exact Or.inr rfl

/-- Two characters for each instruction, but for the last one. -/
lemma instr_of_parseLoop {fuel : ℕ} (h : parseLoop scanF stale fuel s = some s') :
    2 * s'.instr.length ≤ 2 * s.instr.length + s.rest.length + 1 := by
  induction fuel generalizing s with
  | zero =>
    unfold parseLoop at h
    split at h <;> cases h
    omega
  | succ fuel ih =>
    unfold parseLoop at h
    split at h
    · cases h
      omega
    · rename_i hne
      obtain ⟨p, hp, h⟩ := Option.bind_eq_some_iff.mp h
      have hlength : (takeCmd s p).instr.length ≤ s.instr.length + 1 := by
        rcases takeCmd_instr s p with hs | hs <;> simp [hs]
      have hpos := List.length_pos_iff.mpr hne
      rcases (cmdParse_eats hp).2.2 with hnil | hrest
      · -- the loop ends here
        have hdone : takeCmd s p = s' := by
          unfold parseLoop at h
          split at h <;> simp_all
        rw [← hdone]
        omega
      · have hle := ih h
        rw [takeCmd_rest] at hle
        omega

/-- The texts that are left before each command when `text` is read. -/
inductive Reached (scanF : ScanF) (stale : List Char → ℕ → BitVec 32) : List Char → List Char → Prop
  | refl (text : List Char) : Reached scanF stale text text
  | next {text rest : List Char} {p : Parsed} (hne : text ≠ [])
      (hp : cmdParse scanF text (stale text) = some p) (h : Reached scanF stale p.scan.rest rest) :
      Reached scanF stale text rest

lemma Reached.eq_nil {rest : List Char} (h : Reached scanF stale [] rest) : rest = [] := by
  cases h with
  | refl => rfl
  | next hne => exact absurd rfl hne

lemma not_reached_of_nil {text : List Char} (hnil : text = []) : ¬ ∃ rest, Reached scanF stale text rest ∧
    rest ≠ [] ∧ cmdParse scanF rest (stale rest) = none := by
  rintro ⟨rest, hreached, hne, -⟩
  rw [hnil] at hreached
  exact hne hreached.eq_nil

/-- With enough passes the loop stops only where a command cannot be read. -/
lemma parseLoop_eq_none {fuel : ℕ} (hfuel : s.rest.length ≤ fuel) :
    parseLoop scanF stale fuel s = none ↔
      ∃ text, Reached scanF stale s.rest text ∧ text ≠ [] ∧ cmdParse scanF text (stale text) = none := by
  induction fuel generalizing s with
  | zero =>
    have hnil : s.rest = [] := List.length_eq_zero_iff.mp (by omega)
    rw [iff_false_right (not_reached_of_nil hnil), parseLoop, if_pos hnil]
    simp
  | succ fuel ih =>
    by_cases hnil : s.rest = []
    · rw [iff_false_right (not_reached_of_nil hnil), parseLoop, if_pos hnil]
      simp
    · rw [parseLoop, if_neg hnil]
      cases hp : cmdParse scanF s.rest (stale s.rest) with
      | none =>
        simp only [Option.bind_eq_bind, Option.bind_none, true_iff]
        exact ⟨s.rest, .refl _, hnil, hp⟩
      | some p =>
        have hpos := List.length_pos_iff.mpr hnil
        have hrest : (takeCmd s p).rest.length ≤ fuel := by
          rw [takeCmd_rest]
          rcases (cmdParse_eats hp).2.2 with hrest | hrest
          · simp [hrest]
          · omega
        simp only [Option.bind_eq_bind, Option.bind_some]
        rw [ih hrest, takeCmd_rest]
        constructor
        · rintro ⟨text, hreached, hne, hnone⟩
          exact ⟨text, .next hnil hp hreached, hne, hnone⟩
        · rintro ⟨text, hreached, hne, hnone⟩
          cases hreached with
          | refl =>
            rw [hp] at hnone
            cases hnone
          | next _ hp' hreached =>
            rw [hp] at hp'
            cases hp'
            exact ⟨text, hreached, hne, hnone⟩

lemma Reached.trimmed {text rest : List Char} (h : Reached scanF stale text rest) :
    rest = text ∨ skipSpace rest = rest := by
  induction h with
  | refl => exact Or.inl rfl
  | next hne hp _ ih =>
    rcases ih with rfl | htrim
    · exact Or.inr (cmdParse_eats hp).2.1
    · exact Or.inr htrim

/-- A script, accepted or not, has at most one instruction for each two characters, and one more. -/
lemma two_mul_instrs_le {script : List Char} {status : ℤ} {c : CmdScript}
    (h : cmdParseScript scanF stale script true = some (status, some c)) :
    2 * c.instr.length ≤ script.length + 1 := by
  simp only [cmdParseScript, Bool.true_eq_false, if_false] at h
  obtain ⟨s, hs, h⟩ := Option.bind_eq_some_iff.mp h
  cases h
  have hlength := instr_of_parseLoop hs
  simpa using hlength

/-- The instructions of a script, accepted or not, fit into the memory that is allocated for
them, `(len + 2) / 2` instructions for a text of `len` characters. -/
theorem instrs_fit {script : List Char} {status : ℤ} {c : CmdScript}
    (h : cmdParseScript scanF stale script true = some (status, some c)) :
    c.instr.length ≤ (script.length + 2) / 2 := by
  have hle := two_mul_instrs_le h
  omega

/-- A `%f` for texts without such a number. -/
def ScanF.none : ScanF := ⟨fun _ => Option.none, by simp, by simp⟩

/-- Count down from five, with a pause. -/
def countdown : List Char := "LD v0 5 TAG 10 MILS 100 DCR v0 JNZ 10 HALT".toList

lemma exists_countdown : ∃ c,
    cmdParseScript .none (fun _ _ => 0) countdown true = some (0, some c) ∧ c.instr.length = 5 := by
  have hparse : (cmdParseScript .none (fun _ _ => 0) countdown true).map
      (fun r => (r.1, r.2.map (fun c => c.instr.length))) = some (0, some 5) := by decide +kernel
  obtain ⟨⟨status, c⟩, hparse, hc⟩ := Option.map_eq_some_iff.mp hparse
  simp only [Prod.mk.injEq, Option.map_eq_some_iff] at hc
  obtain ⟨rfl, c, rfl, hlength⟩ := hc
  exact ⟨c, hparse, hlength⟩

theorem instrs_fit_countdown : ∃ c,
    cmdParseScript .none (fun _ _ => 0) countdown true = some (0, some c) ∧
      c.instr.length ≤ (countdown.length + 2) / 2 := by
  obtain ⟨c, hparse, -⟩ := exists_countdown
  exact ⟨c, hparse, instrs_fit hparse⟩

/-- Reading a script ends, and reads only what was written, unless the script is all white space or
has a command `SHELL` with only one word at its end. -/
theorem cmdParseScript_eq_none (script : List Char) : cmdParseScript scanF stale script true = none ↔
    (script ≠ [] ∧ skipSpace script = []) ∨ ∃ text, Reached scanF stale script text ∧ ShellAtEnd text := by
  have hshell : ∀ text, ShellAtEnd text → text ≠ [] := by
    rintro text ⟨word, rest, info, hword, -⟩ rfl
    cases hword
  simp only [cmdParseScript, Bool.true_eq_false, if_false, Option.bind_eq_bind, Option.bind_eq_none_iff,
    reduceCtorEq, imp_false]
  let s : ParseState := { rest := script, instr := [], tagStep := [], status := 0 }
  have hfuel : s.rest.length ≤ script.length := Nat.le_refl _
  rw [← Option.eq_none_iff_forall_ne_some, parseLoop_eq_none hfuel]
  constructor
  · rintro ⟨text, hreached, hne, hnone⟩
    rcases cmdParse_eq_none.mp hnone with hspace | hend
    · left
      rcases hreached.trimmed with rfl | htrim
      · exact ⟨hne, hspace⟩
      · exact absurd (htrim.symm.trans hspace) hne
    · exact Or.inr ⟨text, hreached, hend⟩
  · rintro (⟨hne, hspace⟩ | ⟨text, hreached, hend⟩)
    · exact ⟨script, .refl script, hne, cmdParse_eq_none.mpr (Or.inl hspace)⟩
    · exact ⟨text, hreached, hshell text hend, cmdParse_eq_none.mpr (Or.inr hend)⟩

end Loop

end Lg
