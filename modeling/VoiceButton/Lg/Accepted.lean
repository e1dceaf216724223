import VoiceButton.Lg.Parsing
import Mathlib.Data.List.Nodup

/-!
# The scripts that are accepted

The commands of a script are the lines of a program with labels. `cmdParseScript` accepts it, with
the status 0, exactly if every command is accepted, no tag is used twice, there are not too many,
and each jump has its tag. The instructions are then the code of the program, in which each jump
has the number that its tag stands for.
-/

namespace Lg

open Labels (Line code labels table)

/-- The line of a program that a command stands for. -/
def Parsed.line (p : Parsed) : Line (BitVec 32) Instr :=
  if p.cmd = .script .tag then .label p.tag else .instr p.instr

section Commands

variable (scanF : ScanF) (stale : List Char → ℕ → BitVec 32)

/-- The commands of a script. -/
def parseCmds : ℕ → List Char → Option (List Parsed)
  | 0, text => if text = [] then some [] else none
  | fuel + 1, text =>
    if text = [] then some []
    else do
      let p ← cmdParse scanF text (stale text)
      let ps ← parseCmds fuel p.scan.rest
      some (p :: ps)

variable {scanF stale}

/-- The loop takes the commands one after the other. -/
lemma parseLoop_eq (fuel : ℕ) (s : ParseState) :
    parseLoop scanF stale fuel s = (parseCmds scanF stale fuel s.rest).map (fun ps => ps.foldl takeCmd s) := by
  induction fuel generalizing s with
  | zero =>
    unfold parseLoop parseCmds
    split <;> rfl
  | succ fuel ih =>
    unfold parseLoop parseCmds
    split
    · rfl
    · cases hp : cmdParse scanF s.rest (stale s.rest) with
      | none => rfl
      | some p =>
        have hrest := ih (takeCmd s p)
        rw [takeCmd_rest] at hrest
        simp only [Option.bind_eq_bind, Option.bind_some, hrest]
        cases parseCmds scanF stale fuel p.scan.rest <;> rfl

end Commands

section Lines

variable {s : ParseState} {p : Parsed} {ps : List Parsed}

def ParseState.tags (s : ParseState) : List (BitVec 32) := s.tagStep.map TagStep.tag

def TagStep.entry (r : TagStep) : BitVec 32 × ℕ := (r.tag, r.step)

lemma setStatus_status (s : ParseState) {code : ℤ} (hcode : code ≠ 0) : (s.setStatus code).status ≠ 0 := by
  unfold ParseState.setStatus
  dsimp only
  split
  · exact hcode
  · assumption

/-- What a command does that is accepted: its line is added. -/
structure Added (s : ParseState) (line : Line (BitVec 32) Instr) (s' : ParseState) : Prop where
  status : s'.status = s.status
  instr : s'.instr = s.instr ++ code [line]
  tagStep : s'.tagStep.map TagStep.entry = s.tagStep.map TagStep.entry ++ table s.instr.length [line]

/-- Whether a command is accepted after those before it. -/
def Acceptable (s : ParseState) (p : Parsed) : Prop :=
  p.error = none ∧ ∀ t ∈ labels [p.line], t ∉ s.tags ∧ s.tags.length < maxScriptTags

lemma labels_line_of_tag (h : p.cmd = .script .tag) : labels [p.line] = [p.tag] := by
  simp [Parsed.line, h, labels]

/-- A command is accepted, or the status says that one was not. -/
lemma takeCmd_cases (s : ParseState) (p : Parsed) :
    (Acceptable s p ∧ Added s p.line (takeCmd s p)) ∨ (¬ Acceptable s p ∧ (takeCmd s p).status ≠ 0) := by
  unfold Acceptable takeCmd
  cases herror : p.error with
  | some e => exact Or.inr ⟨by simp, setStatus_status _ (by decide)⟩
  | none =>
    by_cases htag : p.cmd = .script .tag
    · have hlength : s.tagStep.length = s.tags.length := by simp [ParseState.tags]
      have hany : (s.tagStep.any (fun r => r.tag = p.tag)) ↔ p.tag ∈ s.tags := by
        simp [ParseState.tags]
      simp only [htag, if_true, labels_line_of_tag htag, List.mem_singleton, forall_eq, true_and, hlength]
      by_cases hcount : s.tags.length < maxScriptTags
      · by_cases hdup : p.tag ∈ s.tags
        · refine Or.inr ⟨by simp [hdup], ?_⟩
          rw [if_pos hcount, if_pos (hany.mpr hdup)]
          exact setStatus_status _ (by decide)
        · refine Or.inl ⟨⟨hdup, hcount⟩, ?_⟩
          rw [if_pos hcount, if_neg (fun h => hdup (hany.mp h))]
          refine ⟨rfl, ?_, ?_⟩
          · simp [Parsed.line, htag, code]
          · simp [Parsed.line, htag, table, TagStep.entry]
      · refine Or.inr ⟨by simp [hcount], ?_⟩
        rw [if_neg hcount]
        exact setStatus_status _ (by decide)
    · refine Or.inl ⟨⟨rfl, ?_⟩, ?_⟩
      · simp [Parsed.line, htag, labels]
      · simp only [htag, if_false]
        refine ⟨rfl, ?_, ?_⟩
        · simp [Parsed.line, htag, code]
        · simp [Parsed.line, htag, table]

lemma Added.tags {line : Line (BitVec 32) Instr} {s' : ParseState} (h : Added s line s') :
    s'.tags = s.tags ++ labels [line] := by
  have htags : ∀ r : ParseState, r.tags = (r.tagStep.map TagStep.entry).map Prod.fst := fun r => by
    simp [ParseState.tags, TagStep.entry]
  rw [htags s', h.tagStep, List.map_append, Labels.map_fst_table, ← htags]

/-- An error of a command stays. -/
lemma foldl_status_ne (ps : List Parsed) (h : s.status ≠ 0) : (ps.foldl takeCmd s).status ≠ 0 := by
  induction ps generalizing s with
  | nil => exact h
  | cons p ps ih =>
    refine ih ?_
    rcases takeCmd_cases s p with ⟨-, hadded⟩ | ⟨-, hne⟩
    · rwa [hadded.status]
    · exact hne

/-- The lines of the commands are added if all are accepted. -/
structure AddedAll (s : ParseState) (lines : List (Line (BitVec 32) Instr)) (s' : ParseState) : Prop where
  instr : s'.instr = s.instr ++ code lines
  tagStep : s'.tagStep.map TagStep.entry = s.tagStep.map TagStep.entry ++ table s.instr.length lines

/-- The commands can be accepted one after the other. -/
def AllAcceptable (s : ParseState) (ps : List Parsed) : Prop :=
  (∀ p ∈ ps, p.error = none) ∧ (s.tags ++ labels (ps.map Parsed.line)).Nodup ∧
    (s.tags ++ labels (ps.map Parsed.line)).length ≤ maxScriptTags

/-- The tags stay different and not too many. -/
lemma Acceptable.tags {s' : ParseState} (hp : Acceptable s p) (h : Added s p.line s')
    (htags : s.tags.Nodup) (hcount : s.tags.length ≤ maxScriptTags) :
    s'.tags.Nodup ∧ s'.tags.length ≤ maxScriptTags := by
  have hnew := hp.2
  rw [h.tags]
  cases hline : p.line with
  | instr i => simpa [labels] using ⟨htags, hcount⟩
  | label t =>
    rw [hline] at hnew
    obtain ⟨hnot, hlt⟩ := hnew t (by simp [labels])
    simp only [labels, ← List.concat_eq_append, List.length_concat]
    exact ⟨List.Nodup.concat hnot htags, hlt⟩

lemma Acceptable.of_all (h : AllAcceptable s (p :: ps)) : Acceptable s p := by
  obtain ⟨herror, hnodup, hcount⟩ := h
  rw [List.map_cons, ← List.singleton_append, Labels.labels_append, ← List.append_assoc] at hnodup hcount
  refine ⟨herror p List.mem_cons_self, ?_⟩
  intro t ht
  have hline := (List.nodup_append.mp hnodup).1
  refine ⟨fun hmem => (List.nodup_append.mp hline).2.2 t hmem t ht rfl, ?_⟩
  have hpos := List.length_pos_of_mem ht
  rw [List.length_append, List.length_append] at hcount
  omega

lemma allAcceptable_cons {s' : ParseState} (hp : Acceptable s p) (h : Added s p.line s') :
    AllAcceptable s (p :: ps) ↔ AllAcceptable s' ps := by
  have htags : s.tags ++ labels ((p :: ps).map Parsed.line) = s'.tags ++ labels (ps.map Parsed.line) := by
    rw [h.tags, List.map_cons, ← List.singleton_append, Labels.labels_append, List.append_assoc]
  unfold AllAcceptable
  rw [htags, List.forall_mem_cons]
  simp only [hp.1, true_and]

lemma Added.trans {line : Line (BitVec 32) Instr} {lines : List (Line (BitVec 32) Instr)}
    {s' s'' : ParseState} (h : Added s line s') (h' : AddedAll s' lines s'') :
    AddedAll s (line :: lines) s'' := by
  rw [← List.singleton_append]
  refine ⟨?_, ?_⟩
  · rw [h'.instr, h.instr, Labels.code_append, List.append_assoc]
  · rw [h'.tagStep, h.tagStep, Labels.table_append, List.append_assoc, h.instr, List.length_append]

lemma foldl_takeCmd (ps : List Parsed) (hstatus : s.status = 0) (htags : s.tags.Nodup)
    (hcount : s.tags.length ≤ maxScriptTags) :
    ((ps.foldl takeCmd s).status = 0 ↔ AllAcceptable s ps) ∧
      (AllAcceptable s ps → AddedAll s (ps.map Parsed.line) (ps.foldl takeCmd s)) := by
  induction ps generalizing s with
  | nil =>
    refine ⟨?_, fun _ => ⟨by simp [code], by simp [table]⟩⟩
    simpa [AllAcceptable, labels, hstatus, htags] using hcount
  | cons p ps ih =>
    rcases takeCmd_cases s p with ⟨hp, hadded⟩ | ⟨hp, hne⟩
    · have htags' := hp.tags hadded htags hcount
      obtain ⟨hiff, hall⟩ := ih (hadded.status.trans hstatus) htags'.1 htags'.2
      rw [List.foldl_cons, allAcceptable_cons hp hadded]
      exact ⟨hiff, fun h => hadded.trans (hall h)⟩
    · have hnot : ¬ AllAcceptable s (p :: ps) := fun h => hp (.of_all h)
      rw [List.foldl_cons]
      exact ⟨iff_of_false (foldl_status_ne ps hne) hnot, fun h => absurd h hnot⟩

end Lines

/-- What a script must be to be accepted. -/
structure Accepted (lines : List (Line (BitVec 32) Instr)) : Prop where
  tags : (labels lines).Nodup
  count : (labels lines).length ≤ maxScriptTags
  jumps : ∀ i ∈ code lines, i.isJump → i.arg 0 ∈ labels lines

section Accepted

variable {scanF : ScanF} {stale : List Char → ℕ → BitVec 32} {script : List Char}

lemma exists_parseCmds {status : ℤ} {c : CmdScript}
    (h : cmdParseScript scanF stale script true = some (status, some c)) :
    ∃ ps, parseCmds scanF stale script.length script = some ps := by
  simp only [cmdParseScript, Bool.true_eq_false, if_false, parseLoop_eq] at h
  obtain ⟨s, hs, -⟩ := Option.bind_eq_some_iff.mp h
  obtain ⟨ps, hps, -⟩ := Option.map_eq_some_iff.mp hs
  exact ⟨ps, hps⟩

/-- The loop before the jumps are resolved. -/
lemma exists_foldl {status : ℤ} {c : CmdScript} {ps : List Parsed}
    (h : cmdParseScript scanF stale script true = some (status, some c))
    (hps : parseCmds scanF stale script.length script = some ps) :
    ∃ s : ParseState, (s.status = 0 ↔ AllAcceptable ⟨script, [], [], 0⟩ ps) ∧
      (s.status = 0 → s.instr = code (ps.map Parsed.line) ∧
        s.tagStep.map TagStep.entry = table 0 (ps.map Parsed.line)) ∧
      (status = 0 ↔ s.status = 0 ∧ ∀ i ∈ s.instr, unresolved s.tagStep i = false) ∧
      c.instr = s.instr.map (resolve s.tagStep) := by
  simp only [cmdParseScript, Bool.true_eq_false, if_false] at h
  rw [parseLoop_eq, hps] at h
  simp only [Option.map_some, Option.bind_eq_bind, Option.bind_some, Option.some.injEq, Prod.mk.injEq] at h
  obtain ⟨hstatus, rfl⟩ := h
  obtain ⟨hiff, hall⟩ := foldl_takeCmd (s := ⟨script, [], [], 0⟩) ps rfl List.nodup_nil (Nat.zero_le _)
  refine ⟨ps.foldl takeCmd ⟨script, [], [], 0⟩, hiff, ?_, ?_, rfl⟩
  · intro hzero
    have hadded := hall (hiff.mp hzero)
    exact ⟨by simpa using hadded.instr, by simpa using hadded.tagStep⟩
  · rw [← hstatus]
    cases hany : (ps.foldl takeCmd ⟨script, [], [], 0⟩).instr.any
        (unresolved (ps.foldl takeCmd ⟨script, [], [], 0⟩).tagStep) with
    | false =>
      rw [List.any_eq_false] at hany
      simpa using fun _ => hany
    | true =>
      obtain ⟨i, hi, hunresolved⟩ := List.any_eq_true.mp hany
      refine iff_of_false (setStatus_status _ (by decide)) ?_
      rintro ⟨-, hnone⟩
      rw [hnone i hi] at hunresolved
      cases hunresolved

lemma unresolved_eq_false {tags : List TagStep} {i : Instr} : unresolved tags i = false ↔
    (i.isJump → i.arg 0 ∈ (tags.map TagStep.entry).map Prod.fst) := by
  have hany : tags.any (fun r => i.arg 0 = r.tag) ↔ i.arg 0 ∈ (tags.map TagStep.entry).map Prod.fst := by
    simp only [List.any_eq_true, decide_eq_true_eq, List.map_map, List.mem_map, Function.comp_apply,
      TagStep.entry]
    exact exists_congr fun r => and_congr_right fun _ => eq_comm
  cases hjump : i.isJump with
  | false => simp [unresolved, hjump]
  | true =>
    simp only [unresolved, hjump, Bool.true_and, Bool.not_eq_false', forall_const]
    exact hany

lemma status_eq_zero_iff {status : ℤ} {c : CmdScript} {ps : List Parsed}
    (h : cmdParseScript scanF stale script true = some (status, some c))
    (hps : parseCmds scanF stale script.length script = some ps) :
    status = 0 ↔ (∀ p ∈ ps, p.error = none) ∧ Accepted (ps.map Parsed.line) := by
  obtain ⟨s, hiff, hadded, hstatus, -⟩ := exists_foldl h hps
  rw [hstatus, hiff]
  constructor
  · rintro ⟨hall, hresolved⟩
    obtain ⟨hinstr, htable⟩ := hadded (hiff.mpr hall)
    obtain ⟨herror, hnodup, hcount⟩ := hall
    refine ⟨herror, hnodup, hcount, ?_⟩
    intro i hi hjump
    rw [hinstr] at hresolved
    have htag := unresolved_eq_false.mp (hresolved i hi) hjump
    rwa [htable, Labels.map_fst_table] at htag
  · rintro ⟨herror, hacc⟩
    have hall : AllAcceptable ⟨script, [], [], 0⟩ ps := ⟨herror, hacc.tags, hacc.count⟩
    obtain ⟨hinstr, htable⟩ := hadded (hiff.mpr hall)
    refine ⟨hall, ?_⟩
    intro i hi
    rw [unresolved_eq_false, htable, Labels.map_fst_table]
    rw [hinstr] at hi
    exact hacc.jumps i hi

/-- The instructions of an accepted script are the code of its lines, with resolved jumps. -/
lemma instr_of_accepted {c : CmdScript} {ps : List Parsed}
    (h : cmdParseScript scanF stale script true = some (0, some c))
    (hps : parseCmds scanF stale script.length script = some ps) :
    ∃ tags : List TagStep, tags.map TagStep.entry = table 0 (ps.map Parsed.line) ∧
      c.instr = (code (ps.map Parsed.line)).map (resolve tags) := by
  obtain ⟨s, -, hadded, hstatus, hinstr⟩ := exists_foldl h hps
  obtain ⟨hcode, htable⟩ := hadded (hstatus.mp rfl).1
  exact ⟨s.tagStep, htable, by rw [hinstr, hcode]⟩

/-- Each command was read from a text. -/
lemma exists_cmdParse {fuel : ℕ} {text : List Char} {ps : List Parsed} {p : Parsed}
    (hps : parseCmds scanF stale fuel text = some ps) (hp : p ∈ ps) :
    ∃ text, cmdParse scanF text (stale text) = some p := by
  induction fuel generalizing text ps with
  | zero =>
    unfold parseCmds at hps
    split at hps <;> cases hps
    cases hp
  | succ fuel ih =>
    unfold parseCmds at hps
    split at hps
    · cases hps
      cases hp
    · obtain ⟨q, hq, hps⟩ := Option.bind_eq_some_iff.mp hps
      obtain ⟨qs, hqs, hps⟩ := Option.bind_eq_some_iff.mp hps
      cases hps
      rcases List.mem_cons.mp hp with rfl | hp
      · exact ⟨text, hq⟩
      · exact ih hqs hp

lemma mem_code_lines {ps : List Parsed} {i : Instr} (hi : i ∈ code (ps.map Parsed.line)) :
    ∃ p ∈ ps, p.instr = i := by
  induction ps with
  | nil => cases hi
  | cons p ps ih =>
    rw [List.map_cons, Parsed.line] at hi
    split at hi
    · obtain ⟨q, hq, hqi⟩ := ih hi
      exact ⟨q, List.mem_cons_of_mem _ hq, hqi⟩
    · rcases List.mem_cons.mp hi with rfl | hi
      · exact ⟨p, List.mem_cons_self, rfl⟩
      · obtain ⟨q, hq, hqi⟩ := ih hi
        exact ⟨q, List.mem_cons_of_mem _ hq, hqi⟩

/-- A script is accepted exactly if all its commands are, their tags are different and not too
many, and each jump has its tag. Its instructions are then those of its lines, with the number of
an instruction for the tag of each jump. -/
theorem cmdParseScript_eq_zero {status : ℤ} {c : CmdScript}
    (h : cmdParseScript scanF stale script true = some (status, some c)) :
    ∃ ps, parseCmds scanF stale script.length script = some ps ∧
      (status = 0 ↔ (∀ p ∈ ps, p.error = none) ∧ Accepted (ps.map Parsed.line)) ∧
      (status = 0 → ∃ tags : List TagStep, tags.map TagStep.entry = table 0 (ps.map Parsed.line) ∧
        c.instr = (code (ps.map Parsed.line)).map (resolve tags)) := by
  obtain ⟨ps, hps⟩ := exists_parseCmds h
  refine ⟨ps, hps, status_eq_zero_iff h hps, ?_⟩
  rintro rfl
  exact instr_of_accepted h hps

theorem cmdParseScript_eq_zero_countdown : ∃ ps,
    parseCmds .none (fun _ _ => 0) countdown.length countdown = some ps ∧
      (∀ p ∈ ps, p.error = none) ∧ Accepted (ps.map Parsed.line) := by
  obtain ⟨c, hparse, -⟩ := exists_countdown
  obtain ⟨ps, hps, hiff, -⟩ := cmdParseScript_eq_zero hparse
  exact ⟨ps, hps, hiff.mp rfl⟩

end Accepted

end Lg
