import VoiceButton.Lg.Tx

/-!
# When the transmitter outputs

The thread sleeps until the first edge of its records, so each edge is output at its time, which is
the time of the edge before it and what was then to wait. There is one exception. When the thread
deletes the first of its records, it looks at no other record in that pass, and sleeps too long if
one of them is active. The next delay is then negative, and may lead to a time for which
`clock_nanosleep` never returns zero.
-/

namespace Lg

open Deadlines (Event OnTime due)
open MachineInt (int32)
open Transition (exec Guarded)

/-- What can be waited for. -/
def IsMicros (x : ℤ) : Prop := 0 ≤ x ∧ x < 2147483648

/-- The entries of a record from proper calls. -/
def Entries.Proper : Entries → Prop
  | .pwm head queued _ => ∀ e ∈ head :: queued, IsMicros e.microsOn ∧ IsMicros e.microsOff
  | .wave head queued _ => ∀ w ∈ head :: queued, ∀ p ∈ w, IsMicros p.delay

/-- What the documentation asks of the numbers of a call, which is not checked. -/
def TxAct.Proper : TxAct → Prop
  | .pulse _ _ microsOn microsOff microsOffset _ =>
    0 ≤ microsOn ∧ 0 ≤ microsOff ∧ 0 ≤ microsOffset ∧
      microsOn + microsOff + microsOffset + 20000 < 2147483648
  | .wave _ _ pulses => ∀ p ∈ pulses, IsMicros p.delay
  | _ => True

/-- The first record is to be deleted, and another one is active. -/
def Tx.Starves (s : Tx) : Prop :=
  ∃ p rest, s.recs = p :: rest ∧ p.active = false ∧ ∃ q ∈ rest, q.active = true

/-- The calls of a run are proper, and no pass starves a record. -/
def TxGuard (s : Tx) : TxAct → Prop
  | .pass => ¬ s.Starves
  | a => a.Proper

/-- A pass of the run deletes the first record while another one is active. -/
def RunStarves (s : Tx) (as : List TxAct) : Prop :=
  ∃ pre post u, as = pre ++ .pass :: post ∧ exec Tx.step s pre = some u ∧ u.Starves

lemma guarded_of_proper {s : Tx} {as : List TxAct} (hproper : ∀ a ∈ as, a.Proper) (h : ¬ RunStarves s as) :
    Guarded Tx.step TxGuard s as := by
  intro pre a post u has hu
  have ha : a.Proper := hproper a (by rw [has]; simp)
  cases a with
  | pass => exact fun hstarve => h ⟨pre, post, u, has, hu, hstarve⟩
  | _ => exact ha

lemma int32_of_isMicros {x : ℤ} (h : IsMicros x) : int32 x = x := by
  obtain ⟨h0, h1⟩ := h
  exact MachineInt.int32_of_bounds (by omega) h1

lemma isMicros_zero : IsMicros 0 := ⟨Int.le_refl 0, by decide⟩

section Edge

/-- The edge of a PWM record keeps its entries proper. -/
lemma startCycle_proper {head : Pwm} {queued : List Pwm} {nextLevel : Bool}
    (h : (Entries.pwm head queued nextLevel).Proper) :
    (startCycle head queued nextLevel).entries.Proper ∧ IsMicros (startCycle head queued nextLevel).micros := by
  have hhead := h head List.mem_cons_self
  have hcount : ∀ level, (Entries.pwm head.count queued level).Proper := by
    intro level e he
    rcases List.mem_cons.mp he with rfl | he
    · exact hhead
    · exact h e (List.mem_cons_of_mem _ he)
  unfold startCycle
  split
  · exact ⟨hcount _, isMicros_zero⟩
  · split
    · exact ⟨hcount _, hhead.1⟩
    · exact ⟨hcount _, hhead.2⟩

lemma pwmEdge_proper {head : Pwm} {queued : List Pwm} {nextLevel : Bool}
    (h : (Entries.pwm head queued nextLevel).Proper) :
    (pwmEdge head queued nextLevel).entries.Proper ∧ IsMicros (pwmEdge head queued nextLevel).micros := by
  unfold pwmEdge
  split
  · split
    · rename_i next rest
      split
      · exact startCycle_proper (fun e he => h e (List.mem_cons_of_mem _ he))
      · exact startCycle_proper h
    · exact startCycle_proper h
  · exact ⟨h, (h head List.mem_cons_self).2⟩

lemma outputPulse_proper {head : List Pulse} {queued : List (List Pulse)} {pulsePos : ℕ}
    (h : (Entries.wave head queued pulsePos).Proper) :
    (outputPulse head queued pulsePos).entries.Proper ∧ IsMicros (outputPulse head queued pulsePos).micros := by
  unfold outputPulse
  split
  · rename_i p hp
    exact ⟨h, h head List.mem_cons_self p (List.mem_of_getElem? hp)⟩
  · exact ⟨h, isMicros_zero⟩

/-- An edge of a wave is one of its first entry, or of the next one when the first is over. -/
lemma waveEdge_eq (head : List Pulse) (queued : List (List Pulse)) (pulsePos : ℕ) :
    (head.length ≤ pulsePos ∧ ∃ next rest, queued = next :: rest ∧
      waveEdge head queued pulsePos = outputPulse next rest 0) ∨
    waveEdge head queued pulsePos = outputPulse head queued pulsePos := by
  unfold waveEdge
  split
  · rename_i hpos
    cases queued with
    | nil => exact Or.inr rfl
    | cons next rest => exact Or.inl ⟨hpos, next, rest, rfl, rfl⟩
  · exact Or.inr rfl

lemma waveEdge_proper {head : List Pulse} {queued : List (List Pulse)} {pulsePos : ℕ}
    (h : (Entries.wave head queued pulsePos).Proper) :
    (waveEdge head queued pulsePos).entries.Proper ∧ IsMicros (waveEdge head queued pulsePos).micros := by
  rcases waveEdge_eq head queued pulsePos with ⟨-, next, rest, rfl, heq⟩ | heq
  · rw [heq]
    exact outputPulse_proper (fun w hw => h w (List.mem_cons_of_mem _ hw))
  · rw [heq]
    exact outputPulse_proper h

lemma Entries.Proper.edge {entries : Entries} (h : entries.Proper) :
    entries.edge.entries.Proper ∧ IsMicros entries.edge.micros := by
  cases entries with
  | pwm head queued nextLevel => exact pwmEdge_proper h
  | wave head queued pulsePos => exact waveEdge_proper h

lemma startCycle_out {head : Pwm} {queued : List Pwm} {nextLevel : Bool} :
    (startCycle head queued nextLevel).out ≠ none := by
  unfold startCycle
  split
  · simp
  · split <;> simp

/-- A record that goes on has output something. -/
lemma out_of_edge {entries : Entries} (h : entries.edge.active = true) : entries.edge.out ≠ none := by
  cases entries with
  | pwm head queued nextLevel =>
    unfold Entries.edge pwmEdge
    dsimp only
    split
    · split
      · split <;> exact startCycle_out
      · exact startCycle_out
    · simp
  | wave head queued pulsePos =>
    have hpulse : ∀ head queued pulsePos, (outputPulse head queued pulsePos).active = true →
        (outputPulse head queued pulsePos).out ≠ none := by
      intro head queued pulsePos
      unfold outputPulse
      split <;> simp
    have hedge : (Entries.wave head queued pulsePos).edge = waveEdge head queued pulsePos := rfl
    rw [hedge] at h ⊢
    rcases waveEdge_eq head queued pulsePos with ⟨-, next, rest, -, heq⟩ | heq
    · rw [heq] at h ⊢
      exact hpulse _ _ _ h
    · rw [heq] at h ⊢
      exact hpulse _ _ _ h

end Edge

section Scan

variable {now : ℤ} {log : List TxEvent} {p q : TxRec}

/-- What a pass at the time `now` needs of a record. -/
structure ReadyAt (now : ℤ) (log : List TxEvent) (p : TxRec) : Prop where
  proper : p.entries.Proper
  wait : p.active = true → IsMicros p.nextMicros
  promise : p.active = true → ∀ t ∈ due p.id log, t = now + p.nextMicros * 1000

/-- What an active record outputs comes on time, and its next edge is then due. -/
lemma ReadyAt.output (h : ReadyAt now log p) (hactive : p.active = true) (hlog : OnTime log) :
    (p.output now).1.id = p.id ∧ 0 ≤ (p.output now).1.nextMicros ∧
      ReadyAt now (log ++ (p.output now).2) (p.output now).1 ∧ OnTime (log ++ (p.output now).2) ∧
      ∀ id, id ≠ p.id → due id (log ++ (p.output now).2) = due id log := by
  obtain ⟨hproper, hwait, hdue⟩ := h
  obtain ⟨hentries, hmicros⟩ := hproper.edge
  unfold TxRec.output
  split
  · rename_i hle
    have hzero : p.nextMicros = 0 := Int.le_antisymm hle (hwait hactive).1
    have hnext : int32 (p.nextMicros + p.entries.edge.micros) = p.entries.edge.micros := by
      rw [hzero, Int.zero_add, int32_of_isMicros hmicros]
    simp only [hnext]
    refine ⟨trivial, hmicros.1, ?_⟩
    cases hout : p.entries.edge.out with
    | none =>
      have hdone : p.entries.edge.active ≠ true := fun hactive => out_of_edge hactive hout
      rw [Option.toList_none, List.map_nil, List.append_nil]
      exact ⟨⟨hentries, fun h => absurd h hdone, fun h => absurd h hdone⟩, hlog, fun _ _ => rfl⟩
    | some out =>
      rw [Option.toList_some, List.map_cons, List.map_nil]
      let e : TxEvent := ⟨p.id, now, now + p.entries.edge.micros * 1000, ⟨p.chip, p.gpio, out⟩⟩
      have hself : due p.id (log ++ [e]) = some (now + p.entries.edge.micros * 1000) :=
        Deadlines.due_concat_self (e := e)
      have htime : ∀ t ∈ due e.key log, e.time = t := by
        intro t ht
        rw [hdue hactive t ht, hzero, Int.zero_mul, Int.add_zero]
      refine ⟨⟨hentries, fun _ => hmicros, ?_⟩, hlog.concat htime, ?_⟩
      · intro _ t ht
        exact Option.some.inj (ht.symm.trans hself)
      · intro id hid
        exact Deadlines.due_concat_of_ne (Ne.symm hid)
  · rw [List.append_nil]
    exact ⟨rfl, (hwait hactive).1, ⟨hproper, hwait, hdue⟩, hlog, fun _ _ => rfl⟩

lemma scan_active (now : ℤ) (first : Bool) (delayMicros : ℤ) (rest : List TxRec) (h : p.active = true) :
    ∃ least, least = (if (p.output now).1.nextMicros < delayMicros then (p.output now).1.nextMicros
        else delayMicros) ∧
      scan now first delayMicros (p :: rest) = ((p.output now).1 :: (scan now false least rest).1,
        (scan now false least rest).2.1, (p.output now).2 ++ (scan now false least rest).2.2) := by
  refine ⟨_, rfl, ?_⟩
  rw [scan, if_pos h]

/-- What a pass makes of the records. -/
structure Scanned (now : ℤ) (log : List TxEvent) (recs : List TxRec) (delayMicros : ℤ)
    (r : List TxRec × ℤ × List TxEvent) : Prop where
  ids : (r.1.map TxRec.id).Sublist (recs.map TxRec.id)
  delay : 0 ≤ r.2.1 ∧ r.2.1 ≤ delayMicros
  ready : ∀ q ∈ r.1, ReadyAt now (log ++ r.2.2) q ∧ (q.active = true → r.2.1 ≤ q.nextMicros)
  onTime : OnTime (log ++ r.2.2)
  frame : ∀ id, id ∉ recs.map TxRec.id → due id (log ++ r.2.2) = due id log

lemma ReadyAt.of_due {log' : List TxEvent} (h : ReadyAt now log p) (hdue : due p.id log' = due p.id log) :
    ReadyAt now log' p :=
  ⟨h.proper, h.wait, fun hactive => hdue ▸ h.promise hactive⟩

lemma readyAt_of_inactive {log' : List TxEvent} (h : ReadyAt now log p) (hactive : p.active = false) :
    ReadyAt now log' p := by
  refine ⟨h.proper, ?_, ?_⟩ <;> intro h <;> rw [hactive] at h <;> cases h

/-- If the loop goes through to the last active record, the next delay is that of the first edge. -/
lemma scan_scanned {recs : List TxRec} {first : Bool} {delayMicros : ℤ} (hids : (recs.map TxRec.id).Nodup)
    (hready : ∀ p ∈ recs, ReadyAt now log p)
    (hfirst : first = true → ∀ p rest, recs = p :: rest → p.active = false → ∀ q ∈ rest, q.active = false)
    (hlog : OnTime log) (hdelay : 0 ≤ delayMicros) :
    Scanned now log recs delayMicros (scan now first delayMicros recs) := by
  induction recs generalizing log first delayMicros with
  | nil =>
    rw [scan]
    exact ⟨.slnil, ⟨hdelay, Int.le_refl _⟩, by simp, by simpa using hlog, by simp⟩
  | cons p rest ih =>
    obtain ⟨hp, hrest⟩ := List.nodup_cons.mp hids
    have hreadyp := hready p List.mem_cons_self
    have hreadyrest : ∀ q ∈ rest, ReadyAt now log q := fun q hq => hready q (List.mem_cons_of_mem _ hq)
    by_cases hactive : p.active = true
    · obtain ⟨hid, hnext, hout, hlog', hframe⟩ := hreadyp.output hactive hlog
      have hrest' : ∀ q ∈ rest, ReadyAt now (log ++ (p.output now).2) q := by
        intro q hq
        refine (hreadyrest q hq).of_due (hframe q.id ?_)
        rintro heq
        exact hp (heq ▸ List.mem_map_of_mem hq)
      obtain ⟨least, hmin, hscan⟩ := scan_active now first delayMicros rest hactive
      rw [hscan]
      have hleast : 0 ≤ least ∧ least ≤ delayMicros ∧ least ≤ (p.output now).1.nextMicros := by
        split at hmin <;> omega
      have hscan : Scanned now (log ++ (p.output now).2) rest least (scan now false least rest) :=
        ih hrest hrest' (by simp) hlog' hleast.1
      obtain ⟨hsub, ⟨h0, hle⟩, hready', honTime, hframe'⟩ := hscan
      rw [List.append_assoc] at honTime hready' hframe'
      refine ⟨?_, ⟨h0, Int.le_trans hle hleast.2.1⟩, ?_, honTime, ?_⟩
      · rw [List.map_cons, List.map_cons, hid]
        exact hsub.cons_cons p.id
      · intro q hq
        rcases List.mem_cons.mp hq with rfl | hq
        · refine ⟨hout.of_due ?_, fun _ => Int.le_trans hle hleast.2.2⟩
          rw [hid]
          exact hframe' p.id hp
        · exact hready' q hq
      · intro id hnot
        rw [List.map_cons, List.mem_cons, not_or] at hnot
        rw [hframe' id hnot.2, hframe id hnot.1]
    · rw [scan, if_neg hactive]
      rw [Bool.not_eq_true] at hactive
      split
      · rename_i hhead
        have hidle := hfirst hhead p rest rfl hactive
        refine ⟨List.sublist_cons_self _ _, ⟨hdelay, Int.le_refl _⟩, ?_, by simpa using hlog, by simp⟩
        intro q hq
        refine ⟨readyAt_of_inactive (hreadyrest q hq) (hidle q hq), fun h => ?_⟩
        rw [hidle q hq] at h
        cases h
      · have hscan : Scanned now log rest delayMicros (scan now false delayMicros rest) :=
          ih hrest hreadyrest (by simp) hlog hdelay
        refine ⟨hscan.ids.cons p.id, hscan.delay, hscan.ready, hscan.onTime, ?_⟩
        intro id hnot
        rw [List.map_cons, List.mem_cons, not_or] at hnot
        exact hscan.frame id hnot.2

/-- A record is as ready after the delay as before. -/
lemma ReadyAt.elapse {delayMicros : ℤ} (h : ReadyAt now log p) (h0 : 0 ≤ delayMicros)
    (hle : p.active = true → delayMicros ≤ p.nextMicros) :
    ReadyAt (now + delayMicros * 1000) log (p.elapse delayMicros) := by
  obtain ⟨hproper, hwait, hpromise⟩ := h
  have hmicros : p.active = true → IsMicros (p.nextMicros - delayMicros) := by
    intro hactive
    obtain ⟨-, hlt⟩ := hwait hactive
    have hle := hle hactive
    exact ⟨by omega, by omega⟩
  refine ⟨hproper, ?_, ?_⟩
  · intro hactive
    unfold TxRec.elapse
    dsimp only
    rw [int32_of_isMicros (hmicros hactive)]
    exact hmicros hactive
  · intro hactive t ht
    unfold TxRec.elapse
    dsimp only
    rw [int32_of_isMicros (hmicros hactive), hpromise hactive t ht]
    omega

end Scan

section Prompt

variable {s t : Tx}

/-- The transmitter is on time between two passes. -/
structure Prompt (s : Tx) : Prop where
  delay : 0 ≤ s.delayMicros ∧ s.delayMicros ≤ 20000
  sleeps : s.Sleeps
  minDelay : 0 ≤ s.minTxDelay
  ids : (s.recs.map TxRec.id).Nodup
  made : ∀ p ∈ s.recs, p.id < s.made
  ready : ∀ p ∈ s.recs, ReadyAt s.now s.log (p.elapse s.delayMicros)
  silent : ∀ id, s.made ≤ id → due id s.log = none
  onTime : OnTime s.log

lemma prompt_start {sec nsec : ℤ} (h : (Tx.start sec nsec).Sleeps) : Prompt (.start sec nsec) where
  delay := by simp [Tx.start]
  sleeps := h
  minDelay := by simp [Tx.start]
  ids := List.nodup_nil
  made := by simp [Tx.start]
  ready := by simp [Tx.start]
  silent _ _ := rfl
  onTime := Deadlines.onTime_nil

lemma advance_now (s : Tx) (delayMicros : ℤ) : (s.advance delayMicros).now = s.now + delayMicros * 1000 := by
  unfold Tx.advance Tx.now
  dsimp only
  split
  · dsimp only
    omega
  · dsimp only
    omega

lemma Tx.Sleeps.advance (h : s.Sleeps) {delayMicros : ℤ} (h0 : 0 ≤ delayMicros) (h1 : delayMicros ≤ 20000) :
    (s.advance delayMicros).Sleeps := by
  unfold Tx.Sleeps at h
  unfold Tx.advance
  dsimp only
  split
  · unfold Tx.Sleeps
    dsimp only
    omega
  · unfold Tx.Sleeps
    dsimp only
    omega

/-- The scan that `s.pass` makes. -/
def Tx.scanned (s : Tx) : List TxRec × ℤ × List TxEvent :=
  scan s.now true 20000 (s.recs.map (TxRec.elapse s.delayMicros))

lemma pass_eq (s : Tx) : s.pass = ({ s with
    recs := s.scanned.1, delayMicros := s.scanned.2.1, log := s.log ++ s.scanned.2.2 } : Tx).advance
      s.scanned.2.1 := rfl

@[simp] lemma advance_recs (s : Tx) (delayMicros : ℤ) : (s.advance delayMicros).recs = s.recs := by
  unfold Tx.advance
  dsimp only
  split <;> rfl

@[simp] lemma advance_log (s : Tx) (delayMicros : ℤ) : (s.advance delayMicros).log = s.log := by
  unfold Tx.advance
  dsimp only
  split <;> rfl

@[simp] lemma advance_made (s : Tx) (delayMicros : ℤ) : (s.advance delayMicros).made = s.made := by
  unfold Tx.advance
  dsimp only
  split <;> rfl

@[simp] lemma advance_given (s : Tx) (delayMicros : ℤ) : (s.advance delayMicros).given = s.given := by
  unfold Tx.advance
  dsimp only
  split <;> rfl

@[simp] lemma advance_delayMicros (s : Tx) (delayMicros : ℤ) :
    (s.advance delayMicros).delayMicros = s.delayMicros := by
  unfold Tx.advance
  dsimp only
  split <;> rfl

@[simp] lemma advance_minTxDelay (s : Tx) (delayMicros : ℤ) :
    (s.advance delayMicros).minTxDelay = s.minTxDelay := by
  unfold Tx.advance
  dsimp only
  split <;> rfl

lemma map_id_elapse (delayMicros : ℤ) (recs : List TxRec) :
    (recs.map (TxRec.elapse delayMicros)).map TxRec.id = recs.map TxRec.id := by
  rw [List.map_map]
  rfl

lemma Prompt.scanned (h : Prompt s) (hstarve : ¬ s.Starves) :
    Scanned s.now s.log (s.recs.map (TxRec.elapse s.delayMicros)) 20000 s.scanned := by
  refine scan_scanned ?_ ?_ ?_ h.onTime (by decide)
  · rw [map_id_elapse]
    exact h.ids
  · intro p hp
    obtain ⟨q, hq, rfl⟩ := List.mem_map.mp hp
    exact h.ready q hq
  · intro _ p rest heq hp q hq
    obtain ⟨p', rest', hrecs, rfl, rfl⟩ := List.map_eq_cons_iff.mp heq
    obtain ⟨q', hq', rfl⟩ := List.mem_map.mp hq
    by_contra hactive
    exact hstarve ⟨p', rest', hrecs, hp, q', hq', Bool.of_not_eq_false hactive⟩

/-- A pass keeps the transmitter on time, unless it deletes the first record before an active one. -/
lemma Prompt.pass (h : Prompt s) (hstarve : ¬ s.Starves) : Prompt s.pass := by
  have hscan := h.scanned hstarve
  obtain ⟨h0, h1⟩ := hscan.delay
  have hids := hscan.ids
  rw [map_id_elapse] at hids
  have hmade : ∀ p ∈ s.scanned.1, p.id < s.made := by
    intro p hp
    obtain ⟨q, hq, hid⟩ := List.mem_map.mp (hids.subset (List.mem_map_of_mem hp))
    exact hid ▸ h.made q hq
  rw [pass_eq]
  refine ⟨by simpa using ⟨h0, h1⟩, ?_, by simpa using h.minDelay, ?_, ?_, ?_, ?_, ?_⟩
  · refine Tx.Sleeps.advance ?_ h0 h1
    exact h.sleeps
  · simpa using h.ids.sublist hids
  · simpa using hmade
  · intro p hp
    simp only [advance_recs, advance_delayMicros, advance_log, advance_now] at hp ⊢
    obtain ⟨hready, hle⟩ := hscan.ready p hp
    exact hready.elapse h0 hle
  · intro id hid
    simp only [advance_log, advance_made] at hid ⊢
    rw [hscan.frame id, h.silent id hid]
    intro hmem
    rw [map_id_elapse] at hmem
    obtain ⟨q, hq, rfl⟩ := List.mem_map.mp hmem
    exact absurd (h.made q hq) (Nat.not_lt.mpr hid)
  · simpa using hscan.onTime

/-- A change of a record that does not wake it. -/
structure Keeps (p q : TxRec) : Prop where
  id : q.id = p.id
  nextMicros : q.nextMicros = p.nextMicros
  active : q.active = true → p.active = true
  proper : p.entries.Proper → q.entries.Proper

lemma Prompt.map (h : Prompt s) {f : TxRec → TxRec} (hf : ∀ p, Keeps p (f p))
    (given : List (ℕ × List Pulse)) : Prompt { s with recs := s.recs.map f, given := given } := by
  have hids : (s.recs.map f).map TxRec.id = s.recs.map TxRec.id := by
    rw [List.map_map]
    exact List.map_congr_left (fun p _ => (hf p).id)
  refine ⟨h.delay, h.sleeps, h.minDelay, hids ▸ h.ids, ?_, ?_, h.silent, h.onTime⟩
  · intro q hq
    obtain ⟨p, hp, rfl⟩ := List.mem_map.mp hq
    exact (hf p).id ▸ h.made p hp
  · intro q hq
    obtain ⟨p, hp, rfl⟩ := List.mem_map.mp hq
    obtain ⟨hid, hnext, hactive, hproper⟩ := hf p
    obtain ⟨hproper', hwait, hpromise⟩ := h.ready p hp
    have helapse : ((f p).elapse s.delayMicros).nextMicros = (p.elapse s.delayMicros).nextMicros := by
      simp only [TxRec.elapse, hnext]
    refine ⟨hproper hproper', ?_, ?_⟩
    · intro ha
      rw [helapse]
      exact hwait (hactive ha)
    · intro ha t ht
      have ht : t ∈ due (f p).id s.log := ht
      rw [hid] at ht
      rw [helapse]
      exact hpromise (hactive ha) t ht

lemma Prompt.modify (h : Prompt s) {p : TxRec} {f : TxRec → TxRec} (hf : ∀ q, Keeps q (f q))
    (given : List (ℕ × List Pulse)) : Prompt { s.modifyTxRec p f with given := given } := by
  refine h.map ?_ given
  intro q
  split
  · exact hf q
  · exact ⟨rfl, rfl, fun ha => ha, fun hproper => hproper⟩

lemma keeps_deactivate (p : TxRec) : Keeps p { p with active := false } :=
  ⟨rfl, rfl, fun h => absurd h Bool.false_ne_true, fun hproper => hproper⟩

lemma keeps_entries {f : Entries → Entries} (hf : ∀ {e : Entries}, e.Proper → (f e).Proper) (p : TxRec) :
    Keeps p { p with entries := f p.entries } :=
  ⟨rfl, rfl, fun ha => ha, hf⟩

lemma Prompt.create (h : Prompt s) {chip gpio : ℕ} {nextMicros : ℤ} {entries : Entries}
    (hproper : entries.Proper) (hwait : IsMicros (int32 (nextMicros - s.delayMicros)))
    (given : List (ℕ × List Pulse)) : Prompt { s.create chip gpio nextMicros entries with given := given } := by
  obtain ⟨hdelay, hsleeps, hmin, hids, hmade, hready, hsilent, honTime⟩ := h
  refine ⟨hdelay, hsleeps, hmin, ?_, ?_, ?_, ?_, honTime⟩
  · refine List.nodup_cons.mpr ⟨?_, hids⟩
    intro hmem
    obtain ⟨q, hq, hid⟩ := List.mem_map.mp hmem
    exact absurd (hmade q hq) (hid ▸ Nat.lt_irrefl _)
  · intro q hq
    rcases List.mem_cons.mp hq with rfl | hq
    · exact Nat.lt_succ_self _
    · exact Nat.lt_succ_of_lt (hmade q hq)
  · intro q hq
    rcases List.mem_cons.mp hq with rfl | hq
    · refine ⟨hproper, fun _ => hwait, ?_⟩
      intro _ t ht
      have hnone : due s.made s.log = none := hsilent s.made (Nat.le_refl _)
      exact absurd (hnone.symm.trans ht) (by simp)
    · exact hready q hq
  · intro id hid
    exact hsilent id (Nat.le_of_succ_le hid)

lemma pushPwm_proper {e : Pwm} (he : IsMicros e.microsOn ∧ IsMicros e.microsOff) {entries : Entries}
    (h : entries.Proper) : (entries.pushPwm e).Proper := by
  cases entries with
  | pwm head queued nextLevel =>
    have hdrop : ∀ q : List Pwm, (∀ x ∈ q, x ∈ queued) → ∀ x ∈ head :: (if q.length + 1 < txBuf then q ++ [e] else q),
        IsMicros x.microsOn ∧ IsMicros x.microsOff := by
      intro q hq x hx
      rcases List.mem_cons.mp hx with rfl | hx
      · exact h x List.mem_cons_self
      · split at hx
        · rcases List.mem_append.mp hx with hx | hx
          · exact h x (List.mem_cons_of_mem _ (hq x hx))
          · exact List.mem_singleton.mp hx ▸ he
        · exact h x (List.mem_cons_of_mem _ (hq x hx))
    refine hdrop _ ?_
    intro x hx
    split at hx
    · exact (List.dropLast_sublist _).subset hx
    · exact hx
  | wave head queued pulsePos => exact h

lemma pushWave_proper {pulses : List Pulse} (hpulses : ∀ p ∈ pulses, IsMicros p.delay) {entries : Entries}
    (h : entries.Proper) : (entries.pushWave pulses).Proper := by
  cases entries with
  | pwm head queued nextLevel => exact h
  | wave head queued pulsePos =>
    intro w hw
    rw [← List.cons_append, List.mem_append, List.mem_singleton] at hw
    rcases hw with hw | rfl
    · exact h w hw
    · exact hpulses

/-- The first edge of a new PWM record. -/
lemma createPwm_left {microsOn microsOff microsOffset : ℤ} (hs : Prompt s)
    (hproper : 0 ≤ microsOn ∧ 0 ≤ microsOff ∧ 0 ≤ microsOffset ∧
      microsOn + microsOff + microsOffset + 20000 < 2147483648) (hct : 0 < microsOn + microsOff) :
    IsMicros (int32 (int32 (microsOn + microsOff - (s.nsec.tdiv 1000).tmod (microsOn + microsOff) +
      s.delayMicros + microsOffset) - s.delayMicros)) := by
  obtain ⟨h0, h1⟩ := hs.delay
  have husec : 0 ≤ s.nsec.tdiv 1000 := Int.tdiv_nonneg hs.sleeps.1 (by decide)
  have hfrac := Int.tmod_nonneg (microsOn + microsOff) husec
  have hlt := Int.tmod_lt_of_pos (s.nsec.tdiv 1000) hct
  generalize (s.nsec.tdiv 1000).tmod (microsOn + microsOff) = frac at hfrac hlt ⊢
  have hleft : int32 (microsOn + microsOff - frac + s.delayMicros + microsOffset) =
      microsOn + microsOff - frac + s.delayMicros + microsOffset :=
    int32_of_isMicros (by constructor <;> omega)
  have hwait : IsMicros (microsOn + microsOff - frac + s.delayMicros + microsOffset - s.delayMicros) := by
    constructor <;> omega
  rw [hleft, int32_of_isMicros hwait]
  exact hwait

lemma Prompt.pulse (h : Prompt s) {chip gpio : ℕ} {microsOn microsOff microsOffset cycles : ℤ}
    (hproper : TxAct.Proper (.pulse chip gpio microsOn microsOff microsOffset cycles)) :
    Prompt (s.pulse chip gpio microsOn microsOff microsOffset cycles) := by
  have he : IsMicros microsOn ∧ IsMicros microsOff := by
    obtain ⟨h0, h1, h2, h3⟩ := hproper
    constructor <;> constructor <;> omega
  unfold Tx.pulse
  split
  · split
    · split
      · exact h.modify (keeps_entries (fun hq => pushPwm_proper he hq)) s.given
      · exact h
    · exact h.modify keeps_deactivate s.given
  · split
    · rename_i hct
      have hmin := h.minDelay
      refine h.create ?_ (createPwm_left h hproper (by omega)) s.given
      intro e hmem
      rw [List.mem_singleton.mp hmem]
      exact he
    · exact h

lemma Prompt.wave (h : Prompt s) {chip gpio : ℕ} {pulses : List Pulse}
    (hpulses : ∀ p ∈ pulses, IsMicros p.delay) : Prompt (s.wave chip gpio pulses) := by
  unfold Tx.wave
  split
  · split
    · exact h.modify (keeps_entries (fun hq => pushWave_proper hpulses hq)) _
    · exact h
  · refine h.create ?_ ?_ _
    · intro w hw
      rw [List.mem_singleton.mp hw]
      exact hpulses
    · rw [Int.sub_self]
      exact isMicros_zero

lemma Prompt.deactivate (h : Prompt s) (chip gpio : ℕ) (type : TxType) :
    Prompt (s.deactivate chip gpio type) := by
  unfold Tx.deactivate
  split
  · exact h.modify keeps_deactivate s.given
  · exact h

lemma Prompt.stop (h : Prompt s) (chip : ℕ) : Prompt (s.stop chip) := by
  refine h.map ?_ s.given
  intro p
  split
  · exact keeps_deactivate p
  · exact ⟨rfl, rfl, fun ha => ha, fun hp => hp⟩

/-- A step that is proper and does not starve keeps the transmitter on time. -/
lemma Prompt.step (h : Prompt s) {a : TxAct} (hguard : TxGuard s a) (hst : s.step a = some t) :
    Prompt t := by
  cases a with
  | pass =>
    unfold Tx.step at hst
    dsimp only at hst
    rw [if_pos h.sleeps] at hst
    cases hst
    exact h.pass hguard
  | pulse =>
    cases hst
    exact h.pulse hguard
  | wave =>
    cases hst
    exact h.wave hguard
  | free =>
    cases hst
    exact (h.deactivate _ _ .pwm).deactivate _ _ .wave
  | stop =>
    cases hst
    exact h.stop _
  | setMinDelay cfgVal =>
    cases hst
    split
    · exact { h with minDelay := Int.natCast_nonneg _ }
    · exact h

end Prompt

section Runs

variable {sec nsec : ℤ} {t : Tx} {as : List TxAct}

lemma run_prompt (hstart : (Tx.start sec nsec).Sleeps) (hguard : Guarded Tx.step TxGuard (.start sec nsec) as)
    (h : exec Tx.step (.start sec nsec) as = some t) : Prompt t :=
  Transition.invariant_of_guarded (prompt_start hstart) (fun _ _ _ _ _ hu hG huv => hu.step hG huv) hguard h

/-- Two waves, of which the second is stopped. -/
def stopSecond : List TxAct :=
  [.wave 0 1 [⟨1, 1, 100⟩, ⟨0, 1, 100⟩], .wave 0 2 [⟨1, 1, 100⟩], .pass, .free 0 2, .pass, .pass]

/-- One wave alone. -/
def oneWave : List TxAct := [.wave 0 1 [⟨1, 1, 100⟩, ⟨0, 1, 50⟩], .pass, .pass]

lemma not_starves_oneWave : ¬ RunStarves (.start 0 0) oneWave := by
  rintro ⟨pre, post, u, has, hu, p, rest, hrecs, -, q, hq, -⟩
  suffices hrest : rest = [] by simp [hrest] at hq
  unfold oneWave at has
  rcases pre with _ | ⟨a, _ | ⟨b, _ | ⟨c, pre⟩⟩⟩
  · cases has
  · cases has
    cases hu
    cases hrecs
    rfl
  · cases has
    cases hu
    cases hrecs
    rfl
  · simp at has

end Runs

end Lg
