import VoiceButton.Lg.TxRuns
import Mathlib.Data.List.Nodup

/-!
# What the transmitter outputs of a wave

The waves that are queued for a GPIO are output one after the other, pulse by pulse, in the order
of the calls. Nothing is left out or output twice, whatever the thread does for other GPIO. A wave
without pulses ends the transmission, and what is queued after it is lost.
-/

namespace Lg

open Deadlines (Event events)
open Transition (exec)

/-- What is output, and the nanoseconds until the next output. -/
def Pulse.sent (p : Pulse) : Output × ℤ := (.group p.bits p.mask, p.delay * 1000)

/-- What the thread has output for a record. -/
def sent (id : ℕ) (log : List TxEvent) : List (Output × ℤ) :=
  (events id log).map (fun e => (e.out.out, e.next - e.time))

/-- The pulses of the waves given to a record. -/
def wavesOf (id : ℕ) (given : List (ℕ × List Pulse)) : List Pulse :=
  ((given.filter (fun x => x.1 = id)).map Prod.snd).flatten

/-- The pulses of a wave record that are left. -/
def Entries.left : Entries → Option (List Pulse)
  | .pwm .. => none
  | .wave head queued pulsePos => some (head.drop pulsePos ++ queued.flatten)

section Edge

variable {head : List Pulse} {queued : List (List Pulse)} {pulsePos : ℕ} {now : ℤ}
  {log more : List TxEvent} {p : TxRec} {id : ℕ}

lemma sent_append : sent id (log ++ more) = sent id log ++ sent id more := by
  unfold sent
  rw [Deadlines.events_append, List.map_append]

lemma outputPulse_left (head : List Pulse) (queued : List (List Pulse)) (pulsePos : ℕ) :
    ∃ left, (outputPulse head queued pulsePos).entries.left = some left ∧
      (outputPulse head queued pulsePos).out.toList.map
          (fun out => (out, (outputPulse head queued pulsePos).micros * 1000)) ++ left.map Pulse.sent =
        (head.drop pulsePos ++ queued.flatten).map Pulse.sent := by
  unfold outputPulse
  cases hp : head[pulsePos]? with
  | some p =>
    refine ⟨_, rfl, ?_⟩
    obtain ⟨hlt, rfl⟩ := List.getElem?_eq_some_iff.mp hp
    rw [List.drop_eq_getElem_cons hlt]
    rfl
  | none => exact ⟨_, rfl, rfl⟩

/-- What an edge of a wave outputs is the first of what was left. -/
lemma waveEdge_left (head : List Pulse) (queued : List (List Pulse)) (pulsePos : ℕ) :
    ∃ left, (waveEdge head queued pulsePos).entries.left = some left ∧
      (waveEdge head queued pulsePos).out.toList.map
          (fun out => (out, (waveEdge head queued pulsePos).micros * 1000)) ++ left.map Pulse.sent =
        (head.drop pulsePos ++ queued.flatten).map Pulse.sent := by
  rcases waveEdge_eq head queued pulsePos with ⟨hpos, next, rest, rfl, heq⟩ | heq
  · rw [heq, List.drop_eq_nil_of_le hpos]
    exact outputPulse_left next rest 0
  · rw [heq]
    exact outputPulse_left head queued pulsePos

/-- What a record has output and what is left of its waves. -/
def Sends (log : List TxEvent) (given : List (ℕ × List Pulse)) (p : TxRec) : Prop :=
  ∀ left, p.entries.left = some left → sent p.id log ++ left.map Pulse.sent = (wavesOf p.id given).map Pulse.sent

lemma events_output (now : ℤ) (p : TxRec) : ∀ e ∈ (p.output now).2, e.key = p.id := by
  intro e he
  unfold TxRec.output at he
  split at he
  · obtain ⟨out, -, rfl⟩ := List.mem_map.mp he
    rfl
  · cases he

lemma output_id (now : ℤ) (p : TxRec) : (p.output now).1.id = p.id := by
  unfold TxRec.output
  split <;> rfl

lemma left_pwmEdge (head : Pwm) (queued : List Pwm) (nextLevel : Bool) :
    (pwmEdge head queued nextLevel).entries.left = none := by
  have hstart : ∀ head queued nextLevel, (startCycle head queued nextLevel).entries.left = none := by
    intro head queued nextLevel
    unfold startCycle
    split
    · rfl
    · split <;> rfl
  unfold pwmEdge
  split
  · split
    · split <;> exact hstart _ _ _
    · exact hstart _ _ _
  · rfl

lemma Sends.output {given : List (ℕ × List Pulse)} (h : Sends log given p) (now : ℤ) :
    Sends (log ++ (p.output now).2) given (p.output now).1 := by
  unfold Sends
  rw [output_id]
  unfold TxRec.output
  split
  · dsimp only
    have hsent : ∀ out : Option Output,
        sent p.id (log ++ out.toList.map
            (fun out => ⟨p.id, now, now + p.entries.edge.micros * 1000, ⟨p.chip, p.gpio, out⟩⟩)) =
          sent p.id log ++ out.toList.map (fun out => (out, p.entries.edge.micros * 1000)) := by
      intro out
      rw [sent_append]
      cases out with
      | none => rfl
      | some out =>
        have hmicros : now + p.entries.edge.micros * 1000 - now = p.entries.edge.micros * 1000 := by omega
        simp [sent, events, hmicros]
    intro left hleft
    rw [hsent, List.append_assoc]
    unfold Sends at h
    unfold Entries.edge at hleft ⊢
    cases hentries : p.entries with
    | pwm head queued nextLevel =>
      simp only [hentries, left_pwmEdge] at hleft
      cases hleft
    | wave head queued pulsePos =>
      obtain ⟨left', hleft', heq⟩ := waveEdge_left head queued pulsePos
      simp only [hentries] at hleft ⊢
      rw [hleft'] at hleft
      cases hleft
      rw [heq]
      exact h _ (by rw [hentries]; rfl)
  · rw [List.append_nil]
    exact h

end Edge

section Scan

variable {now : ℤ} {recs : List TxRec} {r : List TxRec × ℤ × List TxEvent} {p q : TxRec}

/-- What a pass does with a record. It is not reached if the first record is deleted. -/
inductive Passes (now : ℤ) (r : List TxRec × ℤ × List TxEvent) (p : TxRec) : Prop
  | output (hactive : p.active = true) (hmem : (p.output now).1 ∈ r.1)
      (hevents : events p.id r.2.2 = (p.output now).2)
  | kept (hmem : p ∈ r.1) (hevents : events p.id r.2.2 = [])
  | deleted (hactive : p.active = false) (hnot : p.id ∉ r.1.map TxRec.id) (hevents : events p.id r.2.2 = [])

lemma Passes.cons (h : Passes now r p) (hq : q.id ≠ p.id) {more : List TxEvent} (hmore : ∀ e ∈ more, e.key = q.id)
    (delayMicros : ℤ) : Passes now (q :: r.1, delayMicros, more ++ r.2.2) p := by
  have hevents : events p.id (more ++ r.2.2) = events p.id r.2.2 := by
    rw [Deadlines.events_append, Deadlines.events_eq_nil, List.nil_append]
    intro e he
    rw [hmore e he]
    exact hq
  cases h with
  | output hactive hmem hev => exact .output hactive (List.mem_cons_of_mem _ hmem) (hevents.trans hev)
  | kept hmem hev => exact .kept (List.mem_cons_of_mem _ hmem) (hevents.trans hev)
  | deleted hactive hnot hev =>
    refine .deleted hactive ?_ (hevents.trans hev)
    rw [List.map_cons, List.mem_cons, not_or]
    exact ⟨Ne.symm hq, hnot⟩

/-- What a pass does, record by record. -/
lemma scan_passes (now : ℤ) (first : Bool) (delayMicros : ℤ) (hids : (recs.map TxRec.id).Nodup) :
    ((scan now first delayMicros recs).1.map TxRec.id).Sublist (recs.map TxRec.id) ∧
      (∀ p ∈ recs, Passes now (scan now first delayMicros recs) p) ∧
      ∀ e ∈ (scan now first delayMicros recs).2.2, e.key ∈ recs.map TxRec.id := by
  induction recs generalizing first delayMicros with
  | nil => simp [scan]
  | cons p rest ih =>
    obtain ⟨hp, hrest⟩ := List.nodup_cons.mp hids
    have hother : ∀ q ∈ rest, p.id ≠ q.id := fun q hq heq => hp (heq ▸ List.mem_map_of_mem hq)
    by_cases hactive : p.active = true
    · obtain ⟨least, -, hscan⟩ := scan_active now first delayMicros rest hactive
      rw [hscan]
      obtain ⟨hsub, hpasses, hkeys⟩ := ih false least hrest
      generalize scan now false least rest = r at hsub hpasses hkeys
      refine ⟨?_, ?_, ?_⟩
      · rw [List.map_cons, List.map_cons, output_id]
        exact hsub.cons_cons p.id
      · intro q hq
        rcases List.mem_cons.mp hq with rfl | hq
        · refine .output hactive List.mem_cons_self ?_
          have hnone : events q.id r.2.2 = [] :=
            Deadlines.events_eq_nil (fun e he heq => hp (heq ▸ hkeys e he))
          rw [Deadlines.events_append, Deadlines.events_eq_self (events_output now q), hnone, List.append_nil]
        · refine (hpasses q hq).cons ?_ ?_ _
          · rw [output_id]
            exact hother q hq
          · rw [output_id]
            exact events_output now p
      · intro e he
        rcases List.mem_append.mp he with he | he
        · rw [events_output now p e he]
          exact List.mem_cons_self
        · exact List.mem_cons_of_mem _ (hkeys e he)
    · rw [scan, if_neg hactive]
      rw [Bool.not_eq_true] at hactive
      split
      · refine ⟨List.sublist_cons_self _ _, ?_, by simp⟩
        intro q hq
        rcases List.mem_cons.mp hq with rfl | hq
        · exact .deleted hactive hp rfl
        · exact .kept hq rfl
      · obtain ⟨hsub, hpasses, hkeys⟩ := ih false delayMicros hrest
        refine ⟨hsub.cons p.id, ?_, fun e he => List.mem_cons_of_mem _ (hkeys e he)⟩
        intro q hq
        rcases List.mem_cons.mp hq with rfl | hq
        · exact .deleted hactive (fun hmem => hp (hsub.subset hmem))
            (Deadlines.events_eq_nil (fun e he heq => hp (heq ▸ hkeys e he)))
        · exact hpasses q hq

end Scan

section Sending

variable {recs : List TxRec} {made : ℕ} {log : List TxEvent} {given : List (ℕ × List Pulse)} {p : TxRec}
  {now : ℤ}

/-- What holds of the waves in any run. -/
structure Sending (recs : List TxRec) (made : ℕ) (log : List TxEvent) (given : List (ℕ × List Pulse)) :
    Prop where
  ids : (recs.map TxRec.id).Nodup
  fresh : ∀ p ∈ recs, p.id < made
  owners : ∀ x ∈ given, x.1 < made
  keys : ∀ e ∈ log, e.key < made
  waves : ∀ p ∈ recs, ∀ x ∈ given, x.1 = p.id → p.entries.left.isSome
  sends : ∀ p ∈ recs, Sends log given p
  sentWaves : ∀ x ∈ given, sent x.1 log <+: (wavesOf x.1 given).map Pulse.sent

lemma Sends.sentWaves (h : Sends log given p) (hwave : p.entries.left.isSome) :
    sent p.id log <+: (wavesOf p.id given).map Pulse.sent := by
  obtain ⟨left, hleft⟩ := Option.isSome_iff_exists.mp hwave
  exact ⟨_, h left hleft⟩

lemma output_isSome (now : ℤ) (h : p.entries.left.isSome) : (p.output now).1.entries.left.isSome := by
  unfold TxRec.output
  split
  · dsimp only
    cases hentries : p.entries with
    | pwm head queued nextLevel =>
      rw [hentries] at h
      cases h
    | wave head queued pulsePos =>
      obtain ⟨left, hleft, -⟩ := waveEdge_left head queued pulsePos
      exact Option.isSome_iff_exists.mpr ⟨left, hleft⟩
  · exact h

lemma sent_of_events {id : ℕ} {more : List TxEvent} (h : events id more = []) :
    sent id (log ++ more) = sent id log := by
  unfold sent
  rw [Deadlines.events_append, h, List.append_nil]

lemma sent_of_output {more : List TxEvent} (h : events p.id more = (p.output now).2) :
    sent p.id (log ++ more) = sent p.id (log ++ (p.output now).2) := by
  unfold sent
  rw [Deadlines.events_append, Deadlines.events_append, h,
    Deadlines.events_eq_self (events_output now p)]

/-- A record after a pass was there before, and was output or not. -/
lemma exists_of_mem_scan {r : List TxRec × ℤ × List TxEvent} (hids : (recs.map TxRec.id).Nodup)
    (hsub : (r.1.map TxRec.id).Sublist (recs.map TxRec.id)) (hpasses : ∀ p ∈ recs, Passes now r p) {q : TxRec}
    (hq : q ∈ r.1) : ∃ p ∈ recs, p.id = q.id ∧
      ((p.active = true ∧ q = (p.output now).1 ∧ events p.id r.2.2 = (p.output now).2) ∨
        (q = p ∧ events p.id r.2.2 = [])) := by
  obtain ⟨p, hp, hid⟩ := List.mem_map.mp (hsub.subset (List.mem_map_of_mem hq))
  refine ⟨p, hp, hid, ?_⟩
  have hinj := List.inj_on_of_nodup_map (hids.sublist hsub)
  cases hpasses p hp with
  | output hactive hmem hev =>
    exact Or.inl ⟨hactive, hinj hq hmem (by rw [output_id, hid]), hev⟩
  | kept hmem hev => exact Or.inr ⟨hinj hq hmem hid.symm, hev⟩
  | deleted hactive hnot hev => exact absurd (List.mem_map_of_mem hq) (hid ▸ hnot)

lemma Sending.scan (h : Sending recs made log given) (delayMicros : ℤ) :
    Sending (scan now true delayMicros recs).1 made (log ++ (scan now true delayMicros recs).2.2) given := by
  obtain ⟨hsub, hpasses, hkeys⟩ := scan_passes now true delayMicros h.ids
  generalize Lg.scan now true delayMicros recs = r at hsub hpasses hkeys
  have hold : ∀ q ∈ r.1, ∃ p ∈ recs, p.id = q.id ∧ (p.entries.left.isSome → q.entries.left.isSome) ∧
      (Sends log given p → Sends (log ++ r.2.2) given q) := by
    intro q hq
    obtain ⟨p, hp, hid, ⟨-, rfl, hev⟩ | ⟨rfl, hev⟩⟩ := exists_of_mem_scan h.ids hsub hpasses hq
    · refine ⟨p, hp, hid, output_isSome now, fun hsends left hleft => ?_⟩
      rw [output_id, sent_of_output hev]
      have heq := hsends.output now left hleft
      rwa [output_id] at heq
    · refine ⟨q, hp, rfl, fun hwave => hwave, fun hsends left hleft => ?_⟩
      rw [sent_of_events hev]
      exact hsends left hleft
  refine ⟨h.ids.sublist hsub, ?_, h.owners, ?_, ?_, ?_, ?_⟩
  · intro q hq
    obtain ⟨p, hp, hid, -⟩ := hold q hq
    exact hid ▸ h.fresh p hp
  · intro e he
    rcases List.mem_append.mp he with he | he
    · exact h.keys e he
    · obtain ⟨p, hp, hid⟩ := List.mem_map.mp (hkeys e he)
      exact hid ▸ h.fresh p hp
  · intro q hq x hx hxid
    obtain ⟨p, hp, hid, hwave, -⟩ := hold q hq
    exact hwave (h.waves p hp x hx (hxid.trans hid.symm))
  · intro q hq
    obtain ⟨p, hp, -, -, hsends⟩ := hold q hq
    exact hsends (h.sends p hp)
  · intro x hx
    by_cases hmem : ∃ p ∈ recs, p.id = x.1
    · obtain ⟨p, hp, hid⟩ := hmem
      have hwave := h.waves p hp x hx hid.symm
      rw [← hid]
      cases hpasses p hp with
      | output hactive hmem hev =>
        rw [sent_of_output hev]
        have hpre := ((h.sends p hp).output now).sentWaves (output_isSome now hwave)
        rwa [output_id] at hpre
      | kept hmem hev =>
        rw [sent_of_events hev]
        exact (h.sends p hp).sentWaves hwave
      | deleted hactive hnot hev =>
        rw [sent_of_events hev]
        exact (h.sends p hp).sentWaves hwave
    · rw [sent_of_events]
      · exact h.sentWaves x hx
      · refine Deadlines.events_eq_nil ?_
        intro e he heq
        obtain ⟨p, hp, hid⟩ := List.mem_map.mp (hkeys e he)
        exact hmem ⟨p, hp, hid.trans heq⟩

lemma Sending.map (h : Sending recs made log given) {f : TxRec → TxRec} (hid : ∀ p, (f p).id = p.id)
    (hleft : ∀ p, (f p).entries.left = p.entries.left) : Sending (recs.map f) made log given := by
  have hids : (recs.map f).map TxRec.id = recs.map TxRec.id := by
    rw [List.map_map]
    exact List.map_congr_left (fun p _ => hid p)
  refine ⟨hids ▸ h.ids, ?_, h.owners, h.keys, ?_, ?_, h.sentWaves⟩
  · intro q hq
    obtain ⟨p, hp, rfl⟩ := List.mem_map.mp hq
    exact hid p ▸ h.fresh p hp
  · intro q hq x hx hxid
    obtain ⟨p, hp, rfl⟩ := List.mem_map.mp hq
    rw [hleft]
    exact h.waves p hp x hx (hxid.trans (hid p))
  · intro q hq left hq'
    obtain ⟨p, hp, rfl⟩ := List.mem_map.mp hq
    rw [hleft] at hq'
    rw [hid]
    exact h.sends p hp left hq'

lemma wavesOf_append (id : ℕ) (given more : List (ℕ × List Pulse)) :
    wavesOf id (given ++ more) = wavesOf id given ++ wavesOf id more := by
  simp [wavesOf]

lemma wavesOf_singleton_self (id : ℕ) (pulses : List Pulse) : wavesOf id [(id, pulses)] = pulses := by
  simp [wavesOf]

lemma wavesOf_singleton_of_ne {id k : ℕ} (h : k ≠ id) (pulses : List Pulse) :
    wavesOf id [(k, pulses)] = [] := by
  simp [wavesOf, h]

lemma left_pushWave (entries : Entries) (pulses : List Pulse) :
    (entries.pushWave pulses).left = entries.left.map (· ++ pulses) := by
  cases entries with
  | pwm => rfl
  | wave head queued pulsePos => simp [Entries.pushWave, Entries.left]

/-- The waves that a record has sent stay the first ones when one more is given. -/
lemma Sending.sentWaves_append (h : Sending recs made log given) {k : ℕ}
    (hk : sent k log <+: (wavesOf k given).map Pulse.sent) (pulses : List Pulse) :
    ∀ x ∈ given ++ [(k, pulses)], sent x.1 log <+: (wavesOf x.1 (given ++ [(k, pulses)])).map Pulse.sent := by
  intro x hx
  rw [wavesOf_append, List.map_append]
  refine List.IsPrefix.trans ?_ (List.prefix_append _ _)
  rcases List.mem_append.mp hx with hx | hx
  · exact h.sentWaves x hx
  · rw [List.mem_singleton.mp hx]
    exact hk

/-- One more wave is queued for a record. -/
lemma Sending.push (h : Sending recs made log given) {p : TxRec} (hp : p ∈ recs)
    (hwave : p.entries.left.isSome) (pulses : List Pulse) :
    Sending (recs.map (fun q => if q.id = p.id then { q with entries := q.entries.pushWave pulses } else q))
      made log (given ++ [(p.id, pulses)]) := by
  have hid : ∀ q : TxRec, (if q.id = p.id then { q with entries := q.entries.pushWave pulses } else q).id =
      q.id := by
    intro q
    split <;> rfl
  have hids : (recs.map (fun q => if q.id = p.id then { q with entries := q.entries.pushWave pulses }
      else q)).map TxRec.id = recs.map TxRec.id := by
    rw [List.map_map]
    exact List.map_congr_left (fun q _ => hid q)
  have hlt := h.fresh p hp
  refine ⟨hids ▸ h.ids, ?_, ?_, h.keys, ?_, ?_, ?_⟩
  · intro q hq
    obtain ⟨r, hr, rfl⟩ := List.mem_map.mp hq
    rw [hid]
    exact h.fresh r hr
  · intro x hx
    rcases List.mem_append.mp hx with hx | hx
    · exact h.owners x hx
    · rw [List.mem_singleton.mp hx]
      exact h.fresh p hp
  · intro q hq x hx hxid
    obtain ⟨r, hr, rfl⟩ := List.mem_map.mp hq
    rw [hid] at hxid
    by_cases hrp : r.id = p.id
    · obtain rfl : r = p := List.inj_on_of_nodup_map h.ids hr hp hrp
      simpa [left_pushWave] using hwave
    · rw [if_neg hrp]
      rcases List.mem_append.mp hx with hx | hx
      · exact h.waves r hr x hx hxid
      · rw [List.mem_singleton.mp hx] at hxid
        exact absurd hxid.symm hrp
  · intro q hq left hleft
    obtain ⟨r, hr, rfl⟩ := List.mem_map.mp hq
    rw [hid, wavesOf_append, List.map_append]
    by_cases hrp : r.id = p.id
    · rw [if_pos hrp, left_pushWave, Option.map_eq_some_iff] at hleft
      obtain ⟨old, hold, rfl⟩ := hleft
      rw [← hrp, wavesOf_singleton_self, ← h.sends r hr old hold, List.map_append, List.append_assoc]
    · rw [if_neg hrp] at hleft
      rw [wavesOf_singleton_of_ne (Ne.symm hrp), List.map_nil, List.append_nil]
      exact h.sends r hr left hleft
  · exact h.sentWaves_append ((h.sends p hp).sentWaves hwave) pulses

lemma sent_of_fresh (h : Sending recs made log given) : sent made log = [] := by
  unfold sent
  rw [Deadlines.events_eq_nil, List.map_nil]
  intro e he heq
  exact absurd (h.keys e he) (heq ▸ Nat.lt_irrefl _)

lemma wavesOf_of_fresh (h : Sending recs made log given) : wavesOf made given = [] := by
  unfold wavesOf
  rw [List.filter_eq_nil_iff.mpr, List.map_nil, List.flatten_nil]
  intro x hx
  simpa using Nat.ne_of_lt (h.owners x hx)

/-- A new record comes with the waves that were given to it. -/
lemma Sending.cons (h : Sending recs made log given) (hp : p.id = made) {more : List (ℕ × List Pulse)}
    (hmore : ∀ x ∈ more, x.1 = made ∧ p.entries.left.isSome)
    (hleft : ∀ left, p.entries.left = some left → wavesOf made more = left) :
    Sending (p :: recs) (made + 1) log (given ++ more) := by
  have hold : ∀ q ∈ recs, wavesOf q.id (given ++ more) = wavesOf q.id given := by
    intro q hq
    have hnone : wavesOf q.id more = [] := by
      unfold wavesOf
      rw [List.filter_eq_nil_iff.mpr, List.map_nil, List.flatten_nil]
      intro x hx
      have hlt := h.fresh q hq
      simp only [(hmore x hx).1, decide_eq_true_eq]
      omega
    rw [wavesOf_append, hnone, List.append_nil]
  refine ⟨?_, ?_, ?_, ?_, ?_, ?_, ?_⟩
  · refine List.nodup_cons.mpr ⟨?_, h.ids⟩
    intro hmem
    obtain ⟨q, hq, hid⟩ := List.mem_map.mp hmem
    exact absurd (h.fresh q hq) (by omega)
  · intro q hq
    rcases List.mem_cons.mp hq with rfl | hq
    · omega
    · exact Nat.lt_succ_of_lt (h.fresh q hq)
  · intro x hx
    rcases List.mem_append.mp hx with hx | hx
    · exact Nat.lt_succ_of_lt (h.owners x hx)
    · exact (hmore x hx).1 ▸ Nat.lt_succ_self _
  · intro e he
    exact Nat.lt_succ_of_lt (h.keys e he)
  · intro q hq x hx hxid
    rcases List.mem_append.mp hx with hx | hx
    · have hlt := h.owners x hx
      rcases List.mem_cons.mp hq with rfl | hq
      · omega
      · exact h.waves q hq x hx hxid
    · obtain ⟨hid, hwave⟩ := hmore x hx
      rcases List.mem_cons.mp hq with rfl | hq
      · exact hwave
      · have hlt := h.fresh q hq
        omega
  · intro q hq left hq'
    rcases List.mem_cons.mp hq with rfl | hq
    · rw [hp, sent_of_fresh h, wavesOf_append, wavesOf_of_fresh h, hleft left hq']
      rfl
    · rw [hold q hq]
      exact h.sends q hq left hq'
  · intro x hx
    rw [wavesOf_append, List.map_append]
    refine List.IsPrefix.trans ?_ (List.prefix_append _ _)
    rcases List.mem_append.mp hx with hx | hx
    · exact h.sentWaves x hx
    · rw [(hmore x hx).1, sent_of_fresh h]
      exact List.nil_prefix

end Sending

section Complete

variable {recs : List TxRec} {made : ℕ} {log : List TxEvent} {given : List (ℕ × List Pulse)} {p : TxRec}
  {now : ℤ}

/-- No queued wave is empty. -/
def Entries.Filled : Entries → Prop
  | .pwm .. => True
  | .wave _ queued _ => ∀ w ∈ queued, w ≠ []

/-- A wave record that is not disturbed ends when nothing is left. -/
structure Completes (p : TxRec) : Prop where
  filled : p.entries.Filled
  ends : p.active = false → ∀ left, p.entries.left = some left → left = []

lemma waveEdge_completes (head : List Pulse) {queued : List (List Pulse)} (pulsePos : ℕ)
    (h : ∀ w ∈ queued, w ≠ []) : (waveEdge head queued pulsePos).entries.Filled ∧
      ((waveEdge head queued pulsePos).active = false →
        (waveEdge head queued pulsePos).entries.left = some []) := by
  unfold waveEdge
  split
  · rename_i hpos
    cases queued with
    | nil =>
      unfold outputPulse
      rw [List.getElem?_eq_none hpos]
      refine ⟨h, fun _ => ?_⟩
      simp [Entries.left, List.drop_eq_nil_of_le hpos]
    | cons next rest =>
      obtain ⟨pulse, tail, rfl⟩ := List.exists_cons_of_ne_nil (h next List.mem_cons_self)
      refine ⟨fun w hw => h w (List.mem_cons_of_mem _ hw), fun hactive => ?_⟩
      cases hactive
  · rename_i hpos
    unfold outputPulse
    rw [List.getElem?_eq_getElem (Nat.lt_of_not_le hpos)]
    refine ⟨h, fun hactive => ?_⟩
    cases hactive

lemma Completes.output (h : Completes p) (hactive : p.active = true) (now : ℤ) :
    Completes (p.output now).1 := by
  obtain ⟨hfilled, hends⟩ := h
  unfold TxRec.output
  split
  · dsimp only
    cases hentries : p.entries with
    | pwm head queued nextLevel =>
      have hpwm : (pwmEdge head queued nextLevel).entries.left = none := left_pwmEdge head queued nextLevel
      refine ⟨?_, fun _ left hleft => ?_⟩
      · show Entries.Filled (pwmEdge head queued nextLevel).entries
        generalize (pwmEdge head queued nextLevel).entries = entries at hpwm
        cases entries with
        | pwm => exact trivial
        | wave => cases hpwm
      · exact absurd (hpwm.symm.trans hleft) (by simp)
    | wave head queued pulsePos =>
      rw [hentries] at hfilled
      obtain ⟨hfilled', hleft⟩ := waveEdge_completes head pulsePos hfilled
      refine ⟨hfilled', fun hdone left hl => ?_⟩
      exact Option.some.inj (hl.symm.trans (hleft hdone))
  · refine ⟨hfilled, fun hdone => ?_⟩
    rw [hactive] at hdone
    cases hdone

/-- What holds of the waves in a run that does not disturb them. -/
structure Complete (recs : List TxRec) (log : List TxEvent) (given : List (ℕ × List Pulse)) : Prop where
  completes : ∀ p ∈ recs, Completes p
  gone : ∀ x ∈ given, x.1 ∉ recs.map TxRec.id → sent x.1 log = (wavesOf x.1 given).map Pulse.sent

lemma Sends.done (h : Sends log given p) (hcomplete : Completes p) (hwave : p.entries.left.isSome)
    (hactive : p.active = false) : sent p.id log = (wavesOf p.id given).map Pulse.sent := by
  obtain ⟨left, hleft⟩ := Option.isSome_iff_exists.mp hwave
  have heq := h left hleft
  rwa [hcomplete.ends hactive left hleft, List.map_nil, List.append_nil] at heq

lemma Complete.scan (h : Complete recs log given) (hs : Sending recs made log given) (delayMicros : ℤ) :
    Complete (scan now true delayMicros recs).1 (log ++ (scan now true delayMicros recs).2.2) given := by
  obtain ⟨hsub, hpasses, hkeys⟩ := scan_passes now true delayMicros hs.ids
  generalize Lg.scan now true delayMicros recs = r at hsub hpasses hkeys
  refine ⟨?_, ?_⟩
  · intro q hq
    obtain ⟨p, hp, hid, ⟨hactive, rfl, hev⟩ | ⟨rfl, hev⟩⟩ := exists_of_mem_scan hs.ids hsub hpasses hq
    · exact (h.completes p hp).output hactive now
    · exact h.completes q hp
  · intro x hx hnot
    by_cases hmem : ∃ p ∈ recs, p.id = x.1
    · obtain ⟨p, hp, hid⟩ := hmem
      have hwave := hs.waves p hp x hx hid.symm
      rw [← hid] at hnot ⊢
      cases hpasses p hp with
      | output hactive hmem hev =>
        have hmem' := List.mem_map_of_mem (f := TxRec.id) hmem
        rw [output_id] at hmem'
        exact absurd hmem' hnot
      | kept hmem hev => exact absurd (List.mem_map_of_mem hmem) hnot
      | deleted hactive hnot hev =>
        rw [sent_of_events hev]
        exact (hs.sends p hp).done (h.completes p hp) hwave hactive
    · have hnone : x.1 ∉ recs.map TxRec.id := fun hin => hmem (List.mem_map.mp hin)
      rw [sent_of_events]
      · exact h.gone x hx hnone
      · exact Deadlines.events_eq_nil (fun e he heq => hnone (heq ▸ hkeys e he))

/-- A change that keeps what is left of the waves, and that ends none of them. -/
lemma Complete.map (h : Complete recs log given) {f : TxRec → TxRec} (hid : ∀ p, (f p).id = p.id)
    (hf : ∀ p ∈ recs, Completes (f p)) : Complete (recs.map f) log given := by
  have hids : (recs.map f).map TxRec.id = recs.map TxRec.id := by
    rw [List.map_map]
    exact List.map_congr_left (fun p _ => hid p)
  refine ⟨?_, fun x hx hnot => h.gone x hx (hids ▸ hnot)⟩
  intro q hq
  obtain ⟨p, hp, rfl⟩ := List.mem_map.mp hq
  exact hf p hp

/-- A record that is gone has sent its waves, also when another one is given more. -/
lemma Complete.gone_append (h : Complete recs log given) {k : ℕ} (pulses : List Pulse) :
    ∀ x ∈ given ++ [(k, pulses)], x.1 ∉ recs.map TxRec.id → x.1 ≠ k →
      sent x.1 log = (wavesOf x.1 (given ++ [(k, pulses)])).map Pulse.sent := by
  intro x hx hnot hne
  rw [wavesOf_append, wavesOf_singleton_of_ne (Ne.symm hne), List.append_nil]
  rcases List.mem_append.mp hx with hx | hx
  · exact h.gone x hx hnot
  · rw [List.mem_singleton.mp hx] at hne
    exact absurd rfl hne

end Complete

section Runs

variable {s t : Tx} {sec nsec : ℤ} {as : List TxAct}

lemma left_pushPwm (e : Pwm) (entries : Entries) : (entries.pushPwm e).left = entries.left := by
  cases entries <;> rfl

lemma getTxRec_eq_some {chip gpio : ℕ} {type : TxType} {p : TxRec}
    (h : (s.getTxRec chip gpio type).filter TxRec.active = some p) :
    p ∈ s.recs ∧ p.active = true ∧ p.entries.type = type := by
  obtain ⟨hget, hactive⟩ := Option.filter_eq_some_iff.mp h
  have htype := List.find?_some hget
  unfold isTxRec at htype
  simp only [decide_eq_true_eq] at htype
  exact ⟨List.mem_of_find?_eq_some hget, hactive, htype.2.2⟩

lemma isSome_left {entries : Entries} : entries.left.isSome ↔ entries.type = .wave := by
  cases entries <;> simp [Entries.left, Entries.type]

def Tx.Sending (s : Tx) : Prop := Lg.Sending s.recs s.made s.log s.given

/-- A change of the records that keeps what is left of their waves. -/
lemma Tx.Sending.modify (h : s.Sending) {p : TxRec} {f : TxRec → TxRec} (hid : ∀ q, (f q).id = q.id)
    (hleft : ∀ q, (f q).entries.left = q.entries.left) : (s.modifyTxRec p f).Sending := by
  refine Lg.Sending.map h ?_ ?_
  · intro q
    split
    · exact hid q
    · rfl
  · intro q
    split
    · exact hleft q
    · rfl

lemma Tx.Sending.deactivate (h : s.Sending) (chip gpio : ℕ) (type : TxType) :
    (s.deactivate chip gpio type).Sending := by
  unfold Tx.deactivate
  split
  · exact h.modify (fun _ => rfl) (fun _ => rfl)
  · exact h

lemma Tx.Sending.pass (h : s.Sending) : s.pass.Sending := by
  unfold Tx.Sending
  rw [pass_eq]
  simp only [advance_recs, advance_made, advance_log, advance_given]
  exact (Lg.Sending.map h (f := TxRec.elapse s.delayMicros) (fun _ => rfl) (fun _ => rfl)).scan 20000

lemma Tx.Sending.step (h : s.Sending) {a : TxAct} (hst : s.step a = some t) : t.Sending := by
  cases a with
  | pass =>
    unfold Tx.step at hst
    dsimp only at hst
    split at hst
    · cases hst
      exact h.pass
    · cases hst
  | pulse chip gpio microsOn microsOff microsOffset cycles =>
    cases hst
    unfold Tx.pulse
    split
    · split
      · split
        · exact h.modify (fun _ => rfl) (fun q => left_pushPwm _ _)
        · exact h
      · exact h.modify (fun _ => rfl) (fun _ => rfl)
    · split
      · unfold Tx.Sending Tx.createPwm Tx.create
        dsimp only
        rw [← List.append_nil s.given]
        refine Lg.Sending.cons h rfl (by simp) ?_
        rintro left ⟨⟩
      · exact h
  | wave chip gpio pulses =>
    cases hst
    unfold Tx.wave
    split
    · rename_i p hp
      obtain ⟨hmem, -, htype⟩ := getTxRec_eq_some hp
      split
      · exact Lg.Sending.push h hmem (isSome_left.mpr htype) pulses
      · exact h
    · refine Lg.Sending.cons h rfl ?_ ?_
      · intro x hx
        rw [List.mem_singleton.mp hx]
        exact ⟨rfl, rfl⟩
      · rintro left ⟨⟩
        rw [wavesOf_singleton_self]
        simp
  | free chip gpio =>
    cases hst
    exact (h.deactivate chip gpio .pwm).deactivate chip gpio .wave
  | stop chip =>
    cases hst
    refine Lg.Sending.map h ?_ ?_
    · intro q
      split <;> rfl
    · intro q
      split <;> rfl
  | setMinDelay cfgVal =>
    cases hst
    split
    · exact h
    · exact h

/-- A call that ends no wave and gives no empty one. -/
def TxAct.Undisturbing : TxAct → Prop
  | .free .. => False
  | .stop .. => False
  | .wave _ _ pulses => pulses ≠ []
  | _ => True

def Tx.Complete (s : Tx) : Prop := Lg.Complete s.recs s.log s.given

lemma Tx.Complete.pass (h : s.Complete) (hs : s.Sending) : s.pass.Complete := by
  unfold Tx.Complete
  rw [pass_eq]
  simp only [advance_recs, advance_log, advance_given]
  have hmap : Lg.Complete (s.recs.map (TxRec.elapse s.delayMicros)) s.log s.given :=
    Lg.Complete.map h (fun _ => rfl) (fun p hp => ⟨(h.completes p hp).filled, (h.completes p hp).ends⟩)
  exact hmap.scan (Lg.Sending.map hs (f := TxRec.elapse s.delayMicros) (fun _ => rfl) (fun _ => rfl)) 20000

lemma filled_pushWave {pulses : List Pulse} (hne : pulses ≠ []) {entries : Entries} (h : entries.Filled) :
    (entries.pushWave pulses).Filled := by
  cases entries with
  | pwm => exact trivial
  | wave head queued pulsePos =>
    intro w hw
    rcases List.mem_append.mp hw with hw | hw
    · exact h w hw
    · rw [List.mem_singleton.mp hw]
      exact hne

lemma filled_pushPwm (e : Pwm) {entries : Entries} (h : entries.Filled) : (entries.pushPwm e).Filled := by
  cases entries with
  | pwm => exact trivial
  | wave => exact h

lemma Tx.Complete.step (h : s.Complete) (hs : s.Sending) {a : TxAct} (ha : a.Undisturbing)
    (hst : s.step a = some t) : t.Complete := by
  cases a with
  | pass =>
    unfold Tx.step at hst
    dsimp only at hst
    split at hst
    · cases hst
      exact h.pass hs
    · cases hst
  | pulse chip gpio microsOn microsOff microsOffset cycles =>
    cases hst
    unfold Tx.pulse
    split
    · rename_i p hp
      obtain ⟨hmem, -, htype⟩ := getTxRec_eq_some hp
      split
      · split
        · refine Lg.Complete.map h ?_ ?_
          · intro q
            split <;> rfl
          · intro q hq
            obtain ⟨hfilled, hends⟩ := h.completes q hq
            split
            · exact ⟨filled_pushPwm _ hfilled, fun hdone left hleft => hends hdone left (left_pushPwm _ _ ▸ hleft)⟩
            · exact ⟨hfilled, hends⟩
        · exact h
      · refine Lg.Complete.map h ?_ ?_
        · intro q
          split <;> rfl
        · intro q hq
          obtain ⟨hfilled, hends⟩ := h.completes q hq
          by_cases hqp : q.id = p.id
          · obtain rfl : q = p := List.inj_on_of_nodup_map hs.ids hq hmem hqp
            rw [if_pos rfl]
            refine ⟨hfilled, fun _ left hleft => ?_⟩
            have hwave := isSome_left.mp (Option.isSome_iff_exists.mpr ⟨left, hleft⟩)
            exact absurd (htype.symm.trans hwave) (by decide)
          · rw [if_neg hqp]
            exact ⟨hfilled, hends⟩
    · split
      · refine ⟨?_, fun x hx hnot => h.gone x hx (fun hin => hnot (List.mem_cons_of_mem _ hin))⟩
        intro q hq
        rcases List.mem_cons.mp hq with rfl | hq
        · exact ⟨trivial, fun hdone => by cases hdone⟩
        · exact h.completes q hq
      · exact h
  | wave chip gpio pulses =>
    cases hst
    unfold Tx.wave
    split
    · rename_i p hp
      obtain ⟨hmem, hactive, htype⟩ := getTxRec_eq_some hp
      split
      · have hid : ∀ q : TxRec, (if q.id = p.id then { q with entries := q.entries.pushWave pulses } else q).id =
            q.id := by
          intro q
          split <;> rfl
        refine ⟨?_, ?_⟩
        · intro q hq
          obtain ⟨r, hr, rfl⟩ := List.mem_map.mp hq
          obtain ⟨hfilled, hends⟩ := h.completes r hr
          by_cases hrp : r.id = p.id
          · obtain rfl : r = p := List.inj_on_of_nodup_map hs.ids hr hmem hrp
            rw [if_pos rfl]
            refine ⟨filled_pushWave ha hfilled, fun hdone => ?_⟩
            exact absurd (hactive.symm.trans hdone) (by decide)
          · rw [if_neg hrp]
            exact ⟨hfilled, hends⟩
        · intro x hx hnot
          have hids : (s.modifyTxRec p (fun p => { p with entries := p.entries.pushWave pulses })).recs.map
              TxRec.id = s.recs.map TxRec.id := by
            unfold Tx.modifyTxRec
            rw [List.map_map]
            exact List.map_congr_left (fun q _ => hid q)
          rw [hids] at hnot
          refine Lg.Complete.gone_append h pulses x hx hnot ?_
          rintro heq
          exact hnot (heq ▸ List.mem_map_of_mem hmem)
      · exact h
    · refine ⟨?_, ?_⟩
      · intro q hq
        rcases List.mem_cons.mp hq with rfl | hq
        · exact ⟨fun w hw => absurd hw List.not_mem_nil, fun hdone => by cases hdone⟩
        · exact h.completes q hq
      · intro x hx hnot
        have hne : x.1 ≠ s.made ∧ x.1 ∉ s.recs.map TxRec.id := by
          simpa [Tx.create] using hnot
        exact Lg.Complete.gone_append h pulses x hx hne.2 hne.1
  | free => exact ha.elim
  | stop => exact ha.elim
  | setMinDelay cfgVal =>
    cases hst
    split
    · exact h
    · exact h

lemma sending_start (sec nsec : ℤ) : (Tx.start sec nsec).Sending := by
  constructor <;> simp [Tx.start]

lemma run_sending (h : exec Tx.step (.start sec nsec) as = some t) : t.Sending :=
  Transition.invariant_of_exec (I := Tx.Sending) (sending_start sec nsec) (fun _ _ _ _ _ hu huv => hu.step huv) h

lemma run_complete (has : ∀ a ∈ as, a.Undisturbing) (h : exec Tx.step (.start sec nsec) as = some t) :
    t.Complete := by
  refine Transition.invariant_of_guarded (I := Tx.Complete) ?_ ?_ (Transition.guarded_of_forall_mem has) h
  · exact ⟨by simp [Tx.start], by simp [Tx.start]⟩
  · intro pre u a v hu hcomplete ha huv
    exact hcomplete.step (run_sending hu) ha huv

/-- What is output for a record is the beginning of the waves given to it, one after the other, and
the rest of them is queued in the record. If no call ends a wave and no wave is empty, a record that
is not active any more has output them all. -/
theorem run_wave (h : exec Tx.step (.start sec nsec) as = some t) :
    (∀ p ∈ t.recs, Sends t.log t.given p) ∧
      (∀ x ∈ t.given, sent x.1 t.log <+: (wavesOf x.1 t.given).map Pulse.sent) ∧
      ((∀ a ∈ as, a.Undisturbing) → ∀ x ∈ t.given, (∀ p ∈ t.recs, p.id = x.1 → p.active = false) →
        sent x.1 t.log = (wavesOf x.1 t.given).map Pulse.sent) := by
  have hsending := run_sending h
  refine ⟨hsending.sends, hsending.sentWaves, ?_⟩
  intro has x hx hdone
  have hcomplete := run_complete has h
  by_cases hmem : ∃ p ∈ t.recs, p.id = x.1
  · obtain ⟨p, hp, hid⟩ := hmem
    have hsent := (hsending.sends p hp).done (hcomplete.completes p hp) (hsending.waves p hp x hx hid.symm)
      (hdone p hp hid)
    rwa [hid] at hsent
  · exact hcomplete.gone x hx (fun hin => hmem (List.mem_map.mp hin))

/-- A wave and another one behind it. -/
def twoWaves : List TxAct := [.wave 0 1 [⟨1, 1, 100⟩, ⟨0, 1, 50⟩], .pass, .wave 0 1 [⟨1, 1, 30⟩], .pass, .pass, .pass]

theorem run_wave_twoWaves : ∃ t, exec Tx.step (.start 0 0) twoWaves = some t ∧
    ∀ x ∈ t.given, sent x.1 t.log = (wavesOf x.1 t.given).map Pulse.sent := by
  have hrun : (exec Tx.step (.start 0 0) twoWaves).map (fun t => t.recs.all (fun p => !p.active)) =
      some true := by decide +kernel
  obtain ⟨t, ht, hdone⟩ := Option.map_eq_some_iff.mp hrun
  have has : ∀ a ∈ twoWaves, a.Undisturbing := by
    unfold twoWaves
    simp [TxAct.Undisturbing]
  refine ⟨t, ht, fun x hx => (run_wave ht).2.2 has x hx (fun p hp _ => ?_)⟩
  simpa using List.all_eq_true.mp hdone p hp

end Runs

end Lg
