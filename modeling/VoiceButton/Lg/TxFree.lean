import VoiceButton.Lg.TxWaves

/-!
# The end of the output of a GPIO

`xSetAsFree` sets inactive the first record of each type that it finds for a GPIO, and closes the
GPIO afterwards. This ends all output for the GPIO, since at most the first record of a GPIO and a
type is active.
-/

namespace Lg

open Deadlines (events)
open Transition (exec)

section FirstActive

variable {s t : Tx} {recs : List TxRec} {p q : TxRec}

/-- Two records for the same GPIO and of the same type. -/
def SameKey (p q : TxRec) : Prop := p.chip = q.chip ∧ p.gpio = q.gpio ∧ p.entries.type = q.entries.type

/-- Behind a record for a GPIO there is no active one of its type. -/
def FirstActive (recs : List TxRec) : Prop := recs.Pairwise (fun q p => p.active = true → ¬ SameKey q p)

/-- The record `q` is what the thread or a call makes of `p`. -/
structure Becomes (q p : TxRec) : Prop where
  id : q.id = p.id
  key : SameKey q p
  active : q.active = true → p.active = true

lemma SameKey.refl (p : TxRec) : SameKey p p := ⟨rfl, rfl, rfl⟩

lemma SameKey.trans {r : TxRec} (h : SameKey p q) (h' : SameKey q r) : SameKey p r :=
  ⟨h.1.trans h'.1, h.2.1.trans h'.2.1, h.2.2.trans h'.2.2⟩

lemma SameKey.symm (h : SameKey p q) : SameKey q p := ⟨h.1.symm, h.2.1.symm, h.2.2.symm⟩

instance : Std.Refl Becomes := ⟨fun p => ⟨rfl, .refl p, fun h => h⟩⟩

instance : IsTrans TxRec Becomes :=
  ⟨fun _ _ _ h h' => ⟨h.id.trans h'.id, h.key.trans h'.key, fun hactive => h'.active (h.active hactive)⟩⟩

/-- Some of the records, as the thread or a call has made them. -/
abbrev Changed (recs recs' : List TxRec) : Prop := List.SublistForall₂ Becomes recs' recs

lemma type_edge (entries : Entries) : entries.edge.entries.type = entries.type := by
  cases entries with
  | pwm head queued nextLevel =>
    have hleft := left_pwmEdge head queued nextLevel
    show (pwmEdge head queued nextLevel).entries.type = .pwm
    generalize (pwmEdge head queued nextLevel).entries = entries at hleft
    cases entries with
    | pwm => rfl
    | wave => cases hleft
  | wave head queued pulsePos =>
    obtain ⟨left, hleft, -⟩ := waveEdge_left head queued pulsePos
    show (waveEdge head queued pulsePos).entries.type = .wave
    generalize (waveEdge head queued pulsePos).entries = entries at hleft
    cases entries with
    | pwm => cases hleft
    | wave => rfl

lemma becomes_output (now : ℤ) (h : p.active = true) : Becomes (p.output now).1 p := by
  unfold TxRec.output
  split
  · exact ⟨rfl, ⟨rfl, rfl, type_edge p.entries⟩, fun _ => h⟩
  · exact ⟨rfl, .refl p, fun h => h⟩

lemma changed_map {f : TxRec → TxRec} (hf : ∀ p, Becomes (f p) p) : Changed recs (recs.map f) := by
  rw [Changed, List.sublistForall₂_map_left_iff]
  exact List.sublistForall₂_iff.mpr ⟨recs, List.forall₂_same.mpr (fun p _ => hf p), .refl _⟩

lemma Changed.refl (recs : List TxRec) : Changed recs recs := (List.Sublist.refl recs).sublistForall₂

lemma Changed.trans {recs' recs'' : List TxRec} (h : Changed recs recs') (h' : Changed recs' recs'') :
    Changed recs recs'' :=
  List.SublistForall₂.is_trans.trans _ _ _ h' h

lemma changed_scan (now : ℤ) (first : Bool) (delayMicros : ℤ) (recs : List TxRec) :
    Changed recs (scan now first delayMicros recs).1 := by
  induction recs generalizing first delayMicros with
  | nil => exact .nil
  | cons p rest ih =>
    by_cases hactive : p.active = true
    · obtain ⟨least, -, hscan⟩ := scan_active now first delayMicros rest hactive
      rw [hscan]
      exact .cons (becomes_output now hactive) (ih false least)
    · rw [scan, if_neg hactive]
      split
      · exact .cons_right (Changed.refl rest)
      · exact .cons_right (ih false delayMicros)

lemma Changed.exists {recs' : List TxRec} (h : Changed recs recs') (hq : q ∈ recs') : ∃ p ∈ recs, Becomes q p := by
  induction h with
  | nil => cases hq
  | cons hp _ ih =>
    rcases List.mem_cons.mp hq with rfl | hq
    · exact ⟨_, List.mem_cons_self, hp⟩
    · obtain ⟨p, hmem, hbecomes⟩ := ih hq
      exact ⟨p, List.mem_cons_of_mem _ hmem, hbecomes⟩
  | cons_right _ ih =>
    obtain ⟨p, hmem, hbecomes⟩ := ih hq
    exact ⟨p, List.mem_cons_of_mem _ hmem, hbecomes⟩

lemma FirstActive.changed {recs' : List TxRec} (h : FirstActive recs) (hc : Changed recs recs') :
    FirstActive recs' := by
  induction hc with
  | nil => exact .nil
  | cons hp hrest ih =>
    obtain ⟨hhead, htail⟩ := List.pairwise_cons.mp h
    refine List.pairwise_cons.mpr ⟨?_, ih htail⟩
    intro q' hq' hactive hkey
    obtain ⟨q, hq, hbecomes⟩ := Changed.exists hrest hq'
    exact hhead q hq (hbecomes.active hactive) (hp.key.symm.trans (hkey.trans hbecomes.key))
  | cons_right _ ih => exact ih (List.pairwise_cons.mp h).2

/-- If the first record for a GPIO and a type is not active, none is. -/
lemma FirstActive.getTxRec (h : FirstActive s.recs) {chip gpio : ℕ} {type : TxType} (hp : p ∈ s.recs)
    (hkey : isTxRec chip gpio type p = true) (hactive : p.active = true) :
    s.getTxRec chip gpio type = some p := by
  unfold FirstActive at h
  unfold Tx.getTxRec
  generalize s.recs = recs at h hp
  induction recs with
  | nil => cases hp
  | cons q rest ih =>
    obtain ⟨hhead, htail⟩ := List.pairwise_cons.mp h
    rcases List.mem_cons.mp hp with rfl | hp
    · rw [List.find?_cons_of_pos hkey]
    · have hne : ¬ isTxRec chip gpio type q = true := by
        intro hq
        unfold isTxRec at hkey hq
        simp only [decide_eq_true_eq] at hkey hq
        apply hhead p hp hactive
        exact ⟨hq.1.trans hkey.1.symm, hq.2.1.trans hkey.2.1.symm, hq.2.2.trans hkey.2.2.symm⟩
      rw [List.find?_cons_of_neg hne]
      exact ih htail hp

/-- A record is only made where no other one is active. -/
lemma FirstActive.cons (h : FirstActive s.recs) {chip gpio : ℕ} {type : TxType}
    (hnone : (s.getTxRec chip gpio type).filter TxRec.active = none)
    (hp : isTxRec chip gpio type p = true) : FirstActive (p :: s.recs) := by
  refine List.pairwise_cons.mpr ⟨?_, h⟩
  intro q hq hactive hkey
  have hkeyq : isTxRec chip gpio type q = true := by
    unfold isTxRec at hp ⊢
    simp only [decide_eq_true_eq] at hp ⊢
    exact ⟨hkey.1.symm.trans hp.1, hkey.2.1.symm.trans hp.2.1, hkey.2.2.symm.trans hp.2.2⟩
  rw [h.getTxRec hq hkeyq hactive] at hnone
  simp [hactive] at hnone

end FirstActive

section Step

variable {s t : Tx} {chip gpio : ℕ} {type : TxType}

/-- A call that may make an active record for a GPIO. -/
def TxAct.Starts (chip gpio : ℕ) : TxAct → Prop
  | .pulse c g _ _ _ _ => c = chip ∧ g = gpio
  | .wave c g _ => c = chip ∧ g = gpio
  | _ => False

lemma changed_pass (s : Tx) : Changed s.recs s.pass.recs := by
  rw [pass_eq, advance_recs]
  have helapse : Changed s.recs (s.recs.map (TxRec.elapse s.delayMicros)) :=
    changed_map (fun p => ⟨rfl, .refl p, fun h => h⟩)
  exact helapse.trans (changed_scan s.now true 20000 _)

lemma changed_modify (s : Tx) (p : TxRec) {f : TxRec → TxRec} (hf : ∀ q, Becomes (f q) q) :
    Changed s.recs (s.modifyTxRec p f).recs := by
  refine changed_map (fun q => ?_)
  split
  · exact hf q
  · exact ⟨rfl, .refl q, fun h => h⟩

lemma becomes_deactivate (p : TxRec) : Becomes { p with active := false } p :=
  ⟨rfl, .refl p, fun h => absurd h Bool.false_ne_true⟩

lemma changed_deactivate (s : Tx) (chip gpio : ℕ) (type : TxType) :
    Changed s.recs (s.deactivate chip gpio type).recs := by
  unfold Tx.deactivate
  split
  · exact changed_modify s _ becomes_deactivate
  · exact Changed.refl _

lemma becomes_entries {f : Entries → Entries} (hf : ∀ e, (f e).type = e.type) (p : TxRec) :
    Becomes { p with entries := f p.entries } p :=
  ⟨rfl, ⟨rfl, rfl, hf p.entries⟩, fun h => h⟩

lemma type_pushPwm (e : Pwm) (entries : Entries) : (entries.pushPwm e).type = entries.type := by
  cases entries <;> rfl

lemma type_pushWave (pulses : List Pulse) (entries : Entries) :
    (entries.pushWave pulses).type = entries.type := by
  cases entries <;> rfl

/-- A step changes records and removes some, or makes a record where no other one is active. -/
lemma step_records {a : TxAct} (hst : s.step a = some t) : Changed s.recs t.recs ∨
    ∃ p type, t.recs = p :: s.recs ∧ isTxRec p.chip p.gpio type p = true ∧
      (s.getTxRec p.chip p.gpio type).filter TxRec.active = none ∧ a.Starts p.chip p.gpio := by
  cases a with
  | pass =>
    left
    unfold Tx.step at hst
    dsimp only at hst
    split at hst
    · cases hst
      exact changed_pass s
    · cases hst
  | pulse chip gpio microsOn microsOff microsOffset cycles =>
    cases hst
    unfold Tx.pulse
    split
    · left
      split
      · split
        · exact changed_modify s _ (becomes_entries (type_pushPwm _))
        · exact Changed.refl _
      · exact changed_modify s _ becomes_deactivate
    · rename_i hnone
      split
      · exact Or.inr ⟨_, .pwm, rfl, by simp [isTxRec, Entries.type], hnone, rfl, rfl⟩
      · exact Or.inl (Changed.refl _)
  | wave chip gpio pulses =>
    cases hst
    unfold Tx.wave
    split
    · left
      split
      · exact changed_modify s _ (becomes_entries (type_pushWave _))
      · exact Changed.refl _
    · rename_i hnone
      exact Or.inr ⟨_, .wave, rfl, by simp [isTxRec, Entries.type], hnone, rfl, rfl⟩
  | free chip gpio =>
    cases hst
    exact Or.inl ((changed_deactivate s chip gpio .pwm).trans (changed_deactivate _ chip gpio .wave))
  | stop chip =>
    cases hst
    refine Or.inl (changed_map (fun q => ?_))
    split
    · exact becomes_deactivate q
    · exact ⟨rfl, .refl q, fun h => h⟩
  | setMinDelay cfgVal =>
    cases hst
    left
    split <;> exact Changed.refl _

lemma FirstActive.step (h : FirstActive s.recs) {a : TxAct} (hst : s.step a = some t) :
    FirstActive t.recs := by
  rcases step_records hst with hchanged | ⟨p, type, hrecs, hp, hnone, -⟩
  · exact h.changed hchanged
  · rw [hrecs]
    exact h.cons hnone hp

end Step

section Free

variable {s t u : Tx} {chip gpio : ℕ} {type : TxType} {sec nsec : ℤ} {as bs : List TxAct}

lemma run_firstActive (h : exec Tx.step (.start sec nsec) as = some s) : FirstActive s.recs := by
  refine Transition.invariant_of_exec (I := fun s : Tx => FirstActive s.recs) ?_ ?_ h
  · exact List.Pairwise.nil
  · intro _ u a v _ hu huv
    exact hu.step huv

/-- `lgTxBusy` says whether the GPIO transmits. -/
theorem run_lgTxBusy (h : exec Tx.step (.start sec nsec) as = some s) :
    s.lgTxBusy chip gpio type = true ↔ ∃ p ∈ s.recs, isTxRec chip gpio type p = true ∧ p.active = true := by
  unfold Tx.lgTxBusy
  constructor
  · intro hbusy
    obtain ⟨p, hp⟩ := Option.isSome_iff_exists.mp hbusy
    obtain ⟨hget, hactive⟩ := Option.filter_eq_some_iff.mp hp
    exact ⟨p, List.mem_of_find?_eq_some hget, List.find?_some hget, hactive⟩
  · rintro ⟨p, hp, hkey, hactive⟩
    rw [(run_firstActive h).getTxRec hp hkey hactive]
    simp [hactive]

/-- The GPIO has no active record. -/
def Idle (chip gpio : ℕ) (recs : List TxRec) : Prop :=
  ∀ p ∈ recs, p.chip = chip → p.gpio = gpio → p.active = false

lemma Idle.changed {recs recs' : List TxRec} (h : Idle chip gpio recs) (hc : Changed recs recs') :
    Idle chip gpio recs' := by
  intro q hq hchip hgpio
  obtain ⟨p, hp, -, ⟨hpc, hpg, -⟩, hactive⟩ := hc.exists hq
  have hidle := h p hp (hpc ▸ hchip) (hpg ▸ hgpio)
  by_contra hne
  rw [hactive (Bool.of_not_eq_false hne)] at hidle
  cases hidle

lemma deactivate_idle (h : FirstActive s.recs) : ∀ q ∈ (s.deactivate chip gpio type).recs,
    isTxRec chip gpio type q = true → q.active = false := by
  intro q hq hkey
  by_contra hne
  have hactive := Bool.of_not_eq_false hne
  obtain ⟨p, hp, hid, hsame, hbefore⟩ := (changed_deactivate s chip gpio type).exists hq
  have hkeyp : isTxRec chip gpio type p = true := by
    unfold isTxRec at hkey ⊢
    rwa [hsame.1, hsame.2.1, hsame.2.2] at hkey
  have hget := h.getTxRec hp hkeyp (hbefore hactive)
  unfold Tx.deactivate at hq
  rw [hget] at hq
  obtain ⟨r, -, rfl⟩ := List.mem_map.mp hq
  split at hactive
  · cases hactive
  · rename_i hrp
    rw [if_neg hrp] at hid
    exact hrp hid

lemma free_idle (h : FirstActive s.recs) : Idle chip gpio (s.free chip gpio).recs := by
  intro q hq hchip hgpio
  have hfirst : FirstActive (s.deactivate chip gpio .pwm).recs := h.changed (changed_deactivate s chip gpio .pwm)
  cases htype : q.entries.type with
  | wave => exact deactivate_idle hfirst q hq (by simp [isTxRec, hchip, hgpio, htype])
  | pwm =>
    obtain ⟨p, hp, -, ⟨hpc, hpg, hpt⟩, hactive⟩ :=
      (changed_deactivate (s.deactivate chip gpio .pwm) chip gpio .wave).exists hq
    have hidle := deactivate_idle h p hp
      (by simp [isTxRec, ← hpc, ← hpg, ← hpt, hchip, hgpio, htype])
    by_contra hne
    rw [hactive (Bool.of_not_eq_false hne)] at hidle
    cases hidle

/-- What is written to a GPIO. -/
def writesTo (chip gpio : ℕ) (log : List TxEvent) : List TxEvent :=
  log.filter (fun e => e.out.chip = chip ∧ e.out.gpio = gpio)

lemma scan_writes (now : ℤ) (first : Bool) (delayMicros : ℤ) (recs : List TxRec) :
    ∀ e ∈ (scan now first delayMicros recs).2.2,
      ∃ p ∈ recs, p.active = true ∧ e.out.chip = p.chip ∧ e.out.gpio = p.gpio := by
  induction recs generalizing first delayMicros with
  | nil => simp [scan]
  | cons p rest ih =>
    intro e he
    by_cases hactive : p.active = true
    · obtain ⟨least, -, hscan⟩ := scan_active now first delayMicros rest hactive
      rw [hscan] at he
      rcases List.mem_append.mp he with he | he
      · refine ⟨p, List.mem_cons_self, hactive, ?_⟩
        unfold TxRec.output at he
        split at he
        · obtain ⟨out, -, rfl⟩ := List.mem_map.mp he
          exact ⟨rfl, rfl⟩
        · cases he
      · obtain ⟨q, hq, hrest⟩ := ih false least e he
        exact ⟨q, List.mem_cons_of_mem _ hq, hrest⟩
    · rw [scan, if_neg hactive] at he
      split at he
      · cases he
      · obtain ⟨q, hq, hrest⟩ := ih false delayMicros e he
        exact ⟨q, List.mem_cons_of_mem _ hq, hrest⟩

lemma log_deactivate (s : Tx) (chip gpio : ℕ) (type : TxType) :
    (s.deactivate chip gpio type).log = s.log := by
  unfold Tx.deactivate
  split <;> rfl

lemma log_free (s : Tx) (chip gpio : ℕ) : (s.free chip gpio).log = s.log := by
  unfold Tx.free
  rw [log_deactivate, log_deactivate]

/-- A GPIO without an active record is not written to, and stays without one. -/
lemma idle_step {a : TxAct} (h : Idle chip gpio s.recs) (ha : ¬ a.Starts chip gpio) (hst : s.step a = some t) :
    Idle chip gpio t.recs ∧ writesTo chip gpio t.log = writesTo chip gpio s.log := by
  refine ⟨?_, ?_⟩
  · rcases step_records hst with hchanged | ⟨p, type, hrecs, hp, -, hstarts⟩
    · exact h.changed hchanged
    · rw [hrecs]
      intro q hq hchip hgpio
      rcases List.mem_cons.mp hq with rfl | hq
      · exact absurd (hchip ▸ hgpio ▸ hstarts) ha
      · exact h q hq hchip hgpio
  · cases a with
    | pass =>
      unfold Tx.step at hst
      dsimp only at hst
      split at hst
      · cases hst
        rw [pass_eq, advance_log]
        have hnone : writesTo chip gpio s.scanned.2.2 = [] := by
          refine List.filter_eq_nil_iff.mpr ?_
          intro e he
          obtain ⟨p, hp, hactive, hchip, hgpio⟩ := scan_writes _ _ _ _ e he
          obtain ⟨q, hq, rfl⟩ := List.mem_map.mp hp
          simp only [decide_eq_true_eq]
          rintro ⟨hc, hg⟩
          have hidle := h q hq (hchip.symm.trans hc) (hgpio.symm.trans hg)
          exact absurd (hactive.symm.trans hidle) (by decide)
        show writesTo chip gpio (s.log ++ s.scanned.2.2) = _
        unfold writesTo at hnone ⊢
        rw [List.filter_append, hnone, List.append_nil]
      · cases hst
    | pulse =>
      cases hst
      unfold Tx.pulse
      split
      · split
        · split <;> rfl
        · rfl
      · split <;> rfl
    | wave =>
      cases hst
      unfold Tx.wave
      split
      · split <;> rfl
      · rfl
    | free =>
      cases hst
      rw [log_free]
    | stop =>
      cases hst
      rfl
    | setMinDelay =>
      cases hst
      split <;> rfl

/-- After `xSetAsFree` nothing is written to the GPIO, whatever the thread and the other calls do,
until a call starts to transmit on it again. -/
theorem run_free (h : exec Tx.step (.start sec nsec) as = some s) (hbs : ∀ a ∈ bs, ¬ a.Starts chip gpio)
    (hu : exec Tx.step (s.free chip gpio) bs = some u) :
    writesTo chip gpio u.log = writesTo chip gpio s.log ∧ Idle chip gpio u.recs := by
  have hidle : Idle chip gpio (s.free chip gpio).recs := free_idle (run_firstActive h)
  have hlog : writesTo chip gpio (s.free chip gpio).log = writesTo chip gpio s.log := by rw [log_free]
  generalize s.free chip gpio = t at hu hidle hlog
  induction bs generalizing t with
  | nil =>
    cases hu
    exact ⟨hlog, hidle⟩
  | cons a bs ih =>
    obtain ⟨v, hv, hu⟩ := Option.bind_eq_some_iff.mp hu
    obtain ⟨hidle', hlog'⟩ := idle_step hidle (hbs a List.mem_cons_self) hv
    exact ih (fun b hb => hbs b (List.mem_cons_of_mem _ hb)) v hu hidle' (hlog'.trans hlog)

theorem run_free_oneWave : ∃ s u, exec Tx.step (.start 0 0) oneWave = some s ∧
    exec Tx.step (s.free 0 1) [.pass, .wave 0 2 [⟨1, 1, 10⟩], .pass] = some u ∧
    writesTo 0 1 u.log = writesTo 0 1 s.log ∧ Idle 0 1 u.recs := by
  obtain ⟨s, hs⟩ := Option.isSome_iff_exists.mp
    (show (exec Tx.step (.start 0 0) oneWave).isSome by decide +kernel)
  have hrun : ((exec Tx.step (.start 0 0) oneWave).bind
      (fun s => exec Tx.step (s.free 0 1) [.pass, .wave 0 2 [⟨1, 1, 10⟩], .pass])).isSome := by decide +kernel
  rw [hs] at hrun
  obtain ⟨u, hu⟩ := Option.isSome_iff_exists.mp hrun
  exact ⟨s, u, hs, hu, run_free hs (by simp [TxAct.Starts]) hu⟩

end Free

end Lg
