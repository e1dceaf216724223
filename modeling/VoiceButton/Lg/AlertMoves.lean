import Mathlib.Data.List.Nodup
import VoiceButton.Lg.Alerts

/-!
# What a step does to the records

Whatever the thread and the callers do, the list of the records changes in four ways: a call for one
record, the deletion of records, `active = 0`, and a new first record.
-/

namespace Lg

open MachineInt (int64 uint64)
open Transition (exec)

section Scan

variable (recs : List AlertRec)

lemma scanAlerts_false : scanAlerts false recs =
    (recs.filter (·.active), (recs.filter (·.active)).map (·.id)) := by
  induction recs with
  | nil => rfl
  | cons p rest ih =>
    unfold scanAlerts
    by_cases hactive : p.active = true
    · simp [hactive, ih]
    · simp [hactive, ih]

/-- The loop keeps and lists the active records, but it only deletes the first one if that is not
active. -/
lemma scanAlerts_true : (scanAlerts true recs = scanAlerts false recs ∧ ∀ p, recs.head? = some p → p.active = true) ∨
    ∃ p rest, recs = p :: rest ∧ p.active = false ∧ scanAlerts true recs = (rest, []) := by
  cases recs with
  | nil => exact Or.inl ⟨rfl, fun p hp => by cases hp⟩
  | cons p rest =>
    cases hactive : p.active with
    | true =>
      refine Or.inl ⟨?_, ?_⟩
      · simp [scanAlerts, hactive]
      · intro q hq
        rw [List.head?_cons, Option.some.injEq] at hq
        exact hq ▸ hactive
    | false => exact Or.inr ⟨p, rest, rfl, hactive, by simp [scanAlerts, hactive]⟩

lemma scanAlerts_sublist : (scanAlerts true recs).1.Sublist recs := by
  rcases scanAlerts_true recs with ⟨h, -⟩ | ⟨p, rest, rfl, -, h⟩
  · rw [h, scanAlerts_false]
    exact List.filter_sublist
  · rw [h]
    exact List.sublist_cons_self p rest

end Scan

namespace Alerts

variable {qsort : Qsort} {s t : Alerts} {id : ℕ} {c : AlertCall}

lemma exists_of_call (h : s.call id c = some t) : ∃ p ∈ s.recs, p.id = id ∧ t = s.called p c := by
  obtain ⟨p, hp, rfl⟩ := Option.map_eq_some_iff.mp h
  exact ⟨p, List.mem_of_find?_eq_some hp, by simpa using List.find?_some hp, rfl⟩

lemma call_isSome (h : ∃ p ∈ s.recs, p.id = id) : (s.call id c).isSome := by
  obtain ⟨p, hp, hid⟩ := h
  rw [call, Option.isSome_map, List.find?_isSome]
  exact ⟨p, hp, by simpa using hid⟩

/-- The parts that only a call changes, and the records. -/
structure Agrees (s t : Alerts) : Prop where
  recs : t.recs = s.recs
  made : t.made = s.made
  calls : t.calls = s.calls
  reports : t.reports = s.reports
  dropped : t.dropped = s.dropped

lemma agrees_latest (s : Alerts) (events : List LineEvent) (nowLT : ℤ) : Agrees s (s.latest events nowLT) := by
  unfold latest
  split
  · split <;> exact ⟨rfl, rfl, rfl, rfl, rfl⟩
  · exact ⟨rfl, rfl, rfl, rfl, rfl⟩

/-- What a step is. -/
inductive Stepped (qsort : Qsort) (s : Alerts) : AlertAct → Alerts → Prop
  | scan (hpoint : s.point = .scan) (hlen : (scanAlerts true s.recs).2.length ≤ 64) :
    Stepped qsort s .scan { s with
      recs := (scanAlerts true s.recs).1
      point := if (scanAlerts true s.recs).2 = [] then .empty else .poll (scanAlerts true s.recs).2 }
  | ppoll {polled : List ℕ} (nowLT : ℤ) (hpoint : s.point = .poll polled) :
    Stepped qsort s (.ppoll nowLT) { s with point := .read polled polled nowLT }
  | read {polled : List ℕ} {id : ℕ} {todo : List ℕ} {nowLT : ℤ} {u : Alerts} (events : List LineEvent)
    (hpoint : s.point = .read polled (id :: todo) nowLT)
    (hu : exec (fun s c => s.call id c) s (readCalls events) = some u) :
    Stepped qsort s (.read events)
      { u.latest events nowLT with point := (u.latest events nowLT).afterRead polled todo nowLT }
  | time {id : ℕ} {todo : List ℕ} {nowGT : ℤ} {u : Alerts} (hpoint : s.point = .time (id :: todo) nowGT)
    (hu : s.call id (.poll (uint64 (nowGT - 50000))) = some u) :
    Stepped qsort s .time { u with point := afterTime todo nowGT }
  | emit {nowGT : ℤ} (hpoint : s.point = .emit nowGT) :
    Stepped qsort s .emit { (s.sorted qsort).emits (uint64 (nowGT - 500000)) with point := .scan }
  | sleep (hpoint : s.point = .empty) :
    Stepped qsort s .sleep { s.emits (uint64 (-1)) with aBuf := [], lastGT := 0, point := .wait }
  | wake (hpoint : s.point = .wait) : Stepped qsort s .wake { s with point := .scan }
  | create (chip : Chip) (gpio : ℕ) (state : LineInf) (nfyHandle lastRptTs lastEvtTs lastEvtLv : ℤ) :
    Stepped qsort s (.create chip gpio state nfyHandle lastRptTs lastEvtTs lastEvtLv)
      (s.create chip gpio state nfyHandle lastRptTs lastEvtTs lastEvtLv)
  | free (chip : Chip) (gpio : ℕ) : Stepped qsort s (.free chip gpio) (s.free chip gpio)
  | stop (handle : ℕ) : Stepped qsort s (.stop handle)
      { s.deactivate (fun p => p.chip.handle = handle) with signals := s.signals + 1 }
  | signal (hsignals : s.signals > 0) : Stepped qsort s .signal
      { s with signals := s.signals - 1, point := if s.point = .wait then .scan else s.point }
  | setDebounce {t : Alerts} (chip : Chip) (gpio : ℕ) (us : ℤ)
    (ht : s.setMicros chip gpio us 5000000 (.setDebounce us) = some t) :
    Stepped qsort s (.setDebounce chip gpio us) t
  | setWatchdog {t : Alerts} (chip : Chip) (gpio : ℕ) (us : ℤ)
    (ht : s.setMicros chip gpio us 300000000 (.setWatchdog us) = some t) :
    Stepped qsort s (.setWatchdog chip gpio us) t

lemma stepped_of_step {a : AlertAct} (h : s.step qsort a = some t) : Stepped qsort s a t := by
  cases a with
  | scan =>
    simp only [step] at h
    split at h
    · rename_i hpoint
      split at h
      · rename_i hlen
        exact Option.some.inj h ▸ .scan hpoint hlen
      · cases h
    · cases h
  | ppoll nowLT =>
    simp only [step] at h
    split at h
    · rename_i polled hpoint
      exact Option.some.inj h ▸ .ppoll nowLT hpoint
    · cases h
  | read events =>
    simp only [step] at h
    split at h
    · rename_i polled id todo nowLT hpoint
      obtain ⟨u, hu, hut⟩ := Option.bind_eq_some_iff.mp h
      exact Option.some.inj hut ▸ .read events hpoint hu
    · cases h
  | time =>
    simp only [step] at h
    split at h
    · rename_i id todo nowGT hpoint
      obtain ⟨u, hu, hut⟩ := Option.bind_eq_some_iff.mp h
      exact Option.some.inj hut ▸ .time hpoint hu
    · cases h
  | emit =>
    simp only [step] at h
    split at h
    · rename_i nowGT hpoint
      exact Option.some.inj h ▸ .emit hpoint
    · cases h
  | sleep =>
    simp only [step] at h
    split at h
    · rename_i hpoint
      exact Option.some.inj h ▸ .sleep hpoint
    · cases h
  | wake =>
    simp only [step] at h
    split at h
    · rename_i hpoint
      exact Option.some.inj h ▸ .wake hpoint
    · cases h
  | create chip gpio state nfyHandle lastRptTs lastEvtTs lastEvtLv => exact Option.some.inj h ▸ .create ..
  | free chip gpio => exact Option.some.inj h ▸ .free chip gpio
  | stop handle => exact Option.some.inj h ▸ .stop handle
  | signal =>
    simp only [step] at h
    split at h
    · rename_i hsignals
      exact Option.some.inj h ▸ .signal hsignals
    · cases h
  | setDebounce chip gpio us => exact .setDebounce chip gpio us h
  | setWatchdog chip gpio us => exact .setWatchdog chip gpio us h

/-- New times are a call for a record, or nothing. -/
lemma setMicros_eq_some {chip : Chip} {gpio : ℕ} {us max : ℤ}
    (h : s.setMicros chip gpio us max c = some t) :
    t = s ∨ (0 ≤ us ∧ us ≤ max) ∧ ∃ p ∈ s.recs, t = s.called p c := by
  unfold setMicros at h
  split at h
  · exact Or.inl (Option.some.inj h).symm
  · rename_i hus
    split at h
    · obtain ⟨p, hp, -, ht⟩ := exists_of_call h
      exact Or.inr ⟨by omega, p, hp, ht⟩
    · exact Or.inl (Option.some.inj h).symm

lemma free_cases (s : Alerts) (chip : Chip) (gpio : ℕ) :
    s.free chip gpio = s ∨ ∃ inactive, s.free chip gpio = s.deactivate inactive := by
  unfold free
  split
  · exact Or.inr ⟨_, rfl⟩
  · exact Or.inl rfl

/-- A property of the records and their calls holds after a step if the four changes keep it. -/
theorem record_induction {I : Alerts → Prop} {a : AlertAct}
    (hagrees : ∀ {s t}, I s → Agrees s t → I t)
    (hcalled : ∀ {s p c}, p ∈ s.recs → I s → I (s.called p c))
    (hscan : ∀ {s recs}, recs.Sublist s.recs → I s → I { s with recs := recs })
    (hdeactivate : ∀ {s} inactive, I s → I (s.deactivate inactive))
    (hcreate : ∀ {s} chip gpio state nfyHandle lastRptTs lastEvtTs lastEvtLv, I s →
      I (s.create chip gpio state nfyHandle lastRptTs lastEvtTs lastEvtLv))
    (hst : s.step qsort a = some t) (hs : I s) : I t := by
  have hcall : ∀ {s t id c}, I s → s.call id c = some t → I t := by
    intro s t id c hs h
    obtain ⟨p, hp, -, rfl⟩ := exists_of_call h
    exact hcalled hp hs
  have hset : ∀ {t chip gpio us max c}, s.setMicros chip gpio us max c = some t → I t := by
    intro t chip gpio us max c h
    rcases setMicros_eq_some h with rfl | ⟨-, p, hp, rfl⟩
    · exact hs
    · exact hcalled hp hs
  cases stepped_of_step hst with
  | scan => exact hagrees (hscan (scanAlerts_sublist s.recs) hs) ⟨rfl, rfl, rfl, rfl, rfl⟩
  | @read polled id todo nowLT u events hpoint hu =>
    have hI : I u := Transition.invariant_of_exec hs (fun _ _ _ _ _ hI h => hcall hI h) hu
    exact hagrees (hagrees hI (agrees_latest u events nowLT)) ⟨rfl, rfl, rfl, rfl, rfl⟩
  | time hpoint hu => exact hagrees (hcall hs hu) ⟨rfl, rfl, rfl, rfl, rfl⟩
  | create => exact hcreate _ _ _ _ _ _ _ hs
  | free chip gpio =>
    rcases free_cases s chip gpio with h | ⟨inactive, h⟩
    · rwa [h]
    · rw [h]
      exact hdeactivate inactive hs
  | stop handle => exact hagrees (hdeactivate _ hs) ⟨rfl, rfl, rfl, rfl, rfl⟩
  | setDebounce chip gpio us ht => exact hset ht
  | setWatchdog chip gpio us ht => exact hset ht
  | _ => exact hagrees hs ⟨rfl, rfl, rfl, rfl, rfl⟩

end Alerts

section Called

variable {p : AlertRec} {ts : ℤ} {count : ℕ}

namespace AlertRec

/-- A stable edge is to be reported. -/
def EdgeDue (p : AlertRec) (ts : ℤ) : Prop :=
  p.debounceNanos ≠ 0 ∧ p.debounced = false ∧ int64 (ts - p.lastEvtTs) > p.debounceNanos ∧ p.Differs

/-- A watchdog report is due. -/
def TimeoutDue (p : AlertRec) (ts : ℤ) : Prop :=
  p.watchdogNanos ≠ 0 ∧ p.watchdogd = false ∧ int64 (ts - p.lastRptTs) > p.watchdogNanos

lemma put_cases (p q : AlertRec) (count : ℕ) (a : Alert) :
    p.put q count a = ⟨q, [a], 0⟩ ∨ p.put q count a = ⟨p, [], 1⟩ := by
  unfold put
  split
  · exact Or.inl rfl
  · exact Or.inr rfl

lemma debounce_cases (p : AlertRec) (ts : ℤ) (count : ℕ) :
    (p.EdgeDue ts ∧ p.debounce ts count = ⟨p.edgeReported, [p.alert p.debounceEnd p.lastEvtLv], 0⟩) ∨
    (p.EdgeDue ts ∧ p.debounce ts count = ⟨p, [], 1⟩) ∨
    (¬ p.EdgeDue ts ∧ p.debounce ts count = ⟨p, [], 0⟩) := by
  unfold debounce EdgeDue
  split
  · split
    · split
      · have := put_cases p p.edgeReported count (p.alert p.debounceEnd p.lastEvtLv)
        tauto
      · tauto
    · tauto
  · tauto

lemma watchdog_cases (p : AlertRec) (ts : ℤ) (count : ℕ) :
    (p.TimeoutDue ts ∧ p.watchdog ts count = ⟨p.timeoutReported, [p.alert p.watchdogEnd timeout], 0⟩) ∨
    (p.TimeoutDue ts ∧ p.watchdog ts count = ⟨p, [], 1⟩) ∨
    (¬ p.TimeoutDue ts ∧ p.watchdog ts count = ⟨p, [], 0⟩) := by
  unfold watchdog TimeoutDue
  split
  · split
    · have := put_cases p p.timeoutReported count (p.alert p.watchdogEnd timeout)
      tauto
    · tauto
  · tauto

lemma event_cases (p : AlertRec) (ts : ℤ) (ep : EdgeId) (count : ℕ) :
    (p.debounceNanos = 0 ∧
      p.event ts ep count = ⟨(p.gotEvent ts ep).eventReported, [p.alert ts ep.level], 0⟩) ∨
    (p.debounceNanos = 0 ∧ p.event ts ep count = ⟨p.gotEvent ts ep, [], 1⟩) ∨
    (p.debounceNanos ≠ 0 ∧ p.event ts ep count = ⟨p.gotEvent ts ep, [], 0⟩) := by
  unfold event
  dsimp only
  split
  · have := put_cases (p.gotEvent ts ep) (p.gotEvent ts ep).eventReported count (p.alert ts ep.level)
    tauto
  · tauto

/-- What no call changes. -/
structure Same (p q : AlertRec) : Prop where
  id : q.id = p.id
  eFlags : q.eFlags = p.eFlags
  active : q.active = p.active

lemma Same.trans {q r : AlertRec} (h : Same p q) (h' : Same q r) : Same p r :=
  ⟨h'.id.trans h.id, h'.eFlags.trans h.eFlags, h'.active.trans h.active⟩

lemma same_debounce (p : AlertRec) (ts : ℤ) (count : ℕ) : Same p (p.debounce ts count).after := by
  rcases debounce_cases p ts count with ⟨-, h⟩ | ⟨-, h⟩ | ⟨-, h⟩ <;> rw [h] <;> exact ⟨rfl, rfl, rfl⟩

lemma same_watchdog (p : AlertRec) (ts : ℤ) (count : ℕ) : Same p (p.watchdog ts count).after := by
  rcases watchdog_cases p ts count with ⟨-, h⟩ | ⟨-, h⟩ | ⟨-, h⟩ <;> rw [h] <;> exact ⟨rfl, rfl, rfl⟩

lemma same_event (p : AlertRec) (ts : ℤ) (ep : EdgeId) (count : ℕ) : Same p (p.event ts ep count).after := by
  rcases event_cases p ts ep count with ⟨-, h⟩ | ⟨-, h⟩ | ⟨-, h⟩ <;> rw [h] <;> exact ⟨rfl, rfl, rfl⟩

lemma same_call (p : AlertRec) (count : ℕ) (c : AlertCall) : Same p (p.call count c).after := by
  cases c with
  | event ts ep => exact (same_debounce _ _ _).trans ((same_watchdog _ _ _).trans (same_event _ _ _ _))
  | poll ts => exact (same_debounce _ _ _).trans (same_watchdog _ _ _)
  | _ => exact ⟨rfl, rfl, rfl⟩

end AlertRec

end Called

section Distinct

variable {qsort : Qsort} {s t : Alerts}

/-- The ids of the records are those of different made records. -/
structure Distinct (s : Alerts) : Prop where
  nodup : (s.recs.map AlertRec.id).Nodup
  made : ∀ p ∈ s.recs, p.id < s.made.length

lemma Alerts.map_id_called (s : Alerts) (p : AlertRec) (c : AlertCall) :
    (s.called p c).recs.map AlertRec.id = s.recs.map AlertRec.id := by
  show (s.recs.map _).map _ = _
  rw [List.map_map]
  apply List.map_congr_left
  intro q hq
  show (if q.id = p.id then (p.call s.aBuf.length c).after else q).id = q.id
  split
  · rename_i hid
    rw [(AlertRec.same_call p s.aBuf.length c).id, hid]
  · rfl

lemma Alerts.map_id_deactivate (s : Alerts) (inactive : AlertRec → Bool) :
    (s.deactivate inactive).recs.map AlertRec.id = s.recs.map AlertRec.id := by
  show (s.recs.map _).map _ = _
  rw [List.map_map]
  rfl

lemma distinct_of_map (h : Distinct s) (hids : t.recs.map AlertRec.id = s.recs.map AlertRec.id)
    (hmade : t.made = s.made) : Distinct t := by
  refine ⟨hids ▸ h.nodup, ?_⟩
  intro p hp
  have hid : p.id ∈ s.recs.map AlertRec.id := hids ▸ List.mem_map_of_mem hp
  obtain ⟨q, hq, heq⟩ := List.mem_map.mp hid
  rw [hmade, ← heq]
  exact h.made q hq

lemma Distinct.create (h : Distinct s) (chip : Chip) (gpio : ℕ) (state : LineInf)
    (nfyHandle lastRptTs lastEvtTs lastEvtLv : ℤ) :
    Distinct (s.create chip gpio state nfyHandle lastRptTs lastEvtTs lastEvtLv) := by
  have hmade : (s.create chip gpio state nfyHandle lastRptTs lastEvtTs lastEvtLv).made.length = s.made.length + 1 :=
    List.length_append
  constructor
  · refine List.nodup_cons.mpr ⟨?_, h.nodup⟩
    intro hmem
    obtain ⟨p, hp, hid⟩ := List.mem_map.mp hmem
    have := h.made p hp
    rw [hid] at this
    exact Nat.lt_irrefl _ this
  · intro p hp
    rw [hmade]
    rcases List.mem_cons.mp hp with rfl | hp
    · exact Nat.lt_succ_self _
    · exact Nat.lt_succ_of_lt (h.made p hp)

lemma Distinct.step {a : AlertAct} (h : Distinct s) (hst : s.step qsort a = some t) : Distinct t := by
  refine Alerts.record_induction ?_ ?_ ?_ ?_ ?_ hst h
  · exact fun h hagrees => distinct_of_map h (by rw [hagrees.recs]) hagrees.made
  · exact fun _ h => distinct_of_map h (Alerts.map_id_called _ _ _) rfl
  · intro s recs hsub h
    exact ⟨h.nodup.sublist (hsub.map _), fun p hp => h.made p (hsub.subset hp)⟩
  · exact fun inactive h => distinct_of_map h (Alerts.map_id_deactivate _ inactive) rfl
  · exact fun _ _ _ _ _ _ _ h => h.create _ _ _ _ _ _ _

lemma Distinct.eq_of_id {p q : AlertRec} (h : Distinct s) (hp : p ∈ s.recs) (hq : q ∈ s.recs) (hid : p.id = q.id) :
    p = q :=
  List.inj_on_of_nodup_map h.nodup hp hq hid

lemma run_distinct {as : List AlertAct} (h : exec (Alerts.step qsort) Alerts.start as = some s) : Distinct s := by
  have hstart : Distinct Alerts.start := ⟨List.nodup_nil, fun p hp => by cases hp⟩
  exact Transition.invariant_of_exec hstart (fun _ _ _ _ _ hu huv => hu.step huv) h

end Distinct

end Lg
