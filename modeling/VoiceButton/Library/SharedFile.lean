import VoiceButton.Library.Table

/-!
# A file that several processes write

Each process opens and truncates the file at some time after it was spawned, appends to
it, and exits at some time after it was signalled. The processes know nothing of each
other, and all of them write the same file. `Sole` is the situation in which the content
can be attributed to one process: every other one has exited.
-/

namespace SharedFile

/-- A writing process. `recording` is all that it has appended since it opened the file. -/
structure Writer (β : Type*) where
  tag : ℕ
  recording : Option (List β)
  signalled : Bool
  exited : Bool
  deriving DecidableEq

inductive Act (β : Type*)
  | openFile
  | append (bs : List β)
  | exit
  deriving DecidableEq

/-- The content of the file, if it exists, and the processes that were spawned to write it. -/
structure Disk (β : Type*) where
  content : Option (List β)
  writers : List (Writer β)
  deriving DecidableEq

variable {β : Type*}

def Writer.step (w : Writer β) : Act β → Option (Writer β)
  | .openFile => if w.exited || w.recording.isSome then none else some { w with recording := some [] }
  | .append bs =>
    if w.exited then none
    else w.recording.map (fun old => { w with recording := some (old ++ bs) })
  | .exit => if w.signalled && !w.exited then some { w with exited := true } else none

/-- What an action of a process does to the content. -/
def effect (content : Option (List β)) : Act β → Option (List β)
  | .openFile => some []
  | .append bs => content.map (fun old => old ++ bs)
  | .exit => content

def Disk.act (d : Disk β) (p : ℕ) (a : Act β) : Option (Disk β) := do
  let w ← d.writers[p]?
  let w' ← w.step a
  some ⟨effect d.content a, d.writers.modify p (fun _ => w')⟩

def Disk.spawn (d : Disk β) (tag : ℕ) : Disk β :=
  { d with writers := d.writers ++ [⟨tag, none, false, false⟩] }

def Disk.signal (d : Disk β) (p : ℕ) : Disk β :=
  { d with writers := d.writers.modify p (fun w => { w with signalled := true }) }

lemma act_eq_some {d d' : Disk β} {p : ℕ} {a : Act β} (h : d.act p a = some d') :
    ∃ w w', d.writers[p]? = some w ∧ w.step a = some w' ∧
      d' = ⟨effect d.content a, d.writers.modify p (fun _ => w')⟩ := by
  simp only [Disk.act, bind, Option.bind_eq_some_iff, Option.some.injEq] at h
  obtain ⟨w, hw, w', hw', hd⟩ := h
  exact ⟨w, w', hw, hw', hd.symm⟩

/-- A process that has exited acts no more. -/
lemma Writer.not_exited_of_step {w w' : Writer β} {a : Act β} (h : w.step a = some w') :
    w.exited = false := by
  cases a <;> simp only [Writer.step] at h <;> cases hexited : w.exited <;> simp [hexited] at h ⊢

/-- What a step changes in the process that takes it. -/
lemma Writer.step_eq_some {w w' : Writer β} {a : Act β} (h : w.step a = some w') :
    w'.tag = w.tag ∧ w'.signalled = w.signalled ∧
      (w'.exited = true ↔ w.exited = true ∨ a = .exit) ∧
      (w'.recording.isSome = true ↔ w.recording.isSome = true ∨ a = .openFile) := by
  cases a with
  | openFile =>
    simp only [Writer.step] at h
    split at h
    · cases h
    · cases h
      simp
  | append bs =>
    simp only [Writer.step] at h
    split at h
    · cases h
    · obtain ⟨old, hold, rfl⟩ := Option.map_eq_some_iff.mp h
      simp [hold]
  | exit =>
    simp only [Writer.step] at h
    split at h
    · cases h
      simp
    · cases h

/-- If the process records, its step keeps its recording and the content equal. -/
lemma Writer.step_recording {w w' : Writer β} {a : Act β} {content : Option (List β)} {bs : List β}
    (h : w.step a = some w') (hsole : ∀ old, w.recording = some old → content = some old)
    (hbs : w'.recording = some bs) : effect content a = some bs := by
  cases a with
  | openFile =>
    simp only [Writer.step] at h
    split at h
    · cases h
    · cases h
      exact hbs
  | append cs =>
    simp only [Writer.step] at h
    split at h
    · cases h
    · obtain ⟨old, hold, rfl⟩ := Option.map_eq_some_iff.mp h
      simpa [effect, hsole old hold] using hbs
  | exit =>
    simp only [Writer.step] at h
    split at h
    · cases h
      exact hsole bs hbs
    · cases h

section Writers

variable {d d' : Disk β} {p q : ℕ} {v w : Writer β} {a : Act β}

def Disk.tags (d : Disk β) : List ℕ := d.writers.map Writer.tag

lemma mem_tags (hw : d.writers[p]? = some w) : w.tag ∈ d.tags :=
  List.mem_map_of_mem (List.mem_of_getElem? hw)

/-- Tags that do not repeat identify the processes. -/
lemma eq_of_tag_eq (h : d.tags.Nodup) (hv : d.writers[p]? = some v) (hw : d.writers[q]? = some w)
    (htag : v.tag = w.tag) : p = q := by
  have hp : p < d.tags.length := by
    rw [Disk.tags, List.length_map]
    exact (List.getElem?_eq_some_iff.mp hv).1
  refine (List.getElem?_inj hp h).mp ?_
  simp [Disk.tags, hv, hw, htag]

@[simp] lemma tags_spawn (d : Disk β) (tag : ℕ) : (d.spawn tag).tags = d.tags ++ [tag] := by
  simp [Disk.tags, Disk.spawn]

@[simp] lemma tags_signal (d : Disk β) (p : ℕ) : (d.signal p).tags = d.tags :=
  Table.map_modify_of_eq (fun _ _ => rfl)

lemma tags_act (h : d.act p a = some d') : d'.tags = d.tags := by
  obtain ⟨w, w', hw, hstep, rfl⟩ := act_eq_some h
  refine Table.map_modify_of_eq ?_
  intro u hu
  have huw : u = w := Option.mem_unique hu hw
  rw [huw, (Writer.step_eq_some hstep).1]

/-- What an action changes in any of the processes. -/
lemma writer_of_act (h : d.act p a = some d') (hw : d'.writers[q]? = some w) :
    ∃ v, d.writers[q]? = some v ∧ w.tag = v.tag ∧ w.signalled = v.signalled ∧
      (w.exited = true ↔ v.exited = true ∨ p = q ∧ a = .exit) ∧
      (w.recording.isSome = true ↔ v.recording.isSome = true ∨ p = q ∧ a = .openFile) := by
  obtain ⟨u, u', hu, hstep, rfl⟩ := act_eq_some h
  obtain ⟨v, hv, rfl⟩ := Table.getElem?_modify_eq_some.mp hw
  refine ⟨v, hv, ?_⟩
  by_cases hpq : p = q
  · subst hpq
    have huv : u = v := Option.mem_unique hu hv
    subst huv
    simpa using Writer.step_eq_some hstep
  · simp [hpq]

lemma writer_of_signal (hw : (d.signal p).writers[q]? = some w) :
    ∃ v, d.writers[q]? = some v ∧ w.tag = v.tag ∧ w.recording = v.recording ∧
      w.exited = v.exited ∧ (w.signalled = true ↔ v.signalled = true ∨ p = q) := by
  obtain ⟨v, hv, rfl⟩ := Table.getElem?_modify_eq_some.mp hw
  refine ⟨v, hv, ?_⟩
  by_cases hpq : p = q <;> simp [hpq]

lemma writer_of_spawn {tag : ℕ} (hw : (d.spawn tag).writers[q]? = some w) :
    d.writers[q]? = some w ∨ q = d.writers.length ∧ w = ⟨tag, none, false, false⟩ :=
  Table.getElem?_concat_eq_some.mp hw

end Writers

/-- Only `p` can still write, and what it has recorded is the content of the file. -/
structure Sole (d : Disk β) (p : ℕ) : Prop where
  others : ∀ (q : ℕ) (w : Writer β), q ≠ p → d.writers[q]? = some w → w.exited = true
  content : ∀ (w : Writer β) (bs : List β), d.writers[p]? = some w → w.recording = some bs →
    d.content = some bs

/-- Process `p` has exited and left the recording `bs`. -/
def Finished (d : Disk β) (p tag : ℕ) (bs : List β) : Prop :=
  ∃ w : Writer β, d.writers[p]? = some w ∧ w.tag = tag ∧ w.recording = some bs ∧ w.exited = true

theorem act_sole {d d' : Disk β} {p q : ℕ} {a : Act β} (h : Sole d p) (hact : d.act q a = some d') :
    Sole d' p := by
  obtain ⟨w, w', hw, hstep, rfl⟩ := act_eq_some hact
  have hqp : q = p := by
    by_contra hne
    have hexited := h.others q w hne hw
    rw [Writer.not_exited_of_step hstep] at hexited
    cases hexited
  subst hqp
  constructor
  · intro r v hr hv
    obtain ⟨u, hu, rfl⟩ := Table.getElem?_modify_eq_some.mp hv
    simpa [Ne.symm hr] using h.others r u hr hu
  · intro v bs hv hbs
    rw [Table.getElem?_modify_self hw] at hv
    cases hv
    exact Writer.step_recording hstep (fun old hold => h.content w old hw hold) hbs

/-- A new process is alone on the file if all earlier ones have exited. -/
theorem spawn_sole {d : Disk β} (tag : ℕ)
    (h : ∀ (q : ℕ) (w : Writer β), d.writers[q]? = some w → w.exited = true) :
    Sole (d.spawn tag) d.writers.length := by
  constructor
  · intro q w hq hw
    rcases writer_of_spawn hw with hold | ⟨rfl, -⟩
    · exact h q w hold
    · exact absurd rfl hq
  · intro w bs hw hbs
    rw [Disk.spawn, List.getElem?_concat_length] at hw
    cases hw
    cases hbs

theorem signal_sole {d : Disk β} {p : ℕ} (q : ℕ) (h : Sole d p) : Sole (d.signal q) p := by
  constructor
  · intro r v hr hv
    obtain ⟨u, hu, -, -, hexited, -⟩ := writer_of_signal hv
    exact hexited.trans (h.others r u hr hu)
  · intro v bs hv hbs
    obtain ⟨u, hu, -, hrecording, -⟩ := writer_of_signal hv
    exact h.content u bs hu (hrecording.symm.trans hbs)

theorem act_finished {d d' : Disk β} {p q tag : ℕ} {a : Act β} {bs : List β}
    (h : Finished d p tag bs) (hact : d.act q a = some d') : Finished d' p tag bs := by
  obtain ⟨v, hv, htag, hbs, hexited⟩ := h
  obtain ⟨w, w', hw, hstep, rfl⟩ := act_eq_some hact
  have hqp : q ≠ p := by
    rintro rfl
    have hvw : v = w := Option.mem_unique hv hw
    subst hvw
    rw [Writer.not_exited_of_step hstep] at hexited
    cases hexited
  exact ⟨v, Table.getElem?_modify_eq_some.mpr ⟨v, hv, by simp [hqp]⟩, htag, hbs, hexited⟩

theorem spawn_finished {d : Disk β} {p tag : ℕ} {bs : List β} (tag' : ℕ)
    (h : Finished d p tag bs) : Finished (d.spawn tag') p tag bs := by
  obtain ⟨v, hv, hrest⟩ := h
  exact ⟨v, Table.getElem?_concat_of_eq_some hv, hrest⟩

theorem signal_finished {d : Disk β} {p tag : ℕ} {bs : List β} (q : ℕ)
    (h : Finished d p tag bs) : Finished (d.signal q) p tag bs := by
  obtain ⟨v, hv, htag, hbs, hexited⟩ := h
  refine ⟨_, Table.getElem?_modify_eq_some.mpr ⟨v, hv, rfl⟩, ?_⟩
  split <;> exact ⟨htag, hbs, hexited⟩

end SharedFile
