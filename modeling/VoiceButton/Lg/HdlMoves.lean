import VoiceButton.Lg.Hdl

/-!
# What the operations on handles do

`Registered` says that the slots and links of a table represent, for each type of object, the
list of the handles in use in the order in which they were allocated. Under it no operation
follows a wrong pointer, and every step of the threads is one of the moves of `HdlMove`: it
leaves the lists as they are, or it adds a handle to the end of one or takes a handle out.
-/

namespace Lg

open LinkedList (Ends Links Linked)
open Function (update)

/-- A header but for its links. -/
def Header.core (h : Header) : Header := { h with next := none, previous := none }

/-- The part of a header that stays as it is while the handle is in use. -/
def Header.kind (h : Header) : Header := { h with next := none, previous := none, share := 0 }

/-- What `lgHdlAlloc` puts into the header of the object `obj`. -/
def Header.new (ctx : LgCtx) (obj : ℕ) (type : HdlType) (destructor : Bool) : Header where
  user := ctx.user
  obj := obj
  type := type
  next := none
  previous := none
  magic := type.magic
  destructor := destructor
  owner := ctx.owner
  share := ctx.autoSetShare

@[simp] lemma Header.new_type (ctx : LgCtx) (obj : ℕ) (type : HdlType) (destructor : Bool) :
    (Header.new ctx obj type destructor).type = type := rfl

namespace HdlTable

def core (t : HdlTable) (i : Handle) : Option Header := (t.header i).map Header.core

def kind (t : HdlTable) (i : Handle) : Option Header := (t.header i).map Header.kind

def links (t : HdlTable) : Links Handle where
  next i := (t.header i).bind Header.next
  previous i := (t.header i).bind Header.previous

/-- The number of the object that a handle in use stands for. -/
def obj (t : HdlTable) (i : Handle) : ℕ := (t.kind i).elim 0 Header.obj

section Writes

variable (t : HdlTable) (i j : Handle)

@[simp] lemma header_setSlot (s : Slot) :
    (t.setSlot i s).header j = if j = i then s.toHeader else t.header j := by
  by_cases hji : j = i <;> simp [header, setSlot, hji]

@[simp] lemma header_setUsage (type : HdlType) (e : Ends Handle) :
    (t.setUsage type e).header j = t.header j := rfl

@[simp] lemma header_setLocked (b : Bool) : (t.setLocked i b).header j = t.header j := rfl

@[simp] lemma header_newObj : t.newObj.header j = t.header j := rfl

@[simp] lemma header_freeObj (obj : ℕ) (b : Bool) : (t.freeObj obj b).header j = t.header j := rfl

variable {t i j}

lemma setHeader_eq {h : Header} (f : Header → Header) (hi : t.header i = some h) :
    t.setHeader i f = some (t.setSlot i (.header (f h))) := by
  simp [setHeader, hi]

lemma header_of_core {c : Header} (h : t.core i = some c) : ∃ hd, t.header i = some hd ∧ hd.core = c :=
  Option.map_eq_some_iff.mp h

lemma header_of_kind {c : Header} (h : t.kind i = some c) : ∃ hd, t.header i = some hd ∧ hd.kind = c :=
  Option.map_eq_some_iff.mp h

lemma kind_of_core {c : Header} (h : t.core i = some c) : t.kind i = some c.kind := by
  obtain ⟨hd, hhd, rfl⟩ := header_of_core h
  simp [kind, hhd, Header.kind, Header.core]

lemma kind_eq_map_core (t : HdlTable) : t.kind = fun i => (t.core i).map Header.kind := by
  funext i
  simp only [kind, core, Option.map_map]
  rfl

lemma core_eq_none : t.core i = none ↔ t.header i = none := Option.map_eq_none_iff

end Writes

end HdlTable

/-- What `lgHdlAlloc` does when it succeeds. -/
structure Allocated (t : HdlTable) (handle : Handle) (c : Header) (t' : HdlTable) : Prop where
  links : t'.links = t.links.append (t.usage c.type).last handle
  usage : t'.usage = update t.usage c.type ((t.usage c.type).append handle)
  core : t'.core = update t.core handle (some c)
  obj : c.obj = t.objs
  magic : c.magic = c.type.magic
  objs : t'.objs = t.objs + 1
  freed : t'.freed = t.freed
  destructed : t'.destructed = t.destructed

/-- What `lgHdlFree` does when it succeeds. -/
structure Released (t : HdlTable) (i : Handle) (c : Header) (t' : HdlTable) : Prop where
  next : ∀ j, j ≠ i → t'.links.next j = (t.links.unlink i).next j
  previous : ∀ j, j ≠ i → t'.links.previous j = (t.links.unlink i).previous j
  usage : t'.usage = update t.usage c.type ((t.usage c.type).unlink t.links i)
  core : t'.core = update t.core i none
  objs : t'.objs = t.objs
  freed : t'.freed = t.freed ++ [c.obj]
  destructed : t'.destructed = if c.destructor then t.destructed ++ [c.obj] else t.destructed

section Specs

variable {t : HdlTable} {handle i : Handle} {h : Header}

/-- `lgHdlAlloc` follows only the pointer of the last handle of the type. -/
lemma allocReserved_ok (ctx : LgCtx) (type : HdlType) (destructor : Bool)
    (hlast : ∀ j, (t.usage type).last = some j → ∃ h, t.header j = some h)
    (hhandle : t.header handle = none) :
    ∃ t', allocReserved t handle ctx type destructor true true = some (↑handle.val, t') ∧
      Allocated t handle (.new ctx t.objs type destructor) t' := by
  cases hl : (t.usage type).last with
  | none =>
    have hl' : (t.newObj.usage type).last = none := hl
    refine ⟨_, by simp [allocReserved, chainHandle, hl, hl']; rfl, ?_⟩
    refine ⟨?_, ?_, ?_, rfl, rfl, rfl, rfl, rfl⟩
    · simp only [HdlTable.links, Links.append, Header.new_type, hl]
      congr 1 <;> funext j <;> by_cases hj : j = handle <;> simp [hj, Slot.toHeader]
    · simp [HdlTable.setSlot, HdlTable.setUsage, Ends.append, HdlTable.newObj, hl]
    · funext j
      by_cases hj : j = handle <;> simp [HdlTable.core, hj, Slot.toHeader, Header.core, Header.new]
  | some last =>
    obtain ⟨hd, hhd⟩ := hlast last hl
    have hne : last ≠ handle := by
      rintro rfl
      rw [hhandle] at hhd
      cases hhd
    have hl' : (t.newObj.usage type).last = some last := hl
    have hhd' : t.newObj.header last = some hd := hhd
    refine ⟨_, by simp [allocReserved, chainHandle, hl, hl', HdlTable.setHeader_eq _ hhd']; rfl, ?_⟩
    refine ⟨?_, ?_, ?_, rfl, rfl, rfl, rfl, rfl⟩
    · simp only [HdlTable.links, Links.append, Header.new_type, hl]
      congr 1 <;> funext j <;> by_cases hj : j = handle <;> by_cases hj' : j = last <;>
        simp_all [Slot.toHeader]
    · simp [HdlTable.setSlot, HdlTable.setUsage, Ends.append, HdlTable.newObj, hl]
    · funext j
      by_cases hj : j = handle <;> by_cases hj' : j = last <;>
        simp_all [HdlTable.core, Slot.toHeader, Header.core, Header.new]

/-- A write to a header that changes only its links. -/
lemma core_setHeader {t' : HdlTable} {f : Header → Header} (h : t.setHeader i f = some t')
    (hf : ∀ q, (f q).core = q.core) : t'.core = t.core := by
  obtain ⟨q, hq, rfl⟩ := Option.map_eq_some_iff.mp h
  funext j
  by_cases hj : j = i
  · subst hj
    simp [HdlTable.core, Slot.toHeader, hq, hf]
  · simp [HdlTable.core, hj]

/-- What the two statements that take a handle out of its chain leave as it was. -/
structure SameObjs (t t' : HdlTable) : Prop where
  core : t'.core = t.core
  objs : t'.objs = t.objs
  freed : t'.freed = t.freed
  destructed : t'.destructed = t.destructed

lemma unlinkPrevious_ok (hprevious : ∀ p, h.previous = some p → ∃ q, t.header p = some q) :
    ∃ t', unlinkPrevious t h = some t' ∧ SameObjs t t' ∧ t'.links.previous = t.links.previous ∧
      t'.links.next = h.previous.elim t.links.next (fun p => update t.links.next p h.next) ∧
      t'.usage = update t.usage h.type
        ⟨h.previous.elim h.next (fun _ => (t.usage h.type).first), (t.usage h.type).last⟩ := by
  cases hp : h.previous with
  | none =>
    have hset : unlinkPrevious t h = some (t.setUsage h.type ⟨h.next, (t.usage h.type).last⟩) := by
      simp only [unlinkPrevious, hp]
    exact ⟨_, hset, ⟨rfl, rfl, rfl, rfl⟩, rfl, rfl, rfl⟩
  | some p =>
    obtain ⟨q, hq⟩ := hprevious p hp
    have hset := HdlTable.setHeader_eq (fun q => { q with next := h.next }) hq
    have heq : unlinkPrevious t h = t.setHeader p (fun q => { q with next := h.next }) := by
      simp only [unlinkPrevious, hp]
    refine ⟨_, heq.trans hset, ⟨core_setHeader hset (fun _ => rfl), rfl, rfl, rfl⟩, ?_, ?_, ?_⟩
    · funext j
      by_cases hj : j = p <;> simp [HdlTable.links, hj, Slot.toHeader, hq]
    · funext j
      by_cases hj : j = p <;> simp [HdlTable.links, hj, Slot.toHeader]
    · exact (Function.update_eq_self h.type t.usage).symm

lemma unlinkNext_ok (hnext : ∀ n, h.next = some n → ∃ q, t.header n = some q) :
    ∃ t', unlinkNext t h = some t' ∧ SameObjs t t' ∧ t'.links.next = t.links.next ∧
      t'.links.previous =
        h.next.elim t.links.previous (fun n => update t.links.previous n h.previous) ∧
      t'.usage = update t.usage h.type
        ⟨(t.usage h.type).first, h.next.elim h.previous (fun _ => (t.usage h.type).last)⟩ := by
  cases hn : h.next with
  | none =>
    have hset : unlinkNext t h = some (t.setUsage h.type ⟨(t.usage h.type).first, h.previous⟩) := by
      simp only [unlinkNext, hn]
    exact ⟨_, hset, ⟨rfl, rfl, rfl, rfl⟩, rfl, rfl, rfl⟩
  | some n =>
    obtain ⟨q, hq⟩ := hnext n hn
    have hset := HdlTable.setHeader_eq (fun q => { q with previous := h.previous }) hq
    have heq : unlinkNext t h = t.setHeader n (fun q => { q with previous := h.previous }) := by
      simp only [unlinkNext, hn]
    refine ⟨_, heq.trans hset, ⟨core_setHeader hset (fun _ => rfl), rfl, rfl, rfl⟩, ?_, ?_, ?_⟩
    · funext j
      by_cases hj : j = n <;> simp [HdlTable.links, hj, Slot.toHeader, hq]
    · funext j
      by_cases hj : j = n <;> simp [HdlTable.links, hj, Slot.toHeader]
    · exact (Function.update_eq_self h.type t.usage).symm

/-- `lgHdlFree` follows only the pointers of the neighbours in the chain. -/
lemma freeHeader_ok (hi : t.header i = some h)
    (hprevious : ∀ p, h.previous = some p → ∃ q, t.header p = some q)
    (hnext : ∀ n, h.next = some n → ∃ q, t.header n = some q) :
    ∃ t', freeHeader t i h = some t' ∧ Released t i h.core t' := by
  have hlinks : t.links.previous i = h.previous ∧ t.links.next i = h.next := by
    simp [HdlTable.links, hi]
  obtain ⟨u, hu, husame, huprevious, hunext, huusage⟩ := unlinkPrevious_ok hprevious
  have hnext' : ∀ n, h.next = some n → ∃ q, u.header n = some q := by
    intro n hn
    obtain ⟨q, hq⟩ := hnext n hn
    have hcore : u.core n = some q.core := by
      rw [husame.core, HdlTable.core, hq]
      rfl
    obtain ⟨q', hq', -⟩ := HdlTable.header_of_core hcore
    exact ⟨q', hq'⟩
  obtain ⟨v, hv, hvsame, hvnext, hvprevious, hvusage⟩ := unlinkNext_ok hnext'
  refine ⟨_, by simp [freeHeader, hu, hv]; rfl, ?_⟩
  have hkeep : ∀ j, j ≠ i → ((v.setSlot i .free).freeObj h.obj h.destructor).header j = v.header j := by
    intro j hj
    simp [hj]
  refine ⟨?_, ?_, ?_, ?_, ?_, ?_, ?_⟩
  · intro j hj
    have hj' : ((v.setSlot i .free).freeObj h.obj h.destructor).links.next j = v.links.next j := by
      simp only [HdlTable.links, hkeep j hj]
    rw [hj', hvnext, hunext, Links.unlink, hlinks.1, hlinks.2]
    cases h.previous <;> rfl
  · intro j hj
    have hj' : ((v.setSlot i .free).freeObj h.obj h.destructor).links.previous j = v.links.previous j := by
      simp only [HdlTable.links, hkeep j hj]
    rw [hj', hvprevious, huprevious, Links.unlink, hlinks.1, hlinks.2]
    cases h.next <;> rfl
  · change v.usage = _
    rw [hvusage, huusage, Function.update_idem, Function.update_self, Ends.unlink, hlinks.1, hlinks.2]
    cases h.previous <;> cases h.next <;> rfl
  · funext j
    by_cases hj : j = i
    · subst hj
      simp [HdlTable.core, Slot.toHeader]
    · rw [HdlTable.core, hkeep j hj, Function.update_of_ne hj, ← husame.core, ← hvsame.core]
      rfl
  · exact hvsame.objs.trans husame.objs
  · change v.freed ++ [h.obj] = _
    rw [hvsame.freed, husame.freed]
    rfl
  · change (if h.destructor then v.destructed ++ [h.obj] else v.destructed) = _
    rw [hvsame.destructed, husame.destructed]
    rfl

end Specs

/-- The handles in use of each type, in the order in which they were allocated. -/
structure Registered (t : HdlTable) (chain : HdlType → List Handle) : Prop where
  linked : ∀ type, Linked t.links (t.usage type) (chain type)
  mem : ∀ type i, i ∈ chain type ↔ ∃ c, t.kind i = some c ∧ c.type = type
  magic : ∀ i c, t.kind i = some c → c.magic = c.type.magic
  bound : ∀ i c, t.kind i = some c → c.obj < t.objs
  order : ∀ type, (chain type).Pairwise (fun i j => t.obj i < t.obj j)

/-- The kinds of steps of the threads, from `t`. -/
inductive HdlMove (t : HdlTable) : HdlAct → HdlTable → Prop
  | quiet (a : HdlAct) (t' : HdlTable) (hlinks : t'.links = t.links) (husage : t'.usage = t.usage)
      (hcore : t'.core = t.core) (hobjs : t'.objs = t.objs) (hfreed : t'.freed = t.freed)
      (hdestructed : t'.destructed = t.destructed) : HdlMove t a t'
  | share (ctx : LgCtx) (i : Handle) (c : Header) (share : ℤ) (t' : HdlTable) (hi : t.core i = some c)
      (howner : c.owner = ctx.owner) (hlinks : t'.links = t.links) (husage : t'.usage = t.usage)
      (hcore : t'.core = update t.core i (some { c with share := share })) (hobjs : t'.objs = t.objs)
      (hfreed : t'.freed = t.freed) (hdestructed : t'.destructed = t.destructed) :
      HdlMove t (.setShare ctx i.val share) t'
  | failed (a : HdlAct) (t' : HdlTable) (hlinks : t'.links = t.links) (husage : t'.usage = t.usage)
      (hcore : t'.core = t.core) (hobjs : t'.objs = t.objs + 1)
      (hfreed : t'.freed = t.freed ++ [t.objs]) (hdestructed : t'.destructed = t.destructed) :
      HdlMove t a t'
  | alloc (i : Handle) (ctx : LgCtx) (type : HdlType) (destructor : Bool) (t' : HdlTable)
      (hi : t.core i = none) (h : Allocated t i (.new ctx t.objs type destructor) t') :
      HdlMove t (.alloc i ctx type destructor true true) t'
  | free (a : HdlAct) (i : Handle) (c : Header) (t' : HdlTable) (hi : t.core i = some c)
      (h : Released t i c t') : HdlMove t a t'

section Checks

variable {t : HdlTable} {i : Handle} {type : HdlType} {h : Header}

@[simp] lemma ofInt_val (i : Handle) : Handle.ofInt i.val = some i := by
  have hi : i.val < 1024 := i.isLt
  simp only [Handle.ofInt]
  rw [dif_pos (by omega)]
  rfl

lemma eq_of_ofInt {handle : ℤ} (h : Handle.ofInt handle = some i) : handle = i.val := by
  unfold Handle.ofInt at h
  split at h
  · rename_i hbound
    cases h
    exact (Int.toNat_of_nonneg hbound.1).symm
  · cases h

lemma lookup_eq_ok : lookup t i type = .ok h ↔
    t.header i = some h ∧ h.type = type ∧ h.magic = type.magic := by
  unfold lookup HdlTable.header Slot.toHeader
  cases t.slot i with
  | header q =>
    by_cases hq : q.type ≠ type ∨ q.magic ≠ type.magic
    · simp only [hq, if_true, reduceCtorEq, Option.some.injEq, false_iff]
      rintro ⟨rfl, htype, hmagic⟩
      exact hq.elim (fun hne => hne htype) (fun hne => hne hmagic)
    · simp only [hq, if_false, Except.ok.injEq, Option.some.injEq]
      rw [not_or, not_not, not_not] at hq
      constructor
      · rintro rfl
        exact ⟨rfl, hq⟩
      · rintro ⟨rfl, -⟩
        rfl
  | _ => simp

end Checks

section Registered

variable {t t' : HdlTable} {chain : HdlType → List Handle} {i : Handle} {h : Header}

lemma Registered.header_of_mem (hreg : Registered t chain) {type : HdlType} (hi : i ∈ chain type) :
    ∃ h, t.header i = some h := by
  obtain ⟨c, hc, -⟩ := (hreg.mem type i).mp hi
  obtain ⟨h, hh, -⟩ := HdlTable.header_of_kind hc
  exact ⟨h, hh⟩

lemma Registered.mem_of_header (hreg : Registered t chain) (hi : t.header i = some h) :
    i ∈ chain h.type :=
  (hreg.mem h.type i).mpr ⟨h.kind, by simp [HdlTable.kind, hi], rfl⟩

/-- Freeing a handle in use does not follow a wrong pointer. -/
lemma Registered.free_ok (hreg : Registered t chain) (hi : t.header i = some h) :
    ∃ t', freeHeader t i h = some t' ∧ Released t i h.core t' := by
  have hmem := hreg.mem_of_header hi
  refine freeHeader_ok hi ?_ ?_
  · intro p hp
    exact hreg.header_of_mem ((hreg.linked h.type).mem_of_previous hmem (by simp [HdlTable.links, hi, hp]))
  · intro n hn
    exact hreg.header_of_mem ((hreg.linked h.type).mem_of_next hmem (by simp [HdlTable.links, hi, hn]))

/-- Allocating a reserved handle does not either. -/
lemma Registered.alloc_ok (hreg : Registered t chain) (hi : t.header i = none) (ctx : LgCtx)
    (type : HdlType) (destructor : Bool) :
    ∃ t', allocReserved t i ctx type destructor true true = some (↑i.val, t') ∧
      Allocated t i (.new ctx t.objs type destructor) t' := by
  refine allocReserved_ok ctx type destructor ?_ hi
  intro j hj
  rw [(hreg.linked type).last] at hj
  exact hreg.header_of_mem (List.mem_of_getLast? hj)

end Registered

section Moves

variable {t t' : HdlTable} {chain : HdlType → List Handle}

/-- A slot is written, and the links stay as they were. -/
lemma links_setSlot {i : Handle} {s : Slot}
    (hnext : s.toHeader.bind Header.next = (t.header i).bind Header.next)
    (hprevious : s.toHeader.bind Header.previous = (t.header i).bind Header.previous) :
    (t.setSlot i s).links = t.links := by
  unfold HdlTable.links
  congr 1 <;> funext j <;> by_cases hj : j = i <;> simp [hj, hnext, hprevious]

lemma core_setSlot (i : Handle) (s : Slot) :
    (t.setSlot i s).core = update t.core i (s.toHeader.map Header.core) := by
  funext j
  by_cases hj : j = i
  · subst hj
    simp [HdlTable.core]
  · simp [HdlTable.core, hj]

/-- A slot without a header is reserved or given back. -/
lemma setSlot_same_of_none {i : Handle} {s : Slot} (hi : t.header i = none) (hs : s.toHeader = none) :
    (t.setSlot i s).links = t.links ∧ (t.setSlot i s).core = t.core := by
  refine ⟨links_setSlot (by rw [hs, hi]) (by rw [hs, hi]), ?_⟩
  rw [core_setSlot, hs, Function.update_eq_self_iff]
  exact (HdlTable.core_eq_none.mpr hi).symm

lemma HdlMove.refl (t : HdlTable) (a : HdlAct) : HdlMove t a t :=
  .quiet a t rfl rfl rfl rfl rfl rfl

lemma HdlMove.setLocked (t : HdlTable) (a : HdlAct) (i : Handle) (b : Bool) :
    HdlMove t a (t.setLocked i b) :=
  .quiet a _ rfl rfl rfl rfl rfl rfl

lemma xHdlGet_eq_some {i : Handle} (h : xHdlGet t = some (i, t')) :
    t.slot i = .free ∧ (∀ j < i, t.slot j ≠ .free) ∧ t' = t.setSlot i .rsvd := by
  obtain ⟨j, hj, hjt⟩ := Option.map_eq_some_iff.mp h
  cases hjt
  obtain ⟨hfree, n, hn, hget, hbefore⟩ := List.find?_eq_some_iff_getElem.mp hj
  refine ⟨by simpa using hfree, ?_, rfl⟩
  intro k hk
  rw [List.getElem_finRange] at hget
  have hlt : k.val < n := by
    rw [← hget] at hk
    exact hk
  simpa using hbefore k.val hlt

/-- `lgHdlAlloc` finds no handle only if all are in use or reserved. -/
lemma xHdlGet_eq_none : xHdlGet t = none ↔ ∀ i, t.slot i ≠ .free := by
  simp [xHdlGet]

lemma lgHdlFree_move (hreg : Registered t chain) {handle status : ℤ} {type : HdlType} (a : HdlAct)
    (h : lgHdlFree t handle type = some (status, t')) : HdlMove t a t' := by
  unfold lgHdlFree at h
  split at h
  · cases h
    exact .refl t a
  · rename_i i _
    split at h
    · cases h
      exact .refl t a
    · rename_i hd hlookup
      obtain ⟨hi, -, -⟩ := lookup_eq_ok.mp hlookup
      obtain ⟨u, hu, hreleased⟩ := hreg.free_ok hi
      rw [hu] at h
      cases h
      exact .free a i hd.core _ (by simp [HdlTable.core, hi]) hreleased

lemma purgeSlot_move (hreg : Registered t chain) {owner : ℤ} {i : Handle} (a : HdlAct)
    (h : purgeSlot owner t i = some t') : HdlMove t a t' := by
  unfold purgeSlot at h
  split at h
  · split at h
    · obtain ⟨r, hr, rfl⟩ := Option.map_eq_some_iff.mp h
      exact lgHdlFree_move hreg a hr
    · cases h
      exact .refl t a
  · cases h
    exact .refl t a

lemma allocReserved_move (hreg : Registered t chain) {i : Handle} {ctx : LgCtx} {type : HdlType}
    {destructor objOk hdrOk : Bool} {status : ℤ} (hi : t.slot i = .rsvd)
    (h : allocReserved t i ctx type destructor objOk hdrOk = some (status, t')) :
    HdlMove t (.alloc i ctx type destructor objOk hdrOk) t' := by
  have hheader : t.header i = none := by simp [HdlTable.header, hi, Slot.toHeader]
  obtain ⟨hlinks, hcore⟩ := setSlot_same_of_none (s := .free) hheader rfl
  cases objOk with
  | false =>
    cases h
    exact .quiet _ _ hlinks rfl hcore rfl rfl rfl
  | true =>
    cases hdrOk with
    | false =>
      -- the object is freed again
      cases h
      exact .failed _ _ hlinks rfl hcore rfl rfl rfl
    | true =>
      obtain ⟨u, hu, halloc⟩ := hreg.alloc_ok hheader ctx type destructor
      rw [hu] at h
      cases h
      exact .alloc i ctx type destructor _ (HdlTable.core_eq_none.mpr hheader) halloc

lemma lgHdlSetShare_move {ctx : LgCtx} {handle share status : ℤ}
    (h : lgHdlSetShare t ctx handle share = some (status, t')) :
    HdlMove t (.setShare ctx handle share) t' := by
  unfold lgHdlSetShare at h
  split at h
  · cases h
    exact .refl t _
  · rename_i i hofInt
    obtain rfl : handle = i.val := eq_of_ofInt hofInt
    split at h
    · cases h
    · split at h
      · rename_i hd hslot
        have hi : t.header i = some hd := by simp [HdlTable.header, hslot, Slot.toHeader]
        split at h
        · cases h
          exact .refl t _
        · rename_i howner
          cases h
          have hlinks : (t.setSlot i (.header { hd with share := share })).links = t.links :=
            links_setSlot (by rw [hi]; rfl) (by rw [hi]; rfl)
          exact .share ctx i hd.core share _ (by simp [HdlTable.core, hi]) (not_not.mp howner) hlinks rfl
            (core_setSlot i _) rfl rfl rfl
      · cases h
        exact .refl t _

/-- Every step of the threads is one of the moves. -/
theorem step_move (hreg : Registered t chain) {a : HdlAct} (h : t.step a = some t') :
    HdlMove t a t' := by
  cases a with
  | reserve =>
    cases hget : xHdlGet t with
    | none =>
      simp only [HdlTable.step, hget, Option.elim, Option.some.injEq] at h
      subst h
      exact .refl t _
    | some r =>
      obtain ⟨i, u⟩ := r
      obtain ⟨hfree, -, rfl⟩ := xHdlGet_eq_some hget
      simp only [HdlTable.step, hget, Option.elim, Option.some.injEq] at h
      subst h
      obtain ⟨hlinks, hcore⟩ := setSlot_same_of_none (t := t) (i := i) (s := .rsvd)
        (by simp [HdlTable.header, hfree, Slot.toHeader]) rfl
      exact .quiet _ _ hlinks rfl hcore rfl rfl rfl
  | alloc i ctx type destructor objOk hdrOk =>
    by_cases hi : t.slot i = .rsvd
    · simp only [HdlTable.step, hi, if_true] at h
      obtain ⟨r, hr, rfl⟩ := Option.map_eq_some_iff.mp h
      exact allocReserved_move hreg hi hr
    · simp [HdlTable.step, hi] at h
  | getLockedObj ctx handle type =>
    obtain ⟨r, hr, rfl⟩ := Option.map_eq_some_iff.mp h
    unfold lgHdlGetLockedObj at hr
    split at hr
    · cases hr
      exact .refl t _
    · split at hr
      · cases hr
      · split at hr
        · cases hr
          exact .refl t _
        · split at hr <;> cases hr
          · exact .setLocked t _ _ true
          · exact .refl t _
  | getLockedObjTrusted handle type =>
    obtain ⟨r, hr, rfl⟩ := Option.map_eq_some_iff.mp h
    unfold lgHdlGetLockedObjTrusted at hr
    split at hr
    · cases hr
    · split at hr
      · cases hr
      · split at hr <;> cases hr
        · exact .refl t _
        · exact .setLocked t _ _ true
  | lock handle =>
    obtain ⟨r, hr, rfl⟩ := Option.map_eq_some_iff.mp h
    unfold lgHdlLock at hr
    split at hr
    · cases hr
      exact .refl t _
    · split at hr <;> cases hr
      exact .setLocked t _ _ true
  | unlock handle =>
    cases h
    unfold lgHdlUnlock
    split
    · exact .refl t _
    · exact .setLocked t _ _ false
  | setShare ctx handle share =>
    obtain ⟨r, hr, rfl⟩ := Option.map_eq_some_iff.mp h
    exact lgHdlSetShare_move hr
  | free handle type =>
    obtain ⟨r, hr, rfl⟩ := Option.map_eq_some_iff.mp h
    exact lgHdlFree_move hreg _ hr
  | purge owner i => exact purgeSlot_move hreg _ h

end Moves

end Lg
