import VoiceButton.Lg.HdlMoves
import Mathlib.Data.Fintype.Card

/-!
# The lists of handles

Every run of the threads leaves a table whose links represent the lists of the handles in use.
So the loop over the handles of a type always ends, and no operation ever follows a pointer to
something else than a header.
-/

namespace Lg

open LinkedList (Linked)
open Function (update)

section Preserved

variable {t t' : HdlTable} {chain : HdlType → List Handle} {i : Handle} {c : Header}

lemma kind_of_same (h : t'.core = t.core) : t'.kind = t.kind := by
  rw [HdlTable.kind_eq_map_core, HdlTable.kind_eq_map_core, h]

lemma kind_of_share {share : ℤ} (hi : t.core i = some c)
    (h : t'.core = update t.core i (some { c with share := share })) : t'.kind = t.kind := by
  rw [HdlTable.kind_eq_map_core, HdlTable.kind_eq_map_core, h]
  funext j
  by_cases hj : j = i
  · subst hj
    simp [hi, Header.kind]
  · simp [hj]

lemma kind_of_update {x : Option Header} (h : t'.core = update t.core i x) :
    t'.kind = update t.kind i (x.map Header.kind) := by
  rw [HdlTable.kind_eq_map_core, HdlTable.kind_eq_map_core, h]
  funext j
  by_cases hj : j = i <;> simp [hj]

lemma Registered.of_same (hreg : Registered t chain) (hlinks : t'.links = t.links)
    (husage : t'.usage = t.usage) (hkind : t'.kind = t.kind) (hobjs : t.objs ≤ t'.objs) :
    Registered t' chain := by
  have hobj : ∀ i, t'.obj i = t.obj i := fun i => by rw [HdlTable.obj, hkind, HdlTable.obj]
  refine ⟨?_, ?_, ?_, ?_, ?_⟩
  · intro type
    rw [hlinks, husage]
    exact hreg.linked type
  · rw [hkind]
    exact hreg.mem
  · rw [hkind]
    exact hreg.magic
  · intro i c hc
    rw [hkind] at hc
    exact Nat.lt_of_lt_of_le (hreg.bound i c hc) hobjs
  · simpa only [hobj] using hreg.order

/-- A handle is in the chain of one type only. -/
lemma Registered.disjoint (hreg : Registered t chain) {type type' : HdlType} (hne : type ≠ type') :
    (chain type).Disjoint (chain type') := by
  intro j hj hj'
  obtain ⟨c, hc, htype⟩ := (hreg.mem type j).mp hj
  obtain ⟨c', hc', htype'⟩ := (hreg.mem type' j).mp hj'
  rw [hc, Option.some.injEq] at hc'
  subst hc'
  exact hne (htype.symm.trans htype')

lemma Registered.not_mem_of_none (hreg : Registered t chain) (hi : t.core i = none) (type : HdlType) :
    i ∉ chain type := by
  intro hmem
  obtain ⟨h, hh⟩ := hreg.header_of_mem hmem
  rw [HdlTable.core_eq_none.mp hi] at hh
  cases hh

lemma Registered.alloc (hreg : Registered t chain) (hi : t.core i = none)
    (hmagic : c.magic = c.type.magic) (h : Allocated t i c t') :
    Registered t' (update chain c.type (chain c.type ++ [i])) := by
  have hnot := hreg.not_mem_of_none hi
  have hkind : t'.kind = update t.kind i (some c.kind) := kind_of_update h.core
  have hkeep : ∀ j, j ≠ i → t'.obj j = t.obj j := by
    intro j hj
    simp [HdlTable.obj, hkind, hj]
  refine ⟨?_, ?_, ?_, ?_, ?_⟩
  · intro type
    rw [h.links, h.usage]
    by_cases htype : type = c.type
    · subst htype
      simpa using (hreg.linked c.type).append (hnot c.type)
    · simpa [htype] using (hreg.linked type).append_other (hreg.linked c.type) (hnot type)
        (hreg.disjoint (Ne.symm htype))
  · intro type j
    rw [hkind]
    by_cases hj : j = i <;> by_cases htype : type = c.type
    · simp [hj, htype, Header.kind]
    · simp [hj, htype, hnot, Header.kind, Ne.symm htype]
    · simp [hj, htype, hreg.mem]
    · simp [hj, htype, hreg.mem]
  · intro j d hd
    rw [hkind] at hd
    by_cases hj : j = i
    · obtain rfl : c.kind = d := by simpa [hj] using hd
      exact hmagic
    · exact hreg.magic j d (by simpa [hj] using hd)
  · intro j d hd
    rw [hkind] at hd
    rw [h.objs]
    by_cases hj : j = i
    · obtain rfl : c.kind = d := by simpa [hj] using hd
      exact Nat.lt_succ_of_le (Nat.le_of_eq h.obj)
    · exact Nat.lt_succ_of_lt (hreg.bound j d (by simpa [hj] using hd))
  · intro type
    have hold : (chain type).Pairwise (fun j k => t'.obj j < t'.obj k) := by
      refine (hreg.order type).imp_of_mem ?_
      intro j k hj hk hlt
      rwa [hkeep j (ne_of_mem_of_not_mem hj (hnot type)), hkeep k (ne_of_mem_of_not_mem hk (hnot type))]
    by_cases htype : type = c.type
    · subst htype
      rw [Function.update_self, List.pairwise_append]
      refine ⟨hold, List.pairwise_singleton _ _, ?_⟩
      -- the new object has the greatest number
      intro j hj k hk
      obtain rfl : k = i := by simpa using hk
      obtain ⟨d, hd, -⟩ := (hreg.mem c.type j).mp hj
      rw [hkeep j (ne_of_mem_of_not_mem hj (hnot c.type))]
      simpa [HdlTable.obj, hkind, hd, Header.kind, h.obj] using hreg.bound j d hd
    · rwa [Function.update_of_ne htype]

lemma Registered.free (hreg : Registered t chain) (hi : t.core i = some c) (h : Released t i c t') :
    Registered t' (fun type => (chain type).filter (· ≠ i)) := by
  have hmem : i ∈ chain c.type := (hreg.mem c.type i).mpr ⟨c.kind, HdlTable.kind_of_core hi, rfl⟩
  have hkind : t'.kind = update t.kind i none := kind_of_update h.core
  have hold : ∀ j d, t'.kind j = some d → j ≠ i ∧ t.kind j = some d := by
    intro j d hd
    rw [hkind] at hd
    by_cases hj : j = i
    · simp [hj] at hd
    · exact ⟨hj, by simpa [hj] using hd⟩
  have hother : ∀ type, type ≠ c.type → i ∉ chain type := fun type htype hmem' =>
    hreg.disjoint htype hmem' hmem
  refine ⟨?_, ?_, ?_, ?_, ?_⟩
  · intro type
    suffices hlinked : Linked (t.links.unlink i) (t'.usage type) ((chain type).filter (· ≠ i)) by
      refine hlinked.congr ?_
      intro j hj
      have hne : j ≠ i := by simpa using (List.mem_filter.mp hj).2
      exact ⟨h.next j hne, h.previous j hne⟩
    rw [h.usage]
    by_cases htype : type = c.type
    · subst htype
      obtain ⟨as, bs, hsplit⟩ := List.append_of_mem hmem
      have hlinked := hreg.linked c.type
      rw [hsplit] at hlinked ⊢
      obtain ⟨has, hbs⟩ := LinkedList.not_mem_of_nodup hlinked.nodup
      rw [LinkedList.filter_ne_split has hbs, Function.update_self]
      exact hlinked.unlink
    · have hfilter : (chain type).filter (· ≠ i) = chain type := by
        rw [List.filter_eq_self]
        intro j hj
        simpa using ne_of_mem_of_not_mem hj (hother type htype)
      rw [hfilter, Function.update_of_ne htype]
      exact (hreg.linked type).unlink_other (hreg.linked c.type) hmem (hreg.disjoint (Ne.symm htype))
  · intro type j
    rw [List.mem_filter, hreg.mem, hkind]
    by_cases hj : j = i <;> simp [hj]
  · intro j d hd
    exact hreg.magic j d (hold j d hd).2
  · intro j d hd
    rw [h.objs]
    exact hreg.bound j d (hold j d hd).2
  · intro type
    refine ((hreg.order type).filter _).imp_of_mem ?_
    intro j k hj hk hlt
    have hj' : j ≠ i := by simpa using (List.mem_filter.mp hj).2
    have hk' : k ≠ i := by simpa using (List.mem_filter.mp hk).2
    simpa [HdlTable.obj, hkind, hj', hk'] using hlt

/-- Each step keeps the chains, but for the handle that it allocates or frees. -/
theorem Registered.move {a : HdlAct} (hreg : Registered t chain) (h : HdlMove t a t') :
    ∃ chain', Registered t' chain' := by
  cases h with
  | quiet _ _ hlinks husage hcore hobjs =>
    exact ⟨chain, hreg.of_same hlinks husage (kind_of_same hcore) (Nat.le_of_eq hobjs.symm)⟩
  | share _ i c _ _ hi _ hlinks husage hcore hobjs =>
    exact ⟨chain, hreg.of_same hlinks husage (kind_of_share hi hcore) (Nat.le_of_eq hobjs.symm)⟩
  | failed _ _ hlinks husage hcore hobjs =>
    exact ⟨chain, hreg.of_same hlinks husage (kind_of_same hcore) (by omega)⟩
  | alloc i ctx type destructor _ hi halloc => exact ⟨_, hreg.alloc hi rfl halloc⟩
  | free _ i c _ hi hreleased => exact ⟨_, hreg.free hi hreleased⟩

lemma Registered.init : Registered HdlTable.init (fun _ => []) :=
  ⟨fun _ => .nil _, by simp [HdlTable.init, HdlTable.kind, HdlTable.header, Slot.toHeader],
    by simp [HdlTable.init, HdlTable.kind, HdlTable.header, Slot.toHeader],
    by simp [HdlTable.init, HdlTable.kind, HdlTable.header, Slot.toHeader], fun _ => .nil⟩

theorem exists_registered {as : List HdlAct} {t : HdlTable} (h : HdlTable.run as = some t) :
    ∃ chain, Registered t chain := by
  refine Transition.invariant_of_exec (I := fun t => ∃ chain, Registered t chain) ⟨_, .init⟩ ?_ h
  intro _ u a v _ hu huv
  obtain ⟨chain, hreg⟩ := hu
  exact hreg.move (step_move hreg huv)

end Preserved

section Runs

variable {as : List HdlAct} {t : HdlTable}

lemma Registered.walk_eq {chain : HdlType → List Handle} (hreg : Registered t chain) (type : HdlType)
    (size : ℕ) {fuel : ℕ} (hfuel : lgHdlSlots ≤ fuel) :
    lgHdlGetHandlesForType t type size fuel = some ((chain type).length, (chain type).take size) := by
  have hlinked := hreg.linked type
  have hlength : (chain type).length ≤ lgHdlSlots := by
    simpa using hlinked.nodup.length_le_card
  have hderef : ∀ i ∈ chain type, (t.header i).map Header.next = some (t.links.next i) := by
    intro i hi
    obtain ⟨h, hh⟩ := hreg.header_of_mem hi
    simp [HdlTable.links, hh]
  rw [lgHdlGetHandlesForType, hlinked.walk_eq hderef (Nat.le_trans hlength hfuel)]
  rfl

def piCtx : LgCtx := { user := "pi", owner := 100, autoSetShare := 0, autoUseShare := 0 }
def netCtx : LgCtx := { user := "net", owner := 200, autoSetShare := 7, autoUseShare := 5 }

/-- Two threads allocate three handles, the first is freed and its slot used again. -/
def reuseRun : List HdlAct :=
  [.reserve, .reserve, .alloc 1 netCtx .gpio true true true, .alloc 0 piCtx .gpio true true true,
    .reserve, .alloc 2 piCtx .spi false true true, .free 1 .gpio,
    .reserve, .alloc 1 piCtx .gpio true true true]

/-- The handle whose mutex a step takes. -/
def HdlAct.mutex : HdlAct → Option ℤ
  | .getLockedObj _ handle _ => some handle
  | .getLockedObjTrusted handle _ => some handle
  | .lock handle => some handle
  | .setShare _ handle _ => some handle
  | _ => none

/-- What stops a step: a mutex that is held, a wild handle where none is checked, or a slot that
the thread has not reserved. -/
inductive HdlAct.Stopped (t : HdlTable) : HdlAct → Prop
  | waits (a : HdlAct) (i : Handle) (ha : a.mutex = some ↑i.val) (hi : t.locked i) : Stopped t a
  | wild (handle : ℤ) (type : HdlType) (hhandle : Handle.ofInt handle = none) :
      Stopped t (.getLockedObjTrusted handle type)
  | unreserved (i : Handle) (ctx : LgCtx) (type : HdlType) (destructor objOk hdrOk : Bool)
      (hi : t.slot i ≠ .rsvd) : Stopped t (.alloc i ctx type destructor objOk hdrOk)

lemma lgHdlFree_ne_none {chain : HdlType → List Handle} (hreg : Registered t chain) (handle : ℤ)
    (type : HdlType) : lgHdlFree t handle type ≠ none := by
  unfold lgHdlFree
  split
  · simp
  · rename_i i _
    split
    · simp
    · rename_i h hlookup
      obtain ⟨t', ht', -⟩ := hreg.free_ok (lookup_eq_ok.mp hlookup).1
      simp [ht']

lemma purgeSlot_ne_none {chain : HdlType → List Handle} (hreg : Registered t chain) (owner : ℤ)
    (i : Handle) : purgeSlot owner t i ≠ none := by
  unfold purgeSlot
  split
  · split
    · simpa using lgHdlFree_ne_none hreg _ _
    · simp
  · simp

lemma allocReserved_ne_none {chain : HdlType → List Handle} (hreg : Registered t chain) {i : Handle}
    (hi : t.slot i = .rsvd) (ctx : LgCtx) (type : HdlType) (destructor objOk hdrOk : Bool) :
    allocReserved t i ctx type destructor objOk hdrOk ≠ none := by
  cases objOk with
  | false => simp [allocReserved]
  | true =>
    cases hdrOk with
    | false => simp [allocReserved]
    | true =>
      have hheader : t.header i = none := by simp [HdlTable.header, hi, Slot.toHeader]
      obtain ⟨t', ht', -⟩ := hreg.alloc_ok hheader ctx type destructor
      simp [ht']

end Runs

end Lg
