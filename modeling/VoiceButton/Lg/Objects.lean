import VoiceButton.Lg.Registry

/-!
# The objects behind the handles

An allocated object is held by one handle until it is freed, once. A thread gets it through this
handle only if it is the owner's or was shared with it, and the end of an owner frees all the
objects that it has not shared.
-/

namespace Lg

open Function (update)

/-- Each object allocated so far is held by one handle or was freed once. -/
structure Accounted (t : HdlTable) : Prop where
  live : ∀ i c, t.kind i = some c → c.obj < t.objs ∧ c.obj ∉ t.freed
  injective : ∀ i j c d, t.kind i = some c → t.kind j = some d → c.obj = d.obj → i = j
  freed : t.freed.Nodup
  bound : ∀ n ∈ t.freed, n < t.objs
  held : ∀ n < t.objs, n ∉ t.freed → ∃ i c, t.kind i = some c ∧ c.obj = n
  destructed : t.destructed.Sublist t.freed

section Accounted

variable {t t' : HdlTable} {i : Handle} {c : Header}

lemma Accounted.of_same (hacc : Accounted t) (hkind : t'.kind = t.kind) (hobjs : t'.objs = t.objs)
    (hfreed : t'.freed = t.freed) (hdestructed : t'.destructed = t.destructed) : Accounted t' := by
  refine ⟨?_, ?_, ?_, ?_, ?_, ?_⟩
  · simpa only [hkind, hobjs, hfreed] using hacc.live
  · simpa only [hkind] using hacc.injective
  · simpa only [hfreed] using hacc.freed
  · simpa only [hobjs, hfreed] using hacc.bound
  · simpa only [hkind, hobjs, hfreed] using hacc.held
  · simpa only [hfreed, hdestructed] using hacc.destructed

/-- An object is freed at once, for want of memory for its header. -/
lemma Accounted.failed (hacc : Accounted t) (hkind : t'.kind = t.kind) (hobjs : t'.objs = t.objs + 1)
    (hfreed : t'.freed = t.freed ++ [t.objs]) (hdestructed : t'.destructed = t.destructed) :
    Accounted t' := by
  have hnew : t.objs ∉ t.freed := fun hmem => Nat.lt_irrefl _ (hacc.bound _ hmem)
  refine ⟨?_, ?_, ?_, ?_, ?_, ?_⟩
  · intro i c hc
    rw [hkind] at hc
    obtain ⟨hlt, hnot⟩ := hacc.live i c hc
    rw [hobjs, hfreed, List.mem_append, List.mem_singleton, not_or]
    exact ⟨Nat.lt_succ_of_lt hlt, hnot, Nat.ne_of_lt hlt⟩
  · simpa only [hkind] using hacc.injective
  · rw [hfreed, ← List.concat_eq_append]
    exact hacc.freed.concat hnew
  · intro n hn
    rw [hfreed, List.mem_append, List.mem_singleton] at hn
    rw [hobjs]
    rcases hn with hn | rfl
    · exact Nat.lt_succ_of_lt (hacc.bound n hn)
    · exact Nat.lt_succ_self _
  · intro n hn hnot
    rw [hfreed, List.mem_append, List.mem_singleton, not_or] at hnot
    rw [hkind]
    exact hacc.held n (by omega) hnot.1
  · rw [hdestructed, hfreed]
    exact hacc.destructed.trans (List.sublist_append_left _ _)

lemma Accounted.alloc (hacc : Accounted t) (hi : t.core i = none) (h : Allocated t i c t') :
    Accounted t' := by
  have hkind : t'.kind = update t.kind i (some c.kind) := kind_of_update h.core
  have hcases : ∀ j d, t'.kind j = some d → (j = i ∧ d = c.kind) ∨ t.kind j = some d := by
    intro j d hd
    rw [hkind] at hd
    by_cases hj : j = i
    · exact Or.inl ⟨hj, by simpa [hj] using hd.symm⟩
    · exact Or.inr (by simpa [hj] using hd)
  have hobj : c.kind.obj = t.objs := h.obj
  refine ⟨?_, ?_, ?_, ?_, ?_, ?_⟩
  · intro j d hd
    rw [h.objs, h.freed]
    rcases hcases j d hd with ⟨-, rfl⟩ | hd
    · rw [hobj]
      exact ⟨Nat.lt_succ_self _, fun hmem => Nat.lt_irrefl _ (hacc.bound _ hmem)⟩
    · obtain ⟨hlt, hnot⟩ := hacc.live j d hd
      exact ⟨Nat.lt_succ_of_lt hlt, hnot⟩
  · intro j k d e hd he hde
    rcases hcases j d hd with ⟨rfl, rfl⟩ | hd <;> rcases hcases k e he with ⟨rfl, rfl⟩ | he
    · rfl
    · have hlt := (hacc.live k e he).1
      omega
    · have hlt := (hacc.live j d hd).1
      omega
    · exact hacc.injective j k d e hd he hde
  · simpa only [h.freed] using hacc.freed
  · intro n hn
    rw [h.freed] at hn
    rw [h.objs]
    exact Nat.lt_succ_of_lt (hacc.bound n hn)
  · intro n hn hnot
    rw [h.freed] at hnot
    rw [h.objs] at hn
    rw [hkind]
    by_cases hnew : n = t.objs
    · exact ⟨i, c.kind, by simp, by rw [hobj, hnew]⟩
    · obtain ⟨j, d, hd, hdn⟩ := hacc.held n (by omega) hnot
      have hj : j ≠ i := by
        rintro rfl
        simp [HdlTable.kind_eq_map_core, hi] at hd
      exact ⟨j, d, by simpa [hj] using hd, hdn⟩
  · rw [h.destructed, h.freed]
    exact hacc.destructed

lemma Accounted.free (hacc : Accounted t) (hi : t.core i = some c) (h : Released t i c t') :
    Accounted t' := by
  have hkind : t'.kind = update t.kind i none := kind_of_update h.core
  have hi' : t.kind i = some c.kind := HdlTable.kind_of_core hi
  have hcases : ∀ j d, t'.kind j = some d → j ≠ i ∧ t.kind j = some d := by
    intro j d hd
    rw [hkind] at hd
    by_cases hj : j = i
    · simp [hj] at hd
    · exact ⟨hj, by simpa [hj] using hd⟩
  obtain ⟨hlt, hnot⟩ : c.obj < t.objs ∧ c.obj ∉ t.freed := hacc.live i c.kind hi'
  refine ⟨?_, ?_, ?_, ?_, ?_, ?_⟩
  · intro j d hd
    obtain ⟨hj, hd⟩ := hcases j d hd
    obtain ⟨hdlt, hdnot⟩ := hacc.live j d hd
    rw [h.objs, h.freed, List.mem_append, List.mem_singleton, not_or]
    exact ⟨hdlt, hdnot, fun hobj => hj (hacc.injective j i d c.kind hd hi' hobj)⟩
  · intro j k d e hd he hde
    exact hacc.injective j k d e (hcases j d hd).2 (hcases k e he).2 hde
  · rw [h.freed, ← List.concat_eq_append]
    exact hacc.freed.concat hnot
  · intro n hn
    rw [h.freed, List.mem_append, List.mem_singleton] at hn
    rw [h.objs]
    rcases hn with hn | rfl
    · exact hacc.bound n hn
    · exact hlt
  · intro n hn hnfreed
    rw [h.freed, List.mem_append, List.mem_singleton, not_or] at hnfreed
    rw [h.objs] at hn
    obtain ⟨j, d, hd, rfl⟩ := hacc.held n hn hnfreed.1
    have hj : j ≠ i := by
      rintro rfl
      rw [hi', Option.some.injEq] at hd
      exact hnfreed.2 (by rw [← hd]; rfl)
    exact ⟨j, d, by simpa [hkind, hj] using hd, rfl⟩
  · rw [h.destructed, h.freed]
    split
    · exact hacc.destructed.append (List.Sublist.refl _)
    · exact hacc.destructed.trans (List.sublist_append_left _ _)

lemma Accounted.move {a : HdlAct} (hacc : Accounted t) (h : HdlMove t a t') : Accounted t' := by
  cases h with
  | quiet _ _ _ _ hcore hobjs hfreed hdestructed =>
    exact hacc.of_same (kind_of_same hcore) hobjs hfreed hdestructed
  | share _ i c _ _ hi _ _ _ hcore hobjs hfreed hdestructed =>
    exact hacc.of_same (kind_of_share hi hcore) hobjs hfreed hdestructed
  | failed _ _ _ _ hcore hobjs hfreed hdestructed =>
    exact hacc.failed (kind_of_same hcore) hobjs hfreed hdestructed
  | alloc i ctx type destructor _ hi halloc => exact hacc.alloc hi halloc
  | free _ i c _ hi hreleased => exact hacc.free hi hreleased

lemma Accounted.init : Accounted HdlTable.init := by
  refine ⟨?_, ?_, List.nodup_nil, ?_, ?_, List.Sublist.refl _⟩ <;>
    simp [HdlTable.init, HdlTable.kind, HdlTable.header, Slot.toHeader]

/-- No run of the threads leaks an object or frees one twice, and a destructor runs at most once,
with its object. -/
theorem run_accounted {as : List HdlAct} (h : HdlTable.run as = some t) : Accounted t := by
  refine Transition.invariant_of_exec .init ?_ h
  intro pre u a v hu hacc huv
  obtain ⟨chain, hreg⟩ := exists_registered hu
  exact hacc.move (step_move hreg huv)

theorem run_accounted_reuse : ∃ t, HdlTable.run reuseRun = some t ∧ Accounted t := by
  have hsome : (HdlTable.run reuseRun).isSome := by decide +kernel
  exact ⟨_, (Option.some_get hsome).symm, run_accounted (Option.some_get hsome).symm⟩

end Accounted

section Access

/-- The owner of the object `obj`, whose context was `own` when it got the handle `i`, has shared
it under `share`. -/
def Shared (as : List HdlAct) (own : LgCtx) (i : Handle) (share : ℤ) : Prop :=
  own.autoSetShare = share ∨ ∃ ctx, ctx.owner = own.owner ∧ .setShare ctx i.val share ∈ as

/-- In the run `as` the handle `i` was given to `own` for the object of `c`, and later steps have
shared it as `c` says. -/
def Given (as : List HdlAct) (i : Handle) (own : LgCtx) (c : Header) : Prop :=
  ∃ bs cs u destructor, as = bs ++ .alloc i own c.type destructor true true :: cs ∧
    HdlTable.run bs = some u ∧ c.obj = u.objs ∧ c.owner = own.owner ∧ c.user = own.user ∧
    Shared cs own i c.share

variable {as : List HdlAct} {t t' : HdlTable} {i : Handle} {c : Header} {own : LgCtx}

lemma Given.concat (h : Given as i own c) (a : HdlAct) : Given (as ++ [a]) i own c := by
  obtain ⟨bs, cs, u, destructor, rfl, hu, hobj, howner, huser, hshare⟩ := h
  refine ⟨bs, cs ++ [a], u, destructor, by simp, hu, hobj, howner, huser, ?_⟩
  refine hshare.imp_right ?_
  rintro ⟨ctx, hctx, hmem⟩
  exact ⟨ctx, hctx, List.mem_append_left _ hmem⟩

lemma Given.share (h : Given as i own c) {ctx : LgCtx} (hctx : c.owner = ctx.owner) (share : ℤ) :
    Given (as ++ [.setShare ctx i.val share]) i own { c with share := share } := by
  obtain ⟨bs, cs, u, destructor, rfl, hu, hobj, howner, huser, -⟩ := h
  refine ⟨bs, cs ++ [_], u, destructor, by simp; rfl, hu, hobj, howner, huser, ?_⟩
  exact Or.inr ⟨ctx, hctx.symm.trans howner, by simp⟩

/-- Each handle in use was given to its owner. -/
lemma exists_given (h : HdlTable.run as = some t) (hi : t.core i = some c) :
    ∃ own, Given as i own c := by
  revert i c
  refine Transition.history_of_exec
    (I := fun as t => ∀ {i c}, t.core i = some c → ∃ own, Given as i own c) ?_ ?_ h
  · intro i c hi
    simp [HdlTable.init, HdlTable.core, HdlTable.header, Slot.toHeader] at hi
  · intro pre a u v hu ih huv j d hd
    obtain ⟨chain, hreg⟩ := exists_registered hu
    cases step_move hreg huv with
    | quiet _ _ _ _ hcore =>
      obtain ⟨own, hown⟩ := ih (hcore ▸ hd)
      exact ⟨own, hown.concat a⟩
    | failed _ _ _ _ hcore =>
      obtain ⟨own, hown⟩ := ih (hcore ▸ hd)
      exact ⟨own, hown.concat a⟩
    | share ctx i c share _ hi howner _ _ hcore =>
      rw [hcore] at hd
      by_cases hj : j = i
      · subst hj
        obtain rfl : { c with share := share } = d := by simpa using hd
        obtain ⟨own, hown⟩ := ih hi
        exact ⟨own, hown.share howner share⟩
      · obtain ⟨own, hown⟩ := ih (by simpa [hj] using hd)
        exact ⟨own, hown.concat _⟩
    | alloc i ctx type destructor _ hi halloc =>
      rw [halloc.core] at hd
      by_cases hj : j = i
      · subst hj
        obtain rfl : Header.new ctx u.objs type destructor = d := by simpa using hd
        exact ⟨ctx, pre, [], u, destructor, rfl, hu, rfl, rfl, rfl, Or.inl rfl⟩
      · obtain ⟨own, hown⟩ := ih (by simpa [hj] using hd)
        exact ⟨own, hown.concat _⟩
    | free _ i c _ hi hreleased =>
      rw [hreleased.core] at hd
      by_cases hj : j = i
      · simp [hj] at hd
      · obtain ⟨own, hown⟩ := ih (by simpa [hj] using hd)
        exact ⟨own, hown.concat a⟩

lemma admits_iff {h : Header} {ctx : LgCtx} : h.admits ctx ↔
    h.owner = ctx.owner ∨ h.share ≠ 0 ∧ h.share = ctx.autoUseShare ∧ h.user = ctx.user := by
  simp only [Header.admits, Bool.not_eq_true', Bool.and_eq_false_iff, bne_eq_false_iff_eq,
    Bool.or_eq_false_iff, beq_eq_false_iff_ne, ne_eq, and_assoc]

/-- A thread that gets an object owns it, or is of the user who does and uses a share under
which the owner has shared it. The object is that for which the handle was given, and it has
not been freed since. -/
theorem run_getLockedObj (h : HdlTable.run as = some t) {ctx : LgCtx} {handle : ℤ} {type : HdlType}
    {obj : ℕ} (hget : lgHdlGetLockedObj t ctx handle type = some (.ok obj, t')) :
    ∃ bs cs u i own destructor, as = bs ++ .alloc i own type destructor true true :: cs ∧
      HdlTable.run bs = some u ∧ handle = i.val ∧ obj = u.objs ∧ obj ∉ t.freed ∧
      (own.owner = ctx.owner ∨
        own.user = ctx.user ∧ ctx.autoUseShare ≠ 0 ∧ Shared cs own i ctx.autoUseShare) := by
  unfold lgHdlGetLockedObj at hget
  split at hget
  · cases hget
  · rename_i i hi
    split at hget
    · cases hget
    · split at hget
      · cases hget
      · rename_i hd hlookup
        obtain ⟨hheader, rfl, -⟩ := lookup_eq_ok.mp hlookup
        split at hget
        · rename_i hadmits
          cases hget
          have hcore : t.core i = some hd.core := by simp [HdlTable.core, hheader]
          obtain ⟨own, bs, cs, u, destructor, has, hu, hobj, howner, huser, hshare⟩ := exists_given h hcore
          have hlive := (run_accounted h).live i _ (HdlTable.kind_of_core hcore)
          refine ⟨bs, cs, u, i, own, destructor, has, hu, eq_of_ofInt hi, hobj, hlive.2, ?_⟩
          rcases admits_iff.mp hadmits with hown | ⟨hne, hshared, huser'⟩
          · exact Or.inl (howner.symm.trans hown)
          · refine Or.inr ⟨huser.symm.trans huser', hshared ▸ hne, ?_⟩
            rw [← hshared]
            exact hshare
        · cases hget

theorem run_getLockedObj_shared :
    let as := reuseRun ++ [.setShare piCtx 2 5]
    let ctx := { netCtx with user := "pi" }
    ∃ bs cs u i own destructor, as = bs ++ .alloc i own .spi destructor true true :: cs ∧
      HdlTable.run bs = some u ∧ (2 : ℤ) = i.val ∧ 2 = u.objs ∧
      (own.owner = ctx.owner ∨
        own.user = ctx.user ∧ ctx.autoUseShare ≠ 0 ∧ Shared cs own i ctx.autoUseShare) := by
  intro as ctx
  have hget : ((HdlTable.run as).bind (fun t => lgHdlGetLockedObj t ctx 2 .spi)).map
      (fun r => r.1.toOption) = some (some 2) := by decide +kernel
  obtain ⟨⟨r, t'⟩, hr, hobj⟩ := Option.map_eq_some_iff.mp hget
  obtain ⟨t, ht, hr⟩ := Option.bind_eq_some_iff.mp hr
  cases r with
  | error status => cases hobj
  | ok obj =>
    obtain rfl : obj = 2 := by simpa [Except.toOption] using hobj
    obtain ⟨bs, cs, u, i, own, destructor, has, hu, hi, hobj, -, hown⟩ := run_getLockedObj ht hr
    exact ⟨bs, cs, u, i, own, destructor, has, hu, hi, hobj, hown⟩

end Access

section Purge

/-- What `lgHdlPurgeByOwner` frees: it spares what is shared. -/
def Header.purged (owner : ℤ) (c : Header) : Bool := c.owner = owner && c.share = 0

def HdlTable.purged (t : HdlTable) (owner : ℤ) (i : Handle) : Bool := (t.core i).any (Header.purged owner)

/-- The objects of the handles `is` that are purged. -/
def HdlTable.purgedObjs (t : HdlTable) (owner : ℤ) (is : List Handle) : List ℕ :=
  (is.filter (t.purged owner)).map t.obj

/-- The table after a purge of the handles `is`. -/
structure Purged (t : HdlTable) (owner : ℤ) (is : List Handle) (t' : HdlTable) : Prop where
  core : ∀ i, t'.core i = if i ∈ is ∧ t.purged owner i then none else t.core i
  objs : t'.objs = t.objs
  freed : t'.freed = t.freed ++ t.purgedObjs owner is
  registered : ∀ chain, Registered t chain →
    Registered t' (fun type => (chain type).filter (fun i => ¬ (i ∈ is ∧ t.purged owner i)))

variable {t t' : HdlTable} {owner : ℤ} {i : Handle} {is : List Handle}

lemma Purged.nil (t : HdlTable) (owner : ℤ) : Purged t owner [] t :=
  ⟨by simp, rfl, by simp [HdlTable.purgedObjs], by simp⟩

lemma Purged.of_spared (h : t.purged owner i = false) : Purged t owner [i] t := by
  refine ⟨?_, rfl, by simp [HdlTable.purgedObjs, h], ?_⟩
  · intro j
    by_cases hj : j = i <;> simp [hj, h]
  · intro chain hreg
    convert hreg using 2 with type
    rw [List.filter_eq_self]
    intro j _
    by_cases hj : j = i <;> simp [hj, h]

/-- A purge of handles `is` does not touch the others. -/
lemma Purged.append {u v : HdlTable} {js : List Handle} (h : Purged t owner is u)
    (h' : Purged u owner js v) (hdisjoint : is.Disjoint js) : Purged t owner (is ++ js) v := by
  have hkeep : ∀ j ∉ is, u.core j = t.core j := fun j hj => by rw [h.core, if_neg (fun hp => hj hp.1)]
  have hpurged : ∀ j ∉ is, u.purged owner j = t.purged owner j := fun j hj => by
    rw [HdlTable.purged, hkeep j hj, HdlTable.purged]
  have hobj : ∀ j ∉ is, u.obj j = t.obj j := fun j hj => by
    simp only [HdlTable.obj, HdlTable.kind_eq_map_core, hkeep j hj]
  have hnot : ∀ j ∈ js, j ∉ is := fun j hj hj' => hdisjoint hj' hj
  refine ⟨?_, h'.objs.trans h.objs, ?_, ?_⟩
  · intro j
    rw [h'.core]
    by_cases hj : j ∈ is
    · have hjs : j ∉ js := fun hj' => hdisjoint hj hj'
      simp [hj, hjs, h.core]
    · simp [hj, hkeep j hj, hpurged j hj]
  · have hobjs : u.purgedObjs owner js = t.purgedObjs owner js := by
      unfold HdlTable.purgedObjs
      rw [List.filter_congr (fun j hj => hpurged j (hnot j hj))]
      exact List.map_congr_left (fun j hj => hobj j (hnot j (List.mem_of_mem_filter hj)))
    rw [h'.freed, h.freed, hobjs, List.append_assoc]
    simp [HdlTable.purgedObjs]
  · intro chain hreg
    have hreg' := h'.registered _ (h.registered chain hreg)
    simp only [List.filter_filter] at hreg'
    convert hreg' using 3 with type
    funext j
    by_cases hj : j ∈ is
    · have hjs : j ∉ js := fun hj' => hdisjoint hj hj'
      simp [hj, hjs]
    · simp [hj, hpurged j hj]

lemma exists_purged_singleton {chain : HdlType → List Handle} (hreg : Registered t chain) (owner : ℤ)
    (i : Handle) : ∃ t', purgeSlot owner t i = some t' ∧ Purged t owner [i] t' := by
  cases hslot : t.slot i with
  | header h =>
    have hi : t.header i = some h := by simp [HdlTable.header, hslot, Slot.toHeader]
    have hcore : t.core i = some h.core := by simp [HdlTable.core, hi]
    by_cases hpurged : h.owner = owner ∧ h.share = 0
    · have hmagic : h.magic = h.type.magic := hreg.magic i h.kind (by simp [HdlTable.kind, hi])
      have hlookup : lookup t i h.type = .ok h := lookup_eq_ok.mpr ⟨hi, rfl, hmagic⟩
      obtain ⟨t', ht', hreleased⟩ := hreg.free_ok hi
      have hone : t.purged owner i = true := by
        simp [HdlTable.purged, hcore, Header.purged, Header.core, hpurged]
      refine ⟨t', by simp [purgeSlot, hslot, hpurged, lgHdlFree, hlookup, ht'], ?_, hreleased.objs, ?_, ?_⟩
      · intro j
        rw [hreleased.core]
        by_cases hj : j = i <;> simp [hj, hone]
      · rw [hreleased.freed]
        simp [HdlTable.purgedObjs, hone, HdlTable.obj, HdlTable.kind_of_core hcore, Header.kind]
      · intro chain hreg
        convert hreg.free hcore hreleased using 3 with type
        funext j
        by_cases hj : j = i <;> simp [hj, hone]
    · have hnone : t.purged owner i = false := by
        simpa [HdlTable.purged, hcore, Header.purged, Header.core] using hpurged
      exact ⟨t, by simp [purgeSlot, hslot, hpurged], .of_spared hnone⟩
  | _ =>
    refine ⟨t, by simp [purgeSlot, hslot], .of_spared ?_⟩
    simp [HdlTable.purged, HdlTable.core, HdlTable.header, hslot, Slot.toHeader]

lemma exists_purged {chain : HdlType → List Handle} (hreg : Registered t chain) (owner : ℤ)
    (his : is.Nodup) : ∃ t', is.foldlM (purgeSlot owner) t = some t' ∧ Purged t owner is t' := by
  induction is generalizing t chain with
  | nil => exact ⟨t, rfl, .nil t owner⟩
  | cons i is ih =>
    obtain ⟨hi, his⟩ := List.nodup_cons.mp his
    obtain ⟨u, hu, hpurged⟩ := exists_purged_singleton hreg owner i
    obtain ⟨v, hv, hpurged'⟩ := ih (hpurged.registered chain hreg) his
    refine ⟨v, by simp [hu, hv], ?_⟩
    exact hpurged.append hpurged' (by simpa using hi)

end Purge

end Lg
