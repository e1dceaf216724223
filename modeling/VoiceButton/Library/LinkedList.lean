import Mathlib.Data.List.Nodup
import Mathlib.Logic.Function.Basic

/-!
# Doubly linked lists in a store

Nodes of an arbitrary type carry the links of the lists that they are in, and a list is given
by its two ends. `Linked` says that following the links visits exactly the nodes of a Lean
list, in order. A node is put at the end of a list and taken out of its middle by writing a
constant number of links, and both leave the lists of other nodes as they were.
-/

namespace LinkedList

variable {ι : Type*}

structure Links (ι : Type*) where
  next : ι → Option ι
  previous : ι → Option ι

structure Ends (ι : Type*) where
  first : Option ι
  last : Option ι

/-- The nodes `l`, from the first to the last. -/
structure Linked (k : Links ι) (e : Ends ι) (l : List ι) : Prop where
  nodup : l.Nodup
  first : e.first = l.head?
  last : e.last = l.getLast?
  links : ∀ xs i ys, l = xs ++ i :: ys → k.previous i = xs.getLast? ∧ k.next i = ys.head?

/-- The list depends only on the links of its own nodes. -/
lemma Linked.congr {k k' : Links ι} {e : Ends ι} {l : List ι} (h : Linked k e l)
    (hk : ∀ i ∈ l, k'.next i = k.next i ∧ k'.previous i = k.previous i) : Linked k' e l := by
  refine ⟨h.nodup, h.first, h.last, ?_⟩
  intro xs i ys hl
  obtain ⟨hnext, hprevious⟩ := hk i (by simp [hl])
  rw [hnext, hprevious]
  exact h.links xs i ys hl

lemma Linked.nil (k : Links ι) : Linked k ⟨none, none⟩ [] :=
  ⟨List.nodup_nil, rfl, rfl, by simp⟩

section Walk

/-- Follow the links from `i` until a node has no next one. `deref` fails on what is no node,
and more than `fuel` nodes are not visited. -/
def walk (deref : ι → Option (Option ι)) : ℕ → Option ι → Option (List ι)
  | _, none => some []
  | 0, some _ => none
  | fuel + 1, some i => do
    let next ← deref i
    let rest ← walk deref fuel next
    some (i :: rest)

lemma walk_suffix {k : Links ι} {e : Ends ι} {deref : ι → Option (Option ι)} {l xs ys : List ι}
    (h : Linked k e l) (hderef : ∀ i ∈ l, deref i = some (k.next i)) (hl : l = xs ++ ys) {fuel : ℕ}
    (hfuel : ys.length ≤ fuel) : walk deref fuel ys.head? = some ys := by
  induction ys generalizing xs fuel with
  | nil => simp [walk]
  | cons i ys ih =>
    cases fuel with
    | zero => simp at hfuel
    | succ fuel =>
      have hnext := (h.links xs i ys hl).2
      have hl' : l = (xs ++ [i]) ++ ys := by simpa using hl
      have hrest := ih hl' (Nat.le_of_succ_le_succ hfuel)
      rw [List.head?_cons, walk, hderef i (by simp [hl]), hnext]
      simp [hrest]

/-- Following the links from the first node visits the list. -/
theorem Linked.walk_eq {k : Links ι} {e : Ends ι} {deref : ι → Option (Option ι)} {l : List ι}
    (h : Linked k e l) (hderef : ∀ i ∈ l, deref i = some (k.next i)) {fuel : ℕ}
    (hfuel : l.length ≤ fuel) : walk deref fuel e.first = some l := by
  rw [h.first]
  exact walk_suffix h hderef (List.nil_append l).symm hfuel

end Walk

section Splits

/-- Where a node of a list that was extended at its end stands. -/
lemma concat_eq_append_cons {l xs ys : List ι} {i j : ι} (h : l ++ [i] = xs ++ j :: ys) :
    (xs = l ∧ j = i ∧ ys = []) ∨ ∃ zs, ys = zs ++ [i] ∧ l = xs ++ j :: zs := by
  rcases List.eq_nil_or_concat' ys with rfl | ⟨zs, m, rfl⟩
  · obtain ⟨rfl, hij⟩ := List.append_inj' h rfl
    exact Or.inl ⟨rfl, by simpa using hij.symm, rfl⟩
  · rw [← List.cons_append, ← List.append_assoc] at h
    obtain ⟨rfl, him⟩ := List.append_inj' h rfl
    exact Or.inr ⟨zs, by simpa using him.symm, rfl⟩

/-- In a list without repetitions the parts before and after a node do not have it. -/
lemma not_mem_of_nodup {xs ys : List ι} {i : ι} (h : (xs ++ i :: ys).Nodup) : i ∉ xs ∧ i ∉ ys := by
  rw [List.nodup_middle, List.nodup_cons, List.mem_append, not_or] at h
  exact h.1

lemma filter_ne_split [DecidableEq ι] {xs ys : List ι} {i : ι} (hxs : i ∉ xs) (hys : i ∉ ys) :
    (xs ++ i :: ys).filter (· ≠ i) = xs ++ ys := by
  have hkeep : ∀ zs : List ι, i ∉ zs → zs.filter (· ≠ i) = zs := by
    intro zs hzs
    rw [List.filter_eq_self]
    intro j hj
    simpa using ne_of_mem_of_not_mem hj hzs
  rw [List.filter_append, List.filter_cons_of_neg (by simp), hkeep xs hxs, hkeep ys hys]

/-- The neighbours of a node of the list are in the list. -/
lemma Linked.mem_of_previous {k : Links ι} {e : Ends ι} {l : List ι} {i p : ι} (h : Linked k e l)
    (hi : i ∈ l) (hp : k.previous i = some p) : p ∈ l := by
  obtain ⟨xs, ys, rfl⟩ := List.append_of_mem hi
  rw [(h.links xs i ys rfl).1] at hp
  exact List.mem_append_left _ (List.mem_of_getLast? hp)

lemma Linked.mem_of_next {k : Links ι} {e : Ends ι} {l : List ι} {i n : ι} (h : Linked k e l)
    (hi : i ∈ l) (hn : k.next i = some n) : n ∈ l := by
  obtain ⟨xs, ys, rfl⟩ := List.append_of_mem hi
  rw [(h.links xs i ys rfl).2] at hn
  exact List.mem_append_right _ (List.mem_cons_of_mem _ (List.mem_of_head? hn))

end Splits

section Operations

variable [DecidableEq ι]

open Function (update)

/-- Put the node `i` at the end. -/
def Links.append (k : Links ι) (last : Option ι) (i : ι) : Links ι where
  next :=
    match last with
    | some j => update (update k.next i none) j (some i)
    | none => update k.next i none
  previous := update k.previous i last

def Ends.append (e : Ends ι) (i : ι) : Ends ι :=
  match e.last with
  | some _ => { e with last := some i }
  | none => ⟨some i, some i⟩

/-- Take the node `i` out. -/
def Links.unlink (k : Links ι) (i : ι) : Links ι where
  next :=
    match k.previous i with
    | some p => update k.next p (k.next i)
    | none => k.next
  previous :=
    match k.next i with
    | some n => update k.previous n (k.previous i)
    | none => k.previous

def Ends.unlink (e : Ends ι) (k : Links ι) (i : ι) : Ends ι where
  first :=
    match k.previous i with
    | some _ => e.first
    | none => k.next i
  last :=
    match k.next i with
    | some _ => e.last
    | none => k.previous i

variable {k : Links ι} {e : Ends ι} {l : List ι} {i j : ι}

lemma append_next_of_ne {last : Option ι} (hi : j ≠ i) (hlast : last ≠ some j) :
    (k.append last i).next j = k.next j := by
  cases last with
  | none => simp [Links.append, hi]
  | some m =>
    have hjm : j ≠ m := fun h => hlast (by rw [h])
    simp [Links.append, hi, hjm]

lemma append_previous_of_ne {last : Option ι} (hi : j ≠ i) :
    (k.append last i).previous j = k.previous j := by
  simp [Links.append, hi]

theorem Linked.append (h : Linked k e l) (hi : i ∉ l) :
    Linked (k.append e.last i) (e.append i) (l ++ [i]) := by
  have hlast := h.last
  refine ⟨?_, ?_, ?_, ?_⟩
  · rw [← List.concat_eq_append]
    exact h.nodup.concat hi
  · cases l with
    | nil => simp [Ends.append, hlast]
    | cons a l =>
      obtain ⟨m, hm⟩ : ∃ m, e.last = some m := ⟨_, hlast.trans List.getLast?_cons⟩
      simp [Ends.append, hm, h.first]
  · cases hl : e.last <;> simp [Ends.append, hl]
  · intro xs j ys hsplit
    rcases concat_eq_append_cons hsplit with ⟨rfl, rfl, rfl⟩ | ⟨zs, rfl, hl⟩
    · -- the new node
      refine ⟨by simp [Links.append, hlast], ?_⟩
      cases hm : e.last with
      | none => simp [Links.append]
      | some m =>
        have hjm : j ≠ m := by
          rintro rfl
          exact hi (List.mem_of_getLast? (hlast ▸ hm))
        simp [Links.append, hjm]
    · have hji : j ≠ i := by
        rintro rfl
        exact hi (by simp [hl])
      obtain ⟨hprevious, hnext⟩ := h.links xs j zs hl
      rw [append_previous_of_ne hji]
      refine ⟨hprevious, ?_⟩
      cases zs with
      | nil =>
        -- the node that was the last
        have hj : e.last = some j := by rw [hlast, hl]; simp
        simp [Links.append, hj]
      | cons a zs =>
        have hj : e.last ≠ some j := by
          intro hj
          rw [hlast, hl] at hj
          have hmem : j ∈ a :: zs := List.mem_of_getLast? (by simpa using hj)
          exact (not_mem_of_nodup (hl ▸ h.nodup)).2 hmem
        rw [append_next_of_ne hji hj, hnext]
        rfl

lemma unlink_next_of_ne (h : k.previous i ≠ some j) : (k.unlink i).next j = k.next j := by
  cases hp : k.previous i with
  | none => simp [Links.unlink, hp]
  | some p =>
    have hjp : j ≠ p := fun hj => h (by rw [hp, hj])
    simp [Links.unlink, hp, hjp]

lemma unlink_previous_of_ne (h : k.next i ≠ some j) : (k.unlink i).previous j = k.previous j := by
  cases hn : k.next i with
  | none => simp [Links.unlink, hn]
  | some n =>
    have hjn : j ≠ n := fun hj => h (by rw [hn, hj])
    simp [Links.unlink, hn, hjn]

theorem Linked.unlink {as bs : List ι} (h : Linked k e (as ++ i :: bs)) :
    Linked (k.unlink i) (e.unlink k i) (as ++ bs) := by
  obtain ⟨hprevious, hnext⟩ := h.links as i bs rfl
  have hnodup := (List.nodup_cons.mp (List.nodup_middle.mp h.nodup)).2
  have hdisjoint : ∀ j ∈ as, j ∉ bs := fun j ha hb => (List.nodup_append.mp hnodup).2.2 j ha j hb rfl
  refine ⟨hnodup, ?_, ?_, ?_⟩
  · have hfirst := h.first
    cases as with
    | nil => simpa [Ends.unlink, hprevious] using hnext
    | cons a as => simpa [Ends.unlink, hprevious, List.getLast?_cons] using hfirst
  · have hlast := h.last
    cases bs with
    | nil => simpa [Ends.unlink, hnext] using hprevious
    | cons b bs => simpa [Ends.unlink, hnext, List.getLast?_append] using hlast
  · intro xs j ys hsplit
    rcases List.append_eq_append_iff.mp hsplit with ⟨zs, rfl, rfl⟩ | ⟨zs, rfl, hys⟩
    · -- a node after `i`
      obtain ⟨hprevious', hnext'⟩ := h.links (as ++ i :: zs) j ys (by simp)
      constructor
      · cases zs with
        | nil => simpa [Links.unlink, hnext] using hprevious
        | cons z zs =>
          have hzj : k.next i ≠ some j := by
            rw [hnext]
            rintro ⟨⟩
            have hsplit' : ((as ++ j :: zs) ++ j :: ys).Nodup := by simpa using hnodup
            exact (not_mem_of_nodup hsplit').1 (by simp)
          rw [unlink_previous_of_ne hzj, hprevious']
          simp [List.getLast?_append, List.getLast?_cons]
      · have hpj : k.previous i ≠ some j := by
          rw [hprevious]
          intro hj
          exact hdisjoint j (List.mem_of_getLast? hj) (by simp)
        rw [unlink_next_of_ne hpj, hnext']
    · cases zs with
      | nil =>
        -- the node after `i`
        obtain rfl : bs = j :: ys := by simpa using hys.symm
        obtain ⟨hprevious', hnext'⟩ := h.links (xs ++ [i]) j ys (by simp)
        constructor
        · simpa [Links.unlink, hnext] using hprevious
        · have hpj : k.previous i ≠ some j := by
            rw [hprevious]
            intro hj
            exact hdisjoint j (List.mem_of_getLast? hj) (by simp)
          rw [unlink_next_of_ne hpj, hnext']
      | cons z zs =>
        -- a node before `i`
        obtain ⟨rfl, rfl⟩ : j = z ∧ ys = zs ++ bs := by simpa using hys
        obtain ⟨hprevious', hnext'⟩ := h.links xs j (zs ++ i :: bs) (by simp)
        constructor
        · have hnj : k.next i ≠ some j := by
            rw [hnext]
            intro hj
            exact hdisjoint j (by simp) (List.mem_of_head? hj)
          rw [unlink_previous_of_ne hnj, hprevious']
        · cases zs with
          | nil =>
            have hj : k.previous i = some j := by rw [hprevious]; simp
            simpa [Links.unlink, hj] using hnext
          | cons a zs =>
            have hpj : k.previous i ≠ some j := by
              rw [hprevious]
              intro hj
              have hmem : j ∈ a :: zs := List.mem_of_getLast? (by simpa using hj)
              have hsplit' : (xs ++ j :: (a :: zs ++ bs)).Nodup := by simpa using hnodup
              exact (not_mem_of_nodup hsplit').2 (List.mem_append_left _ hmem)
            rw [unlink_next_of_ne hpj, hnext']
            rfl

/-- A list of other nodes is as it was when `i` was put at the end of the list `l`. -/
lemma Linked.append_other {e' : Ends ι} {l' : List ι} (h' : Linked k e' l') (h : Linked k e l)
    (hi : i ∉ l') (hdisjoint : l.Disjoint l') : Linked (k.append e.last i) e' l' := by
  refine h'.congr ?_
  intro j hj
  have hji : j ≠ i := by
    rintro rfl
    exact hi hj
  have hlast : e.last ≠ some j := by
    rw [h.last]
    exact fun hl => hdisjoint (List.mem_of_getLast? hl) hj
  exact ⟨append_next_of_ne hji hlast, append_previous_of_ne hji⟩

/-- A list of other nodes is as it was when `i` was taken out of the list `l`. -/
lemma Linked.unlink_other {e' : Ends ι} {l' : List ι} (h' : Linked k e' l') (h : Linked k e l)
    (hi : i ∈ l) (hdisjoint : l.Disjoint l') : Linked (k.unlink i) e' l' := by
  refine h'.congr ?_
  intro j hj
  have hp : k.previous i ≠ some j := fun hp => hdisjoint (h.mem_of_previous hi hp) hj
  have hn : k.next i ≠ some j := fun hn => hdisjoint (h.mem_of_next hi hn) hj
  exact ⟨unlink_next_of_ne hp, unlink_previous_of_ne hn⟩

end Operations

end LinkedList
