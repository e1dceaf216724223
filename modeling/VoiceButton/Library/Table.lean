import Mathlib.Data.List.Basic

/-!
# Tables of objects

Objects that a program makes while it runs, such as events, threads and processes, stand
in a list in the order in which they were made and are named by their position. A table
grows at its end and changes one object at a time.
-/

namespace Table

variable {α β : Type*}

lemma getElem?_concat_eq_some {l : List α} {a b : α} {i : ℕ} :
    (l ++ [a])[i]? = some b ↔ l[i]? = some b ∨ (i = l.length ∧ b = a) := by
  rcases Nat.lt_trichotomy i l.length with h | h | h
  · simp [List.getElem?_append_left h, Nat.ne_of_lt h]
  · subst h
    simp [eq_comm]
  · have hnone : l[i]? = none := List.getElem?_eq_none (Nat.le_of_lt h)
    have hnone' : (l ++ [a])[i]? = none := List.getElem?_eq_none (by simp; omega)
    simp [hnone, hnone', Nat.ne_of_gt h]

lemma getElem?_concat_of_eq_some {l : List α} {a b : α} {i : ℕ} (h : l[i]? = some b) :
    (l ++ [a])[i]? = some b :=
  getElem?_concat_eq_some.mpr (Or.inl h)

lemma getElem?_modify_eq_some {l : List α} {f : α → α} {i j : ℕ} {b : α} :
    (l.modify i f)[j]? = some b ↔ ∃ a, l[j]? = some a ∧ b = if i = j then f a else a := by
  rw [List.getElem?_modify]
  cases l[j]? <;> simp [eq_comm]

lemma getElem?_modify_self {l : List α} {f : α → α} {i : ℕ} {a : α} (h : l[i]? = some a) :
    (l.modify i f)[i]? = some (f a) := by
  simp [h]

lemma map_modify_of_comm {l : List α} {f : α → α} {g : β → β} {abs : α → β} {i : ℕ}
    (h : ∀ a, l[i]? = some a → abs (f a) = g (abs a)) :
    (l.modify i f).map abs = (l.map abs).modify i g := by
  apply List.ext_getElem?
  intro j
  rw [List.getElem?_map, List.getElem?_modify, List.getElem?_modify, List.getElem?_map]
  by_cases hij : i = j
  · subst hij
    cases ha : l[i]? with
    | none => rfl
    | some a => simp [h a ha]
  · cases l[j]? <;> simp [hij]

/-- A change that an abstraction does not see. -/
lemma map_modify_of_eq {l : List α} {f : α → α} {abs : α → β} {i : ℕ}
    (h : ∀ a, l[i]? = some a → abs (f a) = abs a) : (l.modify i f).map abs = l.map abs := by
  rw [map_modify_of_comm (g := id) h]
  exact List.modify_id i _

end Table
