import Mathlib.Data.List.Infix

/-!
# Code with labels

A program is a list of lines, each a label or an instruction. Its code is the list of its
instructions, and a label stands for the number of instructions before its first line. Control
in the program is the list of the lines that are left, control in the code a number: both name
the same instructions, so that a jump to a label is a jump to the number it stands for.
-/

namespace Labels

variable {L I : Type*}

inductive Line (L I : Type*)
  | label (l : L)
  | instr (i : I)

/-- The instructions of a program. -/
def code : List (Line L I) → List I
  | [] => []
  | .label _ :: p => code p
  | .instr i :: p => i :: code p

/-- The next instruction and the lines after it. -/
def next : List (Line L I) → Option (I × List (Line L I))
  | [] => none
  | .label _ :: p => next p
  | .instr i :: p => some (i, p)

/-- The labels of a program, in order. -/
def labels : List (Line L I) → List L
  | [] => []
  | .label l :: p => l :: labels p
  | .instr _ :: p => labels p

/-- The lines after the first `n` instructions. -/
def after : ℕ → List (Line L I) → List (Line L I)
  | 0, p => p
  | _ + 1, [] => []
  | n + 1, .label _ :: p => after (n + 1) p
  | n + 1, .instr _ :: p => after n p

/-- The number of instructions before the lines `q`, which are the last ones of `p`. -/
def address (p q : List (Line L I)) : ℕ := (code p).length - (code q).length

@[simp] lemma code_append (p q : List (Line L I)) : code (p ++ q) = code p ++ code q := by
  induction p with
  | nil => rfl
  | cons line p ih => cases line <;> simp [code, ih]

@[simp] lemma labels_append (p q : List (Line L I)) : labels (p ++ q) = labels p ++ labels q := by
  induction p with
  | nil => rfl
  | cons line p ih => cases line <;> simp [labels, ih]

lemma next_eq_none {p : List (Line L I)} : next p = none ↔ code p = [] := by
  induction p with
  | nil => simp [next, code]
  | cons line p ih =>
    cases line with
    | label l => simpa [next, code] using ih
    | instr i => simp [next, code]

lemma code_of_next {p q : List (Line L I)} {i : I} (h : next p = some (i, q)) : code p = i :: code q := by
  induction p with
  | nil => cases h
  | cons line p ih =>
    cases line with
    | label l => exact ih h
    | instr j =>
      cases h
      rfl

/-- The instructions after the first `n` ones. -/
theorem code_after (n : ℕ) (p : List (Line L I)) : code (after n p) = (code p).drop n := by
  induction p generalizing n with
  | nil => cases n <;> rfl
  | cons line p ih =>
    cases n with
    | zero => rfl
    | succ n =>
      cases line with
      | label l => rw [after, ih, code]
      | instr i => rw [after, ih, code, List.drop_succ_cons]

/-- The labels with the numbers that they stand for, after `n` instructions. -/
def table : ℕ → List (Line L I) → List (L × ℕ)
  | _, [] => []
  | n, .label l :: p => (l, n) :: table n p
  | n, .instr _ :: p => table (n + 1) p

lemma table_append (n : ℕ) (p q : List (Line L I)) :
    table n (p ++ q) = table n p ++ table (n + (code p).length) q := by
  induction p generalizing n with
  | nil => rfl
  | cons line p ih =>
    cases line with
    | label l => simp [table, code, ih]
    | instr i => simp [table, code, ih, Nat.add_assoc, Nat.add_comm 1]

lemma map_fst_table (n : ℕ) (p : List (Line L I)) : (table n p).map Prod.fst = labels p := by
  induction p generalizing n with
  | nil => rfl
  | cons line p ih => cases line <;> simp [table, labels, ih]

section Target

variable [DecidableEq L]

/-- The lines after the first line with the label `l`. -/
def target (l : L) : List (Line L I) → Option (List (Line L I))
  | [] => none
  | .label m :: p => if m = l then some p else target l p
  | .instr _ :: p => target l p

lemma target_isSome_iff {l : L} {p : List (Line L I)} : (target l p).isSome ↔ l ∈ labels p := by
  induction p with
  | nil => simp [target, labels]
  | cons line p ih =>
    cases line with
    | label m =>
      by_cases hm : m = l
      · simp [target, labels, hm]
      · simp [target, labels, hm, ih, Ne.symm hm]
    | instr i => simpa [target, labels] using ih

/-- A label stands for the number of the instruction after its first line. -/
theorem find_table {l : L} {p q : List (Line L I)} (h : target l p = some q) (n : ℕ) :
    ∃ k, (table n p).find? (fun r => r.1 = l) = some (l, n + k) ∧ k ≤ (code p).length ∧
      code q = (code p).drop k := by
  induction p generalizing n with
  | nil => cases h
  | cons line p ih =>
    cases line with
    | label m =>
      by_cases hm : m = l
      · obtain rfl : p = q := by simpa [target, hm] using h
        exact ⟨0, by simp [table, hm], Nat.zero_le _, by simp [code]⟩
      · obtain ⟨k, hk, hle, hq⟩ := ih (by simpa [target, hm] using h) n
        exact ⟨k, by simpa [table, hm] using hk, hle, hq⟩
    | instr i =>
      obtain ⟨k, hk, hle, hq⟩ := ih h (n + 1)
      refine ⟨k + 1, ?_, Nat.succ_le_succ hle, by simpa [code] using hq⟩
      rw [table, hk]
      simp [Nat.add_comm, Nat.add_left_comm]

lemma find_table_eq_none {l : L} {p : List (Line L I)} (h : target l p = none) (n : ℕ) :
    (table n p).find? (fun r => r.1 = l) = none := by
  induction p generalizing n with
  | nil => rfl
  | cons line p ih =>
    cases line with
    | label m =>
      by_cases hm : m = l
      · simp [target, hm] at h
      · simpa [table, hm] using ih (by simpa [target, hm] using h) n
    | instr i => exact ih h (n + 1)

end Target

end Labels
