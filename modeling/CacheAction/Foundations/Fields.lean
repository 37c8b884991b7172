import Mathlib.Data.List.Basic
import Mathlib.Data.List.Forall2

/-!
# The fields of a separated list

`fields sep xs` are the non-empty pieces between the occurrences of `sep`.
Joining pieces with the separator and reading the fields of the result gives the
fields of the pieces, one after the other (`fields_intercalate`).  A piece
without the separator is its own field; a piece with the separator is either cut
into several fields or loses its trailing separators
(`eq_append_replicate_of_fields`).

`forall₂_of_flatMap` counts: a list that is cut into as many pieces as it has
elements, each of them having at least one, is cut into one piece an element.
-/

namespace CacheAction

universe u v w

/-! ## Counting pieces -/

section Counting

variable {α : Type u} {β : Type v} {γ : Type w} {pieces : α → List β}

/-- What two matched lists say of the elements of the first. -/
theorem forall_of_forall₂ {p : α → Prop} {xs : List α} {ys : List β}
    (matched : List.Forall₂ (fun x _ => p x) xs ys) : ∀ x ∈ xs, p x := by
  have both : List.Forall₂ (fun x _ => p x ∧ True) xs ys :=
    matched.imp fun _ _ holds => ⟨holds, trivial⟩
  exact ((List.forall₂_and_left xs ys).mp both).1

theorem length_le_flatMap {xs : List α} (nonempty : ∀ x ∈ xs, pieces x ≠ []) :
    xs.length ≤ (xs.flatMap pieces).length := by
  induction xs with
  | nil => exact Nat.zero_le _
  | cons x rest ih =>
      obtain ⟨first, others⟩ := List.forall_mem_cons.mp nonempty
      have := List.length_pos_iff.mpr first
      have := ih others
      rw [List.flatMap_cons, List.length_append, List.length_cons]
      omega

/-- When every element has a piece and there are as many pieces as elements, each
element has one piece. -/
theorem forall₂_of_flatMap {r : β → γ → Prop} {xs : List α} {ys : List γ}
    (length : xs.length = ys.length) (nonempty : ∀ x ∈ xs, pieces x ≠ [])
    (matched : List.Forall₂ r (xs.flatMap pieces) ys) :
    List.Forall₂ (fun x y => ∃ piece, pieces x = [piece] ∧ r piece y) xs ys := by
  induction xs generalizing ys with
  | nil =>
      obtain rfl := List.length_eq_zero_iff.mp length.symm
      exact .nil
  | cons x rest ih =>
      obtain ⟨first, others⟩ := List.forall_mem_cons.mp nonempty
      obtain ⟨piece, more, cut⟩ := List.exists_cons_of_ne_nil first
      rw [List.flatMap_cons, cut, List.cons_append] at matched
      rcases matched with _ | @⟨_, y, _, ys, hpiece, matched⟩
      have total := matched.length_eq
      have enough := length_le_flatMap others
      rw [List.length_append] at total
      rw [List.length_cons, List.length_cons] at length
      have none_more : more = [] := List.length_eq_zero_iff.mp (by omega)
      rw [none_more, List.nil_append] at matched
      rw [none_more] at cut
      exact .cons ⟨piece, cut, hpiece⟩ (ih (by omega) others matched)

end Counting

/-! ## Fields -/

section Fields

variable {α : Type u} [BEq α] [LawfulBEq α]

/-- The non-empty pieces between the separators. -/
def fields (sep : α) (xs : List α) : List (List α) :=
  (xs.splitOn sep).filter (!·.isEmpty)

variable {sep : α}

omit [LawfulBEq α] in
@[simp] theorem fields_nil : fields sep ([] : List α) = [] := rfl

/-- A separator separates. -/
theorem fields_append_cons (xs ys : List α) :
    fields sep (xs ++ sep :: ys) = fields sep xs ++ fields sep ys := by
  rw [fields, List.splitOn_append_cons_self, List.filter_append]
  rfl

/-- The fields of joined pieces are those of the pieces. -/
theorem fields_intercalate (pieces : List (List α)) :
    fields sep ([sep].intercalate pieces) = pieces.flatMap (fields sep) := by
  induction pieces with
  | nil => rfl
  | cons piece rest ih =>
      rcases rest with _ | ⟨next, rest⟩
      · simp
      · rw [List.intercalate_cons_cons, List.append_assoc, List.singleton_append,
          fields_append_cons, ih]
        rfl

/-- A non-empty piece without the separator is its own field. -/
theorem fields_eq_singleton {xs : List α} (nonempty : xs ≠ []) (absent : sep ∉ xs) :
    fields sep xs = [xs] := by
  rw [fields, List.splitOn_eq_singleton absent]
  simp [nonempty]

/-- No piece contains the separator. -/
theorem notMem_of_mem_splitOn {xs piece : List α} (member : piece ∈ xs.splitOn sep) :
    sep ∉ piece := by
  induction xs generalizing piece with
  | nil =>
      obtain rfl := List.mem_singleton.mp member
      exact List.not_mem_nil
  | cons x rest ih =>
      rw [List.splitOn_cons_eq_if_modifyHead] at member
      split at member
      · rcases List.mem_cons.mp member with rfl | member
        · exact List.not_mem_nil
        · exact ih member
      · rename_i different
        obtain ⟨first, others, split⟩ := List.exists_cons_of_ne_nil (List.splitOn_ne_nil sep rest)
        rw [split, List.modifyHead_cons] at member
        rcases List.mem_cons.mp member with rfl | member
        · refine List.not_mem_cons_of_ne_of_not_mem ?_ (ih (split ▸ List.mem_cons_self))
          rintro rfl
          exact different BEq.rfl
        · exact ih (split ▸ List.mem_cons_of_mem _ member)

/-- A piece that does not start with the separator starts with a field. -/
theorem exists_fields_cons {a : α} (xs : List α) (start : a ≠ sep) :
    ∃ field others, (a :: xs).splitOn sep = field :: others ∧
      fields sep (a :: xs) = field :: others.filter (!·.isEmpty) := by
  obtain ⟨first, others, split⟩ := List.exists_cons_of_ne_nil (List.splitOn_ne_nil sep xs)
  refine ⟨a :: first, others, ?_, ?_⟩
  · rw [List.splitOn_cons_eq_if_modifyHead, split]
    simp [start]
  · rw [fields, List.splitOn_cons_eq_if_modifyHead, split]
    simp [start]

omit [LawfulBEq α] [BEq α] in
theorem intercalate_replicate_nil (field : List α) (n : ℕ) :
    [sep].intercalate (field :: List.replicate n []) = field ++ List.replicate n sep := by
  induction n generalizing field with
  | zero => simp
  | succ n ih =>
      rw [List.replicate_succ, List.intercalate_cons_cons, ih, List.replicate_succ,
        List.append_assoc]
      rfl

/-- A piece with a single field is that field, up to trailing separators. -/
theorem eq_append_replicate_of_fields {a : α} {xs field : List α} (start : a ≠ sep)
    (single : fields sep (a :: xs) = [field]) :
    ∃ n, a :: xs = field ++ List.replicate n sep ∧ sep ∉ field := by
  obtain ⟨first, others, split, hfields⟩ := exists_fields_cons xs start
  rw [single] at hfields
  obtain ⟨rfl, empty⟩ := List.cons.inj hfields
  have all_empty : others = List.replicate others.length [] := by
    refine List.eq_replicate_iff.mpr ⟨rfl, fun other member => ?_⟩
    have := List.filter_eq_nil_iff.mp empty.symm other member
    simpa using this
  have piece : field ∈ (a :: xs).splitOn sep := by
    rw [split]
    exact List.mem_cons_self
  refine ⟨others.length, ?_, notMem_of_mem_splitOn piece⟩
  calc a :: xs = [sep].intercalate ((a :: xs).splitOn sep) := (List.intercalate_splitOn sep).symm
    _ = [sep].intercalate (field :: List.replicate others.length []) := by
        rw [split, ← all_empty]
    _ = field ++ List.replicate others.length sep := intercalate_replicate_nil field _

end Fields

end CacheAction
