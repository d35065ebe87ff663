/-! The elements of a list in ascending order: the distinct ones, or all. -/

namespace Rollout

universe u

variable {α : Type u} [Ord α]

/-- Puts an element into its place, unless it is there. -/
def insertDistinct (a : α) : List α → List α
  | [] => [a]
  | b :: rest =>
    match compare a b with
    | .lt => a :: b :: rest
    | .eq => b :: rest
    | .gt => b :: insertDistinct a rest

def ascending (xs : List α) : List α := xs.foldr insertDistinct []

theorem mem_insertDistinct [Std.LawfulEqOrd α] {a b : α} {xs : List α} :
    b ∈ insertDistinct a xs ↔ b = a ∨ b ∈ xs := by
  induction xs with
  | nil => simp [insertDistinct]
  | cons c rest ih =>
    simp only [insertDistinct]
    split
    · simp
    · rename_i heq
      obtain rfl := Std.LawfulEqOrd.eq_of_compare heq
      simp
    · simp only [List.mem_cons, ih]
      exact or_left_comm

@[simp] theorem mem_ascending [Std.LawfulEqOrd α] {a : α} {xs : List α} :
    a ∈ ascending xs ↔ a ∈ xs := by
  induction xs with
  | nil => simp [ascending]
  | cons b rest ih => simpa [ascending, mem_insertDistinct] using or_congr_right ih

theorem pairwise_insertDistinct [Std.TransOrd α] [Std.LawfulEqOrd α] {a : α} {xs : List α}
    (h : xs.Pairwise (compare · · = .lt)) : (insertDistinct a xs).Pairwise (compare · · = .lt) := by
  induction xs with
  | nil => simp [insertDistinct]
  | cons c rest ih =>
    obtain ⟨hc, hrest⟩ := List.pairwise_cons.1 h
    simp only [insertDistinct]
    split
    · rename_i hlt
      refine List.pairwise_cons.2 ⟨fun b hb => ?_, h⟩
      rcases List.mem_cons.1 hb with rfl | hb
      · exact hlt
      · exact Std.TransCmp.lt_trans hlt (hc b hb)
    · exact h
    · rename_i hgt
      refine List.pairwise_cons.2 ⟨fun b hb => ?_, ih hrest⟩
      rcases mem_insertDistinct.1 hb with rfl | hb
      · exact Std.OrientedCmp.lt_of_gt hgt
      · exact hc b hb

theorem pairwise_ascending [Std.TransOrd α] [Std.LawfulEqOrd α] (xs : List α) :
    (ascending xs).Pairwise (compare · · = .lt) := by
  induction xs with
  | nil => simp [ascending]
  | cons a rest ih => exact pairwise_insertDistinct ih

theorem nodup_of_pairwise_lt [Std.TransOrd α] {xs : List α}
    (h : xs.Pairwise (compare · · = .lt)) : xs.Nodup :=
  h.imp fun hlt heq => by simp [heq] at hlt

/-- The elements fix the list. -/
theorem eq_of_pairwise_lt [Std.TransOrd α] {xs ys : List α} (hxs : xs.Pairwise (compare · · = .lt))
    (hys : ys.Pairwise (compare · · = .lt)) (h : ∀ a, a ∈ xs ↔ a ∈ ys) : xs = ys := by
  have hperm := (List.perm_ext_iff_of_nodup (nodup_of_pairwise_lt hxs)
    (nodup_of_pairwise_lt hys)).2 h
  refine hperm.eq_of_pairwise (fun a b _ _ hab hba => ?_) hxs hys
  exact absurd (Std.TransCmp.lt_trans hab hba) (by simp)

/-! ### With repetitions -/

/-- Puts an element into its place. -/
def insertSorted (a : α) : List α → List α
  | [] => [a]
  | b :: rest => if (compare a b).isLE then a :: b :: rest else b :: insertSorted a rest

def sorted (xs : List α) : List α := xs.foldr insertSorted []

theorem perm_insertSorted (a : α) (xs : List α) : (insertSorted a xs).Perm (a :: xs) := by
  induction xs with
  | nil => exact .refl _
  | cons b rest ih =>
    rw [insertSorted]
    split
    · exact .refl _
    · exact (ih.cons b).trans (.swap a b rest)

theorem perm_sorted (xs : List α) : (sorted xs).Perm xs := by
  induction xs with
  | nil => exact .refl _
  | cons a rest ih => exact (perm_insertSorted a _).trans (ih.cons a)

theorem pairwise_insertSorted [Std.TransOrd α] {a : α} {xs : List α}
    (h : xs.Pairwise fun a b => (compare a b).isLE) :
    (insertSorted a xs).Pairwise fun a b => (compare a b).isLE := by
  induction xs with
  | nil => simp [insertSorted]
  | cons b rest ih =>
    obtain ⟨hb, hrest⟩ := List.pairwise_cons.1 h
    rw [insertSorted]
    split
    · rename_i hle
      refine List.pairwise_cons.2 ⟨fun c hc => ?_, h⟩
      rcases List.mem_cons.1 hc with rfl | hc
      · exact hle
      · exact Std.TransCmp.isLE_trans hle (hb c hc)
    · rename_i hgt
      refine List.pairwise_cons.2 ⟨fun c hc => ?_, ih hrest⟩
      rcases List.mem_cons.1 ((perm_insertSorted a rest).mem_iff.1 hc) with rfl | hc
      · exact Ordering.isLE_of_eq_lt (Std.OrientedCmp.lt_of_not_isLE hgt)
      · exact hb c hc

theorem pairwise_sorted [Std.TransOrd α] (xs : List α) :
    (sorted xs).Pairwise fun a b => (compare a b).isLE := by
  induction xs with
  | nil => simp [sorted]
  | cons a rest ih => exact pairwise_insertSorted ih

/-- Without repetitions the order is strict. -/
theorem pairwise_sorted_of_nodup [Std.TransOrd α] [Std.LawfulEqOrd α] {xs : List α}
    (h : xs.Nodup) : (sorted xs).Pairwise (compare · · = .lt) := by
  have hne := (perm_sorted xs).nodup_iff.2 h
  refine ((pairwise_sorted xs).and hne).imp fun {a b} hab => ?_
  rcases Ordering.isLE_iff_eq_lt_or_eq_eq.1 hab.1 with hlt | heq
  · exact hlt
  · exact absurd (Std.LawfulEqOrd.eq_of_compare heq) hab.2

end Rollout
