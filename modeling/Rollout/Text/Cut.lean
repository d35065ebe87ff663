/-! Cutting a text at the first or at the last place where a separator stands. Both are pinned down
by what they return: the two sides put back together give the text, and the side that was searched
holds no separator. -/

namespace Rollout.Text

/-- The parts before and after the first separator. -/
def cutFirst (separator : Char) : List Char → Option (List Char × List Char)
  | [] => none
  | c :: rest =>
    if c = separator then some ([], rest)
    else (cutFirst separator rest).map fun (before, after) => (c :: before, after)

/-- The parts before and after the last separator. -/
def cutLast (separator : Char) : List Char → Option (List Char × List Char)
  | [] => none
  | c :: rest =>
    match cutLast separator rest with
    | some (before, after) => some (c :: before, after)
    | none => if c = separator then some ([], rest) else none

/-- The parts between all separators, of which there is one more than there are separators. -/
def parts (separator : Char) : List Char → List (List Char)
  | [] => [[]]
  | c :: rest =>
    if c = separator then [] :: parts separator rest
    else
      match parts separator rest with
      | part :: others => (c :: part) :: others
      | [] => [[c]]

theorem cutFirst_eq_none_iff {sep : Char} {s : List Char} : cutFirst sep s = none ↔ sep ∉ s := by
  induction s with
  | nil => simp [cutFirst]
  | cons c rest ih =>
    by_cases h : c = sep
    · simp [cutFirst, h]
    · simp [cutFirst, h, ih, Ne.symm h]

theorem cutFirst_eq_some_iff {sep : Char} {s before after : List Char} :
    cutFirst sep s = some (before, after) ↔ s = before ++ sep :: after ∧ sep ∉ before := by
  induction s generalizing before with
  | nil => simp [cutFirst]
  | cons c rest ih =>
    by_cases h : c = sep
    · subst h
      cases before with
      | nil => simp [cutFirst, eq_comm]
      | cons b bs =>
        simp only [cutFirst, ↓reduceIte, Option.some.injEq, Prod.mk.injEq, List.cons_append,
          List.cons.injEq, List.mem_cons, not_or]
        refine iff_of_false (by simp) fun ⟨⟨rfl, _⟩, hne, _⟩ => hne rfl
    · cases before with
      | nil => simp [cutFirst, h]
      | cons b bs =>
        simp only [cutFirst, h, if_false, Option.map_eq_some_iff, Prod.exists, Prod.mk.injEq,
          List.cons_append, List.cons.injEq, List.mem_cons, not_or]
        constructor
        · rintro ⟨x, y, hxy, ⟨rfl, rfl⟩, rfl⟩
          obtain ⟨rfl, hx⟩ := ih.1 hxy
          exact ⟨⟨rfl, rfl⟩, Ne.symm h, hx⟩
        · rintro ⟨⟨rfl, rfl⟩, _, hx⟩
          exact ⟨bs, after, ih.2 ⟨rfl, hx⟩, ⟨rfl, rfl⟩, rfl⟩

theorem cutLast_eq_none_iff {sep : Char} {s : List Char} : cutLast sep s = none ↔ sep ∉ s := by
  induction s with
  | nil => simp [cutLast]
  | cons c rest ih =>
    simp only [cutLast, List.mem_cons, not_or]
    split
    · rename_i before after heq
      refine iff_of_false (by simp) fun ⟨_, hrest⟩ => ?_
      rw [ih.2 hrest] at heq
      cases heq
    · rename_i hnone
      by_cases h : c = sep
      · simp [h]
      · simp [h, Ne.symm h, ih.1 hnone]

theorem cutLast_eq_some_iff {sep : Char} {s before after : List Char} :
    cutLast sep s = some (before, after) ↔ s = before ++ sep :: after ∧ sep ∉ after := by
  induction s generalizing before after with
  | nil => simp [cutLast]
  | cons c rest ih =>
    simp only [cutLast]
    split
    · rename_i x y heq
      obtain ⟨rfl, hy⟩ := ih.1 heq
      cases before with
      | nil =>
        refine iff_of_false (by simp) fun ⟨h, hafter⟩ => hafter ?_
        have h : c = sep ∧ x ++ sep :: y = after := by simpa using h
        simp [← h.2]
      | cons b bs =>
        simp only [Option.some.injEq, Prod.mk.injEq, List.cons.injEq, List.cons_append]
        constructor
        · rintro ⟨⟨rfl, rfl⟩, rfl⟩
          exact ⟨⟨rfl, rfl⟩, hy⟩
        · rintro ⟨⟨rfl, h⟩, hafter⟩
          have := ih.2 (⟨h, hafter⟩ : _ = bs ++ sep :: after ∧ _)
          rw [heq] at this
          obtain ⟨rfl, rfl⟩ := Prod.mk.inj (Option.some.inj this)
          exact ⟨⟨rfl, rfl⟩, rfl⟩
    · rename_i hnone
      have hrest := cutLast_eq_none_iff.1 hnone
      by_cases h : c = sep
      · subst h
        cases before with
        | nil =>
          simp only [↓reduceIte, Option.some.injEq, Prod.mk.injEq, true_and, List.nil_append,
            List.cons.injEq]
          exact ⟨fun he => ⟨he, he ▸ hrest⟩, fun he => he.1⟩
        | cons b bs =>
          refine iff_of_false (by simp) fun ⟨he, _⟩ => hrest ?_
          rw [(List.cons.inj he).2]
          simp
      · refine iff_of_false (by simp [h]) fun ⟨he, _⟩ => ?_
        cases before with
        | nil => exact h (List.cons.inj he).1
        | cons b bs =>
          refine hrest ?_
          rw [(List.cons.inj he).2]
          simp

end Rollout.Text
