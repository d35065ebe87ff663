import Rollout.Coordinate

/-! What tells coordinates apart: the display, where project and id hold no separator, and the
external id as far as the digest does. A text is read as a coordinate just if it is the display of
one of that kind with no part empty, and then as that one. -/

namespace Rollout

namespace Text

theorem hexDigit_inj : ∀ m < 16, ∀ n < 16, hexDigit m = hexDigit n → m = n := by decide

theorem hexByte_inj {a b : UInt8} (h : hexByte a = hexByte b) : a = b := by
  obtain ⟨hhigh, hlow⟩ : hexDigit (a.toNat / 16) = hexDigit (b.toNat / 16) ∧
      hexDigit (a.toNat % 16) = hexDigit (b.toNat % 16) := by simpa [hexByte] using h
  have ha := a.toNat_lt
  have hb := b.toNat_lt
  have hhigh := hexDigit_inj _ (by omega) _ (by omega) hhigh
  have hlow := hexDigit_inj _ (by omega) _ (by omega) hlow
  apply UInt8.toNat_inj.1
  omega

theorem hexBytes_inj {as bs : List UInt8} (h : hexBytes as = hexBytes bs) : as = bs := by
  have hchars : as.flatMap hexByte = bs.flatMap hexByte := String.ofList_injective h
  clear h
  induction as generalizing bs with
  | nil =>
    cases bs with
    | nil => rfl
    | cons b bs => cases hchars
  | cons a as ih =>
    cases bs with
    | nil => cases hchars
    | cons b bs =>
      rw [List.flatMap_cons, List.flatMap_cons] at hchars
      obtain ⟨hbyte, hrest⟩ := List.append_inj hchars rfl
      rw [hexByte_inj hbyte, ih hrest]

/-! ### The parts at the ends of a text -/

def beforeFirst (separator : Char) (s : List Char) : List Char := s.takeWhile (· ≠ separator)

def afterLast (separator : Char) (s : List Char) : List Char :=
  (s.reverse.takeWhile (· ≠ separator)).reverse

/-- What stands between the first separator and the last one. -/
def between (separator : Char) (s : List Char) : List Char :=
  s.extract ((beforeFirst separator s).length + 1)
    (s.length - (afterLast separator s).length - 1)

variable {separator : Char} {before middle after s : List Char}

theorem takeWhile_ne_append (h : separator ∉ before) (rest : List Char) :
    (before ++ separator :: rest).takeWhile (· ≠ separator) = before := by
  have hkept : ∀ c ∈ before, decide (c ≠ separator) = true := by
    intro c hc
    simpa using ne_of_mem_of_not_mem hc h
  rw [List.takeWhile_append_of_pos hkept]
  simp

theorem beforeFirst_append (h : separator ∉ before) (rest : List Char) :
    beforeFirst separator (before ++ separator :: rest) = before :=
  takeWhile_ne_append h rest

theorem afterLast_append (h : separator ∉ after) (rest : List Char) :
    afterLast separator (rest ++ separator :: after) = after := by
  have hreverse : (rest ++ separator :: after).reverse =
      after.reverse ++ separator :: rest.reverse := by simp
  rw [afterLast, hreverse, takeWhile_ne_append (by simpa using h), List.reverse_reverse]

theorem between_append (hbefore : separator ∉ before) (hafter : separator ∉ after) :
    between separator (before ++ separator :: (middle ++ separator :: after)) = middle := by
  have hlast : afterLast separator (before ++ separator :: (middle ++ separator :: after)) =
      after := by
    rw [← List.cons_append, ← List.append_assoc, afterLast_append hafter]
  have hlength : (before ++ separator :: (middle ++ separator :: after)).length - after.length - 1 -
      (before.length + 1) = middle.length := by
    simp only [List.length_append, List.length_cons]
    omega
  have hdrop : (before ++ separator :: (middle ++ separator :: after)).drop (before.length + 1) =
      middle ++ separator :: after := by simp
  rw [between, beforeFirst_append hbefore, hlast, List.extract_eq_take_drop, hlength, hdrop]
  simp

/-- A text with two separators has a first and a last one. -/
theorem exists_split_of_two_le_count (h : 2 ≤ s.count separator) : ∃ before middle after,
    s = before ++ separator :: (middle ++ separator :: after) ∧ separator ∉ before ∧
      separator ∉ after := by
  cases hfirst : cutFirst separator s with
  | none =>
    have hnone := cutFirst_eq_none_iff.1 hfirst
    simp [List.count_eq_zero_of_not_mem hnone] at h
  | some cut =>
    obtain ⟨before, rest⟩ := cut
    obtain ⟨rfl, hbefore⟩ := cutFirst_eq_some_iff.1 hfirst
    cases hlast : cutLast separator rest with
    | none =>
      have hnone := cutLast_eq_none_iff.1 hlast
      simp [List.count_eq_zero_of_not_mem hnone, List.count_eq_zero_of_not_mem hbefore] at h
    | some cut =>
      obtain ⟨middle, after⟩ := cut
      obtain ⟨rfl, hafter⟩ := cutLast_eq_some_iff.1 hlast
      exact ⟨before, middle, after, rfl, hbefore, hafter⟩

end Text

namespace Coordinate

/-- The digest behind the external id. -/
def digest (c : Coordinate) : List UInt8 := Sha256.digest c.display.toUTF8.toList

theorem digest_eq_of_externalId_eq {c d : Coordinate} (h : c.externalId = d.externalId) :
    c.digest = d.digest :=
  Text.hexBytes_inj ((String.append_right_inj externalIdStart).1 h)

/-- The separator stands in the type only. -/
structure IsPlain (c : Coordinate) : Prop where
  project : separator ∉ c.project.toList
  configId : separator ∉ c.configId.toList

theorem toList_display (c : Coordinate) : c.display.toList =
    c.project.toList ++ separator :: (c.configType.toList ++ separator :: c.configId.toList) := by
  simp [display, separator]

theorem count_display (c : Coordinate) : c.display.toList.count separator =
    c.project.toList.count separator + c.configType.toList.count separator +
      c.configId.toList.count separator + 2 := by
  rw [toList_display]
  simp only [List.count_append, List.count_cons_self]
  omega

namespace IsPlain

variable {c d : Coordinate}

/-- The project ends at the first separator. -/
theorem cutFirst_display (h : c.IsPlain) : Text.cutFirst separator c.display.toList =
    some (c.project.toList, c.configType.toList ++ separator :: c.configId.toList) :=
  Text.cutFirst_eq_some_iff.2 ⟨c.toList_display, h.project⟩

/-- The id starts after the last one. -/
theorem cutLast_rest (h : c.IsPlain) :
    Text.cutLast separator (c.configType.toList ++ separator :: c.configId.toList) =
      some (c.configType.toList, c.configId.toList) :=
  Text.cutLast_eq_some_iff.2 ⟨rfl, h.configId⟩

theorem eq_of_display_eq (hc : c.IsPlain) (hd : d.IsPlain) (h : c.display = d.display) :
    c = d := by
  have hfirst := hc.cutFirst_display
  rw [h, hd.cutFirst_display] at hfirst
  obtain ⟨hproject, hrest⟩ := Prod.mk.inj (Option.some.inj hfirst)
  have hlast := hc.cutLast_rest
  rw [← hrest, hd.cutLast_rest] at hlast
  obtain ⟨htype, hid⟩ := Prod.mk.inj (Option.some.inj hlast)
  cases c
  cases d
  simp_all [String.toList_inj]

/-- Where the types are the same, the separators of a plain coordinate leave none for the project
and the id of another one with its display. -/
theorem of_display_eq (hc : c.IsPlain) (htype : d.configType = c.configType)
    (h : d.display = c.display) : d.IsPlain := by
  have hcount := d.count_display
  rw [h, c.count_display, htype, List.count_eq_zero_of_not_mem hc.project,
    List.count_eq_zero_of_not_mem hc.configId] at hcount
  exact ⟨List.count_eq_zero.1 (by omega), List.count_eq_zero.1 (by omega)⟩

/-- A plain coordinate is read back from its display, unless a part of it is empty. -/
theorem parse?_display (h : c.IsPlain) : parse? c.display =
    if c.project = "" ∨ c.configType = "" ∨ c.configId = "" then none else some c := by
  have hempty : ∀ s : String, s.toList.isEmpty = decide (s = "") := fun s => by
    rw [Bool.eq_iff_iff]
    simp
  rw [parse?, h.cutFirst_display, Option.bind_eq_bind, Option.bind_some]
  dsimp only
  rw [h.cutLast_rest, Option.bind_some]
  simp [hempty, or_assoc]

theorem parts_display (h : c.IsPlain) :
    Text.beforeFirst separator c.display.toList = c.project.toList ∧
      Text.between separator c.display.toList = c.configType.toList ∧
      Text.afterLast separator c.display.toList = c.configId.toList := by
  rw [toList_display]
  refine ⟨Text.beforeFirst_append h.project _, Text.between_append h.project h.configId, ?_⟩
  rw [← List.cons_append, ← List.append_assoc, Text.afterLast_append h.configId]

end IsPlain

/-- No part is empty. -/
structure IsComplete (c : Coordinate) : Prop where
  project : c.project ≠ ""
  configType : c.configType ≠ ""
  configId : c.configId ≠ ""

theorem display_of_parse? {s : String} {c : Coordinate} (h : parse? s = some c) :
    c.display = s ∧ c.IsPlain ∧ c.IsComplete := by
  obtain ⟨⟨project, rest⟩, hfirst, hrest⟩ := Option.bind_eq_some_iff.1 h
  obtain ⟨⟨configType, configId⟩, hlast, hparts⟩ := Option.bind_eq_some_iff.1 hrest
  obtain ⟨hs, hproject⟩ := Text.cutFirst_eq_some_iff.1 hfirst
  obtain ⟨hsplit, hconfigId⟩ := Text.cutLast_eq_some_iff.1 hlast
  dsimp only at hparts
  split at hparts
  · cases hparts
  · rename_i hempty
    cases hparts
    simp only [Bool.or_eq_true, List.isEmpty_iff, not_or, and_assoc] at hempty
    obtain ⟨hproject', htype', hid'⟩ := hempty
    refine ⟨String.toList_inj.1 ?_, ⟨by simpa using hproject, by simpa using hconfigId⟩, ?_⟩
    · simp [toList_display, hs, hsplit]
    · exact ⟨by simpa using hproject', by simpa using htype', by simpa using hid'⟩

theorem parse?_eq_some_iff {s : String} {c : Coordinate} :
    parse? s = some c ↔ c.display = s ∧ c.IsPlain ∧ c.IsComplete := by
  refine ⟨display_of_parse?, ?_⟩
  rintro ⟨rfl, hplain, hcomplete⟩
  rw [hplain.parse?_display, if_neg]
  simp [hcomplete.project, hcomplete.configType, hcomplete.configId]

theorem two_le_count_display (c : Coordinate) : 2 ≤ c.display.toList.count separator := by
  rw [count_display]
  omega

theorem exists_isPlain_of_two_le_count {s : String} (h : 2 ≤ s.toList.count separator) :
    ∃ c : Coordinate, c.IsPlain ∧ c.display = s := by
  obtain ⟨project, configType, configId, hs, hproject, hconfigId⟩ :=
    Text.exists_split_of_two_le_count h
  refine ⟨⟨.ofList project, .ofList configType, .ofList configId⟩, ⟨?_, ?_⟩, ?_⟩
  · simpa using hproject
  · simpa using hconfigId
  · apply String.toList_inj.1
    simp [toList_display, hs]

theorem IsPlain.isComplete_iff {c : Coordinate} (h : c.IsPlain) : c.IsComplete ↔
    Text.beforeFirst separator c.display.toList ≠ [] ∧
      Text.between separator c.display.toList ≠ [] ∧
      Text.afterLast separator c.display.toList ≠ [] := by
  obtain ⟨hbefore, hbetween, hafter⟩ := h.parts_display
  rw [hbefore, hbetween, hafter]
  simp only [ne_eq, String.toList_eq_nil_iff]
  exact ⟨fun ⟨hp, ht, hi⟩ => ⟨hp, ht, hi⟩, fun ⟨hp, ht, hi⟩ => ⟨hp, ht, hi⟩⟩

theorem isSome_parse?_iff {s : String} : (parse? s).isSome ↔
    2 ≤ s.toList.count separator ∧ Text.beforeFirst separator s.toList ≠ [] ∧
      Text.between separator s.toList ≠ [] ∧ Text.afterLast separator s.toList ≠ [] := by
  constructor
  · intro hsome
    obtain ⟨c, hc⟩ := Option.isSome_iff_exists.1 hsome
    obtain ⟨rfl, hplain, hcomplete⟩ := parse?_eq_some_iff.1 hc
    exact ⟨c.two_le_count_display, hplain.isComplete_iff.1 hcomplete⟩
  · rintro ⟨hcount, hparts⟩
    obtain ⟨c, hplain, rfl⟩ := exists_isPlain_of_two_le_count hcount
    rw [parse?_eq_some_iff.2 ⟨rfl, hplain, hplain.isComplete_iff.2 hparts⟩]
    rfl

/-- A text is read as a coordinate if and only if it has two separators and something before the
first, between the first and the last, and behind the last. What is read is the one plain and
complete coordinate that is displayed so, and plain coordinates of one display are equal. -/
theorem parse?_exact :
    (∀ s, (parse? s).isSome ↔ 2 ≤ s.toList.count separator ∧
      Text.beforeFirst separator s.toList ≠ [] ∧ Text.between separator s.toList ≠ [] ∧
      Text.afterLast separator s.toList ≠ []) ∧
    (∀ s c, parse? s = some c ↔ c.display = s ∧ c.IsPlain ∧ c.IsComplete) ∧
    ∀ c d : Coordinate, c.IsPlain → d.IsPlain → c.display = d.display → c = d :=
  ⟨fun _ => isSome_parse?_iff, fun _ _ => parse?_eq_some_iff, fun _ _ hc => hc.eq_of_display_eq⟩

/-- The type of a coordinate may hold nothing but separators. -/
theorem separators_read :
    parse? "a::::b" = some ⟨"a", "::", "b"⟩ ∧ (parse? "a::b").isSome = false := by
  obtain ⟨hsome, hread, _⟩ := parse?_exact
  refine ⟨(hread _ _).2 ⟨by decide, ⟨by decide, by decide⟩, by decide, by decide, by decide⟩, ?_⟩
  rw [Bool.eq_false_iff, ne_eq, hsome]
  decide

end Coordinate

end Rollout
