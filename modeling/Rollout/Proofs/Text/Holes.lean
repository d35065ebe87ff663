import Rollout.Text.Holes
import Mathlib.Data.List.Infix

/-! Where the holes of a text are. The kind of hole is given by what is written for one of a name.
If a reader tells at every place whether a hole stands there, and no two holes run into each other,
then the segments of a text are its characters and all of its holes, each of them once. A character
that is part of no hole divides a text into two whose holes are found independently. -/

namespace Rollout.Text

/-- A hole stands in a text behind the given number of characters. -/
structure StandsAt (IsHole : List Char → List Char → Prop) (text : List Char) (i : Nat)
    (written name : List Char) : Prop where
  isHole : IsHole written name
  here : written <+: text.drop i

/-- A segment with what is written for it. -/
inductive Piece
  | char (c : Char)
  | hole (written name : List Char)

namespace Piece

def written : Piece → List Char
  | .char c => [c]
  | .hole written _ => written

def segment : Piece → Segment
  | .char c => .char c
  | .hole _ name => .hole name

end Piece

/-- One of the pieces is a hole, behind the given number of characters. -/
def HasHoleAt (pieces : List Piece) (i : Nat) (written name : List Char) : Prop :=
  ∃ before after, pieces = before ++ .hole written name :: after ∧
    (before.flatMap Piece.written).length = i

/-- The pieces of a text, of which the holes are all that stand in it. -/
structure IsReading (IsHole : List Char → List Char → Prop) (text : List Char)
    (pieces : List Piece) : Prop where
  written : pieces.flatMap Piece.written = text
  standsAt_iff : ∀ i w n, StandsAt IsHole text i w n ↔ HasHoleAt pieces i w n

/-- A reader finds every hole that stands at the start of a text, and holes are apart. -/
structure Recognizes (hole? : List Char → Option Hole) (IsHole : List Char → List Char → Prop) :
    Prop where
  hole?_eq_some_iff : ∀ text h, hole? text = some h ↔
    ∃ written, IsHole written h.name ∧ written.length = h.width ∧ written <+: text
  apart : ∀ text i j w w' n n', StandsAt IsHole text i w n → StandsAt IsHole text j w' n' →
    i < j → i + w.length ≤ j
  ne_nil : ∀ w n, IsHole w n → w ≠ []

variable {IsHole : List Char → List Char → Prop} {hole? : List Char → Option Hole}
  {text rest w w' n n' : List Char} {pieces : List Piece} {i : Nat} {c : Char}

/-! ### Segments -/

namespace Segment

variable {filling : List Char → List Char} {segments : List Segment}

@[simp] theorem names_char : names (.char c :: segments) = names segments := rfl

@[simp] theorem names_hole : names (.hole n :: segments) = n :: names segments := rfl

@[simp] theorem names_append (before after : List Segment) :
    names (before ++ after) = names before ++ names after :=
  List.filterMap_append

@[simp] theorem names_map_char (s : List Char) : names (s.map .char) = [] := by
  induction s with
  | nil => rfl
  | cons c s ih => exact ih

@[simp] theorem fill_char : fill filling (.char c :: segments) = c :: fill filling segments := rfl

@[simp] theorem fill_hole :
    fill filling (.hole n :: segments) = filling n ++ fill filling segments := rfl

@[simp] theorem fill_append (before after : List Segment) :
    fill filling (before ++ after) = fill filling before ++ fill filling after :=
  List.flatMap_append

@[simp] theorem fill_map_char (s : List Char) : fill filling (s.map .char) = s := by
  induction s with
  | nil => rfl
  | cons c s ih => exact congrArg (c :: ·) ih

/-- Only the names that occur have to be filled alike. -/
theorem fill_congr {filling' : List Char → List Char}
    (h : ∀ name ∈ names segments, filling name = filling' name) :
    fill filling segments = fill filling' segments := by
  induction segments with
  | nil => rfl
  | cons segment segments ih =>
    cases segment with
    | char c => rw [fill_char, fill_char, ih h]
    | hole name =>
      obtain ⟨hname, hrest⟩ := List.forall_mem_cons.1 h
      rw [fill_hole, fill_hole, hname, ih hrest]

end Segment

/-! ### Holes among pieces -/

@[simp] theorem not_hasHoleAt_nil : ¬ HasHoleAt [] i w n := by
  rintro ⟨before, after, heq, _⟩
  simp at heq

theorem hasHoleAt_char_iff :
    HasHoleAt (.char c :: pieces) i w n ↔ ∃ j, i = j + 1 ∧ HasHoleAt pieces j w n := by
  constructor
  · rintro ⟨before, after, heq, rfl⟩
    cases before with
    | nil => simp at heq
    | cons piece before =>
      obtain ⟨rfl, rfl⟩ := List.cons.inj heq
      exact ⟨_, by simp [Piece.written, Nat.add_comm], before, after, rfl, rfl⟩
  · rintro ⟨_, rfl, before, after, rfl, rfl⟩
    exact ⟨.char c :: before, after, rfl, by simp [Piece.written, Nat.add_comm]⟩

theorem hasHoleAt_hole_iff : HasHoleAt (.hole w' n' :: pieces) i w n ↔
    i = 0 ∧ w = w' ∧ n = n' ∨ ∃ j, i = w'.length + j ∧ HasHoleAt pieces j w n := by
  constructor
  · rintro ⟨before, after, heq, rfl⟩
    cases before with
    | nil =>
      obtain ⟨heq, rfl⟩ := List.cons.inj heq
      cases heq
      exact .inl ⟨rfl, rfl, rfl⟩
    | cons piece before =>
      obtain ⟨rfl, rfl⟩ := List.cons.inj heq
      exact .inr ⟨_, by simp [Piece.written], before, after, rfl, rfl⟩
  · rintro (⟨rfl, rfl, rfl⟩ | ⟨_, rfl, before, after, rfl, rfl⟩)
    · exact ⟨[], pieces, rfl, rfl⟩
    · exact ⟨.hole w' n' :: before, after, rfl, by simp [Piece.written]⟩

/-! ### Holes in a text -/

theorem standsAt_append_iff {before : List Char} :
    StandsAt IsHole (before ++ text) (before.length + i) w n ↔ StandsAt IsHole text i w n := by
  have hdrop : (before ++ text).drop (before.length + i) = text.drop i := by simp
  exact ⟨fun ⟨hhole, here⟩ => ⟨hhole, hdrop ▸ here⟩, fun ⟨hhole, here⟩ => ⟨hhole, hdrop ▸ here⟩⟩

theorem standsAt_succ_iff :
    StandsAt IsHole (c :: text) (i + 1) w n ↔ StandsAt IsHole text i w n :=
  ⟨fun ⟨hhole, here⟩ => ⟨hhole, here⟩, fun ⟨hhole, here⟩ => ⟨hhole, here⟩⟩

theorem StandsAt.getElem? (h : StandsAt IsHole text i w n) {k : Nat} (hk : k < w.length) :
    text[i + k]? = some w[k] := by
  have hprefix := List.prefix_iff_getElem?.1 h.here k hk
  rwa [List.getElem?_drop] at hprefix

/-- Holes that begin with equally many of one character, and go on without it, are apart. -/
theorem apart_of_replicate {opener : Char} {count : Nat} (hcount : 0 < count)
    (hshape : ∀ w n, IsHole w n → ∃ rest, rest ≠ [] ∧ w = List.replicate count opener ++ rest ∧
      opener ∉ rest)
    {j : Nat} (h : StandsAt IsHole text i w n) (h' : StandsAt IsHole text j w' n') (hlt : i < j) :
    i + w.length ≤ j := by
  obtain ⟨rest, hne, rfl, hrest⟩ := hshape _ _ h.isHole
  obtain ⟨rest', _, rfl, _⟩ := hshape _ _ h'.isHole
  have hpos := List.length_pos_iff.2 hne
  by_contra hinside
  simp only [List.length_append, List.length_replicate] at hinside
  -- At this place the first hole is past its beginning and the second one is not.
  obtain ⟨k, hk, k', hk', hplace⟩ : ∃ k < rest.length, ∃ k' < count, i + (count + k) = j + k' :=
    ⟨max j (i + count) - (i + count), by omega, max j (i + count) - j, by omega, by omega⟩
  have hfirst := h.getElem? (k := count + k) (by simp [hk])
  have hsecond := h'.getElem? (k := k') (by simp; omega)
  rw [hplace, hsecond, List.getElem_append_left (by simpa using hk'),
    List.getElem_append_right (by simp)] at hfirst
  simp only [List.getElem_replicate, List.length_replicate, Nat.add_sub_cancel_left,
    Option.some.injEq] at hfirst
  exact hrest (hfirst ▸ List.getElem_mem hk)

namespace Recognizes

variable (H : Recognizes hole? IsHole)

include H

theorem hole?_of_standsAt (h : StandsAt IsHole text i w n) :
    hole? (text.drop i) = some ⟨n, w.length⟩ :=
  (H.hole?_eq_some_iff _ _).2 ⟨w, h.isHole, rfl, h.here⟩

theorem hole?_eq_none_iff : hole? text = none ↔ ∀ w n, ¬ StandsAt IsHole text 0 w n := by
  constructor
  · intro hnone w n hstands
    cases hnone.symm.trans (H.hole?_of_standsAt hstands)
  · intro h
    by_contra hfound
    obtain ⟨hole, hfound⟩ := Option.ne_none_iff_exists'.1 hfound
    obtain ⟨w, hhole, _, hprefix⟩ := (H.hole?_eq_some_iff _ _).1 hfound
    exact h w hole.name ⟨hhole, hprefix⟩

/-- Only one hole stands at one place. -/
theorem unique (h : StandsAt IsHole text i w n) (h' : StandsAt IsHole text i w' n') :
    w = w' ∧ n = n' := by
  have heq := (H.hole?_of_standsAt h).symm.trans (H.hole?_of_standsAt h')
  obtain ⟨rfl, hlength⟩ := Hole.mk.inj (Option.some.inj heq)
  exact ⟨(List.prefix_of_prefix_length_le h.here h'.here hlength.le).eq_of_length hlength, rfl⟩

theorem eq_or_apart {j : Nat} (h : StandsAt IsHole text i w n) (h' : StandsAt IsHole text j w' n') :
    (i = j ∧ w = w' ∧ n = n') ∨ i + w.length ≤ j ∨ j + w'.length ≤ i := by
  rcases Nat.lt_trichotomy i j with hlt | rfl | hlt
  · exact .inr (.inl (H.apart _ _ _ _ _ _ _ h h' hlt))
  · exact .inl ⟨rfl, H.unique h h'⟩
  · exact .inr (.inr (H.apart _ _ _ _ _ _ _ h' h hlt))

theorem isReading_nil : IsReading IsHole [] [] where
  written := rfl
  standsAt_iff i w n := by
    refine iff_of_false (fun h => H.ne_nil w n h.isHole ?_) not_hasHoleAt_nil
    simpa using h.here

theorem isReading_char (hnone : hole? (c :: rest) = none) (h : IsReading IsHole rest pieces) :
    IsReading IsHole (c :: rest) (.char c :: pieces) where
  written := congrArg (c :: ·) h.written
  standsAt_iff i w n := by
    rw [hasHoleAt_char_iff]
    cases i with
    | zero =>
      refine iff_of_false (fun hstands => ?_) (by simp)
      cases hnone.symm.trans (H.hole?_of_standsAt hstands)
    | succ i =>
      rw [standsAt_succ_iff, h.standsAt_iff]
      simp

theorem isReading_hole (hhole : IsHole w n) (h : IsReading IsHole rest pieces) :
    IsReading IsHole (w ++ rest) (.hole w n :: pieces) where
  written := congrArg (w ++ ·) h.written
  standsAt_iff i w' n' := by
    have hfirst : StandsAt IsHole (w ++ rest) 0 w n := ⟨hhole, List.prefix_append _ _⟩
    rw [hasHoleAt_hole_iff]
    constructor
    · intro hstands
      rcases Nat.eq_zero_or_pos i with rfl | hpos
      · obtain ⟨rfl, rfl⟩ := H.unique hfirst hstands
        exact .inl ⟨rfl, rfl, rfl⟩
      · have hle := H.apart _ _ _ _ _ _ _ hfirst hstands hpos
        obtain ⟨j, rfl⟩ := Nat.exists_eq_add_of_le hle
        rw [Nat.zero_add] at hstands
        exact .inr ⟨j, by omega, (h.standsAt_iff _ _ _).1 (standsAt_append_iff.1 hstands)⟩
    · rintro (⟨rfl, rfl, rfl⟩ | ⟨j, rfl, hrest⟩)
      · exact hfirst
      · exact standsAt_append_iff.2 ((h.standsAt_iff _ _ _).2 hrest)

end Recognizes

/-! ### Scanning -/

theorem scan_eq_scan_drop (hole? : List Char → Option Hole) (inside : Nat) (text : List Char) :
    Segment.scan hole? inside text = Segment.scan hole? 0 (text.drop inside) := by
  induction inside generalizing text with
  | zero => rfl
  | succ inside ih =>
    cases text with
    | nil => rfl
    | cons c rest => exact ih rest

theorem scan_of_none (h : hole? (c :: rest) = none) :
    Segment.scan hole? 0 (c :: rest) = .char c :: Segment.scan hole? 0 rest := by
  rw [Segment.scan, h]

theorem scan_of_some {hole : Hole} (h : hole? (c :: rest) = some hole) :
    Segment.scan hole? 0 (c :: rest) =
      .hole hole.name :: Segment.scan hole? 0 (rest.drop (hole.width - 1)) := by
  rw [Segment.scan, h, ← scan_eq_scan_drop]

/-- The segments of a text are its pieces. -/
theorem Recognizes.exists_isReading (H : Recognizes hole? IsHole) (text : List Char) :
    ∃ pieces, IsReading IsHole text pieces ∧
      pieces.map Piece.segment = Segment.scan hole? 0 text := by
  -- A hole takes up several characters, so the induction is on the length.
  induction hlength : text.length using Nat.strong_induction_on generalizing text with
  | h length ih =>
    cases text with
    | nil => exact ⟨[], H.isReading_nil, rfl⟩
    | cons c rest =>
      cases hfound : hole? (c :: rest) with
      | none =>
        obtain ⟨pieces, hreading, hsegments⟩ := ih rest.length (by simp [← hlength]) rest rfl
        refine ⟨.char c :: pieces, H.isReading_char hfound hreading, ?_⟩
        rw [scan_of_none hfound, List.map_cons, hsegments]
        rfl
      | some h =>
        obtain ⟨w, hhole, hwidth, after, htext⟩ := (H.hole?_eq_some_iff _ _).1 hfound
        have hpos := List.length_pos_iff.2 (H.ne_nil _ _ hhole)
        have hshort : after.length < length := by
          rw [← hlength, ← htext, List.length_append]
          omega
        obtain ⟨pieces, hreading, hsegments⟩ := ih _ hshort after rfl
        have hafter : rest.drop (h.width - 1) = after := by
          have hdrop : (c :: rest).drop (h.width - 1 + 1) = after := by
            rw [← htext, ← hwidth, Nat.sub_add_cancel hpos]
            simp
          exact hdrop
        refine ⟨.hole w h.name :: pieces, htext ▸ H.isReading_hole hhole hreading, ?_⟩
        rw [scan_of_some hfound, List.map_cons, hsegments, hafter]
        rfl

/-- Every segment with a name is a hole of the text. -/
theorem IsReading.exists_standsAt (h : IsReading IsHole text pieces)
    (hn : n ∈ Segment.names (pieces.map Piece.segment)) : ∃ i w, StandsAt IsHole text i w n := by
  obtain ⟨_, hsegment, hname⟩ := List.mem_filterMap.1 hn
  obtain ⟨piece, hpiece, rfl⟩ := List.mem_map.1 hsegment
  cases piece with
  | char c => cases hname
  | hole w name =>
    cases hname
    obtain ⟨before, after, hsplit⟩ := List.append_of_mem hpiece
    exact ⟨_, w, (h.standsAt_iff _ _ _).2 ⟨before, after, hsplit, rfl⟩⟩

/-! ### Scanning in parts -/

theorem prefix_append_cons_iff (hc : c ∉ w) (before after : List Char) :
    w <+: before ++ c :: after ↔ w <+: before := by
  refine ⟨fun h => ?_, fun h => h.trans (List.prefix_append _ _)⟩
  have hfirst : before ++ [c] <+: before ++ c :: after :=
    (List.prefix_append_right_inj before).2 ⟨after, rfl⟩
  rcases List.prefix_or_prefix_of_prefix h hfirst with h | h
  · exact (List.prefix_concat_iff.1 h).resolve_left fun heq => hc (by simp [heq])
  · exact absurd (h.mem (by simp)) hc

namespace Recognizes

variable (H : Recognizes hole? IsHole)

include H

/-- What follows a character that stands in no hole makes no difference before it. -/
theorem hole?_append_cons (hc : ∀ w n, IsHole w n → c ∉ w) (before after : List Char) :
    hole? (before ++ c :: after) = hole? before := by
  ext h
  simp only [H.hole?_eq_some_iff]
  constructor
  · rintro ⟨w, hhole, hwidth, hprefix⟩
    exact ⟨w, hhole, hwidth, (prefix_append_cons_iff (hc _ _ hhole) _ _).1 hprefix⟩
  · rintro ⟨w, hhole, hwidth, hprefix⟩
    exact ⟨w, hhole, hwidth, (prefix_append_cons_iff (hc _ _ hhole) _ _).2 hprefix⟩

/-- A character that stands in no hole divides a text into two that are scanned by themselves. -/
theorem scan_append_cons (hc : ∀ w n, IsHole w n → c ∉ w) (before after : List Char) :
    Segment.scan hole? 0 (before ++ c :: after) =
      Segment.scan hole? 0 before ++ .char c :: Segment.scan hole? 0 after := by
  induction hlength : before.length using Nat.strong_induction_on generalizing before with
  | h length ih =>
    have hsame := H.hole?_append_cons hc before after
    cases before with
    | nil =>
      have hnone : hole? [] = none :=
        H.hole?_eq_none_iff.2 fun w n h => H.ne_nil w n h.isHole (by simpa using h.here)
      exact scan_of_none (hsame.trans hnone)
    | cons b before =>
      rw [List.cons_append] at hsame ⊢
      cases hfound : hole? (b :: before) with
      | none =>
        rw [hfound] at hsame
        rw [scan_of_none hsame, scan_of_none hfound, ih _ (by simp [← hlength]) before rfl,
          List.cons_append]
      | some h =>
        rw [hfound] at hsame
        obtain ⟨w, hhole, hwidth, hprefix⟩ := (H.hole?_eq_some_iff _ _).1 hfound
        have hpos := List.length_pos_iff.2 (H.ne_nil _ _ hhole)
        have hle := hprefix.length_le
        rw [List.length_cons] at hle hlength
        have hdrop : (before ++ c :: after).drop (h.width - 1) =
            before.drop (h.width - 1) ++ c :: after :=
          List.drop_append_of_le_length (by omega)
        have hshort : (before.drop (h.width - 1)).length < length := by
          rw [List.length_drop]
          omega
        rw [scan_of_some hsame, scan_of_some hfound, hdrop, ih _ hshort _ rfl, List.cons_append]

/-- A hole by itself is one segment. -/
theorem scan_hole (hhole : IsHole w n) : Segment.scan hole? 0 w = [.hole n] := by
  have hstands : StandsAt IsHole w 0 w n := ⟨hhole, List.prefix_rfl⟩
  have hfound := H.hole?_of_standsAt hstands
  rw [List.drop_zero] at hfound
  cases w with
  | nil => exact absurd rfl (H.ne_nil _ _ hhole)
  | cons c rest =>
    rw [scan_of_some hfound]
    simp [Segment.scan]

/-- Where no hole stands, every character is a segment. -/
theorem scan_of_not_standsAt (h : ∀ i w n, ¬ StandsAt IsHole text i w n) :
    Segment.scan hole? 0 text = text.map .char := by
  induction text with
  | nil => rfl
  | cons c rest ih =>
    rw [scan_of_none (H.hole?_eq_none_iff.2 (h 0)), List.map_cons,
      ih fun i w n hstands => h _ w n (standsAt_succ_iff.2 hstands)]

end Recognizes

end Rollout.Text
