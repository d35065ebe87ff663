import Rollout.Template
import Rollout.Proofs.Json.Literal
import Rollout.Proofs.Text.Holes
import Mathlib.Data.List.TakeWhile

/-! Rendering of templates. Placeholders stand apart from each other, and rendering fills all of them
at once, or names the first one without a value. What is put in for a string cannot end the literal
that it is put into. -/

namespace Rollout

open Text (Piece Segment StandsAt IsReading)

namespace Text

/-- The ranges of code points with the Unicode property White_Space. -/
def whiteSpace : List (Nat × Nat) :=
  [(0x9, 0xd), (0x20, 0x20), (0x85, 0x85), (0xa0, 0xa0), (0x1680, 0x1680), (0x2000, 0x200a),
   (0x2028, 0x2029), (0x202f, 0x202f), (0x205f, 0x205f), (0x3000, 0x3000)]

def IsWhiteSpace (c : Char) : Prop := ∃ range ∈ whiteSpace, range.1 ≤ c.toNat ∧ c.toNat ≤ range.2

theorem isBlank_iff {c : Char} : isBlank c = true ↔ IsWhiteSpace c := by
  have hle : ∀ a b : Char, a ≤ b ↔ a.toNat ≤ b.toNat := fun _ _ => Iff.rfl
  have heq : ∀ a b : Char, a = b ↔ a.toNat = b.toNat := fun _ _ => Char.toNat_inj.symm
  simp only [isBlank, hle, heq, decide_eq_true_eq, Char.reduceToNat, IsWhiteSpace, whiteSpace,
    List.exists_mem_cons_iff, List.not_mem_nil, false_and, exists_false, or_false]
  omega

instance (c : Char) : Decidable (IsWhiteSpace c) := decidable_of_iff _ isBlank_iff

theorem takeWhile_append {p : Char → Bool} {taken rest : List Char}
    (htaken : ∀ c ∈ taken, p c = true) (hrest : ∀ c ∈ rest.head?, p c = false) :
    (taken ++ rest).takeWhile p = taken := by
  rw [List.takeWhile_append_of_pos htaken]
  cases rest with
  | nil => simp
  | cons c rest => simp [hrest c rfl]

theorem takeWhile_append_drop (p : Char → Bool) (s : List Char) :
    s.takeWhile p ++ s.drop (s.takeWhile p).length = s :=
  List.prefix_iff_eq_append.1 (List.takeWhile_prefix p)

end Text

namespace Template

variable {t : Template} {values : SortedMap String Json} {name written text : List Char}

/-- Identifiers begin with a letter or `_` and go on with letters, digits and `_`. -/
def IsIdentifier (name : List Char) : Prop :=
  ∃ first rest, name = first :: rest ∧ Text.isLetterOrUnderscore first = true ∧
    ∀ c ∈ rest, isNameChar c = true

/-- What is written for a placeholder, and its name. -/
inductive IsPlaceholder : List Char → List Char → Prop
  | intro {before name behind : List Char} (white_before : ∀ c ∈ before, Text.IsWhiteSpace c)
    (isIdentifier : IsIdentifier name) (white_behind : ∀ c ∈ behind, Text.IsWhiteSpace c) :
    IsPlaceholder ('{' :: '{' :: (before ++ '.' :: (name ++ (behind ++ ['}', '}'])))) name

/-- The text of a value is its JSON, for a string without the quotes around it. -/
def textOf : Json → List Char
  | .string s => ((Json.string s).render.toList.drop 1).dropLast
  | value => value.render.toList

/-- Of the names without a value this is the first one. -/
def IsFirstMissing (values : SortedMap String Json) (names : List String) (name : String) : Prop :=
  ∃ before after, names = before ++ name :: after ∧
    (∀ earlier ∈ before, ∃ value, values.get? earlier = some value) ∧ values.get? name = none

/-! ### Placeholders of a text -/

theorem IsIdentifier.isNameChar (h : IsIdentifier name) : ∀ c ∈ name, isNameChar c = true := by
  obtain ⟨first, rest, rfl, hfirst, hrest⟩ := h
  refine List.forall_mem_cons.2 ⟨?_, hrest⟩
  rw [Template.isNameChar, hfirst]
  rfl

theorem isNameChar_of_isWhiteSpace {c : Char} (h : Text.IsWhiteSpace c) :
    isNameChar c = false := by
  have hle : ∀ a b : Char, a ≤ b ↔ a.toNat ≤ b.toNat := fun _ _ => Iff.rfl
  have heq : ∀ a b : Char, a = b ↔ a.toNat = b.toNat := fun _ _ => Char.toNat_inj.symm
  rw [Bool.eq_false_iff]
  simp only [isNameChar, Text.isLetterOrUnderscore, Char.isDigit_iff_toNat, hle, heq,
    Bool.or_eq_true, decide_eq_true_eq, Char.reduceToNat, ne_eq]
  simp only [Text.IsWhiteSpace, Text.whiteSpace, List.exists_mem_cons_iff, List.not_mem_nil,
    false_and, exists_false, or_false] at h
  omega

theorem takeWhile_isBlank {white : List Char} {c : Char} (h : ∀ c ∈ white, Text.IsWhiteSpace c)
    (hblank : Text.isBlank c = false) (rest : List Char) :
    (white ++ c :: rest).takeWhile Text.isBlank = white :=
  Text.takeWhile_append (fun c hc => Text.isBlank_iff.2 (h c hc)) (by simpa using hblank)

theorem takeWhile_isNameChar {behind : List Char} (h : IsIdentifier name)
    (hbehind : ∀ c ∈ behind, Text.IsWhiteSpace c) (rest : List Char) :
    (name ++ (behind ++ '}' :: rest)).takeWhile isNameChar = name := by
  refine Text.takeWhile_append h.isNameChar fun c hc => ?_
  cases behind with
  | nil =>
    cases hc
    decide
  | cons b behind =>
    cases hc
    exact isNameChar_of_isWhiteSpace (hbehind _ List.mem_cons_self)

theorem placeholder?_of_isIdentifier {before behind : List Char}
    (hbefore : ∀ c ∈ before, Text.IsWhiteSpace c) (h : IsIdentifier name)
    (hbehind : ∀ c ∈ behind, Text.IsWhiteSpace c) (rest : List Char) :
    placeholder? ('{' :: '{' :: (before ++ '.' :: (name ++ (behind ++ '}' :: '}' :: rest)))) =
      some ⟨name, before.length + name.length + behind.length + 5⟩ := by
  have hpoint : Text.isBlank '.' = false := by decide
  have hbrace : Text.isBlank '}' = false := by decide
  have htake := takeWhile_isBlank hbefore hpoint (name ++ (behind ++ '}' :: '}' :: rest))
  have htake' := takeWhile_isBlank hbehind hbrace ('}' :: rest)
  have hname := takeWhile_isNameChar h hbehind ('}' :: rest)
  obtain ⟨first, others, rfl, hfirst, _⟩ := h
  simp only [placeholder?, htake, List.drop_left, hname, htake', hfirst, if_true]

theorem isPlaceholder_of_placeholder? {h : Text.Hole} (hfound : placeholder? text = some h) :
    ∃ written, IsPlaceholder written h.name ∧ written.length = h.width ∧ written <+: text := by
  unfold placeholder? at hfound
  split at hfound
  · rename_i rest
    dsimp only at hfound
    split at hfound
    · rename_i rest' hpoint
      split at hfound
      · rename_i first others after hname hclosing
        split at hfound
        · rename_i hfirst
          cases hfound
          -- The text falls into what was skipped, the point, the name, what was skipped, the end.
          have hbefore := Text.takeWhile_append_drop Text.isBlank rest
          have hmiddle := Text.takeWhile_append_drop isNameChar rest'
          have hbehind := Text.takeWhile_append_drop Text.isBlank
            (rest'.drop (rest'.takeWhile isNameChar).length)
          rw [hpoint] at hbefore
          rw [hclosing] at hbehind
          have hwhite : ∀ s : List Char, ∀ c ∈ s.takeWhile Text.isBlank, Text.IsWhiteSpace c :=
            fun s c hc => Text.isBlank_iff.1 (List.mem_takeWhile_imp hc)
          refine ⟨_, .intro (hwhite rest) ⟨first, others, hname, hfirst, fun c hc => ?_⟩
            (hwhite (rest'.drop (rest'.takeWhile isNameChar).length)), ?_, after, ?_⟩
          · exact List.mem_takeWhile_imp (hname ▸ List.mem_cons_of_mem _ hc)
          · simp only [List.length_cons, List.length_append, List.length_nil]
            omega
          · conv => rhs; rw [← hbefore, ← hmiddle, ← hbehind]
            simp
        · cases hfound
      · cases hfound
    · cases hfound
  · cases hfound

/-- Behind its two opening braces a placeholder has no character but those of its parts. -/
theorem not_mem_inside {before behind : List Char} (hbefore : ∀ c ∈ before, Text.IsWhiteSpace c)
    (hname : IsIdentifier name) (hbehind : ∀ c ∈ behind, Text.IsWhiteSpace c) {c : Char}
    (hblank : Text.isBlank c = false) (hchar : isNameChar c = false) (hmarks : c ∉ ['.', '}']) :
    c ∉ before ++ '.' :: (name ++ (behind ++ ['}', '}'])) := by
  have hwhite : ¬ Text.IsWhiteSpace c := by
    rw [← Text.isBlank_iff, hblank]
    nofun
  have hnot : c ∉ name := by
    intro hmem
    cases hchar.symm.trans (hname.isNameChar c hmem)
  simp only [List.mem_cons, List.not_mem_nil, or_false, not_or] at hmarks
  simp only [List.mem_append, List.mem_cons, List.not_mem_nil, or_false, or_self, not_or]
  exact ⟨fun hmem => hwhite (hbefore c hmem), hmarks.1, hnot,
    fun hmem => hwhite (hbehind c hmem), hmarks.2⟩

theorem IsPlaceholder.shape (h : IsPlaceholder written name) : ∃ rest, rest ≠ [] ∧
    written = List.replicate 2 '{' ++ rest ∧ '{' ∉ rest := by
  obtain ⟨hbefore, hname, hbehind⟩ := h
  exact ⟨_, by simp, rfl,
    not_mem_inside hbefore hname hbehind (by decide) (by decide) (by decide)⟩

theorem IsPlaceholder.quote_not_mem (h : IsPlaceholder written name) : '"' ∉ written := by
  obtain ⟨hbefore, hname, hbehind⟩ := h
  have hinside : '"' ∉ _ :=
    not_mem_inside hbefore hname hbehind (by decide) (by decide) (by decide)
  rw [List.mem_cons, List.mem_cons, not_or, not_or]
  exact ⟨by decide, by decide, hinside⟩

theorem recognizes_placeholder? : Text.Recognizes placeholder? IsPlaceholder where
  hole?_eq_some_iff text h := by
    refine ⟨isPlaceholder_of_placeholder?, ?_⟩
    obtain ⟨name, width⟩ := h
    rintro ⟨_, ⟨hbefore, hname, hbehind⟩, hwidth, rest, rfl⟩
    rename_i before behind
    simp only [List.length_cons, List.length_append, List.length_nil] at hwidth
    obtain rfl : before.length + name.length + behind.length + 5 = width := by omega
    simpa using placeholder?_of_isIdentifier hbefore hname hbehind rest
  apart _ _ _ _ _ _ _ h h' hlt :=
    Text.apart_of_replicate Nat.two_pos (fun _ _ h => h.shape) h h' hlt
  ne_nil w n h := by
    obtain ⟨_, _, _⟩ := h
    nofun

/-! ### Rendering -/

/-- What is put in for a name. -/
def filling (values : SortedMap String Json) (name : List Char) : List Char :=
  ((values.get? (.ofList name)).map insertion).getD []

theorem insertion_eq_textOf (value : Json) : insertion value = textOf value := by
  cases value with
  | string s => simp [insertion, textOf, Json.render, Json.quote]
  | null | bool _ | number _ | array _ | object _ => rfl

theorem filling_eq {value : Json} (h : values.get? (.ofList name) = some value) :
    filling values name = insertion value := by
  rw [filling, h]
  rfl

theorem find?_eq_none_iff {names : List String} :
    names.find? (fun name => !values.contains name) = none ↔
      ∀ name ∈ names, ∃ value, values.get? name = some value := by
  simp only [List.find?_eq_none, SortedMap.contains, Bool.not_eq_true', Bool.not_eq_false,
    Option.isSome_iff_exists]

theorem find?_eq_some_iff {names : List String} {name : String} :
    names.find? (fun name => !values.contains name) = some name ↔
      IsFirstMissing values names name := by
  simp only [List.find?_eq_some_iff_append, IsFirstMissing, SortedMap.contains, Bool.not_not,
    Bool.not_eq_true', Option.isSome_eq_false_iff, Option.isNone_iff_eq_none,
    Option.isSome_iff_exists]
  constructor
  · rintro ⟨hnone, before, after, hnames, hbefore⟩
    exact ⟨before, after, hnames, hbefore, hnone⟩
  · rintro ⟨before, after, hnames, hbefore, hnone⟩
    exact ⟨hnone, before, after, hnames, hbefore⟩

theorem render_eq_error_iff {e : MissingValue} : t.render values = .error e ↔
    e.template = t.name ∧ IsFirstMissing values t.placeholders e.placeholder := by
  rw [← find?_eq_some_iff, render]
  obtain ⟨template, placeholder⟩ := e
  cases t.placeholders.find? fun name => !values.contains name with
  | none => simp
  | some name => simp [eq_comm]

theorem render_eq_ok_iff {text : String} : t.render values = .ok text ↔
    (∀ name ∈ t.placeholders, ∃ value, values.get? name = some value) ∧
      text = .ofList (Segment.fill (filling values) t.segments) := by
  rw [← find?_eq_none_iff, render]
  cases t.placeholders.find? fun name => !values.contains name with
  | none =>
    simp only [Except.ok.injEq, true_and]
    exact eq_comm
  | some name => simp

/-- Two placeholders of a template are the same or do not overlap. Rendering succeeds if and only if
there is a value for each of them; the result is the content with every placeholder replaced by the
text of its value and all else as it is. Otherwise the error names the leftmost placeholder without
a value. -/
theorem render_fills (t : Template) :
    (∀ i j w w' n n', StandsAt IsPlaceholder t.content.toList i w n →
      StandsAt IsPlaceholder t.content.toList j w' n' →
      (i = j ∧ w = w' ∧ n = n') ∨ i + w.length ≤ j ∨ j + w'.length ≤ i) ∧
    ∃ pieces, IsReading IsPlaceholder t.content.toList pieces ∧
      let segments := pieces.map Piece.segment
      segments = t.segments ∧ t.placeholders = (Segment.names segments).map String.ofList ∧
      ∀ values : SortedMap String Json,
        ((∃ text, t.render values = .ok text) ↔
          ∀ name ∈ t.placeholders, ∃ value, values.get? name = some value) ∧
        (∀ texts : List Char → List Char,
          (∀ name ∈ Segment.names segments, ∃ value,
            values.get? (.ofList name) = some value ∧ texts name = textOf value) →
          t.render values = .ok (.ofList (Segment.fill texts segments))) ∧
        ∀ e, t.render values = .error e ↔
          e.template = t.name ∧ IsFirstMissing values t.placeholders e.placeholder := by
  obtain ⟨pieces, hreading, hsegments⟩ :=
    recognizes_placeholder?.exists_isReading t.content.toList
  have hsegments : pieces.map Piece.segment = t.segments := hsegments
  refine ⟨fun _ _ _ _ _ _ h h' => recognizes_placeholder?.eq_or_apart h h', pieces, hreading, ?_⟩
  rw [hsegments]
  refine ⟨rfl, rfl, fun values => ⟨⟨?_, ?_⟩, ?_, fun e => render_eq_error_iff⟩⟩
  · rintro ⟨text, htext⟩
    exact (render_eq_ok_iff.1 htext).1
  · exact fun hall => ⟨_, render_eq_ok_iff.2 ⟨hall, rfl⟩⟩
  · intro texts htexts
    refine render_eq_ok_iff.2 ⟨fun name hname => ?_, ?_⟩
    · obtain ⟨chars, hchars, rfl⟩ := List.mem_map.1 hname
      obtain ⟨value, hvalue, _⟩ := htexts chars hchars
      exact ⟨value, hvalue⟩
    · refine congrArg String.ofList (Segment.fill_congr fun name hname => ?_)
      obtain ⟨value, hvalue, htext⟩ := htexts name hname
      rw [htext, filling_eq hvalue, insertion_eq_textOf]

/-! ### Extra braces -/

namespace Banner

def parameters : SortedMap String Json :=
  .ofList [("size", .ofNat 3), ("title", .string "\x7b\x7b .size \x7d\x7d")]

/-- Between braces of its own, and before a placeholder that is not finished. -/
def banner : Template :=
  ⟨"banner.json", "\x7b\x7b\x7b\n.title \x7d\x7d\x7d \x7b\x7b .title \x7b\x7b.size\x7d\x7d"⟩

theorem banner_filled :
    (∀ name ∈ Segment.names banner.segments, ∃ value,
      parameters.get? (.ofList name) = some value ∧ filling parameters name = textOf value) ∧
    banner.render parameters =
      .ok "\x7b\x7b\x7b .size \x7d\x7d\x7d \x7b\x7b .title 3" := by
  obtain ⟨_, pieces, _, hsegments, _, hvalues⟩ := render_fills banner
  obtain ⟨_, hrender, _⟩ := hvalues parameters
  rw [hsegments] at hrender
  have hnames : Segment.names banner.segments = ["title".toList, "size".toList] := by decide
  have hfilled : ∀ name ∈ Segment.names banner.segments, ∃ value,
      parameters.get? (.ofList name) = some value ∧ filling parameters name = textOf value := by
    rw [hnames]
    simp only [List.forall_mem_cons]
    exact ⟨⟨.string "\x7b\x7b .size \x7d\x7d", by decide, by decide +kernel⟩,
      ⟨.ofNat 3, by decide, by decide +kernel⟩, nofun⟩
  have htext : String.ofList (Segment.fill (filling parameters) banner.segments) =
      "\x7b\x7b\x7b .size \x7d\x7d\x7d \x7b\x7b .title 3" := by decide +kernel
  rw [← htext]
  exact ⟨hfilled, hrender _ hfilled⟩

end Banner

/-! ### Text around a literal -/

/-- What a placeholder between double quotes comes to, with the quotes. -/
def quoted (value : Json) : String := .ofList ('"' :: (insertion value ++ ['"']))

theorem segments_around (hhole : IsPlaceholder written name) (template before behind : String) :
    segments ⟨template, before ++ "\"" ++ .ofList written ++ "\"" ++ behind⟩ =
      segments ⟨template, before⟩ ++ .char '"' :: .hole name :: .char '"' ::
        segments ⟨template, behind⟩ := by
  have hquote : ∀ w n, IsPlaceholder w n → '"' ∉ w := fun _ _ h => h.quote_not_mem
  have hcontent : (before ++ "\"" ++ .ofList written ++ "\"" ++ behind).toList =
      before.toList ++ '"' :: (written ++ '"' :: behind.toList) := by simp
  rw [segments, hcontent, recognizes_placeholder?.scan_append_cons hquote,
    recognizes_placeholder?.scan_append_cons hquote, recognizes_placeholder?.scan_hole hhole]
  rfl

theorem render_around {template before behind text text' : String} {value : Json}
    (hhole : IsPlaceholder written name) (hvalue : values.get? (.ofList name) = some value)
    (hbefore : render ⟨template, before⟩ values = .ok text)
    (hbehind : render ⟨template, behind⟩ values = .ok text') :
    render ⟨template, before ++ "\"" ++ .ofList written ++ "\"" ++ behind⟩ values =
      .ok (text ++ quoted value ++ text') := by
  obtain ⟨hall, rfl⟩ := render_eq_ok_iff.1 hbefore
  obtain ⟨hall', rfl⟩ := render_eq_ok_iff.1 hbehind
  have hquoted := segments_around hhole template before behind
  refine render_eq_ok_iff.2 ⟨fun placeholder hmem => ?_, ?_⟩
  · rw [placeholders, hquoted] at hmem
    simp only [Segment.names_append, Segment.names_char, Segment.names_hole, List.map_append,
      List.map_cons, List.mem_append, List.mem_cons] at hmem
    rcases hmem with hmem | rfl | hmem
    · exact hall _ hmem
    · exact ⟨value, hvalue⟩
    · exact hall' _ hmem
  · apply String.toList_inj.1
    simp [hquoted, filling_eq hvalue, quoted]

theorem render_of_not_standsAt {template content : String}
    (h : ∀ i w n, ¬ StandsAt IsPlaceholder content.toList i w n) :
    render ⟨template, content⟩ values = .ok content := by
  have hsegments : segments ⟨template, content⟩ = content.toList.map .char :=
    recognizes_placeholder?.scan_of_not_standsAt h
  rw [render_eq_ok_iff, placeholders, hsegments]
  simp

/-- What is put in for a string is the inside of a literal for that string and no other. It is read
up to the quote that is written behind it, and every quote or backslash in it is escaped. A template
that has the placeholder between quotes is thus rendered to a literal for the string, and around it
to what the text before and the text behind are rendered to; without placeholders they stay as they
are. -/
theorem insertion_string_inside (s : String) :
    (∀ s', Json.Spells (insertion (.string s)) s' ↔ s' = s.toList) ∧
    (∀ rest, Json.readLiteral (insertion (.string s) ++ '"' :: rest) = some (s.toList, rest)) ∧
    Json.parse? (quoted (.string s)) = some (.string s) ∧
    (∀ c ∈ insertion (.string s), 0x20 ≤ c.toNat) ∧
    (∀ c ∈ Json.unescaped (insertion (.string s)), c ≠ '"' ∧ c ≠ '\\') ∧
    ∀ (values : SortedMap String Json) (written name : List Char), IsPlaceholder written name →
      values.get? (.ofList name) = some (.string s) → ∀ template before behind : String,
      let content := before ++ "\"" ++ .ofList written ++ "\"" ++ behind
      (∀ text text', render ⟨template, before⟩ values = .ok text →
        render ⟨template, behind⟩ values = .ok text' →
        render ⟨template, content⟩ values = .ok (text ++ quoted (.string s) ++ text')) ∧
      ((∀ i w n, ¬ StandsAt IsPlaceholder before.toList i w n) →
        (∀ i w n, ¬ StandsAt IsPlaceholder behind.toList i w n) →
        render ⟨template, content⟩ values = .ok (before ++ quoted (.string s) ++ behind)) := by
  have hspells : Json.Spells (insertion (.string s)) s.toList := Json.spells_escape s.toList
  refine ⟨fun s' => ⟨fun h => h.unique hspells, ?_⟩, hspells.readLiteral_append, ?_,
    hspells.printable, ?_, ?_⟩
  · rintro rfl
    exact hspells
  · exact hspells.parse?.trans (by rw [String.ofList_toList])
  · intro c hc
    have hplain := hspells.isPlain_unescaped c hc
    exact ⟨hplain.no_quote, hplain.no_backslash⟩
  · intro values written name hhole hvalue template before behind content
    refine ⟨fun text text' hbefore hbehind => render_around hhole hvalue hbefore hbehind, ?_⟩
    intro hbefore hbehind
    exact render_around hhole hvalue (render_of_not_standsAt hbefore)
      (render_of_not_standsAt hbehind)

namespace Banner

/-- Would go on with another field if it were put in as it is, and ends with a backslash. -/
def intrusion : String := "\", \"owner\": \"me\n\x01\\"

def placeholder : List Char :=
  '{' :: '{' :: ([' '] ++ '.' :: ("title".toList ++ ([' '] ++ ['}', '}'])))

theorem isPlaceholder : IsPlaceholder placeholder "title".toList := by
  have hwhite : ∀ c ∈ [' '], Text.IsWhiteSpace c :=
    List.forall_mem_singleton.2 (by decide)
  have hname : IsIdentifier "title".toList :=
    ⟨'t', "itle".toList, by decide, by decide, List.all_eq_true.1 (by decide)⟩
  exact .intro hwhite hname hwhite

theorem intrusion_enclosed :
    let before := "\x7b\"title\": "
    let behind := ", \"size\": \x7b\x7b.size\x7d\x7d\x7d"
    let parameters := parameters.insert "title" (.string intrusion)
    IsPlaceholder placeholder "title".toList ∧
    render ⟨"banner.json", before⟩ parameters = .ok before ∧
    render ⟨"banner.json", behind⟩ parameters = .ok ", \"size\": 3\x7d" ∧
    render ⟨"banner.json", before ++ "\"" ++ .ofList placeholder ++ "\"" ++ behind⟩ parameters =
      .ok (before ++ "\"\\\", \\\"owner\\\": \\\"me\\n\\u0001\\\\\"" ++ ", \"size\": 3\x7d") := by
  intro before behind parameters
  have hbefore : render ⟨"banner.json", before⟩ parameters = .ok before := by decide +kernel
  have hbehind : render ⟨"banner.json", behind⟩ parameters = .ok ", \"size\": 3\x7d" := by
    decide +kernel
  have htitle : parameters.get? (.ofList "title".toList) = some (.string intrusion) := by
    decide +kernel
  have hliteral : quoted (.string intrusion) =
      "\"\\\", \\\"owner\\\": \\\"me\\n\\u0001\\\\\"" := by decide +kernel
  obtain ⟨_, _, _, _, _, haround⟩ := insertion_string_inside intrusion
  have hrender := (haround parameters _ _ isPlaceholder htitle "banner.json" before behind).1
    _ _ hbefore hbehind
  rw [hliteral] at hrender
  exact ⟨isPlaceholder, hbefore, hbehind, hrender⟩

end Banner

end Template

end Rollout
