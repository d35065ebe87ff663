import Rollout.Proofs.Parameter
import Rollout.Proofs.Text.Holes
import Mathlib.Data.List.TakeWhile

/-! Formats of compound parameters. The parts that a format names are those in its holes `${name}`,
which stand apart from each other. The value is the format with all of them filled at once, and
where one cannot be filled the first such is the error; parts that are not named make no difference.
-/

namespace Rollout

open Text (Piece Segment StandsAt IsReading)

namespace Parameter

variable {vars : Variables} {ctx : Context} {name written : List Char}

/-- Names begin with a letter or `_` and go on with letters, digits, `_`, `.` and `-`. -/
def IsPartName (name : List Char) : Prop :=
  ∃ first rest, name = first :: rest ∧ Text.isLetterOrUnderscore first = true ∧
    ∀ c ∈ rest, isPartChar c = true

/-- The name of a part, and `${name}`. -/
structure IsPartHole (written name : List Char) : Prop where
  isPartName : IsPartName name
  written : written = '$' :: '{' :: (name ++ ['}'])

/-- The text that stands for a name: that of the value of the part. -/
def textFor (vars : Variables) (ctx : Context) (parts : List (String × Parameter))
    (name : List Char) : Except ParameterError String :=
  match Assoc.get? (.ofList name) parts with
  | none => .error (.noSuchPart (.ofList name))
  | some part =>
    match part.resolve vars ctx with
    | .error e => .error e
    | .ok (.string s) => .ok s
    | .ok (.number n) => .ok (Json.render (.number n))
    | .ok (.bool b) => .ok (Json.render (.bool b))
    | .ok value => .error (.partWithoutText (.ofList name) value)

/-! ### Holes of a format -/

theorem IsPartName.isPartChar (h : IsPartName name) : ∀ c ∈ name, isPartChar c = true := by
  obtain ⟨first, rest, rfl, hfirst, hrest⟩ := h
  refine List.forall_mem_cons.2 ⟨?_, hrest⟩
  rw [Parameter.isPartChar, hfirst]
  rfl

theorem partHole?_of_isPartName (h : IsPartName name) (rest : List Char) :
    partHole? ('$' :: '{' :: (name ++ '}' :: rest)) = some ⟨name, name.length + 3⟩ := by
  have htake : (name ++ '}' :: rest).takeWhile Parameter.isPartChar = name := by
    rw [List.takeWhile_append_of_pos h.isPartChar]
    simp [show Parameter.isPartChar '}' = false by decide]
  obtain ⟨first, others, rfl, hfirst, _⟩ := h
  rw [partHole?, htake]
  simp [hfirst]

theorem exists_of_partHole? {text : List Char} {h : Text.Hole} (hfound : partHole? text = some h) :
    IsPartName h.name ∧ h.width = h.name.length + 3 ∧
      ∃ rest, text = '$' :: '{' :: (h.name ++ '}' :: rest) := by
  unfold partHole? at hfound
  split at hfound
  · rename_i rest
    dsimp only at hfound
    split at hfound
    · rename_i first others after hname hafter
      split at hfound
      · rename_i hfirst
        cases hfound
        refine ⟨⟨first, others, hname, hfirst, fun c hc => ?_⟩, rfl, after, ?_⟩
        · exact List.mem_takeWhile_imp (hname ▸ List.mem_cons_of_mem _ hc)
        · have hsplit := List.prefix_iff_eq_append.1 (List.takeWhile_prefix (l := rest) isPartChar)
          rw [hafter] at hsplit
          rw [hsplit]
      · cases hfound
    · cases hfound
  · cases hfound

/-- A hole begins with its only `$`. -/
theorem IsPartHole.shape (h : IsPartHole written name) : ∃ rest, rest ≠ [] ∧
    written = List.replicate 1 '$' ++ rest ∧ '$' ∉ rest := by
  have hname : '$' ∉ name := by
    intro hmem
    exact absurd (h.isPartName.isPartChar _ hmem) (by decide)
  exact ⟨'{' :: (name ++ ['}']), nofun, h.written, by simp [hname]⟩

theorem recognizes_partHole? : Text.Recognizes partHole? IsPartHole where
  hole?_eq_some_iff text h := by
    constructor
    · intro hfound
      obtain ⟨hname, hwidth, rest, rfl⟩ := exists_of_partHole? hfound
      exact ⟨_, ⟨hname, rfl⟩, by simp [hwidth], rest, by simp⟩
    · rintro ⟨_, ⟨hname, rfl⟩, hwidth, rest, rfl⟩
      obtain ⟨name, width⟩ := h
      obtain rfl : name.length + 3 = width := by simpa using hwidth
      simpa using partHole?_of_isPartName hname rest
  apart _ _ _ _ _ _ _ h h' hlt :=
    Text.apart_of_replicate Nat.one_pos (fun _ _ h => h.shape) h h' hlt
  ne_nil w n h := by
    rw [h.written]
    nofun

/-! ### Texts of parts -/

theorem get?_resolveParts (parts : List (String × Parameter)) (name : String) :
    Assoc.get? name (resolveParts vars ctx parts) =
      (Assoc.get? name parts).map (resolve vars ctx) := by
  induction parts with
  | nil => rfl
  | cons part rest ih =>
    obtain ⟨key, part⟩ := part
    rw [resolveParts, Assoc.get?, Assoc.get?, ih]
    split <;> rfl

theorem partText_resolveParts (parts : List (String × Parameter)) (name : List Char) :
    partText (resolveParts vars ctx parts) (.ofList name) = textFor vars ctx parts name := by
  rw [partText, textFor, get?_resolveParts]
  cases Assoc.get? (.ofList name) parts with
  | none => rfl
  | some part =>
    dsimp only [Option.map_some]
    cases part.resolve vars ctx with
    | error e => rfl
    | ok value => cases value <;> rfl

/-! ### Values of formats -/

theorem resolve_compound_eq (format : String) (parts : List (String × Parameter)) :
    (compound format parts).resolve vars ctx =
      (fillFormat (resolveParts vars ctx parts) (formatSegments format)).map
        fun text => .string (.ofList text) := by
  rw [resolve]

theorem resolve_compound_of_ok {format : String} {parts : List (String × Parameter)}
    {texts : List Char → String}
    (h : ∀ name ∈ Segment.names (formatSegments format),
      textFor vars ctx parts name = .ok (texts name)) :
    (compound format parts).resolve vars ctx =
      .ok (.string (.ofList (Segment.fill (fun name => (texts name).toList)
        (formatSegments format)))) := by
  rw [resolve_compound_eq, fillFormat_of_ok fun name hname => ?_]
  · rfl
  · rw [partText_resolveParts, h name hname]

theorem resolve_compound_eq_error_iff {format : String} {parts : List (String × Parameter)}
    {e : ParameterError} : (compound format parts).resolve vars ctx = .error e ↔
      e.IsFirst (textFor vars ctx parts) (Segment.names (formatSegments format)) := by
  have htexts : (fun name => partText (resolveParts vars ctx parts) (.ofList name)) =
      textFor vars ctx parts := funext fun name => partText_resolveParts parts name
  rw [← htexts, ← fillFormat_eq_error_iff, resolve_compound_eq]
  cases fillFormat (resolveParts vars ctx parts) (formatSegments format) <;> simp [Except.map]

theorem resolve_compound_congr {format : String} {parts parts' : List (String × Parameter)}
    (h : ∀ name ∈ Segment.names (formatSegments format),
      Assoc.get? (.ofList name) parts' = Assoc.get? (.ofList name) parts) :
    (compound format parts').resolve vars ctx = (compound format parts).resolve vars ctx := by
  rw [resolve_compound_eq, resolve_compound_eq, fillFormat_congr fun name hname => ?_]
  rw [partText_resolveParts, partText_resolveParts, textFor, textFor, h name hname]

/-- Two holes of a format are the same or do not overlap. If there is a text for every name in them,
the value is the format with each hole replaced by its text and all else as it is; otherwise the
error is that for the leftmost hole which has one. Parts that stand in no hole make no difference.
-/
theorem resolve_compound (vars : Variables) (ctx : Context) (format : String)
    (parts : List (String × Parameter)) :
    (∀ i j w w' n n', StandsAt IsPartHole format.toList i w n →
      StandsAt IsPartHole format.toList j w' n' →
      (i = j ∧ w = w' ∧ n = n') ∨ i + w.length ≤ j ∨ j + w'.length ≤ i) ∧
    (∃ pieces, IsReading IsPartHole format.toList pieces ∧
      let segments := pieces.map Piece.segment
      segments = formatSegments format ∧
      (∀ texts : List Char → String,
        (∀ name ∈ Segment.names segments, textFor vars ctx parts name = .ok (texts name)) →
          (compound format parts).resolve vars ctx =
            .ok (.string (.ofList (Segment.fill (fun name => (texts name).toList) segments)))) ∧
      ∀ e, (compound format parts).resolve vars ctx = .error e ↔
        e.IsFirst (textFor vars ctx parts) (Segment.names segments)) ∧
    ∀ parts', (∀ i w name, StandsAt IsPartHole format.toList i w name →
        Assoc.get? (.ofList name) parts' = Assoc.get? (.ofList name) parts) →
      (compound format parts').resolve vars ctx = (compound format parts).resolve vars ctx := by
  obtain ⟨pieces, hreading, hsegments⟩ := recognizes_partHole?.exists_isReading format.toList
  have hformat : pieces.map Piece.segment = formatSegments format := hsegments
  refine ⟨fun _ _ _ _ _ _ h h' => recognizes_partHole?.eq_or_apart h h',
    ⟨pieces, hreading, hformat, ?_⟩, ?_⟩
  · rw [hformat]
    exact ⟨fun texts h => resolve_compound_of_ok h, fun e => resolve_compound_eq_error_iff⟩
  · intro parts' hsame
    refine resolve_compound_congr fun name hname => ?_
    rw [← hformat] at hname
    obtain ⟨i, w, hstands⟩ := hreading.exists_standsAt hname
    exact hsame i w name hstands

end Parameter

/-! ### A format that gives itself -/

namespace Zone

/-- Two holes between beginnings of others. What is put into them is a hole as well. -/
def quotation : String := "$\x7b$\x7bname\x7d$\x7bname\x7d $\x7b"

/-- The other part has no value where nothing is deployed. -/
def quotationParts : List (String × Parameter) :=
  [("name", .literal (.string "$\x7bname\x7d")), ("other", name "south")]

theorem quotation_resolved :
    (∀ hole ∈ Segment.names (Parameter.formatSegments quotation),
      Parameter.textFor (fun _ => none) .empty quotationParts hole = .ok "$\x7bname\x7d") ∧
    (Parameter.compound quotation quotationParts).resolve (fun _ => none) .empty =
      .ok (.string quotation) := by
  obtain ⟨_, ⟨pieces, _, hsegments, hok, _⟩, _⟩ :=
    Parameter.resolve_compound (fun _ => none) .empty quotation quotationParts
  rw [hsegments] at hok
  have hnames : Segment.names (Parameter.formatSegments quotation) =
      ["name".toList, "name".toList] := by decide
  have htexts : ∀ hole ∈ Segment.names (Parameter.formatSegments quotation),
      Parameter.textFor (fun _ => none) .empty quotationParts hole = .ok "$\x7bname\x7d" := by
    rw [hnames]
    simp only [List.forall_mem_cons]
    exact ⟨rfl, rfl, nofun⟩
  exact ⟨htexts, hok _ htexts⟩

end Zone

end Rollout
