import Rollout.Parameter
import Mathlib.Tactic.Choose

/-! The references of a parameter are those that stand anywhere in it, at whatever depth. The value
depends on the context only through them, and only they can stand behind an error about a
reference. -/

namespace Rollout

variable {vars : Variables} {ctx ctx' : Context} {e : ParameterError} {r : Reference}

/-! ### Where references stand -/

namespace Parameter

/-- A reference stands somewhere in a parameter. -/
inductive Mentions (r : Reference) : Parameter → Prop
  | reference : Mentions r (.reference r)
  | item {items : List Parameter} {item : Parameter} (mem : item ∈ items)
    (mentions : Mentions r item) : Mentions r (.list items)
  | part {format : String} {parts : List (String × Parameter)} {name : String} {part : Parameter}
    (mem : (name, part) ∈ parts) (mentions : Mentions r part) : Mentions r (.compound format parts)

mutual

theorem mem_references_iff : (p : Parameter) → (r ∈ p.references ↔ p.Mentions r)
  | .literal _ => by
    rw [references]
    exact ⟨nofun, nofun⟩
  | .environment _ _ => by
    rw [references]
    exact ⟨nofun, nofun⟩
  | .reference target => by
    rw [references, List.mem_singleton]
    constructor
    · rintro rfl
      exact .reference
    · rintro ⟨⟩
      rfl
  | .list items => by
    rw [references, mem_itemReferences_iff items]
    constructor
    · rintro ⟨item, hmem, h⟩
      exact .item hmem h
    · rintro ⟨⟩
      exact ⟨_, ‹_›, ‹_›⟩
  | .compound format parts => by
    rw [references, mem_partReferences_iff parts]
    constructor
    · rintro ⟨⟨name, part⟩, hmem, h⟩
      exact .part hmem h
    · rintro ⟨⟩
      exact ⟨_, ‹_›, ‹_›⟩

theorem mem_itemReferences_iff : (items : List Parameter) →
    (r ∈ itemReferences items ↔ ∃ item ∈ items, item.Mentions r)
  | [] => by simp [itemReferences]
  | item :: rest => by
    rw [itemReferences, List.mem_append, mem_references_iff item, mem_itemReferences_iff rest]
    simp only [List.mem_cons, exists_eq_or_imp]

theorem mem_partReferences_iff : (parts : List (String × Parameter)) →
    (r ∈ partReferences parts ↔ ∃ p ∈ parts, p.2.Mentions r)
  | [] => by simp [partReferences]
  | (name, part) :: rest => by
    rw [partReferences, List.mem_append, mem_references_iff part, mem_partReferences_iff rest]
    simp only [List.mem_cons, exists_eq_or_imp]

end

/-! ### Contexts that agree -/

theorem resolveReference_eq (hcontains : ctx.contains r.coordinate = ctx'.contains r.coordinate)
    (hlookup : ctx.lookup? r = ctx'.lookup? r) :
    resolveReference ctx r = resolveReference ctx' r := by
  rw [resolveReference, resolveReference, hcontains, hlookup]

theorem resolveReference_congr (h : ctx.get? r.coordinate = ctx'.get? r.coordinate) :
    resolveReference ctx r = resolveReference ctx' r := by
  refine resolveReference_eq ?_ ?_
  · rw [Context.contains, Context.contains, h]
  · rw [Context.lookup?, h]
    rfl

mutual

theorem resolve_congr : (p : Parameter) →
    (∀ r ∈ p.references, resolveReference ctx r = resolveReference ctx' r) →
      p.resolve vars ctx = p.resolve vars ctx'
  | .literal _, _ => by rw [resolve, resolve]
  | .environment _ _, _ => by
    unfold resolve
    rfl
  | .reference target, h => by
    rw [resolve, resolve]
    rw [references] at h
    exact h target (List.mem_singleton_self _)
  | .list items, h => by
    rw [resolve, resolve]
    rw [references] at h
    rw [resolveItems_congr items h]
  | .compound _ parts, h => by
    rw [resolve, resolve]
    rw [references] at h
    rw [resolveParts_congr parts h]

theorem resolveItems_congr : (items : List Parameter) →
    (∀ r ∈ itemReferences items, resolveReference ctx r = resolveReference ctx' r) →
      resolveItems vars ctx items = resolveItems vars ctx' items
  | [], _ => by rw [resolveItems, resolveItems]
  | item :: rest, h => by
    rw [itemReferences, List.forall_mem_append] at h
    rw [resolveItems, resolveItems, resolve_congr item h.1, resolveItems_congr rest h.2]

theorem resolveParts_congr : (parts : List (String × Parameter)) →
    (∀ r ∈ partReferences parts, resolveReference ctx r = resolveReference ctx' r) →
      resolveParts vars ctx parts = resolveParts vars ctx' parts
  | [], _ => by rw [resolveParts, resolveParts]
  | (_, part) :: rest, h => by
    rw [partReferences, List.forall_mem_append] at h
    rw [resolveParts, resolveParts, resolve_congr part h.1, resolveParts_congr rest h.2]

end

end Parameter

/-! ### Formats -/

/-- The error for the first of the names that has one. -/
def ParameterError.IsFirst (text? : List Char → Except ParameterError String)
    (names : List (List Char)) (e : ParameterError) : Prop :=
  ∃ before name after, names = before ++ name :: after ∧
    (∀ earlier ∈ before, ∃ text, text? earlier = .ok text) ∧ text? name = .error e

namespace Parameter

theorem exists_isFirst_or_ok (text? : List Char → Except ParameterError String)
    (names : List (List Char)) :
    (∃ e, ParameterError.IsFirst text? names e) ∨ ∀ name ∈ names, ∃ text, text? name = .ok text := by
  induction names with
  | nil => exact .inr nofun
  | cons name rest ih =>
    cases htext : text? name with
    | error e => exact .inl ⟨e, [], name, rest, rfl, nofun, htext⟩
    | ok text =>
      rcases ih with ⟨e, before, failing, after, rfl, hbefore, hfailing⟩ | hok
      · refine .inl ⟨e, name :: before, failing, after, rfl, ?_, hfailing⟩
        exact List.forall_mem_cons.2 ⟨⟨text, htext⟩, hbefore⟩
      · exact .inr (List.forall_mem_cons.2 ⟨⟨text, htext⟩, hok⟩)

section

variable {parts : List (String × Except ParameterError Json)} {segments : List Text.Segment}

theorem fillFormat_char (c : Char) :
    fillFormat parts (.char c :: segments) = (fillFormat parts segments).map (c :: ·) := by
  rw [fillFormat]
  cases fillFormat parts segments <;> rfl

theorem fillFormat_hole_ok {name : List Char} {text : String}
    (h : partText parts (.ofList name) = .ok text) :
    fillFormat parts (.hole name :: segments) =
      (fillFormat parts segments).map (text.toList ++ ·) := by
  rw [fillFormat, h]
  cases fillFormat parts segments <;> rfl

theorem fillFormat_hole_error {name : List Char} (h : partText parts (.ofList name) = .error e) :
    fillFormat parts (.hole name :: segments) = .error e := by
  rw [fillFormat, h]
  rfl

theorem fillFormat_congr {parts' : List (String × Except ParameterError Json)}
    (h : ∀ name ∈ Text.Segment.names segments,
      partText parts (.ofList name) = partText parts' (.ofList name)) :
    fillFormat parts segments = fillFormat parts' segments := by
  induction segments with
  | nil => rfl
  | cons segment rest ih =>
    cases segment with
    | char c => rw [fillFormat_char, fillFormat_char, ih h]
    | hole name =>
      obtain ⟨hname, hrest⟩ := List.forall_mem_cons.1 h
      rw [fillFormat, fillFormat, hname, ih hrest]

theorem fillFormat_of_ok {texts : List Char → String}
    (h : ∀ name ∈ Text.Segment.names segments, partText parts (.ofList name) = .ok (texts name)) :
    fillFormat parts segments =
      .ok (Text.Segment.fill (fun name => (texts name).toList) segments) := by
  induction segments with
  | nil => rfl
  | cons segment rest ih =>
    cases segment with
    | char c =>
      rw [fillFormat_char, ih h]
      rfl
    | hole name =>
      obtain ⟨hname, hrest⟩ := List.forall_mem_cons.1 h
      rw [fillFormat_hole_ok hname, ih hrest]
      rfl

theorem fillFormat_of_isFirst
    (h : e.IsFirst (fun name => partText parts (.ofList name)) (Text.Segment.names segments)) :
    fillFormat parts segments = .error e := by
  obtain ⟨before, failing, after, hnames, hbefore, hfailing⟩ := h
  induction segments generalizing before with
  | nil => simp [Text.Segment.names] at hnames
  | cons segment rest ih =>
    cases segment with
    | char c =>
      rw [fillFormat_char, ih before hnames hbefore]
      rfl
    | hole name =>
      cases before with
      | nil =>
        obtain ⟨rfl, _⟩ := List.cons.inj hnames
        exact fillFormat_hole_error hfailing
      | cons first before =>
        obtain ⟨rfl, hrest⟩ := List.cons.inj hnames
        obtain ⟨⟨text, htext⟩, hbefore⟩ := List.forall_mem_cons.1 hbefore
        rw [fillFormat_hole_ok htext, ih before hrest hbefore]
        rfl

theorem fillFormat_eq_error_iff : fillFormat parts segments = .error e ↔
    e.IsFirst (fun name => partText parts (.ofList name)) (Text.Segment.names segments) := by
  refine ⟨fun h => ?_, fillFormat_of_isFirst⟩
  rcases exists_isFirst_or_ok (fun name => partText parts (.ofList name))
    (Text.Segment.names segments) with ⟨e', hfirst⟩ | hok
  · cases h.symm.trans (fillFormat_of_isFirst hfirst)
    exact hfirst
  · choose! texts htexts using hok
    cases h.symm.trans (fillFormat_of_ok htexts)

end

end Parameter

/-! ### Errors -/

/-- The reference that an error is about. -/
def ParameterError.reference? : ParameterError → Option Reference
  | .notDeployed target => some target
  | .noSuchProperty target => some target
  | _ => none

namespace Parameter

theorem resolveReference_error {target : Reference} (h : resolveReference ctx target = .error e) :
    e = .notDeployed target ∧ ctx.get? target.coordinate = none ∨
      e = .noSuchProperty target ∧ ctx.lookup? target = none := by
  unfold resolveReference at h
  split at h
  · split at h
    · cases h
    · rename_i hlookup
      cases h
      exact .inr ⟨rfl, hlookup⟩
  · rename_i hcontains
    cases h
    exact .inl ⟨rfl, by simpa [Context.contains] using hcontains⟩

/-- A format hands on the errors of its parts; its own errors are about no reference. -/
theorem mem_of_fillFormat_error {parts : List (String × Except ParameterError Json)}
    {segments : List Text.Segment} (h : fillFormat parts segments = .error e)
    (hr : e.reference? = some r) : ∃ name, (name, .error e) ∈ parts := by
  obtain ⟨_, name, _, _, _, htext⟩ := fillFormat_eq_error_iff.1 h
  dsimp only [partText] at htext
  split at htext
  · cases htext
    cases hr
  · rename_i hfound
    cases htext
    exact ⟨_, Assoc.mem_of_get? hfound⟩
  · split at htext
    · cases htext
    · cases htext
      cases hr

mutual

theorem resolve_error : (p : Parameter) → p.resolve vars ctx = .error e →
    e.reference? = some r → r ∈ p.references ∧ resolveReference ctx r = .error e
  | .literal _, h, _ => by
    rw [resolve] at h
    cases h
  | .environment name fallback, h, hr => by
    unfold resolve at h
    split at h
    · cases h
    · cases h
    · cases h
      cases hr
  | .reference target, h, hr => by
    rw [resolve] at h
    rw [references]
    rcases resolveReference_error h with ⟨rfl, _⟩ | ⟨rfl, _⟩
    · cases hr
      exact ⟨List.mem_singleton_self _, h⟩
    · cases hr
      exact ⟨List.mem_singleton_self _, h⟩
  | .list items, h, hr => by
    rw [resolve] at h
    rw [references]
    cases hitems : resolveItems vars ctx items with
    | ok values =>
      rw [hitems] at h
      cases h
    | error e' =>
      rw [hitems] at h
      cases h
      exact resolveItems_error items hitems hr
  | .compound format parts, h, hr => by
    rw [resolve] at h
    rw [references]
    cases hfill : fillFormat (resolveParts vars ctx parts) (formatSegments format) with
    | ok text =>
      rw [hfill] at h
      cases h
    | error e' =>
      rw [hfill] at h
      cases h
      obtain ⟨_, hmem⟩ := mem_of_fillFormat_error hfill hr
      exact resolveParts_error parts hmem hr

theorem resolveItems_error : (items : List Parameter) →
    resolveItems vars ctx items = .error e → e.reference? = some r →
      r ∈ itemReferences items ∧ resolveReference ctx r = .error e
  | [], h, _ => by
    rw [resolveItems] at h
    cases h
  | item :: rest, h, hr => by
    rw [resolveItems] at h
    rw [itemReferences]
    cases hitem : resolve vars ctx item with
    | error e' =>
      rw [hitem] at h
      cases h
      exact (resolve_error item hitem hr).imp_left (List.mem_append_left _)
    | ok value =>
      rw [hitem] at h
      dsimp only [bind, Except.bind] at h
      cases hrest : resolveItems vars ctx rest with
      | ok values =>
        rw [hrest] at h
        cases h
      | error e' =>
        rw [hrest] at h
        cases h
        exact (resolveItems_error rest hrest hr).imp_left (List.mem_append_right _)

theorem resolveParts_error : (parts : List (String × Parameter)) → {name : String} →
    (name, .error e) ∈ resolveParts vars ctx parts → e.reference? = some r →
      r ∈ partReferences parts ∧ resolveReference ctx r = .error e
  | [], _, h, _ => by
    rw [resolveParts] at h
    cases h
  | (_, part) :: rest, _, h, hr => by
    rw [resolveParts] at h
    rw [partReferences]
    rcases List.mem_cons.1 h with h | h
    · obtain ⟨_, hpart⟩ := Prod.mk.inj h
      exact (resolve_error part hpart.symm hr).imp_left (List.mem_append_left _)
    · exact (resolveParts_error rest h hr).imp_left (List.mem_append_right _)

end

/-- Only a reference to something that is not in the context is said not to be deployed. -/
theorem notDeployed_of_resolve {p : Parameter} (h : p.resolve vars ctx = .error (.notDeployed r)) :
    r ∈ p.references ∧ ctx.contains r.coordinate = false := by
  obtain ⟨hmem, herror⟩ := resolve_error p h rfl
  refine ⟨hmem, ?_⟩
  rcases resolveReference_error herror with ⟨_, hmissing⟩ | ⟨heq, _⟩
  · rw [Context.contains, hmissing]
    rfl
  · cases heq

/-- The value of a parameter, or its error, is the same in any two contexts that agree on its
references. None of them is missing as long as the context has the configs they point at. -/
theorem resolve_reads_references (p : Parameter) (vars : Variables) :
    (∀ ctx ctx' : Context, (∀ r ∈ p.references,
      ctx.contains r.coordinate = ctx'.contains r.coordinate ∧ ctx.lookup? r = ctx'.lookup? r) →
      p.resolve vars ctx = p.resolve vars ctx') ∧
    ∀ ctx : Context, (∀ r ∈ p.references, ctx.contains r.coordinate = true) →
      ∀ r, p.resolve vars ctx ≠ .error (.notDeployed r) := by
  constructor
  · intro ctx ctx' hagree
    apply resolve_congr
    intro r hr
    obtain ⟨hcontains, hlookup⟩ := hagree r hr
    exact resolveReference_eq hcontains hlookup
  · intro ctx hcontains r herror
    obtain ⟨hr, hmissing⟩ := notDeployed_of_resolve herror
    cases (hcontains r hr).symm.trans hmissing

end Parameter

/-! ### The label of a zone -/

namespace Zone

def coordinate (id : String) : Coordinate := ⟨"shop", "management-zone", id⟩

def name (id : String) : Parameter := .reference ⟨coordinate id, "name"⟩

/-- One of the parts is not in the format. -/
def label : Parameter :=
  .compound "$\x7bzone\x7d/$\x7bcount\x7d-$\x7bzone\x7d"
    [("count", .literal (.ofNat 3)), ("other", name "south"), ("zone", name "north")]

def entity (id remoteId name : String) : ResolvedEntity :=
  ⟨coordinate id, remoteId, .ofList [("name", .string name)]⟩

def context : Context :=
  (Context.empty.insert (entity "north" "object-1" "North")).insert
    (entity "south" "object-2" "South")

/-- With other ids, and with one zone more. -/
def laterContext : Context :=
  ((Context.empty.insert (entity "north" "object-7" "North")).insert
    (entity "south" "object-8" "South")).insert (entity "west" "object-9" "West")

theorem label_reads_names : context ≠ laterContext ∧
    label.resolve (fun _ => none) context = label.resolve (fun _ => none) laterContext ∧
    ∀ r, label.resolve (fun _ => none) context ≠ .error (.notDeployed r) := by
  obtain ⟨hsame, hdeployed⟩ := Parameter.resolve_reads_references label (fun _ => none)
  exact ⟨by decide, hsame _ _ (by decide), hdeployed _ (by decide)⟩

end Zone

end Rollout
