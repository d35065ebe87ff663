import Rollout.Proofs.Coordinate
import Rollout.Proofs.Delete.Removal

/-! What entries with a project match. The external id of a config is a digest of the display of its
coordinate, in which any part may hold the separator. As long as the digest tells displays apart, an
entry still finds the object of one config only, since it has the type in common with it. -/

namespace Rollout

variable {e : DeleteEntry} {type : ConfigType} {object : RemoteObject} {existing : List RemoteObject}
  {c : Coordinate} {id : String}

/-- The coordinate that an entry with a project names. -/
def DeleteEntry.coordinate? (e : DeleteEntry) : Option Coordinate :=
  e.project.map fun project => ⟨project, e.configType, e.identifier⟩

/-- The digest tells the coordinate that an entry names from another one with a different display.
-/
def DeleteEntry.TellsApart (e : DeleteEntry) (c : Coordinate) : Prop :=
  ∀ d, e.coordinate? = some d → d.digest = c.digest → d.display = c.display

theorem mem_matchingIds_iff : id ∈ matchingIds e type existing ↔
    ∃ object ∈ existing, e.names type object = true ∧ object.id = id := by
  simp only [matchingIds, mem_ascending, List.mem_map, List.mem_filter, and_assoc]

namespace DeleteEntry

/-- Without a project an entry finds by the id alone. -/
theorem names_iff_of_project_eq_none (hkind : type.kind ≠ .classicApi) (hproject : e.project = none) :
    e.names type object = true ↔ object.id = e.identifier := by
  rw [names_iff]
  constructor
  · intro h
    cases h with
    | id same => exact same
    | name classic _ => exact absurd classic hkind
    | externalId _ named _ => cases hproject.symm.trans named
  · exact .id

theorem coordinate?_eq_some_iff : e.coordinate? = some c ↔
    e.project = some c.project ∧ e.configType = c.configType ∧ e.identifier = c.configId := by
  obtain ⟨project, configType, configId⟩ := c
  simp only [coordinate?, Option.map_eq_some_iff, Coordinate.mk.injEq]
  constructor
  · rintro ⟨_, hproject, rfl, htype, hid⟩
    exact ⟨hproject, htype, hid⟩
  · rintro ⟨hproject, htype, hid⟩
    exact ⟨_, hproject, rfl, htype, hid⟩

/-- The object of a config is found by the coordinate of that config. -/
theorem names_iff_coordinate? (hkind : type.kind ≠ .classicApi) (htype : c.configType = e.configType)
    (hplain : c.IsPlain) (hexternal : object.externalId = some c.externalId)
    (hid : object.id ≠ e.identifier) (hdigests : e.TellsApart c) :
    e.names type object = true ↔ e.coordinate? = some c := by
  rw [names_iff]
  constructor
  · intro h
    cases h with
    | id same => exact absurd same hid
    | name classic _ => exact absurd classic hkind
    | @externalId project _ named same =>
      have hcoordinate : e.coordinate? = some ⟨project, e.configType, e.identifier⟩ := by
        rw [coordinate?, named]
        rfl
      rw [hexternal] at same
      have hdigest := Coordinate.digest_eq_of_externalId_eq (Option.some.inj same)
      have hdisplay := hdigests _ hcoordinate hdigest.symm
      have hd : Coordinate.IsPlain ⟨project, e.configType, e.identifier⟩ :=
        hplain.of_display_eq htype.symm hdisplay
      rw [hcoordinate, hd.eq_of_display_eq hplain hdisplay]
  · intro h
    obtain ⟨hproject, htype, hidentifier⟩ := coordinate?_eq_some_iff.1 h
    refine .externalId hkind hproject ?_
    rw [htype, hidentifier]
    exact hexternal

end DeleteEntry

/-- For any type but a classic API. The ids that an entry matches ascend strictly and are those of the
listed objects that it names. The object of a plain coordinate of the entry's type, if it does not
have the identifier for its id, is named just by the entry with the project and the id of that
coordinate, as long as the digest tells them apart; and its id is then matched just by that entry,
if no other object has the same id. Without a project the identifier is the only id that can be
matched. -/
theorem matchingIds_own (hkind : type.kind ≠ .classicApi) (e : DeleteEntry)
    (existing : List RemoteObject) :
    (matchingIds e type existing).Pairwise (compare · · = .lt) ∧
    (∀ id, id ∈ matchingIds e type existing ↔
      ∃ object ∈ existing, e.names type object = true ∧ object.id = id) ∧
    (∀ object ∈ existing, ∀ c : Coordinate, c.configType = e.configType → c.IsPlain →
      object.externalId = some c.externalId → object.id ≠ e.identifier → e.TellsApart c →
      (e.names type object = true ↔ e.project = some c.project ∧ e.identifier = c.configId) ∧
      ((∀ other ∈ existing, other.id = object.id → other = object) →
        (object.id ∈ matchingIds e type existing ↔
          e.project = some c.project ∧ e.identifier = c.configId))) ∧
    (e.project = none → (∀ object, e.names type object = true ↔ object.id = e.identifier) ∧
      ∀ id ∈ matchingIds e type existing, id = e.identifier) := by
  refine ⟨pairwise_ascending _, fun id => mem_matchingIds_iff, ?_, ?_⟩
  · intro object hobject c htype hplain hexternal hid hdigests
    have hnames : e.names type object = true ↔
        e.project = some c.project ∧ e.identifier = c.configId := by
      rw [DeleteEntry.names_iff_coordinate? hkind htype hplain hexternal hid hdigests,
        DeleteEntry.coordinate?_eq_some_iff]
      simp [htype]
    refine ⟨hnames, fun halone => ?_⟩
    rw [← hnames, mem_matchingIds_iff]
    constructor
    · rintro ⟨other, hother, hnamed, hsame⟩
      exact halone other hother hsame ▸ hnamed
    · exact fun hnamed => ⟨object, hobject, hnamed, rfl⟩
  · intro hproject
    have hnames : ∀ object, e.names type object = true ↔ object.id = e.identifier :=
      fun _ => DeleteEntry.names_iff_of_project_eq_none hkind hproject
    refine ⟨hnames, fun id hid => ?_⟩
    obtain ⟨object, _, hnamed, rfl⟩ := mem_matchingIds_iff.1 hid
    exact (hnames object).1 hnamed

/-! ### One tagging rule -/

namespace Tagging

def rule : Coordinate := ⟨"infra", "builtin:tagging.auto", "tag"⟩

def listed : List RemoteObject := [⟨"object-1", none, some rule.externalId⟩, ⟨"object-2", none, none⟩]

def entry (project identifier : String) : DeleteEntry :=
  ⟨"builtin:tagging.auto", identifier, some project⟩

/-- Separators in the project and in the identifier do not make up for each other. -/
theorem rule_matched :
    (ConfigType.settings "builtin:tagging.auto" none).kind ≠ .classicApi ∧
    "object-1" ∈ matchingIds (entry "infra" "tag") (.settings "builtin:tagging.auto" none) listed ∧
    "object-1" ∉ matchingIds (entry "infra:builtin" "builtin:tag")
      (.settings "builtin:tagging.auto" none) listed := by
  have hkind : (ConfigType.settings "builtin:tagging.auto" none).kind ≠ .classicApi := nofun
  have hplain : rule.IsPlain := ⟨by decide, by decide⟩
  have halone : ∀ other ∈ listed, other.id = "object-1" →
      other = ⟨"object-1", none, some rule.externalId⟩ := by
    simp [listed]
  have hown : (entry "infra" "tag").TellsApart rule := by
    rintro _ ⟨⟩ _
    rfl
  have hother : (entry "infra:builtin" "builtin:tag").TellsApart rule := by
    rintro _ ⟨⟩ hdigest
    exact absurd hdigest (by decide +kernel)
  obtain ⟨_, _, howned, _⟩ := matchingIds_own hkind (entry "infra" "tag") listed
  obtain ⟨_, _, hmissed, _⟩ :=
    matchingIds_own hkind (entry "infra:builtin" "builtin:tag") listed
  refine ⟨hkind, ?_, ?_⟩
  · have hmatched := (howned _ List.mem_cons_self rule rfl hplain rfl (by decide) hown).2 halone
    exact hmatched.2 ⟨rfl, rfl⟩
  · have hmatched := (hmissed _ List.mem_cons_self rule rfl hplain rfl (by decide) hother).2 halone
    rw [hmatched]
    decide

end Tagging

end Rollout
