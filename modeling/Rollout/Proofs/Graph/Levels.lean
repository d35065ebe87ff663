import Rollout.Proofs.Graph.Layers
import Mathlib.Order.Bounds.Defs
import Mathlib.Data.List.Chain

/-! The waves of a graph are its levels: a config stands one wave behind the last of its
dependencies, so the number of waves is the length of the longest chain of dependencies. -/

namespace Rollout

namespace DependencyGraph

variable {g : DependencyGraph} {configs : List Config} {placed : List Coordinate}
  {waves : List Wave}

/-- The number of the first wave that holds a config. -/
def waveIndex (waves : List Wave) (c : Coordinate) : Nat := waves.findIdx (c ∈ ·)

theorem waveIndex_cons (wave : Wave) (waves : List Wave) (c : Coordinate) :
    waveIndex (wave :: waves) c = if c ∈ wave then 0 else waveIndex waves c + 1 := by
  by_cases h : c ∈ wave <;> simp [waveIndex, List.findIdx_cons, h]

/-- One config stands in a wave before that of another. -/
def IsEarlier (waves : List Wave) (d c : Coordinate) : Prop :=
  ∃ i j : Nat, i < j ∧ (∃ wave, waves[i]? = some wave ∧ d ∈ wave) ∧
    ∃ wave, waves[j]? = some wave ∧ c ∈ wave

/-- Configs of the graph, each of which depends on the next one. -/
structure IsDependencyChain (g : DependencyGraph) (chain : List Coordinate) : Prop where
  subset : chain ⊆ g.coordinates
  linked : chain.IsChain g.DependsOn

/-- Every config of the graph is in one wave, and it is there because of its dependencies. -/
structure AreLevels (g : DependencyGraph) (waves : List Wave) : Prop where
  nodup : waves.flatten.Nodup
  mem_flatten_iff : ∀ c, c ∈ waves.flatten ↔ c ∈ g.coordinates
  nonempty : ∀ wave ∈ waves, wave ≠ []
  ascending : ∀ wave ∈ waves, wave.Pairwise (compare · · = .lt)
  mem_iff : ∀ {i wave}, waves[i]? = some wave → ∀ c, c ∈ wave ↔ waveIndex waves c = i
  first_iff : ∀ c ∈ g.coordinates, waveIndex waves c = 0 ↔ g.dependencies c = []
  later : ∀ c ∈ g.coordinates, g.dependencies c ≠ [] →
    ∃ m, ((g.dependencies c).map (waveIndex waves)).max? = some m ∧ waveIndex waves c = 1 + m

namespace Layered

theorem waveIndex_lt (h : Layered g placed waves) {c d : Coordinate} (hc : c ∉ placed)
    (hd : d ∈ g.dependencies c) (hnew : d ∉ placed) : waveIndex waves d < waveIndex waves c := by
  have hcoord := mem_coordinates_of_dependency hd
  induction h with
  | nil complete => exact absurd (complete c hcoord) hc
  | @cons placed wave waves _ _ mem_iff _ ih =>
    have hout : c ∉ wave := fun h => hnew (((mem_iff c).1 h).2.2 d hd)
    rw [waveIndex_cons, waveIndex_cons, if_neg hout]
    split
    · omega
    · rename_i hdw
      have := ih (by simp [hc, hout]) (by simp [hnew, hdw])
      omega

theorem exists_dependency (h : Layered g placed waves) {c : Coordinate}
    (hcoord : c ∈ g.coordinates) (hc : c ∉ placed) (hpos : 0 < waveIndex waves c) :
    ∃ d ∈ g.dependencies c, d ∉ placed ∧ waveIndex waves d + 1 = waveIndex waves c := by
  induction h with
  | nil complete => exact absurd (complete c hcoord) hc
  | @cons placed wave waves _ _ mem_iff rest ih =>
    have hout : c ∉ wave := fun h => by simp [waveIndex_cons, h] at hpos
    have hc' : c ∉ placed ++ wave := by simp [hc, hout]
    rw [waveIndex_cons, if_neg hout]
    by_cases hzero : waveIndex waves c = 0
    · -- The config became ready by the first of these waves.
      obtain ⟨d, hd, hnew⟩ : ∃ d ∈ g.dependencies c, d ∉ placed := by
        by_contra hall
        simp only [not_exists, not_and, not_not] at hall
        exact hout ((mem_iff c).2 ⟨hcoord, hc, hall⟩)
      have hdw : d ∈ wave := by
        by_contra hdw
        have := rest.waveIndex_lt hc' hd (by simp [hnew, hdw])
        omega
      exact ⟨d, hd, hnew, by simp [waveIndex_cons, hdw, hzero]⟩
    · obtain ⟨d, hd, hnew, hlast⟩ := ih hc' (by omega)
      rw [List.mem_append, not_or] at hnew
      exact ⟨d, hd, hnew.1, by simp [waveIndex_cons, hnew.2, hlast]⟩

theorem mem_iff (h : Layered g placed waves) {c : Coordinate} (hc : c ∉ placed) {i : Nat}
    {wave : Wave} (hi : waves[i]? = some wave) : c ∈ wave ↔ waveIndex waves c = i := by
  induction h generalizing i with
  | nil => cases hi
  | @cons placed head waves _ _ mem_iff rest ih =>
    rw [waveIndex_cons]
    cases i with
    | zero =>
      obtain rfl : head = wave := Option.some.inj hi
      by_cases h : c ∈ head <;> simp [h]
    | succ i =>
      by_cases h : c ∈ head
      · have hlater : c ∉ wave := fun hw => by
          have hflat : c ∈ waves.flatten :=
            List.mem_flatten.2 ⟨wave, List.mem_of_getElem? hi, hw⟩
          exact (rest.mem_flatten_iff.1 hflat).2 (List.mem_append_right _ h)
        simp [h, hlater]
      · rw [if_neg h, ih (by simp [hc, h]) hi]
        omega

theorem shape (h : Layered g placed waves) :
    ∀ wave ∈ waves, wave ≠ [] ∧ wave.Pairwise (compare · · = .lt) := by
  induction h with
  | nil => simp
  | cons nonempty ascending _ _ ih =>
    exact List.forall_mem_cons.2 ⟨⟨nonempty, ascending⟩, ih⟩

theorem areLevels (h : Layered g [] waves) : AreLevels g waves where
  nodup := h.nodup_flatten
  mem_flatten_iff c := by simp [h.mem_flatten_iff]
  nonempty wave hw := (h.shape wave hw).1
  ascending wave hw := (h.shape wave hw).2
  mem_iff hi _ := h.mem_iff List.not_mem_nil hi
  first_iff c hc := by
    constructor
    · intro hzero
      apply List.eq_nil_iff_forall_not_mem.2
      intro d hd
      have := h.waveIndex_lt List.not_mem_nil hd List.not_mem_nil
      omega
    · intro hnone
      by_contra hpos
      obtain ⟨d, hd, _⟩ := h.exists_dependency hc List.not_mem_nil (Nat.pos_of_ne_zero hpos)
      simp [hnone] at hd
  later c hc hne := by
    obtain ⟨d, hd⟩ := List.exists_mem_of_ne_nil _ hne
    have hlt : ∀ d ∈ g.dependencies c, waveIndex waves d < waveIndex waves c :=
      fun d hd => h.waveIndex_lt List.not_mem_nil hd List.not_mem_nil
    have hpos : 0 < waveIndex waves c := Nat.zero_lt_of_lt (hlt d hd)
    obtain ⟨e, he, _, hlast⟩ := h.exists_dependency hc List.not_mem_nil hpos
    refine ⟨waveIndex waves e, List.max?_eq_some_iff.2 ⟨List.mem_map.2 ⟨e, he, rfl⟩, ?_⟩, by omega⟩
    intro n hn
    obtain ⟨d, hd, rfl⟩ := List.mem_map.1 hn
    have := hlt d hd
    omega

end Layered

namespace AreLevels

theorem waveIndex_lt (h : AreLevels g waves) {c d : Coordinate} (hd : d ∈ g.dependencies c) :
    waveIndex waves d < waveIndex waves c := by
  obtain ⟨m, hm, hc⟩ := h.later c (mem_coordinates_of_dependency hd) (List.ne_nil_of_mem hd)
  have := (List.max?_eq_some_iff.1 hm).2 _ (List.mem_map.2 ⟨d, hd, rfl⟩)
  omega

theorem waveIndex_lt_of_transGen (h : AreLevels g waves) {c d : Coordinate}
    (hd : Relation.TransGen g.DependsOn c d) : waveIndex waves d < waveIndex waves c := by
  induction hd with
  | single hd => exact h.waveIndex_lt hd
  | tail _ hd ih => exact (h.waveIndex_lt hd).trans ih

theorem waveIndex_lt_length (h : AreLevels g waves) {c : Coordinate} (hc : c ∈ g.coordinates) :
    waveIndex waves c < waves.length := by
  obtain ⟨wave, hw, hcw⟩ := List.mem_flatten.1 ((h.mem_flatten_iff c).2 hc)
  exact List.findIdx_lt_length_of_exists ⟨wave, hw, by simpa using hcw⟩

theorem exists_wave (h : AreLevels g waves) {c : Coordinate} (hc : c ∈ g.coordinates) :
    ∃ wave, waves[waveIndex waves c]? = some wave ∧ c ∈ wave := by
  have hwave := List.getElem?_eq_getElem (h.waveIndex_lt_length hc)
  exact ⟨_, hwave, (h.mem_iff hwave c).2 rfl⟩

theorem isEarlier (h : AreLevels g waves) {c d : Coordinate} (hd : d ∈ g.dependencies c)
    (hcoord : d ∈ g.coordinates) : IsEarlier waves d c :=
  ⟨_, _, h.waveIndex_lt hd, h.exists_wave hcoord,
    h.exists_wave (mem_coordinates_of_dependency hd)⟩

/-- Down a chain the waves come earlier and earlier. -/
theorem length_le_of_chain (h : AreLevels g waves) {c : Coordinate} {rest : List Coordinate}
    (hchain : (c :: rest).IsChain g.DependsOn) : rest.length ≤ waveIndex waves c := by
  induction rest generalizing c with
  | nil => exact Nat.zero_le _
  | cons d rest ih =>
    obtain ⟨hd, hrest⟩ := List.isChain_cons_cons.1 hchain
    have := ih hrest
    have := h.waveIndex_lt hd
    rw [List.length_cons]
    omega

theorem exists_chain (h : AreLevels g waves) (hclosed : ∀ c, g.dependencies c ⊆ g.coordinates)
    {c : Coordinate} (hc : c ∈ g.coordinates) :
    ∃ rest, IsDependencyChain g (c :: rest) ∧ rest.length = waveIndex waves c := by
  induction hn : waveIndex waves c using Nat.strongRecOn generalizing c with
  | _ n ih =>
    by_cases hnone : g.dependencies c = []
    · have hzero := (h.first_iff c hc).2 hnone
      exact ⟨[], ⟨by simpa using hc, List.isChain_singleton c⟩, by simp [← hn, hzero]⟩
    · obtain ⟨m, hm, hlast⟩ := h.later c hc hnone
      obtain ⟨d, hd, rfl⟩ := List.mem_map.1 (List.max?_eq_some_iff.1 hm).1
      obtain ⟨rest, hchain, hlength⟩ := ih (waveIndex waves d) (by omega) (hclosed c hd) rfl
      refine ⟨d :: rest, ⟨List.cons_subset.2 ⟨hc, hchain.subset⟩, ?_⟩, by simp; omega⟩
      exact List.isChain_cons_cons.2 ⟨hd, hchain.linked⟩

end AreLevels

/-- The configs of a graph without errors can always be ordered, and their waves are the levels of
the dependencies: no wave holds two configs one of which needs the other, and there are as many
waves as configs on the longest chain. -/
theorem waves_areLevels {configs : List Config} {g : DependencyGraph}
    (hbuild : build configs = .ok g) :
    ∃ waves, g.waves = .ok waves ∧ AreLevels g waves ∧
      waves.flatten.Perm (configs.map (·.coordinate)) ∧
      (∀ c d, g.DependsOn c d → waveIndex waves d < waveIndex waves c) ∧
      (∀ wave ∈ waves, ∀ c ∈ wave, ∀ d ∈ wave, ¬ Relation.TransGen g.DependsOn c d) ∧
      IsGreatest {n | ∃ chain, IsDependencyChain g chain ∧ chain.length = n} waves.length := by
  have H := isGraphOf_of_build hbuild
  obtain ⟨waves, hwaves, hlayered⟩ := exists_waves H
  have hlevels := hlayered.areLevels
  refine ⟨waves, hwaves, hlevels, hlayered.flatten_perm.trans H.coordinates_perm,
    fun c d hd => hlevels.waveIndex_lt hd, ?_, ?_, ?_⟩
  · intro wave hw c hc d hd hpath
    obtain ⟨i, hi⟩ := List.getElem?_of_mem hw
    have := hlevels.waveIndex_lt_of_transGen hpath
    have := (hlevels.mem_iff hi c).1 hc
    have := (hlevels.mem_iff hi d).1 hd
    omega
  · by_cases hempty : waves = []
    · exact ⟨[], ⟨List.nil_subset _, List.isChain_nil⟩, by simp [hempty]⟩
    · have hmem := List.getLast_mem hempty
      obtain ⟨c, hc⟩ := List.exists_mem_of_ne_nil _ (hlevels.nonempty _ hmem)
      have hcoord := (hlevels.mem_flatten_iff c).1 (List.mem_flatten.2 ⟨_, hmem, hc⟩)
      have hlast := List.getLast?_eq_some_getLast hempty
      rw [List.getLast?_eq_getElem?] at hlast
      have hindex := (hlevels.mem_iff hlast c).1 hc
      obtain ⟨rest, hchain, hlength⟩ := hlevels.exists_chain H.closed hcoord
      have hpos := List.length_pos_iff.2 hempty
      exact ⟨c :: rest, hchain, by rw [List.length_cons]; omega⟩
  · rintro n ⟨chain, hchain, rfl⟩
    cases chain with
    | nil => exact Nat.zero_le _
    | cons c rest =>
      have := hlevels.length_le_of_chain hchain.linked
      have := hlevels.waveIndex_lt_length (hchain.subset List.mem_cons_self)
      rw [List.length_cons]
      omega

end DependencyGraph

/-! ### Four tags of which one refers to two that refer to the same -/

namespace Diamond

def tag (id : String) : Coordinate := ⟨"shop", "auto-tag", id⟩

def reference (id property : String) : Parameter := .reference ⟨tag id, property⟩

def config (id : String) (parameters : List (String × Parameter)) : Config where
  coordinate := tag id
  configType := .classicApi "auto-tag"
  environment := "dev"
  parameters := .ofList (("name", .literal (.string id)) :: parameters)
  template := ⟨"tag.json", "\x7b\x7b .name \x7d\x7d"⟩
  skip := false
  originObjectId := none

def top : Config :=
  config "top" [("parts", .list [reference "left" "id", reference "right" "label"])]

def left : Config := config "left" [("base", reference "root" "id")]

def right : Config :=
  config "right" [("label", .compound "of $\x7bbase\x7d" [("base", reference "root" "name")])]

def root : Config := config "root" []

def configs : List Config := [top, left, right, root]

def graph : DependencyGraph := .ofConfigs (DependencyGraph.byCoordinate configs)

def waves : List Wave := [[tag "root"], [tag "left", tag "right"], [tag "top"]]

theorem build_configs : DependencyGraph.build configs = .ok graph := rfl

theorem waves_graph : graph.waves = .ok waves := by rfl

theorem levels : DependencyGraph.build configs = .ok graph ∧ graph.AreLevels waves ∧
    IsGreatest {n | ∃ chain, graph.IsDependencyChain chain ∧ chain.length = n} 3 := by
  obtain ⟨_, hwaves, hlevels, _, _, _, hlongest⟩ :=
    DependencyGraph.waves_areLevels build_configs
  cases waves_graph.symm.trans hwaves
  exact ⟨build_configs, hlevels, hlongest⟩

end Diamond

end Rollout
