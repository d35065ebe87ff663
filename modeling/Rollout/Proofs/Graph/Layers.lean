import Rollout.Graph.Waves
import Rollout.Proofs.Graph.Build

/-! Counting dependencies places the configs in layers: every wave holds exactly the configs that
are not placed before it and whose dependencies are. The invariant of the rounds is that each count
is the number of dependencies that are still to be placed. -/

namespace Rollout.DependencyGraph

variable {g : DependencyGraph} {configs : List Config}

/-- Waves that place everything that is not in `placed`. -/
inductive Layered (g : DependencyGraph) : List Coordinate → List Wave → Prop
  | nil {placed : List Coordinate} (complete : ∀ c ∈ g.coordinates, c ∈ placed) :
    Layered g placed []
  | cons {placed : List Coordinate} {wave : Wave} {waves : List Wave} (nonempty : wave ≠ [])
    (ascending : wave.Pairwise (compare · · = .lt))
    (mem_iff : ∀ c, c ∈ wave ↔
      c ∈ g.coordinates ∧ c ∉ placed ∧ ∀ d ∈ g.dependencies c, d ∈ placed)
    (rest : Layered g (placed ++ wave) waves) : Layered g placed (wave :: waves)

/-! ### Counting down -/

theorem get?_release (counted : Degrees × List Coordinate) (x c : Coordinate) :
    (release counted x).1.get? c = (counted.1.get? c).map (· - if c = x then 1 else 0) := by
  unfold release
  split
  · rename_i n hn
    by_cases hc : c = x
    · subst hc
      simp [hn]
    · simp [SortedMap.get?_insert_of_ne hc, hc]
  · rename_i hx
    by_cases hc : c = x
    · subst hc
      simp [hx]
    · simp [hc]

theorem get?_foldl_release (counts : List Coordinate) (counted : Degrees × List Coordinate)
    (c : Coordinate) :
    (counts.foldl release counted).1.get? c = (counted.1.get? c).map (· - counts.count c) := by
  induction counts generalizing counted with
  | nil => simp
  | cons x rest ih =>
    rw [List.foldl_cons, ih, get?_release, Option.map_map]
    congr 1
    funext n
    by_cases hc : c = x
    · simp [hc]
      omega
    · simp [hc, Ne.symm hc]

/-- No config is counted down more often than its count says. -/
private def Covers (degrees : Degrees) (counts : List Coordinate) : Prop :=
  ∀ c ∈ counts, ∃ n, degrees.get? c = some n ∧ counts.count c ≤ n

private theorem Covers.tail {counted : Degrees × List Coordinate} {x : Coordinate}
    {rest : List Coordinate} (h : Covers counted.1 (x :: rest)) :
    Covers (release counted x).1 rest := by
  intro c hc
  obtain ⟨n, hn, hle⟩ := h c (List.mem_cons_of_mem _ hc)
  refine ⟨_, by rw [get?_release, hn]; rfl, ?_⟩
  rw [List.count_cons] at hle
  by_cases hx : c = x
  · subst hx
    simp at hle ⊢
    omega
  · simpa [hx, Ne.symm hx] using hle

private theorem release_ready {counted : Degrees × List Coordinate} {x : Coordinate} {n : Nat}
    (hn : counted.1.get? x = some n) (hpos : 0 < n) :
    (release counted x).2 = if n = 1 then counted.2 ++ [x] else counted.2 := by
  have h : n - 1 = 0 ↔ n = 1 := by omega
  simp [release, hn, h]

/-- What is counted down to zero becomes ready, once. -/
private theorem ready_foldl_release {counts : List Coordinate}
    {counted : Degrees × List Coordinate} (hcovers : Covers counted.1 counts)
    (hready : counted.2.Nodup) (hnew : ∀ c ∈ counted.2, c ∉ counts) :
    (counts.foldl release counted).2.Nodup ∧
    ∀ c, c ∈ (counts.foldl release counted).2 ↔
      c ∈ counted.2 ∨ (c ∈ counts ∧ counted.1.get? c = some (counts.count c)) := by
  induction counts generalizing counted with
  | nil => simp [hready]
  | cons x rest ih =>
    obtain ⟨n, hn, hle⟩ := hcovers x List.mem_cons_self
    rw [List.count_cons_self] at hle
    have hx : x ∉ counted.2 := fun h => hnew x h List.mem_cons_self
    have hstep : ∀ c, c ∈ (release counted x).2 ↔ c ∈ counted.2 ∨ (c = x ∧ n = 1) := by
      intro c
      rw [release_ready hn (by omega)]
      split <;> simp [*]
    have hnodup : (release counted x).2.Nodup := by
      rw [release_ready hn (by omega)]
      split
      · exact List.nodup_append.2 ⟨hready, List.nodup_singleton x,
          fun a ha b hb heq => hx (List.mem_singleton.1 hb ▸ heq ▸ ha)⟩
      · exact hready
    have hrest : ∀ c ∈ (release counted x).2, c ∉ rest := by
      intro c hc
      rcases (hstep c).1 hc with hc | ⟨rfl, rfl⟩
      · exact fun h => hnew c hc (List.mem_cons_of_mem _ h)
      · exact List.count_eq_zero.1 (by omega)
    obtain ⟨hfinal, hmem⟩ := ih hcovers.tail hnodup hrest
    refine ⟨hfinal, fun c => ?_⟩
    rw [List.foldl_cons, hmem, hstep, get?_release]
    by_cases hc : c = x
    · subst hc
      simp only [hn, hx, List.count_cons_self, Option.map_some, Option.some.injEq, if_true,
        List.mem_cons, true_or, true_and, false_or]
      by_cases hin : c ∈ rest
      · have hpos : 0 < rest.count c := List.count_pos_iff.2 hin
        simp only [hin, true_and]
        omega
      · have hzero : rest.count c = 0 := List.count_eq_zero.2 hin
        simp only [hin, false_and, or_false]
        omega
    · simp [hc, Ne.symm hc]

/-! ### One round -/

/-- What is counted down when a wave is placed: each config once for each of its dependencies in the
wave. -/
theorem count_dependents (H : g.IsGraphOf configs) {wave : Wave} (hwave : wave.Nodup)
    (c : Coordinate) :
    (wave.flatMap g.dependents).count c = (g.dependencies c).countP (· ∈ wave) := by
  have hone : ∀ d, (g.dependents d).count c = if d ∈ g.dependencies c then 1 else 0 := by
    intro d
    rw [(g.nodup_dependents d).count]
    simp
  have hsum : ∀ cs : List Coordinate,
      (cs.flatMap g.dependents).count c = cs.countP (· ∈ g.dependencies c) := by
    intro cs
    induction cs with
    | nil => rfl
    | cons d rest ih => simp [List.countP_cons, hone, ih, Nat.add_comm]
  have hperm : (wave.filter (· ∈ g.dependencies c)).Perm
      ((g.dependencies c).filter (· ∈ wave)) :=
    (List.perm_ext_iff_of_nodup (hwave.filter _) ((H.nodup_dependencies c).filter _)).2 fun d => by
      simp [and_comm]
  rw [hsum, List.countP_eq_length_filter, hperm.length_eq, List.countP_eq_length_filter]

private theorem countP_append {wave placed : List Coordinate} (hnew : ∀ c ∈ wave, c ∉ placed)
    (cs : List Coordinate) :
    cs.countP (· ∉ placed) = cs.countP (· ∉ placed ++ wave) + cs.countP (· ∈ wave) := by
  induction cs with
  | nil => rfl
  | cons c rest ih =>
    simp only [List.countP_cons, ih, decide_eq_true_eq, List.mem_append, not_or]
    by_cases hw : c ∈ wave
    · simp [hw, hnew c hw]
      omega
    · simp [hw]
      omega

/-- The state of the rounds when `placed` has been placed. -/
structure Counted (g : DependencyGraph) (placed : List Coordinate) (degrees : Degrees)
    (ready : List Coordinate) : Prop where
  nodup_placed : placed.Nodup
  subset : placed ⊆ g.coordinates
  closed : ∀ c ∈ placed, ∀ d ∈ g.dependencies c, d ∈ placed
  degree : ∀ c ∈ g.coordinates,
    degrees.get? c = some ((g.dependencies c).countP (· ∉ placed))
  nodup_ready : ready.Nodup
  ready_iff : ∀ c, c ∈ ready ↔
    c ∈ g.coordinates ∧ c ∉ placed ∧ ∀ d ∈ g.dependencies c, d ∈ placed

namespace Counted

variable {placed ready : List Coordinate} {degrees : Degrees}

theorem start (g : DependencyGraph) :
    Counted g [] g.degrees (g.coordinates.filter fun c => g.degrees.get? c = some 0) := by
  have hdegree : ∀ c ∈ g.coordinates,
      g.degrees.get? c = some ((g.dependencies c).countP (· ∉ [])) := by
    intro c hc
    obtain ⟨v, hv⟩ := mem_coordinates_iff.1 hc
    rw [degrees, SortedMap.get?_mapValues, hv, dependencies_of_get? hv]
    simp
  refine ⟨List.nodup_nil, List.nil_subset _, by simp, hdegree, g.nodup_coordinates.filter _, ?_⟩
  intro c
  rw [List.mem_filter]
  apply and_congr_right
  intro hc
  simp [hdegree c hc, List.eq_nil_iff_forall_not_mem]

theorem place (H : g.IsGraphOf configs) (hc : Counted g placed degrees ready) {wave : Wave}
    (hperm : wave.Perm ready) :
    Counted g (placed ++ wave) (g.place degrees wave).1 (g.place degrees wave).2 := by
  have hwave : wave.Nodup := hperm.nodup_iff.2 hc.nodup_ready
  have hmem : ∀ c, c ∈ wave ↔
      c ∈ g.coordinates ∧ c ∉ placed ∧ ∀ d ∈ g.dependencies c, d ∈ placed :=
    fun c => hperm.mem_iff.trans (hc.ready_iff c)
  have hnew : ∀ c ∈ wave, c ∉ placed := fun c h => ((hmem c).1 h).2.1
  have hcount := count_dependents H hwave
  have hdegree : ∀ c ∈ g.coordinates, degrees.get? c =
      some ((g.dependencies c).countP (· ∉ placed ++ wave) +
        (wave.flatMap g.dependents).count c) := by
    intro c h
    rw [hc.degree c h, hcount, countP_append hnew]
  have hcovers : Covers (degrees, ([] : List Coordinate)).1 (wave.flatMap g.dependents) := by
    intro c h
    obtain ⟨d, _, hd⟩ := List.mem_flatMap.1 h
    have hcoord := mem_coordinates_of_dependency (mem_dependents_iff.1 hd)
    exact ⟨_, hdegree c hcoord, Nat.le_add_left _ _⟩
  obtain ⟨hnodup, hready⟩ := ready_foldl_release hcovers List.nodup_nil (by simp)
  refine ⟨?_, ?_, ?_, ?_, hnodup, ?_⟩
  · refine List.nodup_append.2 ⟨hc.nodup_placed, hwave, ?_⟩
    intro a ha b hb heq
    exact hnew b hb (heq ▸ ha)
  · exact List.append_subset.2 ⟨hc.subset, fun c h => ((hmem c).1 h).1⟩
  · intro c h d hd
    rcases List.mem_append.1 h with h | h
    · exact List.mem_append_left _ (hc.closed c h d hd)
    · exact List.mem_append_left _ (((hmem c).1 h).2.2 d hd)
  · intro c h
    rw [DependencyGraph.place, get?_foldl_release, hdegree c h]
    simp
  · intro c
    apply (hready c).trans
    constructor
    · rintro (h | ⟨hcount, hzero⟩)
      · cases h
      obtain ⟨d, hd, hdc⟩ := List.mem_flatMap.1 hcount
      have hdc := mem_dependents_iff.1 hdc
      have hcoord := mem_coordinates_of_dependency hdc
      refine ⟨hcoord, ?_, ?_⟩
      · intro h
        rcases List.mem_append.1 h with h | h
        · exact hnew d hd (hc.closed c h d hdc)
        · exact hnew d hd (((hmem c).1 h).2.2 d hdc)
      · intro e he
        have hnone : (g.dependencies c).countP (· ∉ placed ++ wave) = 0 := by
          have := Option.some.inj ((hdegree c hcoord).symm.trans hzero)
          omega
        simpa only [decide_eq_true_eq, not_not] using List.countP_eq_zero.1 hnone e he
    · rintro ⟨hcoord, hout, hdeps⟩
      have hnone : (g.dependencies c).countP (· ∉ placed ++ wave) = 0 := by
        apply List.countP_eq_zero.2
        intro d hd
        simpa only [decide_eq_true_eq, not_not] using hdeps d hd
      refine .inr ⟨?_, by rw [hdegree c hcoord, hnone, Nat.zero_add]⟩
      -- Some dependency was placed only now: otherwise the config would stand in the wave itself.
      by_contra hnocount
      have hin : c ∈ wave := by
        refine (hmem c).2 ⟨hcoord, fun h => hout (List.mem_append_left _ h), ?_⟩
        intro d hd
        apply (List.mem_append.1 (hdeps d hd)).resolve_right
        intro hdw
        apply hnocount
        exact List.mem_flatMap.2 ⟨d, hdw, mem_dependents_iff.2 hd⟩
      exact hout (List.mem_append_right _ hin)

/-- When nothing is ready, everything is placed. -/
theorem complete (H : g.IsGraphOf configs) (hc : Counted g placed degrees []) :
    ∀ c ∈ g.coordinates, c ∈ placed := by
  intro c
  induction c using H.wellFounded.induction with
  | _ c ih =>
    intro hcoord
    by_contra hout
    have hdeps : ∀ d ∈ g.dependencies c, d ∈ placed := fun d hd => ih d hd (H.closed c hd)
    cases (hc.ready_iff c).2 ⟨hcoord, hout, hdeps⟩

theorem layered (H : g.IsGraphOf configs) {rounds : Nat}
    (hrounds : g.size ≤ placed.length + rounds) (hc : Counted g placed degrees ready) :
    Layered g placed (g.wavesFrom rounds degrees ready).1 := by
  induction rounds generalizing placed degrees ready with
  | zero =>
    -- As many have been placed as there are.
    have hperm : placed.Perm g.coordinates :=
      (List.subperm_of_subset hc.nodup_placed hc.subset).perm_of_length_le (by simpa using hrounds)
    apply Layered.nil
    intro c h
    exact hperm.mem_iff.2 h
  | succ rounds ih =>
    rw [wavesFrom]
    cases ready with
    | nil => exact .nil (hc.complete H)
    | cons c rest =>
      have hperm := perm_sorted (c :: rest)
      have hnext := hc.place H hperm
      refine .cons ?_ ?_ (fun d => hperm.mem_iff.trans (hc.ready_iff d)) (ih ?_ hnext)
      · exact fun h => by simpa [h] using hperm.length_eq
      · exact pairwise_sorted_of_nodup hc.nodup_ready
      · have := hperm.length_eq
        simp only [List.length_append, List.length_cons] at this ⊢
        omega

end Counted

namespace Layered

variable {placed : List Coordinate} {wave : Wave} {waves : List Wave}

theorem mem_flatten_iff (h : Layered g placed waves) {c : Coordinate} :
    c ∈ waves.flatten ↔ c ∈ g.coordinates ∧ c ∉ placed := by
  induction h with
  | nil complete => simpa using complete c
  | @cons _ wave _ _ _ mem_iff _ ih =>
    rw [List.flatten_cons, List.mem_append, ih, List.mem_append, not_or]
    constructor
    · rintro (h | ⟨hc, hp, _⟩)
      · exact ⟨((mem_iff c).1 h).1, ((mem_iff c).1 h).2.1⟩
      · exact ⟨hc, hp⟩
    · rintro ⟨hc, hp⟩
      by_cases h : c ∈ wave
      · exact .inl h
      · exact .inr ⟨hc, hp, h⟩

theorem nodup_flatten (h : Layered g placed waves) : waves.flatten.Nodup := by
  induction h with
  | nil => exact List.nodup_nil
  | cons _ ascending mem_iff rest ih =>
    refine List.nodup_append.2 ⟨?_, ih, ?_⟩
    · exact nodup_of_pairwise_lt ascending
    · intro a ha b hb heq
      exact (rest.mem_flatten_iff.1 hb).2 (List.mem_append_right _ (heq ▸ ha))

/-- Every config of the graph is in one place. -/
theorem flatten_perm (h : Layered g [] waves) : waves.flatten.Perm g.coordinates := by
  apply (List.perm_ext_iff_of_nodup h.nodup_flatten g.nodup_coordinates).2
  intro c
  simp [h.mem_flatten_iff]

theorem subset_head (h : g.Layered placed (wave :: waves)) : wave ⊆ g.coordinates := by
  cases h with
  | cons _ _ mem_iff _ => exact fun c hc => ((mem_iff c).1 hc).1

theorem pairwise_head (h : g.Layered placed (wave :: waves)) :
    wave.Pairwise (compare · · = .lt) := by
  cases h with
  | cons _ ascending _ _ => exact ascending

theorem tail (h : g.Layered placed (wave :: waves)) : g.Layered (placed ++ wave) waves := by
  cases h with
  | cons _ _ _ rest => exact rest

theorem not_mem_later (h : g.Layered placed (wave :: waves)) {c : Coordinate} (hc : c ∈ wave) :
    c ∉ waves.flatten := fun hmem =>
  (h.tail.mem_flatten_iff.1 hmem).2 (List.mem_append_right _ hc)

/-- The dependencies of a wave stand neither in it nor in a later one. -/
theorem not_mem_of_dependency (h : g.Layered placed (wave :: waves)) {c d : Coordinate}
    (hc : c ∈ wave) (hd : d ∈ g.dependencies c) : d ∉ (wave :: waves).flatten := by
  intro hmem
  cases h with
  | cons nonempty ascending mem_iff rest =>
    have hplaced := ((mem_iff c).1 hc).2.2 d hd
    exact ((Layered.cons nonempty ascending mem_iff rest).mem_flatten_iff.1 hmem).2 hplaced

end Layered

theorem exists_waves (H : g.IsGraphOf configs) :
    ∃ waves, g.waves = .ok waves ∧ Layered g [] waves := by
  have h := (Counted.start g).layered H (Nat.le_add_left g.size _)
  refine ⟨_, ?_, h⟩
  have hlength := h.flatten_perm.length_eq
  rw [length_coordinates] at hlength
  simp [waves, hlength]

end Rollout.DependencyGraph
