import Rollout.Graph.Cycle
import Mathlib.Data.Fintype.EquivFin
import Mathlib.Data.Fintype.Sets
import Mathlib.Data.List.Perm.Subperm
import Mathlib.Logic.Relation

/-! A search that meets no coordinate of its path again has visited everything from the far end on,
so the relation of a config to those that refer to it is well-founded. The graph is finite, hence so
is the relation to what it depends on. -/

namespace Rollout.DependencyGraph

variable {g : DependencyGraph}

/-- Every chain of configs that refer to each other, starting from one of `done`, ends. -/
private def Finished (g : DependencyGraph) (done : List Coordinate) : Prop :=
  ∀ c ∈ done, Acc (fun a b => a ∈ g.dependents b) c

/-- `done'` is what a search that started with `done` has visited at its end, `cs` among it. -/
private structure Explored (g : DependencyGraph) (done done' cs : List Coordinate) : Prop where
  finished : Finished g done'
  subset : done ⊆ done'
  reached : cs ⊆ done'

private theorem explored_of_foldlM {ε : Type}
    {f : List Coordinate → Coordinate → Except ε (List Coordinate)} {cs : List Coordinate}
    (hf : ∀ done c done', c ∈ cs → Finished g done → f done c = .ok done' →
      Explored g done done' [c])
    {done done' : List Coordinate} (hdone : Finished g done) (h : cs.foldlM f done = .ok done') :
    Explored g done done' cs := by
  induction cs generalizing done with
  | nil =>
    cases h
    exact ⟨hdone, List.Subset.refl _, List.nil_subset _⟩
  | cons c rest ih =>
    rw [List.foldlM_cons] at h
    cases hc : f done c with
    | error e => rw [hc] at h; cases h
    | ok middle =>
      rw [hc] at h
      have first := hf done c middle List.mem_cons_self hdone hc
      have later := ih (fun done c done' hm => hf done c done' (List.mem_cons_of_mem _ hm))
        first.finished h
      refine ⟨later.finished, List.Subset.trans first.subset later.subset, ?_⟩
      exact List.cons_subset.2 ⟨later.subset (first.reached List.mem_cons_self), later.reached⟩

/-- A path without repetition that could still be made longer is shorter than the graph is large. -/
private theorem length_lt_size {path : List Coordinate} {c : Coordinate} (hnodup : path.Nodup)
    (hsub : path ⊆ g.coordinates) (hc : c ∈ g.coordinates) (hnew : c ∉ path) :
    path.length < g.size := by
  have hsubperm : (c :: path).Subperm g.coordinates :=
    List.subperm_of_subset (List.nodup_cons.2 ⟨hnew, hnodup⟩) (List.cons_subset.2 ⟨hc, hsub⟩)
  have hle := hsubperm.length_le
  rw [List.length_cons, length_coordinates] at hle
  omega

private theorem explored_of_visit {depth : Nat} {path done done' : List Coordinate} {c : Coordinate}
    (hnodup : path.Nodup) (hsub : path ⊆ g.coordinates) (hc : c ∈ g.coordinates) (hnew : c ∉ path)
    (hdepth : g.size ≤ path.length + depth) (hdone : Finished g done)
    (h : g.visit depth path done c = .ok done') : Explored g done done' [c] := by
  induction depth generalizing path done done' c with
  | zero => exact absurd (length_lt_size hnodup hsub hc hnew) (by omega)
  | succ depth ih =>
    simp only [visit] at h
    cases hfold : (g.dependents c).foldlM (fun done next =>
        if next ∈ path ++ [c] then .error ((path ++ [c]).dropWhile (· ≠ next) ++ [next])
        else if next ∈ done then .ok done
        else g.visit depth (path ++ [c]) done next) done with
    | error e => rw [hfold] at h; cases h
    | ok middle =>
      rw [hfold] at h
      cases h
      have hdeps : Explored g done middle (g.dependents c) := by
        apply explored_of_foldlM _ hdone hfold
        intro done next done' hnext hdone hstep
        split at hstep
        · cases hstep
        · split at hstep
          · cases hstep
            exact ⟨hdone, List.Subset.refl _, by simpa⟩
          · refine ih ?_ ?_ ?_ ‹_› (by simp; omega) hdone hstep
            · exact List.nodup_append.2 ⟨hnodup, List.nodup_singleton c,
                fun a ha b hb heq => hnew (List.mem_singleton.1 hb ▸ heq ▸ ha)⟩
            · exact List.append_subset.2 ⟨hsub, List.cons_subset.2 ⟨hc, List.nil_subset _⟩⟩
            · exact mem_coordinates_of_dependency (mem_dependents_iff.1 hnext)
      refine ⟨?_, List.Subset.trans hdeps.subset (List.subset_cons_self _ _), by simp⟩
      intro d hd
      rcases List.mem_cons.1 hd with rfl | hd
      · apply Acc.intro
        intro next hnext
        exact hdeps.finished next (hdeps.reached hnext)
      · exact hdeps.finished d hd

theorem wellFounded_dependents (h : g.findCycle? = none) :
    WellFounded fun a b => a ∈ g.dependents b := by
  simp only [findCycle?] at h
  split at h
  · rename_i done hsearch
    have hall : Explored g [] done g.coordinates := by
      apply explored_of_foldlM _ (by simp [Finished]) hsearch
      intro done c done' hc hdone hstep
      split at hstep
      · cases hstep
        exact ⟨hdone, List.Subset.refl _, by simpa⟩
      · exact explored_of_visit List.nodup_nil (List.nil_subset _) hc List.not_mem_nil (by simp)
          hdone hstep
    constructor
    intro c
    apply Acc.intro
    intro d hd
    have hd := mem_coordinates_of_dependency (mem_dependents_iff.1 hd)
    exact hall.finished d (hall.reached hd)
  · cases h

/-- A graph in which no cycle was found has none: no config depends on itself, not even through
others. -/
theorem not_transGen_self (h : g.findCycle? = none) (c : Coordinate) :
    ¬ Relation.TransGen g.DependsOn c c := by
  intro hc
  have hwf := (wellFounded_dependents h).transGen
  have hc' : Relation.TransGen (fun a b => a ∈ g.dependents b) c c :=
    Relation.TransGen.mono (r := g.DependsOn)
      (fun _ _ hd => mem_dependents_iff.2 hd) _ _ hc
  exact hwf.asymmetric c c hc' hc'

/-- The order in which configs can be deployed is well-founded. -/
theorem wellFounded_dependencies (h : g.findCycle? = none)
    (hclosed : ∀ c, g.dependencies c ⊆ g.coordinates) :
    WellFounded fun d c => d ∈ g.dependencies c := by
  let r (a b : { c // c ∈ g.coordinates }) : Prop := Relation.TransGen g.DependsOn b.1 a.1
  have : IsTrans _ r := ⟨fun _ _ _ hab hbc => hbc.trans hab⟩
  have : Std.Irrefl r := ⟨fun a => not_transGen_self h a.1⟩
  have hwf : WellFounded r := Finite.wellFounded_of_trans_of_irrefl r
  have hacc (a : { c // c ∈ g.coordinates }) : Acc (fun d c => d ∈ g.dependencies c) a.1 := by
    induction a using hwf.induction with
    | _ a ih =>
      apply Acc.intro
      intro d hd
      exact ih ⟨d, hclosed _ hd⟩ (Relation.TransGen.single hd)
  constructor
  intro c
  apply Acc.intro
  intro d hd
  exact hacc ⟨d, hclosed _ hd⟩

end Rollout.DependencyGraph
