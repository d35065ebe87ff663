import Rollout.Graph.Cycle
import Mathlib.Data.List.Chain
import Mathlib.Data.List.Nodup
import Mathlib.Logic.Relation

/-! What the search reports is a cycle of the graph. Its path is a chain of configs each of which
refers to the one before it, so a coordinate that is met again closes a cycle. -/

namespace Rollout.DependencyGraph

variable {g : DependencyGraph}

/-- The way of an edge: from a config to one that depends on it. -/
def Precedes (g : DependencyGraph) (c d : Coordinate) : Prop := d ∈ g.dependents c

/-- A chain of different configs that comes back to its beginning. -/
structure IsCycle (g : DependencyGraph) (cycle : List Coordinate) : Prop where
  linked : cycle.IsChain g.Precedes
  closed : ∃ c rest, cycle = c :: (rest ++ [c]) ∧ (c :: rest).Nodup

/-- The configs of a path differ, and each refers to the one before it. -/
private structure IsPath (g : DependencyGraph) (path : List Coordinate) : Prop where
  linked : path.IsChain g.Precedes
  nodup : path.Nodup

private theorem IsPath.append {path : List Coordinate} {c : Coordinate} (h : g.IsPath path)
    (hnew : c ∉ path) (hlast : ∀ b ∈ path.getLast?, g.Precedes b c) : g.IsPath (path ++ [c]) where
  linked := h.linked.append (List.isChain_singleton c) fun b hb d hd => by
    cases hd
    exact hlast b hb
  nodup := List.nodup_append.2 ⟨h.nodup, List.nodup_singleton c,
    fun a ha b hb heq => hnew (List.mem_singleton.1 hb ▸ heq ▸ ha)⟩

/-- Meeting a coordinate of the path again closes a cycle. -/
private theorem IsPath.isCycle {path : List Coordinate} {c next : Coordinate}
    (h : g.IsPath (path ++ [c])) (hnext : g.Precedes c next) (hmem : next ∈ path ++ [c]) :
    g.IsCycle ((path ++ [c]).dropWhile (· ≠ next) ++ [next]) := by
  have hlast : (path ++ [c]).getLast? = some c := List.getLast?_concat
  generalize path ++ [c] = whole at *
  obtain ⟨before, after, rfl, hbefore⟩ := List.eq_append_cons_of_mem hmem
  have hdrop : (before ++ next :: after).dropWhile (· ≠ next) = next :: after := by
    rw [List.dropWhile_append_of_pos]
    · simp
    · intro d hd
      have hne : d ≠ next := ne_of_mem_of_not_mem hd hbefore
      simpa using hne
  rw [hdrop]
  rw [List.getLast?_append_of_ne_nil _ (List.cons_ne_nil _ _)] at hlast
  refine ⟨?_, next, after, rfl, (List.sublist_append_right ..).nodup h.nodup⟩
  apply h.linked.right_of_append.append (List.isChain_singleton next)
  intro b hb d hd
  cases hd
  cases hlast.symm.trans hb
  exact hnext

private theorem isCycle_of_foldlM
    {f : List Coordinate → Coordinate → Except (List Coordinate) (List Coordinate)}
    {cs : List Coordinate} {done cycle : List Coordinate}
    (hf : ∀ done c cycle, c ∈ cs → f done c = .error cycle → g.IsCycle cycle)
    (h : cs.foldlM f done = .error cycle) : g.IsCycle cycle := by
  induction cs generalizing done with
  | nil => cases h
  | cons c rest ih =>
    rw [List.foldlM_cons] at h
    cases hc : f done c with
    | error e =>
      rw [hc] at h
      cases h
      exact hf done c _ List.mem_cons_self hc
    | ok middle =>
      rw [hc] at h
      exact ih (fun done d cycle hd => hf done d cycle (List.mem_cons_of_mem _ hd)) h

private theorem isCycle_of_visit {depth : Nat} {path done cycle : List Coordinate} {c : Coordinate}
    (hpath : g.IsPath (path ++ [c])) (h : g.visit depth path done c = .error cycle) :
    g.IsCycle cycle := by
  induction depth generalizing path done c cycle with
  | zero => cases h
  | succ depth ih =>
    simp only [visit] at h
    cases hfold : (g.dependents c).foldlM (fun done next =>
        if next ∈ path ++ [c] then .error ((path ++ [c]).dropWhile (· ≠ next) ++ [next])
        else if next ∈ done then .ok done
        else g.visit depth (path ++ [c]) done next) done with
    | ok middle => rw [hfold] at h; cases h
    | error e =>
      rw [hfold] at h
      cases h
      apply isCycle_of_foldlM _ hfold
      intro done next found hnext hstep
      split at hstep
      · rename_i hmem
        cases hstep
        exact hpath.isCycle hnext hmem
      · split at hstep
        · cases hstep
        · refine ih (hpath.append ‹_› fun b hb => ?_) hstep
          cases (List.getLast?_concat (a := c) (l := path)).symm.trans hb
          exact hnext

theorem isCycle_of_findCycle? {cycle : List Coordinate} (h : g.findCycle? = some cycle) :
    g.IsCycle cycle := by
  simp only [findCycle?] at h
  split at h
  · cases h
  · rename_i other hsearch
    cases h
    apply isCycle_of_foldlM _ hsearch
    intro done c cycle _ hstep
    split at hstep
    · cases hstep
    · exact isCycle_of_visit ⟨List.isChain_singleton c, List.nodup_singleton c⟩ hstep

private theorem transGen_of_isChain {α : Type} {r : α → α → Prop} {a b : α} {middle : List α}
    (h : (a :: (middle ++ [b])).IsChain r) : Relation.TransGen r a b := by
  induction middle generalizing a with
  | nil => exact .single (List.isChain_pair.1 h)
  | cons c rest ih =>
    obtain ⟨hac, hrest⟩ := List.isChain_cons_cons.1 h
    exact .head hac (ih hrest)

/-- Where a cycle is reported some config depends on itself, through whatever others. -/
theorem IsCycle.exists_transGen_self {cycle : List Coordinate} (h : g.IsCycle cycle) :
    ∃ c, Relation.TransGen g.DependsOn c c := by
  obtain ⟨c, rest, rfl, _⟩ := h.closed
  have hc := Relation.transGen_swap.2 (transGen_of_isChain h.linked)
  exact ⟨c, Relation.TransGen.mono (fun _ _ hd => mem_dependents_iff.1 hd) _ _ hc⟩

end Rollout.DependencyGraph
