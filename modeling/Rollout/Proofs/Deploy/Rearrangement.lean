import Rollout.Proofs.Deploy.Stopping

/-! The order in which configs are handed over. From the configs by their coordinates on, nothing
depends on it: as long as the coordinates differ, the same graph or the same errors come out, and a
run of the graph is the same one. -/

namespace Rollout

variable {configs configs' : List Config}

namespace DependencyGraph

variable (hperm : configs.Perm configs') (hnodup : (configs.map (·.coordinate)).Nodup)

include hperm hnodup

theorem byCoordinate_eq_of_perm : byCoordinate configs = byCoordinate configs' := by
  have hnodup' : (configs'.map (·.coordinate)).Nodup := (hperm.map _).nodup_iff.1 hnodup
  refine SortedMap.ext_get? fun c => ?_
  ext config
  rw [get?_byCoordinate hnodup, get?_byCoordinate hnodup', hperm.mem_iff]

/-- Where coordinates are repeated this is wrong: the last of the configs of a coordinate counts. -/
theorem build_eq_of_perm : build configs = build configs' := by
  have hnodup' : (configs'.map (·.coordinate)).Nodup := (hperm.map _).nodup_iff.1 hnodup
  rw [build, build, byCoordinate_eq_of_perm hperm hnodup, repeatedCoordinates_eq_nil_iff.2 hnodup,
    repeatedCoordinates_eq_nil_iff.2 hnodup']

end DependencyGraph

/-- A run depends on the configs only through what is built of them. -/
theorem deployEnvironment_congr {σ : Type}
    (hbuild : DependencyGraph.build configs = DependencyGraph.build configs') (P : Platform σ)
    (vars : Variables) (environment : String) :
    deployEnvironment P vars environment configs =
      deployEnvironment P vars environment configs' := by
  rw [deployEnvironment, hbuild]
  rfl

/-- It does not matter in which order configs with different coordinates are handed over. The errors
are the same in the same order, or the edges and the waves are the same; and a run makes the same
calls, reports the same and leaves the platform in the same state. -/
theorem deployEnvironment_rearranged (hperm : configs.Perm configs')
    (hnodup : (configs.map (·.coordinate)).Nodup) :
    ((∃ errors, DependencyGraph.build configs = .error errors ∧
        DependencyGraph.build configs' = .error errors) ∨
      ∃ g g', DependencyGraph.build configs = .ok g ∧ DependencyGraph.build configs' = .ok g' ∧
        g.edges = g'.edges ∧ g.waves = g'.waves) ∧
    ∀ {σ : Type} (P : Platform σ) (supervisor : Supervisor) (vars : Variables)
      (environment : String) (s : Supervised σ),
      let run := deployEnvironment (P.supervised supervisor) vars environment configs s
      let run' := deployEnvironment (P.supervised supervisor) vars environment configs' s
      run.2.calls = run'.2.calls ∧ run.1 = run'.1 ∧ run.2.inner = run'.2.inner ∧
        run.2.cancelled = run'.2.cancelled := by
  have hbuild := DependencyGraph.build_eq_of_perm hperm hnodup
  constructor
  · cases hconfigs : DependencyGraph.build configs with
    | error errors => exact .inl ⟨errors, rfl, hbuild.symm.trans hconfigs⟩
    | ok g => exact .inr ⟨g, g, rfl, hbuild.symm.trans hconfigs, rfl, rfl⟩
  · intro σ P supervisor vars environment s
    rw [deployEnvironment_congr hbuild]
    exact ⟨rfl, rfl, rfl, rfl⟩

/-! ### Four tags in another order, on a platform that stops the run -/

namespace Diamond

theorem stopped_rearranged :
    Diamond.configs.Perm Diamond.configs.reverse ∧
      (Diamond.configs.map (·.coordinate)).Nodup ∧
      let run := deployEnvironment stopped (fun _ => none) "dev" Diamond.configs.reverse
        (.start .empty)
      run.2.calls = stoppedRun.2.calls ∧ run.1 = stoppedRun.1 ∧ run.2.inner = stoppedRun.2.inner ∧
        run.2.inner.creates = 2 := by
  have hperm : Diamond.configs.Perm Diamond.configs.reverse := (List.reverse_perm _).symm
  have hnodup : (Diamond.configs.map (·.coordinate)).Nodup := by decide +kernel
  have hcreates : stoppedRun.2.inner.creates = 2 := by decide +kernel
  have hruns := (deployEnvironment_rearranged hperm hnodup).2 (Store.platform (.numbered []))
    stopsAtLeft (fun _ => none) "dev" (.start .empty)
  refine ⟨hperm, hnodup, ?_⟩
  rw [stoppedRun, stopped] at hcreates ⊢
  dsimp only at hruns ⊢
  revert hcreates hruns
  generalize deployEnvironment _ _ _ Diamond.configs _ = run
  generalize deployEnvironment _ _ _ Diamond.configs.reverse _ = run'
  rintro hcreates ⟨hcalls, hreport, hstore, _⟩
  exact ⟨hcalls.symm, hreport.symm, hstore.symm, hstore ▸ hcreates⟩

end Diamond

end Rollout
