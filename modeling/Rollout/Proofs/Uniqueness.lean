import Rollout.Task
import Rollout.Proofs.Delete.Runs
import Rollout.Proofs.Deploy.Redeployment

/-! A store that configs are deployed to and objects deleted from, again and again, never has two
objects of one type that could be the same config's. Every request of a run fits the store, whatever
fails in between. -/

namespace Rollout

variable {σ : Type} {P : Platform σ} {policy : StorePolicy} {view : σ → Store} {vars : Variables}
  {configs : List Config} {s : σ} {R : σ → σ → Prop}

/-- Objects of a classic API differ in their names, all others of a type in their external ids. -/
structure Store.HasNoDuplicates (s : Store) : Prop where
  names : ∀ api ∈ ConfigType.knownApis, ((s.objectsUnder api).map (·.remote.name)).Nodup
  externalIds : ∀ name ∉ ConfigType.knownApis,
    ((s.objectsUnder name).map (·.remote.externalId)).Nodup

theorem Store.hasNoDuplicates_of_keys {s : Store} (h : ∀ name, (s.keys name).Nodup) :
    s.HasNoDuplicates where
  names api hknown := by
    have hidentity : Identity.ofTypeName api = .name := if_pos (List.contains_iff_mem.2 hknown)
    have hkeys := h api
    rw [keys_eq, hidentity] at hkeys
    exact hkeys
  externalIds name hunknown := by
    have hidentity : Identity.ofTypeName name = .externalId :=
      if_neg fun hknown => hunknown (List.contains_iff_mem.1 hknown)
    have hkeys := h name
    rw [keys_eq, hidentity] at hkeys
    exact hkeys

/-! ### What all requests keep -/

/-- A well-kept store in which every key has one holder at most. -/
structure Store.IsSound (policy : StorePolicy) (s : Store) : Prop where
  wellKept : s.WellKept policy
  keys : ∀ name, (s.keys name).Nodup

/-- The store stays sound. -/
def StaysSound (policy : StorePolicy) (view : σ → Store) (s t : σ) : Prop :=
  (view s).IsSound policy → (view t).IsSound policy

namespace Platform.Serves

variable (h : P.Serves policy view)

include h

theorem idles_staysSound : P.Idles (StaysSound policy view) where
  refl _ := id
  trans h h' := h' ∘ h
  elapse s hsound := (h.elapse s).symm ▸ hsound

theorem tracks_staysSound : P.Tracks view (StaysSound policy view) where
  toIdles := h.idles_staysSound
  handle r s hfits hsound := by
    obtain ⟨hkept, hext⟩ := h.tracks.handle r s hfits hsound.wellKept
    exact ⟨hkept, fun name => hext.nodup_keys (hsound.keys name)⟩

theorem removes_staysSound : P.Removes (StaysSound policy view) where
  toIdles := h.idles_staysSound
  list type s hsound := (h.view_list type s).symm ▸ hsound
  delete type id s hsound := by
    rcases h.handle (.delete type id) s with ⟨_, hview⟩ | ⟨_, hview⟩
    · refine ⟨hview ▸ hsound.wellKept.delete type id, fun name => ?_⟩
      rw [hview]
      exact ((Store.index_delete type id (view s) name).map _).nodup (hsound.keys name)
    · exact hview.symm ▸ hsound

end Platform.Serves

/-! ### Deployments and deletions -/

namespace Task

/-- All configs to deploy are found by their names or external ids alone. -/
def IsManaged : Task → Prop
  | .deploy _ _ configs => ∀ config ∈ configs, config.IsManaged
  | .delete _ => True

theorem carryOut_mirrors {τ : Type} {P' : Platform τ} {π : τ → σ} (H : P'.Mirrors P π) (task : Task)
    (t : τ) : task.carryOut P (π t) = π (task.carryOut P' t) := by
  cases task with
  | deploy vars environment configs =>
    exact congrArg Prod.snd (H.deployEnvironment vars environment configs t)
  | delete entries => exact congrArg Prod.snd (H.deleteEntries entries t)

/-- Fitting requests, deletions and time are all that happens to the platform. -/
theorem moves {task : Task} (hmanaged : task.IsManaged) (hserves : P.Serves policy view)
    (htracks : P.Tracks view R) (hremoves : P.Removes R) (s : σ) : R s (task.carryOut P s) := by
  cases task with
  | deploy vars environment configs =>
    refine ((timeline_history P vars environment configs s).moves htracks.toIdles ?_).1
    intro a ha
    obtain ⟨hconfig, hran⟩ := mem_history ha
    exact hran.moves (hmanaged _ hconfig) hserves htracks
  | delete entries => exact hremoves.deleteEntries entries s

end Task

/-- No attempt finds several objects, so no config fails for that reason. -/
theorem not_ambiguous (hserves : P.Serves policy view)
    (hconfigs : ∀ config ∈ configs, config.IsManaged) (hsound : (view s).IsSound policy)
    {environment : String} {report : DeployReport}
    (hreport : (deployEnvironment P vars environment configs s).1 = .ok report) (c : Coordinate)
    (name : String) (count : Nat) :
    report.states.get? c ≠ some (.failed (.ambiguous name count)) := by
  intro hstate
  obtain ⟨g, context, H, h⟩ := completed_of_report hreport
  rcases h.settled_or_attempted_of_failed H hstate with ⟨_, _, _, _, decision⟩ | ⟨a, ha, hresult⟩
  · cases (ended_of_settledState? decision).2.2 _ rfl
  · obtain ⟨hconfig, hran⟩ := mem_history ha
    have hbefore := ((timeline_history P vars environment configs s).moves
      hserves.idles_staysSound fun b hb =>
        (mem_history hb).2.moves (hconfigs _ (mem_history hb).1) hserves
          hserves.tracks_staysSound).2 a ha
    exact hran.not_ambiguous (hconfigs _ hconfig) hserves (hbefore.1 hsound).keys name count hresult

/-! ### Histories -/

/-- A store as it may be after tasks on an empty one, each on a platform with faults and a flag of its
own. -/
inductive Store.Arises (policy : StorePolicy) : Store → Prop
  | empty : Arises policy .empty
  | later {σ : Type} {P : Platform σ} {view : σ → Store} {s : σ} {task : Task}
    (before : Arises policy (view s)) (serves : P.Serves policy view) (managed : task.IsManaged) :
    Arises policy (view (task.carryOut P s))

theorem Store.Arises.isSound {s : Store} (h : s.Arises policy)
    (hnew : Function.Injective policy.newId) : s.IsSound policy := by
  induction h with
  | empty => exact ⟨Store.wellKept_empty hnew, fun _ => List.nodup_nil⟩
  | later _ serves managed ih =>
    exact Task.moves managed serves serves.tracks_staysSound serves.removes_staysSound _ ih

/-- At no point of any history does a store have duplicates, and no deployment runs into some. -/
theorem Store.Arises.hasNoDuplicates (hnew : Function.Injective policy.newId) {s : Store}
    (h : s.Arises policy) : s.HasNoDuplicates ∧
      ∀ {σ : Type} {P : Platform σ} {view : σ → Store}, P.Serves policy view →
        ∀ start : σ, view start = s → ∀ task : Task, task.IsManaged →
          (let run := task.carryOut P.traced (.start start)
          run.now = task.carryOut P start ∧ ∀ t ∈ run.visited, (view t).HasNoDuplicates) ∧
          ∀ report, task.report? P start = some report →
            ∀ c name count, report.states.get? c ≠ some (.failed (.ambiguous name count)) := by
  have hsound := h.isSound hnew
  refine ⟨hasNoDuplicates_of_keys hsound.keys, ?_⟩
  rintro σ P view hserves start rfl task hmanaged
  refine ⟨⟨?_, fun t ht => ?_⟩, ?_⟩
  · exact (Task.carryOut_mirrors P.traced_mirrors task (.start start)).symm
  · have hvisited := (Task.moves hmanaged hserves.traced hserves.tracks_staysSound.traced
      hserves.removes_staysSound.traced (.start start)).2 t ht
    rcases hvisited with hfirst | hlater
    · rw [List.mem_singleton.1 hfirst]
      exact hasNoDuplicates_of_keys hsound.keys
    · exact hasNoDuplicates_of_keys (hlater hsound).keys
  · intro report hreport
    cases task with
    | delete entries => cases hreport
    | deploy vars environment configs =>
      apply not_ambiguous hserves hmanaged hsound
      cases hrun : (deployEnvironment P vars environment configs start).1 with
      | error _ =>
        rw [Task.report?, hrun] at hreport
        cases hreport
      | ok _ =>
        rw [Task.report?, hrun] at hreport
        cases hreport
        rfl

/-! ### A store that fails, loses an object and is deployed to again -/

namespace Diamond

def deployment : Task := .deploy (fun _ => none) "dev" Diamond.configs

def deletion : Task := .delete [⟨"auto-tag", "root", none⟩, ⟨"auto-tag", "top", none⟩]

def broken : Store :=
  (deployment.carryOut ((Store.platform (.numbered [])).supervised faulty) (.start .empty)).inner

def thinned : Store := deletion.carryOut (Store.platform (.numbered [])) broken

def restored : Store := deployment.carryOut (Store.platform (.numbered [])) thinned

theorem restored_distinct :
    Function.Injective (StorePolicy.numbered []).newId ∧ restored.Arises (.numbered []) ∧
      (restored.objectsUnder "auto-tag").map (·.remote.name) =
        [some "right", some "root", some "left", some "top"] ∧
      restored.HasNoDuplicates := by
  have hnew := StorePolicy.injective_newId_numbered []
  have hserves := Store.serves (.numbered [])
  have hmanaged : deployment.IsManaged := isManaged
  have hbroken : broken.Arises (.numbered []) := by
    rw [broken]
    exact @Store.Arises.later _ _ _ Supervised.inner _ deployment .empty
      (hserves.supervised faulty) hmanaged
  have hthinned : thinned.Arises (.numbered []) := by
    rw [thinned]
    exact @Store.Arises.later _ _ _ id broken deletion hbroken hserves trivial
  have hrestored : restored.Arises (.numbered []) := by
    rw [restored]
    exact @Store.Arises.later _ _ _ id thinned deployment hthinned hserves hmanaged
  refine ⟨hnew, hrestored, ?_, (Store.Arises.hasNoDuplicates hnew hrestored).1⟩
  decide +kernel

end Diamond

end Rollout
