import Rollout.Proofs.Deploy.Mutations
import Rollout.Proofs.Deploy.Rounds
import Rollout.Proofs.Platform.Deletion

/-! Environments that are named more than once. Every name has a round of its own, with calls of its
own, while only the last round of an environment is reported. So the calls and results are those of
a deployment without repetitions only if all rounds that are not reported deployed nothing. -/

namespace Rollout

variable {σ : Type} {P : Platform σ} {vars : Variables} {projects : List Project}
  {supervisor : Supervisor}

/-- How many configs are reported as deployed. -/
def deployedIn : EnvironmentResult → Nat
  | .error _ => 0
  | .ok report => report.deployedCount

/-- The calls made during a round. -/
def Round.calls (r : Round (Supervised σ)) : List Call := r.after.calls.drop r.before.calls.length

/-! ### Calls -/

/-- A round changes one object for every config that its result reports as deployed. -/
theorem round_calls (P : Platform σ) (supervisor : Supervisor) (vars : Variables)
    (projects : List Project) (environment : String) (s : Supervised σ) :
    let r := round (P.supervised supervisor) vars projects environment s
    r.after.calls = s.calls ++ r.calls ∧ (mutations r.calls).length = deployedIn r.result := by
  intro r
  have hcalls : ∀ calls, r.after.calls = s.calls ++ calls → r.calls = calls := by
    intro calls hcalls
    rw [Round.calls, hcalls]
    exact List.drop_left
  cases hbuild : DependencyGraph.build (configsFor projects environment) with
  | error errors =>
    have hrun : r.result = .error errors ∧ r.after = s :=
      Prod.mk.inj (deployEnvironment_of_error hbuild environment s)
    have hafter : r.after.calls = s.calls ++ [] := by rw [hrun.2, List.append_nil]
    rw [hcalls _ hafter, hrun.1]
    exact ⟨hafter, rfl⟩
  | ok g =>
    obtain ⟨report, hreport, hfits⟩ := deployEnvironment_runFits P vars supervisor hbuild
      environment s
    have hresult : r.result = .ok report := hreport
    rw [hcalls _ hfits.calls, hresult]
    exact ⟨hfits.calls, hfits.length_mutations⟩

theorem rounds_calls (P : Platform σ) (supervisor : Supervisor) (vars : Variables)
    (projects : List Project) (names : List String) (s : Supervised σ) :
    let rs := rounds (P.supervised supervisor) vars projects names s
    (stateAfter s rs).calls = s.calls ++ rs.flatMap Round.calls ∧
      (mutations (rs.flatMap Round.calls)).length = sumOver (fun r => deployedIn r.result) rs := by
  induction names generalizing s with
  | nil => exact ⟨(List.append_nil _).symm, rfl⟩
  | cons environment rest ih =>
    obtain ⟨hfirst, hcount⟩ := round_calls P supervisor vars projects environment s
    obtain ⟨hrest, hcount'⟩ :=
      ih (round (P.supervised supervisor) vars projects environment s).after
    dsimp only [rounds]
    rw [List.flatMap_cons, mutations_append, List.length_append, sumOver, hcount, hcount',
      ← List.append_assoc, ← hfirst]
    exact ⟨hrest, rfl⟩

/-! ### Results -/

theorem sumOver_append {α : Type} (count : α → Nat) (xs ys : List α) :
    sumOver count (xs ++ ys) = sumOver count xs + sumOver count ys := by
  induction xs with
  | nil => exact (Nat.zero_add _).symm
  | cons x rest ih => rw [List.cons_append, sumOver, sumOver, ih, Nat.add_assoc]

theorem sumOver_collect_le (results : SortedMap String EnvironmentResult) (rs : List (Round σ)) :
    sumOver deployedIn (collect results rs).values ≤
      sumOver deployedIn results.values + sumOver (fun r => deployedIn r.result) rs := by
  induction rs generalizing results with
  | nil => exact Nat.le_refl _
  | cons r rest ih =>
    have hrest : sumOver deployedIn (collect results (r :: rest)).values ≤ _ :=
      ih (results.insert r.environment r.result)
    have hinsert := sumOver_values_insert deployedIn results r.environment r.result
    rw [sumOver]
    omega

/-- Where environments differ, no result replaces another one. -/
theorem sumOver_collect_of_nodup {rs : List (Round σ)}
    (results : SortedMap String EnvironmentResult) (hnodup : (rs.map (·.environment)).Nodup)
    (hnew : ∀ r ∈ rs, results.get? r.environment = none) :
    sumOver deployedIn (collect results rs).values =
      sumOver deployedIn results.values + sumOver (fun r => deployedIn r.result) rs := by
  induction rs generalizing results with
  | nil => rfl
  | cons r rest ih =>
    obtain ⟨hother, hnodup'⟩ := List.nodup_cons.1 hnodup
    obtain ⟨hr, hnew'⟩ := List.forall_mem_cons.1 hnew
    have hinsert := sumOver_values_insert deployedIn results r.environment r.result
    rw [hr, Option.elim_none] at hinsert
    have hrest := ih (results.insert r.environment r.result) hnodup' fun q hq => by
      have hne : q.environment ≠ r.environment := fun heq =>
        hother (List.mem_map.2 ⟨q, hq, heq⟩)
      rw [SortedMap.get?_insert_of_ne hne]
      exact hnew' q hq
    refine hrest.trans ?_
    rw [sumOver]
    omega

/-- A round that is not the last one of its environment leaves no result. -/
theorem collect_superseded {before after : List (Round σ)} {r : Round σ}
    (h : r.environment ∈ after.map (·.environment)) :
    collect ∅ (before ++ r :: after) = collect ∅ (before ++ after) := by
  apply SortedMap.ext_get?
  intro environment
  rw [get?_collect, get?_collect, ← List.singleton_append, lastRound?_append, lastRound?_append,
    lastRound?_append]
  cases hlast : lastRound? environment after with
  | some last => rfl
  | none =>
    have hne : r.environment ≠ environment := by
      rintro rfl
      exact lastRound?_eq_none_iff.1 hlast h
    have hother : lastRound? environment [r] = none :=
      lastRound?_eq_none_iff.2 fun hmem => hne (List.mem_singleton.1 hmem).symm
    rw [hother, Option.none_or]

/-- If the results report all that was deployed, then a round that they leave out deployed nothing.
-/
theorem deployedIn_superseded {rs : List (Round σ)}
    (hreported : sumOver (fun r => deployedIn r.result) rs =
      sumOver deployedIn (collect ∅ rs).values)
    {before after : List (Round σ)} {r : Round σ} (hsplit : rs = before ++ r :: after)
    (hlater : r.environment ∈ after.map (·.environment)) : deployedIn r.result = 0 := by
  have hle := sumOver_collect_le ∅ (before ++ after)
  rw [← collect_superseded hlater, ← hsplit, ← hreported, hsplit, sumOver_append, sumOver_append,
    sumOver] at hle
  change _ ≤ 0 + _ at hle
  omega

theorem insert_eq_self_iff {results : SortedMap String EnvironmentResult} {environment : String}
    {result : EnvironmentResult} :
    results.insert environment result = results ↔ results.get? environment = some result := by
  constructor
  · intro h
    rw [← h, SortedMap.get?_insert_self]
  · intro h
    apply SortedMap.ext_get?
    intro other
    by_cases heq : other = environment
    · rw [heq, SortedMap.get?_insert_self, h]
    · rw [SortedMap.get?_insert_of_ne heq]

/-! ### Deployments -/

/-- Every name is deployed as often as it is named, and only the last time counts for the report.
If another deployment, in which no name is repeated, makes the same calls and gives the same
results, then all rounds but the last ones of their environments deployed nothing; and naming an
environment once more makes no difference just if its new round makes no call and ends as the last
one did. -/
theorem deployProjects_rounds (P : Platform σ) (supervisor : Supervisor) (vars : Variables)
    (projects : List Project) (names : List String) (s : Supervised σ) :
    let deploy := fun names => deployProjects (P.supervised supervisor) vars projects names s
    let run := deploy names
    let rs := rounds (P.supervised supervisor) vars projects (selectedNames projects names) s
    rs.map (·.environment) = selectedNames projects names ∧
      run.2.calls = s.calls ++ rs.flatMap Round.calls ∧
      (mutations (rs.flatMap Round.calls)).length = sumOver (fun r => deployedIn r.result) rs ∧
      (∀ environment,
        run.1.get? environment = (lastRound? environment rs).map (·.result)) ∧
      (∀ distinct : List String, distinct.Nodup → (deploy distinct).2.calls = run.2.calls →
        (deploy distinct).1 = run.1 → ∀ before r after, rs = before ++ r :: after →
        r.environment ∈ after.map (·.environment) → deployedIn r.result = 0) ∧
      ∀ environment ∈ names,
        let again := round (P.supervised supervisor) vars projects environment run.2
        ((deploy (names ++ [environment])).2.calls = run.2.calls ∧
            (deploy (names ++ [environment])).1 = run.1 ↔
          again.calls = [] ∧ run.1.get? environment = some again.result) := by
  intro deploy run rs
  have hdeploy : ∀ names, deploy names = _ := fun names =>
    deployProjects_run (P.supervised supervisor) vars projects names s
  obtain ⟨hcalls, hcount⟩ := rounds_calls P supervisor vars projects
    (selectedNames projects names) s
  have hresults : run.1 = collect ∅ rs := congrArg Prod.fst (hdeploy names)
  have hstate : run.2 = stateAfter s rs := congrArg Prod.snd (hdeploy names)
  refine ⟨map_environment_rounds _ s, hstate ▸ hcalls, hcount, ?_, ?_, ?_⟩
  · intro environment
    rw [hresults, get?_collect]
    exact Option.or_none
  · intro distinct hdistinct hsameCalls hsameResults before r after hsplit hlater
    obtain ⟨hcalls', hcount'⟩ := rounds_calls P supervisor vars projects
      (selectedNames projects distinct) s
    refine deployedIn_superseded ?_ hsplit hlater
    rw [hdeploy, hstate, hcalls', hcalls] at hsameCalls
    rw [hdeploy, hresults] at hsameResults
    rw [← hsameResults, ← hcount, ← List.append_cancel_left hsameCalls, hcount',
      sumOver_collect_of_nodup]
    · exact (Nat.zero_add _).symm
    · rw [map_environment_rounds]
      exact nodup_selectedNames hdistinct
    · intro _ _
      rfl
  · intro environment hmem again
    have hmore : deploy (names ++ [environment]) =
        (run.1.insert environment again.result, again.after) :=
      deployProjects_concat (List.ne_nil_of_mem hmem) environment s
    have hagain : again.after.calls = run.2.calls ++ again.calls :=
      (round_calls P supervisor vars projects environment run.2).1
    rw [hmore]
    dsimp only
    rw [hagain, insert_eq_self_iff, List.append_right_eq_self]

/-! ### An environment with a config, and one without -/

namespace Repeated

def flag : Config where
  coordinate := ⟨"shop", "workflow", "flag"⟩
  configType := .automation "workflow"
  environment := "dev"
  parameters := ∅
  template := ⟨"flag.json", "on"⟩
  skip := false
  originObjectId := none

def shop : List Project := [(Project.new "shop").push flag]

def quiet : Platform (Supervised Store) :=
  (Store.platform (.numbered [])).supervised fun _ _ => .nothing

def deploy (names : List String) : SortedMap String EnvironmentResult × Supervised Store :=
  deployProjects quiet (fun _ => none) shop names (.start .empty)

def requestsOf (names : List String) : List RequestKind :=
  (deploy names).2.calls.map (·.request.kind)

/-- Each of two rounds deploys the config. -/
theorem not_once :
    requestsOf ["dev", "dev"] = [.list, .create, .list, .update] ∧
      requestsOf ["dev"] = [.list, .create] ∧
      ¬ ∀ (P : Platform Store) (supervisor : Supervisor) (vars : Variables)
        (projects : List Project) (names : List String) (s : Supervised Store),
        let deploy := fun names => deployProjects (P.supervised supervisor) vars projects names s
        (deploy names).2.calls = (deploy names.eraseDups).2.calls ∧
          (deploy names).1 = (deploy names.eraseDups).1 := by
  have htwice : requestsOf ["dev", "dev"] = [.list, .create, .list, .update] := by decide +kernel
  have honce : requestsOf ["dev"] = [.list, .create] := by decide +kernel
  refine ⟨htwice, honce, fun h => ?_⟩
  obtain ⟨hcalls, _⟩ := h (Store.platform (.numbered [])) (fun _ _ => .nothing) (fun _ => none) shop
    ["dev", "dev"] (.start .empty)
  have hsame : requestsOf ["dev", "dev"] = requestsOf ["dev"] :=
    congrArg (List.map fun call : Call => call.request.kind) hcalls
  rw [htwice, honce] at hsame
  cases hsame

/-- A second round of an environment without configs is not to be noticed. -/
theorem qa_unnoticed :
    (deploy ["qa", "dev", "qa"]).2.calls = (deploy ["qa", "dev"]).2.calls ∧
      (deploy ["qa", "dev", "qa"]).1 = (deploy ["qa", "dev"]).1 ∧
      deployedIn (round quiet (fun _ => none) shop "qa" (.start .empty)).result = 0 := by
  have hquiet : (round quiet (fun _ => none) shop "qa" (deploy ["qa", "dev"]).2).calls.isEmpty =
      true := by decide +kernel
  obtain ⟨_, _, _, _, _, hagain⟩ := deployProjects_rounds (Store.platform (.numbered []))
    (fun _ _ => .nothing) (fun _ => none) shop ["qa", "dev"] (.start .empty)
  obtain ⟨hcalls, hresults⟩ := (hagain "qa" (by simp)).2 ⟨List.isEmpty_iff.1 hquiet, rfl⟩
  obtain ⟨_, _, _, _, hsuperseded, _⟩ := deployProjects_rounds (Store.platform (.numbered []))
    (fun _ _ => .nothing) (fun _ => none) shop ["qa", "dev", "qa"] (.start .empty)
  have hnothing := hsuperseded ["qa", "dev"] (by decide) hcalls.symm hresults.symm [] _ _ rfl
    (by decide +kernel)
  exact ⟨hcalls, hresults, hnothing⟩

end Repeated

end Rollout
