import Rollout.Deploy.History
import Rollout.Proofs.Deploy.Timeline

/-! A deployment of several environments as its rounds. There is one round for every name, on the
platform as the round before left it; for each environment the result of its last round is
reported. -/

namespace Rollout

variable {σ : Type} {P : Platform σ} {vars : Variables} {projects : List Project} {s : σ}

/-- The state that rounds lead to from `s`. -/
def stateAfter (s : σ) (rs : List (Round σ)) : σ := rs.foldl (fun _ r => r.after) s

/-- The results of rounds, put in over earlier ones. -/
def collect (results : SortedMap String EnvironmentResult) (rs : List (Round σ)) :
    SortedMap String EnvironmentResult :=
  rs.foldl (fun results r => results.insert r.environment r.result) results

/-- The last round of an environment. -/
def lastRound? (environment : String) (rs : List (Round σ)) : Option (Round σ) :=
  rs.reverse.find? (·.environment = environment)

/-! ### Rounds and runs -/

theorem deployNamed_run (names : List String) (results : SortedMap String EnvironmentResult)
    (s : σ) : deployNamed P vars projects names results s =
      (collect results (rounds P vars projects names s),
        stateAfter s (rounds P vars projects names s)) := by
  induction names generalizing results s with
  | nil => rfl
  | cons environment rest ih => exact ih _ _

variable (P vars projects) in
theorem deployProjects_run (names : List String) (s : σ) :
    deployProjects P vars projects names s =
      (collect ∅ (rounds P vars projects (selectedNames projects names) s),
        stateAfter s (rounds P vars projects (selectedNames projects names) s)) :=
  deployNamed_run _ _ _

theorem map_environment_rounds (names : List String) (s : σ) :
    (rounds P vars projects names s).map (·.environment) = names := by
  induction names generalizing s with
  | nil => rfl
  | cons environment rest ih => exact congrArg (environment :: ·) (ih _)

theorem rounds_append (names more : List String) (s : σ) :
    rounds P vars projects (names ++ more) s = rounds P vars projects names s ++
      rounds P vars projects more (stateAfter s (rounds P vars projects names s)) := by
  induction names generalizing s with
  | nil => rfl
  | cons environment rest ih => exact congrArg (_ :: ·) (ih _)

theorem stateAfter_append (s : σ) (rs later : List (Round σ)) :
    stateAfter s (rs ++ later) = stateAfter (stateAfter s rs) later := List.foldl_append

theorem collect_append (results : SortedMap String EnvironmentResult) (rs later : List (Round σ)) :
    collect results (rs ++ later) = collect (collect results rs) later := List.foldl_append

/-- One name more is one round more. -/
theorem deployProjects_concat {names : List String} (h : names ≠ []) (environment : String)
    (s : σ) : deployProjects P vars projects (names ++ [environment]) s =
      let run := deployProjects P vars projects names s
      let again := round P vars projects environment run.2
      (run.1.insert environment again.result, again.after) := by
  have hselected : ∀ {names : List String}, names ≠ [] → selectedNames projects names = names :=
    fun h => if_neg (by simpa using h)
  rw [deployProjects_run, deployProjects_run, hselected h, hselected (by simp), rounds_append,
    collect_append, stateAfter_append]
  rfl

/-! ### Last rounds -/

theorem lastRound?_append (environment : String) (rs later : List (Round σ)) :
    lastRound? environment (rs ++ later) =
      (lastRound? environment later).or (lastRound? environment rs) := by
  rw [lastRound?, List.reverse_append, List.find?_append]
  rfl

theorem lastRound?_eq_none_iff {environment : String} {rs : List (Round σ)} :
    lastRound? environment rs = none ↔ environment ∉ rs.map (·.environment) := by
  simp [lastRound?]

/-- After the last round of an environment there is none. -/
theorem exists_split_of_lastRound? {environment : String} {rs : List (Round σ)} {r : Round σ}
    (h : lastRound? environment rs = some r) : r.environment = environment ∧
      ∃ before after, rs = before ++ r :: after ∧ environment ∉ after.map (·.environment) := by
  obtain ⟨hr, later, earlier, hsplit, hlater⟩ := List.find?_eq_some_iff_append.1 h
  refine ⟨by simpa using hr, earlier.reverse, later.reverse, ?_, ?_⟩
  · rw [← List.reverse_reverse rs, hsplit]
    simp
  · simpa using hlater

theorem get?_collect (results : SortedMap String EnvironmentResult) (rs : List (Round σ))
    (environment : String) : (collect results rs).get? environment =
      ((lastRound? environment rs).map (·.result)).or (results.get? environment) := by
  induction rs generalizing results with
  | nil => rfl
  | cons r rest ih =>
    refine (ih _).trans ?_
    rw [← List.singleton_append, lastRound?_append]
    cases lastRound? environment rest with
    | some last => rfl
    | none =>
      by_cases heq : environment = r.environment
      · simp [lastRound?, heq]
      · simp [lastRound?, SortedMap.get?_insert, heq, Ne.symm heq]

theorem nodup_selectedNames {names : List String} (h : names.Nodup) :
    (selectedNames projects names).Nodup := by
  unfold selectedNames
  split
  · exact nodup_of_pairwise_lt (pairwise_ascending _)
  · exact h

/-! ### Attempts -/

/-- The rounds make one timeline. -/
theorem timeline_rounds (names : List String) (s : σ) :
    let rs := rounds P vars projects names s
    Timeline P s (rs.flatMap (Round.attempts P vars)) (stateAfter s rs) := by
  induction names generalizing s with
  | nil => exact .nil .refl
  | cons environment rest ih => exact (timeline_history P vars environment _ s).append (ih _)

theorem ran_of_mem_attempts {rs : List (Round σ)} {a : Attempt σ}
    (ha : a ∈ rs.flatMap (Round.attempts P vars)) : a.Ran P vars := by
  obtain ⟨r, _, ha⟩ := List.mem_flatMap.1 ha
  exact (mem_history ha).2

/-- Before and after one of the rounds. -/
theorem timeline_rounds_split {names : List String} {before after : List (Round σ)} {r : Round σ}
    (h : rounds P vars projects names s = before ++ r :: after) :
    r = round P vars projects r.environment r.before ∧
      Timeline P s (before.flatMap (Round.attempts P vars)) r.before ∧
      Timeline P r.after (after.flatMap (Round.attempts P vars))
        (stateAfter s (rounds P vars projects names s)) := by
  induction names generalizing s before with
  | nil => simp [rounds] at h
  | cons environment rest ih =>
    cases before with
    | nil =>
      obtain ⟨rfl, rfl⟩ := List.cons.inj h
      exact ⟨rfl, .nil .refl, timeline_rounds rest _⟩
    | cons q before =>
      obtain ⟨rfl, hrest⟩ := List.cons.inj h
      obtain ⟨hr, hbefore, hafter⟩ := ih hrest
      exact ⟨hr, (timeline_history P vars environment _ s).append hbefore, hafter⟩

end Rollout
