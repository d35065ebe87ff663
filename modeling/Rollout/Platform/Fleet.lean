import Rollout.Platform.Basic

/-! Several platforms that share the kinds of config types among themselves. -/

namespace Rollout

namespace Platform

variable {σ : Type}

private theorem any_zipIdx_iff (f : Nat → σ → Bool) {states : List σ} :
    (states.zipIdx.any fun (s, i) => f i s) = true ↔ ∃ i s, states[i]? = some s ∧ f i s = true := by
  simp only [List.any_eq_true, Prod.exists, List.mem_zipIdx_iff_getElem?]
  exact exists_comm

/-- Sends each request to the member that is in charge of the kind of its type. -/
def fleet (inCharge : ConfigKind → Nat) (members : Nat → Platform σ) : Platform (List σ) where
  handle r states :=
    let i := inCharge r.type.kind
    match states[i]? with
    | some s =>
      let (outcome, s) := (members i).handle r s
      (outcome, states.set i s)
    | none => (.error (.internal "no platform"), states)
  isCancelled states := states.zipIdx.any fun (s, i) => (members i).isCancelled s
  elapse states := states.mapIdx fun i s => (members i).elapse s
  isCancelled_handle r states h := by
    obtain ⟨i, s, hs, hc⟩ := (any_zipIdx_iff fun i => (members i).isCancelled).1 h
    dsimp only
    split
    · rename_i t ht
      apply (any_zipIdx_iff fun i => (members i).isCancelled).2
      by_cases hi : inCharge r.type.kind = i
      · subst hi
        cases ht.symm.trans hs
        have hlt := (List.getElem?_eq_some_iff.1 ht).1
        exact ⟨_, _, List.getElem?_set_self hlt, (members _).isCancelled_handle r s hc⟩
      · exact ⟨i, s, (List.getElem?_set_ne hi).trans hs, hc⟩
    · exact h
  isCancelled_elapse states h := by
    obtain ⟨i, s, hs, hc⟩ := (any_zipIdx_iff fun i => (members i).isCancelled).1 h
    exact (any_zipIdx_iff fun i => (members i).isCancelled).2
      ⟨i, _, by simp [hs], (members i).isCancelled_elapse s hc⟩

end Platform

end Rollout
