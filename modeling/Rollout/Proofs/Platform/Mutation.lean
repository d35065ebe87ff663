import Rollout.Platform.Fleet
import Rollout.Platform.Memory
import Rollout.Platform.Supervised

/-! Calls that changed an object on a platform, and platforms that count them. -/

namespace Rollout

variable {σ : Type}

/-- A create or an update that was carried out. -/
structure Mutation where
  type : ConfigType
  /-- The object that was created or updated. -/
  id : String
  payload : Payload
deriving DecidableEq

def Call.mutation? : Call → Option Mutation
  | ⟨.create type payload, .ok id⟩ => some ⟨type, id, payload⟩
  | ⟨.update type id payload, .ok _⟩ => some ⟨type, id, payload⟩
  | _ => none

def mutations (calls : List Call) : List Mutation := calls.filterMap Call.mutation?

theorem mutations_append (calls calls' : List Call) :
    mutations (calls ++ calls') = mutations calls ++ mutations calls' := List.filterMap_append

/-- A number that goes up by one with every mutation. -/
structure Platform.CountsMutations (P : Platform σ) (count : σ → Nat) : Prop where
  handle : ∀ r s, count (P.handle r s).2 = count s + (mutations [⟨r, (P.handle r s).1⟩]).length
  elapse : ∀ s, count (P.elapse s) = count s

/-! ### Stores -/

/-- How many requests that change an object a store has carried out. -/
def Store.writes (s : Store) : Nat := s.creates + s.updates

namespace Store

variable {policy : StorePolicy}

theorem create_writes (type : ConfigType) (payload : Payload) (s : Store) :
    (create policy type payload s).2.writes =
      s.writes + (mutations [⟨.create type payload, (create policy type payload s).1⟩]).length := by
  unfold create
  cases rejection? policy payload with
  | some e => rfl
  | none =>
    dsimp only [writes, setObjects]
    exact Nat.add_right_comm ..

theorem update_writes (type : ConfigType) (id : String) (payload : Payload) (s : Store) :
    (update policy type id payload s).2.writes =
      s.writes +
        (mutations [⟨.update type id payload, (update policy type id payload s).1⟩]).length := by
  unfold update
  cases rejection? policy payload with
  | some e => rfl
  | none =>
    cases updateFirst? id payload (s.objectsOf type) with
    | none => rfl
    | some objects => rfl

theorem delete_writes (type : ConfigType) (id : String) (s : Store) :
    (delete type id s).2.writes = s.writes := by
  unfold delete
  dsimp only
  split
  · rfl
  · rfl

theorem countsMutations (policy : StorePolicy) : (platform policy).CountsMutations writes where
  handle r s := by
    cases r with
    | list type => rfl
    | create type payload => exact create_writes type payload s
    | update type id payload => exact update_writes type id payload s
    | delete type id => exact delete_writes type id s
  elapse _ := rfl

end Store

/-! ### Several platforms, and a supervisor in front -/

def sumOver (count : σ → Nat) : List σ → Nat
  | [] => 0
  | s :: rest => count s + sumOver count rest

private theorem sumOver_set (count : σ → Nat) {states : List σ} {i : Nat} {s t : σ} {n : Nat}
    (hs : states[i]? = some s) (ht : count t = count s + n) :
    sumOver count (states.set i t) = sumOver count states + n := by
  induction states generalizing i with
  | nil => cases hs
  | cons u rest ih =>
    cases i with
    | zero =>
      cases hs
      rw [List.set_cons_zero, sumOver, sumOver, ht, Nat.add_right_comm]
    | succ i => rw [List.set_cons_succ, sumOver, sumOver, ih hs, Nat.add_assoc]

private theorem sumOver_mapIdx (count : σ → Nat) {f : Nat → σ → σ}
    (hf : ∀ i s, count (f i s) = count s) (states : List σ) :
    sumOver count (states.mapIdx f) = sumOver count states := by
  induction states generalizing f with
  | nil => rfl
  | cons s rest ih => rw [List.mapIdx_cons, sumOver, sumOver, hf, ih fun i => hf (i + 1)]

namespace Platform

variable {count : σ → Nat}

theorem CountsMutations.fleet {inCharge : ConfigKind → Nat} {members : Nat → Platform σ}
    (h : ∀ i, (members i).CountsMutations count) :
    (fleet inCharge members).CountsMutations (sumOver count) where
  handle r states := by
    dsimp only [Platform.fleet]
    cases hs : states[inCharge r.type.kind]? with
    | some s => exact sumOver_set count hs ((h _).handle r s)
    | none => cases r <;> rfl
  elapse states := sumOver_mapIdx count (fun i => (h i).elapse) states

theorem CountsMutations.supervised {P : Platform σ} (h : P.CountsMutations count)
    (supervisor : Supervisor) : (P.supervised supervisor).CountsMutations (count ·.inner) where
  handle r s := by
    dsimp only [Platform.supervised, Supervised.handle]
    cases (supervisor s.calls r).error with
    | some e => cases r <;> rfl
    | none => exact h.handle r s.inner
  elapse s := h.elapse s.inner

end Platform

end Rollout
