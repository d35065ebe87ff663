import Rollout.Project
import Mathlib.Data.List.Forall2
import Mathlib.Data.List.Induction
import Mathlib.Data.List.Perm.Basic

/-! The order in which a project hands out its configs: by ascending types, and under one type in
the order in which they were added. -/

namespace Rollout

section

variable {α β κ : Type} [DecidableEq κ]

variable [Ord κ] in
/-- The elements by ascending keys. Those with the same key stay in their order. -/
def grouped (key : α → κ) (l : List α) : List α :=
  (ascending (l.map key)).flatMap fun k => l.filter (key · = k)

theorem perm_flatMap_filter {keys : List κ} (hkeys : keys.Nodup) (key : α → κ) (l : List α) :
    (keys.flatMap fun k => l.filter (key · = k)).Perm (l.filter (key · ∈ keys)) := by
  induction keys with
  | nil => simp
  | cons k ks ih =>
    obtain ⟨hk, hks⟩ := List.nodup_cons.1 hkeys
    have hfirst : l.filter (key · = k) = (l.filter (key · ∈ k :: ks)).filter (key · = k) := by
      rw [List.filter_filter]
      exact List.filter_congr fun a _ => by by_cases h : key a = k <;> simp [h]
    have hrest : l.filter (key · ∈ ks) =
        (l.filter (key · ∈ k :: ks)).filter fun a => !decide (key a = k) := by
      rw [List.filter_filter]
      exact List.filter_congr fun a _ => by by_cases h : key a = k <;> simp [h, hk]
    have hboth := List.filter_append_perm (fun a => decide (key a = k)) (l.filter (key · ∈ k :: ks))
    rw [← hfirst, ← hrest] at hboth
    exact ((ih hks).append_left _).trans hboth

variable [Ord κ]

/-- Nothing is lost or repeated. -/
theorem perm_grouped [Std.TransOrd κ] [Std.LawfulEqOrd κ] (key : α → κ) (l : List α) :
    (grouped key l).Perm l := by
  have hperm := perm_flatMap_filter (nodup_of_pairwise_lt (pairwise_ascending (l.map key))) key l
  rwa [List.filter_eq_self.2 fun a ha => by simpa using ⟨a, ha, rfl⟩] at hperm

theorem forall₂_grouped {R : α → β → Prop} {key : α → κ} {key' : β → κ}
    (hkey : ∀ a b, R a b → key a = key' b) {l : List α} {l' : List β} (h : List.Forall₂ R l l') :
    List.Forall₂ R (grouped key l) (grouped key' l') := by
  have hkeys : l.map key = l'.map key' := by
    induction h with
    | nil => rfl
    | cons hab _ ih => rw [List.map_cons, List.map_cons, hkey _ _ hab, ih]
  rw [grouped, grouped, hkeys]
  refine List.rel_flatMap (R := Eq) (List.forall₂_eq_eq_eq ▸ rfl) ?_
  rintro k _ rfl
  exact List.rel_filter (fun a b hab => by simp [hkey a b hab]) h

end

namespace Project

/-- The configs of an environment by their types. -/
def byType (p : Project) (environment : String) : SortedMap String (List Config) :=
  (p.configs.get? environment).getD ∅

theorem byType_push (p : Project) (c : Config) (environment : String) :
    (p.push c).byType environment =
      if environment = c.environment then
        (p.byType environment).alter c.coordinate.configType [] (· ++ [c])
      else p.byType environment := by
  by_cases h : environment = c.environment
  · simp [byType, push, SortedMap.get?_alter, h]
  · simp [byType, push, SortedMap.get?_alter, h]

theorem configsFor_eq_flatMap (p : Project) (environment : String) :
    p.configsFor environment = (p.byType environment).keys.flatMap fun type =>
      ((p.byType environment).get? type).getD [] := by
  have hvalues := congrArg (List.flatMap (Option.getD · [])) (p.byType environment).map_some_values
  rw [List.flatMap_map, List.flatMap_map] at hvalues
  rw [← hvalues]
  exact List.flatMap_id.symm

variable (name environment : String) (cs : List Config) (type : String)

theorem getD_byType_foldl_push :
    (((cs.foldl push (new name)).byType environment).get? type).getD [] =
      (cs.filter (·.environment = environment)).filter (·.coordinate.configType = type) := by
  induction cs using List.reverseRecOn with
  | nil => rfl
  | append_singleton cs c ih =>
    rw [List.foldl_concat, byType_push, List.filter_append, List.filter_append, ← ih]
    by_cases henvironment : environment = c.environment
    · rw [if_pos henvironment, SortedMap.get?_alter]
      by_cases htype : type = c.coordinate.configType
      · rw [htype, if_pos (by simp)]
        simp [henvironment]
      · rw [if_neg (by simpa using htype)]
        simp [henvironment, Ne.symm htype]
    · rw [if_neg henvironment]
      simp [Ne.symm henvironment]

theorem mem_keys_byType_foldl_push : type ∈ ((cs.foldl push (new name)).byType environment).keys ↔
    type ∈ (cs.filter (·.environment = environment)).map (·.coordinate.configType) := by
  induction cs using List.reverseRecOn with
  | nil => rfl
  | append_singleton cs c ih =>
    rw [List.foldl_concat, byType_push, List.filter_append, List.map_append, List.mem_append, ← ih]
    by_cases henvironment : environment = c.environment
    · rw [if_pos henvironment, SortedMap.mem_keys_iff, SortedMap.mem_keys_iff]
      simp only [SortedMap.get?_alter]
      by_cases htype : type = c.coordinate.configType
      · simp [htype, henvironment]
      · simp [htype, henvironment]
    · rw [if_neg henvironment]
      simp [Ne.symm henvironment]

theorem configsFor_foldl_push : (cs.foldl push (new name)).configsFor environment =
    grouped (·.coordinate.configType) (cs.filter (·.environment = environment)) := by
  have hkeys : ((cs.foldl push (new name)).byType environment).keys = ascending
      ((cs.filter (·.environment = environment)).map (·.coordinate.configType)) := by
    refine eq_of_pairwise_lt (SortedMap.pairwise_keys _) (pairwise_ascending _) fun type => ?_
    rw [mem_ascending, mem_keys_byType_foldl_push]
  rw [configsFor_eq_flatMap, hkeys, grouped]
  exact List.flatMap_congr fun type _ => getD_byType_foldl_push name environment cs type

end Project

end Rollout
