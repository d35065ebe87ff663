import Rollout.Coordinate
import Rollout.Proofs.Text.ByteOrder
import Mathlib.Data.List.Dedup

/-! The order of coordinates and references. Coordinates of different displays stand as the bytes of
their displays do, those of one display by their parts, and references by their coordinates and then
by their properties. Both orders are linear, so nothing that is keyed by them is merged or lost
(`Coordinate.order_refines_display`). -/

namespace Rollout

/-- The comparison is a linear order. -/
structure IsLinear (α : Type) [Ord α] : Prop where
  total : ∀ a b : α, (compare a b).isLE ∨ (compare b a).isLE
  antisymm : ∀ a b : α, (compare a b).isLE → (compare b a).isLE → a = b
  trans : ∀ a b c : α, (compare a b).isLE → (compare b c).isLE → (compare a c).isLE
  compare_eq_iff : ∀ a b : α, compare a b = .eq ↔ a = b
  swap : ∀ a b : α, compare b a = (compare a b).swap

/-- In a map the last value of a key is found under it, and in maps and sets every key that was put
there stands once. -/
structure KeepsKeys (κ : Type) [Ord κ] [Std.TransOrd κ] [DecidableEq κ] : Prop where
  get? : ∀ {ν : Type} (pairs : List (κ × ν)) (key : κ),
    (SortedMap.ofList pairs).get? key = (pairs.reverse.find? (·.1 = key)).map (·.2)
  keys : ∀ {ν : Type} (pairs : List (κ × ν)),
    (SortedMap.ofList pairs).keys.Perm (pairs.map (·.1)).dedup
  elements : ∀ keys : List κ, (ascending keys).Perm keys.dedup

section

variable {α : Type} [Ord α] [Std.TransOrd α]

theorem perm_dedup_of_pairwise_lt [DecidableEq α] {keys keys' : List α}
    (h : keys.Pairwise (compare · · = .lt)) (hmem : ∀ key, key ∈ keys ↔ key ∈ keys') :
    keys.Perm keys'.dedup :=
  (List.perm_ext_iff_of_nodup (nodup_of_pairwise_lt h) (List.nodup_dedup _)).2 fun key => by
    rw [hmem, List.mem_dedup]

variable [Std.LawfulEqOrd α]

theorem isLinear_of_transOrd : IsLinear α where
  total a b := by
    rw [Std.OrientedOrd.eq_swap (a := b)]
    cases compare a b <;> simp
  antisymm _ _ hab hba := Std.LawfulEqOrd.eq_of_compare (Std.OrientedCmp.isLE_antisymm hab hba)
  trans _ _ _ := Std.TransCmp.isLE_trans
  compare_eq_iff _ _ := Std.LawfulEqCmp.compare_eq_iff_eq
  swap _ _ := Std.OrientedCmp.eq_swap

theorem keepsKeys_of_transOrd [DecidableEq α] : KeepsKeys α where
  get? := SortedMap.get?_ofList
  keys _ := perm_dedup_of_pairwise_lt (SortedMap.pairwise_keys _) fun _ =>
    SortedMap.mem_keys_ofList_iff
  elements keys := perm_dedup_of_pairwise_lt (pairwise_ascending keys) fun _ => mem_ascending

end

namespace Coordinate

variable {a b : Coordinate}

theorem compare_of_display_ne (h : a.display ≠ b.display) :
    compare a b = compare (Text.bytes a.display) (Text.bytes b.display) := by
  rw [compare_def, Text.compare_bytes]
  cases hdisplay : compare a.display b.display with
  | eq => exact absurd (Std.LawfulEqOrd.eq_of_compare hdisplay) h
  | lt | gt => rfl

theorem compare_of_display_eq (h : a.display = b.display) :
    compare a b = (compare (Text.bytes a.project) (Text.bytes b.project)).then
      ((compare (Text.bytes a.configType) (Text.bytes b.configType)).then
        (compare (Text.bytes a.configId) (Text.bytes b.configId))) := by
  rw [compare_def, h, Std.ReflOrd.compare_self, Ordering.eq_then]
  simp only [Text.compare_bytes]

/-- The orders of coordinates and references are linear, whatever their parts hold. Displays come
first, in the order of their bytes, and where they are the same the parts decide, so that maps and
sets keep all keys apart. -/
theorem order_refines_display :
    IsLinear Coordinate ∧
    (∀ a b : Coordinate, a.display ≠ b.display →
      compare a b = compare (Text.bytes a.display) (Text.bytes b.display)) ∧
    (∀ a b : Coordinate, a.display = b.display →
      compare a b = (compare (Text.bytes a.project) (Text.bytes b.project)).then
        ((compare (Text.bytes a.configType) (Text.bytes b.configType)).then
          (compare (Text.bytes a.configId) (Text.bytes b.configId)))) ∧
    IsLinear Reference ∧
    (∀ r s : Reference, compare r s = (compare r.coordinate s.coordinate).then
      (compare (Text.bytes r.property) (Text.bytes s.property))) ∧
    KeepsKeys Coordinate ∧ KeepsKeys Reference := by
  refine ⟨isLinear_of_transOrd, fun _ _ => compare_of_display_ne,
    fun _ _ => compare_of_display_eq, isLinear_of_transOrd, fun r s => ?_,
    keepsKeys_of_transOrd, keepsKeys_of_transOrd⟩
  rw [Reference.compare_def, Text.compare_bytes]

/-- By their parts the first two would stand the other way round. The others have one display. -/
theorem dashed_first_and_both_kept :
    compare (⟨"a-b", "t", "x"⟩ : Coordinate) ⟨"a", "t", "x"⟩ = .lt ∧
    compare (⟨"p", "auto-tag", "x:y"⟩ : Coordinate) ⟨"p", "auto-tag:x", "y"⟩ = .lt ∧
    (ascending [(⟨"p", "auto-tag:x", "y"⟩ : Coordinate), ⟨"p", "auto-tag", "x:y"⟩]).length = 2 := by
  obtain ⟨_, hne, heq, _, _, hkeeps, _⟩ := order_refines_display
  refine ⟨?_, ?_, ?_⟩
  · rw [hne _ _ (by decide), Text.bytes_eq, Text.bytes_eq]
    decide +kernel
  · rw [heq _ _ (by decide)]
    simp only [Text.bytes_eq]
    decide +kernel
  · rw [(hkeeps.elements _).length_eq]
    decide +kernel

end Coordinate

end Rollout
