import Mathlib.Data.List.Basic
import Mathlib.Tactic.SplitIfs

/-! The order of texts by their bytes. UTF-8 keeps the order of characters: the bytes of a smaller
character come first, and neither character begins the other. So texts are ordered by their
characters as they are by their bytes (`compare_bytes`). -/

namespace Rollout.Text

/-- The bytes of a text in UTF-8. -/
def bytes (s : String) : List UInt8 := s.toUTF8.data.toList

/-! ### Characters -/

theorem compare_ofNat_eq_lt {m n : Nat} (hm : m < 256) (hn : n < 256) :
    compare (UInt8.ofNat m) (UInt8.ofNat n) = .lt ↔ m < n := by
  rw [Std.compare_eq_lt, UInt8.lt_iff_toNat_lt, UInt8.toNat_ofNat_of_lt' hm,
    UInt8.toNat_ofNat_of_lt' hn]

theorem compare_ofNat_eq_eq {m n : Nat} (hm : m < 256) (hn : n < 256) :
    compare (UInt8.ofNat m) (UInt8.ofNat n) = .eq ↔ m = n := by
  rw [Std.LawfulEqCmp.compare_eq_iff_eq, ← UInt8.toNat_inj, UInt8.toNat_ofNat_of_lt' hm,
    UInt8.toNat_ofNat_of_lt' hn]

theorem compare_append_left (start s t : List UInt8) :
    compare (start ++ s) (start ++ t) = compare s t := by
  induction start with
  | nil => rfl
  | cons b start ih => simp [ih]

/-- The bytes of two characters differ before one of them ends. -/
theorem compare_utf8EncodeChar_append {c d : Char} (h : c < d) (s t : List UInt8) :
    compare (String.utf8EncodeChar c ++ s) (String.utf8EncodeChar d ++ t) = .lt := by
  have hlt : c.val.toNat < d.val.toNat := h
  have hbound : d.val.toNat < 0x110000 := by
    have hvalid := d.valid
    simp only [UInt32.isValidChar, Nat.isValidChar] at hvalid
    omega
  unfold String.utf8EncodeChar
  generalize c.val.toNat = v at *
  generalize d.val.toNat = w at *
  -- The bytes are digits to the base 64, and there are no more than four of them.
  have hdigits (v : Nat) : v / 64 / 64 = v / 4096 ∧ v / 4096 / 64 = v / 262144 := by omega
  have hv := hdigits v
  have hw := hdigits w
  have hfirst : v / 262144 % 8 = v / 262144 ∧ w / 262144 % 8 = w / 262144 := by omega
  dsimp only
  split_ifs
  all_goals
    simp only [List.cons_append, List.nil_append, List.compare_cons_cons, Ordering.then_eq_lt]
    simp (disch := omega) only [compare_ofNat_eq_lt, compare_ofNat_eq_eq]
    omega

/-! ### Texts -/

theorem bytes_eq (s : String) : bytes s = s.toList.flatMap String.utf8EncodeChar := by
  rw [bytes, String.toUTF8_eq_toByteArray, ← String.utf8Encode_toList, List.utf8Encode,
    List.toList_data_toByteArray]

theorem compare_flatMap_of_lt {l m : List Char} (h : l < m) :
    compare (l.flatMap String.utf8EncodeChar) (m.flatMap String.utf8EncodeChar) = .lt := by
  induction m generalizing l with
  | nil => exact absurd h (List.not_lt_nil l)
  | cons d m ih =>
    cases l with
    | nil =>
      have hpos : 0 < (String.utf8EncodeChar d).length := by simp [Char.utf8Size_pos]
      obtain ⟨b, bs, hd⟩ := List.exists_cons_of_length_pos hpos
      rw [List.flatMap_nil, List.flatMap_cons, hd]
      rfl
    | cons c l =>
      rw [List.flatMap_cons, List.flatMap_cons]
      rcases List.cons_lt_cons_iff.1 h with hlt | ⟨rfl, hlt⟩
      · exact compare_utf8EncodeChar_append hlt _ _
      · rw [compare_append_left]
        exact ih hlt

theorem compare_bytes_of_lt {s t : String} (h : compare s t = .lt) :
    compare (bytes s) (bytes t) = .lt := by
  rw [bytes_eq, bytes_eq]
  exact compare_flatMap_of_lt (String.lt_iff.1 (compareOfLessAndEq_eq_lt.1 h))

/-- Texts are ordered as their bytes are. -/
theorem compare_bytes (s t : String) : compare (bytes s) (bytes t) = compare s t := by
  cases h : compare s t with
  | lt => exact compare_bytes_of_lt h
  | eq =>
    obtain rfl := Std.LawfulEqOrd.eq_of_compare h
    exact Std.ReflOrd.compare_self
  | gt => exact Std.OrientedCmp.gt_of_lt (compare_bytes_of_lt (Std.OrientedCmp.lt_of_gt h))

end Rollout.Text
