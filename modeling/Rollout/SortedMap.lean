import Rollout.Ascending

/-! Maps kept as association lists whose keys ascend strictly. `SortedMap` carries that order in its
type; `Assoc` holds the same operations on bare lists, for the types that nest such a list inside
themselves. Looking up after an insertion gives the value just put there and leaves every other key
alone (`Assoc.get?_insert`), and two maps with the same lookups are equal (`SortedMap.ext_get?`). -/

namespace Rollout

universe u v w

namespace Assoc

variable {κ : Type u} {ν : Type v} {μ : Type w} [Ord κ]

/-- The value stored under a key. -/
def get? (key : κ) : List (κ × ν) → Option ν
  | [] => none
  | (k, v) :: rest => if compare key k = .eq then some v else get? key rest

/-- Puts a value under a key, in key order, replacing what was there. -/
def insert (key : κ) (value : ν) : List (κ × ν) → List (κ × ν)
  | [] => [(key, value)]
  | (k, v) :: rest =>
    match compare key k with
    | .lt => (key, value) :: (k, v) :: rest
    | .eq => (key, value) :: rest
    | .gt => (k, v) :: insert key value rest

/-- Inserts the pairs one after another, so the last value of a repeated key stays. -/
def ofList (pairs : List (κ × ν)) : List (κ × ν) :=
  pairs.foldl (fun entries p => insert p.1 p.2 entries) []

/-- The keys ascend strictly. -/
def Ascending (entries : List (κ × ν)) : Prop :=
  entries.Pairwise fun a b => compare a.1 b.1 = .lt

theorem mem_insert {key : κ} {value : ν} {entries : List (κ × ν)} {p : κ × ν}
    (h : p ∈ insert key value entries) : p = (key, value) ∨ p ∈ entries := by
  induction entries with
  | nil => simpa [insert] using h
  | cons head rest ih =>
    simp only [insert] at h
    split at h
    · simpa using h
    · exact (List.mem_cons.1 h).imp_right (List.mem_cons_of_mem _)
    · rcases List.mem_cons.1 h with h | h
      · exact .inr (h ▸ List.mem_cons_self)
      · exact (ih h).imp_right (List.mem_cons_of_mem _)

theorem Ascending.insert [Std.TransOrd κ] {entries : List (κ × ν)} (h : Ascending entries)
    (key : κ) (value : ν) : Ascending (insert key value entries) := by
  induction entries with
  | nil => simp [Assoc.insert, Ascending]
  | cons head rest ih =>
    obtain ⟨k, v⟩ := head
    obtain ⟨hhead, hrest⟩ := List.pairwise_cons.1 h
    simp only [Assoc.insert]
    split
    · rename_i hlt
      refine List.pairwise_cons.2 ⟨fun p hp => ?_, h⟩
      rcases List.mem_cons.1 hp with rfl | hp
      · exact hlt
      · exact Std.TransCmp.lt_trans hlt (hhead p hp)
    · rename_i heq
      exact List.pairwise_cons.2 ⟨fun p hp => Std.TransCmp.lt_of_eq_of_lt heq (hhead p hp), hrest⟩
    · rename_i hgt
      refine List.pairwise_cons.2 ⟨fun p hp => ?_, ih hrest⟩
      rcases mem_insert hp with rfl | hp
      · exact Std.OrientedCmp.lt_of_gt hgt
      · exact hhead p hp

theorem Ascending.ofList [Std.TransOrd κ] (pairs : List (κ × ν)) : Ascending (ofList pairs) := by
  suffices ∀ acc : List (κ × ν), Ascending acc →
      Ascending (pairs.foldl (fun entries p => Assoc.insert p.1 p.2 entries) acc) from
    this [] List.Pairwise.nil
  induction pairs with
  | nil => exact fun _ h => h
  | cons p rest ih => exact fun acc h => ih _ (h.insert p.1 p.2)

@[simp] theorem get?_nil (key : κ) : get? key ([] : List (κ × ν)) = none := rfl

theorem get?_insert [Std.TransOrd κ] [Std.LawfulEqOrd κ] (key other : κ) (value : ν)
    (entries : List (κ × ν)) :
    get? other (insert key value entries) =
      if compare other key = .eq then some value else get? other entries := by
  induction entries with
  | nil => simp [Assoc.insert, get?]
  | cons head rest ih =>
    obtain ⟨k, v⟩ := head
    simp only [Assoc.insert]
    split
    · simp [get?]
    · rename_i heq
      obtain rfl := Std.LawfulEqOrd.eq_of_compare heq
      by_cases h : compare other key = .eq <;> simp [get?, h]
    · rename_i hgt
      by_cases h : compare other k = .eq
      · obtain rfl := Std.LawfulEqOrd.eq_of_compare h
        have hne : compare other key ≠ .eq := fun he => by
          obtain rfl := Std.LawfulEqOrd.eq_of_compare he
          simp at hgt
        simp [get?, hne]
      · simp [get?, h, ih]

theorem mem_foldl_insert {pairs entries : List (κ × ν)} {p : κ × ν}
    (h : p ∈ pairs.foldl (fun entries q => insert q.1 q.2 entries) entries) :
    p ∈ pairs ∨ p ∈ entries := by
  induction pairs generalizing entries with
  | nil => exact .inr h
  | cons q rest ih =>
    rcases ih h with h | h
    · exact .inl (List.mem_cons_of_mem _ h)
    · rcases mem_insert h with rfl | h
      · exact .inl List.mem_cons_self
      · exact .inr h

theorem get?_foldl_insert_of_not_mem [Std.TransOrd κ] [Std.LawfulEqOrd κ]
    {pairs : List (κ × ν)} {key : κ} (h : key ∉ pairs.map (·.1)) (entries : List (κ × ν)) :
    get? key (pairs.foldl (fun entries q => insert q.1 q.2 entries) entries) =
      get? key entries := by
  induction pairs generalizing entries with
  | nil => rfl
  | cons q rest ih =>
    obtain ⟨hq, hrest⟩ := not_or.1 (mt List.mem_cons.2 h)
    rw [List.foldl_cons, ih hrest, get?_insert, if_neg]
    exact fun heq => hq (Std.LawfulEqOrd.eq_of_compare heq)

theorem get?_foldl_insert [Std.TransOrd κ] [Std.LawfulEqOrd κ] {pairs : List (κ × ν)}
    (hnodup : (pairs.map (·.1)).Nodup) {key : κ} {value : ν} (h : (key, value) ∈ pairs)
    (entries : List (κ × ν)) :
    get? key (pairs.foldl (fun entries q => insert q.1 q.2 entries) entries) = some value := by
  induction pairs generalizing entries with
  | nil => cases h
  | cons q rest ih =>
    obtain ⟨hq, hrest⟩ := List.nodup_cons.1 hnodup
    rcases List.mem_cons.1 h with rfl | h
    · rw [List.foldl_cons, get?_foldl_insert_of_not_mem hq, get?_insert]
      simp
    · exact ih hrest h _

/-- The last value put under a key is found, or else what was there before. -/
theorem get?_foldl_insert_eq [Std.TransOrd κ] [Std.LawfulEqOrd κ] [DecidableEq κ]
    (pairs entries : List (κ × ν)) (key : κ) :
    get? key (pairs.foldl (fun entries q => insert q.1 q.2 entries) entries) =
      ((pairs.reverse.find? (·.1 = key)).map (·.2)).or (get? key entries) := by
  induction pairs generalizing entries with
  | nil => rfl
  | cons q rest ih =>
    rw [List.foldl_cons, ih, get?_insert, List.reverse_cons, List.find?_append, Option.map_or,
      Option.or_assoc]
    by_cases hkey : q.1 = key
    · simp [hkey]
    · simp [hkey, Ne.symm hkey]

theorem isSome_get?_foldl_insert [Std.TransOrd κ] [Std.LawfulEqOrd κ] {pairs : List (κ × ν)}
    {key : κ} {entries : List (κ × ν)} (h : key ∈ pairs.map (·.1) ∨ (get? key entries).isSome) :
    (get? key (pairs.foldl (fun entries q => insert q.1 q.2 entries) entries)).isSome := by
  induction pairs generalizing entries with
  | nil => exact h.resolve_left List.not_mem_nil
  | cons q rest ih =>
    apply ih
    rw [get?_insert, List.map_cons, List.mem_cons, or_assoc] at *
    split
    · exact .inr rfl
    · rename_i hne
      exact h.resolve_left fun heq => hne (by simp [heq])

theorem mem_of_get? [Std.LawfulEqOrd κ] {key : κ} {value : ν} {entries : List (κ × ν)}
    (h : get? key entries = some value) : (key, value) ∈ entries := by
  induction entries with
  | nil => simp at h
  | cons head rest ih =>
    obtain ⟨k, v⟩ := head
    simp only [get?] at h
    split at h
    · rename_i heq
      obtain rfl := Std.LawfulEqOrd.eq_of_compare heq
      obtain rfl := Option.some.inj h
      exact List.mem_cons_self
    · exact List.mem_cons_of_mem _ (ih h)

theorem Ascending.get?_of_mem [Std.TransOrd κ] {key : κ} {value : ν}
    {entries : List (κ × ν)} (hasc : Ascending entries) (h : (key, value) ∈ entries) :
    get? key entries = some value := by
  induction entries with
  | nil => cases h
  | cons head rest ih =>
    obtain ⟨hhead, hrest⟩ := List.pairwise_cons.1 hasc
    rcases List.mem_cons.1 h with rfl | h
    · simp [get?]
    · have hlt := hhead _ h
      have hne : compare key head.1 ≠ .eq := fun he => by
        have := Std.OrientedCmp.eq_comm.1 he
        simp [this] at hlt
      simp [get?, hne, ih hrest h]

end Assoc

/-- A map whose entries stand in ascending order of their keys. -/
structure SortedMap (κ : Type u) (ν : Type v) [Ord κ] where
  entries : List (κ × ν)
  ascending : Assoc.Ascending entries

namespace SortedMap

variable {κ : Type u} {ν : Type v} {μ : Type w} [Ord κ]

@[ext] theorem ext {a b : SortedMap κ ν} (h : a.entries = b.entries) : a = b := by
  cases a; cases b; cases h; rfl

instance [DecidableEq κ] [DecidableEq ν] : DecidableEq (SortedMap κ ν) := fun a b =>
  if h : a.entries = b.entries then isTrue (ext h) else isFalse fun he => h (he ▸ rfl)

def empty : SortedMap κ ν := ⟨[], List.Pairwise.nil⟩

instance : EmptyCollection (SortedMap κ ν) := ⟨empty⟩

instance : Inhabited (SortedMap κ ν) := ⟨empty⟩

def get? (m : SortedMap κ ν) (key : κ) : Option ν := Assoc.get? key m.entries

def contains (m : SortedMap κ ν) (key : κ) : Bool := (m.get? key).isSome

def insert [Std.TransOrd κ] (m : SortedMap κ ν) (key : κ) (value : ν) : SortedMap κ ν :=
  ⟨Assoc.insert key value m.entries, m.ascending.insert key value⟩

/-- Changes the value under a key, starting from `fallback` where there is none. -/
def alter [Std.TransOrd κ] (m : SortedMap κ ν) (key : κ) (fallback : ν) (f : ν → ν) :
    SortedMap κ ν :=
  m.insert key (f ((m.get? key).getD fallback))

/-- Inserts the pairs one after another, so the last value of a repeated key stays. -/
def ofList [Std.TransOrd κ] (pairs : List (κ × ν)) : SortedMap κ ν :=
  ⟨Assoc.ofList pairs, .ofList pairs⟩

/-- Puts every entry of `changes` into `m`; where both have a key, `changes` counts. -/
def override [Std.TransOrd κ] (m changes : SortedMap κ ν) : SortedMap κ ν :=
  changes.entries.foldl (fun m p => m.insert p.1 p.2) m

def keys (m : SortedMap κ ν) : List κ := m.entries.map (·.1)

def values (m : SortedMap κ ν) : List ν := m.entries.map (·.2)

def size (m : SortedMap κ ν) : Nat := m.entries.length

def isEmpty (m : SortedMap κ ν) : Bool := m.entries.isEmpty

/-- Applies a function to every value. -/
def mapValues (f : ν → μ) (m : SortedMap κ ν) : SortedMap κ μ :=
  ⟨m.entries.map fun p => (p.1, f p.2), by
    simpa [Assoc.Ascending, List.pairwise_map] using m.ascending⟩

@[simp] theorem get?_empty (key : κ) : (∅ : SortedMap κ ν).get? key = none := rfl

theorem get?_insert [Std.TransOrd κ] [Std.LawfulEqOrd κ] (m : SortedMap κ ν) (key other : κ)
    (value : ν) : (m.insert key value).get? other =
      if compare other key = .eq then some value else m.get? other :=
  Assoc.get?_insert key other value m.entries

@[simp] theorem get?_insert_self [Std.TransOrd κ] [Std.LawfulEqOrd κ] (m : SortedMap κ ν)
    (key : κ) (value : ν) : (m.insert key value).get? key = some value := by
  simp [get?_insert]

theorem get?_insert_of_ne [Std.TransOrd κ] [Std.LawfulEqOrd κ] {key other : κ} (h : other ≠ key)
    (m : SortedMap κ ν) (value : ν) : (m.insert key value).get? other = m.get? other := by
  simp [get?_insert, h]

theorem mem_entries_iff [Std.TransOrd κ] [Std.LawfulEqOrd κ] {m : SortedMap κ ν} {key : κ}
    {value : ν} : (key, value) ∈ m.entries ↔ m.get? key = some value :=
  ⟨m.ascending.get?_of_mem, Assoc.mem_of_get?⟩

theorem mem_keys_iff [Std.TransOrd κ] [Std.LawfulEqOrd κ] {m : SortedMap κ ν} {key : κ} :
    key ∈ m.keys ↔ ∃ value, m.get? key = some value := by
  simp [keys, mem_entries_iff]

theorem mem_values_iff [Std.TransOrd κ] [Std.LawfulEqOrd κ] {m : SortedMap κ ν} {value : ν} :
    value ∈ m.values ↔ ∃ key, m.get? key = some value := by
  simp [values, mem_entries_iff]

theorem pairwise_keys (m : SortedMap κ ν) : m.keys.Pairwise (compare · · = .lt) :=
  List.pairwise_map.2 m.ascending

theorem nodup_keys [Std.TransOrd κ] (m : SortedMap κ ν) : m.keys.Nodup :=
  nodup_of_pairwise_lt m.pairwise_keys

theorem get?_mapValues [Std.TransOrd κ] [Std.LawfulEqOrd κ] (f : ν → μ) (m : SortedMap κ ν)
    (key : κ) : (m.mapValues f).get? key = (m.get? key).map f := by
  ext value
  rw [← mem_entries_iff, Option.map_eq_some_iff]
  simp only [mapValues, List.mem_map, Prod.exists, Prod.mk.injEq, mem_entries_iff]
  constructor
  · rintro ⟨_, v, h, rfl, rfl⟩
    exact ⟨v, h, rfl⟩
  · rintro ⟨v, h, rfl⟩
    exact ⟨key, v, h, rfl, rfl⟩

@[simp] theorem keys_mapValues (f : ν → μ) (m : SortedMap κ ν) : (m.mapValues f).keys = m.keys := by
  simp [mapValues, keys]

/-- Whatever is found was put there. -/
theorem mem_of_get?_ofList [Std.TransOrd κ] [Std.LawfulEqOrd κ] {pairs : List (κ × ν)} {key : κ}
    {value : ν} (h : (ofList pairs).get? key = some value) : (key, value) ∈ pairs :=
  (Assoc.mem_foldl_insert (Assoc.mem_of_get? h)).resolve_right List.not_mem_nil

theorem get?_ofList [Std.TransOrd κ] [Std.LawfulEqOrd κ] [DecidableEq κ] (pairs : List (κ × ν))
    (key : κ) : (ofList pairs).get? key = (pairs.reverse.find? (·.1 = key)).map (·.2) :=
  (Assoc.get?_foldl_insert_eq pairs [] key).trans Option.or_none

/-- Every key is found. -/
theorem isSome_get?_ofList [Std.TransOrd κ] [Std.LawfulEqOrd κ] {pairs : List (κ × ν)} {key : κ}
    (h : key ∈ pairs.map (·.1)) : ((ofList pairs).get? key).isSome :=
  Assoc.isSome_get?_foldl_insert (.inl h)

theorem mem_keys_ofList_iff [Std.TransOrd κ] [Std.LawfulEqOrd κ] {pairs : List (κ × ν)} {key : κ} :
    key ∈ (ofList pairs).keys ↔ key ∈ pairs.map (·.1) := by
  rw [mem_keys_iff]
  constructor
  · rintro ⟨value, hvalue⟩
    exact List.mem_map.2 ⟨_, mem_of_get?_ofList hvalue, rfl⟩
  · intro hkey
    exact Option.isSome_iff_exists.1 (isSome_get?_ofList hkey)

/-- Keys without repetition keep their values. -/
theorem get?_ofList_of_mem [Std.TransOrd κ] [Std.LawfulEqOrd κ] {pairs : List (κ × ν)}
    (hnodup : (pairs.map (·.1)).Nodup) {key : κ} {value : ν} (h : (key, value) ∈ pairs) :
    (ofList pairs).get? key = some value :=
  Assoc.get?_foldl_insert hnodup h []

/-- A map is determined by its lookups. -/
theorem ext_get? [Std.TransOrd κ] [Std.LawfulEqOrd κ] {a b : SortedMap κ ν}
    (h : ∀ key, a.get? key = b.get? key) : a = b := by
  have hmem : ∀ p : κ × ν, p ∈ a.entries ↔ p ∈ b.entries := fun ⟨k, v⟩ => by
    rw [mem_entries_iff, mem_entries_iff, h k]
  have nodup : ∀ m : SortedMap κ ν, m.entries.Nodup := fun m =>
    m.ascending.imp fun {p q} hlt heq => by
      subst heq
      simp at hlt
  have hperm : a.entries.Perm b.entries :=
    (List.perm_ext_iff_of_nodup (nodup a) (nodup b)).2 hmem
  refine ext (hperm.eq_of_pairwise (fun p q _ _ hpq hqp => ?_) a.ascending b.ascending)
  exact absurd (Std.TransCmp.lt_trans hpq hqp) (by simp)

theorem insert_insert_self [Std.TransOrd κ] [Std.LawfulEqOrd κ] (m : SortedMap κ ν) (key : κ)
    (value last : ν) : (m.insert key value).insert key last = m.insert key last := by
  apply ext_get?
  intro other
  simp only [get?_insert]
  split <;> rfl

theorem insert_comm [Std.TransOrd κ] [Std.LawfulEqOrd κ] {key other : κ} (h : key ≠ other)
    (m : SortedMap κ ν) (value value' : ν) :
    (m.insert key value).insert other value' = (m.insert other value').insert key value := by
  apply ext_get?
  intro k
  by_cases hk : k = other
  · rw [hk, get?_insert_self, get?_insert_of_ne h.symm, get?_insert_self]
  · simp [get?_insert, hk]

theorem get?_alter [Std.TransOrd κ] [Std.LawfulEqOrd κ] (m : SortedMap κ ν) (key other : κ)
    (fallback : ν) (f : ν → ν) : (m.alter key fallback f).get? other =
      if compare other key = .eq then some (f ((m.get? key).getD fallback)) else m.get? other :=
  get?_insert m key other _

theorem map_some_values [Std.TransOrd κ] [Std.LawfulEqOrd κ] (m : SortedMap κ ν) :
    m.values.map some = m.keys.map m.get? := by
  rw [keys, values, List.map_map, List.map_map]
  exact List.map_congr_left fun _ hp => (mem_entries_iff.1 hp).symm

theorem entries_override [Std.TransOrd κ] (m changes : SortedMap κ ν) :
    (m.override changes).entries =
      changes.entries.foldl (fun entries p => Assoc.insert p.1 p.2 entries) m.entries :=
  (List.foldl_hom SortedMap.entries fun _ _ => rfl).symm

theorem get?_override [Std.TransOrd κ] [Std.LawfulEqOrd κ] (m changes : SortedMap κ ν) (key : κ) :
    (m.override changes).get? key = (changes.get? key).or (m.get? key) := by
  rw [get?, entries_override]
  cases h : changes.get? key with
  | some value => exact Assoc.get?_foldl_insert changes.nodup_keys (mem_entries_iff.2 h) _
  | none =>
    refine Assoc.get?_foldl_insert_of_not_mem (fun hkey => ?_) _
    obtain ⟨value, hvalue⟩ := mem_keys_iff.1 hkey
    cases h.symm.trans hvalue

end SortedMap

end Rollout
