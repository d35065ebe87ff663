import Rollout.Json.Reader
import Rollout.Json.Printer

/-! String literals, as a grammar beside the reader: what stands between the quotes is a sequence of
plain characters and of escapes, each for one character. The reader reads every literal up to its
closing quote, and what is printed for a string is a literal for that string. -/

namespace Rollout.Json

variable {written body s : List Char} {c : Char}

/-- May stand for itself in a literal. -/
structure IsPlain (c : Char) : Prop where
  printable : 0x20 ≤ c.toNat
  no_quote : c ≠ '"'
  no_backslash : c ≠ '\\'

/-- An escape with the number of a code unit. -/
inductive Numbered : List Char → Nat → Prop
  | intro {x₁ x₂ x₃ x₄ : Char} {unit : Nat} (digits : codeUnit? x₁ x₂ x₃ x₄ = some unit) :
    Numbered ['\\', 'u', x₁, x₂, x₃, x₄] unit

/-- What is written in a literal for one character. -/
inductive Spelling : List Char → Char → Prop
  | plain {c : Char} (isPlain : IsPlain c) : Spelling [c] c
  | short {letter c : Char} (meaning : shortEscape? letter = some c) : Spelling ['\\', letter] c
  | numbered {written : List Char} {c : Char} (escape : Numbered written c.toNat) :
    Spelling written c
  | surrogates {first second : List Char} {high low : Nat} {c : Char} (escape : Numbered first high)
    (other : Numbered second low) (meaning : ofSurrogates? high low = some c) :
    Spelling (first ++ second) c

/-- What is written between the quotes of a literal for a string. -/
inductive Spells : List Char → List Char → Prop
  | nil : Spells [] []
  | cons {written body s : List Char} {c : Char} (first : Spelling written c)
    (others : Spells body s) : Spells (written ++ body) (c :: s)

/-! ### Reading -/

theorem isSurrogate_toNat (c : Char) : isSurrogate c.toNat = false := by
  have hvalid : c.toNat.isValidChar := c.valid
  rw [Nat.isValidChar] at hvalid
  simp only [isSurrogate, decide_eq_false_iff_not]
  omega

theorem isSurrogate_of_ofSurrogates? {high low : Nat} (h : ofSurrogates? high low = some c) :
    isSurrogate high = true := by
  unfold ofSurrogates? at h
  split at h
  · simp only [isSurrogate, decide_eq_true_eq]
    omega
  · cases h

theorem Spelling.readLiteral_append (h : Spelling written c) (rest : List Char) :
    readLiteral (written ++ rest) = (readLiteral rest).map fun (s, after) => (c :: s, after) := by
  cases h with
  | plain isPlain =>
    obtain ⟨printable, no_quote, no_backslash⟩ := isPlain
    rw [List.singleton_append, readLiteral, if_neg (by simp [no_backslash, printable])]
    · cases readLiteral rest <;> rfl
    · exact no_quote
    · exact fun _ _ _ _ _ heq => absurd heq no_backslash
    · exact fun _ _ heq => absurd heq no_backslash
  | @short letter c meaning =>
    have hletter : letter ≠ 'u' := by
      rintro rfl
      cases meaning
    rw [List.cons_append, List.singleton_append, readLiteral.eq_4, meaning]
    · cases readLiteral rest <;> rfl
    · exact fun _ _ _ _ _ heq => absurd heq hletter
  | numbered escape =>
    obtain ⟨digits⟩ := escape
    simp only [List.cons_append, List.nil_append, readLiteral, digits, Option.bind_eq_bind,
      Option.bind_some, isSurrogate_toNat, Char.ofNat_toNat, Bool.false_eq_true, if_false]
    cases readLiteral rest <;> rfl
  | surrogates escape other meaning =>
    obtain ⟨digits⟩ := escape
    obtain ⟨digits'⟩ := other
    simp only [List.cons_append, List.nil_append, readLiteral, digits, digits', Option.bind_eq_bind,
      Option.bind_some, isSurrogate_of_ofSurrogates? meaning, meaning, if_true]
    cases readLiteral rest <;> rfl

/-- The reader stops at the closing quote. -/
theorem Spells.readLiteral_append (h : Spells body s) (rest : List Char) :
    readLiteral (body ++ '"' :: rest) = some (s, rest) := by
  induction h with
  | nil => rw [List.nil_append, readLiteral]
  | cons first others ih =>
    rw [List.append_assoc, first.readLiteral_append, ih]
    rfl

/-- A literal is one for one string only. -/
theorem Spells.unique {s' : List Char} (h : Spells body s) (h' : Spells body s') : s = s' := by
  have hread := (h.readLiteral_append []).symm.trans (h'.readLiteral_append [])
  exact (Prod.mk.inj (Option.some.inj hread)).1

theorem Spells.readValue (h : Spells body s) (fuel : Nat) (rest : List Char) :
    readValue (fuel + 1) ('"' :: (body ++ '"' :: rest)) = some (.string (.ofList s), rest) := by
  have hblanks : skipBlanks ('"' :: (body ++ '"' :: rest)) = '"' :: (body ++ '"' :: rest) := rfl
  rw [Json.readValue, hblanks]
  change (readLiteral (body ++ '"' :: rest)).map _ = _
  rw [h.readLiteral_append]
  rfl

/-- A text that is a literal is read as a whole. -/
theorem Spells.parse? (h : Spells body s) :
    Json.parse? (.ofList ('"' :: (body ++ ['"']))) = some (.string (.ofList s)) := by
  rw [Json.parse?, String.toList_ofList, h.readValue]
  rfl

/-! ### What stands in a literal -/

/-- The characters that are not escaped. A backslash escapes the character behind it. -/
def unescaped : List Char → List Char
  | [] => []
  | '\\' :: _ :: rest => unescaped rest
  | c :: rest => c :: unescaped rest

theorem isPlain_of_hexValue? {n : Nat} (h : Text.hexValue? c = some n) : IsPlain c := by
  have hne : ∀ d : Char, Text.hexValue? d = none → c ≠ d := by
    rintro d hd rfl
    cases hd.symm.trans h
  have hle : ∀ d : Char, 0x20 ≤ d.toNat → d ≤ c → 0x20 ≤ c.toNat := fun _ hd hc =>
    Nat.le_trans hd hc
  refine ⟨?_, hne _ (by decide), hne _ (by decide)⟩
  unfold Text.hexValue? at h
  split at h
  · rename_i hrange
    exact hle _ (by decide) hrange.1
  · split at h
    · rename_i hrange
      exact hle _ (by decide) hrange.1
    · split at h
      · rename_i hrange
        exact hle _ (by decide) hrange.1
      · cases h

/-- Behind its first two characters an escape with a number is plain. -/
theorem Numbered.exists_plain {unit : Nat} (h : Numbered written unit) :
    ∃ plain, written = '\\' :: 'u' :: plain ∧ ∀ x ∈ plain, IsPlain x := by
  obtain ⟨digits⟩ := h
  simp only [codeUnit?, Option.bind_eq_bind, Option.bind_eq_some_iff] at digits
  obtain ⟨_, h₁, _, h₂, _, h₃, _, h₄, _⟩ := digits
  refine ⟨_, rfl, ?_⟩
  simp only [List.forall_mem_cons]
  exact ⟨isPlain_of_hexValue? h₁, isPlain_of_hexValue? h₂, isPlain_of_hexValue? h₃,
    isPlain_of_hexValue? h₄, nofun⟩

theorem Numbered.printable {unit : Nat} (h : Numbered written unit) :
    ∀ x ∈ written, 0x20 ≤ x.toNat := by
  obtain ⟨plain, rfl, hplain⟩ := h.exists_plain
  simp only [List.forall_mem_cons]
  exact ⟨by decide, by decide, fun x hx => (hplain x hx).printable⟩

theorem printable_of_shortEscape? {letter : Char} (h : shortEscape? letter = some c) :
    0x20 ≤ letter.toNat := by
  unfold shortEscape? at h
  split at h
  case h_9 => cases h
  all_goals decide

/-- No control character stands in a literal. -/
theorem Spells.printable (h : Spells body s) : ∀ x ∈ body, 0x20 ≤ x.toNat := by
  induction h with
  | nil => nofun
  | cons first _ ih =>
    refine List.forall_mem_append.2 ⟨?_, ih⟩
    cases first with
    | plain isPlain => exact List.forall_mem_singleton.2 isPlain.printable
    | short meaning =>
      simp only [List.forall_mem_cons]
      exact ⟨by decide, printable_of_shortEscape? meaning, nofun⟩
    | numbered escape => exact escape.printable
    | surrogates escape other _ =>
      exact List.forall_mem_append.2 ⟨escape.printable, other.printable⟩

theorem unescaped_append {plain : List Char} (h : ∀ x ∈ plain, IsPlain x) (rest : List Char) :
    unescaped (plain ++ rest) = plain ++ unescaped rest := by
  induction plain with
  | nil => rfl
  | cons x plain ih =>
    obtain ⟨hx, hplain⟩ := List.forall_mem_cons.1 h
    rw [List.cons_append, unescaped, ih hplain, List.cons_append]
    exact fun _ _ heq => absurd heq hx.no_backslash

theorem Numbered.isPlain_unescaped {unit : Nat} (h : Numbered written unit) {rest : List Char}
    (hrest : ∀ x ∈ unescaped rest, IsPlain x) : ∀ x ∈ unescaped (written ++ rest), IsPlain x := by
  obtain ⟨plain, rfl, hplain⟩ := h.exists_plain
  rw [List.cons_append, List.cons_append, unescaped, unescaped_append hplain]
  exact List.forall_mem_append.2 ⟨hplain, hrest⟩

/-- A quote or a backslash stands in a literal only where it is escaped. -/
theorem Spells.isPlain_unescaped (h : Spells body s) : ∀ x ∈ unescaped body, IsPlain x := by
  induction h with
  | nil => nofun
  | cons first _ ih =>
    cases first with
    | plain isPlain =>
      rw [unescaped_append (List.forall_mem_singleton.2 isPlain)]
      exact List.forall_mem_cons.2 ⟨isPlain, ih⟩
    | short meaning => exact ih
    | numbered escape => exact escape.isPlain_unescaped ih
    | surrogates escape other _ =>
      rw [List.append_assoc]
      exact escape.isPlain_unescaped (other.isPlain_unescaped ih)

/-! ### Writing -/

theorem hexValue?_hexDigit : ∀ n < 16, Text.hexValue? (Text.hexDigit n) = some n := by decide

theorem spelling_escapeChar (c : Char) : Spelling (escapeChar c) c := by
  unfold escapeChar
  split
  · exact .short rfl
  · exact .short rfl
  · exact .short rfl
  · exact .short rfl
  · exact .short rfl
  · exact .short rfl
  · exact .short rfl
  · rename_i no_quote no_backslash _ _ _ _ _
    split
    · rename_i hcontrol
      refine .numbered (.intro ?_)
      have hhigh := hexValue?_hexDigit (c.toNat / 16) (by omega)
      have hlow := hexValue?_hexDigit (c.toNat % 16) (by omega)
      have hzero : Text.hexValue? '0' = some 0 := by decide
      rw [codeUnit?, hzero, hhigh, hlow]
      refine congrArg some ?_
      omega
    · rename_i hprintable
      exact .plain ⟨Nat.le_of_not_lt hprintable, no_quote, no_backslash⟩

/-- The inside of the literal that is printed for a string. -/
theorem spells_escape (s : List Char) : Spells (escape s) s := by
  induction s with
  | nil => exact .nil
  | cons c s ih => exact .cons (spelling_escapeChar c) ih

end Rollout.Json
