import Repost.JsonGrammar

namespace Repost.StrictJson
open GoText
set_option autoImplicit true

theorem Blanks.refl (text : Bytes) : Blanks text text := ⟨[], rfl, by simp⟩

theorem Blanks.of_dropWhile (text : Bytes) : Blanks text (text.dropWhile isSpace) :=
  ⟨text.takeWhile isSpace, List.takeWhile_append_dropWhile.symm, fun _ => List.mem_takeWhile_imp⟩

theorem Blanks.dropWhile_eq (h : Blanks text rest) :
    text.dropWhile isSpace = rest.dropWhile isSpace := by
  obtain ⟨w, rfl, hw⟩ := h
  exact List.dropWhile_append_of_pos hw

theorem Blanks.skip (h : Blanks text (b :: rest)) (hb : isSpace b = false) :
    text.dropWhile isSpace = b :: rest := by
  rw [h.dropWhile_eq, List.dropWhile_cons, hb]
  rfl

theorem Blanks.length_le (h : Blanks text rest) : rest.length ≤ text.length := by
  obtain ⟨w, rfl, -⟩ := h
  simp

def Ends (rest : Bytes) : Prop :=
  ∀ b ∈ rest.head?, isDigit b = false ∧ b ≠ 0x2E ∧ b ≠ 0x65 ∧ b ≠ 0x45

theorem Ends.nil : Ends [] := by
  intro b hb
  cases hb

theorem Ends.cons (hb : isDigit b = false ∧ b ≠ 0x2E ∧ b ≠ 0x65 ∧ b ≠ 0x45) : Ends (b :: rest) := by
  rintro c ⟨⟩
  exact hb

theorem isSpace_cases (h : isSpace b = true) : b = 0x20 ∨ b = 0x09 ∨ b = 0x0A ∨ b = 0x0D := by
  simpa only [isSpace, Bool.or_eq_true, beq_iff_eq, or_assoc] using h

theorem Ends.before (hr : Ends rest) (h : Blanks text rest) : Ends text := by
  obtain ⟨w, rfl, hw⟩ := h
  cases w with
  | nil => exact hr
  | cons b w =>
    apply Ends.cons
    rcases isSpace_cases (hw b List.mem_cons_self) with rfl | rfl | rfl | rfl <;> decide

section Numbers

theorem dropWhile_digits {w r : Bytes} (hw : ∀ b ∈ w, isDigit b = true) (hr : ∀ b ∈ r.head?, isDigit b = false) :
    (w ++ r).dropWhile isDigit = r := by
  rw [List.dropWhile_append_of_pos hw]
  cases r with
  | nil => rfl
  | cons b r => rw [List.dropWhile_cons, hr b rfl, if_neg Bool.false_ne_true]

theorem someDigits_append {r : Bytes} (h : Digits w) (hr : ∀ b ∈ r.head?, isDigit b = false) :
    someDigits (w ++ r) = some r := by
  obtain ⟨hne, hw⟩ := h
  cases w with
  | nil => exact absurd rfl hne
  | cons b w =>
    unfold someDigits
    rw [List.cons_append]
    dsimp only
    rw [if_pos (hw b List.mem_cons_self), ← List.cons_append, dropWhile_digits hw hr]

theorem someDigits_split (h : someDigits s = some r) : ∃ w, Digits w ∧ s = w ++ r := by
  unfold someDigits at h
  split at h
  · rename_i b s
    split at h
    · rename_i hb
      cases h
      refine ⟨(b :: s).takeWhile isDigit, ⟨?_, fun _ => List.mem_takeWhile_imp⟩,
        List.takeWhile_append_dropWhile.symm⟩
      rw [List.takeWhile_cons, hb]
      exact List.cons_ne_nil _ _
    · cases h
  · cases h

theorem integerPart_append {r : Bytes} (h : IntegerText w) (hr : ∀ b ∈ r.head?, isDigit b = false) :
    integerPart (w ++ r) = some r := by
  cases h with
  | zero =>
    cases r with
    | nil => rfl
    | cons b r =>
      show (if isDigit b then none else some (b :: r)) = some (b :: r)
      rw [hr b rfl, if_neg Bool.false_ne_true]
  | digits h hb =>
    rename_i b w
    unfold integerPart
    rw [List.cons_append]
    split
    · rename_i heq
      exact absurd (List.cons.inj heq).1 hb
    · rename_i heq
      cases heq
      rw [if_pos (h.2 _ List.mem_cons_self), ← List.cons_append, dropWhile_digits h.2 hr]
    · rename_i heq
      cases heq

theorem integerPart_split (h : integerPart s = some r) : ∃ w, IntegerText w ∧ s = w ++ r := by
  unfold integerPart at h
  split at h
  · split at h
    · split at h
      · cases h
      · cases h
        exact ⟨_, .zero, rfl⟩
    · cases h
      exact ⟨_, .zero, rfl⟩
  · rename_i b s hb
    split at h
    · rename_i hd
      cases h
      refine ⟨b :: s.takeWhile isDigit, .digits ⟨List.cons_ne_nil _ _, ?_⟩ ?_, ?_⟩
      · intro c hc
        rcases List.mem_cons.1 hc with rfl | hc
        · exact hd
        · exact List.mem_takeWhile_imp hc
      · intro heq
        exact hb heq
      · rw [List.dropWhile_cons, if_pos hd, List.cons_append, List.takeWhile_append_dropWhile]
    · cases h
  · cases h

theorem fractionPart_append {r : Bytes} (h : FractionText w)
    (hr : ∀ b ∈ r.head?, isDigit b = false ∧ b ≠ 0x2E) : fractionPart (w ++ r) = some r := by
  cases h with
  | none =>
    unfold fractionPart
    rw [List.nil_append]
    split
    · exact absurd rfl (hr _ rfl).2
    · rfl
  | digits h => exact someDigits_append h fun b hb => (hr b hb).1

theorem fractionPart_split (h : fractionPart s = some r) : ∃ w, FractionText w ∧ s = w ++ r := by
  unfold fractionPart at h
  split at h
  · obtain ⟨w, hw, rfl⟩ := someDigits_split h
    exact ⟨_, .digits hw, rfl⟩
  · cases h
    exact ⟨[], .none, rfl⟩

theorem exponentPart_append (h : ExponentText w) (hr : Ends r) : exponentPart (w ++ r) = some r := by
  have hd : ∀ b ∈ r.head?, isDigit b = false := fun b hb => (hr b hb).1
  cases h with
  | none =>
    unfold exponentPart
    rw [List.nil_append]
    split
    · rename_i b r
      obtain ⟨-, -, he, hE⟩ := hr b rfl
      rw [if_neg (by simp [he, hE])]
    · rfl
  | digits he h =>
    rename_i e w
    unfold exponentPart
    rw [List.cons_append]
    dsimp only
    rw [if_pos (by simpa using he)]
    obtain ⟨hne, hw⟩ := h
    cases w with
    | nil => exact absurd rfl hne
    | cons c w =>
      have hc : ¬(c == 0x2B || c == 0x2D) = true := by
        intro h
        have hdc := hw c List.mem_cons_self
        simp only [Bool.or_eq_true, beq_iff_eq] at h
        rcases h with rfl | rfl <;> cases hdc
      rw [List.cons_append]
      dsimp only
      rw [if_neg hc, ← List.cons_append, someDigits_append ⟨hne, hw⟩ hd]
  | signed he hs h =>
    unfold exponentPart
    rw [List.cons_append]
    dsimp only
    rw [if_pos (by simpa using he), List.cons_append]
    dsimp only
    rw [if_pos (by simpa using hs), someDigits_append h hd]

theorem exponentPart_split (h : exponentPart s = some r) : ∃ w, ExponentText w ∧ s = w ++ r := by
  unfold exponentPart at h
  split at h
  · split at h
    · rename_i e _ he
      have he : e = 0x65 ∨ e = 0x45 := by simpa using he
      split at h
      · split at h
        · rename_i hs
          obtain ⟨w, hw, rfl⟩ := someDigits_split h
          exact ⟨_, .signed he (by simpa using hs) hw, rfl⟩
        · obtain ⟨w, hw, hs⟩ := someDigits_split h
          exact ⟨_, .digits he hw, congrArg _ hs⟩
      · cases h
    · cases h
      exact ⟨[], .none, rfl⟩
  · cases h
    exact ⟨[], .none, rfl⟩

theorem ExponentText.head (h : ExponentText e) (hr : Ends r) :
    ∀ b ∈ (e ++ r).head?, isDigit b = false ∧ b ≠ 0x2E := by
  cases h with
  | none => exact fun b hb => ⟨(hr b hb).1, (hr b hb).2.1⟩
  | digits he _ | signed he _ _ =>
    rintro b ⟨⟩
    rcases he with rfl | rfl <;> decide

theorem FractionText.head (h : FractionText f) (hr : ∀ b ∈ r.head?, isDigit b = false ∧ b ≠ 0x2E) :
    ∀ b ∈ (f ++ r).head?, isDigit b = false := by
  cases h with
  | none => exact fun b hb => (hr b hb).1
  | digits _ =>
    rintro b ⟨⟩
    decide

theorem IntegerText.head (h : IntegerText i) : ∃ b w, i = b :: w ∧ isDigit b = true := by
  cases h with
  | zero => exact ⟨_, _, rfl, by decide⟩
  | digits h _ => exact ⟨_, _, rfl, h.2 _ List.mem_cons_self⟩

theorem unsignedPart_append (hi : IntegerText i) (hf : FractionText f) (he : ExponentText e)
    (hr : Ends r) :
    ((integerPart (i ++ (f ++ (e ++ r)))).bind fun s =>
      (fractionPart s).bind exponentPart) = some r := by
  rw [integerPart_append hi (hf.head (he.head hr)), Option.bind_some,
    fractionPart_append hf (he.head hr), Option.bind_some, exponentPart_append he hr]

theorem skipNumber_append (h : NumberText w) (hr : Ends r) : skipNumber (w ++ r) = some r := by
  cases h with
  | natural hi hf he =>
    have hsum := unsignedPart_append hi hf he hr
    obtain ⟨b, w, rfl, hb⟩ := hi.head
    unfold skipNumber
    simp only [List.append_assoc, List.cons_append] at hsum ⊢
    split
    · rename_i heq
      cases heq
      cases hb
    · exact hsum
  | negative hi hf he =>
    have hsum := unsignedPart_append hi hf he hr
    unfold skipNumber
    simp only [List.append_assoc, List.cons_append]
    exact hsum

theorem skipNumber_split (h : skipNumber s = some r) : ∃ w, NumberText w ∧ s = w ++ r := by
  unfold skipNumber at h
  simp only [Option.bind_eq_bind, Option.bind_eq_some_iff] at h
  obtain ⟨s₁, h₁, s₂, h₂, h₃⟩ := h
  obtain ⟨i, hi, h₁⟩ := integerPart_split h₁
  obtain ⟨f, hf, rfl⟩ := fractionPart_split h₂
  obtain ⟨e, he, rfl⟩ := exponentPart_split h₃
  split at h₁
  · exact ⟨_, .negative hi hf he, by simp [h₁]⟩
  · exact ⟨_, .natural hi hf he, by simp [h₁]⟩

theorem NumberText.head (h : NumberText w) :
    ∃ b t, w = b :: t ∧ (b = 0x2D ∨ isDigit b = true) := by
  cases h with
  | natural hi _ _ =>
    obtain ⟨b, w, rfl, hb⟩ := hi.head
    exact ⟨b, _, rfl, .inr hb⟩
  | negative _ _ _ => exact ⟨_, _, rfl, .inl rfl⟩

end Numbers

section Strings

/-- The scanner finds the end of the string, and its raw content decodes to what it stands for. -/
theorem Chars.reads (h : Chars text s rest) :
    ∃ raw, stringBody text = .ok (raw, rest) ∧ unquote raw = some s := by
  induction h with
  | close => exact ⟨[], by simp [stringBody], rfl⟩
  | plain hb hq he h ih =>
    rename_i b text s rest
    obtain ⟨raw, hbody, hun⟩ := ih
    refine ⟨b :: raw, ?_, ?_⟩
    · simp [stringBody, he, hb, hbody, prepend]
    · simp only [unquote] at hun ⊢
      simp [unquoteFrom, hq, he, hb, hun]
  | escape hc h ih =>
    rename_i c e text s rest
    obtain ⟨raw, hbody, hun⟩ := ih
    have hu : c ≠ 0x75 := by
      rintro rfl
      cases hc
    refine ⟨0x5C :: c :: raw, ?_, ?_⟩
    · simp [stringBody, hc, hbody, prepend, hu]
    · simp only [unquote] at hun ⊢
      simp [unquoteFrom, hc, hun, hu]
  | scalar hu hh hl h ih =>
    rename_i a b c d unit text s rest
    obtain ⟨raw, hbody, hun⟩ := ih
    refine ⟨0x5C :: 0x75 :: a :: b :: c :: d :: raw, ?_, ?_⟩
    · unfold stringBody
      simp [hu, hh, hl, hbody, prepend]
    · simp only [unquote] at hun ⊢
      have hp : pairedLow unit raw = none := by
        unfold pairedLow
        split
        · split
          · rw [hh, Bool.false_and, if_neg Bool.false_ne_true]
          · rfl
        · rfl
      simp [unquoteFrom, hu, hp, hh, hl, hun]
  | pair hu hh hu' hl h ih =>
    rename_i a b c d high a' b' c' d' low text s rest
    obtain ⟨raw, hbody, hun⟩ := ih
    refine ⟨[0x5C, 0x75, a, b, c, d, 0x5C, 0x75, a', b', c', d'] ++ raw, ?_, ?_⟩
    · simp [stringBody, hu, hh, hu', hl, hbody, prepend]
    · simp only [unquote] at hun ⊢
      simp [unquoteFrom, hu, pairedLow, hu', hh, hl, hun]

theorem prepend_ok (h : prepend bytes r = .ok (raw, rest)) :
    ∃ raw', r = .ok (raw', rest) ∧ raw = bytes ++ raw' := by
  unfold prepend at h
  split at h
  · cases h
    exact ⟨_, rfl, rfl⟩
  · cases h

/-- A string that the scanner accepts is one of the grammar. -/
theorem Chars.of_stringBody (h : stringBody text = .ok (raw, rest)) : ∃ s, Chars text s rest := by
  fun_induction stringBody text generalizing raw with
  | case1 | case3 | case5 | case6 | case7 | case8 | case11 | case12 => cases h
  | case2 =>
    cases h
    exact ⟨[], .close⟩
  | case4 a b c d high hu hh a' b' c' d' rest' low hu' hl ih =>
    obtain ⟨raw', h, -⟩ := prepend_ok h
    obtain ⟨s, hs⟩ := ih h
    exact ⟨_, .pair hu hh hu' hl hs⟩
  | case9 a b c d rest unit hu hh hl ih =>
    obtain ⟨raw', h, -⟩ := prepend_ok h
    obtain ⟨s, hs⟩ := ih h
    exact ⟨_, .scalar hu (Bool.eq_false_of_not_eq_true hh) (Bool.eq_false_of_not_eq_true hl) hs⟩
  | case10 c rest _ e hc ih =>
    obtain ⟨raw', h, -⟩ := prepend_ok h
    obtain ⟨s, hs⟩ := ih h
    exact ⟨_, .escape hc hs⟩
  | case13 b rest hq _ _ hb ih =>
    obtain ⟨raw', h, -⟩ := prepend_ok h
    obtain ⟨s, hs⟩ := ih h
    simp only [Bool.or_eq_true, decide_eq_true_eq, beq_iff_eq, not_or] at hb
    exact ⟨_, .plain hb.1 hq hb.2 hs⟩

theorem decodeString_of_chars (h : Chars text s rest) : decodeString text = some (s, rest) := by
  obtain ⟨raw, hbody, hun⟩ := h.reads
  unfold decodeString
  rw [hbody]
  dsimp only
  rw [hun, Option.map_some]

theorem Chars.of_decodeString (h : decodeString text = some (s, rest)) : Chars text s rest := by
  cases hbody : stringBody text with
  | error e =>
    unfold decodeString at h
    rw [hbody] at h
    cases h
  | ok p =>
    obtain ⟨raw, r⟩ := p
    obtain ⟨s', hs⟩ := Chars.of_stringBody hbody
    rw [decodeString_of_chars hs] at h
    cases h
    exact hs

end Strings

end Repost.StrictJson
