import Repost.Folding
import Repost.Runes
import Repost.Validation

namespace Repost
open GoText
set_option autoImplicit true

def Printable (b : UInt8) : Prop := b = 0x09 ∨ (0x20 ≤ b ∧ b ≤ 0x7E)

def Quotable (P : Bytes → Prop) (s : Bytes) : Prop := P s ∨ ∃ u, s = 0x22 :: (u ++ [0x22]) ∧ P u

/-- `OWS application/json OWS`, alone or before `; OWS charset OWS = OWS utf-8 OWS`. -/
inductive JsonContentType : Bytes → Prop
  | plain (hm : Padded (Folds (lit "application/json")) media) : JsonContentType media
  | charset (hm : Padded (Folds (lit "application/json")) media)
      (hn : Padded (Folds (lit "charset")) name)
      (hc : Padded (Quotable (Folds (lit "utf-8"))) charset) :
      JsonContentType (media ++ 0x3B :: (name ++ 0x3D :: charset))

/-- The values of the content-type fields, as they were received. -/
def contentTypes (headers : List HeaderField) : List Bytes :=
  (headers.filter fun h => h.name.map asciiLower = lit "content-type").map (·.value)

theorem printable_iff : ∀ b : UInt8, refusedByte b = false ↔ Printable b := by
  unfold Printable
  decide +kernel

theorem printable_of_blank (b : UInt8) (h : isBlank b = true) : Printable b := by
  unfold isBlank at h
  rw [Bool.or_eq_true, beq_iff_eq, beq_iff_eq] at h
  rcases h with rfl | rfl
  · exact .inr (by decide)
  · exact .inl rfl

theorem Printable.ascii (h : Printable b) : b < 0x80 := by
  rcases h with rfl | ⟨-, h⟩
  · decide
  · exact UInt8.lt_of_le_of_lt h (by decide)

theorem range_refused (value : Bytes) :
    (runes value).any refusedRune = value.any refusedByte := by
  have hwide : ∀ b : UInt8, ¬b < 0x80 → refusedByte b = true := fun b hb =>
    Bool.eq_true_of_not_eq_false fun h => hb ((printable_iff b).1 h).ascii
  fun_induction runes value <;> simp_all [refusedRune]

theorem texts_lower : Lower (lit "content-type") ∧ Lower (lit "application/json") ∧
    Lower (lit "charset") ∧ Lower (lit "utf-8") := by
  decide +kernel

theorem texts_trimmed : Trimmed (lit "application/json") ∧ Trimmed (lit "charset") ∧
    Trimmed (lit "utf-8") := by
  refine ⟨⟨?_, ?_⟩, ⟨?_, ?_⟩, ⟨?_, ?_⟩⟩ <;> decide +kernel

theorem headerValues_contentTypes (headers : List HeaderField) :
    headerValues headers (lit "content-type") = (contentTypes headers).map trimOWS := by
  have hname : ∀ h : HeaderField, equalFold h.name (lit "content-type") =
      decide (h.name.map asciiLower = lit "content-type") := by
    intro h
    rw [Bool.eq_iff_iff, decide_eq_true_iff]
    exact equalFold_plain texts_lower.1 (by decide) (by decide)
  unfold headerValues contentTypes
  simp only [hname, List.map_map]
  rfl

theorem unwrapQuotes_quoted (u : Bytes) : unwrapQuotes (0x22 :: (u ++ [0x22])) = u := by
  simp [unwrapQuotes, List.getLast?_cons]

theorem unwrapQuotes_cases (s : Bytes) :
    unwrapQuotes s = s ∨ ∃ u, s = 0x22 :: (u ++ [0x22]) := by
  unfold unwrapQuotes
  split
  · rename_i h
    right
    simp only [Bool.and_eq_true, decide_eq_true_eq] at h
    obtain ⟨⟨hlen, hfirst⟩, hlast⟩ := h
    cases s with
    | nil => cases hfirst
    | cons b s =>
      cases hfirst
      have hne : s ≠ [] := by
        rintro rfl
        exact absurd hlen (by decide)
      rw [List.getLast?_cons_of_ne_nil hne] at hlast
      exact ⟨s.dropLast, by rw [List.dropLast_append_getLast? _ hlast]⟩
  · exact .inl rfl

theorem folds_unwrapQuotes (hq : 0x22 ∉ text) :
    Folds text (unwrapQuotes s) ↔ Quotable (Folds text) s := by
  have hquote : ∀ u, ¬Folds text (0x22 :: (u ++ [0x22])) :=
    fun u h => h.not_mem rfl hq List.mem_cons_self
  constructor
  · intro h
    rcases unwrapQuotes_cases s with hs | ⟨u, rfl⟩
    · rw [hs] at h
      exact .inl h
    · rw [unwrapQuotes_quoted] at h
      exact .inr ⟨u, rfl, h⟩
  · rintro (h | ⟨u, rfl, h⟩)
    · rcases unwrapQuotes_cases s with hs | ⟨u, rfl⟩
      · rw [hs]
        exact h
      · exact absurd h (hquote u)
    · rw [unwrapQuotes_quoted]
      exact h

variable {P : Bytes → Prop}

theorem Quotable.trimmed (hP : ∀ m, P m → Trimmed m) (h : Quotable P s) :
    Trimmed s := by
  rcases h with h | ⟨u, rfl, -⟩
  · exact hP s h
  · constructor
    · intro b hb
      cases hb
      rfl
    · intro b hb
      rw [List.getLast?_cons_of_ne_nil (by simp), List.getLast?_append] at hb
      cases hb
      rfl

theorem json_trimmed (m : Bytes) (h : Folds (lit "application/json") m) : Trimmed m :=
  h.trimmed texts_trimmed.1

theorem charset_trimmed (m : Bytes) (h : Folds (lit "charset") m) : Trimmed m :=
  h.trimmed texts_trimmed.2.1

theorem utf8_trimmed (m : Bytes) (h : Quotable (Folds (lit "utf-8")) m) : Trimmed m :=
  h.trimmed fun _ h => h.trimmed texts_trimmed.2.2

theorem json_no_semicolon (h : Padded (Folds (lit "application/json")) s) : 0x3B ∉ s :=
  h.not_mem rfl fun _ h => h.not_mem rfl (by decide)

theorem charset_no_semicolon (h : Padded (Folds (lit "charset")) s) : 0x3B ∉ s :=
  h.not_mem rfl fun _ h => h.not_mem rfl (by decide)

theorem charset_no_equals (h : Padded (Folds (lit "charset")) s) : 0x3D ∉ s :=
  h.not_mem rfl fun _ h => h.not_mem rfl (by decide)

theorem utf8_no_semicolon (h : Padded (Quotable (Folds (lit "utf-8"))) s) : 0x3B ∉ s := by
  refine h.not_mem rfl fun m hm => ?_
  rcases hm with hm | ⟨u, rfl, hu⟩
  · exact hm.not_mem rfl (by decide)
  · have hn := hu.not_mem (c := 0x3B) rfl (by decide)
    simpa using hn

theorem jsonContentType_plain (h : 0x3B ∉ v) :
    JsonContentType v ↔ Padded (Folds (lit "application/json")) v := by
  constructor
  · intro hv
    cases hv with
    | plain hm => exact hm
    | charset hm hn hc => exact absurd (by simp) h
  · exact .plain

theorem jsonContentType_parameter (hm : 0x3B ∉ m) :
    JsonContentType (m ++ 0x3B :: p) ↔ Padded (Folds (lit "application/json")) m ∧
      ∃ n c, p = n ++ 0x3D :: c ∧ Padded (Folds (lit "charset")) n ∧
        Padded (Quotable (Folds (lit "utf-8"))) c := by
  constructor
  · intro hv
    generalize he : m ++ 0x3B :: p = v at hv
    cases hv with
    | plain hv => exact absurd (by simp [← he]) (json_no_semicolon hv)
    | charset hmedia hn hc =>
      have hcut := congrArg (cut 0x3B) he
      rw [cut_append hm, cut_append (json_no_semicolon hmedia), Prod.mk.injEq,
        Option.some.injEq] at hcut
      obtain ⟨rfl, rfl⟩ := hcut
      exact ⟨hmedia, _, _, rfl, hn, hc⟩
  · rintro ⟨hmedia, n, c, rfl, hn, hc⟩
    exact .charset hmedia hn hc

def validParameter : Option Bytes → Bool
  | none => true
  | some parameter => !parameter.contains 0x3B &&
    match cut 0x3D parameter with
    | (name, some charset) => equalFold (trimOWS name) (lit "charset") &&
        equalFold (unwrapQuotes (trimOWS charset)) (lit "utf-8")
    | (_, none) => false

theorem validJSONContentType_cut (hv : headerValues headers (lit "content-type") = [value])
    (hp : value.any refusedByte = false) (hcut : cut 0x3B (trimOWS value) = (media, parameter)) :
    validJSONContentType headers =
      (equalFold (trimOWS media) (lit "application/json") && validParameter parameter) := by
  unfold validJSONContentType
  rw [hv]
  dsimp only
  rw [range_refused, hp, if_neg Bool.false_ne_true, hcut]
  dsimp only
  cases equalFold (trimOWS media) (lit "application/json") with
  | false => rfl
  | true =>
    cases parameter with
    | none => rfl
    | some parameter =>
      simp only [validParameter, Bool.true_and]
      cases parameter.contains 0x3B <;> rfl

theorem equalFold_padded (hs : Ascii s) (ht : Lower text) (hP : ∀ m, Folds text m → Trimmed m) :
    equalFold (trimOWS s) text = true ↔ Padded (Folds text) s := by
  rw [padded_iff hP, equalFold_iff (fun b hb => hs b (mem_of_mem_trimOWS hb)) ht]

theorem mem_of_mem_unwrapQuotes (h : b ∈ unwrapQuotes s) : b ∈ s := by
  unfold unwrapQuotes at h
  split at h
  · exact List.mem_of_mem_tail (List.mem_of_mem_dropLast h)
  · exact h

theorem equalFold_charset (hs : Ascii s) :
    equalFold (unwrapQuotes (trimOWS s)) (lit "utf-8") = true ↔
      Padded (Quotable (Folds (lit "utf-8"))) s := by
  rw [padded_iff utf8_trimmed, ← folds_unwrapQuotes (by decide)]
  refine equalFold_iff (fun b hb => hs b ?_) texts_lower.2.2.2
  exact mem_of_mem_trimOWS (mem_of_mem_unwrapQuotes hb)

theorem validParameter_iff (hp : Ascii p) :
    validParameter (some p) = true ↔ ∃ n c, p = n ++ 0x3D :: c ∧
      Padded (Folds (lit "charset")) n ∧ Padded (Quotable (Folds (lit "utf-8"))) c := by
  unfold validParameter
  rw [Bool.and_eq_true, Bool.not_eq_true', List.contains_eq_mem, decide_eq_false_iff_not]
  by_cases he : 0x3D ∈ p
  · obtain ⟨n, c, rfl, hn⟩ := List.eq_append_cons_of_mem he
    have hna : Ascii n := fun b hb => hp b (List.mem_append_left _ hb)
    have hca : Ascii c := fun b hb => hp b (List.mem_append_right _ (List.mem_cons_of_mem _ hb))
    rw [cut_append hn, Bool.and_eq_true, equalFold_padded hna texts_lower.2.2.1 charset_trimmed,
      equalFold_charset hca]
    constructor
    · rintro ⟨-, hname, hcharset⟩
      exact ⟨n, c, rfl, hname, hcharset⟩
    · rintro ⟨n', c', h, hname, hcharset⟩
      have hcut := congrArg (cut 0x3D) h
      rw [cut_append hn, cut_append (charset_no_equals hname), Prod.mk.injEq,
        Option.some.injEq] at hcut
      obtain ⟨rfl, rfl⟩ := hcut
      refine ⟨?_, hname, hcharset⟩
      rw [List.mem_append, List.mem_cons, not_or, not_or]
      exact ⟨charset_no_semicolon hname, by decide, utf8_no_semicolon hcharset⟩
  · rw [cut_absent he]
    refine iff_of_false (fun h => absurd h.2 Bool.false_ne_true) ?_
    rintro ⟨n, c, rfl, -⟩
    exact he (by simp)

theorem padded_blank_append (hP : ∀ m, P m → Trimmed m) (ha : Blank a) :
    Padded P (a ++ s) ↔ Padded P s := by
  rw [padded_iff hP, padded_iff hP, trimOWS_blank_append ha]

theorem padded_append_blank (hP : ∀ m, P m → Trimmed m) (hb : Blank b) :
    Padded P (s ++ b) ↔ Padded P s := by
  rw [padded_iff hP, padded_iff hP, trimOWS_append_blank hb]

theorem parameter_append_blank (hb : Blank b) :
    (∃ n c, p ++ b = n ++ 0x3D :: c ∧ Padded (Folds (lit "charset")) n ∧
      Padded (Quotable (Folds (lit "utf-8"))) c) ↔
    ∃ n c, p = n ++ 0x3D :: c ∧ Padded (Folds (lit "charset")) n ∧
      Padded (Quotable (Folds (lit "utf-8"))) c := by
  have hequals : 0x3D ∉ b := fun h => absurd (hb _ h) (by decide)
  constructor
  · rintro ⟨n, c, h, hn, hc⟩
    have hmem : 0x3D ∈ p := by
      have : (0x3D : UInt8) ∈ p ++ b := by simp [h]
      exact (List.mem_append.1 this).resolve_right hequals
    obtain ⟨n', c', rfl, hn'⟩ := List.eq_append_cons_of_mem hmem
    have hcut := congrArg (cut 0x3D) h
    rw [List.append_assoc, List.cons_append, cut_append hn', cut_append (charset_no_equals hn),
      Prod.mk.injEq, Option.some.injEq] at hcut
    obtain ⟨rfl, rfl⟩ := hcut
    exact ⟨n', c', rfl, hn, (padded_append_blank utf8_trimmed hb).1 hc⟩
  · rintro ⟨n, c, rfl, hn, hc⟩
    exact ⟨n, c ++ b, by simp, hn, (padded_append_blank utf8_trimmed hb).2 hc⟩

theorem validJSONContentType_value (hv : headerValues headers (lit "content-type") = [trimOWS v])
    (hp : ∀ b ∈ v, Printable b) : validJSONContentType headers = true ↔ JsonContentType v := by
  have ha : Ascii v := fun b hb => (hp b hb).ascii
  have hguard : (trimOWS v).any refusedByte = false := by
    rw [List.any_eq_false]
    intro b hb
    rw [Bool.not_eq_true, printable_iff]
    exact hp b (mem_of_mem_trimOWS hb)
  by_cases hs : 0x3B ∈ v
  · obtain ⟨m, p, rfl, hm⟩ := List.eq_append_cons_of_mem hs
    obtain ⟨a, b, m', p', rfl, rfl, hblank, hblank', ht⟩ := trimOWS_around (c := 0x3B) rfl m p
    have hm' : 0x3B ∉ m' := fun h => hm (List.mem_append_right _ h)
    have hma : Ascii m' := fun b hb => ha b (by simp [hb])
    have hpa : Ascii p' := fun b hb => ha b (by simp [hb])
    have hcut : cut 0x3B (trimOWS (trimOWS (a ++ m' ++ 0x3B :: (p' ++ b)))) = (m', some p') := by
      rw [trimOWS_trimOWS, ht, cut_append hm']
    rw [validJSONContentType_cut hv hguard hcut, Bool.and_eq_true,
      equalFold_padded hma texts_lower.2.1 json_trimmed, validParameter_iff hpa,
      jsonContentType_parameter hm, padded_blank_append json_trimmed hblank,
      parameter_append_blank hblank']
  · have hcut : cut 0x3B (trimOWS (trimOWS v)) = (trimOWS v, none) := by
      rw [trimOWS_trimOWS, cut_absent fun h => hs (mem_of_mem_trimOWS h)]
    rw [validJSONContentType_cut hv hguard hcut, jsonContentType_plain hs, validParameter,
      Bool.and_true, trimOWS_trimOWS, equalFold_padded ha texts_lower.2.1 json_trimmed]

theorem validJSONContentType_printable
    (hv : headerValues headers (lit "content-type") = [trimOWS v])
    (h : validJSONContentType headers = true) : ∀ b ∈ v, Printable b := by
  intro b hb
  rcases mem_trimOWS_or hb with ht | hblank
  · rw [← printable_iff, ← Bool.not_eq_true]
    intro hrefused
    have hguard : (trimOWS v).any refusedByte = true := List.any_eq_true.2 ⟨b, ht, hrefused⟩
    unfold validJSONContentType at h
    rw [hv] at h
    dsimp only at h
    rw [range_refused, hguard] at h
    cases h
  · exact printable_of_blank b hblank

/-- The check accepts a response exactly when it has one content-type field and the value of the
field is in the grammar. -/
theorem content_type_grammar (headers : List HeaderField) :
    validJSONContentType headers = true ↔
      ∃ value, contentTypes headers = [value] ∧ (∀ b ∈ value, Printable b) ∧
        JsonContentType value := by
  have hvalues := headerValues_contentTypes headers
  constructor
  · intro h
    match hone : contentTypes headers with
    | [] =>
      rw [hone] at hvalues
      unfold validJSONContentType at h
      rw [hvalues] at h
      cases h
    | [value] =>
      rw [hone] at hvalues
      have hp := validJSONContentType_printable hvalues h
      exact ⟨value, rfl, hp, (validJSONContentType_value hvalues hp).1 h⟩
    | first :: second :: others =>
      rw [hone] at hvalues
      unfold validJSONContentType at h
      rw [hvalues] at h
      cases h
  · rintro ⟨value, hone, hp, hjson⟩
    rw [hone] at hvalues
    exact (validJSONContentType_value hvalues hp).2 hjson

end Repost
