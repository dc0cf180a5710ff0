import Repost.Classification

namespace Repost
open GoText
set_option autoImplicit true

section
variable {h : HeaderField}

theorem tokenByte_not_blank (h : tokenByte b = true) : b ≠ 0x20 ∧ b ≠ 0x09 := by
  constructor
  · rintro rfl
    exact absurd h (by decide)
  · rintro rfl
    exact absurd h (by decide)

theorem HeaderField.head_line (hn : h.name ≠ []) (ht : h.name.all tokenByte = true) :
    ¬(h.line.head? = some 0x20 || h.line.head? = some 0x09) = true := by
  obtain ⟨b, name, hb⟩ := List.exists_cons_of_ne_nil hn
  rw [hb, List.all_cons, Bool.and_eq_true] at ht
  obtain ⟨h1, h2⟩ := tokenByte_not_blank ht.1
  simp [HeaderField.line, hb, h1, h2]

/-- A header line without objection is exactly a valid field. -/
theorem HeaderField.objection_none_iff (hr : h.Representable) :
    h.objection = none ↔
      validResponseHeaderName h.name = true ∧ validResponseHeaderValue h.value = true := by
  have hcut := H1.cut_line hr
  unfold HeaderField.objection validResponseHeaderName validResponseHeaderValue
  constructor
  · intro ho
    cases hp : H1.parseHeader h.line with
    | error e =>
      rw [hp] at ho
      cases e <;> cases ho
    | ok f =>
      unfold H1.parseHeader at hp
      rw [hcut] at hp
      simp only [H1.trimOWS_blank, hr.trimmed] at hp
      split_ifs at hp with h1 h2 h3 h4 h5 h6
      simp only [Bool.or_eq_true, Bool.not_eq_true', not_or, Bool.not_eq_false] at h4 h6
      simp only [Bool.and_eq_true, bne_iff_ne, ne_eq, decide_eq_true_eq]
      exact ⟨⟨⟨h2, by omega⟩, h4⟩, ⟨by omega, h6.1⟩, h6.2⟩
  · rintro ⟨hn, hv⟩
    simp only [Bool.and_eq_true, bne_iff_ne, ne_eq, decide_eq_true_eq] at hn hv
    have hhead := HeaderField.head_line hn.1.1 hn.2
    unfold H1.parseHeader
    rw [if_neg hhead, hcut]
    simp only [H1.trimOWS_blank, hr.trimmed]
    rw [if_neg hn.1.1, if_neg (by omega), hn.2, if_neg (by decide), if_neg (by omega), hv.1.2, hv.2,
      if_neg (by decide)]

theorem HeaderField.objection_tooLarge (hr : h.Representable) (ho : h.objection = some .tooLarge) :
    h.name.length > Limits.headerNameBytes ∨ h.value.length > Limits.headerValueBytes := by
  have hcut := H1.cut_line hr
  by_contra hn
  rw [not_or] at hn
  unfold HeaderField.objection H1.parseHeader at ho
  rw [hcut] at ho
  simp only [H1.trimOWS_blank, hr.trimmed, if_neg hn.1, if_neg hn.2] at ho
  split_ifs at ho <;> cases ho

end

structure Taken (left size : Nat) (headers taken : List HeaderField) : Prop where
  count : taken.length ≤ left
  bytes : size + (taken.map HeaderField.size).sum ≤ Limits.headerBytes
  passed : ∀ h ∈ taken, h ∈ headers ∧ h.objection = none

theorem scanFields_taken (hsize : size ≤ Limits.headerBytes)
    (ho : (scanFields left size headers).2 ≠ some .tooLarge) :
    Taken left size headers (scanFields left size headers).1 := by
  induction headers generalizing left size with
  | nil =>
    simp only [scanFields]
    exact ⟨Nat.zero_le _, hsize, fun _ h => by cases h⟩
  | cons h headers ih =>
    by_cases hl : h.line.length > Limits.headerBytes + 2
    · rw [scanFields.eq_def] at ho
      simp [hl] at ho
    · cases left with
      | zero => simp [scanFields, hl] at ho
      | succ left =>
        cases hobj : h.objection with
        | some o =>
          simp only [scanFields, hl, hobj, if_false]
          exact ⟨Nat.zero_le _, hsize, fun _ h => by cases h⟩
        | none =>
          by_cases hs : size + h.size > Limits.headerBytes
          · simp [scanFields, hl, hobj, hs] at ho
          · simp only [scanFields, hl, hobj, hs, if_false] at ho ⊢
            obtain ⟨hc, hb, hp⟩ := ih (by omega) ho
            refine ⟨?_, ?_, ?_⟩
            · rw [List.length_cons]
              omega
            · rw [List.map_cons, List.sum_cons]
              omega
            · intro x hx
              rcases List.mem_cons.1 hx with rfl | hx
              · exact ⟨List.mem_cons_self, hobj⟩
              · exact ⟨List.mem_cons_of_mem _ (hp x hx).1, (hp x hx).2⟩

theorem scanFields_none (ho : (scanFields left size headers).2 = none) :
    (scanFields left size headers).1 = headers := by
  induction headers generalizing left size with
  | nil => simp only [scanFields]
  | cons h headers ih =>
    by_cases hl : h.line.length > Limits.headerBytes + 2
    · rw [scanFields.eq_def] at ho
      simp [hl] at ho
    · cases left with
      | zero => simp [scanFields, hl] at ho
      | succ left =>
        cases hobj : h.objection with
        | some o => simp [scanFields, hl, hobj] at ho
        | none =>
          by_cases hs : size + h.size > Limits.headerBytes
          · simp [scanFields, hl, hobj, hs] at ho
          · simp only [scanFields, hl, hobj, hs, if_false] at ho ⊢
            rw [ih ho]

theorem headerCounts_size (headers : List HeaderField) :
    (headerCounts headers).2 = (headers.map HeaderField.size).sum := rfl

theorem exceedsHeaderLimit_eq_false_iff :
    exceedsHeaderLimit headers = false ↔
      headers.length ≤ Limits.headerFields ∧
        (headers.map HeaderField.size).sum ≤ Limits.headerBytes ∧
        ∀ h ∈ headers, h.name.length ≤ Limits.headerNameBytes ∧
          h.value.length ≤ Limits.headerValueBytes := by
  unfold exceedsHeaderLimit responseHeadersExceedLimit
  simp [headerCounts, ← headerCounts_size, and_assoc]

theorem Taken.valid (h : Taken Limits.headerFields 0 headers taken)
    (hr : ∀ h ∈ headers, h.Representable) : validateResponseHeaders taken = true := by
  have hfield : ∀ x ∈ taken, validResponseHeaderName x.name = true ∧
      validResponseHeaderValue x.value = true := by
    intro x hx
    obtain ⟨hm, ho⟩ := h.passed x hx
    exact (HeaderField.objection_none_iff (hr x hm)).1 ho
  have hlimit : exceedsHeaderLimit taken = false := by
    refine exceedsHeaderLimit_eq_false_iff.2 ⟨h.count, by simpa using h.bytes, ?_⟩
    intro x hx
    obtain ⟨hn, hv⟩ := hfield x hx
    simp only [validResponseHeaderName, validResponseHeaderValue, Bool.and_eq_true,
      decide_eq_true_eq] at hn hv
    exact ⟨hn.1.2, hv.1.1⟩
  unfold exceedsHeaderLimit at hlimit
  unfold validateResponseHeaders
  rw [hlimit, Bool.not_false, Bool.true_and, List.all_eq_true]
  intro x hx
  rw [Bool.and_eq_true]
  exact hfield x hx

theorem HeaderField.size_line (h : HeaderField) : h.size = h.line.length + 2 := by
  have hsep : (lit ": ").length = 2 := rfl
  simp only [size, line, List.length_append, hsep]

theorem scanFields_of_valid (hr : ∀ h ∈ headers, h.Representable)
    (hc : headers.length ≤ left) (hb : size + (headers.map HeaderField.size).sum ≤ Limits.headerBytes)
    (hv : ∀ h ∈ headers, validResponseHeaderName h.name = true ∧
      validResponseHeaderValue h.value = true) : (scanFields left size headers).2 = none := by
  induction headers generalizing left size with
  | nil => simp only [scanFields]
  | cons h headers ih =>
    rw [List.map_cons, List.sum_cons] at hb
    rw [List.length_cons] at hc
    have hline := h.size_line
    obtain ⟨left, rfl⟩ : ∃ n, left = n + 1 := ⟨left - 1, by omega⟩
    have hobj := (HeaderField.objection_none_iff (hr h List.mem_cons_self)).2
      (hv h List.mem_cons_self)
    simp only [scanFields, hobj]
    rw [if_neg (by omega), if_neg (by omega)]
    exact ih (fun x hx => hr x (List.mem_cons_of_mem _ hx)) (by omega) (by omega)
      (fun x hx => hv x (List.mem_cons_of_mem _ hx))

theorem scanFields_none_iff (hr : ∀ h ∈ headers, h.Representable) :
    (scanFields Limits.headerFields 0 headers).2 = none ↔
      validateResponseHeaders headers = true := by
  constructor
  · intro ho
    have ht := scanFields_taken (Nat.zero_le Limits.headerBytes) (by rw [ho]; exact nofun)
    rw [scanFields_none ho] at ht
    exact ht.valid hr
  · intro hv
    obtain ⟨hc, hb, -⟩ := exceedsHeaderLimit_eq_false_iff.1 (exceedsHeaderLimit_of_valid hv)
    unfold validateResponseHeaders at hv
    rw [Bool.and_eq_true, List.all_eq_true] at hv
    refine scanFields_of_valid hr hc (by simpa using hb) fun h hm => ?_
    have := hv.2 h hm
    rwa [Bool.and_eq_true] at this

theorem scanFields_tooLarge (hr : ∀ h ∈ headers, h.Representable)
    (ho : (scanFields left size headers).2 = some .tooLarge) :
    headers.length > left ∨ size + (headers.map HeaderField.size).sum > Limits.headerBytes ∨
      ∃ h ∈ headers, h.name.length > Limits.headerNameBytes ∨
        h.value.length > Limits.headerValueBytes := by
  induction headers generalizing left size with
  | nil => simp [scanFields] at ho
  | cons h headers ih =>
    have hline := h.size_line
    rw [List.map_cons, List.sum_cons, List.length_cons]
    by_cases hl : h.line.length > Limits.headerBytes + 2
    · exact .inr (.inl (by omega))
    · cases left with
      | zero => exact .inl (Nat.succ_pos _)
      | succ left =>
        cases hobj : h.objection with
        | some o =>
          simp only [scanFields, hl, hobj, if_false] at ho
          rw [Option.some.injEq] at ho
          subst ho
          exact .inr (.inr ⟨h, List.mem_cons_self,
            HeaderField.objection_tooLarge (hr h List.mem_cons_self) hobj⟩)
        | none =>
          by_cases hs : size + h.size > Limits.headerBytes
          · exact .inr (.inl (by omega))
          · simp only [scanFields, hl, hobj, hs, if_false] at ho
            rcases ih (fun x hx => hr x (List.mem_cons_of_mem _ hx)) ho with hc | hb | ⟨x, hx, hw⟩
            · exact .inl (by omega)
            · exact .inr (.inl (by omega))
            · exact .inr (.inr ⟨x, List.mem_cons_of_mem _ hx, hw⟩)

theorem exceedsHeaderLimit_of_tooLarge (hr : ∀ h ∈ headers, h.Representable)
    (ho : (scanFields Limits.headerFields 0 headers).2 = some .tooLarge) :
    exceedsHeaderLimit headers = true := by
  by_contra he
  obtain ⟨hc, hb, hv⟩ := exceedsHeaderLimit_eq_false_iff.1 (Bool.eq_false_iff.2 he)
  rcases scanFields_tooLarge hr ho with hc' | hb' | ⟨x, hx, hw⟩
  · omega
  · omega
  · have := hv x hx
    omega

end Repost
