import Repost.GoText

namespace GoText
set_option autoImplicit true

def isBlank (b : UInt8) : Bool := b == 0x20 || b == 0x09

def Blank (s : Bytes) : Prop := ∀ b ∈ s, isBlank b = true

def Ascii (s : Bytes) : Prop := ∀ b ∈ s, b < 0x80

instance (s : Bytes) : Decidable (Ascii s) := inferInstanceAs (Decidable (∀ b ∈ s, b < 0x80))

theorem trimOWS_eq (s : Bytes) :
    trimOWS s = ((s.dropWhile isBlank).reverse.dropWhile isBlank).reverse := rfl

theorem Blank.reverse (h : Blank s) : Blank s.reverse :=
  fun b hb => h b (List.mem_reverse.1 hb)

theorem Blank.dropWhile (h : Blank s) : s.dropWhile isBlank = [] :=
  List.dropWhile_eq_nil_iff.2 h

theorem takeWhile_blank (s : Bytes) : Blank (s.takeWhile isBlank) :=
  fun _ hb => List.mem_takeWhile_imp hb

theorem trimOWS_split (s : Bytes) : ∃ a b, s = a ++ trimOWS s ++ b ∧ Blank a ∧ Blank b := by
  have hback := List.takeWhile_append_dropWhile (p := isBlank) (l := (s.dropWhile isBlank).reverse)
  refine ⟨s.takeWhile isBlank, ((s.dropWhile isBlank).reverse.takeWhile isBlank).reverse, ?_,
    takeWhile_blank s, (takeWhile_blank _).reverse⟩
  rw [trimOWS_eq, List.append_assoc, ← List.reverse_append, hback, List.reverse_reverse,
    List.takeWhile_append_dropWhile]

theorem trimOWS_blank_append (ha : Blank a) (s : Bytes) : trimOWS (a ++ s) = trimOWS s := by
  rw [trimOWS_eq, List.dropWhile_append, ha.dropWhile]
  rfl

theorem trimOWS_append_blank (hb : Blank b) (s : Bytes) : trimOWS (s ++ b) = trimOWS s := by
  rw [trimOWS_eq, trimOWS_eq, List.dropWhile_append]
  cases h : s.dropWhile isBlank with
  | nil =>
    rw [hb.dropWhile]
    rfl
  | cons c t =>
    rw [if_neg (by simp), List.reverse_append, List.dropWhile_append, hb.reverse.dropWhile]
    rfl

theorem trimOWS_trimOWS (s : Bytes) : trimOWS (trimOWS s) = trimOWS s := by
  obtain ⟨a, b, hs, ha, hb⟩ := trimOWS_split s
  conv_rhs => rw [hs]
  rw [trimOWS_append_blank hb, trimOWS_blank_append ha]

theorem mem_of_mem_trimOWS (h : c ∈ trimOWS s) : c ∈ s := by
  obtain ⟨a, b, hs, -, -⟩ := trimOWS_split s
  rw [hs]
  exact List.mem_append_left _ (List.mem_append_right _ h)

theorem mem_trimOWS_or (h : c ∈ s) : c ∈ trimOWS s ∨ isBlank c = true := by
  obtain ⟨a, b, hs, ha, hb⟩ := trimOWS_split s
  rw [hs, List.mem_append, List.mem_append] at h
  rcases h with (h | h) | h
  · exact .inr (ha c h)
  · exact .inl h
  · exact .inr (hb c h)

/-- Around a byte that is not blank, only the outer ends are trimmed. -/
theorem trimOWS_around (hc : isBlank c = false) (x y : Bytes) :
    ∃ a b x' y', x = a ++ x' ∧ y = y' ++ b ∧ Blank a ∧ Blank b ∧
      trimOWS (x ++ c :: y) = x' ++ c :: y' := by
  have hfront : (x ++ c :: y).dropWhile isBlank = x.dropWhile isBlank ++ c :: y := by
    rw [List.dropWhile_append]
    cases h : x.dropWhile isBlank with
    | nil => simp [hc]
    | cons => rfl
  have hback : (y.reverse ++ c :: (x.dropWhile isBlank).reverse).dropWhile isBlank =
      y.reverse.dropWhile isBlank ++ c :: (x.dropWhile isBlank).reverse := by
    rw [List.dropWhile_append]
    cases h : y.reverse.dropWhile isBlank with
    | nil => simp [hc]
    | cons => rfl
  refine ⟨x.takeWhile isBlank, (y.reverse.takeWhile isBlank).reverse, x.dropWhile isBlank,
    (y.reverse.dropWhile isBlank).reverse, List.takeWhile_append_dropWhile.symm, ?_,
    takeWhile_blank x, (takeWhile_blank _).reverse, ?_⟩
  · rw [← List.reverse_append, List.takeWhile_append_dropWhile, List.reverse_reverse]
  · rw [trimOWS_eq, hfront]
    simp only [List.reverse_append, List.reverse_cons, List.append_assoc, List.cons_append,
      List.nil_append, hback, List.reverse_reverse]

structure Trimmed (s : Bytes) : Prop where
  front : ∀ b ∈ s.head?, isBlank b = false
  back : ∀ b ∈ s.getLast?, isBlank b = false

theorem dropWhile_of_head {s : Bytes} (h : ∀ b ∈ s.head?, isBlank b = false) :
    s.dropWhile isBlank = s := by
  cases s with
  | nil => rfl
  | cons b s => rw [List.dropWhile_cons, h b rfl, if_neg Bool.false_ne_true]

theorem Trimmed.trimOWS (h : Trimmed s) : trimOWS s = s := by
  have hback : ∀ b ∈ s.reverse.head?, isBlank b = false := by
    rw [List.head?_reverse]
    exact h.back
  rw [trimOWS_eq, dropWhile_of_head h.front, dropWhile_of_head hback, List.reverse_reverse]

/-- A text between two runs of blanks. -/
def Padded (P : Bytes → Prop) (s : Bytes) : Prop :=
  ∃ a m b, s = a ++ m ++ b ∧ Blank a ∧ Blank b ∧ P m

theorem padded_iff {P : Bytes → Prop} (hP : ∀ m, P m → Trimmed m) :
    Padded P s ↔ P (trimOWS s) := by
  constructor
  · rintro ⟨a, m, b, rfl, ha, hb, hm⟩
    rw [trimOWS_append_blank hb, trimOWS_blank_append ha, (hP m hm).trimOWS]
    exact hm
  · intro h
    obtain ⟨a, b, hs, ha, hb⟩ := trimOWS_split s
    exact ⟨a, trimOWS s, b, hs, ha, hb, h⟩

theorem Padded.not_mem {P : Bytes → Prop} (h : Padded P s) (hc : isBlank c = false)
    (hP : ∀ m, P m → c ∉ m) : c ∉ s := by
  obtain ⟨a, m, b, rfl, ha, hb, hm⟩ := h
  rw [List.mem_append, List.mem_append]
  rintro ((h | h) | h)
  · exact absurd (ha c h) (by rw [hc]; exact Bool.false_ne_true)
  · exact hP m hm h
  · exact absurd (hb c h) (by rw [hc]; exact Bool.false_ne_true)

theorem cut_absent {s : Bytes} (h : sep ∉ s) : cut sep s = (s, none) := by
  induction s with
  | nil => rfl
  | cons b s ih =>
    rw [List.mem_cons, not_or] at h
    have hne : (b == sep) = false := beq_false_of_ne (Ne.symm h.1)
    rw [cut, ih h.2, hne]
    rfl

theorem cut_append {before : Bytes} (h : sep ∉ before) (after : Bytes) :
    cut sep (before ++ sep :: after) = (before, some after) := by
  induction before with
  | nil => simp [cut]
  | cons b before ih =>
    rw [List.mem_cons, not_or] at h
    have hne : (b == sep) = false := beq_false_of_ne (Ne.symm h.1)
    rw [List.cons_append, cut, ih h.2, hne]
    rfl

theorem equalFold_cons (hb : b < 0x80) (s t : Bytes) :
    equalFold (b :: s) (c :: t) = (asciiLower b == asciiLower c && equalFold s t) := by
  have h1 : b ≠ 0xE2 := by
    rintro rfl
    exact absurd hb (by decide)
  have h2 : b ≠ 0xC5 := by
    rintro rfl
    exact absurd hb (by decide)
  rw [equalFold]
  · intro s' hs
    cases hs
    exact absurd rfl h1
  · intro s' hs
    cases hs
    exact absurd rfl h2

theorem equalFold_ascii (hs : Ascii s) (t : Bytes) :
    equalFold s t = (s.map asciiLower == t.map asciiLower) := by
  induction s generalizing t with
  | nil => cases t <;> rfl
  | cons b s ih =>
    cases t with
    | nil => simp [equalFold]
    | cons c t =>
      rw [equalFold_cons (hs b List.mem_cons_self), ih fun x hx => hs x (List.mem_cons_of_mem _ hx)]
      rfl

/-- Equality under ASCII case folding with a lower-case text. -/
def Folds (text s : Bytes) : Prop := s.map asciiLower = text

instance (text s : Bytes) : Decidable (Folds text s) :=
  inferInstanceAs (Decidable (s.map asciiLower = text))

def Lower (text : Bytes) : Prop := ∀ c ∈ text, c < 0x80 ∧ asciiLower c = c

instance (text : Bytes) : Decidable (Lower text) :=
  inferInstanceAs (Decidable (∀ c ∈ text, c < 0x80 ∧ asciiLower c = c))

theorem Lower.tail (h : Lower (c :: text)) : Lower text :=
  fun b hb => h b (List.mem_cons_of_mem _ hb)

theorem asciiLower_ascii : ∀ b : UInt8, asciiLower b < 0x80 ↔ b < 0x80 := by decide +kernel

theorem isBlank_asciiLower : ∀ b : UInt8, isBlank (asciiLower b) = isBlank b := by decide +kernel

theorem Lower.map (h : Lower text) : text.map asciiLower = text := by
  rw [List.map_congr_left fun c hc => (h c hc).2, List.map_id']

theorem Folds.ascii (ht : Lower text) (h : Folds text s) : Ascii s := by
  intro b hb
  have hm : asciiLower b ∈ text := h ▸ List.mem_map_of_mem hb
  exact (asciiLower_ascii b).1 (ht _ hm).1

theorem Folds.trimmed (ht : Trimmed text) (h : Folds text s) : Trimmed s := by
  cases h
  constructor
  · intro b hb
    rw [← isBlank_asciiLower]
    exact ht.front _ (by rw [List.head?_map]; exact Option.mem_map_of_mem _ hb)
  · intro b hb
    rw [← isBlank_asciiLower]
    exact ht.back _ (by rw [List.getLast?_map]; exact Option.mem_map_of_mem _ hb)

theorem Folds.not_mem (h : Folds text s) (hc : asciiLower c = c) (hn : c ∉ text) : c ∉ s := by
  intro hm
  apply hn
  rw [← h, ← hc]
  exact List.mem_map_of_mem hm

theorem equalFold_iff (hs : Ascii s) (ht : Lower text) :
    equalFold s text = true ↔ Folds text s := by
  rw [equalFold_ascii hs, beq_iff_eq, ht.map]
  rfl

/-- Every Kelvin sign written as a k. -/
def kelvinAsK : Bytes → Bytes
  | 0xE2 :: 0x84 :: 0xAA :: s => 0x6B :: kelvinAsK s
  | b :: s => b :: kelvinAsK s
  | [] => []

theorem kelvinAsK_eq_nil : kelvinAsK s = [] ↔ s = [] := by
  fun_cases kelvinAsK s <;> simp

theorem kelvinAsK_cases (s : Bytes) :
    kelvinAsK s = s ∨ (¬Ascii s ∧ 0x6B ∈ kelvinAsK s) := by
  fun_induction kelvinAsK s with
  | case1 s ih => exact .inr ⟨fun h => absurd (h 0xE2 List.mem_cons_self) (by decide), by simp⟩
  | case2 b s hk ih =>
    rcases ih with h | ⟨hwide, hm⟩
    · exact .inl (congrArg (b :: ·) h)
    · exact .inr ⟨fun h => hwide fun x hx => h x (List.mem_cons_of_mem _ hx),
        List.mem_cons_of_mem _ hm⟩
  | case3 => exact .inl rfl

/-- Every dotted capital I written as an i. -/
def dottedAsI : Bytes → Bytes
  | 0xC4 :: 0xB0 :: s => 0x69 :: dottedAsI s
  | b :: s => b :: dottedAsI s
  | [] => []

theorem dottedAsI_eq_nil : dottedAsI s = [] ↔ s = [] := by
  fun_cases dottedAsI s <;> simp

theorem dottedAsI_cases (s : Bytes) : dottedAsI s = s ∨ ¬Ascii s := by
  fun_induction dottedAsI s with
  | case1 s ih => exact .inr fun h => absurd (h 0xC4 List.mem_cons_self) (by decide)
  | case2 b s hd ih =>
    rcases ih with h | hwide
    · exact .inl (congrArg (b :: ·) h)
    · exact .inr fun h => hwide fun x hx => h x (List.mem_cons_of_mem _ hx)
  | case3 => exact .inl rfl

theorem Ascii.dotted (h : Ascii s) : dottedAsI s = s :=
  (dottedAsI_cases s).resolve_right fun hn => hn h

theorem Ascii.trimOWS (h : Ascii s) : Ascii (trimOWS s) :=
  fun b hb => h b (mem_of_mem_trimOWS hb)

theorem getLast_dottedAsI (s : Bytes) :
    ∀ b ∈ s.getLast?, b ∈ (dottedAsI s).getLast? ∨ b = 0xB0 := by
  fun_induction dottedAsI s with
  | case1 s ih =>
    cases s with
    | nil => exact fun b hb => .inr (Option.some.inj hb).symm
    | cons c s =>
      rw [List.getLast?_cons_of_ne_nil (by simp), List.getLast?_cons_of_ne_nil (by simp),
        List.getLast?_cons_of_ne_nil (mt dottedAsI_eq_nil.1 (by simp))]
      exact ih
  | case2 b s hd ih =>
    cases s with
    | nil => exact fun b hb => .inl hb
    | cons c s =>
      rw [List.getLast?_cons_of_ne_nil (by simp),
        List.getLast?_cons_of_ne_nil (mt dottedAsI_eq_nil.1 (by simp))]
      exact ih
  | case3 => exact fun b hb => .inl hb

theorem dottedAsI_trimmed (h : Trimmed (dottedAsI s)) : Trimmed s := by
  constructor
  · revert h
    fun_cases dottedAsI s with
    | case1 s =>
      intro _ b hb
      cases hb
      rfl
    | case2 b s hd =>
      intro h c hc
      exact h.front c hc
    | case3 => exact fun h => h.front
  · intro b hb
    rcases getLast_dottedAsI s b hb with hm | rfl
    · exact h.back b hm
    · rfl

theorem folds_cons : Folds (c :: text) (b :: s) ↔ asciiLower b = c ∧ Folds text s := by
  simp only [Folds, List.map_cons, List.cons.injEq]

theorem not_folds_wide (ht : Lower text) (hb : ¬b < 0x80) : ¬Folds text (b :: s) :=
  fun h => hb (h.ascii ht b List.mem_cons_self)

/-- Against a text without an s, only the Kelvin sign is taken for a letter it is not. -/
theorem equalFold_kelvin (ht : Lower text) (hs : 0x73 ∉ text) :
    equalFold s text = true ↔ Folds text (kelvinAsK s) := by
  fun_induction equalFold s text with
  | case1 => simp [kelvinAsK, Folds]
  | case2 s c text ih =>
    have hc := (ht c List.mem_cons_self).2
    rw [Bool.and_eq_true, beq_iff_eq, ih ht.tail fun h => hs (List.mem_cons_of_mem _ h), kelvinAsK,
      folds_cons, hc, eq_comm]
    rfl
  | case3 s c text ih =>
    have hc := (ht c List.mem_cons_self).2
    have hne : ¬(asciiLower c == 0x73) = true := by
      rw [hc, beq_iff_eq]
      rintro rfl
      exact hs List.mem_cons_self
    rw [Bool.and_eq_true, kelvinAsK]
    · exact iff_of_false (fun h => hne h.1) (not_folds_wide ht (by decide))
    · nofun
  | case4 b s c text hk hl ih =>
    have hc := (ht c List.mem_cons_self).2
    rw [Bool.and_eq_true, beq_iff_eq, ih ht.tail fun h => hs (List.mem_cons_of_mem _ h), kelvinAsK,
      folds_cons, hc]
    exact fun s' hb hs' => hk s' hb hs'
  | case5 s text hnil hkelvin hlong hplain =>
    cases s with
    | nil =>
      cases text with
      | nil => exact absurd rfl (hnil rfl)
      | cons c text => simp [kelvinAsK, Folds]
    | cons b s =>
      cases text with
      | nil =>
        simp [Folds, kelvinAsK_eq_nil]
      | cons c text => exact (hplain b s c text rfl rfl).elim

/-- Against a text without a k, only the dotted capital I is taken for a letter it is not. -/
theorem lowersTo_dotted (ht : Lower text) (hk : 0x6B ∉ text) :
    lowersTo s text = true ↔ Folds text (dottedAsI s) := by
  fun_induction lowersTo s text with
  | case1 => simp [dottedAsI, Folds]
  | case2 s c text ih =>
    rw [Bool.and_eq_true, beq_iff_eq, ih ht.tail fun h => hk (List.mem_cons_of_mem _ h), dottedAsI,
      folds_cons, eq_comm]
    rfl
  | case3 s c text ih =>
    have hne : ¬(c == 0x6B) = true := by
      rw [beq_iff_eq]
      rintro rfl
      exact hk List.mem_cons_self
    rw [Bool.and_eq_true, dottedAsI]
    · exact iff_of_false (fun h => hne h.1) (not_folds_wide ht (by decide))
    · nofun
  | case4 b s c text hd hkelvin ih =>
    rw [Bool.and_eq_true, beq_iff_eq, ih ht.tail fun h => hk (List.mem_cons_of_mem _ h), dottedAsI,
      folds_cons]
    exact fun s' hb hs' => hd s' hb hs'
  | case5 s text hnil hd hkelvin hplain =>
    cases s with
    | nil =>
      cases text with
      | nil => exact absurd rfl (hnil rfl)
      | cons c text => simp [dottedAsI, Folds]
    | cons b s =>
      cases text with
      | nil =>
        simp [Folds, dottedAsI_eq_nil]
      | cons c text => exact (hplain b s c text rfl rfl).elim

theorem equalFold_plain (ht : Lower text) (hs : 0x73 ∉ text) (hk : 0x6B ∉ text) :
    equalFold s text = true ↔ Folds text s := by
  rw [equalFold_kelvin ht hs]
  rcases kelvinAsK_cases s with h | ⟨hwide, hm⟩
  · rw [h]
  · refine iff_of_false (fun h => hk ?_) fun h => hwide (h.ascii ht)
    exact h ▸ List.mem_map_of_mem hm

end GoText
