import Repost.JsonMembers
import Repost.JsonScalars

namespace Repost.StrictJson
open GoText
set_option autoImplicit true

theorem Chars.length_lt (h : Chars text s rest) : rest.length < text.length := by
  induction h with
  | close => simp
  | plain _ _ _ _ ih | escape _ _ ih | scalar _ _ _ _ ih | pair _ _ _ _ _ ih =>
    simp only [List.length_cons]
    omega

theorem lit_null : lit "null" = [0x6E, 0x75, 0x6C, 0x6C] := rfl

theorem boolText_length (b : Bool) : 4 ≤ (boolText b).length := by
  cases b <;> decide

theorem Members.front_length (hb : Blanks text (0x22 :: t₁)) (hk : Chars t₁ key t₂)
    (hc : Blanks t₂ (0x3A :: t₃)) (hb' : Blanks t₃ t₄) : t₄.length + 3 ≤ text.length := by
  have h₁ := hb.length_le
  have h₂ := hk.length_lt
  have h₃ := hc.length_le
  have h₄ := hb'.length_le
  rw [List.length_cons] at h₁ h₃
  omega

mutual

theorem Denotes.length_lt : Denotes text v rest → rest.length < text.length
  | .null => by
    simp only [lit_null, List.length_append, List.length_cons]
    omega
  | .bool (b := b) => by
    have := boolText_length b
    simp only [List.length_append]
    omega
  | .number h => by
    obtain ⟨b, t, rfl, -⟩ := h.head
    simp
  | .string h => by
    have := h.length_lt
    simp only [List.length_cons]
    omega
  | .emptyArray h | .emptyObject h => by
    have := h.length_le
    simp only [List.length_cons] at this ⊢
    omega
  | .array h => by
    have := h.length_lt
    simp only [List.length_cons]
    omega
  | .object h => by
    have := h.length_lt
    simp only [List.length_cons]
    omega

theorem Elements.length_lt : Elements text items rest → rest.length < text.length
  | .last hb hv he => by
    have h₁ := hb.length_le
    have h₂ := hv.length_lt
    have h₃ := he.length_le
    rw [List.length_cons] at h₃
    omega
  | .more hb hv hc h => by
    have h₁ := hb.length_le
    have h₂ := hv.length_lt
    have h₃ := hc.length_le
    have h₄ := h.length_lt
    rw [List.length_cons] at h₃
    omega

theorem Members.length_lt : Members text ms rest → rest.length < text.length
  | .last hb hk hc hb' hv he => by
    have h₁ := Members.front_length hb hk hc hb'
    have h₂ := hv.length_lt
    have h₃ := he.length_le
    rw [List.length_cons] at h₃
    omega
  | .more hb hk hc hb' hv hm h => by
    have h₁ := Members.front_length hb hk hc hb'
    have h₂ := hv.length_lt
    have h₃ := hm.length_le
    have h₄ := h.length_lt
    rw [List.length_cons] at h₃
    omega

end

def Limited (r : Except Failure α) (p : Prop) (a : α) : Prop :=
  (p ∧ r = .ok a) ∨ (¬p ∧ r = .error .limit)

namespace Limited

theorem bind (h : Limited m p a) (hf : Limited (f a) q b) : Limited (m >>= f) (p ∧ q) b := by
  rcases h with ⟨hp, rfl⟩ | ⟨hp, rfl⟩
  · rcases hf with ⟨hq, hf⟩ | ⟨hq, hf⟩
    · exact .inl ⟨⟨hp, hq⟩, hf⟩
    · exact .inr ⟨fun h => hq h.2, hf⟩
  · exact .inr ⟨fun h => hp h.1, rfl⟩

theorem check {c : Prop} [Decidable c] (h : Limited r p a) :
    Limited (if c then .error .limit else r) (¬c ∧ p) a := by
  split
  · rename_i hc
    exact .inr ⟨fun h => h.1 hc, rfl⟩
  · rename_i hc
    rcases h with ⟨hp, h⟩ | ⟨hp, h⟩
    · exact .inl ⟨⟨hc, hp⟩, h⟩
    · exact .inr ⟨fun h => hp h.2, h⟩

theorem pure (a : α) : Limited (.ok a) True a := .inl ⟨trivial, rfl⟩

theorem congr (h : Limited r p a) (hpq : p ↔ q) (hab : a = b) : Limited r q b := by
  rw [← hab, ← propext hpq]
  exact h

theorem ok_iff (h : Limited r p a) : r = .ok a ↔ p := by
  rcases h with ⟨hp, rfl⟩ | ⟨hp, rfl⟩
  · exact ⟨fun _ => hp, fun _ => rfl⟩
  · refine ⟨?_, fun h => absurd h hp⟩
    rintro ⟨⟩

end Limited

theorem token_limited (s : Scanner) :
    Limited s.token (s.tokens + 1 ≤ maxTokens) { s with tokens := s.tokens + 1 } :=
  (Limited.check (.pure _)).congr ⟨fun h => Nat.le_of_not_gt h.1, fun h => ⟨Nat.not_lt.2 h, trivial⟩⟩ rfl

theorem literal_limited {s : Scanner} (h : s.rest = word ++ rest) :
    Limited (s.literal word) (s.tokens + 1 ≤ maxTokens) ⟨rest, s.tokens + 1⟩ := by
  unfold Scanner.literal
  rw [if_pos (by rw [h, List.isPrefixOf_iff_prefix]; exact List.prefix_append _ _)]
  have hr : List.drop word.length s.rest = rest := by rw [h, List.drop_left]
  refine (Limited.bind (token_limited s) ?_).congr (and_iff_left trivial) rfl
  rw [← hr]
  exact .pure _

theorem number_limited {s : Scanner} (h : s.rest = w ++ rest) (hw : NumberText w) (he : Ends rest) :
    Limited s.number (w.length ≤ maxNumberChars ∧ s.tokens + 1 ≤ maxTokens)
      ⟨rest, s.tokens + 1⟩ := by
  unfold Scanner.number
  rw [h, skipNumber_append hw he]
  dsimp only
  refine (Limited.check (token_limited _)).congr ?_ rfl
  rw [List.length_append, Nat.add_sub_cancel, Nat.not_lt]

theorem runeCount_le (s : Bytes) : runeCount s ≤ s.length := List.length_filter_le _ _

theorem string_limited {s : Scanner} (h : s.rest = 0x22 :: text) (hs : Chars text v rest) :
    Limited (s.string false) (v.length ≤ maxScalarStringUTF8Bytes) (v, { s with rest := rest }) := by
  obtain ⟨raw, hbody, hun⟩ := hs.reads
  unfold Scanner.string
  rw [h, List.drop_succ_cons, List.drop_zero, hbody]
  dsimp only
  rw [hun]
  dsimp only
  rw [if_neg Bool.false_ne_true]
  refine (Limited.check (.pure _)).congr ?_ rfl
  rw [and_true, Bool.or_eq_true, not_or, decide_eq_true_eq, decide_eq_true_eq, Nat.not_lt, Nat.not_lt]
  exact ⟨fun h => h.1, fun h => ⟨h, (runeCount_le v).trans h⟩⟩

theorem name_limited {s : Scanner} (h : s.rest = 0x22 :: text) (hs : Chars text v rest) :
    Limited (s.string true) (v.length ≤ maxFieldNameUTF8Bytes) (v, { s with rest := rest }) := by
  obtain ⟨raw, hbody, hun⟩ := hs.reads
  unfold Scanner.string
  rw [h, List.drop_succ_cons, List.drop_zero, hbody]
  dsimp only
  rw [hun]
  dsimp only
  rw [if_pos rfl]
  exact (Limited.check (.pure _)).congr (by rw [Nat.not_lt, and_true]) rfl

theorem consume_of_skip {s : Scanner} (h : s.rest.dropWhile isSpace = b :: rest) :
    s.whitespace.consume b = some { s with rest := rest } := by
  unfold Scanner.consume Scanner.whitespace
  dsimp only
  rw [h]
  dsimp only
  rw [if_pos (beq_self_eq_true b)]

theorem consume_of_ne {s : Scanner} (h : s.rest.dropWhile isSpace = c :: rest) (hc : c ≠ b) :
    s.whitespace.consume b = none := by
  unfold Scanner.consume Scanner.whitespace
  dsimp only
  rw [h]
  dsimp only
  rw [if_neg (by simpa using hc)]

def closeOr (close : UInt8) (more : Scanner → Except Failure Scanner) (s : Scanner) :
    Except Failure Scanner :=
  match s.whitespace.consume close with
  | some s => s.token
  | none =>
    match s.whitespace.consume 0x2C with
    | none => .error .protocol
    | some s => more s

theorem closeOr_close {s : Scanner} (h : Blanks s.rest (close :: rest)) (hc : isSpace close = false) :
    Limited (closeOr close more s) (s.tokens + 1 ≤ maxTokens) ⟨rest, s.tokens + 1⟩ := by
  unfold closeOr
  rw [consume_of_skip (h.skip hc)]
  exact token_limited _

theorem closeOr_more {s : Scanner} (h : Blanks s.rest (0x2C :: rest)) (hc : 0x2C ≠ close)
    (hm : Limited (more ⟨rest, s.tokens⟩) p a) : Limited (closeOr close more s) p a := by
  unfold closeOr
  rw [consume_of_ne (h.skip (by decide)) hc, consume_of_skip (h.skip (by decide))]
  exact hm

theorem members_succ (fuel depth : Nat) (keys : List Bytes) (count : Nat) (s : Scanner) :
    members (fuel + 1) depth keys count s =
      if (s.whitespace.consume 0x22).isNone then .error .protocol
      else (do
        let s ← s.whitespace.token
        let (key, s) ← s.string true
        if key ∈ keys then .error .protocol
        else if count > maxMembersPerObject then .error .limit
        else
          match s.whitespace.consume 0x3A with
          | none => .error .protocol
          | some s =>
            value fuel depth s >>= closeOr 0x7D (members fuel depth (key :: keys) (count + 1))) := by
  rw [members]
  rfl

theorem elements_succ (fuel depth : Nat) (s : Scanner) :
    elements (fuel + 1) depth s = value fuel depth s >>= closeOr 0x5D (elements fuel depth) := by
  rw [elements]
  rfl

/-- The limits on a part of the document, from the nesting and the tokens before it. -/
def Within (depth tokens : Nat) (nodes : List Json) : Prop :=
  depth ≤ maxNestingDepth ∧ tokens ≤ maxTokens ∧ ∀ n ∈ nodes, n.Small

def ValueReads (fuel : Nat) : Prop :=
  ∀ depth s text v rest, SameText text s.rest → Denotes text v rest → Ends rest →
    Distinct v.nodes → depth ≤ maxNestingDepth → 3 * text.length ≤ fuel →
    Limited (value fuel depth s) (Within (depth + v.depth) (s.tokens + v.tokens) v.nodes)
      ⟨rest, s.tokens + v.tokens⟩

def ElementsRead (fuel : Nat) : Prop :=
  ∀ depth s text items rest, SameText text s.rest → Elements text items rest →
    Distinct (itemNodes items) → depth ≤ maxNestingDepth → 3 * text.length + 1 ≤ fuel →
    Limited (elements fuel depth s)
      (Within (depth + itemDepth items) (s.tokens + weights (itemNodes items) + 1) (itemNodes items))
      ⟨rest, s.tokens + weights (itemNodes items) + 1⟩

def MembersRead (fuel : Nat) : Prop :=
  ∀ depth keys count s text ms rest, SameText text s.rest → Members text ms rest →
    Distinct (memberNodes ms) → (ms.map Prod.fst).Nodup → (∀ m ∈ ms, m.1 ∉ keys) →
    depth ≤ maxNestingDepth → 3 * text.length + 1 ≤ fuel →
    Limited (members fuel depth keys count s)
      (Within (depth + memberDepth ms) (s.tokens + ms.length + weights (memberNodes ms) + 1)
          (memberNodes ms) ∧
        count + ms.length ≤ maxMembersPerObject + 1 ∧ ∀ m ∈ ms, m.1.length ≤ maxFieldNameUTF8Bytes)
      ⟨rest, s.tokens + ms.length + weights (memberNodes ms) + 1⟩

theorem weights_append (vs ws : List Json) : weights (vs ++ ws) = weights vs + weights ws := by
  simp [weights]

theorem Distinct.append_iff : Distinct (vs ++ ws) ↔ Distinct vs ∧ Distinct ws := by
  simp only [Distinct, List.mem_append]
  exact ⟨fun h => ⟨fun ms hm => h ms (.inl hm), fun ms hm => h ms (.inr hm)⟩,
    fun h ms hm => hm.elim (h.1 ms) (h.2 ms)⟩

theorem SameText.of_blanks (h : Blanks text rest) (hs : SameText text t) : SameText rest t :=
  h.dropWhile_eq.symm.trans hs

theorem elementsRead_succ (hv : ValueReads fuel) (he : ElementsRead fuel) :
    ElementsRead (fuel + 1) := by
  intro depth s text items rest hs h hd hdepth hfuel
  rw [elements_succ]
  cases h with
  | last hb hden hend =>
    rename_i t₁ v t₂
    have hlen := hb.length_le
    simp only [itemNodes, List.append_nil, itemDepth, Nat.max_zero] at hd ⊢
    have hread := hv depth s _ _ _ (.of_blanks hb hs) hden (.before (.cons (by decide)) hend) hd
      hdepth (by omega)
    refine (hread.bind (closeOr_close hend (by decide))).congr ?_ rfl
    simp only [Within, Json.tokens]
    grind
  | more hb hden hc hrest =>
    rename_i t₁ v t₂ t₃ items
    have hlen := hb.length_le
    have hlt := hden.length_lt
    have hcomma := hc.length_le
    rw [List.length_cons] at hcomma
    simp only [itemNodes, itemDepth] at hd ⊢
    obtain ⟨hd₁, hd₂⟩ := Distinct.append_iff.1 hd
    have hread := hv depth s _ _ _ (.of_blanks hb hs) hden (.before (.cons (by decide)) hc) hd₁
      hdepth (by omega)
    have hmore := he depth ⟨t₃, s.tokens + v.tokens⟩ t₃ _ _ rfl hrest hd₂ hdepth (by omega)
    refine (hread.bind (closeOr_more hc (by decide) hmore)).congr ?_ ?_
    · simp only [Within, Json.tokens, weights_append]
      grind
    · simp only [Json.tokens, weights_append, Nat.add_assoc]

theorem member_limited {s : Scanner} (hs : SameText text s.rest) (hb : Blanks text (0x22 :: t₁))
    (hk : Chars t₁ key t₂) (hc : Blanks t₂ (0x3A :: t₃)) (hnew : key ∉ keys)
    (h : Limited (value fuel depth ⟨t₃, s.tokens + 1⟩ >>=
      closeOr 0x7D (members fuel depth (key :: keys) (count + 1))) p a) :
    Limited (members (fuel + 1) depth keys count s)
      (s.tokens + 1 ≤ maxTokens ∧ key.length ≤ maxFieldNameUTF8Bytes ∧
        ¬ count > maxMembersPerObject ∧ p) a := by
  have hskip : s.rest.dropWhile isSpace = 0x22 :: t₁ := hs ▸ hb.skip (by decide)
  rw [members_succ, consume_of_skip hskip, if_neg (by simp)]
  apply Limited.bind (token_limited _)
  apply Limited.bind (name_limited hskip hk)
  dsimp only
  rw [if_neg hnew, consume_of_skip (hc.skip (by decide))]
  exact .check h

theorem membersRead_succ (hv : ValueReads fuel) (hm : MembersRead fuel) :
    MembersRead (fuel + 1) := by
  intro depth keys count s text ms rest hs h hd hnodup hkeys hdepth hfuel
  cases h with
  | last hb hk hc hb' hden hend =>
    rename_i t₁ key t₂ t₃ t₄ v t₅
    have hlen := Members.front_length hb hk hc hb'
    simp only [memberNodes, List.append_nil, memberDepth, Nat.max_zero] at hd ⊢
    have hread := hv depth ⟨t₃, s.tokens + 1⟩ t₄ _ _ (.of_blanks hb' rfl) hden
      (.before (.cons (by decide)) hend) hd hdepth (by omega)
    refine (member_limited hs hb hk hc (hkeys _ List.mem_cons_self)
      (hread.bind (closeOr_close hend (by decide)))).congr ?_ rfl
    simp only [Within, Json.tokens, List.length_singleton, List.mem_singleton, forall_eq]
    grind
  | more hb hk hc hb' hden hcomma hrest =>
    rename_i t₁ key t₂ t₃ t₄ v t₅ t₆ ms
    have hlen := Members.front_length hb hk hc hb'
    have hlt := hden.length_lt
    have hle := hcomma.length_le
    rw [List.length_cons] at hle
    simp only [memberNodes, memberDepth] at hd ⊢
    obtain ⟨hd₁, hd₂⟩ := Distinct.append_iff.1 hd
    rw [List.map_cons, List.nodup_cons] at hnodup
    have hfresh : ∀ m ∈ ms, m.1 ∉ key :: keys := by
      intro m hm hmem
      rcases List.mem_cons.1 hmem with hkey | hmem
      · exact hnodup.1 (List.mem_map.2 ⟨m, hm, hkey⟩)
      · exact hkeys m (List.mem_cons_of_mem _ hm) hmem
    have hread := hv depth ⟨t₃, s.tokens + 1⟩ t₄ _ _ (.of_blanks hb' rfl) hden
      (.before (.cons (by decide)) hcomma) hd₁ hdepth (by omega)
    have hmore := hm depth (key :: keys) (count + 1) ⟨t₆, s.tokens + 1 + v.tokens⟩ t₆ _ _ rfl hrest
      hd₂ hnodup.2 hfresh hdepth (by omega)
    refine (member_limited hs hb hk hc (hkeys _ List.mem_cons_self)
      (hread.bind (closeOr_more hcomma (by decide) hmore))).congr ?_ ?_
    · simp only [Within, Json.tokens, weights_append, List.forall_mem_cons, List.length_cons]
      grind
    · simp only [Json.tokens, weights_append, List.length_cons, Scanner.mk.injEq, true_and]
      omega

def openOr (close : UInt8) (first : Scanner → Except Failure Scanner) (s : Scanner) :
    Except Failure Scanner :=
  match s.consume close with
  | some s => s.token
  | none => first s

theorem object_succ (fuel depth : Nat) (s : Scanner) :
    object (fuel + 1) depth s =
      if depth > maxNestingDepth then .error .limit
      else s.token >>= fun s =>
        openOr 0x7D (members fuel depth [] 1) (Scanner.whitespace { s with rest := s.rest.drop 1 }) := by
  rw [object]
  rfl

theorem array_succ (fuel depth : Nat) (s : Scanner) :
    array (fuel + 1) depth s =
      if depth > maxNestingDepth then .error .limit
      else s.token >>= fun s =>
        openOr 0x5D (elements fuel depth) (Scanner.whitespace { s with rest := s.rest.drop 1 }) := by
  rw [array]
  rfl

theorem bracket_limited {s : Scanner} (hs : s.rest = b :: text)
    (h : Limited (openOr close first (Scanner.whitespace ⟨text, s.tokens + 1⟩)) p a) :
    Limited (if depth > maxNestingDepth then .error .limit
      else s.token >>= fun s =>
        openOr close first (Scanner.whitespace { s with rest := s.rest.drop 1 }))
      (¬ depth > maxNestingDepth ∧ s.tokens + 1 ≤ maxTokens ∧ p) a := by
  apply Limited.check
  apply Limited.bind (token_limited s)
  dsimp only
  rw [hs, List.drop_succ_cons, List.drop_zero]
  exact h

theorem openOr_empty (h : Blanks text (close :: rest)) (hc : isSpace close = false) :
    Limited (openOr close first (Scanner.whitespace ⟨text, n⟩)) (n + 1 ≤ maxTokens)
      ⟨rest, n + 1⟩ := by
  unfold openOr
  rw [consume_of_skip (s := ⟨text, n⟩) (h.skip hc)]
  exact token_limited _

theorem openOr_first (h : Blanks text (b :: rest)) (hb : isSpace b = false) (hc : b ≠ close)
    (hf : Limited (first (Scanner.whitespace ⟨text, n⟩)) p a) :
    Limited (openOr close first (Scanner.whitespace ⟨text, n⟩)) p a := by
  unfold openOr
  rw [consume_of_ne (s := ⟨text, n⟩) (h.skip hb) hc]
  exact hf

theorem NumberText.bytes (h : b = 0x2D ∨ isDigit b = true) :
    isSpace b = false ∧ b ≠ 0x5D ∧ b ≠ 0x7B ∧ b ≠ 0x5B ∧ b ≠ 0x22 ∧ b ≠ 0x74 ∧ b ≠ 0x66 ∧
      b ≠ 0x6E := by
  rcases h with rfl | h
  · decide
  · refine ⟨?_, ?_, ?_, ?_, ?_, ?_, ?_, ?_⟩
    · cases hs : isSpace b with
      | false => rfl
      | true => rcases isSpace_cases hs with rfl | rfl | rfl | rfl <;> cases h
    all_goals
      rintro rfl
      cases h

theorem Denotes.head (h : Denotes text v rest) :
    ∃ b t, text = b :: t ∧ isSpace b = false ∧ b ≠ 0x5D := by
  cases h with
  | null | string _ | emptyArray _ | array _ | emptyObject _ | object _ =>
    exact ⟨_, _, rfl, by decide⟩
  | bool =>
    rename_i b
    cases b <;> exact ⟨_, _, rfl, by decide⟩
  | number h =>
    obtain ⟨b, t, rfl, hb⟩ := h.head
    obtain ⟨hspace, hne, -⟩ := NumberText.bytes hb
    exact ⟨b, _, rfl, hspace, hne⟩

def ArrayReads (fuel : Nat) : Prop :=
  ∀ depth s text items rest, s.rest = 0x5B :: text →
    (items = [] ∧ Blanks text (0x5D :: rest)) ∨ Elements text items rest →
    Distinct (itemNodes items) → 3 * text.length + 2 ≤ fuel →
    Limited (array fuel (depth + 1) s)
      (Within (depth + (Json.array items).depth) (s.tokens + (Json.array items).tokens)
        (Json.array items).nodes)
      ⟨rest, s.tokens + (Json.array items).tokens⟩

def ObjectReads (fuel : Nat) : Prop :=
  ∀ depth s text ms rest, s.rest = 0x7B :: text →
    (ms = [] ∧ Blanks text (0x7D :: rest)) ∨ Members text ms rest →
    Distinct (Json.object ms).nodes → 3 * text.length + 2 ≤ fuel →
    Limited (object fuel (depth + 1) s)
      (Within (depth + (Json.object ms).depth) (s.tokens + (Json.object ms).tokens)
        (Json.object ms).nodes)
      ⟨rest, s.tokens + (Json.object ms).tokens⟩

theorem Elements.head (h : Elements text items rest) :
    ∃ b t, Blanks text (b :: t) ∧ isSpace b = false ∧ b ≠ 0x5D := by
  cases h with
  | last hb hv _ | more hb hv _ _ =>
    obtain ⟨b, t, rfl, hhead⟩ := hv.head
    exact ⟨b, t, hb, hhead⟩

theorem Members.head (h : Members text ms rest) : ∃ t, Blanks text (0x22 :: t) := by
  cases h with
  | last hb _ _ _ _ _ | more hb _ _ _ _ _ _ => exact ⟨_, hb⟩

theorem SameText.skipped (text : Bytes) (n : Nat) :
    SameText text (Scanner.whitespace ⟨text, n⟩).rest := SameText.whitespace ⟨text, n⟩

theorem Json.tokens_array (items : List Json) :
    (Json.array items).tokens = 2 + weights (itemNodes items) := by
  simp only [Json.tokens, Json.nodes, weights, List.map_cons, List.sum_cons, Json.weight]

theorem Json.tokens_object (ms : List (Bytes × Json)) :
    (Json.object ms).tokens = 2 + ms.length + weights (memberNodes ms) := by
  simp only [Json.tokens, Json.nodes, weights, List.map_cons, List.sum_cons, Json.weight]

theorem arrayReads_succ (he : ElementsRead fuel) : ArrayReads (fuel + 1) := by
  intro depth s text items rest hs h hd hfuel
  rw [array_succ, Json.tokens_array]
  by_cases hdepth : depth + 1 ≤ maxNestingDepth
  · rcases h with ⟨rfl, hempty⟩ | h
    · refine (bracket_limited hs (openOr_empty hempty (by decide))).congr ?_ rfl
      simp only [Within, Json.depth, Json.nodes, itemNodes, itemDepth, weights, List.forall_mem_cons,
        Json.Small, List.map_nil, List.sum_nil]
      grind
    · obtain ⟨b, t, hb, hspace, hne⟩ := h.head
      have hread := he (depth + 1) _ text items rest (.skipped text (s.tokens + 1)) h hd hdepth
        (by omega)
      refine (bracket_limited hs (openOr_first hb hspace hne hread)).congr ?_ ?_
      · simp only [Within, Json.depth, Json.nodes, List.forall_mem_cons, Json.Small,
          Scanner.whitespace]
        grind
      · simp only [Scanner.whitespace, Scanner.mk.injEq, true_and]
        omega
  · rw [if_pos (Nat.lt_of_not_le hdepth)]
    refine .inr ⟨fun hfits => ?_, rfl⟩
    have hdeep := hfits.1
    rw [Json.depth] at hdeep
    omega

theorem objectReads_succ (hm : MembersRead fuel) : ObjectReads (fuel + 1) := by
  intro depth s text ms rest hs h hd hfuel
  rw [object_succ, Json.tokens_object]
  by_cases hdepth : depth + 1 ≤ maxNestingDepth
  · rcases h with ⟨rfl, hempty⟩ | h
    · refine (bracket_limited hs (openOr_empty hempty (by decide))).congr ?_ rfl
      simp only [Within, Json.depth, Json.nodes, memberNodes, memberDepth, weights,
        List.forall_mem_cons, Json.Small, List.map_nil, List.sum_nil, List.length_nil]
      grind
    · obtain ⟨t, hb⟩ := h.head
      have hnames : (ms.map Prod.fst).Nodup := hd ms List.mem_cons_self
      have hinner : Distinct (memberNodes ms) := fun o ho => hd o (List.mem_cons_of_mem _ ho)
      have hread := hm (depth + 1) [] 1 _ text ms rest (.skipped text (s.tokens + 1)) h hinner
        hnames (by simp) hdepth (by omega)
      refine (bracket_limited hs (openOr_first hb (by decide) (by decide) hread)).congr ?_ ?_
      · simp only [Within, Json.depth, Json.nodes, List.forall_mem_cons, Json.Small,
          Scanner.whitespace]
        grind
      · simp only [Scanner.whitespace, Scanner.mk.injEq, true_and]
        omega
  · rw [if_pos (Nat.lt_of_not_le hdepth)]
    refine .inr ⟨fun hfits => ?_, rfl⟩
    have hdeep := hfits.1
    rw [Json.depth] at hdeep
    omega

theorem value_head {s : Scanner} (h : s.whitespace.rest = b :: t) :
    value (fuel + 1) depth s =
      if b == 0x7B then object fuel (depth + 1) s.whitespace
      else if b == 0x5B then array fuel (depth + 1) s.whitespace
      else if b == 0x22 then s.whitespace.token >>= fun s => do
        let (_, s) ← s.string false
        return s
      else if b == 0x74 then s.whitespace.literal (lit "true")
      else if b == 0x66 then s.whitespace.literal (lit "false")
      else if b == 0x6E then s.whitespace.literal (lit "null")
      else s.whitespace.number := by
  rw [value, h]

theorem within_scalar {v : Json} (hdepth : depth ≤ maxNestingDepth) (hv : v.nodes = [v]) (hd : v.depth = 0)
    (hw : v.weight = 1) :
    Within (depth + v.depth) (n + v.tokens) v.nodes ↔ v.Small ∧ n + 1 ≤ maxTokens := by
  simp only [Within, Json.tokens, weights, hv, hd, List.map_cons, List.map_nil, hw,
    List.sum_singleton, List.mem_singleton, forall_eq]
  grind

theorem valueReads_succ (ho : ObjectReads fuel) (ha : ArrayReads fuel) : ValueReads (fuel + 1) := by
  intro depth s text v rest hs h hends hd hdepth hfuel
  obtain ⟨b, t, htext, hspace, -⟩ := h.head
  have hrest : s.whitespace.rest = text := by
    show s.rest.dropWhile isSpace = text
    rw [← hs, htext, List.dropWhile_cons, hspace]
    rfl
  rw [value_head (hrest.trans htext)]
  have hlen : t.length + 1 = text.length := by rw [htext, List.length_cons]
  cases h with
  | null =>
    cases htext
    refine (literal_limited hrest).congr ?_ rfl
    rw [within_scalar hdepth rfl rfl rfl]
    exact (and_iff_right trivial).symm
  | bool =>
    rename_i b
    cases b
    all_goals
      cases htext
      refine (literal_limited hrest).congr ?_ rfl
      rw [within_scalar hdepth rfl rfl rfl]
      exact (and_iff_right trivial).symm
  | number h =>
    rename_i w
    obtain ⟨c, t', rfl, hc⟩ := h.head
    cases htext
    obtain ⟨-, -, h₁, h₂, h₃, h₄, h₅, h₆⟩ := NumberText.bytes hc
    simp only [beq_iff_eq, h₁, h₂, h₃, h₄, h₅, h₆, if_false]
    refine (number_limited hrest h hends).congr ?_ rfl
    rw [within_scalar hdepth rfl rfl rfl]
    rfl
  | string h =>
    rename_i content
    cases htext
    have hstring := string_limited (s := ⟨s.whitespace.rest, s.tokens + 1⟩) hrest h
    refine (Limited.bind (token_limited s.whitespace)
      (Limited.bind hstring (Limited.pure (Scanner.mk rest (s.tokens + 1))))).congr ?_ rfl
    rw [within_scalar hdepth rfl rfl rfl, and_true, and_comm]
    rfl
  | emptyArray h =>
    cases htext
    exact ha depth s.whitespace _ _ _ hrest (.inl ⟨rfl, h⟩) (by simp [Distinct, itemNodes]) (by omega)
  | array h =>
    cases htext
    exact ha depth s.whitespace _ _ _ hrest (.inr h)
      (fun o ho => hd o (List.mem_cons_of_mem _ ho)) (by omega)
  | emptyObject h =>
    cases htext
    exact ho depth s.whitespace _ _ _ hrest (.inl ⟨rfl, h⟩) hd (by omega)
  | object h =>
    cases htext
    exact ho depth s.whitespace _ _ _ hrest (.inr h) hd (by omega)

theorem reads (fuel : Nat) :
    ValueReads fuel ∧ ElementsRead fuel ∧ MembersRead fuel ∧ ArrayReads fuel ∧ ObjectReads fuel := by
  induction fuel with
  | zero =>
    refine ⟨?_, ?_, ?_, ?_, ?_⟩
    · intro depth s text v rest _ h _ _ _ hfuel
      have := h.length_lt
      omega
    · intro depth s text items rest _ _ _ _ hfuel
      omega
    · intro depth keys count s text ms rest _ _ _ _ _ _ hfuel
      omega
    · intro depth s text items rest _ _ _ hfuel
      omega
    · intro depth s text ms rest _ _ _ hfuel
      omega
  | succ fuel ih =>
    obtain ⟨hv, he, hm, ha, ho⟩ := ih
    exact ⟨valueReads_succ ho ha, elementsRead_succ hv he, membersRead_succ hv hm,
      arrayReads_succ he, objectReads_succ hm⟩

theorem parse_limited (h : Document data v) (hd : Distinct v.nodes) :
    Limited (Scanner.parse { rest := data }) v.WithinLimits () := by
  obtain ⟨text, rest, hb, hden, hend⟩ := h
  have hlen := hb.length_le
  have hsame : SameText text (Scanner.whitespace { rest := data }).rest :=
    .of_blanks hb (.skipped data 0)
  have hread := (reads (3 * data.length + 3)).1 0 _ text v rest hsame hden (.before .nil hend) hd
    (by decide) (by omega)
  have hfits : Within (0 + v.depth) (0 + v.tokens) v.nodes ↔ v.WithinLimits := by
    rw [Nat.zero_add, Nat.zero_add]
    exact ⟨fun ⟨h₁, h₂, h₃⟩ => ⟨h₁, h₂, h₃⟩, fun h => ⟨h.depth, h.tokens, h.small⟩⟩
  unfold Scanner.parse
  rcases hread.congr hfits rfl with ⟨hlimits, hread⟩ | ⟨hlimits, hread⟩
  · refine .inl ⟨hlimits, ?_⟩
    rw [hread]
    exact if_pos hend.dropWhile_eq
  · refine .inr ⟨hlimits, ?_⟩
    rw [hread]

end Repost.StrictJson
