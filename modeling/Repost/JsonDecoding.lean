import Repost.JsonComplete

namespace Repost.StrictJson
open GoText
set_option autoImplicit true

theorem skipByte_blanks (h : Blanks text (b :: rest)) (hb : isSpace b = false) :
    skipByte b text = some rest := by
  unfold skipByte
  rw [h.skip hb]
  simp

theorem skipByte_other (h : Blanks text (c :: rest)) (hc : isSpace c = false) (hne : c ≠ b) :
    skipByte b text = none := by
  unfold skipByte
  rw [h.skip hc]
  simp [hne]

def ValueDecodes (fuel : Nat) : Prop :=
  ∀ t text v rest, Blanks t text → Denotes text v rest → Ends rest → 3 * t.length + 1 ≤ fuel →
    decodeValue fuel t = some (v, rest)

def ElementsDecode (fuel : Nat) : Prop :=
  ∀ text items rest, Elements text items rest → 3 * text.length + 3 ≤ fuel →
    decodeElements fuel text = some (items, rest)

def MembersDecode (fuel : Nat) : Prop :=
  ∀ text ms rest, Members text ms rest → 3 * text.length + 3 ≤ fuel →
    decodeMembers fuel text = some (ms, rest)

theorem Ends.before_byte (h : Blanks text (b :: rest))
    (hb : isDigit b = false ∧ b ≠ 0x2E ∧ b ≠ 0x65 ∧ b ≠ 0x45) : Ends text :=
  (Ends.cons hb).before h

theorem elementsDecode_succ (hv : ValueDecodes fuel) (he : ElementsDecode fuel) :
    ElementsDecode (fuel + 1) := by
  intro text items rest h hfuel
  cases h with
  | last hb hd hend =>
    have hvalue := hv _ _ _ _ hb hd (Ends.before_byte hend (by decide)) (by omega)
    simp [decodeElements, hvalue, skipByte_blanks hend (by decide)]
  | more hb hd hc h =>
    have hvalue := hv _ _ _ _ hb hd (Ends.before_byte hc (by decide)) (by omega)
    have hlen := hd.length_lt
    have hlen₁ := hb.length_le
    have hlen₂ := hc.length_le
    rw [List.length_cons] at hlen₂
    have hrest := he _ _ _ h (by omega)
    have hopen : skipByte 0x5D _ = none := skipByte_other hc (by decide) (by decide)
    simp [decodeElements, hvalue, hopen, skipByte_blanks hc (by decide), hrest]

theorem membersDecode_succ (hv : ValueDecodes fuel) (hm : MembersDecode fuel) :
    MembersDecode (fuel + 1) := by
  intro text ms rest h hfuel
  cases h with
  | last hb hk hc hb' hd hend =>
    have hlen := Members.front_length hb hk hc (Blanks.refl _)
    have hvalue := hv _ _ _ _ hb' hd (Ends.before_byte hend (by decide)) (by omega)
    simp [decodeMembers, skipByte_blanks hb (by decide), decodeString_of_chars hk,
      skipByte_blanks hc (by decide), hvalue, skipByte_blanks hend (by decide)]
  | more hb hk hc hb' hd hmore h =>
    have hlen := Members.front_length hb hk hc (Blanks.refl _)
    have hvalue := hv _ _ _ _ hb' hd (Ends.before_byte hmore (by decide)) (by omega)
    have hlen₁ := hb'.length_le
    have hlen₂ := hd.length_lt
    have hlen₃ := hmore.length_le
    rw [List.length_cons] at hlen₃
    have hrest := hm _ _ _ h (by omega)
    have hopen : skipByte 0x7D _ = none := skipByte_other hmore (by decide) (by decide)
    simp [decodeMembers, skipByte_blanks hb (by decide), decodeString_of_chars hk,
      skipByte_blanks hc (by decide), hvalue, hopen, skipByte_blanks hmore (by decide), hrest]

theorem valueDecodes_succ (he : ElementsDecode fuel) (hm : MembersDecode fuel) :
    ValueDecodes (fuel + 1) := by
  intro t text v rest hb h hend hfuel
  obtain ⟨b, s, htext, hspace, -⟩ := h.head
  have hlen : s.length + 1 ≤ t.length := by
    rw [← List.length_cons, ← htext]
    exact hb.length_le
  rw [htext] at hb
  unfold decodeValue
  rw [hb.skip hspace]
  cases h with
  | null =>
    cases htext
    rfl
  | bool =>
    rename_i b
    cases b
    all_goals
      cases htext
      rfl
  | number h =>
    obtain ⟨c, w, rfl, hc⟩ := h.head
    cases htext
    obtain ⟨-, -, h₁, h₂, h₃, h₄, h₅, h₆⟩ := NumberText.bytes hc
    have hskip : skipNumber (b :: (w.append rest)) = some rest := skipNumber_append h hend
    have htake : (b :: (w.append rest)).take ((b :: (w.append rest)).length - rest.length) = b :: w := by
      change ((b :: w) ++ rest).take (((b :: w) ++ rest).length - rest.length) = b :: w
      rw [List.length_append, Nat.add_sub_cancel, List.take_left]
    simp only [beq_iff_eq, h₁, h₂, h₃, h₄, h₅, h₆, if_false, hskip, Option.map_some, htake]
  | string h =>
    cases htext
    simp [decodeString_of_chars h]
  | emptyArray h | emptyObject h =>
    cases htext
    simp [skipByte_blanks h (by decide)]
  | array h =>
    cases htext
    obtain ⟨c, u, hc, hblank, hne⟩ := h.head
    simp [skipByte_other hc hblank hne, he _ _ _ h (by omega)]
  | object h =>
    cases htext
    obtain ⟨u, hu⟩ := h.head
    have hopen : skipByte 0x7D s = none := skipByte_other hu (by decide) (by decide)
    simp [hopen, hm _ _ _ h (by omega)]

theorem decodes (fuel : Nat) : ValueDecodes fuel ∧ ElementsDecode fuel ∧ MembersDecode fuel := by
  induction fuel with
  | zero =>
    refine ⟨?_, ?_, ?_⟩
    · intro t text v rest _ _ _ h
      omega
    · intro text items rest _ h
      omega
    · intro text ms rest _ h
      omega
  | succ fuel ih =>
    obtain ⟨hv, he, hm⟩ := ih
    exact ⟨valueDecodes_succ he hm, elementsDecode_succ hv he, membersDecode_succ hv hm⟩

theorem decode_document (h : Document data v) : decode data = some v := by
  obtain ⟨text, rest, hb, hd, hend⟩ := h
  have hv := (decodes (3 * data.length + 3)).1 data text v rest hb hd (Ends.nil.before hend) (by omega)
  unfold decode
  rw [hv]
  rfl

end Repost.StrictJson
