import Repost.JsonDecoding
import Repost.OrderedJson

namespace Repost.Ordered
open GoText Serialize StrictJson
set_option autoImplicit true

theorem control_escape : ∀ n : Fin 32,
    hexUnit 0x30 0x30 (hexDigits.getD (n.val / 16) 0) (hexDigits.getD (n.val % 16) 0) = some n.val ∧
      isHighSurrogate n.val = false ∧ isLowSurrogate n.val = false ∧
      encodeRune n.val = [UInt8.ofNat n.val] := by
  decide

theorem unicodeEscape_chars (hb : b < 0x20) (h : Chars text s rest) :
    Chars (unicodeEscape b ++ text) (b :: s) rest := by
  obtain ⟨hunit, hhigh, hlow, hrune⟩ := control_escape ⟨b.toNat, hb⟩
  have hscalar := Chars.scalar hunit hhigh hlow h
  rw [hrune] at hscalar
  have hbyte : UInt8.ofNat b.toNat = b := UInt8.ofNat_toNat
  rw [hbyte] at hscalar
  exact hscalar

theorem quoteRune_chars (b : UInt8) (h : Chars text s rest) :
    Chars (quoteRune (.ascii b) ++ text) (b :: s) rest := by
  unfold quoteRune
  split
  case h_8 hq he _ _ _ _ _ heq =>
    cases heq
    split
    case isTrue hb => exact unicodeEscape_chars hb h
    case isFalse hb => exact .plain hb (fun h => hq (by rw [h])) (fun h => he (by rw [h])) h
  case h_9 => simp_all
  all_goals
    rename_i heq
    cases heq
    exact .escape rfl h

theorem isContinuation_wide (h : isContinuation b = true) : 0x80 ≤ b := by
  simp only [isContinuation, Bool.and_eq_true, decide_eq_true_eq] at h
  exact h.1

theorem secondByteOK_wide (h : secondByteOK b0 b1 = true) : 0x80 ≤ b1 := by
  have hle : ∀ {low high : UInt8}, 0x80 ≤ low → (decide (low ≤ b1) && decide (b1 ≤ high)) = true →
      0x80 ≤ b1 := by
    intro low high hlow h
    rw [Bool.and_eq_true, decide_eq_true_eq] at h
    exact UInt8.le_trans hlow h.1
  unfold secondByteOK at h
  split at h
  · exact hle (by decide) h
  · split at h
    · exact hle (by decide) h
    · split at h
      · exact hle (by decide) h
      · split at h
        · exact hle (by decide) h
        · exact isContinuation_wide h

theorem runes_wide (h : Rune.wide bytes ∈ runes s) : ∀ b ∈ bytes, 0x80 ≤ b := by
  fun_induction runes s with
  | case1 => cases h
  | case2 b0 rest _ ih => exact ih (by simpa using h)
  | case3 b0 h0 _ b1 tail h1 ih =>
    rcases List.mem_cons.mp h with heq | h
    · cases heq
      simpa using ⟨UInt8.not_lt.mp h0, isContinuation_wide h1⟩
    · exact ih h
  | case4 b0 _ _ b1 tail _ ih => exact ih (by simpa using h)
  | case5 => simp at h
  | case6 b0 h0 _ _ b1 b2 tail hc ih =>
    rcases List.mem_cons.mp h with heq | h
    · cases heq
      rw [Bool.and_eq_true] at hc
      simpa using ⟨UInt8.not_lt.mp h0, secondByteOK_wide hc.1, isContinuation_wide hc.2⟩
    · exact ih h
  | case7 b0 _ _ _ b1 b2 tail _ ih => exact ih (by simpa using h)
  | case8 b0 _ _ _ rest _ ih => exact ih (by simpa using h)
  | case9 b0 h0 _ _ _ b1 b2 b3 tail hc ih =>
    rcases List.mem_cons.mp h with heq | h
    · cases heq
      rw [Bool.and_eq_true, Bool.and_eq_true] at hc
      simpa using ⟨UInt8.not_lt.mp h0, secondByteOK_wide hc.1.1, isContinuation_wide hc.1.2, isContinuation_wide hc.2⟩
    · exact ih h
  | case10 b0 _ _ _ _ b1 b2 b3 tail _ ih => exact ih (by simpa using h)
  | case11 b0 _ _ _ _ rest _ ih => exact ih (by simpa using h)
  | case12 b0 rest _ _ _ _ ih => exact ih (by simpa using h)

theorem plain_chars (hb : ∀ b ∈ bytes, 0x80 ≤ b) (h : Chars text s rest) :
    Chars (bytes ++ text) (bytes ++ s) rest := by
  induction bytes with
  | nil => exact h
  | cons b bytes ih =>
    have hb' := UInt8.not_lt.mpr (hb b List.mem_cons_self)
    have hne : ∀ c : UInt8, c < 0x80 → b ≠ c := by
      rintro c hc rfl
      exact hb' hc
    apply Chars.plain
    · intro hlow
      exact hb' (UInt8.lt_trans hlow (by decide))
    · exact hne _ (by decide)
    · exact hne _ (by decide)
    · exact ih fun c hc => hb c (List.mem_cons_of_mem b hc)

theorem escapedRune_chars {r : Rune} (hr : ∀ bytes, r = .wide bytes → ∀ b ∈ bytes, 0x80 ≤ b)
    (h : Chars text s rest) : Chars (escapedRune r ++ text) (r.bytes ++ s) rest := by
  have hreplaced : hexUnit 0x66 0x66 0x66 0x64 = some 0xFFFD := by decide
  have hline : hexUnit 0x32 0x30 0x32 0x38 = some 0x2028 := by decide
  have hparagraph : hexUnit 0x32 0x30 0x32 0x39 = some 0x2029 := by decide
  unfold escapedRune
  split
  · exact .scalar hreplaced (by decide) (by decide) h
  · exact .scalar hline (by decide) (by decide) h
  · exact .scalar hparagraph (by decide) (by decide) h
  · cases r with
    | ascii b => exact quoteRune_chars b h
    | wide bytes => exact plain_chars (hr bytes rfl) h
    | invalid => contradiction

theorem encodeString_chars (s rest : Bytes) :
    ∃ text, encodeString s ++ rest = 0x22 :: text ∧ Chars text (sanitize s) rest := by
  have hchars : ∀ rs : List Rune, (∀ r ∈ rs, ∀ bytes, r = .wide bytes → ∀ b ∈ bytes, 0x80 ≤ b) →
      Chars (rs.flatMap escapedRune ++ 0x22 :: rest) (rs.flatMap Rune.bytes) rest := by
    intro rs hrs
    induction rs with
    | nil => exact .close
    | cons r rs ih =>
      have hrest := ih fun r' hr' => hrs r' (List.mem_cons_of_mem r hr')
      simpa using escapedRune_chars (hrs r List.mem_cons_self) hrest
  refine ⟨_, ?_, hchars (runes s) fun r hr bytes he => runes_wide (he ▸ hr)⟩
  simp [encodeString]

mutual

def writeJson : Json → Bytes
  | .null => lit "null"
  | .bool b => boolText b
  | .number w => w
  | .string s => encodeString s
  | .array items => [0x5B] ++ writeItems true items ++ [0x5D]
  | .object ms => [0x7B] ++ writeMembers true ms ++ [0x7D]

def writeItems (first : Bool) : List Json → Bytes
  | [] => []
  | v :: items => separator first ++ (writeJson v ++ writeItems false items)

def writeMembers (first : Bool) : List (Bytes × Json) → Bytes
  | [] => []
  | (key, v) :: ms =>
    separator first ++ (encodeString key ++ ([0x3A] ++ (writeJson v ++ writeMembers false ms)))

end

mutual

def received : Json → Json
  | .string s => .string (sanitize s)
  | .array items => .array (receivedItems items)
  | .object ms => .object (receivedMembers ms)
  | v => v

def receivedItems : List Json → List Json
  | [] => []
  | v :: items => received v :: receivedItems items

def receivedMembers : List (Bytes × Json) → List (Bytes × Json)
  | [] => []
  | (key, v) :: ms => (sanitize key, received v) :: receivedMembers ms

end

mutual

def Numeric : Json → Prop
  | .number w => NumberText w
  | .array items => NumericItems items
  | .object ms => NumericMembers ms
  | _ => True

def NumericItems : List Json → Prop
  | [] => True
  | v :: items => Numeric v ∧ NumericItems items

def NumericMembers : List (Bytes × Json) → Prop
  | [] => True
  | (_, v) :: ms => Numeric v ∧ NumericMembers ms

end

mutual

/-- The strings of a value, the names of its members among them, are valid UTF-8. -/
def Unicode : Json → Prop
  | .string s => validUTF8 s = true
  | .array items => UnicodeItems items
  | .object ms => UnicodeMembers ms
  | _ => True

def UnicodeItems : List Json → Prop
  | [] => True
  | v :: items => Unicode v ∧ UnicodeItems items

def UnicodeMembers : List (Bytes × Json) → Prop
  | [] => True
  | (key, v) :: ms => validUTF8 key = true ∧ Unicode v ∧ UnicodeMembers ms

end

mutual

theorem received_eq_iff : ∀ v : Json, received v = v ↔ Unicode v
  | .null | .bool _ | .number _ => by simp [received, Unicode]
  | .string s => by
    rw [received, Unicode, Json.string.injEq]
    exact sanitize_eq_iff s
  | .array items => by
    rw [received, Unicode, Json.array.injEq]
    exact receivedItems_eq_iff items
  | .object ms => by
    rw [received, Unicode, Json.object.injEq]
    exact receivedMembers_eq_iff ms

theorem receivedItems_eq_iff : ∀ items : List Json, receivedItems items = items ↔ UnicodeItems items
  | [] => by simp [receivedItems, UnicodeItems]
  | v :: items => by
    rw [receivedItems, UnicodeItems, List.cons.injEq, received_eq_iff v, receivedItems_eq_iff items]

theorem receivedMembers_eq_iff : ∀ ms : List (Bytes × Json),
    receivedMembers ms = ms ↔ UnicodeMembers ms
  | [] => by simp [receivedMembers, UnicodeMembers]
  | (key, v) :: ms => by
    rw [receivedMembers, UnicodeMembers, List.cons.injEq, Prod.mk.injEq, sanitize_eq_iff,
      received_eq_iff v, receivedMembers_eq_iff ms, and_assoc]

end

theorem writeItems_next (v : Json) (items : List Json) :
    writeItems false (v :: items) = 0x2C :: writeItems true (v :: items) := by
  simp [writeItems, separator]

theorem writeMembers_next (m : Bytes × Json) (ms : List (Bytes × Json)) :
    writeMembers false (m :: ms) = 0x2C :: writeMembers true (m :: ms) := by
  simp [writeMembers, separator]

mutual

theorem writeJson_denotes : ∀ (v : Json) (rest : Bytes), Numeric v →
    Denotes (writeJson v ++ rest) (received v) rest
  | .null, _, _ => .null
  | .bool _, _, _ => .bool
  | .number _, _, h => .number h
  | .string s, rest, _ => by
    obtain ⟨text, htext, hchars⟩ := encodeString_chars s rest
    rw [writeJson, htext]
    exact .string hchars
  | .array [], _, _ => .emptyArray (.refl _)
  | .array (v :: items), rest, h => by
    have he := writeItems_elements (v :: items) rest h nofun
    simpa [writeJson, received] using Denotes.array he
  | .object [], _, _ => .emptyObject (.refl _)
  | .object (m :: ms), rest, h => by
    have hm := writeMembers_members (m :: ms) rest h nofun
    simpa [writeJson, received] using Denotes.object hm

theorem writeItems_elements : ∀ (items : List Json) (rest : Bytes), NumericItems items → items ≠ [] →
    Elements (writeItems true items ++ 0x5D :: rest) (receivedItems items) rest
  | [], _, _, h => absurd rfl h
  | [v], rest, h, _ => by
    have hv := writeJson_denotes v (0x5D :: rest) h.1
    simpa [writeItems, separator, receivedItems] using Elements.last (.refl _) hv (.refl _)
  | v :: w :: items, rest, h, _ => by
    have he := writeItems_elements (w :: items) rest h.2 nofun
    have hv := writeJson_denotes v (0x2C :: (writeItems true (w :: items) ++ 0x5D :: rest)) h.1
    have hmore := Elements.more (.refl _) hv (.refl _) he
    rw [writeItems, writeItems_next]
    simpa [separator, receivedItems] using hmore

theorem writeMembers_members : ∀ (ms : List (Bytes × Json)) (rest : Bytes), NumericMembers ms →
    ms ≠ [] → Members (writeMembers true ms ++ 0x7D :: rest) (receivedMembers ms) rest
  | [], _, _, h => absurd rfl h
  | [(key, v)], rest, h, _ => by
    have hv := writeJson_denotes v (0x7D :: rest) h.1
    obtain ⟨text, htext, hkey⟩ := encodeString_chars key (0x3A :: (writeJson v ++ 0x7D :: rest))
    have hlast := Members.last (.refl _) hkey (.refl _) (.refl _) hv (.refl _)
    rw [← htext] at hlast
    simpa [writeMembers, separator, receivedMembers] using hlast
  | (key, v) :: m :: ms, rest, h, _ => by
    have hm := writeMembers_members (m :: ms) rest h.2 nofun
    have hv := writeJson_denotes v (0x2C :: (writeMembers true (m :: ms) ++ 0x7D :: rest)) h.1
    obtain ⟨text, htext, hkey⟩ := encodeString_chars key
      (0x3A :: (writeJson v ++ 0x2C :: (writeMembers true (m :: ms) ++ 0x7D :: rest)))
    have hmore := Members.more (.refl _) hkey (.refl _) (.refl _) hv (.refl _) hm
    rw [← htext] at hmore
    rw [writeMembers, writeMembers_next]
    simpa [separator, receivedMembers] using hmore

end

theorem decode_writeJson (h : Numeric v) : decode (writeJson v) = some (received v) := by
  have hd := writeJson_denotes v [] h
  rw [List.append_nil] at hd
  exact decode_document ⟨_, _, .refl _, hd, .refl _⟩

end Repost.Ordered
