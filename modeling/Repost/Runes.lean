import Repost.GoText

namespace GoText
set_option autoImplicit true

def replacement : Bytes := [0xEF, 0xBF, 0xBD]

def Rune.bytes : Rune → Bytes
  | .ascii b => [b]
  | .wide bytes => bytes
  | .invalid => replacement

/-- Every byte that is not part of valid UTF-8 becomes U+FFFD. -/
def sanitize (s : Bytes) : Bytes := (runes s).flatMap Rune.bytes

theorem length_sanitize (s : Bytes) :
    (sanitize s).length = s.length + 2 * (runes s).count .invalid := by
  unfold sanitize
  fun_induction runes s <;> simp_all [Rune.bytes, replacement] <;> omega

theorem validUTF8_iff (s : Bytes) : validUTF8 s = true ↔ .invalid ∉ runes s := by
  fun_induction runes s with
  | case1 => simp [validUTF8]
  | case2 b0 rest h ih =>
    unfold validUTF8
    rw [if_pos h]
    simpa using ih
  | case3 b0 h h' b1 tail hc ih =>
    unfold validUTF8
    rw [if_neg h, if_pos h']
    simpa [hc] using ih
  | case4 b0 h h' b1 tail hc ih =>
    unfold validUTF8
    rw [if_neg h, if_pos h']
    simp [hc]
  | case5 b0 h h' =>
    unfold validUTF8
    rw [if_neg h, if_pos h']
    simp
  | case6 b0 h h' h'' b1 b2 tail hc ih =>
    unfold validUTF8
    rw [if_neg h, if_neg h', if_pos h'']
    simpa [hc] using ih
  | case7 b0 h h' h'' b1 b2 tail hc ih =>
    unfold validUTF8
    rw [if_neg h, if_neg h', if_pos h'']
    simp only [hc, Bool.false_and, List.mem_cons, true_or, not_true_eq_false, Bool.false_eq_true]
  | case8 =>
    unfold validUTF8
    split <;> simp_all
  | case9 b0 h h' h'' h₄ b1 b2 b3 tail hc ih =>
    unfold validUTF8
    rw [if_neg h, if_neg h', if_neg h'', if_pos h₄]
    simpa [hc] using ih
  | case10 b0 h h' h'' h₄ b1 b2 b3 tail hc ih =>
    unfold validUTF8
    rw [if_neg h, if_neg h', if_neg h'', if_pos h₄]
    simp only [hc, Bool.false_and, List.mem_cons, true_or, not_true_eq_false, Bool.false_eq_true]
  | case11 =>
    unfold validUTF8
    split <;> simp_all
  | case12 b0 rest h h' h'' h₄ ih =>
    unfold validUTF8
    rw [if_neg h, if_neg h', if_neg h'', if_neg h₄]
    simp

theorem sanitize_of_valid (h : validUTF8 s = true) : sanitize s = s := by
  rw [validUTF8_iff] at h
  unfold sanitize
  fun_induction runes s <;> simp_all [Rune.bytes]

theorem sanitize_eq_iff (s : Bytes) : sanitize s = s ↔ validUTF8 s = true := by
  refine ⟨fun h => ?_, sanitize_of_valid⟩
  have hlen := length_sanitize s
  rw [h] at hlen
  rw [validUTF8_iff, ← List.count_eq_zero]
  omega

example : sanitize [0xFF, 0x41] = [0xEF, 0xBF, 0xBD, 0x41] := rfl

end GoText
