import Repost.Folding
import Repost.Http1Framing

set_option autoImplicit true

namespace GoText

theorem digits_isDigit (h : digits 10 acc s = some n) : s.all isDigit = true := by
  induction s generalizing acc with
  | nil => rfl
  | cons b s ih =>
    unfold digits at h
    split at h
    · rename_i d hd
      split at h
      · rename_i hlt
        rw [List.all_cons, ih h, Bool.and_true]
        unfold digitValue at hd
        split at hd
        · assumption
        · split at hd
          · cases hd
            omega
          · cases hd
      · cases h
    · cases h
end GoText

namespace Repost
open GoText

structure WireResponse where
  status : Nat
  headers : List HeaderField
  body : Bytes
  deriving DecidableEq

namespace HeaderField

def line (h : HeaderField) : Bytes := h.name ++ lit ": " ++ h.value

def size (h : HeaderField) : Nat := h.name.length + 2 + h.value.length + 2

structure Representable (h : HeaderField) : Prop where
  colon : 0x3A ∉ h.name
  name : 0x0A ∉ h.name
  value : 0x0A ∉ h.value
  trimmed : trimOWS h.value = h.value

end HeaderField

def digitByte (n : Nat) : UInt8 := UInt8.ofNat (0x30 + n)

def statusDigits (status : Nat) : Bytes :=
  [digitByte (status / 100), digitByte (status / 10 % 10), digitByte (status % 10)]

def headerLines (headers : List HeaderField) : Bytes :=
  headers.flatMap fun h => h.line ++ H1.crlf

/-- The response on an HTTP/1.1 connection, with an empty reason phrase. -/
def WireResponse.h1 (r : WireResponse) : Bytes :=
  lit "HTTP/1.1 " ++ statusDigits r.status ++ lit " " ++ H1.crlf ++
    (headerLines r.headers ++ (H1.crlf ++ r.body))

/-- A final response whose fields stand on header lines, with one content-length, that of its
body. -/
structure WireResponse.Sized (r : WireResponse) : Prop where
  status_ge : 200 ≤ r.status
  status_le : r.status ≤ 599
  fields : ∀ h ∈ r.headers, h.Representable
  length : ∃ value,
    (r.headers.filter fun h => h.name.map asciiLower == lit "content-length").map (·.value) =
      [value] ∧ parseUint 10 63 value = some r.body.length

/-- What a lane has against a response: it is malformed, or over a limit. -/
inductive Objection where
  | malformed | tooLarge
  deriving DecidableEq

def HeaderField.objection (h : HeaderField) : Option Objection :=
  match H1.parseHeader h.line with
  | .ok _ => none
  | .error .headerLimit => some .tooLarge
  | .error _ => some .malformed

/-- The fields that the HTTP/1.1 lane takes in before its first objection, and that objection, given
how many fields are still allowed and how many bytes came before. -/
def scanFields : Nat → Nat → List HeaderField → List HeaderField × Option Objection
  | _, _, [] => ([], none)
  | left, size, h :: hs =>
    if h.line.length > Limits.headerBytes + 2 then ([], some .tooLarge)
    else
      match left with
      | 0 => ([], some .tooLarge)
      | left + 1 =>
        match h.objection with
        | some o => ([], some o)
        | none =>
          if size + h.size > Limits.headerBytes then ([h], some .tooLarge)
          else (h :: (scanFields left (size + h.size) hs).1,
            (scanFields left (size + h.size) hs).2)

def Objection.err : Objection → H1.Err
  | .malformed => .protocol
  | .tooLarge => .headerLimit

namespace H1

theorem cutLine_append (text rest : Bytes) (h : 0x0A ∉ text) :
    cutLine (text ++ 0x0A :: rest) = some (text ++ [0x0A], rest) := by
  induction text with
  | nil => rfl
  | cons b text ih =>
    rw [List.mem_cons, not_or] at h
    have hb : (b == 0x0A) = false := beq_false_of_ne (Ne.symm h.1)
    rw [List.cons_append, cutLine, hb, ih h.2]
    rfl

theorem readLine_append (ending : GoError) (limit : Nat) (line rest : Bytes) (h : 0x0A ∉ line) :
    readLine ending limit (line ++ (crlf ++ rest)) =
      if line.length > limit then .error .headerLimit else .ok (line, rest) := by
  have hcr : 0x0A ∉ line ++ [0x0D] := by
    rw [List.mem_append, not_or]
    exact ⟨h, by decide⟩
  have hcut : cutLine (line ++ (crlf ++ rest)) = some (line ++ [0x0D] ++ [0x0A], rest) := by
    rw [← cutLine_append _ _ hcr]
    simp [crlf]
  unfold readLine
  rw [hcut]
  simp only [List.dropLast_concat, List.getLast?_append, List.length_append, List.length_cons,
    List.length_nil]
  by_cases hl : line.length > limit
  · rw [if_pos (by omega), if_pos hl]
  · rw [if_neg (by omega), if_neg hl]
    simp

theorem trimOWS_blank (s : Bytes) : trimOWS (0x20 :: s) = trimOWS s := rfl

section
variable {h : HeaderField}

theorem cut_line (hr : h.Representable) : cut 0x3A h.line = (h.name, some (0x20 :: h.value)) := by
  rw [← cut_append hr.colon]
  unfold HeaderField.line
  rw [List.append_assoc]
  rfl

theorem line_no_lf (hr : h.Representable) : 0x0A ∉ h.line := by
  unfold HeaderField.line
  simp only [List.mem_append, not_or]
  exact ⟨⟨hr.name, by decide⟩, hr.value⟩

theorem line_ne_nil (h : HeaderField) : h.line ≠ [] := by
  intro hn
  simp only [HeaderField.line, List.append_eq_nil_iff] at hn
  exact absurd hn.1.2 (by decide)

theorem parseHeader_line_cases (hr : h.Representable) :
    parseHeader h.line = .ok h ∨ parseHeader h.line = .error .protocol ∨
      parseHeader h.line = .error .headerLimit := by
  have hcut := cut_line hr
  unfold parseHeader
  rw [hcut]
  simp only [trimOWS_blank, hr.trimmed]
  split_ifs <;> simp

theorem parseHeader_line (hr : h.Representable) :
    parseHeader h.line =
      match h.objection with
      | none => .ok h
      | some o => .error o.err := by
  unfold HeaderField.objection
  rcases parseHeader_line_cases hr with hp | hp | hp
  · rw [hp]
  · rw [hp]
    rfl
  · rw [hp]
    rfl

end

theorem readHeaders_line (ending : GoError) (left size : Nat) (before : List HeaderField)
    (line rest : Bytes) (hn : line ≠ []) (hl : 0x0A ∉ line) :
    readHeaders ending left before size (line ++ (crlf ++ rest)) =
      if line.length > Limits.headerBytes + 2 then (before, .error .headerLimit)
      else
        match left with
        | 0 => (before, .error .headerLimit)
        | left + 1 =>
          match parseHeader line with
          | .error e => (before, .error e)
          | .ok h =>
            if size + h.size > Limits.headerBytes then (before ++ [h], .error .headerLimit)
            else readHeaders ending left (before ++ [h]) (size + h.size) rest := by
  have hline := readLine_append ending (Limits.headerBytes + 2) line rest hl
  obtain ⟨b, text, rfl⟩ := List.exists_cons_of_ne_nil hn
  conv_lhs => unfold readHeaders
  rw [hline]
  split_ifs
  · rfl
  · cases left <;> rfl

/-- Header lines are read up to the first objection. -/
theorem readHeaders_lines (ending : GoError) (left size : Nat) (before headers : List HeaderField)
    (rest : Bytes) (hr : ∀ h ∈ headers, h.Representable) :
    readHeaders ending left before size (headerLines headers ++ (crlf ++ rest)) =
      (before ++ (scanFields left size headers).1,
        match (scanFields left size headers).2 with
        | none => .ok rest
        | some o => .error o.err) := by
  induction headers generalizing left size before with
  | nil =>
    have hline := readLine_append ending (Limits.headerBytes + 2) [] rest List.not_mem_nil
    unfold readHeaders
    rw [show headerLines [] ++ (crlf ++ rest) = [] ++ (crlf ++ rest) from rfl, hline]
    simp [scanFields]
  | cons h headers ih =>
    have hh := hr h List.mem_cons_self
    have hrest : ∀ h ∈ headers, h.Representable := fun x hx => hr x (List.mem_cons_of_mem _ hx)
    have hsplit : headerLines (h :: headers) ++ (crlf ++ rest) =
        h.line ++ (crlf ++ (headerLines headers ++ (crlf ++ rest))) := by
      simp only [headerLines, List.flatMap_cons, List.append_assoc]
    rw [hsplit, readHeaders_line _ _ _ _ _ _ (line_ne_nil h) (line_no_lf hh), parseHeader_line hh]
    by_cases hl : h.line.length > Limits.headerBytes + 2
    · rw [if_pos hl, scanFields.eq_def]
      simp [hl, Objection.err]
    · rw [if_neg hl]
      cases left with
      | zero => simp [scanFields, hl, Objection.err]
      | succ left =>
        cases ho : h.objection with
        | some o => simp [scanFields, hl, ho]
        | none =>
          by_cases hs : size + h.size > Limits.headerBytes
          · simp [scanFields, hl, ho, hs, Objection.err]
          · simp only [scanFields, hl, ho, hs, if_false]
            rw [ih _ _ _ hrest]
            simp

theorem digitByte_spec (n : Nat) (h : n < 10) :
    isDigit (digitByte n) = true ∧ (digitByte n).toNat = 0x30 + n := by
  revert n
  decide

theorem digitByte_first (n : Nat) (hlo : 1 ≤ n) (hhi : n ≤ 5) :
    0x31 ≤ digitByte n ∧ digitByte n ≤ 0x35 := by
  have hn := (digitByte_spec n (by omega)).2
  simp only [UInt8.le_iff_toNat_le, hn, UInt8.reduceToNat]
  omega

theorem parseStatus_digits (hlo : 200 ≤ status) (hhi : status ≤ 599) :
    parseStatus (lit "HTTP/1.1 " ++ statusDigits status ++ lit " ") = some (status : Int) := by
  obtain ⟨ha, ha'⟩ := digitByte_first (status / 100) (by omega) (by omega)
  obtain ⟨-, hav⟩ := digitByte_spec (status / 100) (by omega)
  obtain ⟨hb, hbv⟩ := digitByte_spec (status / 10 % 10) (by omega)
  obtain ⟨hc, hcv⟩ := digitByte_spec (status % 10) (by omega)
  have hline : lit "HTTP/1.1 " ++ statusDigits status ++ lit " " =
      lit "HTTP/1.1 " ++ (statusDigits status ++ lit " ") := List.append_assoc ..
  have hlen : (lit "HTTP/1.1 ").length = 9 := by decide
  unfold parseStatus
  rw [hline, List.drop_left' hlen, List.take_left' hlen]
  simp only [statusDigits, List.cons_append, List.nil_append, ha, ha', hb, hc, hav, hbv, hcv]
  simp only [decide_true, Bool.true_and, Bool.and_self]
  rw [if_pos (by decide)]
  congr 1
  omega

theorem statusLine_no_lf (status : Nat) (h : status ≤ 999) :
    0x0A ∉ lit "HTTP/1.1 " ++ statusDigits status ++ lit " " := by
  have hd : ∀ n < 10, digitByte n ≠ 0x0A := by decide
  have h1 := hd (status / 100) (by omega)
  have h2 := hd (status / 10 % 10) (by omega)
  have h3 := hd (status % 10) (by omega)
  simp only [List.mem_append, statusDigits, List.mem_cons, List.not_mem_nil, or_false, not_or]
  exact ⟨⟨by decide, h1.symm, h2.symm, h3.symm⟩, by decide⟩

section
variable {r : WireResponse}

theorem readHead_h1 (hr : r.Sized) (ending : GoError) :
    readHead ending r.h1 =
      ({ status := r.status, headers := (scanFields Limits.headerFields 0 r.headers).1 },
        match (scanFields Limits.headerFields 0 r.headers).2 with
        | some o => .error o.err
        | none =>
          match framing (scanFields Limits.headerFields 0 r.headers).1 with
          | .error e => .error e
          | .ok (length, chunked, encoding) =>
            .ok { status := r.status, headers := (scanFields Limits.headerFields 0 r.headers).1,
                  length := length, chunked := chunked, encoding := encoding, rest := r.body }) := by
  have hline := readLine_append ending Limits.headerValueBytes
    (lit "HTTP/1.1 " ++ statusDigits r.status ++ lit " ")
    (headerLines r.headers ++ (crlf ++ r.body)) (statusLine_no_lf r.status (le_trans hr.status_le (by decide)))
  have hlen : (lit "HTTP/1.1 " ++ statusDigits r.status ++ lit " ").length = 13 := rfl
  rw [hlen, if_neg (by decide)] at hline
  have hfields := readHeaders_lines ending Limits.headerFields 0 [] r.headers r.body hr.fields
  unfold readHead WireResponse.h1
  rw [List.append_assoc _ crlf, hline]
  dsimp only
  rw [parseStatus_digits hr.status_ge hr.status_le, hfields, List.nil_append]
  cases (scanFields Limits.headerFields 0 r.headers).2 with
  | some o => rfl
  | none => rfl

theorem readFinalHead_h1 (hr : r.Sized) (ending : GoError) (left : Nat) :
    readFinalHead ending left r.h1 = readHead ending r.h1 := by
  have hh := readHead_h1 hr ending
  have hlo := hr.status_ge
  unfold readFinalHead
  split
  · rename_i h
    exact h.symm
  · rename_i response head h
    obtain ⟨rfl, -, -⟩ := readHead_ok h
    have hs : head.status = r.status := by
      rw [hh] at h
      exact (congrArg (fun p => p.1.status) h).symm
    rw [if_pos (by simp only [hs, Bool.or_eq_true, decide_eq_true_eq]; omega), h]

end

end H1

end Repost
