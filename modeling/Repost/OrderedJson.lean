import Repost.Descriptor
import Repost.Response

namespace Repost.Ordered
open GoText Serialize
set_option autoImplicit true

/-- What `encoding/json` writes for a rune of a string when it does not escape for HTML. -/
def escapedRune : Rune → Bytes
  | .invalid => lit "\\ufffd"
  | .wide [0xE2, 0x80, 0xA8] => lit "\\u2028"
  | .wide [0xE2, 0x80, 0xA9] => lit "\\u2029"
  | r => quoteRune r

def encodeString (s : Bytes) : Bytes := [0x22] ++ (runes s).flatMap escapedRune ++ [0x22]

/-- A value in an ordered object: another one, a `[]any`, a string, or any other value. -/
inductive Tree (β : Type) where
  | nilObject
  | object (members : List (Bytes × Tree β))
  | nilList
  | list (items : List (Tree β))
  | string (s : Bytes)
  | value (v : β)

def separator (first : Bool) : Bytes := if first then [] else [0x2C]

section
variable (encode : β → Option Bytes)

mutual

/-- `encodeJSONValue`, given how `encoding/json` writes the other values. -/
def Tree.text : Tree β → Option Bytes
  | .nilObject | .nilList => some (lit "null")
  | .object members => (membersText true members).map fun body => [0x7B] ++ body ++ [0x7D]
  | .list items => (itemsText true items).map fun body => [0x5B] ++ body ++ [0x5D]
  | .string s => some (encodeString s)
  | .value v => encode v

def membersText (first : Bool) : List (Bytes × Tree β) → Option Bytes
  | [] => some []
  | (key, value) :: rest => do
    let text ← value.text
    let others ← membersText false rest
    return separator first ++ (encodeString key ++ ([0x3A] ++ (text ++ others)))

def itemsText (first : Bool) : List (Tree β) → Option Bytes
  | [] => some []
  | item :: rest => do
    let text ← item.text
    let others ← itemsText false rest
    return separator first ++ (text ++ others)

end

/-- `MarshalJSON`. -/
def marshalJSON (members : List (Bytes × Tree β)) : Option Bytes := (Tree.object members).text encode

/-- Why the encoder with a limit stops: `errJSONLimit`, an error of `encoding/json`, or the keys of a
nil object. -/
inductive Stop where
  | limit
  | failed
  | panicked
  deriving DecidableEq

/-- `limitedJSONEncoder`; the state is its buffer. -/
abbrev Encoder := EStateM Stop Bytes Unit

section
variable (limit : Nat)

def remaining (buffer : Bytes) : Int := int64 (limit + 1 - buffer.length)

def write (data : Bytes) : Encoder := fun buffer =>
  if remaining limit buffer ≤ 0 then .error .limit buffer
  else
    let written := buffer ++ data.take (remaining limit buffer).toNat
    if limit < written.length then .error .limit written else .ok () written

def fillLimit : Encoder := fun buffer =>
  if 0 < remaining limit buffer then
    .error .limit (buffer ++ List.replicate (remaining limit buffer).toNat 0)
  else .error .limit buffer

def limitedString (s : Bytes) : Encoder := fun buffer =>
  if remaining limit buffer < s.length + 2 then fillLimit limit buffer
  else write limit (encodeString s) buffer

def limitedSeparator (first : Bool) : Encoder := if first then pure () else write limit [0x2C]

mutual

def Tree.limited : Tree β → Encoder
  | .nilObject => do
    write limit [0x7B]
    throw .panicked
  | .object members => do
    write limit [0x7B]
    limitedMembers true members
    write limit [0x7D]
  | .nilList => do
    write limit [0x5B]
    write limit [0x5D]
  | .list items => do
    write limit [0x5B]
    limitedItems true items
    write limit [0x5D]
  | .string s => limitedString limit s
  | .value v =>
    match encode v with
    | some encoded => write limit encoded
    | none => throw .failed

def limitedMembers (first : Bool) : List (Bytes × Tree β) → Encoder
  | [] => pure ()
  | (key, value) :: rest => do
    limitedSeparator limit first
    limitedString limit key
    write limit [0x3A]
    value.limited
    limitedMembers false rest

def limitedItems (first : Bool) : List (Tree β) → Encoder
  | [] => pure ()
  | item :: rest => do
    limitedSeparator limit first
    item.limited
    limitedItems false rest

end

end

def buffered : EStateM.Result Stop Bytes Unit → Bytes
  | .ok _ buffer | .error _ buffer => buffer

/-- `errJSONLimit` is no error to the caller. -/
def forgiven : EStateM.Result Stop Bytes Unit → Except Stop Bytes
  | .ok _ buffer | .error .limit buffer => .ok buffer
  | .error stop _ => .error stop

def marshalJSONLimit (limit : Nat) (members : List (Bytes × Tree β)) : Except Stop Bytes :=
  forgiven ((Tree.object members).limited encode limit [])

end

/-- What an encoder without a limit would write, and why it would stop. -/
abbrev Reach := Bytes × Option Stop

def Reach.andThen (a b : Reach) : Reach :=
  match a.2 with
  | none => (a.1 ++ b.1, b.2)
  | some _ => a

section
variable (encode : β → Option Bytes)

mutual

/-- The bytes of a tree in front of its first nil object, with every nil list written as an empty
one. -/
def Tree.reach : Tree β → Reach
  | .nilObject => ([0x7B], some .panicked)
  | .object members =>
    Reach.andThen ([0x7B], none) ((membersReach true members).andThen ([0x7D], none))
  | .nilList => ([0x5B, 0x5D], none)
  | .list items => Reach.andThen ([0x5B], none) ((itemsReach true items).andThen ([0x5D], none))
  | .string s => (encodeString s, none)
  | .value v =>
    match encode v with
    | some encoded => (encoded, none)
    | none => ([], some .failed)

def membersReach (first : Bool) : List (Bytes × Tree β) → Reach
  | [] => ([], none)
  | (key, value) :: rest =>
    Reach.andThen (separator first ++ (encodeString key ++ [0x3A]), none)
      (value.reach.andThen (membersReach false rest))

def itemsReach (first : Bool) : List (Tree β) → Reach
  | [] => ([], none)
  | item :: rest =>
    Reach.andThen (separator first, none) (item.reach.andThen (itemsReach false rest))

end

end

def maxInt : Nat := 2 ^ 63 - 1

/-- How an encoder ends that has filled the buffer as far as it reaches. -/
def ended (buffer : Bytes) : Option Stop → EStateM.Result Stop Bytes Unit
  | none => .ok () buffer
  | some stop => .error stop buffer

/-- From a buffer within the limit, an encoder either fills it up or writes all it reaches. -/
def Emits (limit : Nat) (m : Encoder) (reach : Reach) : Prop :=
  ∀ buffer : Bytes, buffer.length ≤ limit →
    if limit < (buffer ++ reach.1).length then
      ∃ full : Bytes, m buffer = .error .limit full ∧ full.length = limit + 1
    else m buffer = ended (buffer ++ reach.1) reach.2

theorem Emits.overflow (h : Emits limit m reach) (hb : buffer.length ≤ limit)
    (hl : limit < (buffer ++ reach.1).length) :
    ∃ full : Bytes, m buffer = .error .limit full ∧ full.length = limit + 1 := by
  have he := h buffer hb
  rwa [if_pos hl] at he

theorem Emits.fits (h : Emits limit m (text, none)) (hl : (buffer ++ text).length ≤ limit) :
    m buffer = .ok () (buffer ++ text) := by
  have hb : buffer.length ≤ limit := by
    rw [List.length_append] at hl
    omega
  have he := h buffer hb
  rwa [if_neg (Nat.not_lt.mpr hl)] at he

theorem Emits.stops (h : Emits limit m (text, some stop)) (hl : (buffer ++ text).length ≤ limit) :
    m buffer = .error stop (buffer ++ text) := by
  have hb : buffer.length ≤ limit := by
    rw [List.length_append] at hl
    omega
  have he := h buffer hb
  rwa [if_neg (Nat.not_lt.mpr hl)] at he

theorem run_of_ok {m m' : Encoder} (h : m buffer = .ok () written) :
    (do m; m' : Encoder) buffer = m' written := by
  change EStateM.bind m (fun _ => m') buffer = m' written
  simp only [EStateM.bind, h]

theorem run_of_error {m m' : Encoder} (h : m buffer = .error stop written) :
    (do m; m' : Encoder) buffer = .error stop written := by
  change EStateM.bind m (fun _ => m') buffer = .error stop written
  simp only [EStateM.bind, h]

theorem Emits.seq {m m' : Encoder} (h : Emits limit m a) (h' : Emits limit m' b) :
    Emits limit (do m; m') (a.andThen b) := by
  obtain ⟨text, stop⟩ := a
  intro buffer hb
  cases stop with
  | some stop =>
    change if limit < (buffer ++ text).length then _ else _ = ended _ (some stop)
    by_cases hl : limit < (buffer ++ text).length
    · obtain ⟨full, hm, hf⟩ := h.overflow hb hl
      rw [if_pos hl]
      exact ⟨full, run_of_error hm, hf⟩
    · rw [if_neg hl]
      exact run_of_error (h.stops (Nat.not_lt.mp hl))
  | none =>
    have happ : buffer ++ (Reach.andThen (text, none) b).1 = (buffer ++ text) ++ b.1 := by
      simp [Reach.andThen]
    rw [happ]
    by_cases hl : limit < (buffer ++ text).length
    · obtain ⟨full, hm, hf⟩ := h.overflow hb hl
      have hlong : limit < (buffer ++ text ++ b.1).length := by
        rw [List.length_append]
        omega
      rw [if_pos hlong]
      exact ⟨full, run_of_error hm, hf⟩
    · have hm := h.fits (Nat.not_lt.mp hl)
      rw [run_of_ok hm]
      exact h' (buffer ++ text) (Nat.not_lt.mp hl)

theorem remaining_eq (hl : limit < maxInt) (hb : buffer.length ≤ limit + 1) :
    remaining limit buffer = (limit + 1 - buffer.length : Nat) := by
  unfold maxInt at hl
  unfold remaining int64
  rw [Int.bmod_eq_of_le] <;> omega

theorem write_emits (hl : limit < maxInt) (data : Bytes) : Emits limit (write limit data) (data, none) := by
  intro buffer hb
  have hr := remaining_eq hl (Nat.le_succ_of_le hb)
  have hpos : ¬ remaining limit buffer ≤ 0 := by omega
  have hnat : (remaining limit buffer).toNat = limit + 1 - buffer.length := by omega
  simp only [write, if_neg hpos, hnat]
  split
  case isTrue hlong =>
    rw [List.length_append] at hlong
    have hfull : (buffer ++ data.take (limit + 1 - buffer.length)).length = limit + 1 := by
      rw [List.length_append, List.length_take]
      omega
    rw [if_pos (by omega)]
    exact ⟨_, rfl, hfull⟩
  case isFalse hshort =>
    rw [List.length_append] at hshort
    rw [List.take_of_length_le (by omega), if_neg (by rw [List.length_append]; omega)]
    rfl

def width : Rune → Nat
  | .ascii _ | .invalid => 1
  | .wide bytes => bytes.length

theorem sum_width (s : Bytes) : ((runes s).map width).sum = s.length := by
  fun_induction runes s <;> simp_all [width] <;> omega

theorem width_le_escapedRune (r : Rune) : width r ≤ (escapedRune r).length := by
  cases r with
  | invalid => decide
  | ascii b =>
    change 1 ≤ (quoteRune (.ascii b)).length
    unfold quoteRune
    split
    all_goals try exact Nat.le_succ _
    · split <;> simp [unicodeEscape]
    · simp_all
  | wide bytes =>
    unfold escapedRune
    split
    · contradiction
    case h_2 h => cases h; decide
    case h_3 h => cases h; decide
    · exact Nat.le_refl _

theorem encodeString_length (s : Bytes) : s.length + 2 ≤ (encodeString s).length := by
  have hbody : s.length ≤ ((runes s).flatMap escapedRune).length := by
    rw [List.length_flatMap, ← sum_width s]
    exact List.sum_le_sum fun r _ => width_le_escapedRune r
  simp only [encodeString, List.length_append, List.length_cons, List.length_nil]
  omega

theorem fillLimit_run (hl : limit < maxInt) (hb : buffer.length ≤ limit) :
    ∃ full : Bytes, fillLimit limit buffer = .error .limit full ∧ full.length = limit + 1 := by
  have hr := remaining_eq hl (Nat.le_succ_of_le hb)
  have hpos : 0 < remaining limit buffer := by omega
  simp only [fillLimit, if_pos hpos]
  refine ⟨_, rfl, ?_⟩
  rw [List.length_append, List.length_replicate]
  omega

theorem limitedString_emits (hl : limit < maxInt) (s : Bytes) :
    Emits limit (limitedString limit s) (encodeString s, none) := by
  intro buffer hb
  have hr := remaining_eq hl (Nat.le_succ_of_le hb)
  have hlen := encodeString_length s
  by_cases hlong : remaining limit buffer < s.length + 2
  · simp only [limitedString, if_pos hlong]
    rw [if_pos (by rw [List.length_append]; omega)]
    exact fillLimit_run hl hb
  · simp only [limitedString, if_neg hlong]
    exact write_emits hl (encodeString s) buffer hb

theorem pure_emits : Emits limit (pure ()) ([], none) := by
  intro buffer hb
  rw [List.append_nil, if_neg (Nat.not_lt.mpr hb)]
  rfl

theorem throw_emits (stop : Stop) : Emits limit (throw stop) ([], some stop) := by
  intro buffer hb
  rw [List.append_nil, if_neg (Nat.not_lt.mpr hb)]
  rfl

theorem limitedSeparator_emits (hl : limit < maxInt) (first : Bool) :
    Emits limit (limitedSeparator limit first) (separator first, none) := by
  cases first with
  | true => exact pure_emits
  | false => exact write_emits hl [0x2C]

theorem Emits.of_eq (h : Emits limit m a) (he : a = b) : Emits limit m b := he ▸ h

section
variable {encode : β → Option Bytes}

@[simp] theorem Reach.andThen_none (text : Bytes) (b : Reach) :
    Reach.andThen (text, none) b = (text ++ b.1, b.2) := rfl

mutual

theorem Tree.limited_emits (hl : limit < maxInt) :
    ∀ t : Tree β, Emits limit (t.limited encode limit) (t.reach encode)
  | .nilObject => (write_emits hl [0x7B]).seq (throw_emits .panicked)
  | .object members =>
    (write_emits hl [0x7B]).seq ((limitedMembers_emits hl true members).seq (write_emits hl [0x7D]))
  | .nilList => (write_emits hl [0x5B]).seq (write_emits hl [0x5D])
  | .list items =>
    (write_emits hl [0x5B]).seq ((limitedItems_emits hl true items).seq (write_emits hl [0x5D]))
  | .string s => limitedString_emits hl s
  | .value v => by
    unfold Tree.limited Tree.reach
    cases encode v with
    | some encoded => exact write_emits hl encoded
    | none => exact throw_emits .failed

theorem limitedMembers_emits (hl : limit < maxInt) (first : Bool) :
    ∀ members : List (Bytes × Tree β),
      Emits limit (limitedMembers encode limit first members) (membersReach encode first members)
  | [] => pure_emits
  | (key, value) :: rest => by
    have hsep := limitedSeparator_emits hl first
    have hkey := (limitedString_emits hl key).seq ((write_emits hl [0x3A]).seq
      ((Tree.limited_emits hl value).seq (limitedMembers_emits hl false rest)))
    apply (hsep.seq hkey).of_eq
    simp [membersReach]

theorem limitedItems_emits (hl : limit < maxInt) (first : Bool) :
    ∀ items : List (Tree β),
      Emits limit (limitedItems encode limit first items) (itemsReach encode first items)
  | [] => pure_emits
  | item :: rest =>
    (limitedSeparator_emits hl first).seq
      ((Tree.limited_emits hl item).seq (limitedItems_emits hl false rest))

end

end
end Repost.Ordered
