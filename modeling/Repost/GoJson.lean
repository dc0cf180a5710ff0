import Repost.JsonWriting
import Repost.Serializer

namespace Repost.Ordered
open GoText Serialize StrictJson
set_option autoImplicit true

theorem digitChar_byte : ∀ d : Fin 10,
    isDigit (UInt8.ofNat (Nat.digitChar d.val).toNat) = true ∧
      (UInt8.ofNat (Nat.digitChar d.val).toNat = 0x30 → d.val = 0) := by
  decide

theorem decimal_lt (h : n < 10) : decimal n = [UInt8.ofNat (Nat.digitChar n).toNat] := by
  rw [decimal, Nat.toDigits_of_lt_base h]
  rfl

theorem decimal_ge (h : 10 ≤ n) :
    decimal n = decimal (n / 10) ++ [UInt8.ofNat (Nat.digitChar (n % 10)).toNat] := by
  rw [decimal, Nat.toDigits_of_base_le (by decide) h, List.map_append]
  rfl

theorem IntegerText.snoc (h : IntegerText w) (hne : w ≠ [0x30]) (hb : isDigit b = true) :
    IntegerText (w ++ [b]) := by
  cases h with
  | zero => exact absurd rfl hne
  | digits hd hc =>
    refine .digits ⟨nofun, ?_⟩ hc
    intro d hmem
    rcases List.mem_append.mp (List.cons_append ▸ hmem) with hmem | hmem
    · exact hd.2 d hmem
    · rw [List.mem_singleton.mp hmem]
      exact hb

/-- The digits of a number are an integer of the grammar, and no other number has the digit 0. -/
theorem decimal_integer (n : Nat) : IntegerText (decimal n) ∧ (decimal n = [0x30] → n = 0) := by
  induction n using Nat.strongRecOn with
  | ind n ih =>
    rcases Nat.lt_or_ge n 10 with h | h
    · obtain ⟨hdigit, hzero⟩ := digitChar_byte ⟨n, h⟩
      rw [decimal_lt h]
      constructor
      · by_cases hn : n = 0
        · subst hn
          exact .zero
        · apply IntegerText.digits ⟨nofun, by simpa using hdigit⟩
          exact fun heq => hn (hzero heq)
      · intro heq
        exact hzero (List.singleton_inj.mp heq)
    · obtain ⟨hint, hzero⟩ := ih (n / 10) (by omega)
      obtain ⟨hdigit, -⟩ := digitChar_byte ⟨n % 10, by omega⟩
      rw [decimal_ge h]
      constructor
      · apply IntegerText.snoc hint ?_ hdigit
        intro heq
        have := hzero heq
        omega
      · intro heq
        have hlen := congrArg List.length heq
        have hpos : 0 < (decimal (n / 10)).length := by
          obtain ⟨b, w, hw, -⟩ := hint.head
          rw [hw]
          exact Nat.succ_pos _
        simp at hlen
        rw [hlen] at hpos
        exact absurd hpos (Nat.lt_irrefl 0)

def integerText (i : Int) : Bytes := if i < 0 then 0x2D :: decimal i.natAbs else decimal i.natAbs

theorem integerText_number (i : Int) : NumberText (integerText i) := by
  have hi := (decimal_integer i.natAbs).1
  unfold integerText
  split
  · simpa using NumberText.negative hi .none .none
  · simpa using NumberText.natural hi .none .none

theorem decimal_number (n : Nat) : NumberText (decimal n) := by
  simpa using NumberText.natural (decimal_integer n).1 .none .none

def base64Digits : Bytes := lit "ABCDEFGHIJKLMNOPQRSTUVWXYZabcdefghijklmnopqrstuvwxyz0123456789+/"

def base64Digit (n : Nat) : UInt8 := base64Digits.getD (n % 64) 0

/-- `base64.StdEncoding`. -/
def base64 : Bytes → Bytes
  | [] => []
  | [a] => [base64Digit (a.toNat / 4), base64Digit (a.toNat * 16), 0x3D, 0x3D]
  | [a, b] =>
    [base64Digit (a.toNat / 4), base64Digit (a.toNat * 16 + b.toNat / 16),
      base64Digit (b.toNat * 4), 0x3D]
  | a :: b :: c :: rest =>
    [base64Digit (a.toNat / 4), base64Digit (a.toNat * 16 + b.toNat / 16),
      base64Digit (b.toNat * 4 + c.toNat / 64), base64Digit c.toNat] ++ base64 rest

example : base64 (lit "light w") = lit "bGlnaHQgdw==" := by decide

def Node.byte : Node α → UInt8
  | .uint n => UInt8.ofNat n
  | _ => 0

/-- What a value with its own `MarshalJSON` or `MarshalText` writes: the text of the JSON value that the
caller means, or another text, or nothing. -/
inductive Marshaled where
  | faithful (j : Json) (numeric : Numeric j)
  | other (text : Option Bytes)

class Marshalers (α : Type) where
  own : α → Option Marshaled

instance : Marshalers Nat := ⟨fun _ => none⟩

/-- What stands for values that are no JSON: an empty `json.Number`, values for which `validateJSON`
knows no JSON, and those that write themselves. -/
structure Conventions (α : Type) where
  blank : Option Json
  foreign : α → Option Json
  own : Marshaled → Option Json

/-- `encoding/json` writes 0 for an empty number. What it makes of other types is a parameter. Another
text is written as it is, as that of a number is. -/
def encodingJson (foreign : α → Option Json) : Conventions α where
  blank := some (.number (lit "0"))
  foreign := foreign
  own
    | .faithful j _ => some j
    | .other text => text.map .number

def strict : Conventions α where
  blank := none
  foreign _ := none
  own
    | .faithful j _ => some j
    | .other _ => none

def Conventions.number (c : Conventions α) (text : Bytes) : Option Json :=
  if text = [] then c.blank
  else if skipNumber text = some [] then some (.number text)
  else none

section
variable (view : α → Node α) (c : Conventions α)

def nodeJson (read : α → Option Json) (v : α) : Node α → Option Json
  | .nil | .map _ none | .pointer none | .slice _ none => some .null
  | .bool b => some (.bool b)
  | .int i => some (.number (integerText i))
  | .uint n => some (.number (decimal n))
  | .float (.finite f) => some (.number f.text)
  | .float _ => none
  | .string s => some (.string s)
  | .number text => c.number text
  | .map type (some entries) =>
    if type = .fromOthers && !entries.isEmpty then c.foreign v
    else (entries.mapM fun e => (read e.2).map fun j => (e.1, j)).map .object
  | .pointer (some target) => read target
  | .slice type (some items) =>
    if type = .bytes then some (.string (base64 (items.map fun w => Node.byte (view w))))
    else (items.mapM read).map .array
  | .array items => (items.mapM read).map .array
  | .time _ | .struct _ | .other => c.foreign v

variable [Marshalers α]

/-- The JSON value of a Go value of the given depth, with its strings as they are. A value on a cycle
has none. -/
def goJson : Nat → α → Option Json
  | 0, _ => none
  | n + 1, v =>
    match Marshalers.own v with
    | some m => c.own m
    | none => nodeJson view c (goJson n) v (view v)

end

theorem mapM_of_mapM {f g : α → Option β} {xs : List α} (h : ∀ x ∈ xs, ∀ y, f x = some y → g x = some y)
    (hm : xs.mapM f = some ys) : xs.mapM g = some ys := by
  induction xs generalizing ys with
  | nil => exact hm
  | cons x xs ih =>
    rw [List.mapM_cons] at hm ⊢
    obtain ⟨y, hy, hm⟩ := Option.bind_eq_some_iff.mp hm
    obtain ⟨rest, hrest, hm⟩ := Option.bind_eq_some_iff.mp hm
    rw [h x List.mem_cons_self y hy, ih (fun x' hx' => h x' (List.mem_cons_of_mem x hx')) hrest]
    exact hm

theorem mapM_all {f : α → Option β} {P : β → Prop} {xs : List α} (h : ∀ x ∈ xs, ∀ y, f x = some y → P y)
    (hm : xs.mapM f = some ys) : ∀ y ∈ ys, P y := by
  induction xs generalizing ys with
  | nil =>
    cases hm
    exact nofun
  | cons x xs ih =>
    rw [List.mapM_cons] at hm
    obtain ⟨y, hy, hm⟩ := Option.bind_eq_some_iff.mp hm
    obtain ⟨rest, hrest, hm⟩ := Option.bind_eq_some_iff.mp hm
    cases hm
    intro z hz
    rcases List.mem_cons.mp hz with rfl | hz
    · exact h x List.mem_cons_self _ hy
    · exact ih (fun x' hx' => h x' (List.mem_cons_of_mem x hx')) hrest z hz

theorem numericItems_iff (items : List Json) : NumericItems items ↔ ∀ j ∈ items, Numeric j := by
  induction items with
  | nil => simp [NumericItems]
  | cons j items ih => simp [NumericItems, ih]

theorem numericMembers_iff (ms : List (Bytes × Json)) :
    NumericMembers ms ↔ ∀ m ∈ ms, Numeric m.2 := by
  induction ms with
  | nil => simp [NumericMembers]
  | cons m ms ih => simp [NumericMembers, ih]

structure Conventions.Below (c c' : Conventions α) : Prop where
  blank : ∀ j, c.blank = some j → c'.blank = some j
  foreign : ∀ v j, c.foreign v = some j → c'.foreign v = some j
  own : ∀ m j, c.own m = some j → c'.own m = some j

theorem Conventions.Below.refl (c : Conventions α) : c.Below c :=
  ⟨fun _ h => h, fun _ _ h => h, fun _ _ h => h⟩

theorem strict_below (foreign : α → Option Json) : strict.Below (encodingJson foreign) := by
  refine ⟨fun _ h => (by cases h), fun _ _ h => (by cases h), fun m j h => ?_⟩
  cases m with
  | faithful j' _ => exact h
  | other text => cases h

theorem Conventions.Below.number {c c' : Conventions α} (hc : c.Below c')
    (h : c.number text = some j) : c'.number text = some j := by
  unfold Conventions.number at h ⊢
  split
  case isTrue hb =>
    rw [if_pos hb] at h
    exact hc.blank j h
  case isFalse hb =>
    rwa [if_neg hb] at h

section
variable {view : α → Node α} {c c' : Conventions α}

theorem mapM_map_mono {wrap : List β → Json} {f : γ → Option β}
    {f' : γ → Option β} {xs : List γ} (hf : ∀ x y, f x = some y → f' x = some y)
    (h : (xs.mapM f).map wrap = some j) : (xs.mapM f').map wrap = some j := by
  obtain ⟨ys, hys, rfl⟩ := Option.map_eq_some_iff.mp h
  rw [mapM_of_mapM (fun x _ y hy => hf x y hy) hys]
  rfl

theorem nodeJson_mono {read read' : α → Option Json} (hc : c.Below c')
    (hread : ∀ w j, read w = some j → read' w = some j) (node : Node α)
    (h : nodeJson view c read v node = some j) : nodeJson view c' read' v node = some j := by
  cases node with
  | number text => exact hc.number h
  | map type entries =>
    cases entries with
    | none => exact h
    | some entries =>
      simp only [nodeJson] at h ⊢
      split
      case isTrue hothers =>
        rw [if_pos hothers] at h
        exact hc.foreign v j h
      case isFalse hothers =>
        rw [if_neg hothers] at h
        refine mapM_map_mono (fun e m hm => ?_) h
        obtain ⟨j', hj, rfl⟩ := Option.map_eq_some_iff.mp hm
        rw [hread _ _ hj]
        rfl
  | pointer target =>
    cases target with
    | none => exact h
    | some target => exact hread target j h
  | slice type items =>
    cases items with
    | none => exact h
    | some items =>
      simp only [nodeJson] at h ⊢
      split
      case isTrue hbytes => rwa [if_pos hbytes] at h
      case isFalse hbytes =>
        rw [if_neg hbytes] at h
        exact mapM_map_mono hread h
  | array items => exact mapM_map_mono hread h
  | time _ | struct _ | other => exact hc.foreign v j h
  | float f => cases f <;> exact h
  | nil | bool _ | int _ | uint _ | string _ => exact h

variable [Marshalers α]

theorem goJson_mono (hc : c.Below c') (hnm : n ≤ m) (h : goJson view c n v = some j) :
    goJson view c' m v = some j := by
  induction n generalizing m v j with
  | zero => cases h
  | succ n ih =>
    obtain ⟨m, rfl⟩ : ∃ k, m = k + 1 := ⟨m - 1, by omega⟩
    unfold goJson at h ⊢
    cases hown : Marshalers.own v with
    | some own =>
      simp only [hown] at h ⊢
      exact hc.own own j h
    | none =>
      simp only [hown] at h ⊢
      exact nodeJson_mono hc (fun w j => ih (Nat.le_of_succ_le_succ hnm)) (view v) h

omit [Marshalers α]

theorem strict_number (h : (strict : Conventions α).number text = some j) : Numeric j := by
  unfold Conventions.number at h
  split at h
  · cases h
  · split at h
    · rename_i hskip
      cases h
      obtain ⟨w, hw, heq⟩ := skipNumber_split hskip
      rw [List.append_nil] at heq
      exact heq ▸ hw
    · cases h

theorem nodeJson_numeric {read : α → Option Json} (hread : ∀ w j, read w = some j → Numeric j)
    (node : Node α) (h : nodeJson view strict read v node = some j) : Numeric j := by
  cases node with
  | number text => exact strict_number h
  | map type entries =>
    cases entries with
    | none => cases h; trivial
    | some entries =>
      simp only [nodeJson] at h
      split at h
      · cases h
      · obtain ⟨ms, hms, rfl⟩ := Option.map_eq_some_iff.mp h
        refine (numericMembers_iff ms).mpr (mapM_all (fun e _ m hm => ?_) hms)
        obtain ⟨j', hj, rfl⟩ := Option.map_eq_some_iff.mp hm
        exact hread _ _ hj
  | pointer target =>
    cases target with
    | none => cases h; trivial
    | some target => exact hread target j h
  | slice type items =>
    cases items with
    | none => cases h; trivial
    | some items =>
      simp only [nodeJson] at h
      split at h
      · cases h
        trivial
      · obtain ⟨js, hjs, rfl⟩ := Option.map_eq_some_iff.mp h
        exact (numericItems_iff js).mpr (mapM_all (fun w _ => hread w) hjs)
  | array items =>
    obtain ⟨js, hjs, rfl⟩ := Option.map_eq_some_iff.mp h
    exact (numericItems_iff js).mpr (mapM_all (fun w _ => hread w) hjs)
  | int i => cases h; exact integerText_number i
  | uint n => cases h; exact decimal_number n
  | float f =>
    cases f with
    | finite f => cases h; exact f.grammatical
    | nan | infinite => cases h
  | time _ | struct _ | other => cases h
  | nil | bool _ | string _ => cases h; trivial

theorem goJson_numeric [Marshalers α] (h : goJson view strict n v = some j) : Numeric j := by
  induction n generalizing v j with
  | zero => cases h
  | succ n ih =>
    unfold goJson at h
    cases hown : Marshalers.own v with
    | some own =>
      simp only [hown] at h
      cases own with
      | faithful j hj =>
        cases h
        exact hj
      | other text => cases h
    | none =>
      simp only [hown] at h
      exact nodeJson_numeric (fun w j => ih) (view v) h

end

end Repost.Ordered
