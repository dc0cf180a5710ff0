import Repost.StrictJson

namespace Repost.StrictJson
open GoText
set_option autoImplicit true

def Blanks (text rest : Bytes) : Prop := ∃ w, text = w ++ rest ∧ ∀ b ∈ w, isSpace b = true

def Digits (w : Bytes) : Prop := w ≠ [] ∧ ∀ b ∈ w, isDigit b = true

inductive IntegerText : Bytes → Prop
  | zero : IntegerText [0x30]
  | digits (h : Digits (b :: w)) (hb : b ≠ 0x30) : IntegerText (b :: w)

inductive FractionText : Bytes → Prop
  | none : FractionText []
  | digits (h : Digits w) : FractionText (0x2E :: w)

inductive ExponentText : Bytes → Prop
  | none : ExponentText []
  | digits (he : e = 0x65 ∨ e = 0x45) (h : Digits w) : ExponentText (e :: w)
  | signed (he : e = 0x65 ∨ e = 0x45) (hs : c = 0x2B ∨ c = 0x2D) (h : Digits w) :
      ExponentText (e :: c :: w)

/-- An optional minus, an integer, an optional fraction and an optional exponent. -/
inductive NumberText : Bytes → Prop
  | natural (hi : IntegerText i) (hf : FractionText f) (he : ExponentText e) :
      NumberText (i ++ (f ++ e))
  | negative (hi : IntegerText i) (hf : FractionText f) (he : ExponentText e) :
      NumberText (0x2D :: (i ++ (f ++ e)))

/-- The characters of a string up to its closing quote, and the bytes they stand for. -/
inductive Chars : Bytes → Bytes → Bytes → Prop
  | close : Chars (0x22 :: rest) [] rest
  | plain (hb : ¬ b < 0x20) (hq : b ≠ 0x22) (he : b ≠ 0x5C) (h : Chars text s rest) :
      Chars (b :: text) (b :: s) rest
  | escape (hc : simpleEscape c = some e) (h : Chars text s rest) :
      Chars (0x5C :: c :: text) (e :: s) rest
  | scalar (hu : hexUnit a b c d = some unit) (hh : isHighSurrogate unit = false)
      (hl : isLowSurrogate unit = false) (h : Chars text s rest) :
      Chars (0x5C :: 0x75 :: a :: b :: c :: d :: text) (encodeRune unit ++ s) rest
  | pair (hu : hexUnit a b c d = some high) (hh : isHighSurrogate high = true)
      (hu' : hexUnit a' b' c' d' = some low) (hl : isLowSurrogate low = true)
      (h : Chars text s rest) :
      Chars (0x5C :: 0x75 :: a :: b :: c :: d :: 0x5C :: 0x75 :: a' :: b' :: c' :: d' :: text)
        (encodeRune (joinSurrogates high low) ++ s) rest

def boolText (b : Bool) : Bytes := lit (if b then "true" else "false")

mutual

inductive Denotes : Bytes → Json → Bytes → Prop
  | null : Denotes (lit "null" ++ rest) .null rest
  | bool : Denotes (boolText b ++ rest) (.bool b) rest
  | number (h : NumberText w) : Denotes (w ++ rest) (.number w) rest
  | string (h : Chars text s rest) : Denotes (0x22 :: text) (.string s) rest
  | emptyArray (h : Blanks text (0x5D :: rest)) : Denotes (0x5B :: text) (.array []) rest
  | array (h : Elements text items rest) : Denotes (0x5B :: text) (.array items) rest
  | emptyObject (h : Blanks text (0x7D :: rest)) : Denotes (0x7B :: text) (.object []) rest
  | object (h : Members text ms rest) : Denotes (0x7B :: text) (.object ms) rest

inductive Elements : Bytes → List Json → Bytes → Prop
  | last (hb : Blanks text t₁) (hv : Denotes t₁ v t₂) (he : Blanks t₂ (0x5D :: rest)) :
      Elements text [v] rest
  | more (hb : Blanks text t₁) (hv : Denotes t₁ v t₂) (hc : Blanks t₂ (0x2C :: t₃))
      (h : Elements t₃ items rest) : Elements text (v :: items) rest

inductive Members : Bytes → List (Bytes × Json) → Bytes → Prop
  | last (hb : Blanks text (0x22 :: t₁)) (hk : Chars t₁ key t₂) (hc : Blanks t₂ (0x3A :: t₃))
      (hb' : Blanks t₃ t₄) (hv : Denotes t₄ v t₅) (he : Blanks t₅ (0x7D :: rest)) :
      Members text [(key, v)] rest
  | more (hb : Blanks text (0x22 :: t₁)) (hk : Chars t₁ key t₂) (hc : Blanks t₂ (0x3A :: t₃))
      (hb' : Blanks t₃ t₄) (hv : Denotes t₄ v t₅) (hm : Blanks t₅ (0x2C :: t₆))
      (h : Members t₆ ms rest) : Members text ((key, v) :: ms) rest

end

def Document (data : Bytes) (v : Json) : Prop :=
  ∃ text rest, Blanks data text ∧ Denotes text v rest ∧ Blanks rest []

mutual

def Json.nodes : Json → List Json
  | .null => [.null]
  | .bool b => [.bool b]
  | .number w => [.number w]
  | .string s => [.string s]
  | .array items => .array items :: itemNodes items
  | .object ms => .object ms :: memberNodes ms

def itemNodes : List Json → List Json
  | [] => []
  | v :: items => v.nodes ++ itemNodes items

def memberNodes : List (Bytes × Json) → List Json
  | [] => []
  | (_, v) :: ms => v.nodes ++ memberNodes ms

end

mutual

def Json.depth : Json → Nat
  | .array items => 1 + itemDepth items
  | .object ms => 1 + memberDepth ms
  | _ => 0

def itemDepth : List Json → Nat
  | [] => 0
  | v :: items => max v.depth (itemDepth items)

def memberDepth : List (Bytes × Json) → Nat
  | [] => 0
  | (_, v) :: ms => max v.depth (memberDepth ms)

end

/-- A scalar is a token, and so are each bracket and each name. -/
def Json.weight : Json → Nat
  | .array _ => 2
  | .object ms => 2 + ms.length
  | _ => 1

def weights (vs : List Json) : Nat := (vs.map Json.weight).sum

def Json.tokens (v : Json) : Nat := weights v.nodes

def Distinct (vs : List Json) : Prop :=
  ∀ ms, Json.object ms ∈ vs → (ms.map Prod.fst).Nodup

def Json.Small : Json → Prop
  | .number w => w.length ≤ maxNumberChars
  | .string s => s.length ≤ maxScalarStringUTF8Bytes
  | .object ms =>
    ms.length ≤ maxMembersPerObject ∧ ∀ m ∈ ms, m.1.length ≤ maxFieldNameUTF8Bytes
  | _ => True

structure Json.WithinLimits (v : Json) : Prop where
  depth : v.depth ≤ maxNestingDepth
  tokens : v.tokens ≤ maxTokens
  small : ∀ n ∈ v.nodes, n.Small

end Repost.StrictJson
