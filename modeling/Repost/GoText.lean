import Mathlib

namespace GoText
set_option autoImplicit true

abbrev Bytes := List UInt8

def lit (s : String) : Bytes := s.toByteArray.data.toList

def isContinuation (b : UInt8) : Bool := 0x80 ≤ b && b ≤ 0xBF

/-- What the second byte of a multi-byte sequence must be, given the first one. -/
def secondByteOK (b0 b1 : UInt8) : Bool :=
  if b0 == 0xE0 then 0xA0 ≤ b1 && b1 ≤ 0xBF
  else if b0 == 0xED then 0x80 ≤ b1 && b1 ≤ 0x9F
  else if b0 == 0xF0 then 0x90 ≤ b1 && b1 ≤ 0xBF
  else if b0 == 0xF4 then 0x80 ≤ b1 && b1 ≤ 0x8F
  else isContinuation b1

/-- `utf8.Valid`. -/
def validUTF8 : Bytes → Bool
  | [] => true
  | b0 :: rest =>
    if b0 < 0x80 then validUTF8 rest
    else if 0xC2 ≤ b0 && b0 ≤ 0xDF then
      match rest with
      | b1 :: rest => isContinuation b1 && validUTF8 rest
      | _ => false
    else if 0xE0 ≤ b0 && b0 ≤ 0xEF then
      match rest with
      | b1 :: b2 :: rest => secondByteOK b0 b1 && isContinuation b2 && validUTF8 rest
      | _ => false
    else if 0xF0 ≤ b0 && b0 ≤ 0xF4 then
      match rest with
      | b1 :: b2 :: b3 :: rest =>
        secondByteOK b0 b1 && isContinuation b2 && isContinuation b3 && validUTF8 rest
      | _ => false
    else false

/-- One step of the decoder: an ASCII byte, a longer sequence of valid UTF-8, or one byte that is
part of none. -/
inductive Rune where
  | ascii (b : UInt8)
  | wide (bytes : Bytes)
  | invalid
  deriving DecidableEq

/-- `for _, r := range s`, with the bytes of each valid rune. -/
def runes : Bytes → List Rune
  | [] => []
  | b0 :: rest =>
    if b0 < 0x80 then .ascii b0 :: runes rest
    else if 0xC2 ≤ b0 && b0 ≤ 0xDF then
      match rest with
      | b1 :: tail =>
        if isContinuation b1 then .wide [b0, b1] :: runes tail else .invalid :: runes (b1 :: tail)
      | [] => [.invalid]
    else if 0xE0 ≤ b0 && b0 ≤ 0xEF then
      match rest with
      | b1 :: b2 :: tail =>
        if secondByteOK b0 b1 && isContinuation b2 then .wide [b0, b1, b2] :: runes tail
        else .invalid :: runes (b1 :: b2 :: tail)
      | short => .invalid :: runes short
    else if 0xF0 ≤ b0 && b0 ≤ 0xF4 then
      match rest with
      | b1 :: b2 :: b3 :: tail =>
        if secondByteOK b0 b1 && isContinuation b2 && isContinuation b3 then
          .wide [b0, b1, b2, b3] :: runes tail
        else .invalid :: runes (b1 :: b2 :: b3 :: tail)
      | short => .invalid :: runes short
    else .invalid :: runes rest

def encodeRune (r : Nat) : Bytes :=
  if r < 0x80 then [UInt8.ofNat r]
  else if r < 0x800 then [UInt8.ofNat (0xC0 + r / 0x40), UInt8.ofNat (0x80 + r % 0x40)]
  else if r < 0x10000 then
    [UInt8.ofNat (0xE0 + r / 0x1000), UInt8.ofNat (0x80 + r / 0x40 % 0x40),
      UInt8.ofNat (0x80 + r % 0x40)]
  else
    [UInt8.ofNat (0xF0 + r / 0x40000), UInt8.ofNat (0x80 + r / 0x1000 % 0x40),
      UInt8.ofNat (0x80 + r / 0x40 % 0x40), UInt8.ofNat (0x80 + r % 0x40)]

/-- The number of code points of a valid string (`utf8.RuneCountInString`). -/
def runeCount (s : Bytes) : Nat := (s.filter (fun b => !isContinuation b)).length

def asciiLower (b : UInt8) : UInt8 := if 0x41 ≤ b && b ≤ 0x5A then b + 0x20 else b

def isDigit (b : UInt8) : Bool := 0x30 ≤ b && b ≤ 0x39

def isLetter (b : UInt8) : Bool := 0x61 ≤ asciiLower b && asciiLower b ≤ 0x7A

/-- `strings.EqualFold(s, t)` for an ASCII `t`. Outside ASCII only the Kelvin sign and the long
s fold to an ASCII letter. -/
def equalFold : Bytes → Bytes → Bool
  | [], [] => true
  | 0xE2 :: 0x84 :: 0xAA :: s, c :: t => asciiLower c == 0x6B && equalFold s t
  | 0xC5 :: 0xBF :: s, c :: t => asciiLower c == 0x73 && equalFold s t
  | b :: s, c :: t => asciiLower b == asciiLower c && equalFold s t
  | _, _ => false

/-- `strings.ToLower(s) == t` for a lower-case ASCII `t`. Outside ASCII only the dotted capital I
and the Kelvin sign have an ASCII lower case. -/
def lowersTo : Bytes → Bytes → Bool
  | [], [] => true
  | 0xC4 :: 0xB0 :: s, c :: t => c == 0x69 && lowersTo s t
  | 0xE2 :: 0x84 :: 0xAA :: s, c :: t => c == 0x6B && lowersTo s t
  | b :: s, c :: t => asciiLower b == c && lowersTo s t
  | _, _ => false

/-- `strings.Trim(s, " \t")`. -/
def trimOWS (s : Bytes) : Bytes :=
  let blank := fun b : UInt8 => b == 0x20 || b == 0x09
  ((s.dropWhile blank).reverse.dropWhile blank).reverse

/-- `strings.Cut` at a single byte. -/
def cut (sep : UInt8) : Bytes → Bytes × Option Bytes
  | [] => ([], none)
  | b :: s =>
    if b == sep then ([], some s)
    else
      match cut sep s with
      | (before, after) => (b :: before, after)

def digitValue (b : UInt8) : Option Nat :=
  if isDigit b then some (b.toNat - 0x30)
  else if isLetter b then some ((asciiLower b).toNat - 0x61 + 10)
  else none

def digits (base : Nat) : Nat → Bytes → Option Nat
  | acc, [] => some acc
  | acc, b :: s =>
    match digitValue b with
    | some d => if d < base then digits base (acc * base + d) s else none
    | none => none

/-- `strconv.ParseUint(s, base, bits)`; both kinds of error are `none`. -/
def parseUint (base bits : Nat) (s : Bytes) : Option Nat :=
  if s = [] then none
  else
    match digits base 0 s with
    | some n => if n < 2 ^ bits then some n else none
    | none => none

end GoText
