import Repost.GoText

namespace Repost.StrictJson
open GoText
set_option autoImplicit true

def maxDocumentBytes : Nat := 1048576
def maxNestingDepth : Nat := 32
def maxTokens : Nat := 10000
def maxFieldNameUTF8Bytes : Nat := 64
def maxScalarStringUTF8Bytes : Nat := 8192
def maxScalarStringChars : Nat := 8192
def maxNumberChars : Nat := 128
def maxMembersPerObject : Nat := 16

inductive Failure where
  | protocol | limit
  deriving DecidableEq

/-- A decoded document. Numbers keep their text, objects their member order. -/
inductive Json where
  | null
  | bool (b : Bool)
  | number (text : Bytes)
  | string (s : Bytes)
  | array (items : List Json)
  | object (members : List (Bytes × Json))

structure Scanner where
  rest : Bytes
  tokens : Nat := 0

def isSpace (b : UInt8) : Bool := b == 0x20 || b == 0x09 || b == 0x0A || b == 0x0D

namespace Scanner

def whitespace (s : Scanner) : Scanner := { s with rest := s.rest.dropWhile isSpace }

def token (s : Scanner) : Except Failure Scanner :=
  if s.tokens + 1 > maxTokens then .error .limit else .ok { s with tokens := s.tokens + 1 }

def consume (b : UInt8) (s : Scanner) : Option Scanner :=
  match s.rest with
  | c :: rest => if c == b then some { s with rest := rest } else none
  | [] => none

def literal (word : Bytes) (s : Scanner) : Except Failure Scanner :=
  if word.isPrefixOf s.rest then do
    let s ← s.token
    return { s with rest := s.rest.drop word.length }
  else .error .protocol

end Scanner

def hexDigit (b : UInt8) : Option Nat :=
  match digitValue b with
  | some d => if d < 16 then some d else none
  | none => none

def hexUnit (a b c d : UInt8) : Option Nat := do
  let a ← hexDigit a
  let b ← hexDigit b
  let c ← hexDigit c
  let d ← hexDigit d
  return ((a * 16 + b) * 16 + c) * 16 + d

def isHighSurrogate (u : Nat) : Bool := 0xD800 ≤ u && u ≤ 0xDBFF

def isLowSurrogate (u : Nat) : Bool := 0xDC00 ≤ u && u ≤ 0xDFFF

def simpleEscape (b : UInt8) : Option UInt8 :=
  if b == 0x22 || b == 0x5C || b == 0x2F then some b
  else if b == 0x62 then some 0x08
  else if b == 0x66 then some 0x0C
  else if b == 0x6E then some 0x0A
  else if b == 0x72 then some 0x0D
  else if b == 0x74 then some 0x09
  else none

/-- Put scanned bytes in front of the rest of a string literal. -/
def prepend (bytes : Bytes) (r : Except Failure (Bytes × Bytes)) : Except Failure (Bytes × Bytes) :=
  match r with
  | .ok (raw, rest) => .ok (bytes ++ raw, rest)
  | .error e => .error e

/-- The raw content of a string literal up to its closing quote, and what follows the quote. -/
def stringBody : Bytes → Except Failure (Bytes × Bytes)
  | [] => .error .protocol
  | 0x22 :: rest => .ok ([], rest)
  | 0x5C :: 0x75 :: a :: b :: c :: d :: rest =>
    match hexUnit a b c d with
    | none => .error .protocol
    | some unit =>
      if isHighSurrogate unit then
        match rest with
        | 0x5C :: 0x75 :: a' :: b' :: c' :: d' :: rest' =>
          match hexUnit a' b' c' d' with
          | some low =>
            if isLowSurrogate low then
              prepend [0x5C, 0x75, a, b, c, d, 0x5C, 0x75, a', b', c', d'] (stringBody rest')
            else .error .protocol
          | none => .error .protocol
        | _ => .error .protocol
      else if isLowSurrogate unit then .error .protocol
      else prepend [0x5C, 0x75, a, b, c, d] (stringBody rest)
  | 0x5C :: c :: rest =>
    match simpleEscape c with
    | some _ => prepend [0x5C, c] (stringBody rest)
    | none => .error .protocol
  | b :: rest =>
    if b < 0x20 || b == 0x5C then .error .protocol else prepend [b] (stringBody rest)

def joinSurrogates (high low : Nat) : Nat := 0x10000 + (high - 0xD800) * 0x400 + (low - 0xDC00)

/-- The low surrogate that an escape right after a high one writes. -/
def pairedLow (unit : Nat) (rest : Bytes) : Option Nat :=
  match rest with
  | 0x5C :: 0x75 :: a :: b :: c :: d :: _ =>
    match hexUnit a b c d with
    | some low => if isHighSurrogate unit && isLowSurrogate low then some low else none
    | none => none
  | _ => none

/-- `unquote` after skipping some bytes, which belong to an escape already decoded. -/
def unquoteFrom : Nat → Bytes → Option Bytes
  | _, [] => some []
  | skip + 1, _ :: rest => unquoteFrom skip rest
  | 0, 0x5C :: 0x75 :: a :: b :: c :: d :: rest =>
    match hexUnit a b c d with
    | none => none
    | some unit =>
      match pairedLow unit rest with
      | some low => (unquoteFrom 6 rest).map (encodeRune (joinSurrogates unit low) ++ ·)
      | none =>
        let scalar := if isHighSurrogate unit || isLowSurrogate unit then 0xFFFD else unit
        (unquoteFrom 0 rest).map (encodeRune scalar ++ ·)
  | 0, 0x5C :: c :: rest =>
    match simpleEscape c with
    | some e => (unquoteFrom 0 rest).map (e :: ·)
    | none => none
  | 0, b :: rest =>
    if b < 0x20 || b == 0x22 || b == 0x5C then none else (unquoteFrom 0 rest).map (b :: ·)

/-- `json.Unmarshal` of a string literal, given its raw content in valid UTF-8. A surrogate
without its partner decodes to the replacement character. -/
def unquote (raw : Bytes) : Option Bytes := unquoteFrom 0 raw

namespace Scanner

def string (fieldName : Bool) (s : Scanner) : Except Failure (Bytes × Scanner) :=
  match stringBody (s.rest.drop 1) with
  | .error e => .error e
  | .ok (raw, rest) =>
    match unquote raw with
    | none => .error .protocol
    | some value =>
      if fieldName then
        if value.length > maxFieldNameUTF8Bytes then .error .limit
        else .ok (value, { s with rest := rest })
      else if value.length > maxScalarStringUTF8Bytes || runeCount value > maxScalarStringChars then
        .error .limit
      else .ok (value, { s with rest := rest })

end Scanner

/-- The digits at the front are skipped; `none` without one. -/
def someDigits (s : Bytes) : Option Bytes :=
  match s with
  | b :: _ => if isDigit b then some (s.dropWhile isDigit) else none
  | [] => none

def integerPart (s : Bytes) : Option Bytes :=
  match s with
  | 0x30 :: rest =>
    match rest with
    | b :: _ => if isDigit b then none else some rest
    | [] => some rest
  | b :: _ => if isDigit b then some (s.dropWhile isDigit) else none
  | [] => none

def fractionPart (s : Bytes) : Option Bytes :=
  match s with
  | 0x2E :: rest => someDigits rest
  | _ => some s

def exponentPart (s : Bytes) : Option Bytes :=
  match s with
  | b :: rest =>
    if b == 0x65 || b == 0x45 then
      match rest with
      | c :: rest' => if c == 0x2B || c == 0x2D then someDigits rest' else someDigits rest
      | [] => none
    else some s
  | [] => some s

/-- What follows the number at the front; `none` if there is none. -/
def skipNumber (s : Bytes) : Option Bytes := do
  let unsigned := match s with
    | 0x2D :: rest => rest
    | _ => s
  let s ← integerPart unsigned
  let s ← fractionPart s
  exponentPart s

def Scanner.number (s : Scanner) : Except Failure Scanner :=
  match skipNumber s.rest with
  | none => .error .protocol
  | some rest =>
    if s.rest.length - rest.length > maxNumberChars then .error .limit
    else Scanner.token { s with rest := rest }

mutual

/-- Each call spends one unit of fuel; `parse` gives enough for every call on its input. -/
def value : Nat → Nat → Scanner → Except Failure Scanner
  | 0, _, _ => .error .protocol
  | fuel + 1, depth, s =>
    match s.whitespace.rest with
    | [] => .error .protocol
    | b :: _ =>
      if b == 0x7B then object fuel (depth + 1) s.whitespace
      else if b == 0x5B then array fuel (depth + 1) s.whitespace
      else if b == 0x22 then do
        let s ← s.whitespace.token
        let (_, s) ← s.string false
        return s
      else if b == 0x74 then s.whitespace.literal (lit "true")
      else if b == 0x66 then s.whitespace.literal (lit "false")
      else if b == 0x6E then s.whitespace.literal (lit "null")
      else s.whitespace.number

def object : Nat → Nat → Scanner → Except Failure Scanner
  | 0, _, _ => .error .protocol
  | fuel + 1, depth, s =>
    if depth > maxNestingDepth then .error .limit
    else do
      let s ← s.token
      let s := Scanner.whitespace { s with rest := s.rest.drop 1 }
      match s.consume 0x7D with
      | some s => s.token
      | none => members fuel depth [] 1 s

/-- The member loop of an object, with the names seen so far. -/
def members : Nat → Nat → List Bytes → Nat → Scanner → Except Failure Scanner
  | 0, _, _, _, _ => .error .protocol
  | fuel + 1, depth, keys, count, s =>
    if (s.whitespace.consume 0x22).isNone then .error .protocol
    else do
      let s ← s.whitespace.token
      let (key, s) ← s.string true
      if key ∈ keys then .error .protocol
      else if count > maxMembersPerObject then .error .limit
      else
        match s.whitespace.consume 0x3A with
        | none => .error .protocol
        | some s => do
          let s ← value fuel depth s
          match s.whitespace.consume 0x7D with
          | some s => s.token
          | none =>
            match s.whitespace.consume 0x2C with
            | none => .error .protocol
            | some s => members fuel depth (key :: keys) (count + 1) s

def array : Nat → Nat → Scanner → Except Failure Scanner
  | 0, _, _ => .error .protocol
  | fuel + 1, depth, s =>
    if depth > maxNestingDepth then .error .limit
    else do
      let s ← s.token
      let s := Scanner.whitespace { s with rest := s.rest.drop 1 }
      match s.consume 0x5D with
      | some s => s.token
      | none => elements fuel depth s

def elements : Nat → Nat → Scanner → Except Failure Scanner
  | 0, _, _ => .error .protocol
  | fuel + 1, depth, s => do
    let s ← value fuel depth s
    match s.whitespace.consume 0x5D with
    | some s => s.token
    | none =>
      match s.whitespace.consume 0x2C with
      | none => .error .protocol
      | some s => elements fuel depth s

end

def Scanner.parse (s : Scanner) : Except Failure Unit :=
  match value (3 * s.rest.length + 3) 0 s.whitespace with
  | .error e => .error e
  | .ok s => if s.whitespace.rest = [] then .ok () else .error .protocol

def skipByte (b : UInt8) (rest : Bytes) : Option Bytes :=
  match rest.dropWhile isSpace with
  | c :: rest => if c == b then some rest else none
  | [] => none

def decodeString (rest : Bytes) : Option (Bytes × Bytes) :=
  match stringBody rest with
  | .ok (raw, rest) => (unquote raw).map (·, rest)
  | .error _ => none

mutual

/-- `Decoder.Decode` with `UseNumber` into an `any`. -/
def decodeValue : Nat → Bytes → Option (Json × Bytes)
  | 0, _ => none
  | fuel + 1, rest =>
    match rest.dropWhile isSpace with
    | [] => none
    | b :: rest =>
      if b == 0x7B then
        match skipByte 0x7D rest with
        | some rest => some (.object [], rest)
        | none => (decodeMembers fuel rest).map (fun (ms, rest) => (.object ms, rest))
      else if b == 0x5B then
        match skipByte 0x5D rest with
        | some rest => some (.array [], rest)
        | none => (decodeElements fuel rest).map (fun (vs, rest) => (.array vs, rest))
      else if b == 0x22 then (decodeString rest).map (fun (v, rest) => (.string v, rest))
      else if b == 0x74 then some (.bool true, (b :: rest).drop 4)
      else if b == 0x66 then some (.bool false, (b :: rest).drop 5)
      else if b == 0x6E then some (.null, (b :: rest).drop 4)
      else
        (skipNumber (b :: rest)).map (fun rest' =>
          (.number ((b :: rest).take ((b :: rest).length - rest'.length)), rest'))

def decodeMembers : Nat → Bytes → Option (List (Bytes × Json) × Bytes)
  | 0, _ => none
  | fuel + 1, rest => do
    let rest ← skipByte 0x22 rest
    let (key, rest) ← decodeString rest
    let rest ← skipByte 0x3A rest
    let (v, rest) ← decodeValue fuel rest
    match skipByte 0x7D rest with
    | some rest => return ([(key, v)], rest)
    | none =>
      let rest ← skipByte 0x2C rest
      let (ms, rest) ← decodeMembers fuel rest
      return ((key, v) :: ms, rest)

def decodeElements : Nat → Bytes → Option (List Json × Bytes)
  | 0, _ => none
  | fuel + 1, rest => do
    let (v, rest) ← decodeValue fuel rest
    match skipByte 0x5D rest with
    | some rest => return ([v], rest)
    | none =>
      let rest ← skipByte 0x2C rest
      let (vs, rest) ← decodeElements fuel rest
      return (v :: vs, rest)

end

def decode (data : Bytes) : Option Json := (decodeValue (3 * data.length + 3) data).map (·.1)

/-- `strictjson.Parse`. -/
def parse (data : Bytes) : Except Failure Json :=
  if data.length > maxDocumentBytes then .error .limit
  else if data.take 3 = [0xEF, 0xBB, 0xBF] || !validUTF8 data then .error .protocol
  else
    match Scanner.parse { rest := data } with
    | .error e => .error e
    | .ok () =>
      match decode data with
      | some v => .ok v
      | none => .error .protocol

/-- `object[name]` of a decoded object: a later member replaces an earlier one. -/
def lookup (name : Bytes) (members : List (Bytes × Json)) : Option Json :=
  (members.reverse.find? (fun m => m.1 == name)).map (·.2)

end Repost.StrictJson
