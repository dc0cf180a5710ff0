import Repost.JsonGrammar
import Repost.Runes

namespace Repost.Serialize
open GoText
set_option autoImplicit true

/-- A finite float goes by the text that the encoder writes for it. -/
structure FiniteFloat where
  text : Bytes
  grammatical : StrictJson.NumberText text

inductive FloatValue where
  | nan
  | infinite
  | finite (f : FiniteFloat)

inductive MapType where
  | stringToAny
  | fromStrings
  | fromOthers
  deriving DecidableEq

inductive SliceType where
  | any
  | bytes
  | other
  deriving DecidableEq

inductive OptionalState where
  | absent | present | null
  deriving DecidableEq

/-- What a field of a struct holds: an `Optional` or a pointer to one, another pointer, or something
else. A pointer in a field of interface type is not a pointer field. -/
inductive Held (α : Type) where
  | optional (state : OptionalState) (value : α)
  | nilOptional
  | pointer (target : Option α)
  | plain (value : α)

/-- A field of a struct with its `repost` tag. -/
structure StructField (α : Type) where
  tag : Bytes
  exported : Bool := true
  held : Held α

/-- What reflection shows of one value, whose parts are of type `α`. Maps, pointers and slices are
`none` if they are nil, and a map lists its entries in the order of their keys. A `time.Time` goes by
its text in the timestamp layout. -/
inductive Node (α : Type) where
  | nil
  | bool (b : Bool)
  | int (i : Int)
  | uint (n : Nat)
  | float (f : FloatValue)
  | string (s : Bytes)
  | number (text : Bytes)
  | time (text : Bytes)
  | map (type : MapType) (entries : Option (List (Bytes × α)))
  | pointer (target : Option α)
  | slice (type : SliceType) (items : Option (List α))
  | array (items : List α)
  | struct (fields : List (StructField α))
  | other

/-- The address behind a map, a pointer or a slice. Different values may have one address, such as the
pointers to an array and to its first element. -/
class Addressed (α : Type) where
  pointer : α → Nat

instance : Addressed Nat := ⟨id⟩

instance : Addressed Unit := ⟨fun _ => 0⟩

/-- `isNilValue`. -/
def Node.isNil : Node α → Bool
  | .nil | .map _ none | .pointer none | .slice _ none => true
  | _ => false

def lookup (name : Bytes) (entries : List (Bytes × β)) : Option β :=
  (entries.find? fun e => e.1 = name).map Prod.snd

/-- `strconv.ParseInt(s, 10, 64)`. -/
def parseInt (s : Bytes) : Option Int :=
  match s with
  | 0x2D :: s =>
    match parseUint 10 64 s with
    | some n => if n ≤ 2 ^ 63 then some (-n) else none
    | none => none
  | 0x2B :: s | s =>
    match parseUint 10 64 s with
    | some n => if n < 2 ^ 63 then some n else none
    | none => none

/-- What `strconv.ParseFloat` makes of a text that it accepts. -/
inductive ParsedFloat where
  | nan | infinite | finite
  deriving DecidableEq

/-- What is read of a number so far: whether a point and a digit were seen, the digits, and how many
of them follow the point. -/
structure Mantissa where
  dot : Bool := false
  seen : Bool := false
  digits : Nat := 0
  fraction : Nat := 0

def readMantissa (base : Nat) (m : Mantissa) : Bytes → Mantissa × Bytes
  | [] => (m, [])
  | b :: s =>
    if b == 0x5F then readMantissa base m s
    else if b == 0x2E && !m.dot then readMantissa base { m with dot := true } s
    else
      match digitValue b with
      | some d =>
        if d < base then
          readMantissa base
            { m with
              seen := true
              digits := m.digits * base + d
              fraction := if m.dot then m.fraction + 1 else m.fraction } s
        else (m, b :: s)
      | none => (m, b :: s)

/-- The digits of an exponent, which stops growing at five of them. -/
def readExponent : Nat → Bytes → Nat × Bytes
  | e, [] => (e, [])
  | e, b :: s =>
    if b == 0x5F then readExponent e s
    else if isDigit b then readExponent (if e < 10000 then e * 10 + (b.toNat - 0x30) else e) s
    else (e, b :: s)

def signedExponent (s : Bytes) : Option (Int × Bytes) :=
  let (negative, s) : Bool × Bytes :=
    match s with
    | 0x2D :: s => (true, s)
    | 0x2B :: s => (false, s)
    | s => (false, s)
  match s with
  | b :: _ =>
    if isDigit b then
      let (e, rest) := readExponent 0 s
      some (if negative then -e else e, rest)
    else none
  | [] => none

def withoutSign (s : Bytes) : Bytes :=
  match s with
  | 0x2D :: s | 0x2B :: s => s
  | s => s

/-- What `underscoreOK` saw last. -/
inductive Saw where
  | start | digit | underscore | other
  deriving DecidableEq

def underscoresOK (hex : Bool) : Saw → Bytes → Bool
  | saw, [] => saw != .underscore
  | saw, b :: s =>
    if isDigit b || (hex && 0x61 ≤ asciiLower b && asciiLower b ≤ 0x66) then
      underscoresOK hex .digit s
    else if b == 0x5F then saw == .digit && underscoresOK hex .underscore s
    else saw != .underscore && underscoresOK hex .other s

def underscoreOK (s : Bytes) : Bool :=
  match withoutSign s with
  | 0x30 :: b :: rest =>
    if asciiLower b == 0x78 then underscoresOK true .digit rest
    else if asciiLower b == 0x62 || asciiLower b == 0x6F then underscoresOK false .digit rest
    else underscoresOK false .start (0x30 :: b :: rest)
  | s => underscoresOK false .start s

/-- From here on a number rounds to infinity. -/
def floatOverflow : Nat := 2 ^ 1024 - 2 ^ 970

/-- Whether `digits * base ^ e` is out of the range of a `float64`. -/
def overflows (digits base : Nat) : Int → Bool
  | .ofNat e => floatOverflow ≤ digits * base ^ e
  | .negSucc e => floatOverflow * base ^ (e + 1) ≤ digits

def parseHexFloat (s : Bytes) : Bool :=
  let (m, rest) := readMantissa 16 {} s
  m.seen &&
    match rest with
    | b :: rest =>
      asciiLower b == 0x70 &&
        match signedExponent rest with
        | some (e, []) => !overflows m.digits 2 (e - 4 * m.fraction)
        | _ => false
    | [] => false

def parseDecimalFloat (s : Bytes) : Bool :=
  let (m, rest) := readMantissa 10 {} s
  m.seen &&
    match rest with
    | [] => !overflows m.digits 10 (-m.fraction)
    | b :: rest =>
      asciiLower b == 0x65 &&
        match signedExponent rest with
        | some (e, []) => !overflows m.digits 10 (e - m.fraction)
        | _ => false

/-- `strconv.ParseFloat(s, 64)`, up to the value of a finite result. -/
def parseFloat (s : Bytes) : Option ParsedFloat :=
  if equalFold (withoutSign s) (lit "inf") || equalFold (withoutSign s) (lit "infinity") then
    some .infinite
  else if equalFold s (lit "nan") then some .nan
  else
    let accepted :=
      match withoutSign s with
      | 0x30 :: b :: rest =>
        if asciiLower b == 0x78 then parseHexFloat rest else parseDecimalFloat (0x30 :: b :: rest)
      | s => parseDecimalFloat s
    if accepted && (!s.contains 0x5F || underscoreOK s) then some .finite else none

example : parseFloat (lit "-1_0.5e3") = some .finite ∧ parseFloat (lit "1e400") = none := by
  decide +kernel

end Repost.Serialize
