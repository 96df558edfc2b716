/-
The words of a trace line: numbers, commands, data and the options behind a
request. A read may ask for the data of the last write instead of naming bytes;
the answer is looked up by the address the read starts at and by the stack it has
named so far.
-/

import HbmSim.HostSplit

namespace HbmSim.Frontend

theorem toOption_eq_some {Value : Type} {result : Except Exception Value} {value : Value} :
    result.toOption = some value ↔ result = .ok value := by
  cases result with
  | error _ => exact ⟨fun absurd => (nomatch absurd), fun absurd => (nomatch absurd)⟩
  | ok other => exact ⟨fun same => congrArg _ (Option.some.inj same), fun same =>
      congrArg _ (Except.ok.inj same)⟩

/-! ### Words -/

def lowerToken (token : String) : String :=
  String.ofList (token.toList.map fun c => if c = '-' then '_' else c.toLower)

def splitTokens (line : String) : List String :=
  ((line.toList.splitOnP isSpace).filter (· ≠ [])).map String.ofList

/-- The lowered key in front of the first equals sign and the value behind it. -/
def splitOption (token : String) : Option (String × String) :=
  match token.toList.span (· ≠ '=') with
  | (key, _ :: value) => some (lowerToken (String.ofList key), String.ofList value)
  | (_, []) => none

def traceLine (lineno : Nat) : String := "trace line " ++ toString lineno

/-! ### Numbers -/

def hexValue (c : Char) : Option Nat :=
  if '0' ≤ c ∧ c ≤ '9' then some (c.toNat - '0'.toNat)
  else if 'a' ≤ c ∧ c ≤ 'f' then some (10 + c.toNat - 'a'.toNat)
  else if 'A' ≤ c ∧ c ≤ 'F' then some (10 + c.toNat - 'A'.toNat)
  else none

/-- The base a numeral gives itself, and the numeral without the mark of base 16. -/
def numeralBase (text : List Char) : Nat × List Char :=
  match text with
  | '0' :: mark :: digit :: rest =>
    if (mark = 'x' ∨ mark = 'X') ∧ (hexValue digit).isSome = true then (16, digit :: rest)
    else (8, text)
  | '0' :: _ => (8, text)
  | _ => (10, text)

/-- The number a text starts with and what is left behind it, as `std::stoull` and `std::stoi` read
them; base 0 leaves the base to the numeral. -/
def parseNumber (function : String) (limit base : Nat) (text : List Char) :
    Except Exception (Nat × List Char) :=
  let text := text.dropWhile isSpace
  let text := if text.head? = some '+' then text.tail else text
  let (base, text) := if base = 0 then numeralBase text else (base, text)
  let digits := text.takeWhile fun c => (hexValue c).any (· < base)
  let value := digits.foldl (fun value c => value * base + (hexValue c).getD 0) 0
  if digits = [] then .error (invalidArgument function)
  else if limit < value then .error (outOfRange function)
  else .ok (value, text.drop digits.length)

/-- A token that is a number and nothing else. -/
def parseNonnegative (function : String) (limit base : Nat) (token context : String) :
    Except Exception Nat := do
  throwIf (token = "" ∨ token.toList.head? = some '-')
    (invalidArgument (context ++ ": " ++ token))
  let (value, rest) ← parseNumber function limit base token.toList
  throwIf (rest ≠ []) (invalidArgument (context ++ ": " ++ token))
  return value

def parseAddress (token : String) : Except Exception Nat :=
  parseNonnegative "stoull" uint64Max 0 token "invalid address token"

def parseNonnegativeU64 (token : String) (base : Nat) (context : String) : Except Exception Nat :=
  parseNonnegative "stoull" uint64Max base token context

def parseNonnegativeInt (token context : String) : Except Exception Nat :=
  parseNonnegative "stoi" intMax 10 token context

def looksLikeCycle (token : String) : Bool :=
  decide (token ≠ "") && token.toList.all fun c => decide ('0' ≤ c ∧ c ≤ '9')

/-- `format_address`. -/
def formatAddress (address : Nat) : String :=
  let digits := Nat.toDigits 16 address
  "0x" ++ String.ofList (List.replicate (16 - digits.length) '0' ++ digits)

/-! ### Data -/

def compactHex (text : String) : List Char :=
  let chars := text.toList
  let chars :=
    if chars.take 2 = ['0', 'x'] ∨ chars.take 2 = ['0', 'X'] then chars.drop 2 else chars
  chars.filter fun c => decide (c ≠ '_' ∧ c ≠ ':') && !isSpace c

/-- The bytes that pairs of digits stand for. -/
def hexPairs : List Char → Option ByteVector
  | high :: low :: rest => do
    let high ← hexValue high
    let low ← hexValue low
    let more ← hexPairs rest
    return (high * 16 + low).toUInt8 :: more
  | _ => some []

def parseHexBytes (text : String) : Except Exception ByteVector :=
  let hex := compactHex text
  match hexPairs (if hex.length % 2 ≠ 0 then '0' :: hex else hex) with
  | some bytes => .ok bytes
  | none => .error (invalidArgument ("invalid hex byte string: " ++ text))

/-- The data that have a name of their own. -/
def namedData (lowered : String) (address id size : Nat) : Option ByteVector :=
  if lowered = "auto" ∨ lowered = "generated" ∨ lowered = "request_id" then
    some (makeRequestPayload address id size)
  else if lowered = "zero" ∨ lowered = "zeros" then some (List.replicate size 0)
  else if lowered = "one" ∨ lowered = "ones" ∨ lowered = "ff" then some (List.replicate size 0xff)
  else none

def traceDataValue (value : String) (request : Request) (defaultSize : Nat) :
    Except Exception ByteVector :=
  match namedData (lowerToken value) request.address request.id defaultSize with
  | some bytes => .ok bytes
  | none => parseHexBytes value

def burstPayloadValue (value : String) (address lineSize : Nat) : Except Exception ByteVector :=
  let lowered := lowerToken value
  match namedData (if lowered = "" then "auto" else lowered) address 0 lineSize with
  | some bytes => .ok bytes
  | none => do
    let parsed ← parseHexBytes value
    throwIf (parsed.length ≠ lineSize)
      (runtimeError "burst hex payload length must equal line_size")
    return parsed

def isLastWriteValue (value : String) : Bool :=
  let lowered := lowerToken value
  decide (lowered = "last_write" ∨ lowered = "lastwrite")

/-! ### Commands -/

def parseType (token : String) : Except Exception RequestType :=
  if token ∈ ["R", "r", "READ", "Read", "read", "BR", "br"] then .ok .read
  else if token ∈ ["W", "w", "WRITE", "Write", "write", "BW", "bw"] then .ok .write
  else .error (invalidArgument ("unknown trace request type: " ++ token))

def isMaintenanceType (token : String) : Bool :=
  decide (lowerToken token ∈ ["m", "maintenance"])

def isBurstType (token : String) : Bool := decide (token ∈ ["BW", "bw", "BR", "br"])

def maintenanceCommands : List (String × Command) :=
  [("refab", .refab), ("refpb", .refpb), ("refdb", .refdb), ("rfmab", .rfmab), ("rfmpb", .rfmpb),
   ("preab", .preab), ("prepb", .prepb), ("mrw", .mrw), ("mrr", .mrr), ("wcksync", .wcksync),
   ("wcktrain", .wcktrain), ("dvfs", .dvfs), ("eccscrub", .eccscrub), ("raserr", .raserr)]

def parseMaintenanceCommand (token : String) : Except Exception Command :=
  match maintenanceCommands.lookup (lowerToken token) with
  | some command => .ok command
  | none => .error (invalidArgument ("unsupported maintenance trace command: " ++ token))

/-! ### The last write -/

/-- Where a write is remembered: the address it starts at and the stack it names, `-1` without. -/
structure TraceAddressKey where
  address : Nat := 0
  explicitStack : Int := -1
  deriving DecidableEq, Repr

abbrev LastWriteMap := TraceAddressKey → Option ByteVector

/-- The stack a request names, `-1` without. -/
def stackNamespace (request : TrafficRequest) : Int :=
  if request.hasExplicitStack then request.targetStack else -1

def traceAddressKey (request : TrafficRequest) : TraceAddressKey :=
  ⟨request.address, stackNamespace request⟩

def lookupLastWritePayload (lastWrites : LastWriteMap) (request : TrafficRequest) (lineno : Nat) :
    Except Exception ByteVector :=
  match lastWrites (traceAddressKey request) with
  | some payload => .ok payload
  | none => .error (runtimeError (traceLine lineno ++
      " uses last_write before any write to address " ++ formatAddress request.address ++
      if request.hasExplicitStack then " on stack " ++ toString request.targetStack else ""))

/-! ### Options -/

def isExpectKey (key : String) : Bool := decide (key ∈ ["expect", "expected", "check", "verify"])

def isStackKey (key : String) : Bool := decide (key ∈ ["stack", "stack_id"])

def isQosKey (key : String) : Bool := decide (key ∈ ["qos", "priority"])

def parseStack (lineno : Nat) (value : String) : Except Exception Nat :=
  parseNonnegativeInt value (traceLine lineno ++ " has invalid stack id")

def parseQos (lineno : Nat) (value : String) : Except Exception Nat :=
  parseNonnegativeInt value (traceLine lineno ++ " has invalid qos class")

/-- The bytes a read expects. -/
def expectedBytes (request : TrafficRequest) (value : String) (lineno defaultSize : Nat)
    (lastWrites : Option LastWriteMap) : Except Exception ByteVector :=
  if isLastWriteValue value = true then
    match lastWrites with
    | none =>
      .error (runtimeError (traceLine lineno ++ " cannot resolve last_write in this parser"))
    | some lastWrites => lookupLastWritePayload lastWrites request lineno
  else traceDataValue value request.toRequest defaultSize

def applyTraceDataToken (lineno defaultSize : Nat) (lastWrites : Option LastWriteMap)
    (request : TrafficRequest) (token : String) : Except Exception TrafficRequest :=
  match splitOption token with
  | none =>
    if request.type = .write ∧ request.hasPayload = false then do
      let payload ← traceDataValue token request.toRequest defaultSize
      return { request with payload, hasPayload := true }
    else if request.type = .read ∧ request.hasExpectedPayload = false then do
      let expectedPayload ← expectedBytes request token lineno defaultSize lastWrites
      return { request with expectedPayload, hasExpectedPayload := true }
    else .error (runtimeError (traceLine lineno ++ " has an unqualified data token: " ++ token))
  | some (key, value) =>
    if key = "data" ∨ key = "payload" then do
      throwIf (request.type ≠ .write)
        (runtimeError (traceLine lineno ++ " uses data= on a non-write request"))
      let payload ← traceDataValue value request.toRequest defaultSize
      return { request with payload, hasPayload := true }
    else if isExpectKey key = true then do
      throwIf (request.type ≠ .read)
        (runtimeError (traceLine lineno ++ " uses expect/check on a non-read request"))
      let expectedPayload ← expectedBytes request value lineno defaultSize lastWrites
      return { request with expectedPayload, hasExpectedPayload := true }
    else if key = "mask" ∨ key = "byte_mask" then do
      throwIf (request.type ≠ .write)
        (runtimeError (traceLine lineno ++ " uses mask= on a non-write request"))
      let byteMask ← parseHexBytes value
      return { request with byteMask, hasByteMask := true }
    else if isQosKey key = true then do
      let qosClass ← parseQos lineno value
      return { request with qosClass := (qosClass : Int) }
    else if isStackKey key = true then do
      let targetStack ← parseStack lineno value
      return { request with targetStack := (targetStack : Int), hasExplicitStack := true }
    else .error (runtimeError (traceLine lineno ++ " has unknown data key: " ++ key))

/-- The reading of the stack that comes before the reading of all options. -/
def applyStackToken (lineno : Nat) (request : TrafficRequest) (token : String) :
    Except Exception TrafficRequest :=
  match splitOption token with
  | none => .ok request
  | some (key, value) =>
    if isStackKey key = true then do
      let targetStack ← parseStack lineno value
      return { request with targetStack := (targetStack : Int), hasExplicitStack := true }
    else .ok request

end HbmSim.Frontend
