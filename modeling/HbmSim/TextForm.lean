/-
The text of a memory image, written and read. A dump writes one line of text for
each cache line, with its coordinates and more about it than a load uses; a load
takes the words of a line apart, in any order, and recomputes the rest.

A file is its lines here. What is read is what the line says: a dumped line gives
back the address, the bytes, the marks and the coordinates it was written from.
-/

import HbmSim.ConfigDocument
import HbmSim.Lib.Numerals
import HbmSim.TextImage
import HbmSim.TraceTokens

namespace HbmSim.TextForm

open Frontend (compactHex formatAddress hexPairs hexValue lowerToken numeralBase parseHexBytes
  parseNonnegative parseNumber splitOption splitTokens)

/-! ### Writing -/

/-- `bytes_to_hex`. -/
def bytesToHex (bytes : ByteVector) : String := String.ofList (Numerals.hexDigits bytes)

/-- `format_u32_hex`. -/
def formatU32Hex (value : UInt32) : String :=
  "0x" ++ String.ofList (Numerals.padded 8 16 value.toNat)

/-- A number in base 16 without zeros in front. -/
def formatHex (value : Nat) : String := "0x" ++ String.ofList (Nat.toDigits 16 value)

def formatBool (value : Bool) : String := if value then "true" else "false"

/-- What a dump writes about a line, behind its address. -/
def dumpFields (block : DataBlock) : List (String × String) :=
  let p := block.physical
  [("ch", toString p.channel), ("pc", toString p.pseudoChannel), ("sid", toString p.sid),
    ("rank", toString p.rank), ("bg", toString p.bankGroup), ("bank", toString p.bank),
    ("row", toString p.row), ("col", toString p.column), ("layer", toString p.layer),
    ("tile_x", toString p.tileX), ("tile_y", toString p.tileY), ("tile_z", toString p.tileZ),
    ("tile_id", toString p.tileId), ("subarray", toString p.subarray),
    ("mat_x", toString p.matX), ("mat_y", toString p.matY), ("mat_id", toString p.matId),
    ("cell_x", toString p.cellX), ("cell_y", toString p.cellY),
    ("microbump_x", toString p.microbumpX), ("microbump_y", toString p.microbumpY),
    ("version", toString block.version), ("last_writer", toString block.lastWriterRequestId),
    ("last_write_cycle", toString block.lastWriteCycle),
    ("checksum", formatU32Hex block.checksum), ("ecc_valid", formatBool block.eccValid),
    ("ecc_hamming", formatHex block.eccHamming), ("ecc_overall", formatBool block.eccOverall),
    ("ecc_uncorrectable", formatBool block.eccUncorrectable),
    ("thermal_x", toString p.thermalX), ("thermal_y", toString p.thermalY),
    ("thermal_z", toString p.thermalZ), ("thermal_grid_x", toString p.thermalGridX),
    ("thermal_grid_y", toString p.thermalGridY), ("data", bytesToHex block.bytes),
    ("init", bytesToHex block.initializedMask)]

def dumpTextLine (base : Nat) (block : DataBlock) : String :=
  formatAddress base ++
    String.join ((dumpFields block).map fun field => " " ++ field.1 ++ "=" ++ field.2)

/-- The first line of a dump, which a load skips. -/
def dumpHeader : String :=
  "# address ch pc sid rank bg bank row col layer tile_x tile_y tile_z tile_id " ++
    "subarray mat_x mat_y mat_id cell_x cell_y microbump_x microbump_y " ++
    "version last_writer last_write_cycle checksum ecc_valid ecc_hamming " ++
    "ecc_overall ecc_uncorrectable " ++
    "thermal_x thermal_y thermal_z thermal_grid_x thermal_grid_y data init"

/-! ### Reading -/

def parseAddressToken (token : String) : Except Exception Nat :=
  parseNonnegative "stoull" uint64Max 0 token "invalid memory image address"

def isDecodedKey (key : String) : Bool :=
  decide (key ∈ ["ch", "channel", "pc", "pseudo_channel", "pseudo", "sid", "rank", "bg",
    "bank_group", "bank", "row", "col", "column"])

/-- The coordinate that a key names. -/
def setCoordinate (decoded : DecodedAddress) (key : String) (parsed : Nat) : DecodedAddress :=
  if key = "ch" ∨ key = "channel" then { decoded with channel := parsed }
  else if key = "pc" ∨ key = "pseudo_channel" ∨ key = "pseudo" then
    { decoded with pseudoChannel := parsed }
  else if key = "sid" then { decoded with sid := parsed }
  else if key = "rank" then { decoded with rank := parsed }
  else if key = "bg" ∨ key = "bank_group" then { decoded with bankGroup := parsed }
  else if key = "bank" then { decoded with bank := parsed }
  else if key = "row" then { decoded with row := parsed }
  else if key = "col" ∨ key = "column" then { decoded with column := parsed }
  else decoded

def setDecodedKey (decoded : DecodedAddress) (key value : String) :
    Except Exception DecodedAddress := do
  let parsed ← parseNonnegative "stoi" intMax 10 value "invalid non-negative memory coordinate"
  return setCoordinate decoded key parsed

/-- The keys a load accepts and computes anew. -/
def isMetadataKey (key : String) : Bool :=
  decide (key ∈ ["version", "last_writer", "last_write_cycle", "checksum", "layer", "die", "stack",
    "tile_x", "tile_y", "tile_z", "tile_id", "floorplan_cols", "floorplan_rows", "thermal_x",
    "thermal_y", "thermal_z", "thermal_grid_x", "thermal_grid_y", "thermal_cols", "thermal_rows",
    "subarray", "mat_x", "mat_y", "mat_id", "cell_x", "cell_y", "microbump_x", "microbump_y",
    "ecc_valid", "ecc_hamming", "ecc_overall", "ecc_uncorrectable", "ecc_parity_bits"])

def imageLine (lineno : Nat) : String := "memory image line " ++ toString lineno

/-- What the words of a line have said so far. -/
structure TextFields where
  address : Option Nat := none
  data : ByteVector := []
  initMask : ByteVector := []
  decoded : DecodedAddress := {}
  hasDecoded : Bool := false
  deriving DecidableEq, Repr

def applyToken (lineno : Nat) (fields : TextFields) (token : String) :
    Except Exception TextFields :=
  match splitOption token with
  | none =>
    if fields.address = none then do
      let address ← parseAddressToken token
      return { fields with address := some address }
    else if fields.data = [] then do
      let data ← parseHexBytes token
      return { fields with data }
    else .error (runtimeError (imageLine lineno ++ " has an unexpected token: " ++ token))
  | some (key, value) =>
    if key = "addr" ∨ key = "address" then do
      let address ← parseAddressToken value
      return { fields with address := some address }
    else if key = "data" ∨ key = "payload" then do
      let data ← parseHexBytes value
      return { fields with data }
    else if key = "init" ∨ key = "initialized" ∨ key = "initialized_mask" then do
      let initMask ← parseHexBytes value
      return { fields with initMask }
    else if isDecodedKey key = true then do
      let decoded ← setDecodedKey fields.decoded key value
      return { fields with decoded, hasDecoded := true }
    else if isMetadataKey key = true then .ok fields
    else .error (runtimeError (imageLine lineno ++ " has unknown key: " ++ key))

/-- What the words of a line come to. -/
def TextFields.line (lineno : Nat) (fields : TextFields) : Except Exception TextLine :=
  match fields.address with
  | none => .error (runtimeError (imageLine lineno ++ " missing address"))
  | some address => do
    throwIf (fields.data = []) (runtimeError (imageLine lineno ++ " missing data"))
    return {
      address
      data := fields.data
      initMask := fields.initMask
      decoded := if fields.hasDecoded then some fields.decoded else none }

/-- A line without its comment and the space around it. -/
def strippedLine (text : String) : String :=
  Config.trim (String.ofList (text.toList.takeWhile (· ≠ '#')))

/-- A line of the file; an empty one says nothing. -/
def parseTextLine (lineno : Nat) (text : String) : Except Exception (Option TextLine) :=
  if strippedLine text = "" then .ok none
  else do
    let fields ← (splitTokens (strippedLine text)).foldlM (applyToken lineno) {}
    let line ← fields.line lineno
    return some line

/-! ### Words -/

/-- A text that is one word and starts no comment. -/
def Plain (text : List Char) : Prop := ∀ c ∈ text, isSpace c = false ∧ c ≠ '#'

instance (text : List Char) : Decidable (Plain text) :=
  List.decidableBAll _ text

theorem Plain.append {first second : List Char} (plain : Plain first) (plain' : Plain second) :
    Plain (first ++ second) := by
  intro c member
  rcases List.mem_append.mp member with front | back
  · exact plain c front
  · exact plain' c back

theorem digit_plain : ∀ value < 16, isSpace (Nat.digitChar value) = false ∧
    Nat.digitChar value ≠ '#' := by
  decide

theorem plain_of_digits {base : Nat} (small : base ≤ 16) {text : List Char}
    (digits : ∀ c ∈ text, ∃ value < base, c = Nat.digitChar value) : Plain text := by
  intro c member
  obtain ⟨value, below, rfl⟩ := digits c member
  exact digit_plain value (Nat.lt_of_lt_of_le below small)

/-- The words of a text, as lists of characters. -/
def words (text : List Char) : List (List Char) := (text.splitOnP isSpace).filter (· ≠ [])

theorem words_cons {word : List Char} (plain : Plain word) (some : word ≠ []) (rest : List Char) :
    words (word ++ ' ' :: rest) = word :: words rest := by
  unfold words
  rw [List.splitOnP_append_cons _ _ (by decide),
    List.splitOnP_eq_singleton fun c member => (plain c member).1, List.filter_append,
    List.filter_singleton, decide_eq_true some]
  rfl

theorem words_singleton {word : List Char} (plain : Plain word) (some : word ≠ []) :
    words word = [word] := by
  unfold words
  rw [List.splitOnP_eq_singleton fun c member => (plain c member).1, List.filter_singleton,
    decide_eq_true some]
  rfl

/-- Words with single spaces between them are taken apart again. -/
theorem words_spaced {word : List Char} {more : List (List Char)} (plain : Plain word)
    (some : word ≠ []) (each : ∀ other ∈ more, Plain other ∧ other ≠ []) :
    words (word ++ more.flatMap fun other => ' ' :: other) = word :: more := by
  induction more generalizing word with
  | nil => rw [List.flatMap_nil, List.append_nil, words_singleton plain some]
  | cons other rest inductionHypothesis =>
    obtain ⟨here, later⟩ := List.forall_mem_cons.mp each
    rw [List.flatMap_cons, List.cons_append, words_cons plain some,
      inductionHypothesis here.1 here.2 later]

/-- Words with single spaces between them end with a word. -/
theorem spaced_ends {word : List Char} {more : List (List Char)} (plain : Plain word)
    (some : word ≠ []) (each : ∀ other ∈ more, Plain other ∧ other ≠ []) :
    ∃ rest back, (word ++ more.flatMap fun other => ' ' :: other) = rest ++ [back] ∧
      isSpace back = false := by
  induction more generalizing word with
  | nil =>
    obtain ⟨rest, back, split⟩ := (List.eq_nil_or_concat word).resolve_left some
    rw [List.concat_eq_append] at split
    refine ⟨rest, back, by rw [List.flatMap_nil, List.append_nil, split], ?_⟩
    exact (plain back (split ▸ List.mem_append_right _ (List.mem_singleton_self back))).1
  | cons other rest inductionHypothesis =>
    obtain ⟨here, later⟩ := List.forall_mem_cons.mp each
    obtain ⟨front, back, split, word'⟩ := inductionHypothesis here.1 here.2 later
    refine ⟨word ++ ' ' :: front, back, ?_, word'⟩
    rw [List.flatMap_cons, List.cons_append, split, List.append_assoc, List.cons_append]

/-- A text of one line that starts and ends with a word is not changed by stripping. -/
theorem strippedLine_eq {text : String} {front back : Char} {rest rest' : List Char}
    (noComment : ∀ c ∈ text.toList, c ≠ '#') (starts : text.toList = front :: rest)
    (ends : text.toList = rest' ++ [back]) (word : isSpace front = false)
    (word' : isSpace back = false) : strippedLine text = text := by
  have whole : text.toList.takeWhile (· ≠ '#') = text.toList :=
    List.takeWhile_eq_self_iff.mpr fun c member => decide_eq_true (noComment c member)
  unfold strippedLine Config.trim
  rw [whole, String.toList_ofList, starts, List.dropWhile_cons_of_neg (by rw [word]; simp),
    ← starts, ends, List.reverse_append, List.reverse_singleton, List.singleton_append,
    List.dropWhile_cons_of_neg (by rw [word']; simp), List.reverse_cons, List.reverse_reverse,
    ← ends, String.ofList_toList]

/-! ### Numbers and bytes -/

theorem hexValue_digitChar : ∀ value < 16, hexValue (Nat.digitChar value) = some value := by
  decide

theorem digit_inverse {base : Nat} (small : base ≤ 16) :
    ∀ value < base, (hexValue (Nat.digitChar value)).getD 0 = value := by
  intro value below
  rw [hexValue_digitChar value (Nat.lt_of_lt_of_le below small)]
  rfl

theorem digit_unsigned : ∀ value < 16, Nat.digitChar value ≠ '+' ∧ Nat.digitChar value ≠ '-' ∧
    Nat.digitChar value ≠ '=' := by
  decide

/-- Digits and nothing else are read as the number they stand for. -/
theorem parseNumber_digits {function : String} {limit base : Nat} {digits : List Char}
    (small : base ≤ 16) (given : base ≠ 0) (some : digits ≠ [])
    (each : ∀ c ∈ digits, ∃ value < base, c = Nat.digitChar value)
    (fits : Numerals.read (fun c => (hexValue c).getD 0) base digits 0 ≤ limit) :
    parseNumber function limit base digits =
      .ok (Numerals.read (fun c => (hexValue c).getD 0) base digits 0, []) := by
  obtain ⟨first, rest, rfl⟩ := List.exists_cons_of_ne_nil some
  obtain ⟨value, below, same⟩ := each first List.mem_cons_self
  have below16 : value < 16 := Nat.lt_of_lt_of_le below small
  have noSpace : (first :: rest).dropWhile isSpace = first :: rest := by
    refine List.dropWhile_cons_of_neg ?_
    rw [same, (digit_plain value below16).1]
    exact Bool.false_ne_true
  have noSign : ¬ (first :: rest).head? = Option.some '+' := by
    intro plus
    exact (digit_unsigned value below16).1 (same ▸ Option.some.inj plus)
  have all : (first :: rest).takeWhile (fun c => (hexValue c).any (· < base)) = first :: rest := by
    refine List.takeWhile_eq_self_iff.mpr fun c member => ?_
    obtain ⟨value, below, rfl⟩ := each c member
    rw [hexValue_digitChar value (Nat.lt_of_lt_of_le below small)]
    exact decide_eq_true below
  unfold parseNumber
  dsimp only
  rw [noSpace, if_neg noSign, if_neg given]
  dsimp only
  rw [all, if_neg (List.cons_ne_nil _ _)]
  exact (if_neg (Nat.not_lt.mpr fits)).trans (by rw [List.drop_length]; rfl)

theorem parseNonnegative_of_number {function context token : String} {limit base value : Nat}
    {front : Char} {rest : List Char} (starts : token.toList = front :: rest) (unsigned : front ≠ '-')
    (parses : parseNumber function limit base token.toList = .ok (value, [])) :
    parseNonnegative function limit base token context = .ok value := by
  have good : ¬ (token = "" ∨ token.toList.head? = some '-') := by
    rw [starts]
    rintro (empty | minus)
    · rw [empty] at starts
      cases starts
    · exact unsigned (Option.some.inj minus)
  unfold parseNonnegative
  refine bind_eq_ok.mpr ⟨(), throwIf_eq_ok.mpr good, ?_⟩
  rw [parses]
  rfl

/-- A decimal number is read back. -/
theorem parseNonnegative_toString {function context : String} {limit number : Nat}
    (fits : number ≤ limit) :
    parseNonnegative function limit 10 (toString number) context = .ok number := by
  have digits : (toString number).toList = Nat.toDigits 10 number := Nat.toList_repr
  have each : ∀ c ∈ Nat.toDigits 10 number, ∃ value < 10, c = Nat.digitChar value :=
    fun c member => Numerals.mem_toDigits (by decide) member
  have number_eq : Numerals.read (fun c => (hexValue c).getD 0) 10 (Nat.toDigits 10 number) 0 =
      number := Numerals.read_toDigits (by decide) (digit_inverse (by decide)) number
  obtain ⟨front, rest, starts⟩ := List.exists_cons_of_ne_nil (@Nat.toDigits_ne_nil number 10)
  obtain ⟨value, below, same⟩ := each front (starts ▸ List.mem_cons_self)
  refine parseNonnegative_of_number (digits.trans starts)
    (same ▸ (digit_unsigned value (by omega)).2.1) ?_
  rw [digits, parseNumber_digits (by decide) (by decide) Nat.toDigits_ne_nil each
    (by rw [number_eq]; exact fits), number_eq]

/-- The mark of base 16 in front of digits. -/
theorem parseNumber_marked {function : String} {limit : Nat} {first : Char} {rest : List Char}
    (digit : ∃ value < 16, first = Nat.digitChar value) :
    parseNumber function limit 0 ('0' :: 'x' :: first :: rest) =
      parseNumber function limit 16 (first :: rest) := by
  obtain ⟨value, below, rfl⟩ := digit
  have mark : numeralBase ('0' :: 'x' :: Nat.digitChar value :: rest) =
      (16, Nat.digitChar value :: rest) := by
    refine if_pos ⟨Or.inl rfl, ?_⟩
    rw [hexValue_digitChar value below]
    rfl
  have noSpace : (Nat.digitChar value :: rest).dropWhile isSpace = Nat.digitChar value :: rest := by
    refine List.dropWhile_cons_of_neg ?_
    rw [(digit_plain value below).1]
    exact Bool.false_ne_true
  have noSign : ¬ (Nat.digitChar value :: rest).head? = some '+' := fun plus =>
    (digit_unsigned value below).1 (Option.some.inj plus)
  have space : ('0' :: 'x' :: Nat.digitChar value :: rest).dropWhile isSpace =
      '0' :: 'x' :: Nat.digitChar value :: rest := List.dropWhile_cons_of_neg (by decide)
  have sign : ¬ ('0' :: 'x' :: Nat.digitChar value :: rest).head? = some '+' := by
    intro plus
    exact absurd (Option.some.inj plus) (by decide)
  unfold parseNumber
  dsimp only
  rw [noSpace, space, if_neg noSign, if_neg sign, if_pos rfl, mark,
    if_neg (show ¬ (16 : Nat) = 0 by decide)]

theorem padded_ne_nil {width base number : Nat} : Numerals.padded width base number ≠ [] :=
  List.append_ne_nil_of_right_ne_nil _ Nat.toDigits_ne_nil

theorem marked_toList (digits : List Char) :
    ("0x" ++ String.ofList digits).toList = '0' :: 'x' :: digits := by
  rw [String.toList_append]
  exact congrArg (['0', 'x'] ++ ·) String.toList_ofList

theorem formatAddress_toList (address : Nat) :
    (formatAddress address).toList = '0' :: 'x' :: Numerals.padded 16 16 address :=
  marked_toList _

/-- An address that is written is read back. -/
theorem parseAddressToken_formatAddress {address : Nat} (fits : address ≤ uint64Max) :
    parseAddressToken (formatAddress address) = .ok address := by
  have each : ∀ c ∈ Numerals.padded 16 16 address, ∃ value < 16, c = Nat.digitChar value :=
    fun c member => Numerals.mem_padded (by decide) member
  have number_eq : Numerals.read (fun c => (hexValue c).getD 0) 16
      (Numerals.padded 16 16 address) 0 = address :=
    Numerals.read_padded (by decide) (digit_inverse (Nat.le_refl 16)) 16 address
  have starts := formatAddress_toList address
  refine parseNonnegative_of_number starts (by decide) ?_
  obtain ⟨first, rest, split⟩ := List.exists_cons_of_ne_nil (@padded_ne_nil 16 16 address)
  rw [starts, split, parseNumber_marked (each first (split ▸ List.mem_cons_self)), ← split,
    parseNumber_digits (Nat.le_refl 16) (by decide) padded_ne_nil each
      (by rw [number_eq]; exact fits), number_eq]

theorem digit_compact : ∀ value < 16, (decide (Nat.digitChar value ≠ '_' ∧
    Nat.digitChar value ≠ ':') && !isSpace (Nat.digitChar value)) = true ∧
    Nat.digitChar value ≠ 'x' ∧ Nat.digitChar value ≠ 'X' := by
  decide

theorem hexPairs_hexDigits (bytes : ByteVector) :
    hexPairs (Numerals.hexDigits bytes) = some bytes := by
  induction bytes with
  | nil => rfl
  | cons byte rest inductionHypothesis =>
    have below := byte.toNat_lt
    have same : (byte.toNat / 16 * 16 + byte.toNat % 16).toUInt8 = byte := by
      rw [Nat.mul_comm, Nat.div_add_mod]
      exact UInt8.ofNat_toNat
    show hexPairs (Nat.digitChar (byte.toNat / 16) :: Nat.digitChar (byte.toNat % 16) ::
      Numerals.hexDigits rest) = _
    unfold hexPairs
    rw [hexValue_digitChar _ (by omega), hexValue_digitChar _ (by omega), inductionHypothesis]
    exact congrArg (fun byte => some (byte :: rest)) same

/-- Bytes that are written are read back. -/
theorem parseHexBytes_bytesToHex (bytes : ByteVector) :
    parseHexBytes (bytesToHex bytes) = .ok bytes := by
  have each : ∀ c ∈ Numerals.hexDigits bytes, ∃ value < 16, c = Nat.digitChar value :=
    fun c member => Numerals.mem_hexDigits member
  have unmarked : ¬ ((Numerals.hexDigits bytes).take 2 = ['0', 'x'] ∨
      (Numerals.hexDigits bytes).take 2 = ['0', 'X']) := by
    have noMark : ∀ c ∈ (Numerals.hexDigits bytes).take 2, c ≠ 'x' ∧ c ≠ 'X' := by
      intro c member
      obtain ⟨value, below, rfl⟩ := each c (List.mem_of_mem_take member)
      exact (digit_compact value below).2
    rintro (lower | upper)
    · rw [lower] at noMark
      exact (noMark 'x' (by decide)).1 rfl
    · rw [upper] at noMark
      exact (noMark 'X' (by decide)).2 rfl
  have compact : compactHex (bytesToHex bytes) = Numerals.hexDigits bytes := by
    unfold compactHex bytesToHex
    dsimp only
    rw [String.toList_ofList, if_neg unmarked]
    refine List.filter_eq_self.mpr fun c member => ?_
    obtain ⟨value, below, rfl⟩ := each c member
    exact (digit_compact value below).1
  unfold parseHexBytes
  dsimp only
  rw [compact, Numerals.hexDigits_length, if_neg (by omega), hexPairs_hexDigits]

/-! ### A dumped line -/

/-- The fields of a dumped line that name the coordinates. -/
def coordinateFields (p : PhysicalAddress) : List (String × String) :=
  [("ch", toString p.channel), ("pc", toString p.pseudoChannel), ("sid", toString p.sid),
    ("rank", toString p.rank), ("bg", toString p.bankGroup), ("bank", toString p.bank),
    ("row", toString p.row), ("col", toString p.column)]

/-- The fields of a dumped line that a load skips. -/
def metadataFields (block : DataBlock) : List (String × String) :=
  ((dumpFields block).drop 8).take 26

theorem dumpFields_eq (block : DataBlock) :
    dumpFields block = coordinateFields block.physical ++ metadataFields block ++
      [("data", bytesToHex block.bytes), ("init", bytesToHex block.initializedMask)] := rfl

theorem plain_toString (number : Nat) : Plain (toString number).toList := by
  have digits : (toString number).toList = Nat.toDigits 10 number := Nat.toList_repr
  rw [digits]
  exact plain_of_digits (Nat.le_of_lt_succ (by decide : 10 < 17)) fun c member =>
    Numerals.mem_toDigits (by decide) member

theorem plain_bytesToHex (bytes : ByteVector) : Plain (bytesToHex bytes).toList := by
  unfold bytesToHex
  rw [String.toList_ofList]
  exact plain_of_digits (Nat.le_refl 16) fun c member => Numerals.mem_hexDigits member

/-- A text behind the mark of base 16. -/
theorem plain_marked {digits : List Char}
    (each : ∀ c ∈ digits, ∃ value < 16, c = Nat.digitChar value) :
    Plain ('0' :: 'x' :: digits) :=
  @Plain.append ['0', 'x'] digits (by decide) (plain_of_digits (Nat.le_refl 16) each)

theorem plain_formatBool (value : Bool) : Plain (formatBool value).toList := by
  cases value <;> decide

/-- Every value of a dumped line is one word. -/
theorem dumpFields_plain (block : DataBlock) :
    ∀ value ∈ (dumpFields block).map Prod.snd, Plain value.toList := by
  have u32 : Plain (formatU32Hex block.checksum).toList := by
    unfold formatU32Hex
    rw [marked_toList]
    exact plain_marked fun c member => Numerals.mem_padded (by decide) member
  have hamming : Plain (formatHex block.eccHamming).toList := by
    unfold formatHex
    rw [marked_toList]
    exact plain_marked fun c member => Numerals.mem_toDigits (by decide) member
  unfold dumpFields
  simp only [List.map_cons, List.map_nil, List.forall_mem_cons, plain_toString, plain_bytesToHex,
    plain_formatBool, u32, hamming, true_and]
  exact fun value member => absurd member List.not_mem_nil

/-- The keys of a dumped line. -/
def dumpKeys : List String :=
  ["ch", "pc", "sid", "rank", "bg", "bank", "row", "col", "layer", "tile_x", "tile_y", "tile_z",
    "tile_id", "subarray", "mat_x", "mat_y", "mat_id", "cell_x", "cell_y", "microbump_x",
    "microbump_y", "version", "last_writer", "last_write_cycle", "checksum", "ecc_valid",
    "ecc_hamming", "ecc_overall", "ecc_uncorrectable", "thermal_x", "thermal_y", "thermal_z",
    "thermal_grid_x", "thermal_grid_y", "data", "init"]

theorem dumpFields_keys (block : DataBlock) : (dumpFields block).map Prod.fst = dumpKeys := rfl

/-- Every key of a dumped line is one word, in the spelling a load compares with. -/
theorem dumpKeys_good : ∀ key ∈ dumpKeys, Plain key.toList ∧ '=' ∉ key.toList ∧
    lowerToken key = key := by
  decide +kernel

theorem splitOption_field {key value : String} (free : '=' ∉ key.toList)
    (lowered : lowerToken key = key) : splitOption (key ++ "=" ++ value) = some (key, value) := by
  have chars : (key ++ "=" ++ value).toList = key.toList ++ '=' :: value.toList := by
    rw [String.toList_append, String.toList_append]
    exact List.append_assoc key.toList ['='] value.toList
  have all : ∀ c ∈ key.toList, decide (c ≠ '=') = true := fun c member =>
    decide_eq_true fun same => free (same ▸ member)
  have span : (key ++ "=" ++ value).toList.span (· ≠ '=') = (key.toList, '=' :: value.toList) := by
    rw [chars, List.span_eq_takeWhile_dropWhile, List.takeWhile_append_of_pos all,
      List.dropWhile_append_of_pos all]
    simp
  unfold splitOption
  rw [span]
  dsimp only
  rw [String.ofList_toList, String.ofList_toList, lowered]

/-- A coordinate that is written is taken over. -/
theorem applyToken_coordinate (lineno : Nat) (fields : TextFields) {key : String} {number : Nat}
    (known : key ∈ dumpKeys) (isKey : isDecodedKey key = true) (fits : number ≤ intMax) :
    applyToken lineno fields (key ++ "=" ++ toString number) =
      .ok { fields with
        decoded := setCoordinate fields.decoded key number
        hasDecoded := true } := by
  obtain ⟨-, free, lowered⟩ := dumpKeys_good key known
  have others : ∀ key ∈ dumpKeys, isDecodedKey key = true →
      ¬ (key = "addr" ∨ key = "address") ∧ ¬ (key = "data" ∨ key = "payload") ∧
        ¬ (key = "init" ∨ key = "initialized" ∨ key = "initialized_mask") := by
    decide +kernel
  obtain ⟨address, data, init⟩ := others key known isKey
  unfold applyToken setDecodedKey
  rw [splitOption_field free lowered]
  dsimp only
  rw [if_neg address, if_neg data, if_neg init, if_pos isKey, parseNonnegative_toString fits]
  rfl

/-- What a load computes anew is skipped. -/
theorem applyToken_metadata {lineno : Nat} {fields : TextFields} {key value : String}
    (known : key ∈ dumpKeys) (isKey : isMetadataKey key = true) :
    applyToken lineno fields (key ++ "=" ++ value) = .ok fields := by
  obtain ⟨-, free, lowered⟩ := dumpKeys_good key known
  have others : ∀ key ∈ dumpKeys, isMetadataKey key = true →
      ¬ (key = "addr" ∨ key = "address") ∧ ¬ (key = "data" ∨ key = "payload") ∧
        ¬ (key = "init" ∨ key = "initialized" ∨ key = "initialized_mask") ∧
        ¬ isDecodedKey key = true := by
    decide +kernel
  obtain ⟨address, data, init, coordinate⟩ := others key known isKey
  unfold applyToken
  rw [splitOption_field free lowered]
  dsimp only
  rw [if_neg address, if_neg data, if_neg init, if_neg coordinate, if_pos isKey]

theorem applyToken_data (lineno : Nat) (fields : TextFields) (bytes : ByteVector) :
    applyToken lineno fields ("data" ++ "=" ++ bytesToHex bytes) =
      .ok { fields with data := bytes } := by
  unfold applyToken
  rw [splitOption_field (by decide +kernel) (by decide +kernel)]
  dsimp only
  rw [if_neg (by decide), if_pos (Or.inl rfl), parseHexBytes_bytesToHex]
  rfl

theorem applyToken_init (lineno : Nat) (fields : TextFields) (bytes : ByteVector) :
    applyToken lineno fields ("init" ++ "=" ++ bytesToHex bytes) =
      .ok { fields with initMask := bytes } := by
  unfold applyToken
  rw [splitOption_field (by decide +kernel) (by decide +kernel)]
  dsimp only
  rw [if_neg (by decide), if_neg (by decide), if_pos (Or.inl rfl), parseHexBytes_bytesToHex]
  rfl

/-- The coordinates of a placed line. -/
def coordinates (p : PhysicalAddress) : DecodedAddress :=
  decodedFromStorageKey (keyFromPhysical p)

/-- The coordinates fit the integers the text is read into. -/
structure FitsInt (decoded : DecodedAddress) : Prop where
  channel : decoded.channel ≤ intMax
  pseudoChannel : decoded.pseudoChannel ≤ intMax
  sid : decoded.sid ≤ intMax
  rank : decoded.rank ≤ intMax
  bankGroup : decoded.bankGroup ≤ intMax
  bank : decoded.bank ≤ intMax
  row : decoded.row ≤ intMax
  column : decoded.column ≤ intMax

/-- The word of a field. -/
def fieldWord (field : String × String) : String := field.1 ++ "=" ++ field.2

/-- The coordinates of a dumped line by their keys. -/
def coordinatePairs (p : PhysicalAddress) : List (String × Nat) :=
  [("ch", p.channel), ("pc", p.pseudoChannel), ("sid", p.sid), ("rank", p.rank),
    ("bg", p.bankGroup), ("bank", p.bank), ("row", p.row), ("col", p.column)]

theorem foldlM_pairs (lineno : Nat) (fields : TextFields) (pairs : List (String × Nat))
    (known : ∀ pair ∈ pairs, pair.1 ∈ dumpKeys ∧ isDecodedKey pair.1 = true ∧ pair.2 ≤ intMax) :
    (pairs.map fun pair => fieldWord (pair.1, toString pair.2)).foldlM (applyToken lineno) fields =
      .ok { fields with
        decoded := pairs.foldl (fun decoded pair => setCoordinate decoded pair.1 pair.2)
          fields.decoded
        hasDecoded := fields.hasDecoded || !pairs.isEmpty } := by
  induction pairs generalizing fields with
  | nil =>
    refine congrArg Except.ok ?_
    rw [List.isEmpty_nil, Bool.not_true, Bool.or_false]
    rfl
  | cons pair rest inductionHypothesis =>
    obtain ⟨⟨listed, isKey, fits⟩, later⟩ := List.forall_mem_cons.mp known
    rw [List.map_cons, List.foldlM_cons]
    refine bind_eq_ok.mpr ⟨_, applyToken_coordinate lineno fields listed isKey fits, ?_⟩
    rw [inductionHypothesis _ later]
    simp

theorem foldlM_coordinates (lineno : Nat) (fields : TextFields) (p : PhysicalAddress)
    (fits : FitsInt (coordinates p)) :
    ((coordinateFields p).map fieldWord).foldlM (applyToken lineno) fields =
      .ok { fields with decoded := coordinates p, hasDecoded := true } := by
  have known : ∀ pair ∈ coordinatePairs p,
      pair.1 ∈ dumpKeys ∧ isDecodedKey pair.1 = true ∧ pair.2 ≤ intMax := by
    have keys : ∀ key ∈ ["ch", "pc", "sid", "rank", "bg", "bank", "row", "col"],
        key ∈ dumpKeys ∧ isDecodedKey key = true := by
      decide
    simp only [List.forall_mem_cons] at keys
    obtain ⟨channel, pseudoChannel, sid, rank, bankGroup, bank, row, column, -⟩ := keys
    simp only [coordinatePairs, List.forall_mem_cons]
    exact ⟨⟨channel.1, channel.2, fits.channel⟩,
      ⟨pseudoChannel.1, pseudoChannel.2, fits.pseudoChannel⟩, ⟨sid.1, sid.2, fits.sid⟩,
      ⟨rank.1, rank.2, fits.rank⟩, ⟨bankGroup.1, bankGroup.2, fits.bankGroup⟩,
      ⟨bank.1, bank.2, fits.bank⟩, ⟨row.1, row.2, fits.row⟩, ⟨column.1, column.2, fits.column⟩,
      fun pair member => absurd member List.not_mem_nil⟩
  refine (foldlM_pairs lineno fields (coordinatePairs p) known).trans (congrArg Except.ok ?_)
  show ({ fields with
    decoded := coordinates p
    hasDecoded := fields.hasDecoded || true } : TextFields) = _
  rw [Bool.or_true]

theorem foldlM_metadata (lineno : Nat) (fields : TextFields) (listed : List (String × String))
    (known : ∀ field ∈ listed, field.1 ∈ dumpKeys ∧ isMetadataKey field.1 = true) :
    (listed.map fieldWord).foldlM (applyToken lineno) fields = .ok fields := by
  induction listed with
  | nil => rfl
  | cons field rest inductionHypothesis =>
    obtain ⟨here, later⟩ := List.forall_mem_cons.mp known
    rw [List.map_cons, List.foldlM_cons]
    refine bind_eq_ok.mpr ⟨fields, applyToken_metadata here.1 here.2, inductionHypothesis later⟩

theorem dumpTextLine_toList (base : Nat) (block : DataBlock) :
    (dumpTextLine base block).toList = (formatAddress base).toList ++
      ((dumpFields block).map fun field => (fieldWord field).toList).flatMap
        fun word => ' ' :: word := by
  have joined : ∀ fields : List (String × String),
      (String.join (fields.map fun field => " " ++ field.1 ++ "=" ++ field.2)).toList =
        (fields.map fun field => (fieldWord field).toList).flatMap fun word => ' ' :: word := by
    intro fields
    rw [String.toList_join, List.flatMap_map, List.flatMap_map]
    refine List.flatMap_congr fun field _ => ?_
    unfold fieldWord
    simp [String.toList_append]
  unfold dumpTextLine
  rw [String.toList_append, joined]

/-- A field of a dumped line is one word. -/
theorem fieldWord_plain {block : DataBlock} {field : String × String}
    (member : field ∈ dumpFields block) :
    Plain (fieldWord field).toList ∧ (fieldWord field).toList ≠ [] := by
  have key : field.1 ∈ dumpKeys := dumpFields_keys block ▸ List.mem_map_of_mem member
  have value := dumpFields_plain block field.2 (List.mem_map_of_mem member)
  unfold fieldWord
  rw [String.toList_append, String.toList_append]
  refine ⟨((dumpKeys_good field.1 key).1.append (by decide)).append value, fun empty => ?_⟩
  have length := congrArg List.length empty
  simp at length

theorem plain_formatAddress (address : Nat) : Plain (formatAddress address).toList := by
  rw [formatAddress_toList]
  exact plain_marked fun c member => Numerals.mem_padded (by decide) member

theorem formatAddress_ne_nil (address : Nat) : (formatAddress address).toList ≠ [] := by
  rw [formatAddress_toList]
  exact List.cons_ne_nil _ _

/-- The fields of a dumped line are words. -/
theorem fieldWords_plain (block : DataBlock) :
    ∀ word ∈ (dumpFields block).map fun field => (fieldWord field).toList,
      Plain word ∧ word ≠ [] := by
  intro word member
  obtain ⟨field, listed, rfl⟩ := List.mem_map.mp member
  exact fieldWord_plain listed

/-- A dumped line has nothing to strip. -/
theorem strippedLine_dumpTextLine (base : Nat) (block : DataBlock) :
    strippedLine (dumpTextLine base block) = dumpTextLine base block := by
  have starts : (dumpTextLine base block).toList = '0' :: ('x' :: Numerals.padded 16 16 base ++
      ((dumpFields block).map fun field => (fieldWord field).toList).flatMap
        fun word => ' ' :: word) := by
    rw [dumpTextLine_toList, formatAddress_toList]
    rfl
  obtain ⟨rest, back, ends, word⟩ :=
    spaced_ends (plain_formatAddress base) (formatAddress_ne_nil base) (fieldWords_plain block)
  refine strippedLine_eq (fun c member => ?_) starts ((dumpTextLine_toList base block).trans ends)
    (by decide) word
  rw [dumpTextLine_toList] at member
  rcases List.mem_append.mp member with front | back
  · exact (plain_formatAddress base c front).2
  · obtain ⟨word, listed, member⟩ := List.mem_flatMap.mp back
    rcases List.mem_cons.mp member with rfl | member
    · decide
    · exact ((fieldWords_plain block word listed).1 c member).2

/-- The words of a dumped line. -/
theorem splitTokens_dumpTextLine (base : Nat) (block : DataBlock) :
    splitTokens (dumpTextLine base block) =
      formatAddress base :: (dumpFields block).map fieldWord := by
  show (words (dumpTextLine base block).toList).map String.ofList = _
  rw [dumpTextLine_toList, words_spaced (plain_formatAddress base) (formatAddress_ne_nil base)
    (fieldWords_plain block), List.map_cons, List.map_map, String.ofList_toList]
  refine congrArg _ (List.map_congr_left fun field _ => ?_)
  exact String.ofList_toList

/-- A dumped line gives back what it was written from. -/
theorem parseTextLine_dumpTextLine (lineno : Nat) {base : Nat} {block : DataBlock}
    (fits : base ≤ uint64Max) (coordinatesFit : FitsInt (coordinates block.physical))
    (some : block.bytes ≠ []) :
    parseTextLine lineno (dumpTextLine base block) =
      .ok (Option.some {
        address := base
        data := block.bytes
        initMask := block.initializedMask
        decoded := Option.some (coordinates block.physical) }) := by
  have written : dumpTextLine base block ≠ "" := by
    intro empty
    have length := congrArg (fun text => text.toList.length) empty
    rw [dumpTextLine_toList, formatAddress_toList] at length
    simp at length
  have first : applyToken lineno {} (formatAddress base) = .ok { address := Option.some base } := by
    have none : splitOption (formatAddress base) = Option.none := by
      have all : ∀ c ∈ (formatAddress base).toList, decide (c ≠ '=') = true := by
        rw [formatAddress_toList]
        intro c member
        rcases List.mem_cons.mp member with rfl | member
        · decide
        rcases List.mem_cons.mp member with rfl | member
        · decide
        obtain ⟨value, below, rfl⟩ := Numerals.mem_padded (by decide) member
        exact decide_eq_true (digit_unsigned value below).2.2
      unfold splitOption
      rw [List.span_eq_takeWhile_dropWhile, List.takeWhile_eq_self_iff.mpr all,
        List.dropWhile_eq_nil_iff.mpr all]
    unfold applyToken
    rw [none]
    dsimp only
    rw [if_pos rfl, parseAddressToken_formatAddress fits]
    rfl
  have metadata : ∀ field ∈ metadataFields block,
      field.1 ∈ dumpKeys ∧ isMetadataKey field.1 = true := by
    have keys : ∀ key ∈ (dumpKeys.drop 8).take 26, key ∈ dumpKeys ∧ isMetadataKey key = true := by
      decide
    intro field member
    refine keys field.1 ?_
    rw [← dumpFields_keys block, ← List.map_drop, ← List.map_take]
    exact List.mem_map_of_mem member
  have folds : ((formatAddress base :: (dumpFields block).map fieldWord).foldlM
      (applyToken lineno) {}) = .ok {
        address := Option.some base
        data := block.bytes
        initMask := block.initializedMask
        decoded := coordinates block.physical
        hasDecoded := true } := by
    rw [List.foldlM_cons, dumpFields_eq, List.map_append, List.map_append]
    refine bind_eq_ok.mpr ⟨_, first, ?_⟩
    rw [List.foldlM_append, List.foldlM_append]
    refine bind_eq_ok.mpr ⟨_, bind_eq_ok.mpr ⟨_, foldlM_coordinates lineno _ _ coordinatesFit,
      foldlM_metadata lineno _ _ metadata⟩, ?_⟩
    refine bind_eq_ok.mpr ⟨_, applyToken_data lineno _ block.bytes, ?_⟩
    exact bind_eq_ok.mpr ⟨_, applyToken_init lineno _ block.initializedMask, rfl⟩
  unfold parseTextLine
  rw [strippedLine_dumpTextLine, if_neg written, splitTokens_dumpTextLine, folds]
  show (TextFields.line lineno _ >>= _) = _
  exact bind_eq_ok.mpr ⟨_, bind_eq_ok.mpr ⟨(), throwIf_eq_ok.mpr some, rfl⟩, rfl⟩

end HbmSim.TextForm
