import XEdge.Lib.Except

/-!
# Sparkplug B payloads (`xedge/northbound/sparkplug/wire.py`, `payload.py`)

A payload is a protobuf message: a timestamp, metrics, and a sequence number.  The encoder
is written out by hand, field by field, and raises where a value does not fit the wire
format.  This file is the encoder, byte for byte, and says exactly when it raises.

A Python `str` is a list of code points, among them the lone surrogates that UTF-8 cannot
express (`json.loads` makes them).  A `float` is its 64-bit pattern.
-/

namespace XEdge.Northbound.Sparkplug

open Lib

abbrev Bytes := List UInt8

/-- A character of a Python `str`. -/
abbrev CodePoint := Fin 0x110000

/-- A Python `str`. -/
abbrev PyStr := List CodePoint

/-- A text as a Python `str`. -/
def PyStr.ofString (s : String) : PyStr := s.toList.map fun c => Fin.ofNat 0x110000 c.toNat

/-- A `TagValue`, as the encoder sees it. -/
inductive PyValue where
  | bool (b : Bool)
  | int (i : Int)
  | float (bits : UInt64)
  | str (s : PyStr)
  | bytes (b : Bytes)
  deriving DecidableEq, Repr

inductive EncodeError where
  | valueError (message : String)
  | typeError (message : String)
  /-- `UnicodeEncodeError`: surrogates are not allowed. -/
  | unicodeEncodeError
  /-- `OverflowError`: the number is too large for four bytes. -/
  | overflowError
  deriving DecidableEq, Repr

/-- The conversions of Python that the encoder calls.  A value of the right type is what it
is; the others may raise. -/
structure PyConvert where
  /-- `int(value)`. -/
  toInt : PyValue → Except EncodeError Int
  /-- `float(value)`. -/
  toFloat : PyValue → Except EncodeError UInt64
  /-- `bool(value)`. -/
  toBool : PyValue → Bool
  /-- `str(value)`. -/
  toStr : PyValue → PyStr
  /-- The rounding of `struct.pack("<f", value)`, which raises on numbers out of range. -/
  narrow : UInt64 → Option UInt32
  toInt_int : ∀ i, toInt (.int i) = .ok i
  toFloat_float : ∀ bits, toFloat (.float bits) = .ok bits
  toBool_bool : ∀ b, toBool (.bool b) = b
  toStr_str : ∀ s, toStr (.str s) = s

def PyConvert.strict : PyConvert where
  toInt
    | .int i => .ok i
    | _ => .error (.typeError "int()")
  toFloat
    | .float bits => .ok bits
    | _ => .error (.typeError "float()")
  toBool
    | .bool b => b
    | _ => true
  toStr
    | .str s => s
    | _ => []
  narrow _ := none
  toInt_int _ := rfl
  toFloat_float _ := rfl
  toBool_bool _ := rfl
  toStr_str _ := rfl

/-! ## Fields -/

def WIRE_TYPE_VARINT : Nat := 0

def WIRE_TYPE_FIXED64 : Nat := 1

def WIRE_TYPE_LENGTH_DELIMITED : Nat := 2

def WIRE_TYPE_FIXED32 : Nat := 5

/-- The loop of `encode_varint`; the number of rounds is bounded by the number of bits. -/
def varintLoop : Nat → Nat → Bytes
  | 0, _ => []
  | rounds + 1, value =>
      let byte := value % 128
      let value := value / 128
      if value = 0 then [UInt8.ofNat byte] else UInt8.ofNat (byte + 128) :: varintLoop rounds value

def varint (value : Nat) : Bytes := varintLoop (value.log2 + 1) value

def encodeVarint (value : Int) : Except EncodeError Bytes :=
  if value < 0 then
    .error (.valueError ("encode_varint does not support negative values: " ++ toString value))
  else .ok (varint value.toNat)

def encodeTag (fieldNumber wireType : Nat) : Bytes := varint (fieldNumber <<< 3 ||| wireType)

def encodeVarintField (fieldNumber : Nat) (value : Int) : Except EncodeError Bytes :=
  (encodeVarint value).map fun b => encodeTag fieldNumber WIRE_TYPE_VARINT ++ b

def encodeBoolField (fieldNumber : Nat) (value : Bool) : Except EncodeError Bytes :=
  encodeVarintField fieldNumber (if value then 1 else 0)

/-- `n` bytes of a number, the least significant first. -/
def littleEndian : Nat → Nat → Bytes
  | 0, _ => []
  | n + 1, value => UInt8.ofNat value :: littleEndian n (value / 256)

def encodeFixed32Field (P : PyConvert) (fieldNumber : Nat) (bits : UInt64) :
    Except EncodeError Bytes :=
  match P.narrow bits with
  | some b => .ok (encodeTag fieldNumber WIRE_TYPE_FIXED32 ++ littleEndian 4 b.toNat)
  | none => .error .overflowError

def encodeFixed64Field (fieldNumber : Nat) (bits : UInt64) : Bytes :=
  encodeTag fieldNumber WIRE_TYPE_FIXED64 ++ littleEndian 8 bits.toNat

def encodeBytesField (fieldNumber : Nat) (value : Bytes) : Bytes :=
  encodeTag fieldNumber WIRE_TYPE_LENGTH_DELIMITED ++ varint value.length ++ value

def isSurrogate (c : CodePoint) : Bool := 0xD800 ≤ c.val && c.val ≤ 0xDFFF

def utf8Char (c : CodePoint) : Bytes :=
  let tail (shift : Nat) : UInt8 := UInt8.ofNat (0x80 + (c.val >>> shift) % 64)
  if c.val < 0x80 then [UInt8.ofNat c.val]
  else if c.val < 0x800 then [UInt8.ofNat (0xC0 + c.val >>> 6), tail 0]
  else if c.val < 0x10000 then [UInt8.ofNat (0xE0 + c.val >>> 12), tail 6, tail 0]
  else [UInt8.ofNat (0xF0 + c.val >>> 18), tail 12, tail 6, tail 0]

def PyStr.Encodable (s : PyStr) : Prop := ∀ c ∈ s, isSurrogate c = false

-- not by running through all code points
instance (s : PyStr) : Decidable s.Encodable := List.decidableBAll (isSurrogate · = false) s

/-- `value.encode("utf-8")`. -/
def encodeUtf8 (value : PyStr) : Except EncodeError Bytes :=
  if value.Encodable then .ok (value.flatMap utf8Char) else .error .unicodeEncodeError

def encodeStringField (fieldNumber : Nat) (value : PyStr) : Except EncodeError Bytes :=
  (encodeUtf8 value).map (encodeBytesField fieldNumber)

def encodeMessageField (fieldNumber : Nat) (message : Bytes) : Bytes :=
  encodeBytesField fieldNumber message

/-! ## Metrics and payloads -/

inductive DataType where
  | unknown
  | int8
  | int16
  | int32
  | int64
  | uint8
  | uint16
  | uint32
  | uint64
  | float
  | double
  | boolean
  | string
  | datetime
  | text
  deriving DecidableEq, Repr

namespace DataType

def value : DataType → Nat
  | unknown => 0
  | int8 => 1
  | int16 => 2
  | int32 => 3
  | int64 => 4
  | uint8 => 5
  | uint16 => 6
  | uint32 => 7
  | uint64 => 8
  | float => 9
  | double => 10
  | boolean => 11
  | string => 12
  | datetime => 13
  | text => 14

/-- `repr` of a member. -/
def pyRepr (d : DataType) : String :=
  let name := match d with
    | unknown => "UNKNOWN"
    | int8 => "INT8"
    | int16 => "INT16"
    | int32 => "INT32"
    | int64 => "INT64"
    | uint8 => "UINT8"
    | uint16 => "UINT16"
    | uint32 => "UINT32"
    | uint64 => "UINT64"
    | float => "FLOAT"
    | double => "DOUBLE"
    | boolean => "BOOLEAN"
    | string => "STRING"
    | datetime => "DATETIME"
    | text => "TEXT"
  "<DataType." ++ name ++ ": " ++ toString d.value ++ ">"

end DataType

structure SparkplugMetric where
  name : Option PyStr
  timestampMs : Int
  datatype : DataType
  value : Option PyValue
  metricAlias : Option Int
  isNull : Bool
  deriving DecidableEq, Repr

def inferDatatype : PyValue → Except EncodeError DataType
  | .bool _ => .ok .boolean
  | .int _ => .ok .uint32
  | .float _ => .ok .double
  | .str _ => .ok .string
  | .bytes _ =>
      .error (.typeError "No Sparkplug B datatype mapping for value type: <class 'bytes'>")

variable (P : PyConvert)

def encodeMetricValue (datatype : DataType) (value : PyValue) : Except EncodeError Bytes :=
  match datatype with
  | .int8 | .int16 | .int32 | .uint8 | .uint16 | .uint32 => P.toInt value >>= encodeVarintField 10
  | .int64 | .uint64 | .datetime => P.toInt value >>= encodeVarintField 11
  | .float => P.toFloat value >>= encodeFixed32Field P 12
  | .double => P.toFloat value >>= fun bits => .ok (encodeFixed64Field 13 bits)
  | .boolean => encodeBoolField 14 (P.toBool value)
  | .string | .text => encodeStringField 15 (P.toStr value)
  | .unknown =>
      .error (.valueError ("Unsupported Sparkplug B datatype for encoding: " ++ datatype.pyRepr))

def encodeMetric (m : SparkplugMetric) : Except EncodeError Bytes :=
  concat
    [m.name.elim (.ok []) (encodeStringField 1),
      m.metricAlias.elim (.ok []) (encodeVarintField 2),
      encodeVarintField 3 m.timestampMs,
      encodeVarintField 4 m.datatype.value,
      match m.isNull, m.value with
      | false, some v => encodeMetricValue P m.datatype v
      | _, _ => encodeBoolField 7 true]

def encodePayload (timestampMs : Int) (seq : Option Int) (metrics : List SparkplugMetric) :
    Except EncodeError Bytes :=
  concat (encodeVarintField 1 timestampMs ::
    (metrics.map (fun m => (encodeMetric P m).map (encodeMessageField 2)) ++
      [seq.elim (.ok []) (encodeVarintField 3)]))

/-! ## When the encoder returns -/

structure MetricEncodable (m : SparkplugMetric) : Prop where
  name : ∀ s ∈ m.name, PyStr.Encodable s
  metricAlias : ∀ a ∈ m.metricAlias, 0 ≤ a
  timestamp : 0 ≤ m.timestampMs
  value : m.isNull = false → ∀ v ∈ m.value, (encodeMetricValue P m.datatype v).isOk = true

@[simp] theorem isOk_encodeVarint (value : Int) : (encodeVarint value).isOk = true ↔ 0 ≤ value := by
  unfold encodeVarint
  split
  · next h => simpa [Except.isOk, Except.toBool] using h
  · next h => simpa [Except.isOk, Except.toBool] using h

@[simp] theorem isOk_encodeVarintField (n : Nat) (value : Int) :
    (encodeVarintField n value).isOk = true ↔ 0 ≤ value := by
  rw [encodeVarintField, isOk_map, isOk_encodeVarint]

@[simp] theorem isOk_encodeBoolField (n : Nat) (value : Bool) :
    (encodeBoolField n value).isOk = true := by
  rw [encodeBoolField, isOk_encodeVarintField]
  split <;> omega

@[simp] theorem isOk_encodeStringField (n : Nat) (value : PyStr) :
    (encodeStringField n value).isOk = true ↔ value.Encodable := by
  rw [encodeStringField, isOk_map, encodeUtf8]
  split
  · next h => simpa [Except.isOk, Except.toBool] using h
  · next h => simpa [Except.isOk, Except.toBool] using h

theorem isOk_elim {α : Type} (f : α → Except EncodeError Bytes) (x : Option α) :
    (x.elim (.ok []) f).isOk = true ↔ ∀ a ∈ x, (f a).isOk = true := by
  cases x <;> simp [Except.isOk, Except.toBool]

/-- **A metric is encoded exactly when** its numbers are not negative, its name has a UTF-8
form and its value, if it is sent, can be written. -/
theorem isOk_encodeMetric (m : SparkplugMetric) :
    (encodeMetric P m).isOk = true ↔ MetricEncodable P m := by
  rw [encodeMetric, isOk_concat]
  simp only [List.forall_mem_cons, List.not_mem_nil, false_implies, implies_true, and_true,
    isOk_elim, isOk_encodeStringField, isOk_encodeVarintField, Int.natCast_nonneg, true_and]
  constructor
  · rintro ⟨hname, halias, htime, hvalue⟩
    refine ⟨hname, halias, htime, fun hnull v hv => ?_⟩
    rw [hnull, Option.mem_def.1 hv] at hvalue
    exact hvalue
  · intro h
    refine ⟨h.name, h.metricAlias, h.timestamp, ?_⟩
    split
    · next hnull hv => exact h.value hnull _ hv
    · exact isOk_encodeBoolField 7 true

theorem isOk_encodePayload (timestampMs : Int) (seq : Option Int) (metrics : List SparkplugMetric) :
    (encodePayload P timestampMs seq metrics).isOk = true ↔
      0 ≤ timestampMs ∧ (∀ m ∈ metrics, MetricEncodable P m) ∧ ∀ n ∈ seq, 0 ≤ n := by
  rw [encodePayload, isOk_concat]
  simp only [List.forall_mem_cons, List.forall_mem_append, List.forall_mem_map, isOk_map,
    isOk_encodeMetric, isOk_encodeVarintField, isOk_elim, List.not_mem_nil, false_implies,
    implies_true, and_true]

end XEdge.Northbound.Sparkplug
