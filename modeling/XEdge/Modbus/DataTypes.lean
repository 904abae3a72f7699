import XEdge.Lib.BigEndian
import XEdge.Lib.Floats
import XEdge.Modbus.Codec

/-!
# Values that span registers (`xedge/drivers/modbus/datatypes.py`)

A device returns 16-bit registers; a tag of 32 or 64 bits is laid out over two or four of them.
The order of the registers and the order of the bytes in a register are settings of the tag.  A
number is packed with its most significant byte first and the bytes are then put in order, as the
source does it with Python's `struct`.

The data types are the names that the schemas of the drivers allow.
-/

namespace XEdge.Modbus

open Lib Lib.BigEndian

/-- The keys of `_TYPE_SPEC`. -/
inductive DataType where
  | uint16
  | int16
  | uint32
  | int32
  | float32
  | uint64
  | int64
  | float64
  deriving DecidableEq, Repr

/-- `WordOrder` and `ByteOrder`. -/
inductive Order where
  | big
  | little
  deriving DecidableEq, Repr

/-- A format character of `struct`; how many bytes it takes follows from the registers. -/
inductive Format where
  /-- `H`, `I` and `Q`; signed, `h`, `i` and `q`. -/
  | integer (signed : Bool)
  /-- `f`. -/
  | single
  /-- `d`. -/
  | double
  deriving DecidableEq, Repr

namespace DataType

def name : DataType → String
  | uint16 => "uint16"
  | int16 => "int16"
  | uint32 => "uint32"
  | int32 => "int32"
  | float32 => "float32"
  | uint64 => "uint64"
  | int64 => "int64"
  | float64 => "float64"

/-- `_TYPE_SPEC`: the format, and the number of registers. -/
def typeSpec : DataType → Format × Nat
  | uint16 => (.integer false, 1)
  | int16 => (.integer true, 1)
  | uint32 => (.integer false, 2)
  | int32 => (.integer true, 2)
  | float32 => (.single, 2)
  | uint64 => (.integer false, 4)
  | int64 => (.integer true, 4)
  | float64 => (.double, 4)

def registerCount (t : DataType) : Nat := t.typeSpec.2

def isFloat : DataType → Bool
  | float32 | float64 => true
  | _ => false

def bounds : DataType → Option (Int × Int)
  | uint16 => some (0, 65535)
  | int16 => some (-32768, 32767)
  | uint32 => some (0, 4294967295)
  | int32 => some (-2147483648, 2147483647)
  | uint64 => some (0, 18446744073709551615)
  | int64 => some (-9223372036854775808, 9223372036854775807)
  | float32 | float64 => none

end DataType

def DEFAULT_DATA_TYPE : DataType := .uint16

def DEFAULT_WORD_ORDER : Order := .big

def DEFAULT_BYTE_ORDER : Order := .big

/-- The interpreter: its floating-point numbers, how they are written and read, and what a
`struct.error` says of an integer out of range. -/
structure Python (φ : Type) extends FloatOps φ where
  reprFloat : φ → String
  /-- `float` of a text; `none` is a `ValueError`. -/
  parseStr : String → Option φ
  /-- `float` of bytes; `none` is a `ValueError`. -/
  parseBytes : Bytes → Option φ
  structError : DataType → Int → String

/-- `int | float`. -/
inductive Number (φ : Type) where
  | int (i : Int)
  | float (x : φ)
  deriving DecidableEq

/-- `TagValue`. -/
inductive Value (φ : Type) where
  | bool (b : Bool)
  | int (i : Int)
  | float (x : φ)
  | str (s : String)
  | bytes (b : Bytes)
  deriving DecidableEq

/-- A number is a `TagValue`. -/
def Number.toValue {φ : Type} : Number φ → Value φ
  | .int i => .int i
  | .float x => .float x

inductive DataTypeError where
  /-- `ModbusDataTypeError`. -/
  | dataType (message : String)
  | arith (e : ArithError)
  deriving DecidableEq, Repr

/-! ## Registers and bytes -/

/-- `words`, reversed if the word order is little. -/
def reorder : Order → List Nat → List Nat
  | .big, words => words
  | .little, words => words.reverse

/-- `struct.pack` of one register. -/
def packWord : Order → Nat → Bytes
  | .big, word => packH word
  | .little, word => (packH word).reverse

/-- `struct.unpack` of one register. -/
def unpackWord : Order → UInt8 → UInt8 → Nat
  | .big, a, b => unpackH a b
  | .little, a, b => unpackH b a

def packWords (byteOrder : Order) (words : List Nat) : Bytes := words.flatMap (packWord byteOrder)

def unpackWords (byteOrder : Order) : Bytes → List Nat
  | a :: b :: rest => unpackWord byteOrder a b :: unpackWords byteOrder rest
  | _ => []

/-! ## Values -/

section Values

variable {φ : Type} (P : Python φ)

/-- `repr(value)`. -/
def Number.repr : Number φ → String
  | .int i => toString i
  | .float x => P.reprFloat x

/-- `int(value)`. -/
def Number.toInt : Number φ → Except DataTypeError Int
  | .int i => .ok i
  | .float x => (P.trunc x).mapError .arith

/-- `float(value)`. -/
def Number.toFloat : Number φ → Except DataTypeError φ
  | .int i => (P.ofInt i).mapError .arith
  | .float x => .ok x

/-- `struct.unpack(f">\x7bformat_char\x7d", raw)[0]`. -/
def unpack (t : DataType) (raw : Bytes) : Number φ :=
  match t.typeSpec with
  | (.integer signed, count) => .int (ofUnsigned signed (2 * count) (ofBytes raw))
  | (.single, _) => .float (P.ofBytes32 raw)
  | (.double, _) => .float (P.ofBytes64 raw)

/-- `struct.pack(f">\x7bformat_char\x7d", coerced)`, with the value coerced first.  An integer out
of range is a `struct.error`, a float beyond single precision an `OverflowError`. -/
def pack (t : DataType) (value : Number φ) : Except DataTypeError Bytes :=
  match t.typeSpec with
  | (.integer signed, count) => do
      let i ← value.toInt P
      if fits signed (2 * count) i then .ok (toBytes (2 * count) (toUnsigned (2 * count) i))
      else
        .error (.dataType (value.repr P ++ " is out of range for " ++ t.name ++ ": " ++
          P.structError t i))
  | (.single, _) => do
      let x ← value.toFloat P
      if P.overflows32 x then .error (.arith .overflow) else .ok (P.bytes32 x)
  | (.double, _) => do
      let x ← value.toFloat P
      .ok (P.bytes64 x)

def decode (registers : List Nat) (t : DataType) (wordOrder byteOrder : Order) :
    Except DataTypeError (Number φ) :=
  let count := t.registerCount
  if registers.length < count then
    .error (.dataType (t.name ++ " needs " ++ toString count ++ " register(s), got " ++
      toString registers.length))
  else
    let words := reorder wordOrder (registers.take count)
    -- `word & 0xFFFF`
    .ok (unpack P t (packWords byteOrder (words.map (· % 65536))))

def encode (value : Number φ) (t : DataType) (wordOrder byteOrder : Order) :
    Except DataTypeError (List Nat) := do
  let raw ← pack P t value
  .ok (reorder wordOrder (unpackWords byteOrder raw))

end Values

/-! ## Reordering -/
variable (order : Order)


@[simp] theorem reorder_reorder (words : List Nat) :
    reorder order (reorder order words) = words := by
  cases order <;> simp [reorder]

variable {words : List Nat} {word : Nat}

@[simp] theorem mem_reorder {order : Order} :
    word ∈ reorder order words ↔ word ∈ words := by
  cases order <;> simp [reorder]

theorem reorder_map (f : Nat → Nat) (words : List Nat) :
    reorder order (words.map f) = (reorder order words).map f := by
  cases order with
  | big => rfl
  | little => exact List.map_reverse.symm

@[simp] theorem length_reorder (words : List Nat) :
    (reorder order words).length = words.length := by
  cases order <;> simp [reorder]

theorem packH_unpackH (hi lo : UInt8) : packH (unpackH hi lo) = [hi, lo] := by
  have hlo := lo.toNat_lt
  have hdiv : unpackH hi lo / 256 = hi.toNat := by
    rw [unpackH]
    omega
  have hlow : UInt8.ofNat (unpackH hi lo) = lo := by
    apply UInt8.toNat_inj.1
    rw [UInt8.toNat_ofNat', unpackH]
    omega
  rw [packH, hdiv, hlow, UInt8.ofNat_toNat]

theorem unpackH_lt (hi lo : UInt8) : unpackH hi lo < 65536 := by
  have hhi := hi.toNat_lt
  have hlo := lo.toNat_lt
  rw [unpackH]
  omega

theorem unpackWord_lt (a b : UInt8) : unpackWord order a b < 65536 := by
  cases order with
  | big => exact unpackH_lt a b
  | little => exact unpackH_lt b a

theorem packWord_unpackWord (a b : UInt8) :
    packWord order (unpackWord order a b) = [a, b] := by
  cases order <;> simp [packWord, unpackWord, packH_unpackH]

@[simp] theorem length_packWord (word : Nat) :
    (packWord order word).length = 2 := by
  cases order <;> rfl

@[simp] theorem length_packWords (words : List Nat) :
    (packWords order words).length = 2 * words.length := by
  simp [packWords, List.length_flatMap, Nat.mul_comm]

theorem unpackWords_packWord_append (h : word < 65536) (rest : Bytes) :
    unpackWords order (packWord order word ++ rest) = word :: unpackWords order rest := by
  cases order with
  | big | little => simp [packWord, packH, unpackWords, unpackWord, unpackH_packH h]

theorem unpackWords_packWords (h : ∀ w ∈ words, w < 65536) :
    unpackWords order (packWords order words) = words := by
  induction words with
  | nil => rfl
  | cons word words ih =>
    obtain ⟨hword, hwords⟩ := List.forall_mem_cons.1 h
    rw [packWords, List.flatMap_cons, unpackWords_packWord_append order hword]
    rw [← packWords, ih hwords]

variable {k : Nat} {raw : Bytes}

theorem length_unpackWords (h : raw.length = 2 * k) :
    (unpackWords order raw).length = k := by
  induction k generalizing raw with
  | zero =>
    obtain rfl := List.length_eq_zero_iff.1 h
    rfl
  | succ k ih =>
    obtain ⟨a, raw, rfl⟩ := List.exists_cons_of_length_eq_add_one h
    obtain ⟨b, raw, rfl⟩ := List.exists_cons_of_length_eq_add_one (Nat.succ.inj h)
    rw [unpackWords, List.length_cons, ih (by simpa [Nat.mul_succ] using h)]

theorem packWords_unpackWords (h : raw.length = 2 * k) :
    packWords order (unpackWords order raw) = raw := by
  induction k generalizing raw with
  | zero =>
    obtain rfl := List.length_eq_zero_iff.1 h
    rfl
  | succ k ih =>
    obtain ⟨a, raw, rfl⟩ := List.exists_cons_of_length_eq_add_one h
    obtain ⟨b, raw, rfl⟩ := List.exists_cons_of_length_eq_add_one (Nat.succ.inj h)
    have hrest : packWords order (unpackWords order raw) = raw :=
      ih (by simpa [Nat.mul_succ] using h)
    rw [packWords] at hrest
    rw [unpackWords, packWords, List.flatMap_cons, packWord_unpackWord, hrest]
    rfl

theorem lt_of_mem_unpackWords :
    ∀ w ∈ unpackWords order raw, w < 65536 := by
  fun_induction unpackWords order raw with
  | case1 a b rest ih => exact List.forall_mem_cons.2 ⟨unpackWord_lt order a b, ih⟩
  | case2 => simp

/-! ## Integers -/

def DataType.IsRegisters (t : DataType) (registers : List Nat) : Prop :=
  registers.length = t.registerCount ∧ ∀ r ∈ registers, r ≤ 65535

def DataType.InRange (t : DataType) (v : Int) : Prop :=
  match t.bounds with
  | some (low, high) => low ≤ v ∧ v ≤ high
  | none => False

theorem typeSpec_of_integer {t : DataType} (h : t.isFloat = false) :
    ∃ signed, t.typeSpec = (.integer signed, t.registerCount) ∧ t.registerCount ≠ 0 ∧
      ∀ v, fits signed (2 * t.registerCount) v ↔ t.InRange v := by
  cases t with
  | float32 | float64 => cases h
  | uint16 | uint32 | uint64 =>
    simp only [DataType.InRange, DataType.bounds, fits, DataType.registerCount,
      DataType.typeSpec]
    norm_num
    omega
  | int16 | int32 | int64 =>
    simp only [DataType.InRange, DataType.bounds, fits, DataType.registerCount,
      DataType.typeSpec]
    norm_num
    omega

section Integers

variable {φ : Type} (P : Python φ) {t : DataType} (wordOrder byteOrder : Order)

def intRegisters (count : Nat) (v : Int) : List Nat :=
  reorder wordOrder (unpackWords byteOrder (toBytes (2 * count) (toUnsigned (2 * count) v)))

def registersInt (signed : Bool) (registers : List Nat) : Int :=
  ofUnsigned signed (2 * registers.length) (ofBytes (packWords byteOrder
    (reorder wordOrder registers)))

variable {wordOrder byteOrder}

theorem length_intRegisters (count : Nat) (v : Int) :
    (intRegisters wordOrder byteOrder count v).length = count := by
  rw [intRegisters, length_reorder, length_unpackWords byteOrder (length_toBytes ..)]

variable {count : Nat} {v : Int}

theorem le_of_mem_intRegisters :
    ∀ r ∈ intRegisters wordOrder byteOrder count v, r ≤ 65535 := by
  intro r hr
  have hlt := lt_of_mem_unpackWords byteOrder r (mem_reorder.1 hr)
  omega

theorem isRegisters_intRegisters (t : DataType) (v : Int) :
    t.IsRegisters (intRegisters wordOrder byteOrder t.registerCount v) :=
  ⟨length_intRegisters .., le_of_mem_intRegisters⟩

variable {signed : Bool}

theorem registersInt_intRegisters (h : fits signed (2 * count) v) :
    registersInt wordOrder byteOrder signed (intRegisters wordOrder byteOrder count v) = v := by
  rw [registersInt, length_intRegisters, intRegisters, reorder_reorder,
    packWords_unpackWords byteOrder (length_toBytes ..), ofBytes_toBytes (toUnsigned_lt ..),
    ofUnsigned_toUnsigned h]

theorem ofBytes_packWords_lt (registers : List Nat) :
    ofBytes (packWords byteOrder (reorder wordOrder registers)) < 256 ^ (2 * registers.length) := by
  have h := ofBytes_lt (packWords byteOrder (reorder wordOrder registers))
  rwa [length_packWords, length_reorder] at h

variable {registers : List Nat}

theorem intRegisters_registersInt (signed : Bool) (h : t.IsRegisters registers) :
    intRegisters wordOrder byteOrder t.registerCount
      (registersInt wordOrder byteOrder signed registers) = registers := by
  have hlength : 2 * registers.length =
      (packWords byteOrder (reorder wordOrder registers)).length := by
    rw [length_packWords, length_reorder]
  have hlt : ∀ w ∈ reorder wordOrder registers, w < 65536 := by
    intro w hw
    have := h.2 w (mem_reorder.1 hw)
    omega
  rw [← h.1, intRegisters, registersInt, toUnsigned_ofUnsigned _ (ofBytes_packWords_lt _), hlength,
    toBytes_ofBytes, unpackWords_packWords byteOrder hlt, reorder_reorder]

theorem inRange_registersInt (hcount : t.registerCount ≠ 0)
    (hfits : ∀ v, fits signed (2 * t.registerCount) v ↔ t.InRange v) (h : t.IsRegisters registers) :
    t.InRange (registersInt wordOrder byteOrder signed registers) := by
  rw [← hfits, ← h.1]
  rw [← h.1] at hcount
  exact fits_ofUnsigned signed (by omega) (ofBytes_packWords_lt _)

def intCodec (wordOrder byteOrder : Order) {signed : Bool} (hcount : t.registerCount ≠ 0)
    (hfits : ∀ v, fits signed (2 * t.registerCount) v ↔ t.InRange v) :
    {v // t.InRange v} ≃ {registers // t.IsRegisters registers} where
  toFun v := ⟨intRegisters wordOrder byteOrder t.registerCount v.val, isRegisters_intRegisters ..⟩
  invFun registers := ⟨registersInt wordOrder byteOrder signed registers.val,
    inRange_registersInt hcount hfits registers.property⟩
  left_inv := by
    rintro ⟨v, hv⟩
    exact Subtype.ext (registersInt_intRegisters ((hfits v).2 hv))
  right_inv := by
    rintro ⟨registers, hregisters⟩
    exact Subtype.ext (intRegisters_registersInt signed hregisters)

theorem encode_int (hspec : t.typeSpec = (.integer signed, t.registerCount))
    (h : fits signed (2 * t.registerCount) v) :
    encode P (.int v) t wordOrder byteOrder =
      .ok (intRegisters wordOrder byteOrder t.registerCount v) := by
  have hpack : pack P t (.int v) =
      .ok (toBytes (2 * t.registerCount) (toUnsigned (2 * t.registerCount) v)) := by
    simp only [pack, hspec, Number.toInt]
    exact if_pos h
  rw [encode, hpack]
  rfl

theorem encode_int_of_not_fits (hspec : t.typeSpec = (.integer signed, t.registerCount))
    (h : ¬ fits signed (2 * t.registerCount) v) :
    encode P (.int v) t wordOrder byteOrder =
      .error (.dataType (toString v ++ " is out of range for " ++ t.name ++ ": " ++
        P.structError t v)) := by
  have hpack : pack P t (.int v) = .error (.dataType (toString v ++ " is out of range for " ++
      t.name ++ ": " ++ P.structError t v)) := by
    simp only [pack, hspec, Number.toInt]
    exact if_neg h
  rw [encode, hpack]
  rfl

theorem decode_int
    (hspec : t.typeSpec = (.integer signed, t.registerCount)) (h : t.IsRegisters registers) :
    decode P registers t wordOrder byteOrder =
      .ok (.int (registersInt wordOrder byteOrder signed registers)) := by
  have hwords : ∀ words : List Nat, (∀ w ∈ words, w ≤ 65535) → words.map (· % 65536) = words := by
    intro words hle
    conv_rhs => rw [← List.map_id words]
    refine List.map_congr_left fun w hw => ?_
    have := hle w hw
    rw [id]
    omega
  have hmasked : (reorder wordOrder registers).map (· % 65536) = reorder wordOrder registers :=
    hwords _ fun w hw => h.2 w (mem_reorder.1 hw)
  rw [decode]
  simp only [h.1, lt_irrefl, if_false]
  rw [← h.1, List.take_length, hmasked, unpack, hspec, ← h.1]
  rfl

theorem decode_of_encode_int (ht : t.isFloat = false)
    (h : encode P (.int v) t wordOrder byteOrder = .ok registers) :
    decode P registers t wordOrder byteOrder = .ok (.int v) := by
  obtain ⟨signed, hspec, -⟩ := typeSpec_of_integer ht
  by_cases hv : fits signed (2 * t.registerCount) v
  · rw [encode_int P hspec hv] at h
    cases h
    rw [decode_int P hspec (isRegisters_intRegisters t v), registersInt_intRegisters hv]
  · rw [encode_int_of_not_fits P hspec hv] at h
    cases h

theorem decode_masked (wordOrder byteOrder : Order) (h : t.registerCount ≤ registers.length) :
    t.IsRegisters ((registers.take t.registerCount).map (· % 65536)) ∧
    decode P ((registers.take t.registerCount).map (· % 65536)) t wordOrder byteOrder =
      decode P registers t wordOrder byteOrder := by
  have hlength : ((registers.take t.registerCount).map (· % 65536)).length = t.registerCount := by
    rw [List.length_map, List.length_take_of_le h]
  have hmasked : ∀ words : List Nat,
      (reorder wordOrder (words.map (· % 65536))).map (· % 65536) =
        (reorder wordOrder words).map (· % 65536) := by
    intro words
    rw [reorder_map, List.map_map]
    refine List.map_congr_left fun w _ => ?_
    exact Nat.mod_mod w 65536
  refine ⟨⟨hlength, fun r hr => ?_⟩, ?_⟩
  · obtain ⟨w, -, rfl⟩ := List.mem_map.1 hr
    omega
  · rw [decode, decode, if_neg (by omega), if_neg (by omega), List.take_of_length_le hlength.le]
    simp only [hmasked]

theorem decodes_int_iff (t : DataType) (wordOrder byteOrder : Order) (v : Int) :
    (∃ registers, decode P registers t wordOrder byteOrder = .ok (.int v)) ↔
      t.isFloat = false ∧ t.InRange v := by
  constructor
  · rintro ⟨registers, h⟩
    have hcount : t.registerCount ≤ registers.length := by
      by_contra hshort
      rw [decode, if_pos (by omega)] at h
      cases h
    have ht : t.isFloat = false := by
      cases t with
      | float32 | float64 =>
        rw [decode, if_neg (by omega)] at h
        cases h
      | uint16 | int16 | uint32 | int32 | uint64 | int64 => rfl
    obtain ⟨signed, hspec, hpos, hfits⟩ := typeSpec_of_integer ht
    obtain ⟨hregisters, hmasked⟩ := decode_masked P wordOrder byteOrder hcount
    rw [← hmasked, decode_int P hspec hregisters] at h
    cases h
    exact ⟨ht, inRange_registersInt hpos hfits hregisters⟩
  · rintro ⟨ht, hv⟩
    obtain ⟨signed, hspec, -, hfits⟩ := typeSpec_of_integer ht
    exact ⟨_, decode_of_encode_int P ht (encode_int P hspec ((hfits v).2 hv))⟩

end Integers

theorem length_of_pack {φ : Type} {P : Python φ} {t : DataType} {value : Number φ}
    (h : pack P t value = .ok raw) : raw.length = 2 * t.registerCount := by
  have hinteger : ∀ signed count, t.typeSpec = (.integer signed, count) →
      raw.length = 2 * count := by
    intro signed count hspec
    simp only [pack, hspec] at h
    obtain ⟨i, -, h⟩ := bind_eq_ok.1 h
    split at h
    · cases h
      exact length_toBytes ..
    · cases h
  cases t with
  | float32 =>
    obtain ⟨x, -, h⟩ := bind_eq_ok.1 h
    split at h
    · cases h
    · cases h
      exact P.length32 x
  | float64 =>
    obtain ⟨x, -, h⟩ := bind_eq_ok.1 h
    cases h
    exact P.length64 x
  | uint16 | int16 | uint32 | int32 | uint64 | int64 => exact hinteger _ _ rfl

theorem isRegisters_of_encode {φ : Type} {P : Python φ} {t : DataType} {value : Number φ}
    {wordOrder byteOrder : Order} {registers : List Nat}
    (h : encode P value t wordOrder byteOrder = .ok registers) : t.IsRegisters registers := by
  obtain ⟨raw, hraw, h⟩ := bind_eq_ok.1 h
  cases h
  refine ⟨?_, fun r hr => ?_⟩
  · rw [length_reorder, length_unpackWords byteOrder (length_of_pack hraw)]
  · have hlt := lt_of_mem_unpackWords byteOrder r (mem_reorder.1 hr)
    omega

/-- An interpreter for integer types: it has no text for a floating-point number. -/
def integerPython : Python ℚ where
  toFloatOps := .exact ⟨fun _ => [0, 0, 0, 0], fun _ => [0, 0, 0, 0, 0, 0, 0, 0], fun _ => rfl,
    fun _ => rfl, fun _ => 0, fun _ => 0⟩
  reprFloat _ := ""
  parseStr _ := none
  parseBytes _ := none
  structError _ _ := "argument out of range"

end XEdge.Modbus
