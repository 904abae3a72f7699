import XEdge.Modbus.DataTypes

/-!
# Tag groups (`config/schema/drivers/modbus_*.schema.json`)

The tags of a Modbus driver come in groups, with one schema for the three transports.  What the
schema restricts to a few names is an enumeration here; what it restricts by bounds is a
condition, `TagGroup.Accepted`.
-/

namespace XEdge.Modbus

open Lib

/-- The values of `function_code`. -/
inductive FunctionName where
  | readCoils
  | readDiscreteInputs
  | readHoldingRegisters
  | readInputRegisters
  deriving DecidableEq, Repr

def FunctionName.text : FunctionName → String
  | readCoils => "read_coils"
  | readDiscreteInputs => "read_discrete_inputs"
  | readHoldingRegisters => "read_holding_registers"
  | readInputRegisters => "read_input_registers"

def FUNCTION_CODE_BY_NAME : FunctionName → FunctionCode
  | .readCoils => .readCoils
  | .readDiscreteInputs => .readDiscreteInputs
  | .readHoldingRegisters => .readHoldingRegisters
  | .readInputRegisters => .readInputRegisters

/-- `ACCESS_READ_WRITE`, `ACCESS_READ_ONLY` and `ACCESS_WRITE_ONLY`. -/
inductive Access where
  | readWrite
  | readOnly
  | writeOnly
  deriving DecidableEq, Repr

/-- `POLLING_MODE_CONTINUOUS`, `POLLING_MODE_ON_CONNECT` and `POLLING_MODE_ON_DEMAND`. -/
inductive PollingMode where
  | continuous
  | onConnect
  | onDemand
  deriving DecidableEq, Repr

/-- `scaling` of a tag. -/
structure Scaling (φ : Type) where
  scale : Option (Number φ)
  offset : Option (Number φ)
  deriving DecidableEq

structure Tag (φ : Type) where
  id : String
  functionCode : FunctionName
  address : Int
  dataType : Option DataType
  wordOrder : Option Order
  byteOrder : Option Order
  access : Option Access
  scaling : Option (Scaling φ)
  deriving DecidableEq

structure TagGroup (φ : Type) where
  id : String
  scanRateMs : Int
  tags : List (Tag φ)
  maxBlockSize : Option Int
  maxBlockGap : Option Int
  pollingMode : Option PollingMode
  deriving DecidableEq

def DEFAULT_MAX_BLOCK_GAP : Int := 0

section

variable {φ : Type}

namespace Tag

/-- `FUNCTION_CODE_BY_NAME[tag["function_code"]]`. -/
def code (tag : Tag φ) : FunctionCode := FUNCTION_CODE_BY_NAME tag.functionCode

/-- `tag.get("data_type", DEFAULT_DATA_TYPE)`. -/
def getDataType (tag : Tag φ) : DataType := tag.dataType.getD DEFAULT_DATA_TYPE

/-- `tag.get("word_order", DEFAULT_WORD_ORDER)`. -/
def getWordOrder (tag : Tag φ) : Order := tag.wordOrder.getD DEFAULT_WORD_ORDER

/-- `tag.get("byte_order", DEFAULT_BYTE_ORDER)`. -/
def getByteOrder (tag : Tag φ) : Order := tag.byteOrder.getD DEFAULT_BYTE_ORDER

def tagAccess (tag : Tag φ) : Access := tag.access.getD .readWrite

structure Accepted (tag : Tag φ) : Prop where
  id : tag.id ≠ ""
  address : 0 ≤ tag.address ∧ tag.address ≤ 65535

end Tag

namespace TagGroup

structure Accepted (group : TagGroup φ) : Prop where
  id : group.id ≠ ""
  scanRateMs : 1 ≤ group.scanRateMs ∧ group.scanRateMs ≤ 86400000
  nonempty : group.tags ≠ []
  tags : ∀ tag ∈ group.tags, tag.Accepted
  maxBlockSize : ∀ size, group.maxBlockSize = some size → 1 ≤ size
  maxBlockGap : ∀ gap, group.maxBlockGap = some gap → 0 ≤ gap

def readableTags (group : TagGroup φ) : List (Tag φ) :=
  group.tags.filter fun tag => tag.tagAccess ≠ .writeOnly

/-- `group.get("max_block_gap", DEFAULT_MAX_BLOCK_GAP)`. -/
def getMaxBlockGap (group : TagGroup φ) : Int := group.maxBlockGap.getD DEFAULT_MAX_BLOCK_GAP

/-- `group.get("polling_mode", POLLING_MODE_CONTINUOUS)`. -/
def getPollingMode (group : TagGroup φ) : PollingMode := group.pollingMode.getD .continuous

end TagGroup

end

end XEdge.Modbus
