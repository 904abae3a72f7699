import XEdge.Modbus.DataTypes
import XEdge.Northbound.Mqtt
import XEdge.Northbound.Sparkplug.Decode

/-!
# Modbus integers as Sparkplug metrics

`decode` of the Modbus drivers returns integers of 16 to 64 bits, signed or not.
`_to_sparkplug_metric` asks `infer_datatype` for the datatype of the metric, and
`infer_datatype` answers `UINT32` for every `int`; the value then goes into a varint field,
which has no form for a negative number.
-/

namespace XEdge.Northbound.Sparkplug

open Lib

def DataType.valueRange : DataType → Option (Int × Int)
  | .int8 => some (-128, 127)
  | .int16 => some (-32768, 32767)
  | .int32 => some (-2147483648, 2147483647)
  | .int64 => some (-9223372036854775808, 9223372036854775807)
  | .uint8 => some (0, 255)
  | .uint16 => some (0, 65535)
  | .uint32 => some (0, 4294967295)
  | .uint64 | .datetime => some (0, 18446744073709551615)
  | .unknown | .float | .double | .boolean | .string | .text => none

def DataType.Holds (d : DataType) (v : Int) : Prop :=
  ∃ range ∈ d.valueRange, range.1 ≤ v ∧ v ≤ range.2

/-- The field that `_encode_metric_value` writes for the integer is read as that integer. -/
def Carries (P : PyConvert) (d : DataType) (v : Int) : Prop :=
  ∃ number n : Nat, (n : Int) = v ∧
    Writes (encodeMetricValue P d (.int v)) [⟨number, WIRE_TYPE_VARINT, .int n⟩]

theorem encodeMetricValue_int (P : PyConvert) {d : DataType} (hd : d.valueRange.isSome = true)
    (v : Int) : ∃ number, encodeMetricValue P d (.int v) = encodeVarintField number v := by
  cases d with
  | int8 | int16 | int32 | uint8 | uint16 | uint32 =>
    refine ⟨10, ?_⟩
    rw [encodeMetricValue, P.toInt_int]
    rfl
  | int64 | uint64 | datetime =>
    refine ⟨11, ?_⟩
    rw [encodeMetricValue, P.toInt_int]
    rfl
  | unknown | float | double | boolean | string | text => cases hd

/-- **A varint field carries exactly the numbers that are not negative**, whichever integer
datatype the metric declares. -/
theorem carries_iff (P : PyConvert) {d : DataType} (hd : d.valueRange.isSome = true) (v : Int) :
    Carries P d v ↔ 0 ≤ v := by
  constructor
  · rintro ⟨_, n, rfl, -⟩
    exact Int.natCast_nonneg n
  · intro hv
    obtain ⟨number, hfield⟩ := encodeMetricValue_int P hd v
    obtain ⟨n, rfl⟩ := Int.eq_ofNat_of_zero_le hv
    refine ⟨number, n, rfl, ?_⟩
    rw [hfield]
    exact writes_varintField number n

theorem holds_uint32_iff (v : Int) : DataType.uint32.Holds v ↔ 0 ≤ v ∧ v ≤ 4294967295 := by
  simp [DataType.Holds, DataType.valueRange]

variable {tag : MqttTag} {v : Int}

theorem toSparkplugMetric_int (hvalue : tag.value = .int v) (hquality : tag.quality ≠ .bad) :
    toSparkplugMetric tag = .ok ⟨some tag.tagId, tag.timestampMs, .uint32, some (.int v), none,
      false⟩ := by
  have hnull : (tag.quality == .bad) = false := beq_eq_false_iff_ne.2 hquality
  rw [toSparkplugMetric, hvalue, hnull]
  rfl

/-- The metric of the tag declares a datatype that holds the integer, and its field carries the
integer. -/
def Faithful (P : PyConvert) (tag : MqttTag) (v : Int) : Prop :=
  ∃ m, toSparkplugMetric tag = .ok m ∧ m.isNull = false ∧ m.value = some (.int v) ∧
    m.datatype.Holds v ∧ Carries P m.datatype v

theorem faithful_iff (P : PyConvert) (hvalue : tag.value = .int v)
    (hquality : tag.quality ≠ .bad) : Faithful P tag v ↔ 0 ≤ v ∧ v ≤ 4294967295 := by
  have hmetric := toSparkplugMetric_int hvalue hquality
  constructor
  · rintro ⟨m, hm, -, -, hholds, -⟩
    rw [hmetric] at hm
    cases hm
    exact (holds_uint32_iff v).1 hholds
  · intro hv
    exact ⟨_, hmetric, rfl, rfl, (holds_uint32_iff v).2 hv, (carries_iff P rfl v).2 hv.1⟩

section Decoded

variable {φ : Type} (Py : Modbus.Python φ) (P : PyConvert)

/-- **Modbus integers as metrics.**  An integer that the Modbus codec decodes, of any type and
in any order of words and bytes, is published in a metric whose datatype holds it and whose
field carries it exactly when it is one of the numbers from 0 to 4294967295. -/
theorem metric_in_range_iff {registers : List Nat} {t : Modbus.DataType}
    {wordOrder byteOrder : Modbus.Order} {v : Int}
    (hdecode : Modbus.decode Py registers t wordOrder byteOrder = .ok (.int v)) {tag : MqttTag}
    (hvalue : tag.value = .int v) (hquality : tag.quality ≠ .bad) :
    t.InRange v ∧ (Faithful P tag v ↔ 0 ≤ v ∧ v ≤ 4294967295) := by
  have hrange := (Modbus.decodes_int_iff Py t wordOrder byteOrder v).1 ⟨registers, hdecode⟩
  exact ⟨hrange.2, faithful_iff P hvalue hquality⟩

def goodSample (v : Int) : MqttTag := ⟨PyStr.ofString "level", 0, .int v, .good⟩

theorem quality_goodSample (v : Int) : (goodSample v).quality ≠ .bad := by
  intro h
  cases h

theorem faithful_goodSample_iff (v : Int) :
    Faithful P (goodSample v) v ↔ 0 ≤ v ∧ v ≤ 4294967295 :=
  faithful_iff P rfl (quality_goodSample v)

theorem metric_in_range_iff_fullCounter :
    Faithful PyConvert.strict (goodSample 4294967295) 4294967295 := by
  have hdecode : Modbus.decode Modbus.integerPython [65535, 65535] .uint32 .big .big =
      .ok (.int 4294967295) := by decide +kernel
  have hrange : Modbus.DataType.uint32.InRange 4294967295 ∧
      (Faithful PyConvert.strict (goodSample 4294967295) 4294967295 ↔
        (0 : Int) ≤ 4294967295 ∧ (4294967295 : Int) ≤ 4294967295) :=
    metric_in_range_iff Modbus.integerPython PyConvert.strict hdecode rfl (by decide)
  exact hrange.2.2 (by decide)

/-- Minus one in an `int16` register is declared `UINT32`, and its metric cannot be encoded; the
`uint64` after the largest 32-bit number is encoded, under a datatype that does not hold it. -/
theorem integers_out_of_range :
    Modbus.decode Modbus.integerPython [65535] .int16 .big .big = .ok (.int (-1)) ∧
    (toSparkplugMetric (goodSample (-1))).map SparkplugMetric.datatype = .ok .uint32 ∧
    (toSparkplugMetric (goodSample (-1)) >>= encodeMetric PyConvert.strict) =
      .error (.valueError "encode_varint does not support negative values: -1") ∧
    ¬ Faithful PyConvert.strict (goodSample (-1)) (-1) ∧
    Modbus.decode Modbus.integerPython [0, 1, 0, 0] .uint64 .big .big = .ok (.int 4294967296) ∧
    (toSparkplugMetric (goodSample 4294967296)).map SparkplugMetric.datatype = .ok .uint32 ∧
    (toSparkplugMetric (goodSample 4294967296) >>= encodeMetric PyConvert.strict).isOk = true ∧
    ¬ Faithful PyConvert.strict (goodSample 4294967296) 4294967296 := by
  refine ⟨by decide +kernel, rfl, by decide +kernel, ?_, by decide +kernel, rfl,
    by decide +kernel, ?_⟩
  · rw [faithful_goodSample_iff]
    decide
  · rw [faithful_goodSample_iff]
    decide

end Decoded

end XEdge.Northbound.Sparkplug
