import XEdge.Core.Scaling
import XEdge.Core.WriteRouter
import XEdge.Modbus.Batching

/-!
# Writing a tag (`xedge/drivers/modbus/polling.py`)

A written value is scaled back to what the device holds, rounded for the integer types, laid out
over registers and sent as FC05, FC06 or FC16.  `write` catches what the device answers and a value
that the data type cannot hold; what the conversion of the value raises besides goes on to the
caller.
-/

namespace XEdge.Modbus.Writing

open Lib XEdge.Core Batching Planner

variable {φ σ : Type}

/-! ## The conversion of a value -/

section Conversion

variable (P : Python φ)

/-- `float(value)`. -/
def floatOf : Value φ → Except DataTypeError φ
  | .bool b => (P.ofInt (if b then 1 else 0)).mapError .arith
  | .int i => (P.ofInt i).mapError .arith
  | .float x => .ok x
  | .str s =>
      match P.parseStr s with
      | some x => .ok x
      | none => .error (.arith .value)
  | .bytes b =>
      match P.parseBytes b with
      | some x => .ok x
      | none => .error (.arith .value)

/-- `bool(value)`. -/
def truthy : Value φ → Bool
  | .bool b => b
  | .int i => i ≠ 0
  | .float x => P.truthy x
  | .str s => s ≠ ""
  | .bytes b => b ≠ []

def inverseScale (value : Value φ) (scaling : Option (Scaling φ)) : Except DataTypeError φ := do
  let x ← floatOf P value
  match scaling with
  | none => .ok x
  | some scaling =>
      let offset ← (scaling.offset.getD (.float P.zero)).toFloat P
      let scale ← (scaling.scale.getD (.float P.one)).toFloat P
      (P.div (P.sub x offset) scale).mapError .arith

def rawValue (t : DataType) (inverse : φ) : Except DataTypeError (Number φ) :=
  if t.isFloat then .ok (.float inverse)
  else do
    let i ← (P.round inverse).mapError .arith
    .ok (.int i)

def registersFor (tag : Tag φ) (value : Value φ) : Except DataTypeError (List Nat) := do
  let inverse ← inverseScale P value tag.scaling
  let raw ← rawValue P tag.getDataType inverse
  encode P raw tag.getDataType tag.getWordOrder tag.getByteOrder

def registersOp (address : Int) : List Nat → Op
  | [register] => .writeRegister address register
  | registers => .writeRegisters address (registers.map Int.ofNat)

/-- The request that `write` submits. -/
def requestFor (functionCode : FunctionCode) (tag : Tag φ) (value : Value φ) :
    Except DataTypeError Op :=
  if functionCode = .writeSingleCoil then .ok (.writeCoil tag.address (truthy P value))
  else do
    let registers ← registersFor P tag value
    .ok (registersOp tag.address registers)

end Conversion

/-! ## The write -/

/-- What of the conversion `write` catches. -/
def writeError : DataTypeError → WriteError
  | .dataType message => .dataType message
  | .arith _ => .conversion

def submitTo (respond : σ → Bytes → σ × Bytes) (op : Op) (s : σ) : Except WriteError Unit × σ :=
  match exchange respond op s with
  | (.ok _, s') => (.ok (), s')
  | (.error e, s') => (.error (.failure (.codec e)), s')

section Write

variable (P : Python φ) (tagsById : Dict String (Tag φ))
  (submit : Op → σ → Except WriteError Unit × σ)

def attempt (functionCode : FunctionCode) (tag : Tag φ) (value : Value φ) (s : σ) :
    Except WriteError Unit × σ :=
  match requestFor P functionCode tag value with
  | .error e => (.error (writeError e), s)
  | .ok op => submit op s

def write (tagId : String) (value : Value φ) (s : σ) : Except WriteError WriteResult × σ :=
  match tagsById.get? tagId with
  | none => (.ok ⟨false, tagId, some "Unknown tag"⟩, s)
  | some tag =>
      if tag.tagAccess = .readOnly then
        (.ok ⟨false, tagId, some "Tag is configured read-only (access: read_only)"⟩, s)
      else
        match writeFunctionCodeForRead tag.functionCode.text with
        | none =>
            (.ok ⟨false, tagId,
              some (tag.functionCode.text ++ " is a read-only Modbus memory class")⟩, s)
        | some functionCode =>
            match attempt P submit functionCode tag value s with
            | (.ok (), s') => (.ok ⟨true, tagId, none⟩, s')
            | (.error e, s') =>
                match e.message with
                | some message => (.ok ⟨false, tagId, some message⟩, s')
                | none => (.error e, s')

/-- `access` as it is spelt. -/
def accessText : Access → String
  | .readWrite => "read_write"
  | .readOnly => "read_only"
  | .writeOnly => "write_only"

def toWritable (tag : Tag φ) : WritableTag :=
  ⟨tag.functionCode.text, tag.address, tag.access.map accessText⟩

theorem tagAccess_toWritable (tag : Tag φ) :
    (toWritable tag).tagAccess = "read_only" ↔ tag.tagAccess = .readOnly := by
  have htext : (toWritable tag).tagAccess = accessText tag.tagAccess := by
    rw [WritableTag.tagAccess, toWritable, Tag.tagAccess]
    cases tag.access <;> rfl
  rw [htext]
  cases tag.tagAccess <;> decide

/-- **The `write` of the write router, with the conversion filled in.** -/
theorem write_eq_modbusWrite (tagId : String) (value : Value φ) (s : σ) (given : TagValue) :
    (write P tagsById submit tagId value s).1 =
      modbusWrite (tagsById.mapValues toWritable)
        (fun functionCode _ _ =>
          match tagsById.get? tagId with
          | some tag => (attempt P submit functionCode tag value s).1
          | none => .ok ())
        tagId given := by
  rw [write, modbusWrite, Dict.get?_mapValues]
  cases htag : tagsById.get? tagId with
  | none => rfl
  | some tag =>
    simp only [Option.map_some, tagAccess_toWritable]
    by_cases haccess : tag.tagAccess = .readOnly
    · rw [if_pos haccess, if_pos haccess]
    · rw [if_neg haccess, if_neg haccess]
      have htext : (toWritable tag).functionCode = tag.functionCode.text := rfl
      rw [htext]
      cases hcode : writeFunctionCodeForRead tag.functionCode.text with
      | none => rfl
      | some functionCode =>
        simp only
        rcases attempt P submit functionCode tag value s with ⟨outcome, s'⟩
        cases outcome with
        | ok done => rfl
        | error e => cases hmessage : e.message <;> simp [hmessage]
variable {tagId : String} {value : Value φ} {s s' : σ}


theorem write_raises_iff {s : σ} {e : WriteError} :
    (write P tagsById submit tagId value s).1 = .error e ↔
      ∃ tag functionCode, tagsById.get? tagId = some tag ∧ tag.tagAccess ≠ .readOnly ∧
        writeFunctionCodeForRead tag.functionCode.text = some functionCode ∧
        (attempt P submit functionCode tag value s).1 = .error e ∧ e.message = none := by
  rw [write_eq_modbusWrite P tagsById submit tagId value s (.bool false), modbusWrite_raises_iff,
    Dict.get?_mapValues]
  constructor
  · rintro ⟨tag, functionCode, htag, haccess, hcode, hattempt, hmessage⟩
    obtain ⟨tag, hget, rfl⟩ := Option.map_eq_some_iff.1 htag
    rw [hget] at hattempt
    exact ⟨tag, functionCode, hget, (tagAccess_toWritable tag).not.1 haccess, hcode, hattempt,
      hmessage⟩
  · rintro ⟨tag, functionCode, hget, haccess, hcode, hattempt, hmessage⟩
    refine ⟨toWritable tag, functionCode, ?_, (tagAccess_toWritable tag).not.2 haccess, hcode, ?_,
      hmessage⟩
    · rw [hget]
      rfl
    · rw [hget]
      exact hattempt

theorem attempt_eq_ok {functionCode : FunctionCode} {tag : Tag φ}
    (h : attempt P submit functionCode tag value s = (.ok (), s')) :
    ∃ op, requestFor P functionCode tag value = .ok op ∧ submit op s = (.ok (), s') := by
  rw [attempt] at h
  cases hrequest : requestFor P functionCode tag value with
  | error e =>
    rw [hrequest] at h
    cases h
  | ok op =>
    rw [hrequest] at h
    exact ⟨op, rfl, h⟩

theorem attempt_of_write {result : WriteResult}
    (h : write P tagsById submit tagId value s = (.ok result, s')) (hsuccess : result.success) :
    ∃ tag functionCode, tagsById.get? tagId = some tag ∧
      writeFunctionCodeForRead tag.functionCode.text = some functionCode ∧
      attempt P submit functionCode tag value s = (.ok (), s') := by
  have hfailed : ∀ {message : Option String} {s₁ : σ},
      ((.ok ⟨false, tagId, message⟩, s₁) : Except WriteError WriteResult × σ) = (.ok result, s') →
        False := by
    intro message s₁ heq
    cases heq
    cases hsuccess
  rw [write] at h
  cases htag : tagsById.get? tagId with
  | none =>
    rw [htag] at h
    exact (hfailed h).elim
  | some tag =>
    simp only [htag] at h
    split at h
    · exact (hfailed h).elim
    · split at h
      · exact (hfailed h).elim
      · next functionCode hcode =>
        refine ⟨tag, functionCode, rfl, hcode, ?_⟩
        split at h
        · next s₁ hattempt =>
          cases h
          exact hattempt
        · split at h
          · exact (hfailed h).elim
          · cases h

theorem write_succeeded {result : WriteResult}
    (h : write P tagsById submit tagId value s = (.ok result, s')) (hsuccess : result.success) :
    ∃ tag functionCode op, tagsById.get? tagId = some tag ∧
      writeFunctionCodeForRead tag.functionCode.text = some functionCode ∧
      requestFor P functionCode tag value = .ok op ∧ submit op s = (.ok (), s') := by
  obtain ⟨tag, functionCode, htag, hcode, hattempt⟩ :=
    attempt_of_write P tagsById submit h hsuccess
  obtain ⟨op, hrequest, hsubmit⟩ := attempt_eq_ok P submit hattempt
  exact ⟨tag, functionCode, op, htag, hcode, hrequest, hsubmit⟩

end Write

/-! ## When a write answers -/

section Answers

open Binary64

def InFloatRange : Number Binary64 → Prop
  | .int i => |(i : ℚ)| < OVERFLOW
  | .float _ => True

def binaryOf : Number Binary64 → Binary64
  | .int i => ofRat i
  | .float x => x

/-- `scaling.get("offset", 0.0)`. -/
def offsetOf (scaling : Scaling Binary64) : Number Binary64 :=
  scaling.offset.getD (.float (.finite 0))

/-- `scaling.get("scale", 1.0)`. -/
def scaleOf (scaling : Scaling Binary64) : Number Binary64 :=
  scaling.scale.getD (.float (.finite 1))

/-- A scaling that can be undone: its numbers are in range and the scale is not zero. -/
structure Invertible (scaling : Scaling Binary64) : Prop where
  offset : InFloatRange (offsetOf scaling)
  scale : InFloatRange (scaleOf scaling)
  nonzero : scaleOf scaling ≠ .int 0 ∧ scaleOf scaling ≠ .float (.finite 0)

def scaledBack (x : Binary64) : Option (Scaling Binary64) → Binary64
  | none => x
  | some scaling => (x.sub (binaryOf (offsetOf scaling))).quot (binaryOf (scaleOf scaling))

/-- What can be laid out in a data type, or is refused as out of its range: for the integer types
anything finite, in single precision anything that is not beyond it. -/
def Storable : DataType → Binary64 → Prop
  | .float64, _ => True
  | .float32, y => y.overflows32 = false
  | _, y => ∃ q, y = .finite q

def Convertible (P : Python Binary64) (tag : Tag Binary64) (value : Value Binary64) : Prop :=
  ∃ x, floatOf P value = .ok x ∧ (∀ scaling, tag.scaling = some scaling → Invertible scaling) ∧
    Storable tag.getDataType (scaledBack x tag.scaling)

theorem arith_of_floatOf {P : Python Binary64} {value : Value Binary64} {e : DataTypeError}
    (h : floatOf P value = .error e) : ∃ e', e = .arith e' := by
  have hmap : ∀ {x : Except ArithError Binary64},
      x.mapError DataTypeError.arith = .error e → ∃ e', e = .arith e' := by
    intro x hx
    cases x with
    | ok x => cases hx
    | error e' => exact ⟨e', (Except.error.inj hx).symm⟩
  cases value with
  | bool | int => exact hmap h
  | float x => cases h
  | str s | bytes b =>
    rw [floatOf] at h
    split at h
    · cases h
    · cases h
      exact ⟨.value, rfl⟩

theorem binaryOf_eq_zero_iff {n : Number Binary64} :
    binaryOf n = .finite 0 ↔ n = .int 0 ∨ n = .float (.finite 0) := by
  cases n with
  | int i =>
    simp only [binaryOf, Number.int.injEq, reduceCtorEq, or_false]
    refine ⟨fun h => ?_, fun h => ?_⟩
    · by_contra hne
      exact ofRat_intCast_ne_zero hne h
    · rw [h, Int.cast_zero]
      exact if_pos rfl
  | float x => simp [binaryOf]

variable {P : Python Binary64} (hP : P.toFloatOps = .binary64 P.toFloatBytes)

include hP

theorem toFloat_of_inFloatRange {n : Number Binary64} (h : InFloatRange n) :
    n.toFloat P = .ok (binaryOf n) := by
  cases n with
  | int i =>
    have hint : P.ofInt i = _ := (congrArg (fun F => F.ofInt i) hP).trans (ofInt_eq _ i)
    rw [InFloatRange] at h
    rw [Number.toFloat, hint, if_pos h]
    rfl
  | float x => rfl

theorem toFloat_of_not_inFloatRange {n : Number Binary64} (h : ¬ InFloatRange n) :
    n.toFloat P = .error (.arith .overflow) := by
  cases n with
  | int i =>
    have hint : P.ofInt i = _ := (congrArg (fun F => F.ofInt i) hP).trans (ofInt_eq _ i)
    rw [InFloatRange] at h
    rw [Number.toFloat, hint, if_neg h]
    rfl
  | float x => exact absurd trivial h

theorem offset_eq (scaling : Scaling Binary64) :
    scaling.offset.getD (.float P.zero) = offsetOf scaling :=
  congrArg (fun F : FloatOps Binary64 => scaling.offset.getD (.float F.zero)) hP

theorem scale_eq (scaling : Scaling Binary64) :
    scaling.scale.getD (.float P.one) = scaleOf scaling :=
  congrArg (fun F : FloatOps Binary64 => scaling.scale.getD (.float F.one)) hP

theorem inverseScale_of_invertible {value : Value Binary64} {x : Binary64}
    {scaling : Option (Scaling Binary64)} (hx : floatOf P value = .ok x)
    (h : ∀ s, scaling = some s → Invertible s) :
    inverseScale P value scaling = .ok (scaledBack x scaling) := by
  rw [inverseScale, hx]
  cases scaling with
  | none => rfl
  | some s =>
    obtain ⟨hoffset, hscale, hnonzero⟩ := h s rfl
    have hdiv : P.div (P.sub x (binaryOf (offsetOf s))) (binaryOf (scaleOf s)) =
        .ok (scaledBack x (some s)) := by
      have hne : binaryOf (scaleOf s) ≠ .finite 0 := fun h0 => by
        obtain h0 | h0 := binaryOf_eq_zero_iff.1 h0
        · exact hnonzero.1 h0
        · exact hnonzero.2 h0
      have hops := congrArg (fun F : FloatOps Binary64 =>
        F.div (F.sub x (binaryOf (offsetOf s))) (binaryOf (scaleOf s))) hP
      exact hops.trans (if_neg hne)
    show ((s.offset.getD (.float P.zero)).toFloat P >>= fun offset =>
      (s.scale.getD (.float P.one)).toFloat P >>= fun scale =>
        (P.div (P.sub x offset) scale).mapError DataTypeError.arith) = _
    rw [offset_eq hP, scale_eq hP, toFloat_of_inFloatRange hP hoffset,
      toFloat_of_inFloatRange hP hscale]
    show (P.div (P.sub x (binaryOf (offsetOf s))) (binaryOf (scaleOf s))).mapError _ = _
    rw [hdiv]
    rfl

theorem inverseScale_of_not_invertible {value : Value Binary64} {x : Binary64}
    {scaling : Scaling Binary64} (hx : floatOf P value = .ok x) (h : ¬ Invertible scaling) :
    ∃ e, inverseScale P value (some scaling) = .error (.arith e) := by
  rw [inverseScale, hx]
  show ∃ e, ((scaling.offset.getD (.float P.zero)).toFloat P >>= fun offset =>
    (scaling.scale.getD (.float P.one)).toFloat P >>= fun scale =>
      (P.div (P.sub x offset) scale).mapError DataTypeError.arith) = .error (.arith e)
  rw [offset_eq hP, scale_eq hP]
  by_cases hoffset : InFloatRange (offsetOf scaling)
  · rw [toFloat_of_inFloatRange hP hoffset]
    by_cases hscale : InFloatRange (scaleOf scaling)
    · rw [toFloat_of_inFloatRange hP hscale]
      have hzero : binaryOf (scaleOf scaling) = .finite 0 := by
        by_contra hne
        refine h ⟨hoffset, hscale, fun h0 => hne ?_, fun h0 => hne ?_⟩
        · exact binaryOf_eq_zero_iff.2 (.inl h0)
        · exact binaryOf_eq_zero_iff.2 (.inr h0)
      have hdiv : P.div (P.sub x (binaryOf (offsetOf scaling))) (binaryOf (scaleOf scaling)) =
          .error .zeroDivision :=
        (congrArg (fun F : FloatOps Binary64 => F.div (P.sub x (binaryOf (offsetOf scaling)))
          (binaryOf (scaleOf scaling))) hP).trans (if_pos hzero)
      refine ⟨.zeroDivision, ?_⟩
      show (P.div (P.sub x (binaryOf (offsetOf scaling))) (binaryOf (scaleOf scaling))).mapError _
        = _
      rw [hdiv]
      rfl
    · rw [toFloat_of_not_inFloatRange hP hscale]
      exact ⟨.overflow, rfl⟩
  · rw [toFloat_of_not_inFloatRange hP hoffset]
    exact ⟨.overflow, rfl⟩

theorem encode_rawValue_raises_iff_of_integer {t : DataType} (ht : t.isFloat = false) (y : Binary64)
    (wordOrder byteOrder : Order) :
    (∃ e, (rawValue P t y >>= fun raw => encode P raw t wordOrder byteOrder) = .error (.arith e)) ↔
      ¬ ∃ q, y = .finite q := by
  have hround : P.round y = toInt roundHalfEven y :=
    congrArg (fun F : FloatOps Binary64 => F.round y) hP
  rw [rawValue, if_neg (by simp [ht]), hround]
  cases y with
  | finite q =>
    refine iff_of_false ?_ fun hnot => hnot ⟨q, rfl⟩
    rintro ⟨e, h⟩
    replace h : encode P (.int (roundHalfEven q)) t wordOrder byteOrder = .error (.arith e) := h
    obtain ⟨signed, hspec, -, -⟩ := typeSpec_of_integer ht
    by_cases hfits : BigEndian.fits signed (2 * t.registerCount) (roundHalfEven q)
    · rw [encode_int P hspec hfits] at h
      cases h
    · rw [encode_int_of_not_fits P hspec hfits] at h
      cases h
  | infinity negative => exact iff_of_true ⟨.overflow, rfl⟩ (by simp)
  | nan => exact iff_of_true ⟨.value, rfl⟩ (by simp)

theorem encode_float32_raises_iff (y : Binary64) (wordOrder byteOrder : Order) :
    (∃ e, encode P (.float y) .float32 wordOrder byteOrder = .error (.arith e)) ↔
      ¬ y.overflows32 = false := by
  have hoverflows : P.overflows32 y = y.overflows32 :=
    congrArg (fun F : FloatOps Binary64 => F.overflows32 y) hP
  show (∃ e, ((if P.overflows32 y then Except.error (DataTypeError.arith .overflow)
    else .ok (P.bytes32 y)) >>= fun raw =>
      Except.ok (reorder wordOrder (unpackWords byteOrder raw))) =
        .error (DataTypeError.arith e)) ↔ ¬ y.overflows32 = false
  rw [hoverflows]
  cases y.overflows32 with
  | true => exact iff_of_true ⟨.overflow, rfl⟩ Bool.noConfusion
  | false =>
    refine iff_of_false ?_ fun hnot => hnot rfl
    rintro ⟨e, h⟩
    cases h

/-- Rounding a number and laying it out raises something that `write` does not catch exactly if the
number is not storable. -/
theorem encode_rawValue_raises_iff (t : DataType) (y : Binary64) (wordOrder byteOrder : Order) :
    (∃ e, (rawValue P t y >>= fun raw => encode P raw t wordOrder byteOrder) = .error (.arith e)) ↔
      ¬ Storable t y := by
  cases t with
  | float64 =>
    refine iff_of_false ?_ fun hnot => hnot trivial
    rintro ⟨e, h⟩
    cases h
  | float32 => exact encode_float32_raises_iff hP y wordOrder byteOrder
  | uint16 | int16 | uint32 | int32 | uint64 | int64 =>
    exact encode_rawValue_raises_iff_of_integer hP rfl y wordOrder byteOrder

theorem registersFor_raises_iff (tag : Tag Binary64) (value : Value Binary64) :
    (∃ e, registersFor P tag value = .error (.arith e)) ↔ ¬ Convertible P tag value := by
  rw [registersFor]
  cases hx : floatOf P value with
  | error e =>
    obtain ⟨e', rfl⟩ := arith_of_floatOf hx
    refine iff_of_true ⟨e', ?_⟩ ?_
    · rw [inverseScale, hx]
      rfl
    · rintro ⟨x, hok, -⟩
      rw [hx] at hok
      cases hok
  | ok x =>
    by_cases hscaling : ∀ scaling, tag.scaling = some scaling → Invertible scaling
    · rw [inverseScale_of_invertible hP hx hscaling]
      refine (encode_rawValue_raises_iff hP _ _ _ _).trans (not_congr ?_)
      refine ⟨fun h => ⟨x, hx, hscaling, h⟩, ?_⟩
      rintro ⟨x', hx', -, h⟩
      rw [hx] at hx'
      cases hx'
      exact h
    · push Not at hscaling
      obtain ⟨scaling, hsome, hnot⟩ := hscaling
      obtain ⟨e, he⟩ := inverseScale_of_not_invertible hP hx hnot
      refine iff_of_true ⟨e, ?_⟩ ?_
      · rw [hsome, he]
        rfl
      · rintro ⟨x', -, hinvertible, -⟩
        exact hnot (hinvertible scaling hsome)

omit hP

def Delivers (respond : σ → Bytes → σ × Bytes) : Prop :=
  ∀ s (op : Op) pdu, op.isWrite = true → op.requestPdu = .ok pdu →
    (∃ r, op.decodeResponse (respond s pdu).2 = .ok r) ∨
      ∃ functionCode exceptionCode,
        op.decodeResponse (respond s pdu).2 = .error (.modbusException functionCode exceptionCode)

theorem requestPdu_registersOp {address : Int} (haddress : 0 ≤ address ∧ address ≤ 65535)
    {registers : List Nat} (hlength : 1 ≤ registers.length ∧ registers.length ≤ 123)
    (hbound : ∀ r ∈ registers, r ≤ 65535) :
    (registersOp address registers).isWrite = true ∧
      ∃ pdu, (registersOp address registers).requestPdu = .ok pdu := by
  have hvalues : ∀ v ∈ registers.map Int.ofNat, 0 ≤ v ∧ v ≤ 0xFFFF := by
    intro v hv
    obtain ⟨r, hr, rfl⟩ := List.mem_map.1 hv
    have hle := hbound r hr
    simp only [Int.ofNat_eq_natCast]
    omega
  rw [registersOp.eq_def]
  split
  · next register =>
    have hle := hbound register (List.mem_singleton_self register)
    exact ⟨rfl, _, encodeWriteSingleRegister_of_ok haddress (by omega)⟩
  · exact ⟨rfl, _, encodeWriteMultipleRegisters_of_ok haddress (by rwa [List.length_map]) hvalues⟩

theorem requestPdu_of_requestFor {functionCode : FunctionCode} {tag : Tag φ} {P : Python φ}
    {value : Value φ} {op : Op} (htag : tag.Accepted)
    (h : requestFor P functionCode tag value = .ok op) :
    op.isWrite = true ∧ ∃ pdu, op.requestPdu = .ok pdu := by
  rw [requestFor] at h
  split at h
  · cases h
    refine ⟨rfl, ?_⟩
    rw [Op.requestPdu, encodeWriteSingleCoil, checkAddress_of_ok htag.address]
    exact ⟨_, rfl⟩
  · obtain ⟨registers, hregisters, h⟩ := bind_eq_ok.1 h
    obtain ⟨inverse, -, hregisters⟩ := bind_eq_ok.1 hregisters
    obtain ⟨raw, -, hregisters⟩ := bind_eq_ok.1 hregisters
    obtain ⟨hlength, hbound⟩ := isRegisters_of_encode hregisters
    have hcount : 1 ≤ tag.getDataType.registerCount ∧ tag.getDataType.registerCount ≤ 4 := by
      cases tag.getDataType <;> decide
    cases h
    exact requestPdu_registersOp htag.address (by omega) hbound

theorem holding_of_requestFor {functionCode : FunctionCode} {tag : Tag φ} {P : Python φ}
    {value : Value φ} {e : ArithError}
    (hcode : writeFunctionCodeForRead tag.functionCode.text = some functionCode)
    (h : requestFor P functionCode tag value = .error (.arith e)) :
    tag.functionCode = .readHoldingRegisters ∧ registersFor P tag value = .error (.arith e) := by
  rw [requestFor] at h
  split at h
  · cases h
  · next hcoil =>
    obtain h | ⟨registers, -, h⟩ := bind_eq_error.1 h
    · refine ⟨?_, h⟩
      cases hname : tag.functionCode with
      | readHoldingRegisters => rfl
      | readCoils =>
        rw [hname] at hcode
        cases hcode
        exact absurd rfl hcoil
      | readDiscreteInputs | readInputRegisters =>
        rw [hname] at hcode
        cases hcode
    · cases h

theorem message_of_attempt {respond : σ → Bytes → σ × Bytes} (hdelivers : Delivers respond)
    {functionCode : FunctionCode} {tag : Tag φ} {P : Python φ} {value : Value φ} {op : Op} {s : σ}
    {e : WriteError} (htag : tag.Accepted) (hop : requestFor P functionCode tag value = .ok op)
    (h : (attempt P (submitTo respond) functionCode tag value s).1 = .error e) :
    e.message ≠ none := by
  obtain ⟨hwrite, pdu, hpdu⟩ := requestPdu_of_requestFor htag hop
  simp only [attempt, hop, submitTo, exchange, hpdu] at h
  obtain ⟨r, hr⟩ | ⟨code, exceptionCode, hr⟩ := hdelivers s op pdu hwrite hpdu
  · rw [hr] at h
    cases h
  · rw [hr] at h
    cases h
    exact Option.some_ne_none _

include hP in
theorem raises_iff_not_convertible {tagsById : Dict String (Tag Binary64)}
    (hvalid : ∀ id tag, tagsById.get? id = some tag → tag.Accepted)
    {respond : σ → Bytes → σ × Bytes} (hdelivers : Delivers respond) (tagId : String)
    (value : Value Binary64) (s : σ) :
    (∃ e, (write P tagsById (submitTo respond) tagId value s).1 = .error e) ↔
      ∃ tag, tagsById.get? tagId = some tag ∧ tag.tagAccess ≠ .readOnly ∧
        tag.functionCode = .readHoldingRegisters ∧ ¬ Convertible P tag value := by
  constructor
  · rintro ⟨e, he⟩
    obtain ⟨tag, functionCode, htag, haccess, hcode, hattempt, hmessage⟩ :=
      (write_raises_iff P tagsById _).1 he
    cases hrequest : requestFor P functionCode tag value with
    | ok op =>
      exact absurd hmessage (message_of_attempt hdelivers (hvalid _ _ htag) hrequest hattempt)
    | error error =>
      rw [attempt, hrequest] at hattempt
      cases hattempt
      cases error with
      | dataType message => cases hmessage
      | arith arith =>
        have hholding := holding_of_requestFor hcode hrequest
        refine ⟨tag, htag, haccess, hholding.1, ?_⟩
        exact (registersFor_raises_iff hP tag value).1 ⟨arith, hholding.2⟩
  · rintro ⟨tag, htag, haccess, hholding, hnot⟩
    obtain ⟨e, he⟩ := (registersFor_raises_iff hP tag value).2 hnot
    refine ⟨.conversion, (write_raises_iff P tagsById _).2
      ⟨tag, .writeSingleRegister, htag, haccess, by rw [hholding]; rfl, ?_, rfl⟩⟩
    have hrequest : requestFor P .writeSingleRegister tag value = .error (.arith e) := by
      rw [requestFor, if_neg (by decide), he]
      rfl
    rw [attempt, hrequest]
    rfl

end Answers

def confirming (s : Unit) (pdu : Bytes) : Unit × Bytes := (s, pdu.take 5)

theorem delivers_confirming : Delivers confirming := by
  intro s op pdu hwrite hpdu
  refine .inl ⟨.confirmed, ?_⟩
  cases op with
  | readBlock f a q => cases hwrite
  | writeCoil a v =>
    obtain ⟨-, -, h⟩ := bind_eq_ok.1 hpdu
    cases h
    exact map_eq_ok.2 ⟨_, decodeEcho_echo .writeSingleCoil .., rfl⟩
  | writeRegister a v =>
    obtain ⟨-, -, h⟩ := bind_eq_ok.1 hpdu
    split at h
    · cases h
      exact map_eq_ok.2 ⟨_, decodeEcho_echo .writeSingleRegister .., rfl⟩
    · cases h
  | writeRegisters a vs =>
    obtain ⟨-, -, h⟩ := bind_eq_ok.1 hpdu
    split at h
    · cases h
    · split at h
      · cases h
        exact map_eq_ok.2 ⟨_, decodeEcho_echo .writeMultipleRegisters .., rfl⟩
      · cases h

def ieeePython : Python Binary64 where
  toFloatOps := .binary64 ⟨fun _ => [0, 0, 0, 0], fun _ => [0, 0, 0, 0, 0, 0, 0, 0], fun _ => rfl,
    fun _ => rfl, fun _ => .finite 0, fun _ => .finite 0⟩
  reprFloat _ := ""
  parseStr _ := none
  parseBytes _ := none
  structError _ _ := "argument out of range"

def setpoint (scaling : Option (Scaling Binary64)) : Tag Binary64 :=
  ⟨"setpoint", .readHoldingRegisters, 40, none, none, none, none, scaling⟩

/-- `isinstance(value, int | float)`, as a number. -/
def numeric : Value ℚ → Option ℚ
  | .bool b => some (if b then 1 else 0)
  | .int i => some i
  | .float x => some x
  | .str _ | .bytes _ => none

def rational : Number ℚ → ℚ
  | .int i => i
  | .float x => x

def rawScaling (scaling : Scaling ℚ) : RawScaling :=
  ⟨scaling.scale.map rational, scaling.offset.map rational⟩

def toTagValue : Value ℚ → TagValue
  | .bool b => .bool b
  | .int i => .int i
  | .float x => .float x
  | .str s => .str s
  | .bytes b => .bytes b

def toTagUpdate (update : Update ℚ) (now : Int) : TagUpdate where
  tagId := update.tagId
  value := toTagValue update.value
  quality := update.quality
  timestampNs := now
  sourceTimestampNs := none
  sourceDriver := update.sourceDriver
  sourceAddress := update.sourceAddress

section ReadBack

variable {P : Python ℚ} (hP : P.toFloatOps = .exact P.toFloatBytes)

include hP

theorem floatOf_exact {value : Value ℚ} {v : ℚ} (h : numeric value = some v) :
    floatOf P value = .ok v := by
  have hint : ∀ i : Int, (P.ofInt i).mapError DataTypeError.arith = .ok (i : ℚ) := fun i =>
    congrArg (fun F : FloatOps ℚ => (F.ofInt i).mapError DataTypeError.arith) hP
  cases value with
  | bool b =>
    cases h
    rw [floatOf, hint]
    cases b <;> simp
  | int i =>
    cases h
    exact hint i
  | float x =>
    cases h
    rfl
  | str s | bytes b => cases h

theorem toFloat_exact (n : Number ℚ) : n.toFloat P = .ok (rational n) := by
  cases n with
  | int i => exact congrArg (fun F : FloatOps ℚ => (F.ofInt i).mapError DataTypeError.arith) hP
  | float x => rfl

theorem inverseScale_exact {value : Value ℚ} {v : ℚ} (h : numeric value = some v)
    {scaling : Option (Scaling ℚ)} (hscale : (RawScaling.values (scaling.map rawScaling)).1 ≠ 0) :
    inverseScale P value scaling =
      .ok ((v - (RawScaling.values (scaling.map rawScaling)).2) /
        (RawScaling.values (scaling.map rawScaling)).1) := by
  rw [inverseScale, floatOf_exact hP h]
  cases scaling with
  | none => simp [RawScaling.values, bind, Except.bind]
  | some s =>
    have hzero : P.zero = 0 := congrArg (fun F : FloatOps ℚ => F.zero) hP
    have hone : P.one = 1 := congrArg (fun F : FloatOps ℚ => F.one) hP
    have hoffset : rational (s.offset.getD (.float P.zero)) = (s.offset.map rational).getD 0 := by
      cases s.offset <;> simp [rational, hzero]
    have hscaleEq : rational (s.scale.getD (.float P.one)) = (s.scale.map rational).getD 1 := by
      cases s.scale <;> simp [rational, hone]
    have hdiv : ∀ x y : ℚ, y ≠ 0 →
        (P.div (P.sub v x) y).mapError DataTypeError.arith = .ok ((v - x) / y) := by
      intro x y hy
      have hops := congrArg (fun F : FloatOps ℚ => F.div (F.sub v x) y) hP
      have hexact : P.div (P.sub v x) y = .ok ((v - x) / y) := hops.trans (if_neg hy)
      rw [hexact]
      rfl
    show ((s.offset.getD (.float P.zero)).toFloat P >>= fun offset =>
      (s.scale.getD (.float P.one)).toFloat P >>= fun scale =>
        (P.div (P.sub v offset) scale).mapError DataTypeError.arith) = _
    rw [toFloat_exact hP, toFloat_exact hP, hoffset, hscaleEq]
    exact hdiv _ _ hscale

def unscaled (tag : Tag ℚ) (v : ℚ) : ℚ :=
  (v - (RawScaling.values (tag.scaling.map rawScaling)).2) /
    (RawScaling.values (tag.scaling.map rawScaling)).1

theorem decode_registersFor {tag : Tag ℚ} (hinteger : tag.getDataType.isFloat = false)
    (hscale : (RawScaling.values (tag.scaling.map rawScaling)).1 ≠ 0) {value : Value ℚ} {v : ℚ}
    (hv : numeric value = some v) {registers : List Nat}
    (h : registersFor P tag value = .ok registers) :
    tag.getDataType.IsRegisters registers ∧
    decode P registers tag.getDataType tag.getWordOrder tag.getByteOrder =
      .ok (.int (roundHalfEven (unscaled tag v))) := by
  obtain ⟨inverse, hinverse, h⟩ := bind_eq_ok.1 h
  rw [inverseScale_exact hP hv hscale] at hinverse
  cases hinverse
  have hround : P.round (unscaled tag v) = .ok (roundHalfEven (unscaled tag v)) :=
    congrArg (fun F : FloatOps ℚ => F.round (unscaled tag v)) hP
  have hraw : rawValue P tag.getDataType (unscaled tag v) =
      .ok (.int (roundHalfEven (unscaled tag v))) := by
    rw [rawValue, if_neg (by simp [hinteger]), hround]
    rfl
  obtain ⟨raw, hraw', h⟩ := bind_eq_ok.1 h
  cases hraw.symm.trans hraw'
  exact ⟨isRegisters_of_encode h, decode_of_encode_int P hinteger h⟩

omit hP

theorem abs_rescaled_sub_le {tag : Tag ℚ} {v : ℚ}
    (hscale : (RawScaling.values (tag.scaling.map rawScaling)).1 ≠ 0) :
    |(roundHalfEven (unscaled tag v) : ℚ) * (RawScaling.values (tag.scaling.map rawScaling)).1 +
        (RawScaling.values (tag.scaling.map rawScaling)).2 - v| ≤
      |(RawScaling.values (tag.scaling.map rawScaling)).1| / 2 := by
  generalize hs : RawScaling.values (tag.scaling.map rawScaling) = s at hscale ⊢
  have hround := abs_roundHalfEven_sub_le (unscaled tag v)
  have hfactor : (roundHalfEven (unscaled tag v) : ℚ) * s.1 + s.2 - v =
      (roundHalfEven (unscaled tag v) - unscaled tag v) * s.1 := by
    rw [unscaled, hs]
    field_simp
    ring
  calc |(roundHalfEven (unscaled tag v) : ℚ) * s.1 + s.2 - v|
      = |(roundHalfEven (unscaled tag v) : ℚ) - unscaled tag v| * |s.1| := by
        rw [hfactor, abs_mul]
    _ ≤ 1 / 2 * |s.1| := mul_le_mul_of_nonneg_right hround (abs_nonneg _)
    _ = |s.1| / 2 := by ring

theorem exchange_of_submit {op : Op} {mem mem' : Memory}
    (h : submitTo Memory.respond op mem = (.ok (), mem')) :
    (∃ r, exchange Memory.respond op mem = (.ok r, mem')) ∧ ∃ pdu, op.requestPdu = .ok pdu := by
  rw [submitTo] at h
  split at h
  · next r s hexchange =>
    cases h
    refine ⟨⟨r, hexchange⟩, ?_⟩
    rw [exchange] at hexchange
    cases hpdu : op.requestPdu with
    | ok pdu => exact ⟨pdu, rfl⟩
    | error e =>
      rw [hpdu] at hexchange
      cases hexchange
  · cases h

theorem address_registersOp (address : Int) (registers : List Nat) :
    (registersOp address registers).address = address := by
  rw [registersOp.eq_def]
  split <;> rfl

theorem stored_of_submit {address : Int} {registers : List Nat}
    (hbound : ∀ r ∈ registers, r ≤ 65535)
    (hlength : 1 ≤ registers.length ∧ registers.length ≤ 123) {mem mem' : Memory}
    (h : submitTo Memory.respond (registersOp address registers) mem = (.ok (), mem')) :
    0 ≤ address ∧ address + registers.length ≤ 65536 ∧
      mem'.values .readHoldingRegisters address.toNat registers.length =
        some (.registers registers) := by
  obtain ⟨words, rfl⟩ : ∃ words : List UInt16, registers = words.map UInt16.toNat := by
    refine ⟨registers.map UInt16.ofNat, ?_⟩
    rw [List.map_map]
    refine (List.map_id registers).symm.trans (List.map_congr_left fun r hr => ?_)
    have hle := hbound r hr
    simp only [id, Function.comp, UInt16.toNat_ofNat']
    omega
  rw [List.length_map] at hlength ⊢
  obtain ⟨⟨r, hexchange⟩, pdu, hpdu⟩ := exchange_of_submit h
  have haddress : 0 ≤ address ∧ address ≤ 65535 := by
    have hbounds := Op.requestPdu_address hpdu
    rwa [address_registersOp] at hbounds
  have hstored : mem' = mem.storeHolding address.toNat words ∧ address + words.length ≤ 65536 := by
    cases words with
    | nil => exact absurd hlength.1 (by simp)
    | cons word rest =>
      cases rest with
      | nil =>
        have hone := (exchange_writeRegister haddress word mem).symm.trans hexchange
        refine ⟨(Prod.mk.inj hone).2.symm, ?_⟩
        rw [List.length_singleton]
        omega
      | cons second rest =>
        have hmany := exchange_writeRegisters haddress hlength mem
        have hop : registersOp address ((word :: second :: rest).map UInt16.toNat) =
            .writeRegisters address ((word :: second :: rest).map fun r => (r.toNat : Int)) := by
          simp [registersOp]
        rw [hop, hmany] at hexchange
        split at hexchange
        · next hend => exact ⟨(Prod.mk.inj hexchange).2.symm, by omega⟩
        · cases hexchange
  obtain ⟨rfl, hend⟩ := hstored
  exact ⟨haddress.1, hend, values_storeHolding mem address.toNat words⟩

theorem readOneBlock_registers {tag : Tag ℚ} (hholding : tag.functionCode = .readHoldingRegisters)
    (cfg : ReadConfig) {mem : Memory} {registers : List Nat} {i : Int}
    (hlength : registers.length = tag.getDataType.registerCount)
    (hnonneg : 0 ≤ tag.address) (hend : tag.address + registers.length ≤ 65536)
    (hvalues : mem.values .readHoldingRegisters tag.address.toNat registers.length =
      some (.registers registers))
    (hdecode : decode P registers tag.getDataType tag.getWordOrder tag.getByteOrder =
      .ok (.int i)) :
    ∃ update, Batching.readOneBlock P cfg mem (alone tag) = .ok [update] ∧
      update.value = .int i ∧ update.quality = .good := by
  have hcode : tag.code = .readHoldingRegisters := by rw [Tag.code, hholding]; rfl
  have hspan : spanOf tag = registers.length := by
    rw [spanOf, tagSpan, hcode, if_neg (by decide), hlength]
  have hspace : InAddressSpace tag := ⟨hnonneg, by rw [hspan]; exact hend⟩
  have hvaluesOf : valuesOf mem tag = some (.registers registers) := by
    rw [valuesOf, hcode, hspan, Int.toNat_natCast]
    exact hvalues
  obtain ⟨read, update, hread, hblock, -, hupdate, hquality⟩ :=
    readOneBlock_alone_some P cfg hspace hvaluesOf
  have hslice : pySlice registers 0 (0 + spanOf tag) = registers := by
    rw [hspan]
    simp [pySlice, sliceBound]
  rw [goodValue, hcode, if_neg (by decide)] at hread
  simp only [numbers, hslice, hdecode] at hread
  cases hread
  exact ⟨update, hblock, hupdate, hquality⟩

end ReadBack

/-- **Write, then read back.**  In exact arithmetic, for every tag of an integer type on holding
registers with a scale other than zero, every number whose write is accepted, and every device that
stores the registers: the tag reads back, scaled, within half a scale of the number. -/
theorem write_read_back (P : Python ℚ) (hP : P.toFloatOps = .exact P.toFloatBytes)
    (tagsById : Dict String (Tag ℚ)) (tagId : String) (tag : Tag ℚ)
    (htag : tagsById.get? tagId = some tag) (hholding : tag.functionCode = .readHoldingRegisters)
    (hinteger : tag.getDataType.isFloat = false)
    (hscale : (RawScaling.values (tag.scaling.map rawScaling)).1 ≠ 0) (value : Value ℚ) (v : ℚ)
    (hv : numeric value = some v) (mem mem' : Memory) (result : WriteResult)
    (hwrite : write P tagsById (submitTo Memory.respond) tagId value mem = (.ok result, mem'))
    (hsuccess : result.success) (cfg : ReadConfig) (now : Int) (deadband : Option DeadbandConfig)
    (engineeringUnit : Option String) :
    ∃ update v', Batching.readOneBlock P cfg mem' (alone tag) = .ok [update] ∧
      update.quality = .good ∧
      (normalize (toTagUpdate update now)
        (some ⟨RawScaling.toConfig (tag.scaling.map rawScaling), deadband,
          engineeringUnit⟩)).value.number = some v' ∧
      |v' - v| ≤ |(RawScaling.values (tag.scaling.map rawScaling)).1| / 2 := by
  obtain ⟨tag', functionCode, op, hget, hcode, hrequest, hsubmit⟩ :=
    write_succeeded P tagsById _ hwrite hsuccess
  cases htag.symm.trans hget
  rw [hholding] at hcode
  cases hcode
  rw [requestFor, if_neg (by decide)] at hrequest
  obtain ⟨registers, hregisters, hop⟩ := bind_eq_ok.1 hrequest
  cases hop
  obtain ⟨⟨hlength, hbound⟩, hdecode⟩ := decode_registersFor hP hinteger hscale hv hregisters
  have hcount : 1 ≤ tag.getDataType.registerCount ∧ tag.getDataType.registerCount ≤ 4 := by
    cases tag.getDataType <;> decide
  obtain ⟨hnonneg, hend, hvalues⟩ := stored_of_submit hbound (by omega) hsubmit
  obtain ⟨update, hblock, hupdate, hquality⟩ :=
    readOneBlock_registers hholding cfg hlength hnonneg hend hvalues hdecode
  refine ⟨update, _, hblock, hquality, number_normalize (x := roundHalfEven (unscaled tag v)) ?_ _,
    ?_⟩
  · show (toTagValue update.value).number = _
    rw [hupdate]
    rfl
  · rw [appliedScaling_toConfig]
    exact abs_rescaled_sub_le hscale

def level : Tag ℚ :=
  ⟨"level", .readHoldingRegisters, 100, some .int32, some .little, none, none,
    some ⟨some (.float (1 / 10)), some (.int 20)⟩⟩

theorem write_read_back_level :
    (write integerPython (Dict.ofList [("level", level)]) (submitTo Memory.respond) "level"
      (.float (-1234 / 100)) blank).1 = .ok ⟨true, "level", none⟩ ∧
    ∃ update v', Batching.readOneBlock integerPython ⟨"plc", 0, false⟩
        (write integerPython (Dict.ofList [("level", level)]) (submitTo Memory.respond) "level"
          (.float (-1234 / 100)) blank).2 (alone level) = .ok [update] ∧
      update.quality = .good ∧
      (normalize (toTagUpdate update 0) (some ⟨RawScaling.toConfig (level.scaling.map rawScaling),
        none, none⟩)).value.number = some v' ∧
      |v' - -1234 / 100| ≤ |(RawScaling.values (level.scaling.map rawScaling)).1| / 2 := by
  have hwrite : (write integerPython (Dict.ofList [("level", level)]) (submitTo Memory.respond)
      "level" (.float (-1234 / 100)) blank).1 = .ok ⟨true, "level", none⟩ := by decide +kernel
  refine ⟨hwrite, write_read_back integerPython rfl _ "level" level rfl rfl rfl ?_
    (.float (-1234 / 100)) _ rfl blank _ _ (Prod.ext hwrite rfl) rfl _ 0 none none⟩
  show (1 / 10 : ℚ) ≠ 0
  norm_num

end XEdge.Modbus.Writing
