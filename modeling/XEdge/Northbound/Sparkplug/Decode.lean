import XEdge.Lib.Delimited
import XEdge.Northbound.Sparkplug.Payload

/-!
# Reading Sparkplug B payloads (`xedge/northbound/sparkplug/wire.py`, `payload.py`)

The decoder is written by hand too.  It checks no wire types: what a field carries is a
number or a run of bytes, and a field of the wrong kind is taken over as it is, or raises
where it is used.  `iter_fields` is a generator, so a field is handled before the next one
is read; what it yields is a list of fields and, at the end, perhaps an error.
-/

namespace XEdge.Northbound.Sparkplug

open Lib

/-! ## The wire -/

inductive DecodeError where
  | protobufDecodeError (message : String)
  /-- `raw.decode` of a number. -/
  | attributeError
  | unicodeDecodeError
  /-- `DataType(raw)` of something that is no member. -/
  | valueError
  /-- `struct.error`: not as many bytes as the format asks for. -/
  | structError
  | typeError
  deriving DecidableEq, Repr

inductive Raw where
  | int (n : Nat)
  | bytes (b : Bytes)
  deriving DecidableEq, Repr

/-- A field, as `iter_fields` yields it. -/
structure Field where
  fieldNumber : Nat
  wireType : Nat
  raw : Raw
  deriving DecidableEq, Repr

/-- The loop of `decode_varint`, on the bytes from `pos` on. -/
def varintFrom (result shift : Nat) : Bytes → Except DecodeError (Nat × Bytes)
  | [] => .error (.protobufDecodeError "Truncated varint")
  | byte :: data =>
      let result := result ||| (byte.toNat &&& 0x7F) <<< shift
      if byte.toNat &&& 0x80 = 0 then .ok (result, data) else varintFrom result (shift + 7) data

def decodeVarint (data : Bytes) : Except DecodeError (Nat × Bytes) := varintFrom 0 0 data

/-- `data[pos : pos + length]`, which must be there. -/
def takeBytes (length : Nat) (message : String) (data : Bytes) :
    Except DecodeError (Bytes × Bytes) :=
  if data.length < length then .error (.protobufDecodeError message)
  else .ok (data.splitAt length)

def readRaw (wireType : Nat) (data : Bytes) : Except DecodeError (Raw × Bytes) :=
  if wireType = WIRE_TYPE_VARINT then
    (decodeVarint data).map fun r => (.int r.1, r.2)
  else if wireType = WIRE_TYPE_FIXED64 then
    (takeBytes 8 "Truncated fixed64 field" data).map fun r => (.bytes r.1, r.2)
  else if wireType = WIRE_TYPE_LENGTH_DELIMITED then
    decodeVarint data >>= fun l =>
      (takeBytes l.1 "Truncated length-delimited field" l.2).map fun r => (.bytes r.1, r.2)
  else if wireType = WIRE_TYPE_FIXED32 then
    (takeBytes 4 "Truncated fixed32 field" data).map fun r => (.bytes r.1, r.2)
  else .error (.protobufDecodeError ("Unsupported wire type: " ++ toString wireType))

/-- One round of `iter_fields`. -/
def readField (data : Bytes) : Except DecodeError (Field × Bytes) :=
  decodeVarint data >>= fun tag =>
    (readRaw (tag.1 &&& 0x7) tag.2).map fun r => (⟨tag.1 >>> 3, tag.1 &&& 0x7, r.1⟩, r.2)

/-- The loop of `iter_fields`; every round takes a byte at least. -/
def fieldsLoop : Nat → Bytes → List Field × Option DecodeError
  | 0, _ => ([], none)
  | rounds + 1, data =>
      if data = [] then ([], none)
      else
        match readField data with
        | .error e => ([], some e)
        | .ok (f, rest) =>
            let r := fieldsLoop rounds rest
            (f :: r.1, r.2)

/-- `iter_fields`: what it yields, and what it then raises. -/
def iterFields (data : Bytes) : List Field × Option DecodeError := fieldsLoop data.length data

/-- A `for` over a generator: the body may raise before the generator does. -/
def forFields {σ : Type} (body : σ → Field → Except DecodeError σ) (s : σ)
    (fields : List Field × Option DecodeError) : Except DecodeError σ :=
  fields.1.foldlM body s >>= fun s =>
    match fields.2 with
    | none => .ok s
    | some e => .error e

/-! ## Texts -/

def continuation : Bytes → Option (Nat × Bytes)
  | [] => none
  | b :: data => if 0x80 ≤ b.toNat ∧ b.toNat < 0xC0 then some (b.toNat - 0x80, data) else none

def accept (least value : Nat) (data : Bytes) : Option (CodePoint × Bytes) :=
  if h : least ≤ value ∧ value < 0x110000 ∧ ¬ (0xD800 ≤ value ∧ value ≤ 0xDFFF) then
    some (⟨value, h.2.1⟩, data)
  else none

def decodeChar : Bytes → Option (CodePoint × Bytes)
  | [] => none
  | b :: data =>
      if b.toNat < 0x80 then accept 0 b.toNat data
      else if b.toNat < 0xC0 then none
      else if b.toNat < 0xE0 then
        (continuation data).bind fun x => accept 0x80 ((b.toNat - 0xC0) * 64 + x.1) x.2
      else if b.toNat < 0xF0 then
        (continuation data).bind fun x => (continuation x.2).bind fun y =>
          accept 0x800 (((b.toNat - 0xE0) * 64 + x.1) * 64 + y.1) y.2
      else
        (continuation data).bind fun x => (continuation x.2).bind fun y =>
          (continuation y.2).bind fun z =>
            accept 0x10000 ((((b.toNat - 0xF0) * 64 + x.1) * 64 + y.1) * 64 + z.1) z.2

/-- The characters of a text; every one has a byte at least. -/
def decodeChars : Nat → Bytes → Option PyStr
  | 0, data => if data = [] then some [] else none
  | rounds + 1, data =>
      if data = [] then some []
      else (decodeChar data).bind fun c => (decodeChars rounds c.2).map (c.1 :: ·)

/-- `raw.decode("utf-8")`. -/
def decodeUtf8 : Raw → Except DecodeError PyStr
  | .int _ => .error .attributeError
  | .bytes b =>
      match decodeChars b.length b with
      | some s => .ok s
      | none => .error .unicodeDecodeError

/-! ## Messages -/

def Raw.value : Raw → PyValue
  | .int n => .int n
  | .bytes b => .bytes b

/-- `bool(raw)`. -/
def Raw.toBool : Raw → Bool
  | .int n => n ≠ 0
  | .bytes b => b ≠ []

/-- `DataType(raw)`. -/
def DataType.ofRaw : Raw → Except DecodeError DataType
  | .int n =>
      match [unknown, int8, int16, int32, int64, uint8, uint16, uint32, uint64, float, double,
        boolean, string, datetime, text][n]? with
      | some d => .ok d
      | none => .error .valueError
  | .bytes _ => .error .valueError

def ofLittleEndian : Bytes → Nat
  | [] => 0
  | b :: data => b.toNat + 256 * ofLittleEndian data

/-- `struct.unpack` of one number of `size` bytes. -/
def unpack (size : Nat) : Raw → Except DecodeError Nat
  | .int _ => .error .typeError
  | .bytes b => if b.length = size then .ok (ofLittleEndian b) else .error .structError

/-- What `decode_metric` returns.  A timestamp, or an integer value, is what its field
carried. -/
structure DecodedMetric where
  name : Option PyStr
  timestampMs : PyValue
  datatype : DataType
  value : Option PyValue
  metricAlias : Option Int
  isNull : Bool
  deriving DecidableEq, Repr

/-- The local variables of `decode_metric`. -/
structure MetricFields where
  name : Option PyStr
  timestampMs : PyValue
  datatype : DataType
  isNull : Bool
  intValue : Option PyValue
  fixed32Bytes : Option Raw
  fixed64Bytes : Option Raw
  boolValue : Option Bool
  stringValue : Option PyStr

def MetricFields.start : MetricFields :=
  ⟨none, .int 0, .unknown, false, none, none, none, none, none⟩

/-- The body of the loop of `decode_metric`. -/
def MetricFields.read (s : MetricFields) (f : Field) : Except DecodeError MetricFields :=
  match f.fieldNumber with
  | 1 => (decodeUtf8 f.raw).map fun name => { s with name := some name }
  | 3 => .ok { s with timestampMs := f.raw.value }
  | 4 => (DataType.ofRaw f.raw).map fun datatype => { s with datatype := datatype }
  | 7 => .ok { s with isNull := f.raw.toBool }
  | 10 | 11 => .ok { s with intValue := some f.raw.value }
  | 12 => .ok { s with fixed32Bytes := some f.raw }
  | 13 => .ok { s with fixed64Bytes := some f.raw }
  | 14 => .ok { s with boolValue := some f.raw.toBool }
  | 15 => (decodeUtf8 f.raw).map fun text => { s with stringValue := some text }
  | _ => .ok s

section Messages

variable (widen : UInt32 → UInt64)

/-- The value of a metric that is not null; `widen` is how `struct.unpack("<f", …)` makes a
`float` of four bytes. -/
def MetricFields.metricValue (s : MetricFields) : Except DecodeError (Option PyValue) :=
  match s.datatype with
  | .int8 | .int16 | .int32 | .uint8 | .uint16 | .uint32 | .int64 | .uint64 | .datetime =>
      .ok s.intValue
  | .float =>
      match s.fixed32Bytes with
      | some raw => (unpack 4 raw).map fun n => some (.float (widen (UInt32.ofNat n)))
      | none => .ok none
  | .double =>
      match s.fixed64Bytes with
      | some raw => (unpack 8 raw).map fun n => some (.float (UInt64.ofNat n))
      | none => .ok none
  | .boolean => .ok (s.boolValue.map .bool)
  | .string | .text => .ok (s.stringValue.map .str)
  | .unknown => .ok none

/-- The end of `decode_metric`, which reads no alias. -/
def MetricFields.metric (s : MetricFields) : Except DecodeError DecodedMetric :=
  (if s.isNull then .ok none else s.metricValue widen).map fun value =>
    ⟨s.name, s.timestampMs, s.datatype, value, none, s.isNull⟩

def decodeMetric : Raw → Except DecodeError DecodedMetric
  -- `len` of a number
  | .int _ => .error .typeError
  | .bytes data =>
      forFields MetricFields.read .start (iterFields data) >>= MetricFields.metric widen

/-- What `decode_payload` returns. -/
structure DecodedPayload where
  timestampMs : PyValue
  seq : Option PyValue
  metrics : List DecodedMetric
  deriving DecidableEq, Repr

/-- The body of the loop of `decode_payload`. -/
def DecodedPayload.read (s : DecodedPayload) (f : Field) : Except DecodeError DecodedPayload :=
  match f.fieldNumber with
  | 1 => .ok { s with timestampMs := f.raw.value }
  | 2 => (decodeMetric widen f.raw).map fun m => { s with metrics := s.metrics ++ [m] }
  | 3 => .ok { s with seq := some f.raw.value }
  | _ => .ok s

def decodePayload (data : Bytes) : Except DecodeError DecodedPayload :=
  forFields (DecodedPayload.read widen) ⟨.int 0, none, []⟩ (iterFields data)

end Messages

/-! ## Varints -/

variable {n : Nat}

theorem varint_byte (h : n < 128) :
    ((UInt8.ofNat n).toNat &&& 0x7F = n ∧ (UInt8.ofNat n).toNat &&& 0x80 = 0) ∧
      (UInt8.ofNat (n + 128)).toNat &&& 0x7F = n ∧ (UInt8.ofNat (n + 128)).toNat &&& 0x80 ≠ 0 := by
  have hall : ∀ m : Fin 128,
      ((UInt8.ofNat m.val).toNat &&& 0x7F = m.val ∧ (UInt8.ofNat m.val).toNat &&& 0x80 = 0) ∧
        (UInt8.ofNat (m.val + 128)).toNat &&& 0x7F = m.val ∧
        (UInt8.ofNat (m.val + 128)).toNat &&& 0x80 ≠ 0 := by decide
  exact hall ⟨n, h⟩

variable {rounds result shift value : Nat}

theorem varintFrom_varintLoop (hresult : result < 2 ^ shift) (hvalue : value < 2 ^ rounds)
    (hrounds : 0 < rounds) (rest : Bytes) :
    varintFrom result shift (varintLoop rounds value ++ rest) =
      .ok (result + value * 2 ^ shift, rest) := by
  induction rounds generalizing result shift value with
  | zero => omega
  | succ rounds ih =>
    obtain ⟨⟨hlast, hend⟩, hmore, hgo⟩ := varint_byte (Nat.mod_lt value (by omega : 0 < 128))
    have hor : ∀ n, result ||| n <<< shift = result + n * 2 ^ shift := by
      intro n
      rw [Nat.or_comm, ← Nat.shiftLeft_add_eq_or_of_lt hresult, Nat.shiftLeft_eq, Nat.add_comm]
    simp only [varintLoop]
    split
    · next hzero =>
      rw [List.singleton_append, varintFrom, hlast, if_pos hend, hor]
      rw [Nat.mod_eq_of_lt (by omega)]
    · next hpos =>
      rw [List.cons_append, varintFrom, hmore, if_neg hgo, hor]
      have hresult' : result + value % 128 * 2 ^ shift < 2 ^ (shift + 7) := by
        have hpow : 2 ^ (shift + 7) = 2 ^ shift * 128 := by rw [Nat.pow_add]
        have hmod : value % 128 * 2 ^ shift ≤ 127 * 2 ^ shift :=
          Nat.mul_le_mul_right _ (by omega)
        omega
      have hvalue' : value / 128 < 2 ^ rounds := by
        omega
      have hrounds' : 0 < rounds := by
        rcases Nat.eq_zero_or_pos rounds with h | h
        · rw [h] at hvalue'
          omega
        · exact h
      rw [ih hresult' hvalue' hrounds', Nat.pow_add]
      have hsplit := Nat.div_add_mod value 128
      congr 2
      calc result + value % 128 * 2 ^ shift + value / 128 * (2 ^ shift * 2 ^ 7)
          = result + (128 * (value / 128) + value % 128) * 2 ^ shift := by ring
        _ = result + value * 2 ^ shift := by rw [hsplit]

theorem decodeVarint_varint (n : Nat) (rest : Bytes) :
    decodeVarint (varint n ++ rest) = .ok (n, rest) := by
  have hstart : 0 < 2 ^ 0 := by omega
  have h := varintFrom_varintLoop hstart Nat.lt_log2_self (Nat.succ_pos n.log2) rest
  rw [decodeVarint, varint, h, Nat.pow_zero, Nat.mul_one, Nat.zero_add]

variable {data : Bytes}

theorem selfDelimiting_varintFrom (result shift : Nat) :
    SelfDelimiting (varintFrom result shift) := by
  intro data x rest h
  induction data generalizing result shift with
  | nil => cases h
  | cons byte data ih =>
    rw [varintFrom] at h
    split at h
    · next hend =>
      cases h
      refine ⟨[byte], rfl, fun rest => by simp [varintFrom, hend], fun q r hq hr => ?_⟩
      cases q with
      | nil => exact ⟨_, rfl⟩
      | cons c q => simp_all
    · next hgo =>
      obtain ⟨b, rfl, hb⟩ := ih _ _ h
      refine ⟨byte :: b, rfl, fun rest => ?_, fun q r hq hr => ?_⟩
      · rw [List.cons_append, varintFrom, if_neg hgo, hb.append]
      · cases q with
        | nil => exact ⟨_, rfl⟩
        | cons c q =>
          obtain ⟨rfl, hq'⟩ := List.cons.inj hq
          rw [varintFrom, if_neg hgo]
          exact hb.truncated q r hq' hr

theorem selfDelimiting_decodeVarint : SelfDelimiting decodeVarint := selfDelimiting_varintFrom 0 0

/-! ## Fields -/

theorem takeBytes_append (message : String) (b rest : Bytes) :
    takeBytes b.length message (b ++ rest) = .ok (b, rest) := by
  rw [takeBytes, if_neg (by simp), List.splitAt_eq]
  simp

theorem selfDelimiting_takeBytes (n : Nat) (message : String) :
    SelfDelimiting (takeBytes n message) := by
  intro data x rest h
  unfold takeBytes at h
  split at h
  · cases h
  · next hlong =>
    rw [List.splitAt_eq] at h
    cases h
    have hlength : (data.take n).length = n := List.length_take_of_le (not_lt.1 hlong)
    refine ⟨data.take n, (List.take_append_drop n data).symm, fun rest => ?_, fun q r hq hr => ?_⟩
    · have htake := takeBytes_append message (data.take n) rest
      rwa [hlength] at htake
    · have hlt : q.length < n := by
        have hpos := List.length_pos_iff.2 hr
        have hsum := congrArg List.length hq
        rw [hlength, List.length_append] at hsum
        omega
      exact ⟨_, if_pos hlt⟩

theorem selfDelimiting_readRaw (w : Nat) : SelfDelimiting (readRaw w) := by
  unfold readRaw
  by_cases h0 : w = WIRE_TYPE_VARINT
  · simpa only [if_pos h0] using selfDelimiting_decodeVarint.map _
  by_cases h1 : w = WIRE_TYPE_FIXED64
  · simpa only [if_neg h0, if_pos h1] using (selfDelimiting_takeBytes _ _).map _
  by_cases h2 : w = WIRE_TYPE_LENGTH_DELIMITED
  · simpa only [if_neg h0, if_neg h1, if_pos h2] using
      selfDelimiting_decodeVarint.bind fun l => (selfDelimiting_takeBytes l _).map _
  by_cases h5 : w = WIRE_TYPE_FIXED32
  · simpa only [if_neg h0, if_neg h1, if_neg h2, if_pos h5] using
      (selfDelimiting_takeBytes _ _).map _
  · simp only [if_neg h0, if_neg h1, if_neg h2, if_neg h5]
    intro data x rest h
    cases h

theorem selfDelimiting_readField : SelfDelimiting readField :=
  selfDelimiting_decodeVarint.bind fun tag =>
    (selfDelimiting_readRaw (tag &&& 0x7)).map (Field.mk (tag >>> 3) (tag &&& 0x7))

theorem readField_ne_nil {f : Field} {b : Bytes} (h : Reads readField b f) : b ≠ [] := by
  rintro rfl
  cases h.append []

theorem length_readField {r : Field × Bytes} (h : readField data = .ok r) :
    r.2.length < data.length := by
  obtain ⟨b, rfl, hb⟩ := selfDelimiting_readField data r.1 r.2 h
  have hpos := List.length_pos_iff.2 (readField_ne_nil hb)
  rw [List.length_append]
  omega

theorem fieldsLoop_eq (h : data.length ≤ rounds) :
    fieldsLoop rounds data = iterFields data := by
  induction rounds using Nat.strong_induction_on generalizing data with
  | _ rounds ih =>
    cases rounds with
    | zero =>
      rw [List.length_eq_zero_iff.1 (Nat.le_zero.1 h)]
      rfl
    | succ rounds =>
      cases data with
      | nil => rfl
      | cons b data =>
        rw [iterFields, List.length_cons, fieldsLoop, fieldsLoop, if_neg (List.cons_ne_nil _ _),
          if_neg (List.cons_ne_nil _ _)]
        cases hread : readField (b :: data) with
        | error e => rfl
        | ok r =>
          obtain ⟨f, rest⟩ := r
          have hlen := length_readField hread
          simp only [List.length_cons] at hlen h
          simp only
          rw [ih rounds (Nat.lt_succ_self _) (by omega : rest.length ≤ rounds),
            ih data.length (by omega) (by omega : rest.length ≤ data.length)]

variable {f : Field} {rest : Bytes} {e : DecodeError}

theorem iterFields_of_readField (h : readField data = .ok (f, rest)) :
    iterFields data = (f :: (iterFields rest).1, (iterFields rest).2) := by
  cases data with
  | nil => cases h
  | cons c data =>
    have hlen := length_readField h
    rw [iterFields, List.length_cons, fieldsLoop, if_neg (List.cons_ne_nil _ _), h]
    simp only
    rw [fieldsLoop_eq (Nat.lt_succ_iff.1 hlen)]

theorem iterFields_of_error (hdata : data ≠ []) (h : readField data = .error e) :
    iterFields data = ([], some e) := by
  obtain ⟨c, data, rfl⟩ := List.exists_cons_of_ne_nil hdata
  rw [iterFields, List.length_cons, fieldsLoop, if_neg hdata, h]

def Encodes (b : Bytes) (fs : List Field) : Prop :=
  ∀ rest, iterFields (b ++ rest) = (fs ++ (iterFields rest).1, (iterFields rest).2)

theorem encodes_nil : Encodes [] [] := fun _ => rfl

variable {b : Bytes} {fs : List Field}

theorem Encodes.append {b' : Bytes} {fs' : List Field} (h : Encodes b fs)
    (h' : Encodes b' fs') : Encodes (b ++ b') (fs ++ fs') := by
  intro rest
  rw [List.append_assoc, h, h', List.append_assoc]

theorem Encodes.iterFields (h : Encodes b fs) :
    iterFields b = (fs, none) := by
  have hnil := h []
  rw [List.append_nil] at hnil
  rw [hnil]
  exact congrArg (fun l => (l, none)) (List.append_nil fs)

def Writes (part : Except EncodeError Bytes) (fs : List Field) : Prop :=
  ∃ b, part = .ok b ∧ Encodes b fs

theorem writes_absent : Writes (.ok []) [] := ⟨[], rfl, encodes_nil⟩

theorem writes_concat {parts : List (Except EncodeError Bytes)} {fss : List (List Field)}
    (h : List.Forall₂ Writes parts fss) : Writes (concat parts) fss.flatten := by
  induction h with
  | nil => exact writes_absent
  | @cons part fs parts fss hpart _ ih =>
    obtain ⟨b, hb, hfs⟩ := hpart
    obtain ⟨bs, hbs, hfss⟩ := ih
    refine ⟨b ++ bs, ?_, hfs.append hfss⟩
    rw [concat, hb, hbs]
    rfl

theorem encodes_of_reads (h : Reads readField b f) : Encodes b [f] :=
  fun rest => iterFields_of_readField (h.append rest)

variable {w : Nat}

theorem tag_spec (n : Nat) (hw : w < 8) :
    (n <<< 3 ||| w) >>> 3 = n ∧ (n <<< 3 ||| w) &&& 0x7 = w := by
  have hand := Nat.and_two_pow_sub_one_eq_mod (n <<< 3 ||| w) 3
  rw [← Nat.shiftLeft_add_eq_or_of_lt (i := 3) hw, Nat.shiftLeft_eq] at *
  refine ⟨?_, ?_⟩
  · omega
  · rw [show (0x7 : Nat) = 2 ^ 3 - 1 from rfl, hand]
    omega

theorem reads_tag (n : Nat) (hw : w < 8) {raw : Raw}
    (h : ∀ rest, readRaw w (b ++ rest) = .ok (raw, rest)) :
    Reads readField (encodeTag n w ++ b) ⟨n, w, raw⟩ := by
  obtain ⟨hnumber, htype⟩ := tag_spec n hw
  refine selfDelimiting_readField.reads (bind_eq_ok.2 ⟨(n <<< 3 ||| w, b ++ []), ?_, ?_⟩)
  · rw [encodeTag, List.append_nil, decodeVarint_varint]
  · simp only [hnumber, htype]
    rw [h]
    rfl

theorem reads_varintField (n value : Nat) :
    Reads readField (encodeTag n WIRE_TYPE_VARINT ++ varint value)
      ⟨n, WIRE_TYPE_VARINT, .int value⟩ := by
  refine reads_tag n (by decide) fun rest => ?_
  rw [readRaw, if_pos rfl, decodeVarint_varint]
  rfl

theorem writes_varintField (n value : Nat) :
    Writes (encodeVarintField n value) [⟨n, WIRE_TYPE_VARINT, .int value⟩] := by
  refine ⟨encodeTag n WIRE_TYPE_VARINT ++ varint value, ?_, encodes_of_reads ?_⟩
  · rfl
  · exact reads_varintField n value

theorem reads_bytesField (n : Nat) (value : Bytes) :
    Reads readField (encodeBytesField n value)
      ⟨n, WIRE_TYPE_LENGTH_DELIMITED, .bytes value⟩ := by
  rw [encodeBytesField, List.append_assoc]
  refine reads_tag n (by decide) fun rest => ?_
  rw [readRaw, if_neg (by decide), if_neg (by decide), if_pos rfl, List.append_assoc,
    decodeVarint_varint]
  refine bind_eq_ok.2 ⟨_, rfl, ?_⟩
  rw [takeBytes_append]
  rfl

theorem length_littleEndian (n value : Nat) : (littleEndian n value).length = n := by
  induction n generalizing value with
  | zero => rfl
  | succ n ih => rw [littleEndian, List.length_cons, ih]

theorem ofLittleEndian_littleEndian (h : value < 256 ^ n) :
    ofLittleEndian (littleEndian n value) = value := by
  induction n generalizing value with
  | zero =>
    rw [littleEndian, ofLittleEndian]
    omega
  | succ n ih =>
    have hdiv : value / 256 < 256 ^ n := by
      omega
    rw [littleEndian, ofLittleEndian, ih hdiv, UInt8.toNat_ofNat']
    omega

theorem reads_fixed64Field (n : Nat) (bits : UInt64) :
    Reads readField (encodeFixed64Field n bits)
      ⟨n, WIRE_TYPE_FIXED64, .bytes (littleEndian 8 bits.toNat)⟩ := by
  refine reads_tag n (by decide) fun rest => ?_
  have htake := takeBytes_append "Truncated fixed64 field" (littleEndian 8 bits.toNat) rest
  rw [length_littleEndian] at htake
  rw [readRaw, if_neg (by decide), if_pos rfl, htake]
  rfl

theorem reads_fixed32 (n : Nat) (bits : UInt32) :
    Reads readField (encodeTag n WIRE_TYPE_FIXED32 ++ littleEndian 4 bits.toNat)
      ⟨n, WIRE_TYPE_FIXED32, .bytes (littleEndian 4 bits.toNat)⟩ := by
  refine reads_tag n (by decide) fun rest => ?_
  have htake := takeBytes_append "Truncated fixed32 field" (littleEndian 4 bits.toNat) rest
  rw [length_littleEndian] at htake
  rw [readRaw, if_neg (by decide), if_neg (by decide), if_neg (by decide), if_pos rfl, htake]
  rfl

/-! ## Texts -/

theorem continuation_cons {x : Nat} (hx : x < 64) (rest : Bytes) :
    continuation (UInt8.ofNat (0x80 + x) :: rest) = some (x, rest) := by
  have hbyte : (UInt8.ofNat (0x80 + x)).toNat = 0x80 + x := by
    rw [UInt8.toNat_ofNat']
    omega
  rw [continuation, hbyte, if_pos (by omega), Nat.add_sub_cancel_left]

variable {c : CodePoint}

theorem accept_spec {least : Nat} (hleast : least ≤ c.val)
    (hc : isSurrogate c = false) (rest : Bytes) : accept least c.val rest = some (c, rest) := by
  have hplain : ¬ (0xD800 ≤ c.val ∧ c.val ≤ 0xDFFF) := by
    simpa [isSurrogate] using hc
  rw [accept, dif_pos ⟨hleast, c.isLt, hplain⟩]

theorem decodeChar_utf8Char (hc : isSurrogate c = false) (rest : Bytes) :
    decodeChar (utf8Char c ++ rest) = some (c, rest) := by
  have hmod : ∀ n, n % 64 < 64 := fun n => Nat.mod_lt n (by omega)
  simp only [utf8Char, Nat.shiftRight_eq_div_pow, Nat.reducePow, Nat.div_one]
  split
  · next h =>
    have hb : (UInt8.ofNat c.val).toNat = c.val := by
      rw [UInt8.toNat_ofNat']
      omega
    rw [List.singleton_append, decodeChar, hb, if_pos h]
    exact accept_spec (Nat.zero_le _) hc rest
  split
  · next h =>
    have hb : (UInt8.ofNat (0xC0 + c.val / 64)).toNat = 0xC0 + c.val / 64 := by
      rw [UInt8.toNat_ofNat']
      omega
    have hval : (0xC0 + c.val / 64 - 0xC0) * 64 + c.val % 64 = c.val := by omega
    simp only [List.cons_append, List.nil_append, decodeChar]
    rw [hb, if_neg (by omega), if_neg (by omega), if_pos (by omega),
      continuation_cons (hmod _), Option.bind_some, hval]
    exact accept_spec (by omega) hc rest
  split
  · next h =>
    have hb : (UInt8.ofNat (0xE0 + c.val / 4096)).toNat = 0xE0 + c.val / 4096 := by
      rw [UInt8.toNat_ofNat']
      omega
    have hval : ((0xE0 + c.val / 4096 - 0xE0) * 64 + c.val / 64 % 64) * 64 + c.val % 64 =
        c.val := by omega
    simp only [List.cons_append, List.nil_append, decodeChar]
    rw [hb, if_neg (by omega), if_neg (by omega), if_neg (by omega), if_pos (by omega),
      continuation_cons (hmod _), Option.bind_some, continuation_cons (hmod _),
      Option.bind_some, hval]
    exact accept_spec (by omega) hc rest
  · next h =>
    have hb : (UInt8.ofNat (0xF0 + c.val / 262144)).toNat = 0xF0 + c.val / 262144 := by
      rw [UInt8.toNat_ofNat']
      omega
    have hval : (((0xF0 + c.val / 262144 - 0xF0) * 64 + c.val / 4096 % 64) * 64 +
        c.val / 64 % 64) * 64 + c.val % 64 = c.val := by omega
    simp only [List.cons_append, List.nil_append, decodeChar]
    rw [hb, if_neg (by omega), if_neg (by omega), if_neg (by omega), if_neg (by omega),
      continuation_cons (hmod _), Option.bind_some, continuation_cons (hmod _),
      Option.bind_some, continuation_cons (hmod _), Option.bind_some, hval]
    exact accept_spec (by omega) hc rest

theorem utf8Char_ne_nil (c : CodePoint) : utf8Char c ≠ [] := by
  unfold utf8Char
  repeat' split
  all_goals exact List.cons_ne_nil _ _

variable {s : PyStr}

theorem decodeChars_flatMap (hs : s.Encodable) (h : (s.flatMap utf8Char).length ≤ rounds) :
    decodeChars rounds (s.flatMap utf8Char) = some s := by
  induction s generalizing rounds with
  | nil => cases rounds <;> rfl
  | cons c s ih =>
    have hc := hs c List.mem_cons_self
    have hlen := List.length_pos_iff.2 (utf8Char_ne_nil c)
    rw [List.flatMap_cons] at h ⊢
    rw [List.length_append] at h
    obtain ⟨rounds, rfl⟩ : ∃ n, rounds = n + 1 := ⟨rounds - 1, by omega⟩
    rw [decodeChars, if_neg (List.append_ne_nil_of_left_ne_nil (utf8Char_ne_nil c) _),
      decodeChar_utf8Char hc, Option.bind_some,
      ih (fun d hd => hs d (List.mem_cons_of_mem _ hd)) (by omega)]
    rfl

theorem writes_stringField (n : Nat) (hs : s.Encodable) :
    ∃ raw, Writes (encodeStringField n s) [⟨n, WIRE_TYPE_LENGTH_DELIMITED, raw⟩] ∧
      decodeUtf8 raw = .ok s := by
  refine ⟨.bytes (s.flatMap utf8Char), ⟨_, ?_, encodes_of_reads (reads_bytesField n _)⟩, ?_⟩
  · rw [encodeStringField, encodeUtf8, if_pos hs]
    rfl
  · rw [decodeUtf8, decodeChars_flatMap hs le_rfl]

/-! ## The round trip -/

section RoundTrip

variable (widen : UInt32 → UInt64)

def ValueMatches (datatype : DataType) (value : PyValue) : Prop :=
  match datatype with
  | .int8 | .int16 | .int32 | .uint8 | .uint16 | .uint32 | .int64 | .uint64 | .datetime =>
      ∃ n : Nat, value = .int n
  | .float => ∃ bits : UInt32, value = .float (widen bits)
  | .double => ∃ bits : UInt64, value = .float bits
  | .boolean => ∃ b, value = .bool b
  | .string | .text => ∃ s : PyStr, s.Encodable ∧ value = .str s
  | .unknown => False

/-- A metric without an alias, with a value of its datatype, or null and without a value. -/
structure MetricMatches (m : SparkplugMetric) : Prop where
  name : ∀ s ∈ m.name, PyStr.Encodable s
  timestamp : 0 ≤ m.timestampMs
  metricAlias : m.metricAlias = none
  value : (m.isNull = true ∧ m.value = none) ∨
    (m.isNull = false ∧ ∃ v, m.value = some v ∧ ValueMatches widen m.datatype v)

def SparkplugMetric.decoded (m : SparkplugMetric) : DecodedMetric :=
  ⟨m.name, .int m.timestampMs, m.datatype, m.value, m.metricAlias, m.isNull⟩

/-- What is read from these fields, behind those of name, timestamp and datatype, is the
value of the metric. -/
def ReadsValue (fields : List Field) (m : SparkplugMetric) : Prop :=
  ∀ s : MetricFields, s.datatype = m.datatype → s.isNull = false →
    ∃ s', fields.foldlM MetricFields.read s = .ok s' ∧
      s'.metric widen = .ok ⟨s.name, s.timestampMs, s.datatype, m.value, none, m.isNull⟩

variable {widen} {P : PyConvert} {m : SparkplugMetric}

theorem ofRaw_value (d : DataType) : DataType.ofRaw (.int d.value) = .ok d := by
  cases d <;> rfl

theorem readsValue_of_read {f : Field} (hnull : m.isNull = false)
    (h : ∀ s : MetricFields, s.datatype = m.datatype → ∃ s', s.read f = .ok s' ∧
      s'.metricValue widen = .ok m.value ∧ s'.isNull = s.isNull ∧ s'.name = s.name ∧
        s'.timestampMs = s.timestampMs ∧ s'.datatype = s.datatype) :
    ReadsValue widen [f] m := by
  intro s hs hsnull
  obtain ⟨s', hread, hvalue, hsame, hname, htime, htype⟩ := h s hs
  refine ⟨s', ?_, ?_⟩
  · rw [List.foldlM_cons, hread]
    rfl
  · rw [MetricFields.metric, hsame, hsnull, hvalue, hname, htime, htype, hnull]
    rfl

theorem writes_int {n : Nat} (hnull : m.isNull = false) (hvalue : m.value = some (.int n))
    {k : Nat} (hk : k = 10 ∨ k = 11)
    (hread : ∀ s : MetricFields, s.datatype = m.datatype → s.metricValue widen = .ok s.intValue) :
    ∃ fields, Writes (encodeVarintField k n) fields ∧ ReadsValue widen fields m := by
  refine ⟨_, writes_varintField k n, readsValue_of_read hnull fun s hs => ?_⟩
  refine ⟨{ s with intValue := some (.int n) }, ?_, ?_, rfl, rfl, rfl, rfl⟩
  · rcases hk with rfl | rfl <;> rfl
  · rw [hread { s with intValue := some (.int n) } hs, hvalue]

theorem writes_string {s : PyStr} (hs : s.Encodable) (hnull : m.isNull = false)
    (hvalue : m.value = some (.str s))
    (hread : ∀ r : MetricFields, r.datatype = m.datatype →
      r.metricValue widen = .ok (r.stringValue.map .str)) :
    ∃ fields, Writes (encodeStringField 15 s) fields ∧ ReadsValue widen fields m := by
  obtain ⟨raw, hwrites, hutf8⟩ := writes_stringField 15 hs
  refine ⟨_, hwrites, readsValue_of_read hnull fun r hr => ?_⟩
  refine ⟨{ r with stringValue := some s }, ?_, ?_, rfl, rfl, rfl, rfl⟩
  · show (decodeUtf8 raw).map _ = _
    rw [hutf8]
    rfl
  · rw [hread { r with stringValue := some s } hr, hvalue]
    rfl

theorem writes_metricValue (hwiden : ∀ bits, P.narrow (widen bits) = some bits) {v : PyValue}
    (hnull : m.isNull = false) (hvalue : m.value = some v) (hv : ValueMatches widen m.datatype v) :
    ∃ fields, Writes (encodeMetricValue P m.datatype v) fields ∧ ReadsValue widen fields m := by
  have hint : ∀ n : Nat, ∀ k, (P.toInt (.int n) >>= encodeVarintField k) =
      encodeVarintField k n := by
    intro n k
    rw [P.toInt_int]
    rfl
  cases hd : m.datatype <;> rw [hd] at hv
  case unknown => exact hv.elim
  case int8 | int16 | int32 | uint8 | uint16 | uint32 =>
    obtain ⟨n, rfl⟩ := hv
    simp only [encodeMetricValue, hint]
    refine writes_int hnull hvalue (.inl rfl) fun s hs => ?_
    rw [MetricFields.metricValue, hs, hd]
  case int64 | uint64 | datetime =>
    obtain ⟨n, rfl⟩ := hv
    simp only [encodeMetricValue, hint]
    refine writes_int hnull hvalue (.inr rfl) fun s hs => ?_
    rw [MetricFields.metricValue, hs, hd]
  case float =>
    obtain ⟨bits, rfl⟩ := hv
    refine ⟨_, ⟨_, ?_, encodes_of_reads (reads_fixed32 12 bits)⟩,
      readsValue_of_read hnull fun s hs => ?_⟩
    · rw [encodeMetricValue, P.toFloat_float]
      show encodeFixed32Field P 12 (widen bits) = _
      rw [encodeFixed32Field, hwiden]
    · refine ⟨_, rfl, ?_, rfl, rfl, rfl, rfl⟩
      simp only [MetricFields.metricValue, hs, hd, unpack, length_littleEndian, if_pos]
      rw [ofLittleEndian_littleEndian bits.toNat_lt, hvalue]
      show Except.ok (some (PyValue.float (widen (UInt32.ofNat bits.toNat)))) = _
      rw [UInt32.ofNat_toNat]
  case double =>
    obtain ⟨bits, rfl⟩ := hv
    refine ⟨_, ⟨_, ?_, encodes_of_reads (reads_fixed64Field 13 bits)⟩,
      readsValue_of_read hnull fun s hs => ?_⟩
    · rw [encodeMetricValue, P.toFloat_float]
      rfl
    · refine ⟨_, rfl, ?_, rfl, rfl, rfl, rfl⟩
      simp only [MetricFields.metricValue, hs, hd, unpack, length_littleEndian, if_pos]
      rw [ofLittleEndian_littleEndian bits.toNat_lt, hvalue]
      show Except.ok (some (PyValue.float (UInt64.ofNat bits.toNat))) = _
      rw [UInt64.ofNat_toNat]
  case boolean =>
    obtain ⟨b, rfl⟩ := hv
    have hbool : encodeBoolField 14 b = encodeVarintField 14 b.toNat := by cases b <;> rfl
    rw [encodeMetricValue, P.toBool_bool, hbool]
    refine ⟨_, writes_varintField 14 b.toNat, readsValue_of_read hnull fun s hs => ?_⟩
    refine ⟨_, rfl, ?_, rfl, rfl, rfl, rfl⟩
    simp only [MetricFields.metricValue, hs, hd]
    rw [hvalue]
    cases b <;> rfl
  case string | text =>
    obtain ⟨s, hs, rfl⟩ := hv
    rw [encodeMetricValue, P.toStr_str]
    refine writes_string hs hnull hvalue fun r hr => ?_
    rw [MetricFields.metricValue, hr, hd]

theorem writes_null (hnull : m.isNull = true) (hvalue : m.value = none) :
    ∃ fields, Writes (encodeBoolField 7 true) fields ∧ ReadsValue widen fields m := by
  refine ⟨_, writes_varintField 7 1, fun s _ _ => ⟨{ s with isNull := true }, rfl, ?_⟩⟩
  rw [hnull, hvalue]
  rfl

theorem writes_name {name : Option PyStr} (h : ∀ s ∈ name, PyStr.Encodable s) :
    ∃ fields, Writes (name.elim (.ok []) (encodeStringField 1)) fields ∧
      fields.foldlM MetricFields.read .start =
        .ok { MetricFields.start with name := name } := by
  cases name with
  | none => exact ⟨[], writes_absent, rfl⟩
  | some s =>
    obtain ⟨raw, hwrites, hutf8⟩ := writes_stringField 1 (h s rfl)
    refine ⟨_, hwrites, ?_⟩
    show ((decodeUtf8 raw).map _ >>= _) = _
    rw [hutf8]
    rfl

theorem encodeMetric_parts (hwiden : ∀ bits, P.narrow (widen bits) = some bits)
    (hm : MetricMatches widen m) :
    ∃ part fields, encodeMetric P m = concat
        [m.name.elim (.ok []) (encodeStringField 1),
          m.metricAlias.elim (.ok []) (encodeVarintField 2), encodeVarintField 3 m.timestampMs,
          encodeVarintField 4 m.datatype.value, part] ∧
      Writes part fields ∧ ReadsValue widen fields m := by
  rcases hm.value with ⟨hnull, hnone⟩ | ⟨hnull, v, hsome, hv⟩
  · obtain ⟨fields, hwrites, hreads⟩ := @writes_null widen m hnull hnone
    refine ⟨_, fields, ?_, hwrites, hreads⟩
    rw [encodeMetric, hnull, hnone]
  · obtain ⟨fields, hwrites, hreads⟩ := writes_metricValue hwiden hnull hsome hv
    refine ⟨_, fields, ?_, hwrites, hreads⟩
    rw [encodeMetric, hnull, hsome]

theorem decodeMetric_encodeMetric (hwiden : ∀ bits, P.narrow (widen bits) = some bits)
    (hm : MetricMatches widen m) :
    ∃ b, encodeMetric P m = .ok b ∧ decodeMetric widen (.bytes b) = .ok m.decoded := by
  obtain ⟨t, ht⟩ := Int.eq_ofNat_of_zero_le hm.timestamp
  obtain ⟨nameFields, hname, hreadName⟩ := writes_name hm.name
  obtain ⟨part, valueFields, hparts, hvalue, hreads⟩ := encodeMetric_parts hwiden hm
  obtain ⟨b, hb, hfields⟩ := writes_concat (.cons hname (.cons writes_absent
    (.cons (writes_varintField 3 t) (.cons (writes_varintField 4 m.datatype.value)
      (.cons hvalue .nil)))))
  refine ⟨b, ?_, ?_⟩
  · rw [hparts, hm.metricAlias, ht]
    exact hb
  · obtain ⟨s, hs, hmetric⟩ := hreads
      ⟨m.name, .int t, m.datatype, false, none, none, none, none, none⟩ rfl rfl
    -- name, timestamp and datatype are read first, and then the value
    refine bind_eq_ok.2 ⟨s, ?_, by rw [hmetric, SparkplugMetric.decoded, ht, hm.metricAlias]⟩
    rw [hfields.iterFields]
    refine bind_eq_ok.2 ⟨s, ?_, rfl⟩
    simp only [List.flatten_cons, List.flatten_nil, List.nil_append, List.append_nil,
      List.foldlM_append]
    refine bind_eq_ok.2 ⟨_, hreadName, bind_eq_ok.2 ⟨_, rfl, bind_eq_ok.2 ⟨_, ?_, hs⟩⟩⟩
    show ((DataType.ofRaw (.int m.datatype.value)).map _ >>= _) = _
    rw [ofRaw_value]
    rfl

theorem writes_metrics (hwiden : ∀ bits, P.narrow (widen bits) = some bits)
    {ms : List SparkplugMetric} (hms : ∀ m ∈ ms, MetricMatches widen m) :
    ∃ fss, List.Forall₂ Writes
        (ms.map fun m => (encodeMetric P m).map (encodeMessageField 2)) fss ∧
      ∀ s : DecodedPayload, fss.flatten.foldlM (DecodedPayload.read widen) s =
        .ok { s with metrics := s.metrics ++ ms.map SparkplugMetric.decoded } := by
  induction ms with
  | nil => exact ⟨[], .nil, fun s => by rw [List.map_nil, List.append_nil]; rfl⟩
  | cons m ms ih =>
    obtain ⟨b, hb, hdecode⟩ := decodeMetric_encodeMetric hwiden (hms m List.mem_cons_self)
    obtain ⟨fss, hwrites, hreads⟩ := ih fun n hn => hms n (List.mem_cons_of_mem _ hn)
    refine ⟨[⟨2, WIRE_TYPE_LENGTH_DELIMITED, .bytes b⟩] :: fss, .cons ?_ hwrites, fun s => ?_⟩
    · have hmessage : (encodeMetric P m).map (encodeMessageField 2) =
          .ok (encodeMessageField 2 b) := by
        rw [hb]
        rfl
      exact ⟨_, hmessage, encodes_of_reads (reads_bytesField 2 b)⟩
    · rw [List.flatten_cons, List.singleton_append, List.foldlM_cons]
      refine bind_eq_ok.2 ⟨{ s with metrics := s.metrics ++ [m.decoded] }, ?_, ?_⟩
      · show (decodeMetric widen (.bytes b)).map _ = _
        rw [hdecode]
        rfl
      · rw [hreads, List.append_assoc]
        rfl

def PyConvert.halves : PyConvert :=
  { PyConvert.strict with narrow := fun bits => some bits.toUInt32 }

def fourMetrics : List SparkplugMetric :=
  [⟨some (PyStr.ofString "Line/speed"), 5, .uint32, some (.int 300), none, false⟩,
    ⟨none, 6, .float, some (.float 0x3FC00000), none, false⟩,
    ⟨some (PyStr.ofString "Ω"), 7, .string, some (.str (PyStr.ofString "läuft")), none, false⟩,
    ⟨some (PyStr.ofString "x"), 8, .unknown, none, none, true⟩]

end RoundTrip

end XEdge.Northbound.Sparkplug
