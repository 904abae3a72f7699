import XEdge.Northbound.Sparkplug.Decode

/-!
# Scanning the fields of any bytes (`iter_fields` of `xedge/northbound/sparkplug/wire.py`)

What arrives need not have been written by the encoder.  Varints have no bound, and a length is
whatever the bytes say.
-/

namespace XEdge.Northbound.Sparkplug

open Lib

/-- The `while` of `iter_fields`, for as many rounds as it takes. -/
inductive Scan : Bytes → List Field → Option DecodeError → Prop
  | done : Scan [] [] none
  | raised {data : Bytes} {e : DecodeError} (hdata : data ≠ []) (h : readField data = .error e) :
      Scan data [] (some e)
  | field {data rest : Bytes} {f : Field} {fs : List Field} {e : Option DecodeError}
      (h : readField data = .ok (f, rest)) (advances : rest.length < data.length)
      (hrest : Scan rest fs e) : Scan data (f :: fs) e

/-- The bytes that an encoder of `wire.py` returns, and the field that they are. -/
inductive EncodedField (P : PyConvert) : Bytes → Field → Prop
  | varint {n : Nat} {value : Int} {b : Bytes} (h : encodeVarintField n value = .ok b) :
      EncodedField P b ⟨n, WIRE_TYPE_VARINT, .int value.toNat⟩
  | bool {n : Nat} {value : Bool} {b : Bytes} (h : encodeBoolField n value = .ok b) :
      EncodedField P b ⟨n, WIRE_TYPE_VARINT, .int value.toNat⟩
  | fixed32 {n : Nat} {bits : UInt64} {single : UInt32} {b : Bytes}
      (hsingle : P.narrow bits = some single) (h : encodeFixed32Field P n bits = .ok b) :
      EncodedField P b ⟨n, WIRE_TYPE_FIXED32, .bytes (littleEndian 4 single.toNat)⟩
  | fixed64 (n : Nat) (bits : UInt64) :
      EncodedField P (encodeFixed64Field n bits)
        ⟨n, WIRE_TYPE_FIXED64, .bytes (littleEndian 8 bits.toNat)⟩
  | bytes (n : Nat) (value : Bytes) :
      EncodedField P (encodeBytesField n value) ⟨n, WIRE_TYPE_LENGTH_DELIMITED, .bytes value⟩
  | string {n : Nat} {value : PyStr} {text b : Bytes} (htext : encodeUtf8 value = .ok text)
      (h : encodeStringField n value = .ok b) :
      EncodedField P b ⟨n, WIRE_TYPE_LENGTH_DELIMITED, .bytes text⟩
  | message (n : Nat) (message : Bytes) :
      EncodedField P (encodeMessageField n message)
        ⟨n, WIRE_TYPE_LENGTH_DELIMITED, .bytes message⟩

/-! ## Errors -/

def Protobuf (e : DecodeError) : Prop := ∃ message, e = .protobufDecodeError message

section Errors

variable {data : Bytes} {e : DecodeError}

theorem protobuf_varintFrom {result shift : Nat} (h : varintFrom result shift data = .error e) :
    Protobuf e := by
  induction data generalizing result shift with
  | nil =>
    cases h
    exact ⟨_, rfl⟩
  | cons byte data ih =>
    rw [varintFrom] at h
    split at h
    · cases h
    · exact ih h

theorem protobuf_takeBytes {n : Nat} {message : String}
    (h : takeBytes n message data = .error e) : Protobuf e := by
  unfold takeBytes at h
  split at h
  · cases h
    exact ⟨_, rfl⟩
  · cases h

theorem protobuf_readRaw {w : Nat} (h : readRaw w data = .error e) : Protobuf e := by
  unfold readRaw at h
  split at h
  · exact protobuf_varintFrom (map_eq_error.1 h)
  split at h
  · exact protobuf_takeBytes (map_eq_error.1 h)
  split at h
  · rcases bind_eq_error.1 h with hlength | ⟨_, -, hbytes⟩
    · exact protobuf_varintFrom hlength
    · exact protobuf_takeBytes (map_eq_error.1 hbytes)
  split at h
  · exact protobuf_takeBytes (map_eq_error.1 h)
  · cases h
    exact ⟨_, rfl⟩

theorem protobuf_readField (h : readField data = .error e) : Protobuf e := by
  rcases bind_eq_error.1 h with htag | ⟨_, -, hraw⟩
  · exact protobuf_varintFrom htag
  · exact protobuf_readRaw (map_eq_error.1 hraw)

end Errors

/-! ## The scan -/

section Run

variable {P : PyConvert} {data : Bytes} {b : Bytes} {f : Field} {fs : List Field}
  {e : Option DecodeError}

theorem scan_iterFields (data : Bytes) : Scan data (iterFields data).1 (iterFields data).2 := by
  -- the bytes that are left get fewer with every round
  induction hn : data.length using Nat.strong_induction_on generalizing data with
  | _ n ih =>
    rcases eq_or_ne data [] with rfl | hdata
    · exact .done
    · cases hread : readField data with
      | error e =>
        rw [iterFields_of_error hdata hread]
        exact .raised hdata hread
      | ok r =>
        obtain ⟨f, rest⟩ := r
        have hlt := length_readField hread
        rw [iterFields_of_readField hread]
        exact .field hread hlt (ih rest.length (hn ▸ hlt) rest rfl)

/-- What is yielded tiles what was read, up to the end unless an error is raised. -/
theorem Scan.tiles (h : Scan data fs e) :
    (∃ err, e = some err ∧ Protobuf err) ∨
      e = none ∧ ∃ parts : List Bytes, data = parts.flatten ∧
        List.Forall₂ (Reads readField) parts fs := by
  induction h with
  | done => exact .inr ⟨rfl, [], rfl, .nil⟩
  | raised _ h => exact .inl ⟨_, rfl, protobuf_readField h⟩
  | @field data rest f fs e h _ _ ih =>
    rcases ih with herr | ⟨rfl, parts, hparts, hreads⟩
    · exact .inl herr
    · obtain ⟨b, rfl, hb⟩ := selfDelimiting_readField _ _ _ h
      exact .inr ⟨rfl, b :: parts, by rw [hparts, List.flatten_cons], .cons hb hreads⟩

theorem EncodedField.reads (h : EncodedField P b f) : Reads readField b f := by
  have hvarint : ∀ {n : Nat} {value : Int} {b : Bytes}, encodeVarintField n value = .ok b →
      Reads readField b ⟨n, WIRE_TYPE_VARINT, .int value.toNat⟩ := by
    intro n value b h
    obtain ⟨v, hv, rfl⟩ := map_eq_ok.1 h
    unfold encodeVarint at hv
    split at hv
    · cases hv
    · cases hv
      exact reads_varintField n value.toNat
  cases h with
  | varint h => exact hvarint h
  | @bool n value _ h =>
    have hreads := hvarint h
    cases value
    · exact hreads
    · exact hreads
  | fixed32 hsingle h =>
    rw [encodeFixed32Field, hsingle] at h
    cases h
    exact reads_fixed32 _ _
  | fixed64 n bits => exact reads_fixed64Field n bits
  | bytes n value => exact reads_bytesField n value
  | string htext h =>
    rw [encodeStringField, htext] at h
    cases h
    exact reads_bytesField _ _
  | message n message => exact reads_bytesField n message

variable {parts : List Bytes}

theorem iterFields_flatten (h : List.Forall₂ (Reads readField) parts fs) :
    iterFields parts.flatten = (fs, none) := by
  induction h with
  | nil => rfl
  | cons hb _ ih => rw [List.flatten_cons, iterFields_of_readField (hb.append _), ih]

theorem error_of_cut (h : List.Forall₂ (Reads readField) parts fs) {q r : Bytes}
    (hcut : parts.flatten = q ++ r) (hinside : ∀ k, q ≠ (parts.take k).flatten) :
    ∃ err, (iterFields q).2 = some err ∧ Protobuf err := by
  induction h generalizing q with
  | nil =>
    have hq : q = [] := (List.append_eq_nil_iff.1 hcut.symm).1
    exact absurd hq (hinside 0)
  | @cons b f parts fs hb _ ih =>
    rcases List.append_eq_append_iff.1 hcut with ⟨q', rfl, hrest⟩ | ⟨m, hm, -⟩
    · -- past the first field
      rw [iterFields_of_readField (hb.append q')]
      exact ih hrest fun k hk => hinside (k + 1) (by rw [hk, List.take_succ_cons,
        List.flatten_cons])
    · have hmiss : m ≠ [] := by
        rintro rfl
        exact hinside 1 (by rw [hm, List.append_nil]; simp)
      obtain ⟨err, herr⟩ := hb.truncated q m hm hmiss
      rw [iterFields_of_error (hinside 0) herr]
      exact ⟨err, rfl, protobuf_readField herr⟩

end Run

/-- **Scanning the fields of any bytes**: the loop ends, with every round past a byte at least,
and the fields tile the bytes unless `ProtobufDecodeError` is raised; a concatenation of encoded
fields gives these fields, and if it is cut off inside of one, `ProtobufDecodeError` is raised. -/
theorem iterFields_scan (data : Bytes) :
    Scan data (iterFields data).1 (iterFields data).2 ∧
      ((∃ message, (iterFields data).2 = some (.protobufDecodeError message)) ∨
        (iterFields data).2 = none ∧ ∃ parts : List Bytes, data = parts.flatten ∧
          List.Forall₂ (Reads readField) parts (iterFields data).1) ∧
      ∀ (P : PyConvert) (parts : List Bytes) (fields : List Field),
        List.Forall₂ (EncodedField P) parts fields → data = parts.flatten →
          iterFields data = (fields, none) ∧
            ∀ q r, data = q ++ r → (∀ k, q ≠ (parts.take k).flatten) →
              ∃ message, (iterFields q).2 = some (.protobufDecodeError message) := by
  refine ⟨scan_iterFields data, ?_, fun P parts fields hparts hdata => ?_⟩
  · rcases (scan_iterFields data).tiles with ⟨err, herr, message, rfl⟩ | htiles
    · exact .inl ⟨message, herr⟩
    · exact .inr htiles
  · have hreads := hparts.imp fun _ _ h => EncodedField.reads h
    subst hdata
    refine ⟨iterFields_flatten hreads, fun q r hcut hinside => ?_⟩
    obtain ⟨err, herr, message, rfl⟩ := error_of_cut hreads hcut hinside
    exact ⟨message, herr⟩

theorem iterFields_scan_cut :
    ∃ message, (iterFields [8, 1, 16]).2 = some (.protobufDecodeError message) := by
  refine ((iterFields_scan [8, 1, 16, 2]).2.2 .strict [[8, 1], [16, 2]]
    [⟨1, WIRE_TYPE_VARINT, .int 1⟩, ⟨2, WIRE_TYPE_VARINT, .int 2⟩]
    (.cons (.varint (show encodeVarintField 1 1 = .ok [8, 1] from rfl))
      (.cons (.varint (show encodeVarintField 2 2 = .ok [16, 2] from rfl)) .nil))
    rfl).2 [8, 1, 16] [2] rfl fun k => ?_
  rcases k with _ | _ | k
  · decide
  · decide
  · simp

end XEdge.Northbound.Sparkplug
