import XEdge.Core.BatchRead
import XEdge.Lib.Json.Limits
import XEdge.Lib.Numbers
import XEdge.MqttSubscriber.Client

/-!
# What decoding a payload raises (`_decode_message` and `run`)

`_decode_message` catches the errors that a payload was expected to cause and reports a bad value.
Two more can come up: the `RecursionError` of `json.loads` for a text that is nested deeper than
the interpreter allows, and the `OverflowError` of the scaling for an integer that no float holds.
Either goes through `run` and ends the driver's loop.
-/

namespace XEdge.MqttSubscriber

open Lib XEdge.Core

/-! ## Payloads with what they raise -/

structure Python extends Externals where
  /-- The limits of `json.loads`. -/
  limits : Json.Limits
  /-- `float(text)`, unless it raises. -/
  binary : Json.Text → Option Binary64
  float_eq : ∀ text, float text = (binary text).map Binary64.rat?

inductive PayloadValue where
  | bool (b : Bool)
  | number (n : Number)
  | str (s : String)
  deriving DecidableEq

/-- What `_decode_message` does not catch. -/
inductive Uncaught where
  | overflowError
  | recursionError
  deriving DecidableEq

/-- What `_extract_value` raises. -/
inductive Raised where
  | caught (e : PayloadError)
  | uncaught (e : Uncaught)

structure NumberMapping extends TopicMapping where
  scaleNumber : Number
  offsetNumber : Number
  scale_eq : ∀ q, scaleNumber.rat? = some q → scale = q
  offset_eq : ∀ q, offsetNumber.rat? = some q → offset = q

/-- `TagUpdate`, with a value of a payload. -/
structure PayloadUpdate where
  tagId : String
  value : PayloadValue
  quality : Quality
  timestampNs : Int
  sourceDriver : String
  sourceAddress : String
  deriving DecidableEq

/-- `value * mapping.scale + mapping.offset`; `none` is an `OverflowError`. -/
def NumberMapping.scaledNumber (m : NumberMapping) (n : Number) : Option Number :=
  (n.mul m.scaleNumber).bind fun p => p.add m.offsetNumber

/-- An integer beyond the range of floats is multiplied with a float, or a float with it; or so in
the sum. -/
def NumberMapping.Overflows (m : NumberMapping) (n : Number) : Prop :=
  n.Clash m.scaleNumber ∨ ∃ p, n.mul m.scaleNumber = some p ∧ p.Clash m.offsetNumber

section Decoding

variable (P : Python)

/-- `_coerce_json_value`. -/
def coerceJson : Json.Value → Except PayloadError PayloadValue
  | .bool b => .ok (.bool b)
  | .int i => .ok (.number (.int i))
  | .float t => .ok (.number (.float ((P.binary t).getD .nan)))
  | .str s => .ok (.str (String.ofList (s.map fun c => Char.ofNat c.val)))
  | v => .error (.unsupported (typeName v))

/-- `_coerce_raw_text`. -/
def coerceRaw (text : Json.Text) : PayloadValue :=
  let stripped := P.strip text
  if P.lower stripped = "true".toList then .bool true
  else if P.lower stripped = "false".toList then .bool false
  else
    match P.int stripped, P.binary stripped with
    | some i, _ => .number (.int i)
    | none, some x => .number (.float x)
    | none, none => .str (String.ofList stripped)

def atPath (jsonPath : Option String) (data : Json.Value) : Except PayloadError PayloadValue :=
  match jsonPath with
  | none | some "" => coerceJson P data
  | some path => extractJsonPath P.toExternals data path.toList >>= coerceJson P

/-- `_extract_value`. -/
def extract (m : TopicMapping) (payload : List UInt8) : Except Raised PayloadValue :=
  match decodeText payload with
  | .error e => .error (.caught e)
  | .ok text =>
      match m.payloadFormat with
      | .raw => .ok (coerceRaw P text)
      | .json =>
          match Json.loadsWithin P.format P.limits text with
          | .error .recursion => .error (.uncaught .recursionError)
          -- both are a `ValueError`
          | .error .decode | .error .digits => .error (.caught .valueError)
          | .ok data => (atPath P m.jsonPath data).mapError .caught

variable (instanceId : String)

def NumberMapping.good (m : NumberMapping) (now : Int) (value : PayloadValue) : PayloadUpdate :=
  ⟨m.tagId, value, .good, now, instanceId, m.topic⟩

def NumberMapping.bad (m : NumberMapping) (now : Int) : PayloadUpdate :=
  ⟨m.tagId, .number (.int 0), .bad, now, instanceId, m.topic⟩

/-- `_decode_message`, with what it does not catch. -/
def decode (m : NumberMapping) (payload : List UInt8) (now : Int) :
    Except Uncaught PayloadUpdate :=
  match extract P m.toTopicMapping payload with
  | .error (.uncaught e) => .error e
  | .error (.caught _) => .ok (m.bad instanceId now)
  | .ok (.number n) =>
      match m.scaledNumber n with
      | some v => .ok (m.good instanceId now (.number v))
      | none => .error .overflowError
  | .ok value => .ok (m.good instanceId now value)

/-! ## The loop -/

structure Message where
  topic : String
  payload : List UInt8
  now : Int

/-- What `run` has counted and put out. -/
structure Subscriber where
  metrics : DriverMetrics
  output : List PayloadUpdate

variable (mappings : Dict String NumberMapping)

/-- `_find_mapping`. -/
def findNumberMapping (concreteTopic : String) : Option NumberMapping :=
  match mappings.get? concreteTopic with
  | some exact => some exact
  | none => mappings.values.find? fun m => P.topicMatchesSub m.topic concreteTopic

def handle (s : Subscriber) (msg : Message) : Except Uncaught Subscriber :=
  match findNumberMapping P mappings msg.topic with
  | none => .ok s
  | some m =>
      (decode P instanceId m msg.payload msg.now).map fun update =>
        let metrics := s.metrics.read msg.now
        { metrics := if update.quality = .bad then metrics.failed 1 else metrics
          output := s.output ++ [update] }

/-- `run` over the messages that come: what it has done, and what has ended it. -/
def runLoop : Subscriber → List Message → Subscriber × Option Uncaught
  | s, [] => (s, none)
  | s, msg :: msgs =>
      match handle P instanceId mappings s msg with
      | .error e => (s, some e)
      | .ok s' => runLoop s' msgs

def TooDeep (m : TopicMapping) (payload : List UInt8) : Prop :=
  m.payloadFormat = .json ∧ ∃ text, decodeText payload = .ok text ∧
    Json.loadsWithin P.format P.limits text = .error .recursion

def Decodable (m : NumberMapping) (payload : List UInt8) : Prop :=
  ¬ TooDeep P m.toTopicMapping payload ∧
    ∀ n, extract P m.toTopicMapping payload = .ok (.number n) → ¬ m.Overflows n

end Decoding

/-! ## The same values as in the model without exceptions -/

section Refinement

theorem mapError_caught_ne {x : Except PayloadError PayloadValue} {e : Uncaught} :
    x.mapError Raised.caught ≠ .error (.uncaught e) := by
  cases x <;> simp [Except.mapError]

end Refinement

/-! ## What raises -/

section Raising

variable {P : Python} {instanceId : String} {m : NumberMapping} {payload : List UInt8} {now : Int}

theorem scaledNumber_eq_none_iff {n : Number} : m.scaledNumber n = none ↔ m.Overflows n := by
  rw [NumberMapping.scaledNumber, NumberMapping.Overflows]
  cases hmul : n.mul m.scaleNumber with
  | none => simp [Number.mul_eq_none_iff.1 hmul]
  | some p =>
    have hclash : ¬ n.Clash m.scaleNumber := by
      rw [← Number.mul_eq_none_iff, hmul]
      exact Option.some_ne_none p
    simp [hclash, Number.add_eq_none_iff]

theorem extract_eq_uncaught_iff {m : TopicMapping} {e : Uncaught} :
    extract P m payload = .error (.uncaught e) ↔ e = .recursionError ∧ TooDeep P m payload := by
  unfold extract TooDeep
  cases htext : decodeText payload with
  | error e' => simp
  | ok text =>
    cases m.payloadFormat with
    | raw => simp
    | json =>
      cases hloads : Json.loadsWithin P.format P.limits text with
      | error e' =>
        cases e' with
        | decode | digits => simp [hloads]
        | recursion => simp [hloads, eq_comm]
      | ok data => simp [hloads, mapError_caught_ne]

theorem tagId_of_decode {update : PayloadUpdate}
    (h : decode P instanceId m payload now = .ok update) :
    update.tagId = m.tagId ∧ (update.quality = .good ∨ update.quality = .bad) := by
  unfold decode at h
  split at h
  · cases h
  · cases h
    exact ⟨rfl, .inr rfl⟩
  · split at h
    · cases h
      exact ⟨rfl, .inl rfl⟩
    · cases h
  · cases h
    exact ⟨rfl, .inl rfl⟩

theorem exists_decode_iff :
    (∃ update, decode P instanceId m payload now = .ok update) ↔ Decodable P m payload := by
  unfold decode Decodable
  cases hextract : extract P m.toTopicMapping payload with
  | error e =>
    cases e with
    | caught e =>
      have hdeep : ¬ TooDeep P m.toTopicMapping payload := by
        intro hdeep
        rw [extract_eq_uncaught_iff.2 ⟨rfl, hdeep⟩] at hextract
        cases hextract
      simp [hdeep]
    | uncaught e =>
      have hdeep := (extract_eq_uncaught_iff.1 hextract).2
      simp [hdeep]
  | ok value =>
    have hdeep : ¬ TooDeep P m.toTopicMapping payload := by
      intro hdeep
      rw [extract_eq_uncaught_iff.2 ⟨rfl, hdeep⟩] at hextract
      cases hextract
    cases value with
    | bool b | str text => simp [hdeep]
    | number n =>
      cases hscaled : m.scaledNumber n with
      | none => simp [hdeep, hscaled, scaledNumber_eq_none_iff.1 hscaled]
      | some v =>
        have hfits : ¬ m.Overflows n := by
          rw [← scaledNumber_eq_none_iff, hscaled]
          exact Option.some_ne_none v
        simp [hdeep, hscaled, hfits]

variable {mappings : Dict String NumberMapping} {s : Subscriber}

def AllDecodable (P : Python) (mappings : Dict String NumberMapping) (msgs : List Message) :
    Prop :=
  ∀ msg ∈ msgs, ∀ m, findNumberMapping P mappings msg.topic = some m → Decodable P m msg.payload

def updateFor (P : Python) (instanceId : String) (mappings : Dict String NumberMapping)
    (msg : Message) : Option PayloadUpdate :=
  (findNumberMapping P mappings msg.topic).bind fun m =>
    (decode P instanceId m msg.payload msg.now).toOption

theorem handle_cases (P : Python) (instanceId : String) (mappings : Dict String NumberMapping)
    (s : Subscriber) (msg : Message) :
    (AllDecodable P mappings [msg] ∧ ∃ s', handle P instanceId mappings s msg = .ok s' ∧
      s'.output = s.output ++ (updateFor P instanceId mappings msg).toList) ∨
    (¬ AllDecodable P mappings [msg] ∧ ∃ e, handle P instanceId mappings s msg = .error e) := by
  unfold handle updateFor AllDecodable
  cases hfind : findNumberMapping P mappings msg.topic with
  | none => simp [hfind]
  | some m =>
    cases hdecode : decode P instanceId m msg.payload msg.now with
    | error e =>
      have hnot : ¬ Decodable P m msg.payload := by
        rw [← exists_decode_iff, hdecode]
        rintro ⟨update, h⟩
        cases h
      simp [hfind, hnot, hdecode, Except.map]
    | ok update =>
      have hdecodable : Decodable P m msg.payload := exists_decode_iff.1 ⟨update, hdecode⟩
      simp [hfind, hdecodable, hdecode, Except.map, Except.toOption]

/-- **The loop goes on exactly as long as it can decode the messages**, and then it has put out one
update for each that is mapped. -/
theorem runLoop_spec (msgs : List Message) (s : Subscriber) :
    ((runLoop P instanceId mappings s msgs).2 = none ↔ AllDecodable P mappings msgs) ∧
    (AllDecodable P mappings msgs → (runLoop P instanceId mappings s msgs).1.output =
      s.output ++ msgs.filterMap (updateFor P instanceId mappings)) := by
  induction msgs generalizing s with
  | nil => simp [runLoop, AllDecodable]
  | cons msg msgs ih =>
    have hall : AllDecodable P mappings (msg :: msgs) ↔
        AllDecodable P mappings [msg] ∧ AllDecodable P mappings msgs := by
      simp [AllDecodable]
    rw [hall]
    unfold runLoop
    obtain ⟨hmsg, s', hs', houtput⟩ | ⟨hmsg, e, he⟩ := handle_cases P instanceId mappings s msg
    · obtain ⟨hiff, hrest⟩ := ih s'
      rw [hs']
      refine ⟨hiff.trans (and_iff_right hmsg).symm, fun h => ?_⟩
      rw [hrest h.2, houtput, List.append_assoc, List.filterMap_cons]
      cases updateFor P instanceId mappings msg <;> rfl
    · rw [he]
      refine ⟨⟨fun h => ?_, fun h => absurd h.1 hmsg⟩, fun h => absurd h.1 hmsg⟩
      cases h

end Raising

/-- **When a payload is decoded.**  For any mapping and payload, `_decode_message` returns an update
of the mapped tag, good or bad, exactly if the payload is not JSON that is nested too deep and its
number does not overflow in the scaling.  The loop of `run` outlives exactly the messages of which
each that is mapped is such a one, and then it has put out one update for each of these. -/
theorem payload_decoding_iff (P : Python) (instanceId : String) :
    (∀ m payload now, (∃ update, decode P instanceId m payload now = .ok update ∧
        update.tagId = m.tagId ∧ (update.quality = .good ∨ update.quality = .bad)) ↔
      Decodable P m payload) ∧
    ∀ mappings s msgs,
      ((runLoop P instanceId mappings s msgs).2 = none ↔ AllDecodable P mappings msgs) ∧
      (AllDecodable P mappings msgs → (runLoop P instanceId mappings s msgs).1.output =
        s.output ++ msgs.filterMap (updateFor P instanceId mappings)) := by
  refine ⟨fun m payload now => ?_, fun mappings s msgs => runLoop_spec msgs s⟩
  constructor
  · rintro ⟨update, hdecode, -⟩
    exact exists_decode_iff.1 ⟨update, hdecode⟩
  · intro h
    obtain ⟨update, hdecode⟩ := exists_decode_iff.2 h
    exact ⟨update, hdecode, tagId_of_decode hdecode⟩

/-! ## What a publisher can send -/

open Northbound.Sparkplug in
def utf8 (text : Json.Text) : List UInt8 := (Json.Str.ofText text).flatMap utf8Char

open Northbound.Sparkplug in
theorem encodable_ofText (text : Json.Text) : PyStr.Encodable (Json.Str.ofText text) := by
  intro c hc
  obtain ⟨d, -, rfl⟩ := List.mem_map.1 hc
  have hvalid : d.toNat.isValidChar := d.valid
  rw [isSurrogate, Json.val_codePoint (Json.Char.toNat_lt_max d)]
  simp only [Bool.and_eq_false_iff, decide_eq_false_iff_not]
  omega

open Northbound.Sparkplug in
theorem decodeText_utf8 (text : Json.Text) : decodeText (utf8 text) = .ok text := by
  have hval : ∀ c : Char, (Json.codePoint c.toNat).val = c.toNat := fun c =>
    Json.val_codePoint (Json.Char.toNat_lt_max c)
  rw [decodeText, utf8, decodeChars_flatMap (encodable_ofText text) le_rfl]
  show Except.ok ((text.map fun c => Json.codePoint c.toNat).map fun c => Char.ofNat c.val) = _
  rw [List.map_map, show ((fun c : Json.CodePoint => Char.ofNat c.val) ∘
    fun c : Char => Json.codePoint c.toNat) = id from funext fun c => by simp [hval], List.map_id]

def levelMapping : NumberMapping where
  tagId := "tank/level"
  topic := "tank/level"
  qos := 0
  payloadFormat := .json
  jsonPath := none
  scale := 1
  offset := 0
  scaleNumber := .float (.finite 1)
  offsetNumber := .float (.finite 0)
  scale_eq _ h := Option.some.inj h
  offset_eq _ h := Option.some.inj h

section Publisher

variable (P : Python) (instanceId : String) (now : Int)

theorem decode_intText {i : Int}
    (hdigits : ((Json.intText i).filter Char.isDigit).length ≤ P.limits.digits)
    (hbeyond : Binary64.OVERFLOW ≤ |(i : ℚ)|) :
    decode P instanceId levelMapping (utf8 (Json.intText i)) now = .error .overflowError := by
  have hextract : extract P levelMapping.toTopicMapping (utf8 (Json.intText i)) =
      .ok (.number (.int i)) := by
    simp only [extract, decodeText_utf8, levelMapping, Json.loadsWithin_intText P.format hdigits]
    rfl
  have hscaled : levelMapping.scaledNumber (.int i) = none :=
    scaledNumber_eq_none_iff.2 (.inl hbeyond)
  simp only [decode, hextract, hscaled]

theorem decode_brackets :
    decode P instanceId levelMapping (utf8 (List.replicate (P.limits.levels + 1) '[')) now =
      .error .recursionError := by
  have hloads := Json.loadsWithin_deep P.format P.limits []
  rw [List.append_nil] at hloads
  simp only [decode, extract, decodeText_utf8, levelMapping, hloads]

end Publisher

def levelMappings : Dict String NumberMapping := .ofList [("tank/level", levelMapping)]

theorem findNumberMapping_level (P : Python) :
    findNumberMapping P levelMappings "tank/level" = some levelMapping :=
  rfl

theorem runLoop_intText (P : Python) (instanceId : String) (s : Subscriber) (msgs : List Message)
    {i : Int} (hdigits : ((Json.intText i).filter Char.isDigit).length ≤ P.limits.digits)
    (hbeyond : Binary64.OVERFLOW ≤ |(i : ℚ)|) :
    runLoop P instanceId levelMappings s (⟨"tank/level", utf8 (Json.intText i), 0⟩ :: msgs) =
      (s, some .overflowError) := by
  simp only [runLoop, handle, findNumberMapping_level,
    decode_intText P instanceId 0 hdigits hbeyond, Except.map]

/-- **A publisher ends the loop** with a number of 310 digits, or with opening brackets: whatever
comes after is not handled. -/
theorem publisher_ends_loop :
    (∀ (P : Python) instanceId s msgs, 310 ≤ P.limits.digits →
      runLoop P instanceId levelMappings s
          (⟨"tank/level", utf8 (Json.intText (10 ^ 309)), 0⟩ :: msgs) =
        (s, some .overflowError)) ∧
    ∀ (P : Python) instanceId s msgs, runLoop P instanceId levelMappings s
        (⟨"tank/level", utf8 (List.replicate (P.limits.levels + 1) '['), 0⟩ :: msgs) =
      (s, some .recursionError) := by
  constructor
  · intro P instanceId s msgs hdigits
    have hlength : ((Json.intText (10 ^ 309)).filter Char.isDigit).length = 310 := by
      decide +kernel
    have hbeyond : Binary64.OVERFLOW ≤ |((10 ^ 309 : Int) : ℚ)| := by
      rw [Int.cast_pow, abs_of_nonneg (by positivity)]
      exact Binary64.overflow_le_pow
    exact runLoop_intText P instanceId s msgs (hlength.trans_le hdigits) hbeyond
  · intro P instanceId s msgs
    simp only [runLoop, handle, findNumberMapping_level, decode_brackets P instanceId 0, Except.map]

end XEdge.MqttSubscriber
