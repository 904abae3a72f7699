import XEdge.Core.Pipeline
import XEdge.Modbus.Connectivity
import XEdge.Modbus.Planner
import XEdge.Modbus.Slave

/-!
# Reading a group in blocks (`xedge/drivers/modbus/polling.py`)

A cycle of a tag group reads its planned blocks one after the other.  A block that the device
rejects is read again tag by tag, so that an address without a value costs only the tags that
cover it.
-/

namespace XEdge.Modbus.Batching

open Lib Lib.Cells Planner XEdge.Core

variable {φ : Type}

/-- `TagUpdate`, without its times; the rest are the entries of `metadata`. -/
structure Update (φ : Type) where
  tagId : String
  value : Value φ
  quality : Quality
  sourceDriver : String
  sourceAddress : String
  modbusException : Option Nat
  modbusExceptionName : Option String
  batchedWith : Option Nat

inductive ReadError where
  | codec (e : CodecError)
  | dataType (e : DataTypeError)
  /-- `IndexError`. -/
  | index
  deriving DecidableEq

structure ReadConfig where
  instanceId : String
  retryCount : Nat
  retryOnException : Bool

/-! ## Reads -/

/-- `values[i]`; an index below zero counts from the end. -/
def pyGet {α : Type} (values : List α) (i : Int) : Option α :=
  if 0 ≤ i then values[i.toNat]?
  else if 0 ≤ i + values.length then values[(i + values.length).toNat]?
  else none

def sliceBound (n : Nat) (i : Int) : Nat := if 0 ≤ i then i.toNat else (i + n).toNat

/-- `values[i:j]`. -/
def pySlice {α : Type} (values : List α) (i j : Int) : List α :=
  (values.take (sliceBound values.length j)).drop (sliceBound values.length i)

/-- `_read_block_with_retries`, with the attempts that are left; the device answers each of them
alike. -/
def readBlockWithRetries (retryOnException : Bool) (read : Except CodecError Response) :
    Nat → Except CodecError Response
  | 0 => read
  | left + 1 =>
      match read with
      | .ok values => .ok values
      | .error (.modbusException functionCode exceptionCode) =>
          if retryOnException then readBlockWithRetries retryOnException read left
          else .error (.modbusException functionCode exceptionCode)
      | .error (.framing _) => readBlockWithRetries retryOnException read left
      | .error e => .error e

/-- The values as integers: to Python, a bit is one. -/
def numbers : Response → List Nat
  | .bits values => values.map Bool.toNat
  | .registers values => values
  | .confirmed => []

section Reads

variable (P : Python φ) (cfg : ReadConfig)

/-- The value of `_good_update`. -/
def goodValue (functionCode : FunctionCode) (planned : PlannedTag φ) (values : Response) :
    Except ReadError (Value φ) :=
  if isBitFunction functionCode then
    match pyGet (numbers values) planned.offset with
    | some v => .ok (.bool (v ≠ 0))
    | none => .error .index
  else
    let registers := pySlice (numbers values) planned.offset (planned.offset + planned.span)
    match decode P registers planned.tag.getDataType planned.tag.getWordOrder
      planned.tag.getByteOrder with
    | .ok number => .ok number.toValue
    | .error e => .error (.dataType e)

def goodUpdate (block : Planner.ReadBlock φ) (values : Response) (planned : PlannedTag φ) :
    Except ReadError (Update φ) := do
  let value ← goodValue P block.functionCode planned values
  .ok
    { tagId := qualifiedId cfg.instanceId planned.tag.id
      value
      quality := .good
      sourceDriver := cfg.instanceId
      sourceAddress := toString planned.tag.address
      modbusException := none
      modbusExceptionName := none
      batchedWith := some (block.tags.length - 1) }

def badUpdate (planned : PlannedTag φ) (functionCode : FunctionCode) (exceptionCode : Nat) :
    Update φ where
  tagId := qualifiedId cfg.instanceId planned.tag.id
  value :=
    if isBitFunction functionCode then .bool false
    else if planned.tag.getDataType.isFloat then .float P.zero
    else .int 0
  quality := .bad
  sourceDriver := cfg.instanceId
  sourceAddress := toString planned.tag.address
  modbusException := some exceptionCode
  modbusExceptionName := some (exceptionName exceptionCode)
  batchedWith := none

def single (block : Planner.ReadBlock φ) (planned : PlannedTag φ) : Planner.ReadBlock φ :=
  ⟨block.functionCode, planned.tag.address, planned.span, [⟨planned.tag, 0, planned.span⟩]⟩

/-- `_read_one_block`, with `_read_block_tag_by_tag`. -/
def readOneBlock (mem : Memory) (block : Planner.ReadBlock φ) :
    Except ReadError (List (Update φ)) :=
  -- a block that is not batched is named after its first tag
  match block.tags.head? with
  | none => .error .index
  | some first =>
      match readBlockWithRetries cfg.retryOnException
        (exchange Memory.respond (.readBlock block.functionCode block.address block.quantity) mem).1
        cfg.retryCount with
      | .ok values => block.tags.mapM (goodUpdate P cfg block values)
      | .error (.modbusException _ exceptionCode) =>
          if block.isBatched then do
            let updates ← block.tags.mapM fun planned => readOneBlock mem (single block planned)
            .ok updates.flatten
          else .ok [badUpdate P cfg first block.functionCode exceptionCode]
      | .error e => .error (.codec e)
termination_by block.tags.length
decreasing_by
  have hbatched : block.isBatched = true := ‹_›
  simpa [single, Planner.ReadBlock.isBatched] using hbatched

/-- `_read_and_publish`: what has been published, and how it ends. -/
def readAndPublish (mem : Memory) :
    List (Planner.ReadBlock φ) → List (Update φ) × Except ReadError Unit
  | [] => ([], .ok ())
  | block :: blocks =>
      match readOneBlock P cfg mem block with
      | .error e => ([], .error e)
      | .ok updates =>
          let rest := readAndPublish mem blocks
          (updates ++ rest.1, rest.2)

end Reads

/-! ## Parts of a block -/

theorem readBlockWithRetries_eq (retryOnException : Bool) (read : Except CodecError Response)
    (left : Nat) : readBlockWithRetries retryOnException read left = read := by
  induction left with
  | zero => rfl
  | succ left ih =>
    cases read with
    | ok values => rfl
    | error e =>
      cases e with
      | modbusException functionCode exceptionCode =>
        rw [readBlockWithRetries]
        split
        · exact ih
        · rfl
      | framing message => exact ih
      | rtuFraming message | valueError message | indexError | structError => rfl

variable {mem : Memory} {f : FunctionCode} {a n : Nat} {values : Response}

theorem length_numbers (h : mem.values f a n = some values) : (numbers values).length = n := by
  rw [Memory.values] at h
  split at h
  · obtain ⟨bits, hbits, rfl⟩ := Option.map_eq_some_iff.1 h
    simpa [numbers] using length_of_fetch hbits
  · obtain ⟨registers, hregisters, rfl⟩ := Option.map_eq_some_iff.1 h
    simpa [numbers] using length_of_fetch hregisters

theorem values_slice {k s : Nat} (h : mem.values f a n = some values) (hks : k + s ≤ n) :
    ∃ part, mem.values f (a + k) s = some part ∧
      numbers part = ((numbers values).drop k).take s := by
  rw [Memory.values] at h ⊢
  split at h
  · next hbit =>
    obtain ⟨bits, hbits, rfl⟩ := Option.map_eq_some_iff.1 h
    rw [if_pos hbit, fetch_slice hbits hks]
    exact ⟨_, rfl, by simp [numbers, List.map_take, List.map_drop]⟩
  · next hbit =>
    obtain ⟨registers, hregisters, rfl⟩ := Option.map_eq_some_iff.1 h
    rw [if_neg hbit, fetch_slice hregisters hks]
    exact ⟨_, rfl, by simp [numbers, List.map_take, List.map_drop]⟩

section Parts

variable (P : Python φ) {f : FunctionCode} {tag : Tag φ} {k s : Nat} {values part : Response}

theorem goodValue_part (hpart : numbers part = ((numbers values).drop k).take s) (hs : 0 < s) :
    goodValue P f ⟨tag, k, s⟩ values = goodValue P f ⟨tag, 0, s⟩ part := by
  have hget : pyGet (numbers values) (k : Int) = pyGet (numbers part) 0 := by
    simp [pyGet, hpart, hs]
  have hslice : pySlice (numbers values) (k : Int) (k + s : Int) =
      pySlice (numbers part) 0 (0 + s : Int) := by
    have hbounds : (0 : Int) ≤ (k : Int) + s := by omega
    have hnat : ((k : Int) + s).toNat = k + s := by omega
    simp only [pySlice, sliceBound, Int.natCast_nonneg, if_true, hbounds, hnat, hpart, zero_add,
      Int.toNat_natCast, le_refl, Int.toNat_zero, List.drop_zero, List.take_take, min_self]
    rw [List.drop_take, Nat.add_sub_cancel_left]
  simp only [goodValue, hget, hslice]

theorem exists_goodValue (hspan : tagSpan tag f = s) (hlength : (numbers part).length = s) :
    ∃ value, goodValue P f ⟨tag, 0, s⟩ part = .ok value := by
  have hpos := tagSpan_pos tag f
  rw [goodValue]
  by_cases hbit : isBitFunction f
  · rw [if_pos hbit]
    have hzero : 0 < (numbers part).length := by omega
    simp [pyGet, List.getElem?_eq_getElem hzero]
  · rw [if_neg hbit]
    have hcount : tag.getDataType.registerCount = s := by
      rw [tagSpan, if_neg hbit] at hspan
      exact_mod_cast hspan
    have hslice : pySlice (numbers part) 0 (0 + s : Int) = numbers part := by
      simp [pySlice, sliceBound, ← hlength]
    have hdecode : ∀ wordOrder byteOrder, ∃ number : Number φ,
        decode P (numbers part) tag.getDataType wordOrder byteOrder = .ok number := by
      intro wordOrder byteOrder
      exact ⟨_, if_neg (by omega)⟩
    obtain ⟨number, hnumber⟩ := hdecode tag.getWordOrder tag.getByteOrder
    simp only [hslice, hnumber]
    exact ⟨_, rfl⟩

end Parts

theorem exists_goodUpdate_of_value (P : Python φ) (cfg : ReadConfig) (block : Planner.ReadBlock φ)
    {planned : PlannedTag φ} {value : Value φ}
    (h : goodValue P block.functionCode planned values = .ok value) :
    ∃ update, goodUpdate P cfg block values planned = .ok update ∧
      update.tagId = qualifiedId cfg.instanceId planned.tag.id ∧ update.value = value ∧
      update.quality = .good := by
  rw [goodUpdate, h]
  exact ⟨_, rfl, rfl, rfl, rfl⟩

/-! ## A tag alone -/

def alone (tag : Tag φ) : Planner.ReadBlock φ :=
  ⟨tag.code, tag.address, spanOf tag, [⟨tag, 0, spanOf tag⟩]⟩

def InAddressSpace (tag : Tag φ) : Prop := 0 ≤ tag.address ∧ tag.address + spanOf tag ≤ 65536

def Readable (mem : Memory) (tag : Tag φ) : Prop :=
  ∀ z : Nat, tag.address ≤ z → z < tag.address + spanOf tag → mem.Mapped tag.code z

section Alone

variable (P : Python φ) (cfg : ReadConfig) {mem : Memory} {tag : Tag φ}

def valuesOf (mem : Memory) (tag : Tag φ) : Option Response :=
  mem.values tag.code tag.address.toNat (spanOf tag).toNat

theorem valuesOf_eq_none_iff (h : InAddressSpace tag) :
    valuesOf mem tag = none ↔ ¬ Readable mem tag := by
  have hpos := tagSpan_pos tag tag.code
  obtain ⟨haddress, -⟩ := h
  rw [valuesOf, Memory.values_eq_none_iff, Readable]
  push Not
  refine exists_congr fun z => ?_
  constructor
  · rintro ⟨hle, hlt, hmapped⟩
    exact ⟨by omega, by omega, hmapped⟩
  · rintro ⟨hle, hlt, hmapped⟩
    exact ⟨by omega, by omega, hmapped⟩

theorem readRequestOk_alone (h : InAddressSpace tag) :
    ReadRequestOk tag.code tag.address (spanOf tag) := by
  obtain ⟨haddress, hend⟩ := h
  have hpos := tagSpan_pos tag tag.code
  have hfour := tagSpan_le tag tag.code
  have hceiling : 4 ≤ maxReadQuantity tag.code := by cases tag.code <;> decide
  rw [← spanOf] at hpos hfour
  exact ⟨by omega, by omega, hend⟩

theorem read_eq (mem : Memory) (tag : Tag φ) {address quantity : Int}
    (h : ReadRequestOk tag.code address quantity) :
    (exchange Memory.respond (.readBlock tag.code address quantity) mem).1 =
      match mem.values tag.code address.toNat quantity.toNat with
      | some values => .ok values
      | none => .error (.modbusException tag.code.value
          (mem.exceptionCode tag.code address.toNat quantity.toNat).toNat) :=
  congrArg Prod.fst (exchange_readBlock mem h)

theorem readOneBlock_alone_some (h : InAddressSpace tag) {values : Response}
    (hvalues : valuesOf mem tag = some values) :
    ∃ value update, goodValue P tag.code ⟨tag, 0, spanOf tag⟩ values = .ok value ∧
      readOneBlock P cfg mem (alone tag) = .ok [update] ∧
      update.tagId = qualifiedId cfg.instanceId tag.id ∧ update.value = value ∧
      update.quality = .good := by
  have hpos := tagSpan_pos tag tag.code
  have hspan : tagSpan tag tag.code = (spanOf tag).toNat := by
    rw [spanOf]
    omega
  have hnat : ((spanOf tag).toNat : Int) = spanOf tag := by
    omega
  obtain ⟨value, hvalue⟩ := exists_goodValue P hspan (length_numbers hvalues)
  rw [hnat] at hvalue
  have hread := read_eq mem tag (readRequestOk_alone h)
  rw [show mem.values tag.code tag.address.toNat (spanOf tag).toNat = some values from hvalues]
    at hread
  obtain ⟨update, hupdate, hfields⟩ :=
    exists_goodUpdate_of_value P cfg (alone tag) hvalue
  refine ⟨value, update, hvalue, ?_, hfields⟩
  rw [readOneBlock, readBlockWithRetries_eq]
  simp only [alone, List.head?_cons, hread]
  rw [List.mapM_cons, List.mapM_nil]
  rw [alone] at hupdate
  rw [hupdate]
  rfl

theorem readOneBlock_alone_none (h : InAddressSpace tag) (hvalues : valuesOf mem tag = none) :
    ∃ exceptionCode, readOneBlock P cfg mem (alone tag) =
      .ok [badUpdate P cfg ⟨tag, 0, spanOf tag⟩ tag.code exceptionCode] := by
  have hread := read_eq mem tag (readRequestOk_alone h)
  rw [show mem.values tag.code tag.address.toNat (spanOf tag).toNat = none from hvalues] at hread
  refine ⟨(mem.exceptionCode tag.code tag.address.toNat (spanOf tag).toNat).toNat, ?_⟩
  rw [readOneBlock, readBlockWithRetries_eq]
  simp only [alone, List.head?_cons, hread]
  exact if_neg (by simp [Planner.ReadBlock.isBatched])

end Alone

/-! ## Batching is invisible -/

section Invisible

variable (P : Python φ) (cfg : ReadConfig) (mem : Memory)

/-- The update is what a read of the tag alone gives, and bad only if the tag cannot be read. -/
structure AsAlone (tag : Tag φ) (update : Update φ) : Prop where
  alone : ∃ u, readOneBlock P cfg mem (alone tag) = .ok [u] ∧ update.tagId = u.tagId ∧
    update.value = u.value ∧ update.quality = u.quality
  good_or_bad : update.quality = .good ∨ update.quality = .bad
  bad_iff : update.quality = .bad ↔ ¬ Readable mem tag

variable {P cfg mem}

theorem exists_asAlone {tag : Tag φ} (h : InAddressSpace tag) :
    ∃ update, readOneBlock P cfg mem (alone tag) = .ok [update] ∧
      AsAlone P cfg mem tag update := by
  cases hvalues : valuesOf mem tag with
  | none =>
    obtain ⟨exceptionCode, hread⟩ := readOneBlock_alone_none P cfg h hvalues
    refine ⟨_, hread, ⟨_, hread, rfl, rfl, rfl⟩, .inr rfl, ?_⟩
    exact iff_of_true rfl ((valuesOf_eq_none_iff h).1 hvalues)
  | some values =>
    obtain ⟨-, update, -, hread, -, -, hquality⟩ := readOneBlock_alone_some P cfg h hvalues
    refine ⟨update, hread, ⟨update, hread, rfl, rfl, rfl⟩, .inl hquality, ?_⟩
    refine iff_of_false (by rw [hquality]; exact Quality.noConfusion) fun hnot => ?_
    rw [(valuesOf_eq_none_iff h).2 hnot] at hvalues
    cases hvalues

variable {block : Planner.ReadBlock φ} {limit gap : Int}

variable {planned : PlannedTag φ}

theorem exists_goodUpdate (hblock : block.Sound limit gap) (haddress : 0 ≤ block.address)
    {values : Response}
    (hvalues : mem.values block.functionCode block.address.toNat block.quantity.toNat = some values)
    (hplanned : planned ∈ block.tags) (hspace : InAddressSpace planned.tag) :
    ∃ update, goodUpdate P cfg block values planned = .ok update ∧
      AsAlone P cfg mem planned.tag update := by
  obtain ⟨hoffset, hnonneg, hwithin⟩ := hblock.offset planned hplanned
  have hcode := hblock.functionCode planned hplanned
  have hspan : planned.span = spanOf planned.tag := by
    rw [hblock.span planned hplanned, spanOf, hcode]
  have hpos := tagSpan_pos planned.tag planned.tag.code
  rw [← spanOf, ← hspan] at hpos
  -- the part of the block is what the tag alone would be read as
  obtain ⟨part, hpart, hnumbers⟩ := values_slice (k := planned.offset.toNat)
    (s := planned.span.toNat) hvalues (by omega)
  have hvaluesOf : valuesOf mem planned.tag = some part := by
    rw [valuesOf, ← hspan, hcode]
    rw [← hpart]
    congr 1
    omega
  obtain ⟨value, u, hvalue, hread, htagId, hval, hquality⟩ :=
    readOneBlock_alone_some P cfg hspace hvaluesOf
  have hgood : goodValue P block.functionCode planned values = .ok value := by
    have hsame : goodValue P block.functionCode
        ⟨planned.tag, planned.offset.toNat, planned.span.toNat⟩ values =
          goodValue P block.functionCode ⟨planned.tag, 0, planned.span.toNat⟩ part :=
      goodValue_part P hnumbers (by omega)
    rw [Int.toNat_of_nonneg hnonneg, Int.toNat_of_nonneg hpos.le] at hsame
    rw [← hspan, hcode, ← hsame] at hvalue
    exact hvalue
  obtain ⟨update, hupdate, hid, hv, hq⟩ := exists_goodUpdate_of_value P cfg block hgood
  refine ⟨update, hupdate, ⟨u, hread, hid.trans htagId.symm, hv.trans hval.symm,
    hq.trans hquality.symm⟩, .inl hq, ?_⟩
  refine iff_of_false (by rw [hq]; exact Quality.noConfusion) fun hnot => ?_
  rw [(valuesOf_eq_none_iff hspace).2 hnot] at hvaluesOf
  cases hvaluesOf

theorem single_eq_alone (hblock : block.Sound limit gap)
    (hplanned : planned ∈ block.tags) : single block planned = alone planned.tag := by
  rw [single, alone, hblock.span planned hplanned, spanOf, hblock.functionCode planned hplanned]

theorem eq_alone (hblock : block.Sound limit gap)
    (hsingle : block.tags = [planned]) : block = alone planned.tag := by
  have hmem : planned ∈ block.tags := hsingle ▸ List.mem_singleton_self planned
  have hspan : planned.span = spanOf planned.tag := by
    rw [hblock.span planned hmem, spanOf, hblock.functionCode planned hmem]
  have hquantity := hblock.single planned hsingle
  have hzero : planned.offset = 0 := by
    obtain ⟨first, hfirst, hzero⟩ := hblock.first
    rw [hsingle, List.mem_singleton] at hfirst
    rwa [hfirst] at hzero
  have haddress : block.address = planned.tag.address := by
    have := (hblock.offset planned hmem).1
    omega
  have hcode := hblock.functionCode planned hmem
  obtain ⟨functionCode, address, quantity, tags⟩ := block
  obtain ⟨tag, offset, span⟩ := planned
  simp only at hsingle haddress hquantity hcode hspan hzero
  rw [alone, hsingle, haddress, hquantity, hcode, hspan, hzero]

theorem readOneBlock_asAlone (hblock : block.Sound limit gap)
    (hok : ReadRequestOk block.functionCode block.address block.quantity)
    (hspace : ∀ p ∈ block.tags, InAddressSpace p.tag) :
    ∃ updates, readOneBlock P cfg mem block = .ok updates ∧
      List.Forall₂ (AsAlone P cfg mem) (block.tags.map PlannedTag.tag) updates := by
  obtain ⟨first, rest, htags⟩ := List.exists_cons_of_ne_nil hblock.nonempty
  have hfirst : first ∈ block.tags := htags ▸ List.mem_cons_self ..
  by_cases hbatched : block.isBatched
  · have hcode := hblock.functionCode first hfirst
    have hread := read_eq mem first.tag (hcode ▸ hok)
    rw [hcode] at hread
    rw [readOneBlock, readBlockWithRetries_eq, hread]
    simp only [htags, List.head?_cons]
    rw [← htags]
    cases hvalues : mem.values block.functionCode block.address.toNat block.quantity.toNat with
    | some values =>
      obtain ⟨updates, hupdates, hall⟩ := exists_mapM_ok fun p hp =>
        exists_goodUpdate hblock hok.1.1 hvalues hp (hspace p hp)
      exact ⟨updates, hupdates, List.forall₂_map_left_iff.2 hall⟩
    | none =>
      simp only [if_pos hbatched]
      have hsingles : ∀ p ∈ block.tags, ∃ updates, readOneBlock P cfg mem (single block p) =
          .ok updates ∧ List.Forall₂ (AsAlone P cfg mem) [p.tag] updates := by
        intro p hp
        rw [single_eq_alone hblock hp]
        obtain ⟨update, hupdate, halone⟩ := exists_asAlone (hspace p hp)
        exact ⟨[update], hupdate, .cons halone .nil⟩
      obtain ⟨updates, hupdates, hall⟩ := exists_mapM_ok hsingles
      refine ⟨updates.flatten, by rw [hupdates]; rfl, ?_⟩
      have hflat := List.rel_flatten (List.forall₂_map_left_iff.2 hall)
      rwa [← List.flatMap_def, ← List.map_eq_flatMap] at hflat
  · have hlength : block.tags.length = 1 := by
      have := List.length_pos_of_mem hfirst
      simp only [Planner.ReadBlock.isBatched, decide_eq_true_eq] at hbatched
      omega
    obtain ⟨planned, hsingle⟩ := List.length_eq_one_iff.1 hlength
    obtain ⟨update, hupdate, halone⟩ := exists_asAlone
      (hspace planned (hsingle ▸ List.mem_singleton_self planned))
    rw [eq_alone hblock hsingle]
    exact ⟨[update], hupdate, .cons halone .nil⟩

theorem readAndPublish_asAlone {blocks : List (Planner.ReadBlock φ)}
    (h : ∀ block ∈ blocks, ∃ updates, readOneBlock P cfg mem block = .ok updates ∧
      List.Forall₂ (AsAlone P cfg mem) (block.tags.map PlannedTag.tag) updates) :
    ∃ updates, readAndPublish P cfg mem blocks = (updates, .ok ()) ∧
      List.Forall₂ (AsAlone P cfg mem)
        (blocks.flatMap fun block => block.tags.map PlannedTag.tag) updates := by
  induction blocks with
  | nil => exact ⟨[], rfl, .nil⟩
  | cons block blocks ih =>
    obtain ⟨⟨updates, hread, hall⟩, hblocks⟩ := List.forall_mem_cons.1 h
    obtain ⟨rest, hrest, hrestall⟩ := ih hblocks
    refine ⟨updates ++ rest, ?_, List.rel_append hall hrestall⟩
    simp only [readAndPublish, hread, hrest]

end Invisible

variable {block : Planner.ReadBlock φ} {gap : Int}

theorem readRequestOk_of_inAddressSpace {maxBlockSize : Option Int}
    (hblock : block.Sound (effectiveLimit maxBlockSize block.functionCode) gap)
    (hspace : ∀ p ∈ block.tags, InAddressSpace p.tag) :
    ReadRequestOk block.functionCode block.address block.quantity := by
  obtain ⟨first, hfirst, hzero⟩ := hblock.first
  obtain ⟨last, hlast, hend⟩ := hblock.last
  have hlastcode := hblock.functionCode last hlast
  have hlastspan := hblock.span last hlast
  have hfirstoffset := hblock.offset first hfirst
  have hlastoffset := hblock.offset last hlast
  obtain ⟨hnonneg, -⟩ := hspace first hfirst
  obtain ⟨-, hupper⟩ := hspace last hlast
  rw [spanOf, hlastcode] at hupper
  have hquantity := hblock.quantity_le
  exact ⟨by omega, hquantity, by omega⟩

theorem inAddressSpace_of_readRequestOk {limit : Int} (hblock : block.Sound limit gap)
    (hok : ReadRequestOk block.functionCode block.address block.quantity) {p : PlannedTag φ}
    (hp : p ∈ block.tags) : InAddressSpace p.tag := by
  obtain ⟨⟨haddress, -⟩, -, hend⟩ := hok
  have hoffset := hblock.offset p hp
  have hspan := hblock.span p hp
  rw [← hblock.functionCode p hp, ← spanOf] at hspan
  exact ⟨by omega, by omega⟩

/-- **Batching is invisible.**  For all tags in the 16-bit address space, limits, retry settings and
device memories, a cycle over the planned blocks publishes one update for each tag, with the value
and the quality of a read of that tag alone; it is bad exactly if the tag touches an address
without a value. -/
theorem batching_invisible (P : Python φ) (cfg : ReadConfig) (mem : Memory) (tags : List (Tag φ))
    (hspace : ∀ tag ∈ tags, InAddressSpace tag) (maxBlockSize : Option Int) (maxBlockGap : Int) :
    ∃ order updates, order.Perm tags ∧
      readAndPublish P cfg mem (planReadBlocks tags maxBlockSize maxBlockGap) = (updates, .ok ()) ∧
      List.Forall₂ (AsAlone P cfg mem) order updates := by
  have hplan := plans_planReadBlocks tags maxBlockSize maxBlockGap
  have hblocks : ∀ block ∈ planReadBlocks tags maxBlockSize maxBlockGap,
      ∃ updates, readOneBlock P cfg mem block = .ok updates ∧
        List.Forall₂ (AsAlone P cfg mem) (block.tags.map PlannedTag.tag) updates := by
    intro block hblock
    have hsound := hplan.sound block hblock
    have htags : ∀ p ∈ block.tags, InAddressSpace p.tag := fun p hp =>
      hspace p.tag (hplan.partition.mem_iff.1
        (List.mem_flatMap.2 ⟨block, hblock, List.mem_map_of_mem hp⟩))
    exact readOneBlock_asAlone hsound (readRequestOk_of_inAddressSpace hsound htags) htags
  obtain ⟨updates, hread, hall⟩ := readAndPublish_asAlone hblocks
  exact ⟨_, updates, hplan.partition, hread, hall⟩

def twoRegisters : Memory where
  bits _ _ := none
  registers f z := if f = .readHoldingRegisters ∧ z < 2 then some (UInt16.ofNat (z + 7)) else none
  exceptionCode _ _ _ := 0x02

/-- Three registers in one block, the last of which the device does not have: the cycle ends
without an error, each tag as if read alone. -/
theorem batching_invisible_fallback :
    (planReadBlocks [register 2 .uint16, register 0 .uint16, register 1 .uint16] none 0).length =
      1 ∧
    ∃ order updates,
      order.Perm [register 2 .uint16, register 0 .uint16, register 1 .uint16] ∧
      readAndPublish integerPython ⟨"plc", 0, false⟩ twoRegisters (planReadBlocks
        [register 2 .uint16, register 0 .uint16, register 1 .uint16] none 0) = (updates, .ok ()) ∧
      List.Forall₂ (AsAlone integerPython ⟨"plc", 0, false⟩ twoRegisters) order updates := by
  refine ⟨by decide, batching_invisible _ _ _ _ (fun tag htag => ?_) _ _⟩
  simp only [List.mem_cons, List.not_mem_nil, or_false] at htag
  obtain rfl | rfl | rfl := htag <;> exact ⟨by decide, by decide⟩

end XEdge.Modbus.Batching
