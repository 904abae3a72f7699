import XEdge.Lib.Dict
import XEdge.Lib.Spans
import XEdge.Modbus.TagGroups

/-!
# Planning the reads of a group (`xedge/drivers/modbus/planner.py`)

A group of tags is read with as few requests as possible: the tags of one function code are taken
by address, and a tag joins the block before it if the block does not get too large and no more
addresses are read for nothing than is tolerated.
-/

namespace XEdge.Modbus.Planner

open Lib

variable {φ : Type}

structure PlannedTag (φ : Type) where
  tag : Tag φ
  offset : Int
  span : Int
  deriving DecidableEq

structure ReadBlock (φ : Type) where
  functionCode : FunctionCode
  address : Int
  quantity : Int
  tags : List (PlannedTag φ)
  deriving DecidableEq

def ReadBlock.isBatched (block : ReadBlock φ) : Bool := 1 < block.tags.length

def tagSpan (tag : Tag φ) (functionCode : FunctionCode) : Int :=
  if isBitFunction functionCode then 1 else tag.getDataType.registerCount

/-- `_build_block`; an entry is a tag, whose address and span are read off it. -/
def buildBlock (functionCode : FunctionCode) (start stop : Int) (entries : List (Tag φ)) :
    ReadBlock φ where
  functionCode
  address := start
  quantity := stop - start
  tags := entries.map fun tag => ⟨tag, tag.address - start, tagSpan tag functionCode⟩

/-- What the loop of `_plan_one_function_code` carries along. -/
structure Scan (φ : Type) where
  blocks : List (ReadBlock φ)
  start : Int
  /-- `end`, exclusive. -/
  stop : Int
  current : List (Tag φ)

def Scan.step (functionCode : FunctionCode) (limit maxBlockGap : Int) (s : Scan φ) (tag : Tag φ) :
    Scan φ :=
  let span := tagSpan tag functionCode
  let candidateEnd := max s.stop (tag.address + span)
  let gap := tag.address - s.stop
  let fits := candidateEnd - s.start ≤ limit ∧ (s.current.isEmpty ∨ gap ≤ maxBlockGap)
  if ¬ s.current.isEmpty ∧ ¬ fits then
    { blocks := s.blocks ++ [buildBlock functionCode s.start s.stop s.current]
      start := tag.address
      stop := tag.address + span
      current := [tag] }
  else
    { s with
      start := if s.current.isEmpty then tag.address else s.start
      stop := candidateEnd
      current := s.current ++ [tag] }

def Scan.finish (functionCode : FunctionCode) (s : Scan φ) : List (ReadBlock φ) :=
  if ¬ s.current.isEmpty then s.blocks ++ [buildBlock functionCode s.start s.stop s.current]
  else s.blocks

/-- The order of the tuples `(address, span)`. -/
def EntryLe (functionCode : FunctionCode) (a b : Tag φ) : Prop :=
  a.address < b.address ∨
    a.address = b.address ∧ tagSpan a functionCode ≤ tagSpan b functionCode

instance (functionCode : FunctionCode) : DecidableRel (@EntryLe φ functionCode) :=
  fun a b => inferInstanceAs (Decidable (a.address < b.address ∨
    a.address = b.address ∧ tagSpan a functionCode ≤ tagSpan b functionCode))

/-- `_plan_one_function_code`.  It is not called without tags. -/
def planOneFunctionCode (tags : List (Tag φ)) (functionCode : FunctionCode)
    (limit maxBlockGap : Int) : List (ReadBlock φ) :=
  match tags.insertionSort (EntryLe functionCode) with
  | [] => []
  | first :: rest =>
      ((first :: rest).foldl (Scan.step functionCode limit maxBlockGap)
        ⟨[], first.address, first.address, []⟩).finish functionCode

def effectiveLimit (maxBlockSize : Option Int) (functionCode : FunctionCode) : Int :=
  match maxBlockSize with
  | none => maxReadQuantity functionCode
  | some size => min (maxReadQuantity functionCode) (max 1 size)

/-- `FunctionCode` is an `IntEnum`. -/
def CodeLe (a b : FunctionCode) : Prop := a.value ≤ b.value

instance : DecidableRel CodeLe := fun a b => inferInstanceAs (Decidable (a.value ≤ b.value))

/-- `sorted(by_function)`. -/
def functionCodes (tags : List (Tag φ)) : List FunctionCode :=
  (Dict.groupBy Tag.code tags).keys.insertionSort CodeLe

/-- `plan_read_blocks`, with `FUNCTION_CODE_BY_NAME`. -/
def planReadBlocks (tags : List (Tag φ)) (maxBlockSize : Option Int) (maxBlockGap : Int) :
    List (ReadBlock φ) :=
  (functionCodes tags).flatMap fun functionCode =>
    planOneFunctionCode (((Dict.groupBy Tag.code tags).get? functionCode).getD []) functionCode
      (effectiveLimit maxBlockSize functionCode) maxBlockGap

/-! ## The loop is the greedy grouping -/

theorem tagSpan_pos (tag : Tag φ) (functionCode : FunctionCode) : 0 < tagSpan tag functionCode := by
  rw [tagSpan]
  split
  · decide
  · cases tag.getDataType <;> decide

theorem tagSpan_le (tag : Tag φ) (functionCode : FunctionCode) : tagSpan tag functionCode ≤ 4 := by
  rw [tagSpan]
  split
  · decide
  · cases tag.getDataType <;> decide

def tagSpans (φ : Type) (functionCode : FunctionCode) : Spans (Tag φ) where
  start tag := tag.address
  stop tag := tag.address + tagSpan tag functionCode
  start_lt_stop tag := Int.lt_add_of_pos_right _ (tagSpan_pos tag functionCode)

def blockOf (functionCode : FunctionCode) (g : Spans.Group (Tag φ)) : ReadBlock φ :=
  buildBlock functionCode g.lower g.upper g.items

section Loop

variable {functionCode : FunctionCode} {limit gap : Int}

theorem finish_foldl_step {blocks : List (ReadBlock φ)} {g : Spans.Group (Tag φ)}
    (hg : g.items ≠ []) (tags : List (Tag φ)) :
    (tags.foldl (Scan.step functionCode limit gap)
      ⟨blocks, g.lower, g.upper, g.items⟩).finish functionCode =
      blocks ++ (Spans.greedyFrom (tagSpans φ functionCode) limit gap g tags).map
        (blockOf functionCode) := by
  induction tags generalizing blocks g with
  | nil => simp [Scan.finish, Spans.greedyFrom, hg, blockOf]
  | cons tag tags ih =>
    rw [List.foldl_cons, Spans.greedyFrom]
    by_cases hfit : g.Takes (tagSpans φ functionCode) limit gap tag
    · have hstep : Scan.step functionCode limit gap ⟨blocks, g.lower, g.upper, g.items⟩ tag =
          ⟨blocks, (g.push (tagSpans φ functionCode) tag).lower,
            (g.push (tagSpans φ functionCode) tag).upper,
            (g.push (tagSpans φ functionCode) tag).items⟩ := by
        have hfits : max g.upper (tag.address + tagSpan tag functionCode) - g.lower ≤ limit ∧
            tag.address - g.upper ≤ gap := hfit
        simp [Scan.step, hg, hfits, Spans.Group.push, tagSpans]
      rw [hstep, if_pos hfit]
      exact ih (by simp [Spans.Group.push])
    · have hstep : Scan.step functionCode limit gap ⟨blocks, g.lower, g.upper, g.items⟩ tag =
          ⟨blocks ++ [blockOf functionCode g], tag.address, tag.address + tagSpan tag functionCode,
            [tag]⟩ := by
        have hempty : ¬ g.items.isEmpty := by simpa using hg
        refine if_pos ⟨hempty, fun hfits => hfit ⟨hfits.1, ?_⟩⟩
        exact hfits.2.resolve_left hempty
      rw [hstep, if_neg hfit]
      refine (ih (g := .single (tagSpans φ functionCode) tag)
        (by simp [Spans.Group.single])).trans ?_
      simp

theorem planOneFunctionCode_eq (tags : List (Tag φ)) :
    planOneFunctionCode tags functionCode limit gap =
      (Spans.greedy (tagSpans φ functionCode) limit gap
        (tags.insertionSort (EntryLe functionCode))).map (blockOf functionCode) := by
  rw [planOneFunctionCode]
  cases tags.insertionSort (EntryLe functionCode) with
  | nil => rfl
  | cons first rest =>
    have hpos := tagSpan_pos first functionCode
    have hstep : Scan.step functionCode limit gap ⟨[], first.address, first.address, []⟩ first =
        ⟨[], first.address, first.address + tagSpan first functionCode, [first]⟩ := by
      simp [Scan.step, hpos.le]
    simp only [List.foldl_cons, hstep]
    exact finish_foldl_step (g := .single (tagSpans φ functionCode) first)
      (by simp [Spans.Group.single]) rest

end Loop

/-! ## A plan is correct -/

instance (functionCode : FunctionCode) : Std.Total (@EntryLe φ functionCode) where
  total a b := by
    rw [EntryLe, EntryLe]
    omega

instance (functionCode : FunctionCode) : IsTrans (Tag φ) (EntryLe functionCode) where
  trans a b c hab hbc := by
    rw [EntryLe] at *
    omega

instance : Std.Total CodeLe where
  total a b := Nat.le_total a.value b.value

instance : IsTrans FunctionCode CodeLe where
  trans _ _ _ hab hbc := Nat.le_trans hab hbc

theorem sorted_insertionSort (functionCode : FunctionCode) (tags : List (Tag φ)) :
    (tagSpans φ functionCode).Sorted (tags.insertionSort (EntryLe functionCode)) := by
  refine (List.pairwise_insertionSort (EntryLe functionCode) tags).imp fun {a b} hab => ?_
  show a.address ≤ b.address
  rw [EntryLe] at hab
  omega

theorem nodup_functionCodes (tags : List (Tag φ)) : (functionCodes tags).Nodup :=
  (List.perm_insertionSort ..).nodup_iff.2 (Dict.groupBy Tag.code tags).nodup

theorem mem_functionCodes {tags : List (Tag φ)} {functionCode : FunctionCode} :
    functionCode ∈ functionCodes tags ↔ ∃ tag ∈ tags, tag.code = functionCode := by
  rw [functionCodes, (List.perm_insertionSort ..).mem_iff, Dict.mem_keys_groupBy]

def tagsOf (tags : List (Tag φ)) (functionCode : FunctionCode) : List (Tag φ) :=
  tags.filter fun tag => tag.code = functionCode

theorem planReadBlocks_eq (tags : List (Tag φ)) (maxBlockSize : Option Int) (maxBlockGap : Int) :
    planReadBlocks tags maxBlockSize maxBlockGap =
      (functionCodes tags).flatMap fun functionCode =>
        planOneFunctionCode (tagsOf tags functionCode) functionCode
          (effectiveLimit maxBlockSize functionCode) maxBlockGap := by
  simp only [planReadBlocks, Dict.getD_groupBy]
  rfl

def PlannedTag.Covers (planned : PlannedTag φ) (z : Int) : Prop :=
  planned.tag.address ≤ z ∧ z < planned.tag.address + planned.span

structure ReadBlock.Sound (block : ReadBlock φ) (limit maxBlockGap : Int) : Prop where
  nonempty : block.tags ≠ []
  functionCode : ∀ p ∈ block.tags, p.tag.code = block.functionCode
  span : ∀ p ∈ block.tags, p.span = tagSpan p.tag block.functionCode
  offset : ∀ p ∈ block.tags, p.offset = p.tag.address - block.address ∧ 0 ≤ p.offset ∧
    p.offset + p.span ≤ block.quantity
  first : ∃ p ∈ block.tags, p.offset = 0
  last : ∃ p ∈ block.tags, p.offset + p.span = block.quantity
  limited : 1 < block.tags.length → block.quantity ≤ limit
  single : ∀ p, block.tags = [p] → block.quantity = p.span
  gaps : ∀ a b, a < b → block.address ≤ a → b ≤ block.address + block.quantity →
    (∀ z, a ≤ z → z < b → ∀ p ∈ block.tags, ¬ p.Covers z) → b - a ≤ maxBlockGap

def ReadBlock.Le (a b : ReadBlock φ) : Prop :=
  a.functionCode.value < b.functionCode.value ∨
    a.functionCode = b.functionCode ∧ a.address ≤ b.address

/-- What a plan for `tags` is. -/
structure Plans (blocks : List (ReadBlock φ)) (tags : List (Tag φ)) (maxBlockSize : Option Int)
    (maxBlockGap : Int) : Prop where
  partition : (blocks.flatMap fun block => block.tags.map PlannedTag.tag).Perm tags
  sound : ∀ block ∈ blocks,
    block.Sound (effectiveLimit maxBlockSize block.functionCode) maxBlockGap
  ordered : blocks.Pairwise ReadBlock.Le

section Sound

variable {functionCode : FunctionCode} {limit gap : Int}

@[simp] theorem tags_blockOf (g : Spans.Group (Tag φ)) :
    (blockOf functionCode g).tags.map PlannedTag.tag = g.items := by
  simp [blockOf, buildBlock, Function.comp_def]

theorem mem_tags_blockOf {g : Spans.Group (Tag φ)} {p : PlannedTag φ} :
    p ∈ (blockOf functionCode g).tags ↔
      ∃ tag ∈ g.items, p = ⟨tag, tag.address - g.lower, tagSpan tag functionCode⟩ := by
  simp [blockOf, buildBlock, eq_comm]

section BlockOf

variable {g : Spans.Group (Tag φ)} (hg : g.Sound (tagSpans φ functionCode) limit gap)

include hg

theorem offset_blockOf {tag : Tag φ} (htag : tag ∈ g.items) :
    0 ≤ tag.address - g.lower ∧
      tag.address - g.lower + tagSpan tag functionCode ≤ g.upper - g.lower := by
  obtain ⟨hfrom, hto⟩ := hg.within tag htag
  simp only [tagSpans] at hfrom hto
  omega

theorem exists_first_blockOf : ∃ first ∈ g.items, first.address = g.lower := by
  obtain ⟨first, hfirst, hlower⟩ := hg.first
  exact ⟨first, hfirst, hlower⟩

theorem exists_last_blockOf :
    ∃ last ∈ g.items, last.address + tagSpan last functionCode = g.upper := by
  obtain ⟨last, hlast, hupper⟩ := hg.last
  exact ⟨last, hlast, hupper⟩

theorem quantity_of_single {p : PlannedTag φ} (hp : (blockOf functionCode g).tags = [p]) :
    (blockOf functionCode g).quantity = p.span := by
  obtain ⟨first, hfirst, hlower⟩ := exists_first_blockOf hg
  obtain ⟨last, hlast, hupper⟩ := exists_last_blockOf hg
  have hmem : ∀ tag ∈ g.items, p = ⟨tag, tag.address - g.lower, tagSpan tag functionCode⟩ := by
    intro tag htag
    have hplanned : ⟨tag, tag.address - g.lower, tagSpan tag functionCode⟩ ∈
        (blockOf functionCode g).tags := mem_tags_blockOf.2 ⟨tag, htag, rfl⟩
    rw [hp, List.mem_singleton] at hplanned
    exact hplanned.symm
  have hsame : first = last := by
    have hplanned := (hmem first hfirst).symm.trans (hmem last hlast)
    injection hplanned
  subst hsame
  rw [hmem first hfirst]
  show g.upper - g.lower = tagSpan first functionCode
  omega

theorem sound_blockOf (hcode : ∀ tag ∈ g.items, tag.code = functionCode) :
    (blockOf functionCode g).Sound limit gap where
  nonempty := by
    obtain ⟨first, hfirst, -⟩ := exists_first_blockOf hg
    exact List.ne_nil_of_mem (mem_tags_blockOf.2 ⟨first, hfirst, rfl⟩)
  functionCode := by
    intro p hp
    obtain ⟨tag, htag, rfl⟩ := mem_tags_blockOf.1 hp
    exact hcode tag htag
  span := by
    intro p hp
    obtain ⟨tag, htag, rfl⟩ := mem_tags_blockOf.1 hp
    rfl
  offset := by
    intro p hp
    obtain ⟨tag, htag, rfl⟩ := mem_tags_blockOf.1 hp
    exact ⟨rfl, offset_blockOf hg htag⟩
  first := by
    obtain ⟨first, hfirst, hlower⟩ := exists_first_blockOf hg
    exact ⟨_, mem_tags_blockOf.2 ⟨first, hfirst, rfl⟩, by simp [hlower]⟩
  last := by
    obtain ⟨last, hlast, hupper⟩ := exists_last_blockOf hg
    refine ⟨_, mem_tags_blockOf.2 ⟨last, hlast, rfl⟩, ?_⟩
    show last.address - g.lower + tagSpan last functionCode = g.upper - g.lower
    omega
  limited := by
    intro h
    have hlength : (blockOf functionCode g).tags.length = g.items.length := List.length_map ..
    exact hg.limited (hlength ▸ h)
  single := fun p hp => quantity_of_single hg hp
  gaps := by
    intro a b hab ha hb hhole
    have hb' : b ≤ g.upper := by
      have : b ≤ g.lower + (g.upper - g.lower) := hb
      omega
    refine hg.bridged a b hab ha hb' fun z hza hzb tag htag => ?_
    exact hhole z hza hzb _ (mem_tags_blockOf.2 ⟨tag, htag, rfl⟩)

end BlockOf

theorem planOneFunctionCode_plans (limit gap : Int) {tags : List (Tag φ)}
    (hcode : ∀ tag ∈ tags, tag.code = functionCode) :
    ((planOneFunctionCode tags functionCode limit gap).flatMap
        fun block => block.tags.map PlannedTag.tag).Perm tags ∧
      (∀ block ∈ planOneFunctionCode tags functionCode limit gap,
        block.functionCode = functionCode ∧ block.Sound limit gap) ∧
      (planOneFunctionCode tags functionCode limit gap).Pairwise ReadBlock.Le := by
  have hperm := List.perm_insertionSort (EntryLe functionCode) tags
  have hsorted := sorted_insertionSort functionCode tags
  have hall : (Spans.greedy (tagSpans φ functionCode) limit gap
      (tags.insertionSort (EntryLe functionCode))).flatMap Spans.Group.items =
        tags.insertionSort (EntryLe functionCode) := Spans.flatMap_greedy _
  rw [planOneFunctionCode_eq]
  refine ⟨?_, ?_, ?_⟩
  · simp only [List.flatMap_map, tags_blockOf]
    exact (List.Perm.of_eq hall).trans hperm
  · intro block hblock
    obtain ⟨g, hg, rfl⟩ := List.mem_map.1 hblock
    refine ⟨rfl, sound_blockOf (Spans.sound_greedy hsorted g hg) fun tag htag => ?_⟩
    have hmem := List.mem_flatMap.2 ⟨g, hg, htag⟩
    rw [hall] at hmem
    exact hcode tag (hperm.mem_iff.1 hmem)
  · refine List.pairwise_map.2 ((Spans.pairwise_greedy hsorted).imp fun hle => ?_)
    exact .inr ⟨rfl, hle⟩

end Sound

theorem plans_planReadBlocks (tags : List (Tag φ)) (maxBlockSize : Option Int) (maxBlockGap : Int) :
    Plans (planReadBlocks tags maxBlockSize maxBlockGap) tags maxBlockSize maxBlockGap := by
  have hplans := fun functionCode => planOneFunctionCode_plans
    (effectiveLimit maxBlockSize functionCode) maxBlockGap
    fun tag (htag : tag ∈ tagsOf tags functionCode) => of_decide_eq_true (List.mem_filter.1 htag).2
  rw [planReadBlocks_eq]
  refine ⟨?_, ?_, ?_⟩
  · rw [List.flatMap_assoc]
    refine (List.Perm.flatMap_left _ fun functionCode _ => (hplans functionCode).1).trans ?_
    refine (Dict.perm_flatMap_filter Tag.code (nodup_functionCodes tags) tags).trans ?_
    rw [List.filter_eq_self.2 fun tag htag => decide_eq_true (mem_functionCodes.2 ⟨tag, htag, rfl⟩)]
  · intro block hblock
    obtain ⟨functionCode, -, hmem⟩ := List.mem_flatMap.1 hblock
    obtain ⟨hcode, hsound⟩ := (hplans functionCode).2.1 block hmem
    rw [hcode]
    exact hsound
  · refine List.pairwise_flatMap.2 ⟨fun functionCode _ => (hplans functionCode).2.2, ?_⟩
    have hcodes := List.pairwise_insertionSort CodeLe (Dict.groupBy Tag.code tags).keys
    refine (hcodes.and (nodup_functionCodes tags)).imp ?_
    rintro f₁ f₂ ⟨hle, hne⟩ a ha b hb
    rw [ReadBlock.Le, ((hplans f₁).2.1 a ha).1, ((hplans f₂).2.1 b hb).1]
    refine .inl (lt_of_le_of_ne hle fun heq => hne ?_)
    cases f₁ <;> cases f₂ <;> first | rfl | exact absurd heq (by decide)

/-- **A plan is correct.**  The blocks partition the tags; in each, the offsets are right and every
tag is within its bounds, the limit is kept to unless there is only one tag, and no run of addresses
that is read for nothing is longer than the tolerance; blocks come in the order of function code
and address. -/
theorem planReadBlocks_sound (tags : List (Tag φ)) (maxBlockSize : Option Int) (maxBlockGap : Int) :
    ((planReadBlocks tags maxBlockSize maxBlockGap).flatMap
      fun block => block.tags.map PlannedTag.tag).Perm tags ∧
    (∀ block ∈ planReadBlocks tags maxBlockSize maxBlockGap,
      (∀ p ∈ block.tags, p.tag.code = block.functionCode ∧
        p.span = tagSpan p.tag block.functionCode ∧ p.offset = p.tag.address - block.address ∧
        0 ≤ p.offset ∧ p.offset + p.span ≤ block.quantity) ∧
      (1 < block.tags.length → block.quantity ≤ effectiveLimit maxBlockSize block.functionCode) ∧
      (∀ p, block.tags = [p] → block.quantity = p.span) ∧
      ∀ a b, a < b → block.address ≤ a → b ≤ block.address + block.quantity →
        (∀ z, a ≤ z → z < b → ∀ p ∈ block.tags, ¬ p.Covers z) → b - a ≤ maxBlockGap) ∧
    (planReadBlocks tags maxBlockSize maxBlockGap).Pairwise fun a b =>
      a.functionCode.value < b.functionCode.value ∨
        a.functionCode = b.functionCode ∧ a.address ≤ b.address := by
  have hplan := plans_planReadBlocks tags maxBlockSize maxBlockGap
  refine ⟨hplan.partition, fun block hblock => ?_, hplan.ordered⟩
  have hsound := hplan.sound block hblock
  refine ⟨fun p hp => ?_, hsound.limited, hsound.single, hsound.gaps⟩
  exact ⟨hsound.functionCode p hp, hsound.span p hp, hsound.offset p hp⟩

/-! ## A plan is optimal -/

def spanOf (tag : Tag φ) : Int := tagSpan tag tag.code

/-- The order in which the tags of a function code are taken; `sorted` is stable. -/
def Before (tags : List (Tag φ)) (i j : Fin tags.length) : Prop :=
  (tags.get i).address < (tags.get j).address ∨
    (tags.get i).address = (tags.get j).address ∧
      (spanOf (tags.get i) < spanOf (tags.get j) ∨
        spanOf (tags.get i) = spanOf (tags.get j) ∧ i < j)

instance (tags : List (Tag φ)) (i j : Fin tags.length) : Decidable (Before tags i j) :=
  inferInstanceAs (Decidable (_ ∨ _))

/-- Any way to read the tags in `n` blocks that keeps to the limits.  Each occurrence of a tag has
its block; what shares a block has one function code, reaches no further than the limit, and
starts no more than the tolerance after the end of something that comes before it, if anything
does. -/
structure Grouping (tags : List (Tag φ)) (maxBlockSize : Option Int) (maxBlockGap : Int)
    (n : Nat) where
  block : Fin tags.length → Fin n
  functionCode : ∀ i j, block i = block j → (tags.get i).code = (tags.get j).code
  limited : ∀ i j, block i = block j →
    (tags.get j).address + spanOf (tags.get j) - (tags.get i).address ≤
      effectiveLimit maxBlockSize (tags.get i).code
  linked : ∀ i j, block i = block j → Before tags i j → ∃ k, block k = block j ∧ Before tags k j ∧
    (tags.get j).address - ((tags.get k).address + spanOf (tags.get k)) ≤ maxBlockGap

section Optimal

variable {tags : List (Tag φ)} {maxBlockSize : Option Int} {maxBlockGap : Int} {n : Nat}

variable {functionCode : FunctionCode}

theorem spanOf_le_effectiveLimit {tag : Tag φ}
    (hsize : ∀ size, maxBlockSize = some size → spanOf tag ≤ size) :
    spanOf tag ≤ effectiveLimit maxBlockSize functionCode := by
  have hceiling : spanOf tag ≤ maxReadQuantity functionCode := by
    have hfour : 4 ≤ maxReadQuantity functionCode := by cases functionCode <;> decide
    have := tagSpan_le tag tag.code
    rw [spanOf]
    omega
  cases maxBlockSize with
  | none => exact hceiling
  | some size => exact le_min hceiling (le_max_of_le_right (hsize size rfl))

theorem before_asymm (i j : Fin tags.length) (h : Before tags i j) : ¬ Before tags j i := by
  rw [Before] at *
  omega

/-- The positions of the tags of a function code, in the order in which they are taken. -/
def positions (tags : List (Tag φ)) (functionCode : FunctionCode) : List (Fin tags.length) :=
  ((List.finRange tags.length).filter fun i => (tags.get i).code = functionCode).insertionSort
    fun i j => EntryLe functionCode (tags.get i) (tags.get j)

variable {i : Fin tags.length}

theorem mem_positions :
    i ∈ positions tags functionCode ↔ (tags.get i).code = functionCode := by
  rw [positions, List.mem_insertionSort, List.mem_filter]
  simp

theorem map_get_positions (functionCode : FunctionCode) :
    (positions tags functionCode).map tags.get =
      (tagsOf tags functionCode).insertionSort (EntryLe functionCode) := by
  have hfilter : ((List.finRange tags.length).filter
      fun i => (tags.get i).code = functionCode).map tags.get = tagsOf tags functionCode := by
    conv_rhs => rw [tagsOf, ← List.map_get_finRange tags, List.filter_map]
    rfl
  rw [← hfilter, positions]
  exact List.map_insertionSort _ _ _ _ fun _ _ _ _ => Iff.rfl

theorem pairwise_positions (functionCode : FunctionCode) :
    (positions tags functionCode).Pairwise (Before tags) := by
  have hlt : ((List.finRange tags.length).filter
      fun i => (tags.get i).code = functionCode).Pairwise (· < ·) :=
    (List.pairwise_lt_finRange _).filter _
  have hle := List.pairwise_insertionSort
    (fun i j => EntryLe functionCode (tags.get i) (tags.get j)) ((List.finRange tags.length).filter
      fun i => (tags.get i).code = functionCode)
  refine ((hle.and (pairwise_insertionSort_stable hlt)).imp_of_mem ?_)
  rintro i j hi hj ⟨hij, hstable⟩
  have hci : (tags.get i).code = functionCode := mem_positions.1 hi
  have hcj : (tags.get j).code = functionCode := mem_positions.1 hj
  rw [Before, spanOf, spanOf, hci, hcj]
  rw [EntryLe] at hij hstable
  omega

theorem sorted_positions (functionCode : FunctionCode) :
    ((tagSpans φ functionCode).comap tags.get).Sorted (positions tags functionCode) := by
  have htags := sorted_insertionSort functionCode (tagsOf tags functionCode)
  rw [← map_get_positions, Spans.Sorted, List.pairwise_map] at htags
  exact htags

theorem length_planOneFunctionCode (functionCode : FunctionCode) (limit gap : Int) :
    (planOneFunctionCode (tagsOf tags functionCode) functionCode limit gap).length =
      (Spans.greedy ((tagSpans φ functionCode).comap tags.get) limit gap
        (positions tags functionCode)).length := by
  rw [planOneFunctionCode_eq, List.length_map, ← map_get_positions, Spans.length_greedy_map]

theorem Grouping.ne_of_apart (G : Grouping tags maxBlockSize maxBlockGap n)
    {j : Fin tags.length}
    (hi : (tags.get i).code = functionCode) (hj : (tags.get j).code = functionCode)
    (hbefore : Before tags i j)
    (hapart : ((tagSpans φ functionCode).comap tags.get).Apart (Before tags)
      (effectiveLimit maxBlockSize functionCode) maxBlockGap (positions tags functionCode) i j) :
    G.block i ≠ G.block j := by
  intro hblock
  rcases hapart with hfar | hbehind
  · have hlimited := G.limited i j hblock
    have : effectiveLimit maxBlockSize functionCode <
      (tags.get j).address + tagSpan (tags.get j) functionCode - (tags.get i).address := hfar
    rw [spanOf, hi, hj] at hlimited
    omega
  · obtain ⟨k, hk, hkj, hlinked⟩ := G.linked i j hblock hbefore
    have hkcode : (tags.get k).code = functionCode := (G.functionCode k j hk).trans hj
    have : maxBlockGap < (tags.get j).address -
      ((tags.get k).address + tagSpan (tags.get k) functionCode) :=
      hbehind k (mem_positions.2 hkcode) hkj
    rw [spanOf, hkcode] at hlinked
    omega

theorem exists_apart_positions (G : Grouping tags maxBlockSize maxBlockGap n)
    (hsize : ∀ size, maxBlockSize = some size → ∀ tag ∈ tags, spanOf tag ≤ size)
    (functionCode : FunctionCode) :
    ∃ is : List (Fin tags.length),
      is.length = (planOneFunctionCode (tagsOf tags functionCode) functionCode
        (effectiveLimit maxBlockSize functionCode) maxBlockGap).length ∧
      (∀ i ∈ is, (tags.get i).code = functionCode) ∧
      is.Pairwise fun i j => G.block i ≠ G.block j := by
  have hwide : ∀ i ∈ positions tags functionCode,
      (tags.get i).address + tagSpan (tags.get i) functionCode - (tags.get i).address ≤
        effectiveLimit maxBlockSize functionCode := by
    intro i hi
    have hle : spanOf (tags.get i) ≤ effectiveLimit maxBlockSize functionCode :=
      spanOf_le_effectiveLimit fun size hsome => hsize size hsome _ (List.get_mem ..)
    rw [spanOf, mem_positions.1 hi] at hle
    omega
  obtain ⟨is, his, hsub, hapart⟩ := Spans.exists_apart maxBlockGap
    before_asymm (pairwise_positions functionCode) (sorted_positions functionCode) hwide
  have hcode : ∀ i ∈ is, (tags.get i).code = functionCode :=
    fun i hi => mem_positions.1 (hsub.subset hi)
  refine ⟨is, his.trans (length_planOneFunctionCode ..).symm, hcode, ?_⟩
  refine (((pairwise_positions functionCode).sublist hsub).and hapart).imp_of_mem ?_
  rintro i j hi hj ⟨hbefore, hij⟩
  exact G.ne_of_apart (hcode i hi) (hcode j hj) hbefore hij

end Optimal

/-- **A plan is optimal.**  If the block size is not set, or no smaller than the widest tag, no
grouping has fewer blocks than the plan. -/
theorem planReadBlocks_optimal (tags : List (Tag φ)) (maxBlockSize : Option Int)
    (maxBlockGap : Int) (hsize : ∀ size, maxBlockSize = some size → ∀ tag ∈ tags, spanOf tag ≤ size)
    (n : Nat) (G : Grouping tags maxBlockSize maxBlockGap n) :
    (planReadBlocks tags maxBlockSize maxBlockGap).length ≤ n := by
  choose apart hlength hcode hapart using exists_apart_positions G hsize
  have hpairwise : ((functionCodes tags).flatMap apart).Pairwise
      fun i j => G.block i ≠ G.block j := by
    refine List.pairwise_flatMap.2 ⟨fun functionCode _ => hapart functionCode, ?_⟩
    refine (nodup_functionCodes tags).imp fun {f₁ f₂} hne i hi j hj hblock => hne ?_
    rw [← hcode f₁ i hi, ← hcode f₂ j hj]
    exact G.functionCode i j hblock
  have hnodup : (((functionCodes tags).flatMap apart).map G.block).Nodup :=
    List.pairwise_map.2 hpairwise
  calc (planReadBlocks tags maxBlockSize maxBlockGap).length
      = (((functionCodes tags).flatMap apart).map G.block).length := by
        simp only [planReadBlocks_eq, List.length_map, List.length_flatMap, hlength]
    _ ≤ Fintype.card (Fin n) := hnodup.length_le_card
    _ = n := Fintype.card_fin n

def register (address : Int) (dataType : DataType) : Tag ℚ :=
  ⟨"r" ++ toString address, .readHoldingRegisters, address, some dataType, none, none, none, none⟩

theorem planReadBlocks_optimal_gap :
    (planReadBlocks [register 3 .uint16, register 0 .uint16, register 1 .uint16] (some 2) 0).length
      = 2 ∧
    Nonempty
      (Grouping [register 3 .uint16, register 0 .uint16, register 1 .uint16] (some 2) 0 2) ∧
    IsEmpty
      (Grouping [register 3 .uint16, register 0 .uint16, register 1 .uint16] (some 2) 0 1) := by
  refine ⟨by decide, ⟨⟨fun i => if i.val = 0 then 0 else 1, by decide, by decide, by decide⟩⟩,
    ⟨fun G => ?_⟩⟩
  have hsize : ∀ size, some (2 : Int) = some size →
      ∀ tag ∈ [register 3 .uint16, register 0 .uint16, register 1 .uint16], spanOf tag ≤ size := by
    rintro _ ⟨⟩
    decide
  exact absurd (planReadBlocks_optimal _ _ _ hsize 1 G) (by decide)

/-! ## Which plans can be sent -/

/-- The blocks that `configure` plans for a group. -/
def groupBlocks (group : TagGroup φ) : List (ReadBlock φ) :=
  planReadBlocks group.readableTags group.maxBlockSize group.getMaxBlockGap

def ReadBlock.Sendable (block : ReadBlock φ) : Prop :=
  ∃ pdu, encodeReadRequest block.functionCode block.address block.quantity = .ok pdu

instance ReadBlock.decidableSendable (block : ReadBlock φ) : Decidable block.Sendable :=
  decidable_of_iff _ encodeReadRequest_isOk_iff.symm

/-- `_blocks_by_group`; a later group of the same id wins. -/
def blocksByGroup (groups : List (TagGroup φ)) : Dict String (List (ReadBlock φ)) :=
  Dict.ofList (groups.map fun group => (group.id, groupBlocks group))

def blocksOf (groups : List (TagGroup φ)) (group : TagGroup φ) : List (ReadBlock φ) :=
  ((blocksByGroup groups).get? group.id).getD []

variable {block : ReadBlock φ}

theorem exists_groupBlocks {groups : List (TagGroup φ)} {group : TagGroup φ}
    (h : block ∈ blocksOf groups group) : ∃ g ∈ groups, block ∈ groupBlocks g := by
  rw [blocksOf] at h
  cases hget : (blocksByGroup groups).get? group.id with
  | none =>
    rw [hget] at h
    exact absurd h List.not_mem_nil
  | some blocks =>
    rw [hget] at h
    have hentry := Dict.mem_of_mem_ofList ((Dict.get?_eq_some_iff _).1 hget)
    obtain ⟨g, hg, heq⟩ := List.mem_map.1 hentry
    exact ⟨g, hg, (Prod.mk.inj heq).2 ▸ h⟩

theorem effectiveLimit_le (maxBlockSize : Option Int) (functionCode : FunctionCode) :
    effectiveLimit maxBlockSize functionCode ≤ maxReadQuantity functionCode := by
  cases maxBlockSize with
  | none => exact le_rfl
  | some size => exact min_le_left _ _

theorem ReadBlock.Sound.quantity_le {maxBlockSize : Option Int} {gap : Int}
    (h : block.Sound (effectiveLimit maxBlockSize block.functionCode) gap) :
    1 ≤ block.quantity ∧ block.quantity ≤ maxReadQuantity block.functionCode := by
  obtain ⟨p, hp, hfirst⟩ := h.first
  have hspan := h.span p hp
  have hpos := tagSpan_pos p.tag block.functionCode
  have hoffset := h.offset p hp
  refine ⟨by omega, ?_⟩
  by_cases hlength : 1 < block.tags.length
  · exact (h.limited hlength).trans (effectiveLimit_le _ _)
  · have hsingle : block.tags = [p] := by
      obtain ⟨q, hq⟩ := List.length_eq_one_iff.1
        (le_antisymm (not_lt.1 hlength) (List.length_pos_of_mem hp))
      rw [hq, List.mem_singleton] at hp
      rw [hq, hp]
    have hquantity := h.single p hsingle
    have hfour := tagSpan_le p.tag block.functionCode
    have hceiling : 4 ≤ maxReadQuantity block.functionCode := by
      cases block.functionCode <;> decide
    omega

def groupOfOne (tag : Tag ℚ) : TagGroup ℚ := ⟨"g", 1000, [tag], none, none, none⟩

theorem groupOfOne_accepted (tag : Tag ℚ) (h : tag.Accepted) : (groupOfOne tag).Accepted where
  id := by simp [groupOfOne]
  scanRateMs := by simp [groupOfOne]
  nonempty := List.cons_ne_nil _ _
  tags := by simpa [groupOfOne] using h
  maxBlockSize := by rintro _ ⟨⟩
  maxBlockGap := by rintro _ ⟨⟩

end XEdge.Modbus.Planner
