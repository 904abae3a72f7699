import XEdge.Lib.Machine

/-!
# Who owns the serial port (`SerialBusManager.acquire` and `release`)

The manager of a port counts the driver instances that use it: the first `acquire`
opens the port and starts a scheduler, the last `release` stops the scheduler and closes
the port.  Both suspend half-way, `acquire` in the open and `release` in
`scheduler.stop()` and `wait_closed()`, and other instances run in between.  When an
open fails, `acquire` takes its count back and raises; the supervisor then disconnects
the driver, which calls `release` on top of that.

An event resumes one instance up to its next suspension, so every interleaving at await
points is a list of events.
-/

namespace XEdge.Modbus

open Lib

/-- The manager of one port, shared by instances `ι`. -/
structure Bus (ι : Type) where
  refCount : Int
  /-- `_writer`, as the number of the connection. -/
  writer : Option Nat
  /-- The connections whose `close()` was called. -/
  closed : Finset Nat
  /-- `scheduler`, as the number of the object. -/
  scheduler : Nat
  running : Finset Nat
  nextId : Nat
  /-- Instances whose `acquire` returned and that have not called `release`. -/
  holders : Finset ι
  /-- Instances in `open_serial_connection`. -/
  openers : Finset ι
  /-- Instances in the `scheduler.stop()` of `release`. -/
  stopping : Finset ι
  /-- Instances in the `wait_closed()` of `release`. -/
  closing : Finset ι
  deriving DecidableEq

inductive BusEvent (ι : Type) where
  /-- The driver's `connect()` calls `acquire`. -/
  | acquire (i : ι)
  | openDone (i : ι)
  /-- The open raised; the supervisor disconnects the driver. -/
  | openFailed (i : ι)
  /-- The instance is cancelled during the open; the supervisor disconnects the driver. -/
  | cancelled (i : ι)
  /-- The driver's `disconnect()` calls `release`. -/
  | release (i : ι)
  | stopDone (i : ι)
  | closeDone (i : ι)
  deriving DecidableEq

namespace Bus

variable {ι : Type} [DecidableEq ι]

def new : Bus ι := ⟨0, none, ∅, 0, ∅, 1, ∅, ∅, ∅, ∅⟩

def Idle (b : Bus ι) (i : ι) : Prop :=
  i ∉ b.holders ∧ i ∉ b.openers ∧ i ∉ b.stopping ∧ i ∉ b.closing

instance (b : Bus ι) (i : ι) : Decidable (b.Idle i) := inferInstanceAs (Decidable (_ ∧ _ ∧ _ ∧ _))

/-- `release` from the close of the writer on. -/
def closeWriter (b : Bus ι) (i : ι) : Bus ι :=
  match b.writer with
  | some w => { b with closed := insert w b.closed, closing := insert i b.closing }
  | none => b

/-- `release`, up to its first suspension. -/
def beginRelease (b : Bus ι) (i : ι) : Bus ι :=
  if b.refCount = 0 then b
  else if 0 < b.refCount - 1 then { b with refCount := b.refCount - 1 }
  -- a scheduler that was never started is stopped without suspending
  else if b.scheduler ∈ b.running then
    { b with
      refCount := b.refCount - 1
      running := b.running.erase b.scheduler
      stopping := insert i b.stopping }
  else { b with refCount := b.refCount - 1 }.closeWriter i

def step (b : Bus ι) : BusEvent ι → Option (Bus ι)
  | .acquire i =>
      if b.Idle i then
        if 1 < b.refCount + 1 then
          some { b with refCount := b.refCount + 1, holders := insert i b.holders }
        else
          some { b with
            refCount := b.refCount + 1
            scheduler := b.nextId
            nextId := b.nextId + 1
            openers := insert i b.openers }
      else none
  | .openDone i =>
      if i ∈ b.openers then
        some { b with
          writer := some b.nextId
          nextId := b.nextId + 1
          running := insert b.scheduler b.running
          openers := b.openers.erase i
          holders := insert i b.holders }
      else none
  | .openFailed i =>
      if i ∈ b.openers then
        some ({ b with openers := b.openers.erase i, refCount := b.refCount - 1 }.beginRelease i)
      else none
  -- `except Exception` does not see a cancellation, so the count stays for `release`
  | .cancelled i =>
      if i ∈ b.openers then some ({ b with openers := b.openers.erase i }.beginRelease i) else none
  | .release i =>
      if i ∈ b.holders then some ({ b with holders := b.holders.erase i }.beginRelease i) else none
  | .stopDone i =>
      if i ∈ b.stopping then some ({ b with stopping := b.stopping.erase i }.closeWriter i)
      else none
  | .closeDone i =>
      if i ∈ b.closing then some { b with closing := b.closing.erase i, writer := none } else none

def PortOpen (b : Bus ι) : Prop := ∃ w, b.writer = some w ∧ w ∉ b.closed

/-- Nobody acquires while the port is being opened, and no open completes while a
release is in progress. -/
def Undisturbed (b : Bus ι) : BusEvent ι → Prop
  | .acquire _ => b.openers = ∅
  | .openDone _ => b.stopping = ∅ ∧ b.closing = ∅
  | _ => True

instance (b : Bus ι) : (e : BusEvent ι) → Decidable (b.Undisturbed e)
  | .acquire _ => inferInstanceAs (Decidable (b.openers = ∅))
  | .openDone _ => inferInstanceAs (Decidable (b.stopping = ∅ ∧ b.closing = ∅))
  | .openFailed _ | .cancelled _ | .release _ | .stopDone _ | .closeDone _ => isTrue trivial

structure Fresh (b : Bus ι) : Prop where
  closed : ∀ w ∈ b.closed, w < b.nextId
  writer : ∀ w, b.writer = some w → w < b.nextId

structure Owned (b : Bus ι) : Prop where
  fresh : b.Fresh
  count : b.refCount = b.holders.card + b.openers.card
  single : b.openers.card ≤ 1
  alone : b.openers.Nonempty → b.holders = ∅
  held : b.holders.Nonempty →
    b.PortOpen ∧ b.scheduler ∈ b.running ∧ b.stopping = ∅ ∧ b.closing = ∅

variable {b b' : Bus ι} {i : ι}

omit [DecidableEq ι] in
theorem owned_new : (new : Bus ι).Owned :=
  ⟨⟨by simp [new], by simp [new]⟩, by simp [new], by simp [new], by simp [new], by simp [new]⟩

/-! ## What the resumptions keep -/

omit [DecidableEq ι] in
theorem Owned.of_no_holders (hfresh : b.Fresh) (hholders : b.holders = ∅)
    (hcount : b.refCount = b.openers.card) (hsingle : b.openers.card ≤ 1) : b.Owned := by
  refine ⟨hfresh, ?_, hsingle, fun _ => hholders, fun h => ?_⟩
  · simpa [hholders] using hcount
  · simp [hholders] at h

theorem closeWriter_spec (h : b.Fresh) (i : ι) :
    (b.closeWriter i).Fresh ∧ (b.closeWriter i).refCount = b.refCount ∧
      (b.closeWriter i).holders = b.holders ∧ (b.closeWriter i).openers = b.openers := by
  unfold closeWriter
  split
  · next w hw =>
    refine ⟨⟨fun v hv => ?_, h.writer⟩, rfl, rfl, rfl⟩
    rcases Finset.mem_insert.1 hv with rfl | hv
    · exact h.writer v hw
    · exact h.closed v hv
  · exact ⟨h, rfl, rfl, rfl⟩

theorem beginRelease_last (h : b.Fresh) (hcount : b.refCount = 1) (i : ι) :
    (b.beginRelease i).Fresh ∧ (b.beginRelease i).refCount = 0 ∧
      (b.beginRelease i).holders = b.holders ∧ (b.beginRelease i).openers = b.openers := by
  unfold beginRelease
  rw [if_neg (by omega), if_neg (by omega)]
  split
  · exact ⟨⟨h.closed, h.writer⟩, by simp [hcount], rfl, rfl⟩
  · obtain ⟨hf, hc, hh, ho⟩ :=
      closeWriter_spec (b := { b with refCount := b.refCount - 1 }) ⟨h.closed, h.writer⟩ i
    exact ⟨hf, by rw [hc]; simp [hcount], hh, ho⟩

theorem owned_acquire (h : b.Owned) (hG : b.openers = ∅)
    (hstep : b.step (.acquire i) = some b') : b'.Owned := by
  have hcount := h.count
  rw [hG, Finset.card_empty] at hcount
  simp only [step] at hstep
  split at hstep
  · next hidle =>
    split at hstep <;> cases hstep
    · next hone =>
      have hheld : b.holders.Nonempty := Finset.card_pos.1 (by omega)
      refine ⟨⟨h.fresh.closed, h.fresh.writer⟩, ?_, h.single, ?_, fun _ => h.held hheld⟩
      · show b.refCount + 1 = _
        rw [Finset.card_insert_of_notMem hidle.1, hG, Finset.card_empty]
        omega
      · simp [hG]
    · next hone =>
      have hnone : b.holders = ∅ := Finset.card_eq_zero.1 (by omega)
      refine .of_no_holders ⟨fun w hw => Nat.lt_succ_of_lt (h.fresh.closed w hw),
        fun w hw => Nat.lt_succ_of_lt (h.fresh.writer w hw)⟩ hnone ?_ ?_
      · simp only [hG, insert_empty_eq, Finset.card_singleton, Nat.cast_one]
        omega
      · simp [hG]
  · cases hstep

theorem Owned.opener (h : b.Owned) (hi : i ∈ b.openers) :
    b.openers.erase i = ∅ ∧ b.holders = ∅ ∧ b.refCount = 1 := by
  have hcard : b.openers.card = 1 :=
    le_antisymm h.single (Finset.card_pos.2 ⟨i, hi⟩)
  have hholders := h.alone ⟨i, hi⟩
  refine ⟨?_, hholders, ?_⟩
  · rw [← Finset.card_eq_zero, Finset.card_erase_of_mem hi, hcard]
  · rw [h.count, hholders, hcard]
    simp

theorem owned_openDone (h : b.Owned) (hG : b.stopping = ∅ ∧ b.closing = ∅)
    (hstep : b.step (.openDone i) = some b') : b'.Owned := by
  simp only [step] at hstep
  split at hstep <;> cases hstep
  next hi =>
  obtain ⟨hopeners, hholders, hcount⟩ := h.opener hi
  refine ⟨⟨fun w hw => Nat.lt_succ_of_lt (h.fresh.closed w hw), ?_⟩, ?_, ?_, ?_, fun _ => ?_⟩
  · rintro w hw
    cases hw
    exact Nat.lt_succ_self _
  · simp [hopeners, hholders, hcount]
  · simp [hopeners]
  · simp [hopeners]
  · exact ⟨⟨b.nextId, rfl, fun hc => lt_irrefl _ (h.fresh.closed _ hc)⟩,
      Finset.mem_insert_self _ _, hG.1, hG.2⟩

theorem owned_openFailed (h : b.Owned) (hstep : b.step (.openFailed i) = some b') : b'.Owned := by
  simp only [step] at hstep
  split at hstep <;> cases hstep
  next hi =>
  obtain ⟨hopeners, hholders, hcount⟩ := h.opener hi
  -- `acquire` took its count back, so the supervisor's `release` finds zero
  unfold beginRelease
  rw [if_pos (by simp [hcount])]
  refine .of_no_holders ⟨h.fresh.closed, h.fresh.writer⟩ hholders ?_ ?_
  · simp [hopeners, hcount]
  · simp [hopeners]

theorem owned_cancelled (h : b.Owned) (hstep : b.step (.cancelled i) = some b') : b'.Owned := by
  simp only [step] at hstep
  split at hstep <;> cases hstep
  next hi =>
  obtain ⟨hopeners, hholders, hcount⟩ := h.opener hi
  obtain ⟨hf, hc, hh, ho⟩ := beginRelease_last (b := { b with openers := b.openers.erase i })
    ⟨h.fresh.closed, h.fresh.writer⟩ hcount i
  refine .of_no_holders hf (hh.trans hholders) ?_ ?_
  · rw [hc, ho, hopeners]
    rfl
  · rw [ho, hopeners]
    simp

theorem owned_release (h : b.Owned) (hstep : b.step (.release i) = some b') : b'.Owned := by
  simp only [step] at hstep
  split at hstep <;> cases hstep
  next hi =>
  have hopeners : b.openers = ∅ := by
    by_contra hne
    have hnone := h.alone (Finset.nonempty_iff_ne_empty.2 hne)
    simp [hnone] at hi
  have hcard := Finset.card_erase_of_mem hi
  have hpos : 0 < b.holders.card := Finset.card_pos.2 ⟨i, hi⟩
  have hcount := h.count
  rw [hopeners, Finset.card_empty] at hcount
  by_cases hlast : b.refCount = 1
  · obtain ⟨hf, hc, hh, ho⟩ := beginRelease_last (b := { b with holders := b.holders.erase i })
      ⟨h.fresh.closed, h.fresh.writer⟩ hlast i
    refine .of_no_holders hf (hh.trans (Finset.card_eq_zero.1 ?_)) ?_ ?_
    · show (b.holders.erase i).card = 0
      omega
    · rw [hc, ho, hopeners]
      rfl
    · rw [ho, hopeners]
      simp
  · unfold beginRelease
    rw [if_neg (by simp only; omega), if_pos (by simp only; omega)]
    refine ⟨⟨h.fresh.closed, h.fresh.writer⟩, ?_, h.single, ?_, fun _ => h.held ⟨i, hi⟩⟩
    · simp only [hopeners, Finset.card_empty]
      omega
    · simp [hopeners]

theorem Owned.no_holders (h : b.Owned) (hi : i ∈ b.stopping ∨ i ∈ b.closing) :
    b.holders = ∅ ∧ b.refCount = b.openers.card := by
  have hnone : b.holders = ∅ := by
    by_contra hne
    obtain ⟨-, -, hs, hc⟩ := h.held (Finset.nonempty_iff_ne_empty.2 hne)
    simp [hs, hc] at hi
  rw [h.count, hnone]
  simp

theorem owned_stopDone (h : b.Owned) (hstep : b.step (.stopDone i) = some b') : b'.Owned := by
  simp only [step] at hstep
  split at hstep <;> cases hstep
  next hi =>
  obtain ⟨hholders, hcount⟩ := h.no_holders (Or.inl hi)
  obtain ⟨hf, hc, hh, ho⟩ := closeWriter_spec (b := { b with stopping := b.stopping.erase i })
    ⟨h.fresh.closed, h.fresh.writer⟩ i
  refine .of_no_holders hf (hh.trans hholders) ?_ ?_
  · rw [hc, ho]
    exact hcount
  · rw [ho]
    exact h.single

theorem owned_closeDone (h : b.Owned) (hstep : b.step (.closeDone i) = some b') : b'.Owned := by
  simp only [step] at hstep
  split at hstep <;> cases hstep
  next hi =>
  obtain ⟨hholders, hcount⟩ := h.no_holders (Or.inr hi)
  exact .of_no_holders ⟨h.fresh.closed, by simp⟩ hholders hcount h.single

theorem owned_step {e : BusEvent ι} (h : b.Owned) (hG : b.Undisturbed e)
    (hstep : b.step e = some b') : b'.Owned := by
  cases e with
  | acquire i => exact owned_acquire h hG hstep
  | openDone i => exact owned_openDone h hG hstep
  | openFailed i => exact owned_openFailed h hstep
  | cancelled i => exact owned_cancelled h hstep
  | release i => exact owned_release h hstep
  | stopDone i => exact owned_stopDone h hstep
  | closeDone i => exact owned_closeDone h hstep

end Bus

open Bus

def busMachine (ι : Type) [DecidableEq ι] : Machine (Bus ι) (BusEvent ι) := ⟨Bus.step⟩

/-- **Port ownership.**  In every run in which nobody acquires while the port is being
opened and no open completes while a release is in progress: whenever somebody holds the
port, it is open with a running scheduler, and the count is that of the holders and the
acquires still opening. -/
theorem owned_run {ι : Type} [DecidableEq ι] {es : List (BusEvent ι)} {b : Bus ι}
    (hrun : (busMachine ι).run Bus.new es = some b)
    (hG : (busMachine ι).Meets Bus.Undisturbed Bus.new es) :
    b.holders.Nonempty → b.PortOpen ∧ b.scheduler ∈ b.running ∧
      b.refCount = b.holders.card + b.openers.card := by
  have h : b.Owned := (busMachine ι).inv_run_of_meets (I := Bus.Owned)
    (fun _ _ _ hs hG hstep => owned_step hs hG hstep) owned_new hG hrun
  intro hheld
  obtain ⟨hopen, hsched, -⟩ := h.held hheld
  exact ⟨hopen, hsched, h.count⟩

def orderlyUse : List (BusEvent Nat) :=
  [.acquire 3, .openFailed 3, .acquire 1, .openDone 1, .acquire 2, .release 1]

theorem owned_orderlyUse : ∃ b : Bus Nat,
    (busMachine Nat).run Bus.new orderlyUse = some b ∧ b.holders = {2} ∧
    (b.holders.Nonempty → b.PortOpen ∧ b.scheduler ∈ b.running ∧
      b.refCount = b.holders.card + b.openers.card) := by
  obtain ⟨b, hb, hh⟩ := Option.map_eq_some_iff.1
    (show ((busMachine Nat).run Bus.new orderlyUse).map Bus.holders = some {2} by decide)
  exact ⟨b, hb, hh, owned_run hb (by decide)⟩

/-- **An `acquire` during another's open returns without a port.** -/
theorem acquire_returns_before_open : ∃ b : Bus Nat,
    (busMachine Nat).run Bus.new [.acquire 1, .acquire 2] = some b ∧ 2 ∈ b.holders ∧
    ¬ b.PortOpen ∧ b.scheduler ∉ b.running := by
  obtain ⟨b, hb, hh⟩ := Option.map_eq_some_iff.1
    (show ((busMachine Nat).run Bus.new [.acquire 1, .acquire 2]).map
      (fun b => (b.holders, b.writer, b.running)) = some ({2}, none, ∅) by decide)
  simp only [Prod.mk.injEq] at hh
  exact ⟨b, hb, by simp [hh.1], by simp [PortOpen, hh.2.1], by simp [hh.2.2]⟩

end XEdge.Modbus
