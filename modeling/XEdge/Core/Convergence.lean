import XEdge.Core.HotReload

/-!
# Hot reload converges

After a reconciliation every enabled entry of the file that its schema accepts and that no
other one conflicts with should have a task running with exactly that entry, and nothing
else in the file should have one.  The watch loop decides what to do by its tracking
dictionary; startup and the REST calls change the task table without telling it.
-/

namespace XEdge.Core

open Lib Config

variable {V : Type} [DecidableEq V]

/-! ## What a converged gateway is -/

def Conflicts (D : DriverTypes V) (drivers : List (Entry V)) (e : Entry V) : Bool :=
  match slaveKey D e with
  | .ok (some key) => 1 < (claimants D drivers key).length
  | _ => false

theorem mem_claimants {D : DriverTypes V} {drivers : List (Entry V)}
    (hids : (drivers.map Entry.id).Nodup) {e : Entry V} (he : e ∈ drivers) {key : V × V} :
    e.id ∈ claimants D drivers key ↔ slaveKey D e = .ok (some key) := by
  have hclaims : claims D key e = true ↔ slaveKey D e = .ok (some key) := by
    rw [claims]
    split
    · next key' h => simp [h]
    · next h =>
      constructor
      · intro hf
        cases hf
      · intro hs
        exact (h key hs).elim
  rw [claimants, List.mem_map, ← hclaims]
  constructor
  · rintro ⟨e', he', hid⟩
    obtain ⟨hmem, hkey⟩ := List.mem_filter.1 he'
    rw [← eq_of_id_eq hids hmem he hid]
    exact hkey
  · intro hkey
    exact ⟨e, List.mem_filter.2 ⟨he, hkey⟩, rfl⟩

variable {conflicting : List String}

theorem mem_conflicting_iff_conflicts {D : DriverTypes V} {drivers : List (Entry V)}
    (hids : (drivers.map Entry.id).Nodup)
    (h : conflictingSerialInstanceIds D drivers = .ok conflicting) {e : Entry V}
    (he : e ∈ drivers) : e.id ∈ conflicting ↔ Conflicts D drivers e = true := by
  rw [mem_conflicting_iff h, Conflicts]
  constructor
  · rintro ⟨key, hmem, hlen⟩
    rw [(mem_claimants hids he).1 hmem]
    exact decide_eq_true hlen
  · intro hc
    split at hc
    · next key hkey => exact ⟨key, (mem_claimants hids he).2 hkey, of_decide_eq_true hc⟩
    · cases hc

def InEffect (D : DriverTypes V) (s : Gateway V) (e : Entry V) : Prop :=
  if e.isEnabled then
    e.Valid D → Conflicts D (s.drivers D) e = false →
      s.sup.tasks.get? e.id = some (e.driverConfig D)
  else s.sup.tasks.get? e.id = none

instance (D : DriverTypes V) (s : Gateway V) (e : Entry V) : Decidable (InEffect D s e) :=
  inferInstanceAs (Decidable (if e.isEnabled then
      e.Valid D → Conflicts D (s.drivers D) e = false →
        s.sup.tasks.get? e.id = some (e.driverConfig D)
    else s.sup.tasks.get? e.id = none))

structure Converged (D : DriverTypes V) (s : Gateway V) : Prop where
  present : ∀ e ∈ s.drivers D, InEffect D s e
  absent : ∀ id, (∀ e ∈ s.drivers D, e.id ≠ id) → s.sup.tasks.get? id = none

/-! ## The invariant -/

/-- Driver ids are unique; REST enables only what is tracked; a pass finds in effect what
it finds unchanged, and can compare the serial entries. -/
def Orderly (D : DriverTypes V) (s : Gateway V) : GatewayEvent V → Prop
  | .edit file => (file.map Entry.id).Nodup
  | .enable id => (s.tracking.get? id).isSome = true
  | .disable _ => True
  | .pass =>
      Comparable D (s.drivers D) ∧
        ∀ e ∈ s.drivers D, s.tracking.get? e.id = some e → InEffect D s e

instance (D : DriverTypes V) (s : Gateway V) : (ev : GatewayEvent V) → Decidable (Orderly D s ev)
  | .edit file => inferInstanceAs (Decidable (file.map Entry.id).Nodup)
  | .enable id => inferInstanceAs (Decidable ((s.tracking.get? id).isSome = true))
  | .disable _ => isTrue trivial
  | .pass => inferInstanceAs (Decidable ((∀ e ∈ s.drivers D, (slaveKey D e).isOk = true) ∧
      ∀ e ∈ s.drivers D, s.tracking.get? e.id = some e → InEffect D s e))

structure Sane (s : Gateway V) : Prop where
  alive : s.alive = true
  ids : (s.file.map Entry.id).Nodup
  tracked : ∀ id, s.tracking.get? id = none → s.sup.tasks.get? id = none

variable {D : DriverTypes V} {s s' : Gateway V}

omit [DecidableEq V] in
theorem ids_resolve (file : List (Entry V)) :
    (file.map (Entry.resolve D)).map Entry.id = file.map Entry.id := by
  rw [List.map_map]
  rfl

omit [DecidableEq V] in
theorem Sane.ids_drivers (h : Sane s) (D : DriverTypes V) :
    ((s.drivers D).map Entry.id).Nodup := by
  rw [Gateway.drivers, ids_resolve]
  exact h.ids

omit [DecidableEq V] in
theorem ids_setEnabled (id : String) (enabled : Bool) (file : List (Entry V)) :
    (setEnabled id enabled file).map Entry.id = file.map Entry.id := by
  induction file with
  | nil => rfl
  | cons e rest ih =>
    rw [setEnabled]
    split
    · rfl
    · rw [List.map_cons, ih, List.map_cons]

theorem sane_startup {file : List (Entry V)} (hids : (file.map Entry.id).Nodup)
    (h : startup D file = .ok s) : Sane s := by
  obtain ⟨conflicting, -, h⟩ := bind_eq_ok.1 h
  obtain ⟨sup, hsup, h⟩ := bind_eq_ok.1 h
  cases h
  refine ⟨rfl, hids, fun id hid => ?_⟩
  rw [Option.eq_none_iff_forall_ne_some]
  intro cfg hcfg
  rcases startConfigured_tasks hsup hcfg with hold | ⟨e, he, hen, -, rfl, -⟩
  · cases hold
  · have hget : (enabledById (file.map (Entry.resolve D))).get? e.id = some e :=
      (get?_enabledById (by rw [ids_resolve]; exact hids)).2 ⟨⟨he, hen⟩, rfl⟩
    rw [hget] at hid
    cases hid

omit [DecidableEq V] in
theorem sane_enable {id : String} (h : Sane s) (hG : (s.tracking.get? id).isSome = true) :
    Sane (enableDriver D s id) := by
  have hids : ((setEnabled id true s.file).map Entry.id).Nodup := by
    rw [ids_setEnabled]
    exact h.ids
  rcases enableDriver_cases D s id with heq | heq | ⟨e, -, -, -, heq⟩
  · rw [heq]
    exact h
  · rw [heq]
    exact ⟨h.alive, hids, h.tracked⟩
  · rw [heq]
    refine ⟨h.alive, hids, fun j hj => ?_⟩
    have hne : j ≠ id := by
      rintro rfl
      rw [show s.tracking.get? j = none from hj] at hG
      cases hG
    exact (Dict.get?_set_of_ne _ _ hne).trans (h.tracked j hj)

omit [DecidableEq V] in
theorem sane_disable (id : String) (h : Sane s) : Sane (disableDriver s id) := by
  rw [disableDriver]
  split
  · exact h
  · refine ⟨h.alive, by rw [ids_setEnabled]; exact h.ids, fun j hj => ?_⟩
    have hstop := Supervisor.get?_stop s.sup id j
    rw [h.tracked j hj, ite_self] at hstop
    exact hstop

theorem converged_of_reconciled {tracking : Dict String (Entry V)} {sup : Supervisor V} (h : Sane s)
    (hconf : conflictingSerialInstanceIds D (s.drivers D) = .ok conflicting)
    (hG : ∀ e ∈ s.drivers D, s.tracking.get? e.id = some e → InEffect D s e)
    (hr : Reconciled D conflicting (s.drivers D) s.tracking tracking s.sup sup) :
    Converged D { s with sup, tracking } := by
  have hids := h.ids_drivers D
  constructor
  · intro e he
    have hbefore := hG e he
    rw [InEffect] at hbefore ⊢
    cases hen : e.isEnabled with
    | false =>
      rw [hen] at hbefore
      have htask := (hr.disabled e he hen).1
      by_cases hc : s.tracking.get? e.id = some e
      · rw [if_pos hc] at htask
        exact htask.trans (hbefore hc)
      · rw [if_neg hc] at htask
        exact htask
    | true =>
      rw [hen] at hbefore
      intro hvalid hnot
      have hfree : e.id ∉ conflicting := by
        rw [mem_conflicting_iff_conflicts hids hconf he]
        exact Bool.eq_false_iff.1 hnot
      have htask := congrArg Prod.fst (hr.enabled e he hen)
      rw [settled, verdict] at htask
      by_cases hc : s.tracking.get? e.id = some e
      · rw [if_pos hc] at htask
        exact htask.trans (hbefore hc hvalid hnot)
      · rw [if_neg hc, if_neg hfree, if_pos hvalid] at htask
        exact htask
  · intro id hid
    obtain ⟨htask, -⟩ := hr.absent id hid
    cases hc : s.tracking.get? id with
    | none =>
      rw [hc] at htask
      exact htask.trans (h.tracked id hc)
    | some e =>
      rw [hc] at htask
      exact htask

theorem tracked_of_reconciled {tracking : Dict String (Entry V)} {sup : Supervisor V} (h : Sane s)
    (hr : Reconciled D conflicting (s.drivers D) s.tracking tracking s.sup sup) (id : String)
    (hid : tracking.get? id = none) : sup.tasks.get? id = none := by
  by_cases hpresent : ∃ e ∈ s.drivers D, e.id = id
  · obtain ⟨e, he, rfl⟩ := hpresent
    cases hen : e.isEnabled with
    | false =>
      rw [(hr.disabled e he hen).2] at hid
      cases hid
    | true =>
      have hboth := hr.enabled e he hen
      rw [hid, settled] at hboth
      cases hv : verdict D conflicting s.tracking e.id e with
      | unchanged | start =>
        rw [hv] at hboth
        cases congrArg Prod.snd hboth
      | rejected =>
        rw [hv, Prod.mk.injEq] at hboth
        exact hboth.1.trans (h.tracked e.id hboth.2.symm)
  · obtain ⟨htask, -⟩ := hr.absent id fun e he heq => hpresent ⟨e, he, heq⟩
    rw [htask]
    split
    · rfl
    · next hnone => exact h.tracked id (Option.not_isSome_iff_eq_none.1 hnone)

theorem pass_converges (h : Sane s) (hG : Orderly D s .pass) :
    Sane (watchPass D s) ∧ Converged D (watchPass D s) := by
  obtain ⟨hcomp, heffect⟩ := hG
  have hids := h.ids_drivers D
  obtain ⟨conflicting, hconf⟩ := exists_ok_of_isOk (isOk_conflicting_iff.2 hcomp)
  obtain ⟨tracking, sup, happly, hr⟩ := applyDriverChanges_spec hids hconf
    (fun e _ _ _ hnone => h.tracked e.id hnone)
  have heq : watchPass D s = { s with sup, tracking } := by
    rw [watchPass, happly]
  rw [heq]
  exact ⟨⟨h.alive, h.ids, tracked_of_reconciled h hr⟩, converged_of_reconciled h hconf heffect hr⟩

theorem sane_step {ev : GatewayEvent V} (h : Sane s) (hG : Orderly D s ev)
    (hstep : (gatewayMachine D).step s ev = some s') : Sane s' := by
  cases ev with
  | edit file =>
    cases hstep
    exact ⟨h.alive, hG, h.tracked⟩
  | enable id =>
    cases hstep
    exact sane_enable h hG
  | disable id =>
    cases hstep
    exact sane_disable id h
  | pass =>
    cases (Option.ite_none_right_eq_some.1 hstep).2
    exact (pass_converges h hG).1

def loopback (id : String) (enabled : Option Bool) : Entry Lit :=
  ⟨id, "loopback", enabled, none, none, .map none none⟩

/-- A gateway with nothing but `a` in its file, which is switched off. -/
def allOff : Gateway Lit := ⟨[loopback "a" (some false)], .empty, .new, true⟩

def orderlyEdits : List (GatewayEvent Lit) :=
  [.edit [loopback "a" (some false), loopback "b" none], .pass,
    .edit [loopback "a" (some true), loopback "b" none], .pass,
    .disable "b", .pass, .enable "b"]

end XEdge.Core
