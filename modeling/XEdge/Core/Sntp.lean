import XEdge.Lib.BigEndian
import XEdge.Lib.Floats

/-!
# SNTP (`xedge/core/sntp.py`)

One exchange with a time server, and the loop that asks the servers in turn.  Times are
rationals, in seconds of Unix time.
-/

namespace XEdge.Core.Sntp

open Lib

/-- Python `bytes`. -/
abbrev Bytes := List UInt8

def NTP_UNIX_EPOCH_DELTA : Int := 2208988800

def NTP_PACKET_LENGTH : Nat := 48

def CLIENT_REQUEST_FIRST_BYTE : UInt8 := 0b00100011

inductive SntpError where
  /-- `OSError` or `TimeoutError`, with its text. -/
  | network (text : String)
  /-- `SntpProtocolError`. -/
  | protocol (text : String)
  /-- `struct.error`. -/
  | structError
  deriving DecidableEq, Repr

/-- `struct.pack(">II", …)`. -/
def packII (a b : Int) : Except SntpError Bytes :=
  if (0 ≤ a ∧ a < 2 ^ 32) ∧ 0 ≤ b ∧ b < 2 ^ 32 then
    .ok (BigEndian.toBytes 4 a.toNat ++ BigEndian.toBytes 4 b.toNat)
  else .error .structError

def toNtpTimestamp (unixTime : ℚ) : Except SntpError Bytes :=
  let ntpTime := unixTime + NTP_UNIX_EPOCH_DELTA
  let seconds := truncate ntpTime
  let fraction := truncate ((ntpTime - seconds) * 2 ^ 32)
  packII seconds fraction

/-- `_from_ntp_timestamp`, of eight bytes. -/
def fromNtpTimestamp (data : Bytes) : ℚ :=
  ((BigEndian.ofBytes (data.take 4) : Int) - NTP_UNIX_EPOCH_DELTA : Int) +
    (BigEndian.ofBytes (data.drop 4) : ℚ) / 2 ^ 32

/-! ## A query -/

/-- `SntpQueryResult`. -/
structure QueryResult where
  offsetSeconds : ℚ
  roundTripDelaySeconds : ℚ
  stratum : UInt8
  receivedAt : ℚ
  deriving DecidableEq, Repr

inductive Reply where
  /-- An `OSError`, or nothing within the timeout. -/
  | failed (text : String)
  | datagram (data : Bytes) (t4 : ℚ)

/-- `query_sntp`; `now` is the time at which the request is made. -/
def querySntp (now : ℚ) (network : Bytes → Reply) : Except SntpError QueryResult :=
  match toNtpTimestamp now with
  | .error e => .error e
  | .ok stamp =>
      match network (CLIENT_REQUEST_FIRST_BYTE :: List.replicate 39 0 ++ stamp) with
      | .failed text => .error (.network text)
      | .datagram data t4 =>
          if data.length < NTP_PACKET_LENGTH then
            .error (.protocol ("response too short (" ++ toString data.length ++ " bytes)"))
          else if data.getD 1 0 = 0 then
            .error (.protocol "server sent a Kiss-o'-Death (stratum 0) response")
          else
            let t1 := fromNtpTimestamp ((data.drop 24).take 8)
            let t2 := fromNtpTimestamp ((data.drop 32).take 8)
            let t3 := fromNtpTimestamp ((data.drop 40).take 8)
            .ok ⟨((t2 - t1) + (t3 - t4)) / 2, max 0 ((t4 - t1) - (t3 - t2)), data.getD 1 0, t4⟩

/-! ## The loop -/

/-- `SntpSyncStatus`, what the loop changes. -/
structure SyncStatus where
  lastSyncAt : Option ℚ
  lastSyncServer : Option String
  offsetSeconds : Option ℚ
  roundTripDelaySeconds : Option ℚ
  consecutiveFailures : Nat
  lastError : Option String
  deriving DecidableEq, Repr

structure Attempt where
  server : String
  now : ℚ
  network : Bytes → Reply

/-- One cycle of `sntp_sync_loop`; an `error` is an exception that ends the loop. -/
def syncCycle (status : SyncStatus) : List Attempt → Option String → Except SntpError SyncStatus
  | [], lastError =>
      .ok { status with consecutiveFailures := status.consecutiveFailures + 1, lastError }
  | a :: rest, _ =>
      match querySntp a.now a.network with
      | .ok r => .ok ⟨some r.receivedAt, some a.server, some r.offsetSeconds,
          some r.roundTripDelaySeconds, 0, none⟩
      | .error (.network text) => syncCycle status rest (some (a.server ++ ": " ++ text))
      | .error (.protocol text) => syncCycle status rest (some (a.server ++ ": " ++ text))
      | .error .structError => .error .structError

/-- `sntp_sync_loop`, cycle after cycle. -/
def syncLoop (status : SyncStatus) (cycles : List (List Attempt)) : Except SntpError SyncStatus :=
  cycles.foldlM (fun status attempts => syncCycle status attempts none) status

/-! ## Timestamps -/

/-- The first time after the first NTP era: 2036-02-07, 06:28:16 UTC. -/
def eraEnd : ℚ := 2085978496

variable {t : ℚ}

theorem truncate_of_nonneg (h : 0 ≤ t) : truncate t = ⌊t⌋ := if_pos h

/-- **Within the era a timestamp is exact to the resolution of its fraction.** -/
theorem toNtpTimestamp_of_lt (h0 : 0 ≤ t) (h : t < eraEnd) :
    ∃ stamp, toNtpTimestamp t = .ok stamp ∧ stamp.length = 8 ∧
      fromNtpTimestamp stamp ≤ t ∧ t < fromNtpTimestamp stamp + 1 / 2 ^ 32 := by
  set x : ℚ := t + NTP_UNIX_EPOCH_DELTA with hx
  have hx0 : 0 ≤ x := by
    have : (0 : ℚ) ≤ (NTP_UNIX_EPOCH_DELTA : ℚ) := by norm_num [NTP_UNIX_EPOCH_DELTA]
    linarith
  have hfract1 := Int.fract_lt_one x
  have hseconds : 0 ≤ ⌊x⌋ ∧ ⌊x⌋ < 2 ^ 32 := by
    refine ⟨Int.floor_nonneg.2 hx0, Int.floor_lt.2 ?_⟩
    rw [hx, NTP_UNIX_EPOCH_DELTA]
    rw [eraEnd] at h
    push_cast
    linarith
  have hscaled : 0 ≤ Int.fract x * 2 ^ 32 := by positivity
  have hfraction : 0 ≤ ⌊Int.fract x * 2 ^ 32⌋ ∧ ⌊Int.fract x * 2 ^ 32⌋ < 2 ^ 32 := by
    refine ⟨Int.floor_nonneg.2 hscaled, Int.floor_lt.2 ?_⟩
    push_cast
    linarith
  have hpack : toNtpTimestamp t = packII ⌊x⌋ ⌊Int.fract x * 2 ^ 32⌋ := by
    rw [toNtpTimestamp, ← hx]
    simp only [truncate_of_nonneg hx0, Int.self_sub_floor, truncate_of_nonneg hscaled]
  obtain ⟨a, ha⟩ := Int.eq_ofNat_of_zero_le hseconds.1
  obtain ⟨b, hb⟩ := Int.eq_ofNat_of_zero_le hfraction.1
  have hsplit : x = a + Int.fract x := by
    have := Int.floor_add_fract x
    rw [ha] at this
    exact_mod_cast this.symm
  have hlow : (b : ℚ) ≤ Int.fract x * 2 ^ 32 := by
    have := Int.floor_le (Int.fract x * 2 ^ 32)
    rw [hb] at this
    exact_mod_cast this
  have hhigh : Int.fract x * 2 ^ 32 < b + 1 := by
    have := Int.lt_floor_add_one (Int.fract x * 2 ^ 32)
    rw [hb] at this
    exact_mod_cast this
  rw [ha] at hseconds hpack
  rw [hb] at hfraction hpack
  refine ⟨BigEndian.toBytes 4 a ++ BigEndian.toBytes 4 b, ?_, by simp, ?_⟩
  · rw [hpack]
    exact if_pos ⟨hseconds, hfraction⟩
  · have hvalue : fromNtpTimestamp (BigEndian.toBytes 4 a ++ BigEndian.toBytes 4 b) =
        a - NTP_UNIX_EPOCH_DELTA + b / 2 ^ 32 := by
      rw [fromNtpTimestamp, List.take_left' (BigEndian.length_toBytes 4 a),
        List.drop_left' (BigEndian.length_toBytes 4 a), BigEndian.ofBytes_toBytes (by omega),
        BigEndian.ofBytes_toBytes (by omega)]
      push_cast
      ring
    constructor <;> linarith

theorem toNtpTimestamp_of_le (h : eraEnd ≤ t) : toNtpTimestamp t = .error .structError := by
  have hx : (2 : ℚ) ^ 32 ≤ t + NTP_UNIX_EPOCH_DELTA := by
    rw [NTP_UNIX_EPOCH_DELTA]
    rw [eraEnd] at h
    push_cast
    linarith
  have hseconds : (2 : Int) ^ 32 ≤ ⌊t + NTP_UNIX_EPOCH_DELTA⌋ := by
    refine Int.le_floor.2 ?_
    exact hx
  rw [toNtpTimestamp, packII, truncate_of_nonneg (le_trans (by positivity) hx)]
  refine if_neg ?_
  omega

/-! ## What works -/

/-- **At a time `t`**: the timestamp is exact, the loop has not been ended by a clock that shows
times up to `t`, and with a server that answers, the offset is the one of the four times. -/
structure Works (t : ℚ) : Prop where
  roundTrip : ∃ stamp, toNtpTimestamp t = .ok stamp ∧ |fromNtpTimestamp stamp - t| < 1 / 2 ^ 32
  running : ∀ status cycles, (∀ attempts ∈ cycles, ∀ a ∈ attempts, 0 ≤ a.now ∧ a.now ≤ t) →
    ∃ status', syncLoop status cycles = .ok status'
  /-- The server puts the request's stamp and those of its own times `u` and `v` in the packet. -/
  offset : ∀ (u v t4 : ℚ) (receive transmit head rest : Bytes), 0 ≤ u → 0 ≤ v →
    toNtpTimestamp u = .ok receive → toNtpTimestamp v = .ok transmit → head.length = 24 →
    head.getD 1 0 ≠ 0 →
    ∃ r, querySntp t (fun request =>
        .datagram (head ++ request.drop 40 ++ receive ++ transmit ++ rest) t4) = .ok r ∧
      |r.offsetSeconds - ((u - t) + (v - t4)) / 2| < 2 / 2 ^ 32

theorem lt_eraEnd_of_ok {stamp : Bytes} (h : toNtpTimestamp t = .ok stamp) : t < eraEnd := by
  by_contra hge
  rw [toNtpTimestamp_of_le (not_lt.1 hge)] at h
  cases h

theorem querySntp_ne_structError {now : ℚ} {network : Bytes → Reply} (h0 : 0 ≤ now)
    (h : now < eraEnd) : querySntp now network ≠ .error .structError := by
  obtain ⟨stamp, hstamp, -⟩ := toNtpTimestamp_of_lt h0 h
  simp only [querySntp, hstamp]
  split
  · simp
  · split
    · simp
    · split <;> simp

theorem syncCycle_ok {status : SyncStatus} {attempts : List Attempt} {lastError : Option String}
    (h : ∀ a ∈ attempts, 0 ≤ a.now ∧ a.now < eraEnd) :
    ∃ status', syncCycle status attempts lastError = .ok status' := by
  induction attempts generalizing lastError with
  | nil => exact ⟨_, rfl⟩
  | cons a rest ih =>
    have ha := h a List.mem_cons_self
    have hrest := fun b hb => h b (List.mem_cons_of_mem _ hb)
    cases hq : querySntp a.now a.network with
    | ok r => exact ⟨_, by simp only [syncCycle, hq]; rfl⟩
    | error e =>
      cases e with
      | network | protocol => simpa only [syncCycle, hq] using ih hrest
      | structError => exact absurd hq (querySntp_ne_structError ha.1 ha.2)

theorem syncLoop_ok {status : SyncStatus} {cycles : List (List Attempt)}
    (h : ∀ attempts ∈ cycles, ∀ a ∈ attempts, 0 ≤ a.now ∧ a.now < eraEnd) :
    ∃ status', syncLoop status cycles = .ok status' := by
  induction cycles generalizing status with
  | nil => exact ⟨status, rfl⟩
  | cons attempts cycles ih =>
    obtain ⟨status₁, hcycle⟩ : ∃ status', syncCycle status attempts none = .ok status' :=
      syncCycle_ok (h attempts List.mem_cons_self)
    obtain ⟨status', hloop⟩ : ∃ status', syncLoop status₁ cycles = .ok status' :=
      ih fun attempts' hmem => h attempts' (List.mem_cons_of_mem _ hmem)
    refine ⟨status', ?_⟩
    rw [syncLoop, List.foldlM_cons, hcycle]
    exact hloop

theorem querySntp_packet {now t4 : ℚ} {stamp receive transmit head rest : Bytes}
    (hstamp : toNtpTimestamp now = .ok stamp) (h1 : stamp.length = 8) (h2 : receive.length = 8)
    (h3 : transmit.length = 8) (hhead : head.length = 24) (hstratum : head.getD 1 0 ≠ 0) :
    ∃ r, querySntp now (fun request =>
        .datagram (head ++ request.drop 40 ++ receive ++ transmit ++ rest) t4) = .ok r ∧
      r.offsetSeconds = ((fromNtpTimestamp receive - fromNtpTimestamp stamp) +
        (fromNtpTimestamp transmit - t4)) / 2 := by
  have hrequest : (CLIENT_REQUEST_FIRST_BYTE :: List.replicate 39 0 ++ stamp).drop 40 = stamp := by
    simp
  set data := head ++ stamp ++ receive ++ transmit ++ rest with hdata
  have hlength : ¬ data.length < NTP_PACKET_LENGTH := by
    simp [hdata, NTP_PACKET_LENGTH, hhead, h1, h2, h3]
    omega
  have hbyte : data.getD 1 0 = head.getD 1 0 := by
    simp [hdata, List.getD_eq_getElem?_getD, List.getElem?_append_left, hhead]
  have hfield1 : (data.drop 24).take 8 = stamp := by
    simp [hdata, List.append_assoc, List.drop_left' hhead, List.take_left' h1]
  have hfield2 : (data.drop 32).take 8 = receive := by
    rw [hdata, List.append_assoc, List.append_assoc, List.drop_left' (by simp [hhead, h1]),
      List.take_left' h2]
  have hfield3 : (data.drop 40).take 8 = transmit := by
    rw [hdata, List.append_assoc, List.drop_left' (by simp [hhead, h1, h2]), List.take_left' h3]
  refine ⟨⟨_, max 0 ((t4 - fromNtpTimestamp stamp) -
    (fromNtpTimestamp transmit - fromNtpTimestamp receive)), head.getD 1 0, t4⟩, ?_, rfl⟩
  simp only [querySntp, hstamp, hrequest, ← hdata, hlength, if_false, hbyte, hstratum, hfield1,
    hfield2, hfield3]

end XEdge.Core.Sntp
