import XEdge.Lib.CBuffer
import XEdge.Lib.Decimal

/-!
# The lines the MS/TP daemon writes (`xedge/drivers/bacnet/mstp_daemon/main.c`)

The daemon writes its JSON by hand, into arrays of fixed size on the stack.  What is in them before
they are written is unknown: `garbage` stands for it.
-/

namespace XEdge.Bacnet.Mstp

open Lib Lib.Decimal

def ascii (text : Json.Text) : List UInt8 := text.map fun c => UInt8.ofNat c.toNat

/-! ## `json_escape_into` -/

def escapeLetter (c : UInt8) : Option UInt8 :=
  if c = 34 then some 34            -- a quote
  else if c = 92 then some 92       -- a backslash
  else if c = 10 then some 110      -- a newline
  else if c = 13 then some 114      -- a carriage return
  else if c = 9 then some 116       -- a tab
  else none

/-- The loop of `json_escape_into`, from an index into the array on. -/
def escapeLoop {n : Nat} (dst : Buffer n) (di : Nat) : List UInt8 → Option (Buffer n × Nat)
  | [] => some (dst, di)
  | c :: src =>
      if c = 0 then some (dst, di)
      else if n ≤ di + 2 then some (dst, di)
      else
        match escapeLetter c with
        | some e => (dst.write di [92, e]).bind fun dst => escapeLoop dst (di + 2) src
        | none =>
            if 0x20 ≤ c then (dst.write di [c]).bind fun dst => escapeLoop dst (di + 1) src
            else escapeLoop dst di src

/-- `json_escape_into`: the text is that of a C string, which ends at a zero. -/
def jsonEscapeInto {n : Nat} (dst : Buffer n) (src : List UInt8) : Option (Buffer n) :=
  (escapeLoop dst 0 src).bind fun x => x.1.write x.2 [0]

def escapeUnit (c : UInt8) : List UInt8 :=
  match escapeLetter c with
  | some e => [92, e]
  | none => if 0x20 ≤ c then [c] else []

/-- The text that is written into an array of size `n`, from an index on. -/
def escapeFrom (n di : Nat) : List UInt8 → List UInt8
  | [] => []
  | c :: src =>
      if c = 0 then []
      else if n ≤ di + 2 then []
      else escapeUnit c ++ escapeFrom n (di + (escapeUnit c).length) src

variable {n di : Nat} {c : UInt8}

theorem escapeLoop_step {dst : Buffer n} (hc : c ≠ 0) (hroom : di + 2 < n) (src : List UInt8) :
    escapeLoop dst di (c :: src) =
      (dst.write di (escapeUnit c)).bind fun dst =>
        escapeLoop dst (di + (escapeUnit c).length) src := by
  rw [escapeLoop, if_neg hc, if_neg (by omega), escapeUnit]
  split
  · rfl
  · split
    · rfl
    · -- a control character: nothing is stored
      rw [dst.write_nil (by omega)]
      rfl

theorem length_escapeUnit_le (c : UInt8) : (escapeUnit c).length ≤ 2 := by
  unfold escapeUnit
  split
  · exact le_rfl
  · split
    · exact Nat.le_succ 1
    · exact Nat.zero_le 2

variable {b : UInt8}

theorem le_of_mem_escapeUnit (h : b ∈ escapeUnit c) : 0x20 ≤ b := by
  unfold escapeUnit at h
  split at h
  · next e he =>
    rcases List.mem_cons.1 h with rfl | h
    · decide
    · rw [List.mem_singleton.1 h]
      unfold escapeLetter at he
      repeat' split at he
      all_goals first | (cases he; decide) | cases he
  · split at h
    · next hc => rwa [List.mem_singleton.1 h]
    · cases h

theorem le_of_mem_escapeFrom {src : List UInt8} (h : b ∈ escapeFrom n di src) : 0x20 ≤ b := by
  induction src generalizing di with
  | nil => cases h
  | cons c src ih =>
    rw [escapeFrom] at h
    split at h
    · cases h
    · split at h
      · cases h
      · rcases List.mem_append.1 h with h | h
        · exact le_of_mem_escapeUnit h
        · exact ih h

/-- What the loop does: it appends to what the array begins with, and leaves room for the zero. -/
def Appends {n : Nat} (done more : List UInt8) (x : Option (Buffer n × Nat)) : Prop :=
  ∃ dst, x = some (dst, (done ++ more).length) ∧ dst.Begins (done ++ more) ∧
    (done ++ more).length < n

variable {done : List UInt8}

theorem appends_nil {dst : Buffer n} (hbegins : dst.Begins done)
    (hroom : done.length < n) : Appends done [] (some (dst, done.length)) := by
  rw [Appends, List.append_nil]
  exact ⟨dst, rfl, hbegins, hroom⟩

/-- **The loop** stays in the array, leaves room for the zero, and appends the escaped text. -/
theorem escapeLoop_spec {dst : Buffer n} (src : List UInt8)
    (hbegins : dst.Begins done) (hroom : done.length < n) :
    Appends done (escapeFrom n done.length src) (escapeLoop dst done.length src) := by
  induction src generalizing dst done with
  | nil => exact appends_nil hbegins hroom
  | cons c src ih =>
    rw [escapeFrom]
    by_cases hc : c = 0
    · rw [escapeLoop, if_pos hc, if_pos hc]
      exact appends_nil hbegins hroom
    · rw [if_neg hc]
      by_cases hfull : n ≤ done.length + 2
      · rw [escapeLoop, if_neg hc, if_pos hfull, if_pos hfull]
        exact appends_nil hbegins hroom
      · have hlength := length_escapeUnit_le c
        obtain ⟨dst', hwrite, hbegins', -⟩ := hbegins.write (escapeUnit c) (by omega)
        have hroom' : (done ++ escapeUnit c).length < n := by
          rw [List.length_append]
          omega
        have hrest := ih hbegins' hroom'
        rw [if_neg hfull, escapeLoop_step hc (by omega), hwrite, Option.bind_some]
        rwa [List.length_append, Appends, List.append_assoc] at hrest

/-- **`json_escape_into`** stays in its array, and leaves a terminated string. -/
theorem jsonEscapeInto_spec (dst : Buffer n) (hn : 0 < n) (src : List UInt8) :
    ∃ dst', jsonEscapeInto dst src = some dst' ∧ dst'.cString = some (escapeFrom n 0 src) ∧
      (escapeFrom n 0 src).length < n := by
  have hnil : dst.Begins [] := List.nil_prefix
  obtain ⟨b, hloop, hbegins, hroom⟩ := escapeLoop_spec src hnil hn
  rw [List.nil_append, List.length_nil] at hloop hbegins hroom
  obtain ⟨b', hwrite, hbegins', -⟩ := hbegins.write [0] hroom
  refine ⟨b', ?_, ?_, hroom⟩
  · rw [jsonEscapeInto, hloop, Option.bind_some, hwrite]
  · rw [hbegins'.cString, List.takeWhile_eq_self_iff.2]
    intro c hc
    have hle := le_of_mem_escapeFrom hc
    simp only [ne_eq, decide_not, Bool.not_eq_eq_eq_not, Bool.not_true, decide_eq_false_iff_not]
    rintro rfl
    exact absurd hle (by decide)

/-! ## Values -/

/-- A `double`.  A `float` is converted to one without loss. -/
inductive CDouble where
  | nan
  | infinity (negative : Bool)
  | zero (negative : Bool)
  | finite (x : {x : ℚ // x ≠ 0 ∧ Binary64.ofRat x = .finite x})
  deriving DecidableEq

/-- `BACNET_APPLICATION_DATA_VALUE`: a value that was read. -/
inductive AppValue where
  | boolean (b : Bool)
  | unsignedInt (n : UInt64)
  | signedInt (i : Int32)
  /-- The tags `REAL` and `DOUBLE`. -/
  | real (x : CDouble)
  | enumerated (n : UInt32)
  /-- The bytes of the string; whoever reads them as a C string stops at a zero. -/
  | characterString (text : List UInt8)
  | other
  deriving DecidableEq

/-- What `snprintf` leaves in an array of a given size, up to the zero. -/
def snprintf {α : Type} (size : Nat) (text : List α) : List α := text.take (size - 1)

/-- `%.17g`, of what is neither NaN nor an infinity. -/
def print17g : CDouble → Option Json.Text
  | .nan | .infinity _ => none
  | .zero negative => some (if negative then "-0".toList else "0".toList)
  | .finite x => some (printG 17 x.1)

/-- A character that makes a number text that of a float: `strpbrk(numbuf, ".eE")`. -/
def marksFloat (c : Char) : Bool := c = '.' || c = 'e' || c = 'E'

/-- `numbuf`: the text of a number, which is made that of a float. -/
def numbuf (text : Json.Text) : Json.Text :=
  let numbuf := snprintf 64 text
  if numbuf.any marksFloat then numbuf
  else if numbuf.length + 3 ≤ 64 then numbuf ++ ".0".toList
  else numbuf

def realText (x : CDouble) : Json.Text := (print17g x).elim "null".toList numbuf

section Lines

variable (garbage : (n : Nat) → Buffer n)

def okLine (value : List UInt8) : List UInt8 :=
  snprintf 512 (ascii "\x7b\"ok\":true,\"value\":".toList ++ value ++ ascii "\x7d".toList)

/-- `ipc_send_error`, without the newline that `ipc_send_line` appends. -/
def errorLine (reason : List UInt8) : Option (List UInt8) := do
  let escaped ← jsonEscapeInto (garbage 192) reason
  let text ← escaped.cString
  some (snprintf 256
    (ascii "\x7b\"ok\":false,\"error\":\"".toList ++ text ++ ascii "\"\x7d".toList))

/-- `ipc_send_value`, without the newline that `ipc_send_line` appends. -/
def valueLine : AppValue → Option (List UInt8)
  | .boolean b => some (okLine (ascii (if b then "true".toList else "false".toList)))
  | .unsignedInt n => some (okLine (ascii (Json.intText n.toNat)))
  | .signedInt i => some (okLine (ascii (Json.intText i.toInt)))
  | .real x => some (okLine (ascii (realText x)))
  | .enumerated n => some (okLine (ascii (Json.intText n.toNat)))
  | .characterString s => do
      let escaped ← jsonEscapeInto (garbage 400) s
      let text ← escaped.cString
      some (okLine (34 :: text ++ [34]))
  | .other => errorLine garbage (ascii "unsupported value type".toList)

/-! ### Every line is written, and is one line -/

def OneLine (line : List UInt8) : Prop := ∀ b ∈ line, 0x20 ≤ b

variable {s : List UInt8}

theorem OneLine.append {t : List UInt8} (hs : OneLine s) (ht : OneLine t) : OneLine (s ++ t) := by
  intro b hb
  rcases List.mem_append.1 hb with h | h
  · exact hs b h
  · exact ht b h

theorem OneLine.snprintf (h : OneLine s) (size : Nat) :
    OneLine (snprintf size s) :=
  fun b hb => h b (List.mem_of_mem_take hb)

variable {text : Json.Text}

theorem oneLine_ascii (h : ∀ c ∈ text, Printable c) : OneLine (ascii text) := by
  intro b hb
  obtain ⟨c, hc, rfl⟩ := List.mem_map.1 hb
  obtain ⟨hlow, hhigh⟩ := h c hc
  show 32 ≤ c.toNat % 2 ^ 8
  omega

theorem oneLine_literal (h : text.all (fun c => decide (Printable c)) = true) :
    OneLine (ascii text) :=
  oneLine_ascii (printable_of_all h)

theorem OneLine.okLine {value : List UInt8} (h : OneLine value) : OneLine (okLine value) :=
  (((oneLine_literal (by decide)).append h).append (oneLine_literal (by decide))).snprintf 512

theorem printable_numbuf (h : ∀ c ∈ text, Printable c) :
    ∀ c ∈ numbuf text, Printable c := by
  have hcut : ∀ c ∈ snprintf 64 text, Printable c := fun c hc => h c (List.mem_of_mem_take hc)
  intro c hc
  rw [numbuf] at hc
  split at hc
  · exact hcut c hc
  · split at hc
    · rcases List.mem_append.1 hc with hc | hc
      · exact hcut c hc
      · exact printable_of_all (t := ".0".toList) (by decide) c hc
    · exact hcut c hc

theorem printable_realText (x : CDouble) : ∀ c ∈ realText x, Printable c := by
  cases x with
  | nan | infinity negative => exact printable_of_all (t := "null".toList) (by decide)
  | zero negative =>
    refine printable_numbuf ?_
    cases negative
    · exact printable_of_all (t := "0".toList) (by decide)
    · exact printable_of_all (t := "-0".toList) (by decide)
  | finite x => exact printable_numbuf (Numeral.printable_signed _ _)

theorem errorLine_eq (reason : List UInt8) :
    errorLine garbage reason =
      some (snprintf 256 (ascii "\x7b\"ok\":false,\"error\":\"".toList ++ escapeFrom 192 0 reason ++
        ascii "\"\x7d".toList)) := by
  obtain ⟨b, hescape, hstring, -⟩ := jsonEscapeInto_spec (garbage 192) (by norm_num) reason
  rw [errorLine, hescape]
  show (b.cString.bind fun text => _) = _
  rw [hstring, Option.bind_some]

theorem errorLine_spec (reason : List UInt8) :
    ∃ line, errorLine garbage reason = some line ∧ OneLine line := by
  refine ⟨_, errorLine_eq garbage reason, OneLine.snprintf ?_ 256⟩
  have hescaped : OneLine (escapeFrom 192 0 reason) := fun c hc => le_of_mem_escapeFrom hc
  exact ((oneLine_literal (by decide)).append hescaped).append (oneLine_literal (by decide))

theorem valueLine_characterString (s : List UInt8) :
    valueLine garbage (.characterString s) = some (okLine (34 :: escapeFrom 400 0 s ++ [34])) := by
  obtain ⟨b, hescape, hstring, -⟩ := jsonEscapeInto_spec (garbage 400) (by norm_num) s
  rw [valueLine, hescape]
  show (b.cString.bind fun text => _) = _
  rw [hstring, Option.bind_some]

theorem valueLine_spec (value : AppValue) :
    ∃ line, valueLine garbage value = some line ∧ OneLine line := by
  cases value with
  | boolean b =>
    refine ⟨_, rfl, (oneLine_literal ?_).okLine⟩
    cases b <;> decide
  | unsignedInt | signedInt | enumerated =>
    exact ⟨_, rfl, (oneLine_ascii (printable_intText _)).okLine⟩
  | real x => exact ⟨_, rfl, (oneLine_ascii (printable_realText x)).okLine⟩
  | characterString s =>
    refine ⟨_, valueLine_characterString garbage s, OneLine.okLine ?_⟩
    have hquote : OneLine [34] := by
      intro b hb
      rw [List.mem_singleton.1 hb]
      decide
    exact (hquote.append fun c hc => le_of_mem_escapeFrom hc).append hquote
  | other => exact errorLine_spec garbage _

end Lines

end XEdge.Bacnet.Mstp
