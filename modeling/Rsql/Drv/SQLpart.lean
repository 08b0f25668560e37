import Rsql.Drv.Strings
import Rsql.Rsqlib.Session

/-! SQL text templates of package drv: NewSQLpart, the Bind methods and Text.
unicode.ToLower is the parameter `uc`, Go's float and time printing the
parameter `Printers`. -/
namespace Rsql.Drv

open Msgp (Float64)
open Rsqlib (ascii GoTime SECONDS_PER_DAY)

/-! ### NewSQLpart -/

inductive State where
  | StateText
  | StatePlaceholder
  deriving DecidableEq, Repr

/-- A Go map from placeholder names to slot positions, as its entries in the
order the names were added. -/
abbrev PlaceholderMap := List (Bytes × List Nat)

/-- placeholderMap[name], with ok. -/
def PlaceholderMap.lookup : PlaceholderMap → Bytes → Option (List Nat)
  | [], _ => none
  | (k', targets) :: m, k => if k' = k then some targets else PlaceholderMap.lookup m k

/-- placeholderMap[name] = append(placeholderMap[name], pos). -/
def PlaceholderMap.push : PlaceholderMap → Bytes → Nat → PlaceholderMap
  | [], k, pos => [(k, [pos])]
  | (k', targets) :: m, k, pos =>
    if k' = k then (k', targets ++ [pos]) :: m else (k', targets) :: PlaceholderMap.push m k pos

/-- NewSQLpart's loop variables. `piece` is text[textFragmentStart:i] in
StateText and text[placeholderStart:i] in StatePlaceholder. -/
structure Scanner where
  state : State
  lineNo : Nat
  piece : Bytes
  textFragments : List (Option Bytes)
  placeholderMap : PlaceholderMap
  deriving DecidableEq, Repr

/-- Before the loop: StateText at line 1, nil fragments and map. -/
def Scanner.start : Scanner := ⟨.StateText, 1, [], [], []⟩

/-- The fragments with the text fragment read so far, unless it is empty. -/
def Scanner.fragments_with_piece (sc : Scanner) : List (Option Bytes) :=
  if sc.piece = [] then sc.textFragments else sc.textFragments ++ [some sc.piece]

/-- The opening delimiter in StateText. -/
def Scanner.open_placeholder (sc : Scanner) : Scanner :=
  { sc with state := .StatePlaceholder, piece := [], textFragments := sc.fragments_with_piece }

/-- The terminating delimiter in StatePlaceholder: a nil slot, and its
position under the placeholder's name. -/
def Scanner.close_placeholder (sc : Scanner) (placeholderName : Bytes) : Scanner :=
  { sc with
    state := .StateText
    piece := []
    textFragments := sc.textFragments ++ [none]
    placeholderMap := sc.placeholderMap.push placeholderName sc.textFragments.length }

/-- Any other byte joins the piece; a newline counts a line. -/
def Scanner.next_byte (sc : Scanner) (b : UInt8) : Scanner :=
  { sc with lineNo := if b = 0x0A then sc.lineNo + 1 else sc.lineNo, piece := sc.piece ++ [b] }

def line_suffix (lineNo : Nat) : String := " (line " ++ toString lineNo ++ ")."

/-- The delimiters the loop runs with: NewSQLpart has checked them. -/
structure Delims where
  delimLeft : Bytes
  delimRight : Bytes
  left_ne_nil : delimLeft ≠ []
  right_ne_nil : delimRight ≠ []
  left_ne_right : delimLeft ≠ delimRight

theorem length_drop_delim {delim : Bytes} (hd : delim ≠ []) (b : UInt8) (bs : Bytes) :
    ((b :: bs).drop delim.length).length < bs.length + 1 := by
  have := List.length_pos.2 hd
  rw [List.length_drop, List.length_cons]
  omega

/-- NewSQLpart's loop over the text not read yet; `.error msg` is the panic
with message `msg`. -/
def scan (uc : Casing) (d : Delims) (sc : Scanner) : Bytes → Except String Scanner
  | [] => .ok sc
  | b :: bs =>
    if d.delimLeft <+: b :: bs then
      if sc.state ≠ .StateText then
        .error ("SQLpart: invalid opening delimiter for placeholder" ++ line_suffix sc.lineNo)
      else scan uc d sc.open_placeholder ((b :: bs).drop d.delimLeft.length)
    else if d.delimRight <+: b :: bs then
      if sc.state ≠ .StatePlaceholder then
        .error ("SQLpart: invalid terminating delimiter for placeholder" ++ line_suffix sc.lineNo)
      else if TrimSpace (ToLower uc sc.piece) = [] then
        .error ("SQLpart: placeholder name cannot be empty" ++ line_suffix sc.lineNo)
      else scan uc d (sc.close_placeholder (TrimSpace (ToLower uc sc.piece))) ((b :: bs).drop d.delimRight.length)
    else if b = 0x0A ∧ sc.state = .StatePlaceholder then
      .error ("SQLpart: placeholder closing delimiter not found" ++ line_suffix sc.lineNo)
    else scan uc d (sc.next_byte b) bs
termination_by rest => rest.length
decreasing_by
  · exact length_drop_delim d.left_ne_nil _ _
  · exact length_drop_delim d.right_ne_nil _ _
  · simp only [List.length_cons]; omega

/-- A SQLpart. Its original text is kept by Go but read by no method. -/
structure SQLpart where
  textFragments : List (Option Bytes)
  placeholderMap : PlaceholderMap
  err : Option Error
  deriving DecidableEq, Repr

/-- NewSQLpart once the delimiters are chosen: their checks, the loop, and
the fragment after the last placeholder. -/
def new_sqlpart (uc : Casing) (text delimLeft delimRight : Bytes) : Except String SQLpart :=
  if hl : delimLeft = [] then .error "SQLpart: opening delimiter for placeholder cannot be empty string."
  else if hr : delimRight = [] then .error "SQLpart: terminating delimiter for placeholder cannot be empty string."
  else if hlr : delimLeft = delimRight then
    .error "SQLpart: opening and terminating delimiters for placeholder must be different."
  else
    match scan uc ⟨delimLeft, delimRight, hl, hr, hlr⟩ .start text with
    | .error msg => .error msg
    | .ok sc =>
      if sc.state ≠ .StateText then
        .error ("SQLpart: terminating delimiter expected for placeholder" ++ line_suffix sc.lineNo)
      else .ok ⟨sc.fragments_with_piece, sc.placeholderMap, none⟩

/-- NewSQLpart(text, placeholderDelimiters...): no delimiter argument gives
{{ and }}, two give the opening and terminating delimiters. -/
def NewSQLpart (uc : Casing) (text : Bytes) (placeholderDelimiters : List Bytes) : Except String SQLpart :=
  match placeholderDelimiters with
  | [] => new_sqlpart uc text [0x7B, 0x7B] [0x7D, 0x7D]
  | [delimLeft, delimRight] => new_sqlpart uc text delimLeft delimRight
  | _ => .error "SQLpart: opening and terminating delimiters must be provided."

/-! ### Bind methods -/

/-- setParam: every slot of the lowercased name gets `val`; an unknown name
is an error. -/
def setParam (uc : Casing) (part : SQLpart) (param val : Bytes) : SQLpart :=
  if part.err.isSome then part
  else
    let param := ToLower uc param
    match part.placeholderMap.lookup param with
    | none => { part with err := some (.param_not_known param) }
    | some targets => { part with textFragments := targets.foldl (fun fs pos => fs.set pos (some val)) part.textFragments }

/-- The shape every Bind method has: nothing once part.err is set; otherwise
the literal the method computes goes to setParam, or its error to part.err. -/
def bind_with (uc : Casing) (part : SQLpart) (param : Bytes) (val : Except Error Bytes) : SQLpart :=
  if part.err.isSome then part
  else
    match val with
    | .ok v => setParam uc part param v
    | .error e => { part with err := some e }

def BindNULL (uc : Casing) (part : SQLpart) (param : Bytes) : SQLpart :=
  bind_with uc part param (.ok (ascii "NULL"))

def hex_digit (n : UInt8) : UInt8 := if n < 10 then 0x30 + n else 0x57 + n

/-- The literal is 0x, then fmt.Sprintf("%#x", b) adds two lowercase hex
digits a byte. -/
def BindBytes (uc : Casing) (part : SQLpart) (param b : Bytes) : SQLpart :=
  bind_with uc part param (.ok (ascii "0x" ++ b.flatMap fun x => [hex_digit (x / 16), hex_digit (x % 16)]))

/-- The literal is s with each single quote doubled, between single quotes. -/
def BindStr (uc : Casing) (part : SQLpart) (param s : Bytes) : SQLpart :=
  bind_with uc part param (.ok ([0x27] ++ Replace s 0x27 [0x27, 0x27] ++ [0x27]))

/-- strconv.FormatInt(i, 10). -/
def FormatInt (i : Int64) : Bytes := ascii (toString i.toInt)

/-- strconv.FormatUint(i, 10). -/
def FormatUint (i : UInt64) : Bytes := ascii (toString i.toNat)

def BindInt64 (uc : Casing) (part : SQLpart) (param : Bytes) (i : Int64) : SQLpart :=
  bind_with uc part param (.ok (FormatInt i))

def BindInt (uc : Casing) (part : SQLpart) (param : Bytes) (i : Int64) : SQLpart := BindInt64 uc part param i

def BindInt8 (uc : Casing) (part : SQLpart) (param : Bytes) (i : BitVec 8) : SQLpart := BindInt64 uc part param (i.signExtend 64)

def BindInt16 (uc : Casing) (part : SQLpart) (param : Bytes) (i : BitVec 16) : SQLpart := BindInt64 uc part param (i.signExtend 64)

def BindInt32 (uc : Casing) (part : SQLpart) (param : Bytes) (i : BitVec 32) : SQLpart := BindInt64 uc part param (i.signExtend 64)

def BindUint64 (uc : Casing) (part : SQLpart) (param : Bytes) (i : UInt64) : SQLpart :=
  bind_with uc part param (.ok (FormatUint i))

def BindUint (uc : Casing) (part : SQLpart) (param : Bytes) (i : UInt64) : SQLpart := BindUint64 uc part param i

def BindUint8 (uc : Casing) (part : SQLpart) (param : Bytes) (i : UInt8) : SQLpart := BindUint64 uc part param i.toUInt64

def BindUint16 (uc : Casing) (part : SQLpart) (param : Bytes) (i : UInt16) : SQLpart := BindUint64 uc part param i.toUInt64

def BindUint32 (uc : Casing) (part : SQLpart) (param : Bytes) (i : UInt32) : SQLpart := BindUint64 uc part param i.toUInt64

/-- BindNumstr's loop over the runes of the trimmed string: the error of the
first rune it rejects. It runs over bytes: the first byte from 0x80 up starts
a rune the default case rejects. -/
def numstr_loop (param numstr : Bytes) (decimalDotPos exponentSymbolPos : Int) : Nat → Bytes → Option Error
  | _, [] => none
  | i, r :: rest =>
    if 0x30 ≤ r ∧ r ≤ 0x39 then numstr_loop param numstr decimalDotPos exponentSymbolPos (i + 1) rest
    else if r = 0x65 ∨ r = 0x45 then
      if exponentSymbolPos ≠ -1 then some (.number_invalid param numstr)
      else numstr_loop param numstr decimalDotPos i (i + 1) rest
    else if r = 0x2B ∨ r = 0x2D then
      if ¬((i : Int) = 0 ∨ (i : Int) = exponentSymbolPos + 1) then some (.number_invalid param numstr)
      else numstr_loop param numstr decimalDotPos exponentSymbolPos (i + 1) rest
    else if r = 0x2E then
      if decimalDotPos ≠ -1 then some (.number_invalid param numstr)
      else numstr_loop param numstr i exponentSymbolPos (i + 1) rest
    else some (.number_invalid param numstr)

/-- The trimmed number string, or the loop's error. -/
def numstr_literal (param numstr : Bytes) : Except Error Bytes :=
  let numstr := TrimSpace numstr
  match numstr_loop param numstr (-1) (-1) 0 numstr with
  | some e => .error e
  | none => .ok numstr

def BindNumstr (uc : Casing) (part : SQLpart) (param numstr : Bytes) : SQLpart :=
  bind_with uc part param (numstr_literal param numstr)

/-! ### Floats, dates and times -/

/-- A time.Time: its instant, and the offset east of UTC, in seconds, of its
location at that instant. -/
structure time.Time where
  instant : GoTime
  offset : Int

def time.Time.Nanosecond (t : time.Time) : Nat := t.instant.nsec

/-- The seconds since midnight on the clock of t's location. -/
def time.Time.clock (t : time.Time) : Int := (t.instant.sec + t.offset) % SECONDS_PER_DAY

def time.Time.Hour (t : time.Time) : Int := t.clock / 3600

def time.Time.Minute (t : time.Time) : Int := t.clock % 3600 / 60

def time.Time.Second (t : time.Time) : Int := t.clock % 60

/-- strconv.FormatFloat(f, 'E', -1, 64) and t.Format(layout). -/
structure Printers where
  FormatFloat : Float64 → Bytes
  Format : time.Time → Bytes → Bytes

/-- Printers that print every float as 1E+00 and every time as nothing. -/
def one_printers : Printers := ⟨fun _ => ascii "1E+00", fun _ _ => []⟩

/-- math.IsInf(f, 0): the sign cleared, the pattern of +Inf. -/
def math.IsInf (f : Float64) : Bool := f.bits.toNat % 2 ^ 63 == 0x7FF0000000000000

/-- math.IsNaN(f): the sign cleared, a pattern above +Inf. -/
def math.IsNaN (f : Float64) : Bool := f.bits.toNat % 2 ^ 63 > 0x7FF0000000000000

/-- BindFloat64's literal, or its error naming the parameter as given. -/
def float_literal (pr : Printers) (param : Bytes) (f : Float64) : Except Error Bytes :=
  if math.IsInf f then .error (.float_infinite param)
  else if math.IsNaN f then .error (.float_nan param)
  else .ok (pr.FormatFloat f)

def BindFloat64 (uc : Casing) (pr : Printers) (part : SQLpart) (param : Bytes) (f : Float64) : SQLpart :=
  bind_with uc part param (float_literal pr param f)

/-- t.Format(layout) between single quotes. -/
def quoted (pr : Printers) (t : time.Time) (layout : Bytes) : Bytes := [0x27] ++ pr.Format t layout ++ [0x27]

def BindDate (uc : Casing) (pr : Printers) (part : SQLpart) (param : Bytes) (d : time.Time) : SQLpart :=
  bind_with uc part param (.ok (quoted pr d (ascii "20060102")))

def time_layout (t : time.Time) : Bytes :=
  if t.Nanosecond ≠ 0 then ascii "15:04:05.999999999" else ascii "15:04:05"

def BindTime (uc : Casing) (pr : Printers) (part : SQLpart) (param : Bytes) (t : time.Time) : SQLpart :=
  bind_with uc part param (.ok (quoted pr t (time_layout t)))

def datetime_layout (dt : time.Time) : Bytes :=
  if dt.Nanosecond ≠ 0 then ascii "2006-01-02T15:04:05.999999999"
  else if ¬(dt.Hour = 0 ∧ dt.Minute = 0 ∧ dt.Second = 0) then ascii "2006-01-02T15:04:05"
  else ascii "20060102"

def BindDatetime (uc : Casing) (pr : Printers) (part : SQLpart) (param : Bytes) (dt : time.Time) : SQLpart :=
  bind_with uc part param (.ok (quoted pr dt (datetime_layout dt)))

/-! ### Any Bind call -/

/-- A call of a Bind method, with its arguments. -/
inductive Bind where
  | null (param : Bytes)
  | bytes (param b : Bytes)
  | str (param s : Bytes)
  | int64 (param : Bytes) (i : Int64)
  | uint64 (param : Bytes) (i : UInt64)
  | numstr (param numstr : Bytes)
  | float64 (param : Bytes) (f : Float64)
  | date (param : Bytes) (d : time.Time)
  | time (param : Bytes) (t : time.Time)
  | datetime (param : Bytes) (dt : time.Time)

def Bind.run (uc : Casing) (pr : Printers) : Bind → SQLpart → SQLpart
  | .null param, part => BindNULL uc part param
  | .bytes param b, part => BindBytes uc part param b
  | .str param s, part => BindStr uc part param s
  | .int64 param i, part => BindInt64 uc part param i
  | .uint64 param i, part => BindUint64 uc part param i
  | .numstr param n, part => BindNumstr uc part param n
  | .float64 param f, part => BindFloat64 uc pr part param f
  | .date param d, part => BindDate uc pr part param d
  | .time param t, part => BindTime uc pr part param t
  | .datetime param dt, part => BindDatetime uc pr part param dt

def Bind.param : Bind → Bytes
  | .null param | .bytes param _ | .str param _ | .int64 param _ | .uint64 param _ | .numstr param _
  | .float64 param _ | .date param _ | .time param _ | .datetime param _ => param

/-- The literal the method computes, or its error. -/
def Bind.val (pr : Printers) : Bind → Except Error Bytes
  | .null _ => .ok (ascii "NULL")
  | .bytes _ b => .ok (ascii "0x" ++ b.flatMap fun x => [hex_digit (x / 16), hex_digit (x % 16)])
  | .str _ s => .ok ([0x27] ++ Replace s 0x27 [0x27, 0x27] ++ [0x27])
  | .int64 _ i => .ok (FormatInt i)
  | .uint64 _ i => .ok (FormatUint i)
  | .numstr param n => numstr_literal param n
  | .float64 param f => float_literal pr param f
  | .date _ d => .ok (quoted pr d (ascii "20060102"))
  | .time _ t => .ok (quoted pr t (time_layout t))
  | .datetime _ dt => .ok (quoted pr dt (datetime_layout dt))

/-- Every Bind method is bind_with of its parameter and its literal. -/
theorem Bind.run_eq (uc : Casing) (pr : Printers) (c : Bind) (part : SQLpart) :
    c.run uc pr part = bind_with uc part c.param (c.val pr) := by
  cases c <;> rfl

/-! ### Text -/

/-- The name Text reports for the slot at position i: the first entry of the
map whose positions hold i. -/
def find_name (m : PlaceholderMap) (i : Nat) : Option Bytes :=
  (m.find? fun e => e.2.contains i).map Prod.fst

/-- Text's loop over the fragments from position i. -/
def text_loop (m : PlaceholderMap) : Nat → List (Option Bytes) → Bytes → Result Unit Bytes
  | _, [], buff => .ok buff ()
  | i, none :: _, _ =>
    match find_name m i with
    | some name => .error (.placeholder_not_filled name) ()
    | none => .panic "placeholder position not referenced in placeholderMap"
  | i, some fragment :: fs, buff => text_loop m (i + 1) fs (buff ++ fragment)

def SQLpart.Text (part : SQLpart) : Result Unit Bytes :=
  match part.err with
  | some e => .error e ()
  | none => text_loop part.placeholderMap 0 part.textFragments []

end Rsql.Drv
