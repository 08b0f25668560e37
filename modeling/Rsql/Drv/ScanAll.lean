import Rsql.Drv.Getters

/-! Batch.Scan over every destination type it takes. time.Date's reading of a
wall clock in time.Local is the parameter `Zone`. -/
namespace Rsql.Drv

open Msgp Rsqlib

/-- time.Date(year, month, day, hour, min, sec, 0, time.Local) for the wall
clock `sec` seconds after 1970-01-01 00:00:00: the instant, in seconds since
the epoch, at which the local clock shows it. -/
structure Zone where
  Date : Int → Int

/-- LocalizeTime: the instant at which the local clock shows what t's clock
shows, with t's nanoseconds. -/
def LocalizeTime (zone : Zone) (t : GoTime) : GoTime := ⟨zone.Date t.sec, t.nsec⟩

/-- Batch.ColDatetime: a TIME as it is, a DATE or DATETIME localized; any
other column panics in ColDatetimeUTC. -/
def ColDatetime (zone : Zone) (b : Batch) (i : Nat) : Except String (GoTime × Bool) :=
  match b.record[i]? with
  | none => .error "index out of range"
  | some field =>
    if field.IsNull then .ok (zero_time, true)
    else match field with
      | .Time _ v => .ok (v, false)
      | _ => (ColDatetimeUTC b i).bind fun (valUTC, isnull) =>
        if isnull then .error "impossible: DATE or DATETIME is NULL." else .ok (LocalizeTime zone valUTC, isnull)

/-- A destination of Scan: an integer one (or one no case names), or a
pointer to bool, []byte, string, float64 or time.Time, with its value. -/
inductive AnyDest where
  | integer (d : Dest)
  | bool (v : Bool)
  | bytes (v : Bytes)
  | string (v : Bytes)
  | float64 (v : Float64)
  | time (v : GoTime)

namespace AnyDest

/-- One case of Scan's type switch, for column i. -/
def scan_one (fmt : Formats) (zone : Zone) (b : Batch) (i : Nat) : AnyDest → Except String (Except Error AnyDest)
  | .integer d => (Drv.scan_one b i d).map (·.map .integer)
  | .bool _ => (ColBool b i).map fun (val, _) => .ok (.bool val)
  | .bytes _ => (ColBinary b i).map fun (val, _) => .ok (.bytes val)
  | .string _ => (ColString fmt b i).map fun (val, _) => .ok (.string val)
  | .float64 _ => (ColFloat64 b i).map fun (val, _) => .ok (.float64 val)
  | .time _ => (ColDatetime zone b i).map fun (val, _) => .ok (.time val)

def scan_loop (fmt : Formats) (zone : Zone) (b : Batch) : Nat → List AnyDest → List AnyDest →
    Result (List AnyDest) Unit
  | _, done, [] => .ok () done
  | i, done, d :: rest =>
    match scan_one fmt zone b i d with
    | .error msg => .panic msg
    | .ok (.error e) => .error e (done ++ d :: rest)
    | .ok (.ok d') => scan_loop fmt zone b (i + 1) (done ++ [d']) rest

def Scan (fmt : Formats) (zone : Zone) (b : Batch) (dest : List AnyDest) : Result (List AnyDest) Unit :=
  match b.err with
  | some e => .error e dest
  | none =>
    if b.status ≠ sTATUS_RECORD_AVAILABLE then .error .scan_record_not_available dest
    else if dest.length ≠ b.record.length then .error (.scan_dest_count b.record.length) dest
    else scan_loop fmt zone b 0 [] dest

/-! ### Integer destinations -/

/-- The destinations of a result of Scan.lean's Scan, as AnyDest. -/
def lift : Result (List Dest) Unit → Result (List AnyDest) Unit
  | .ok u ds => .ok u (ds.map .integer)
  | .error e ds => .error e (ds.map .integer)
  | .panic msg => .panic msg

variable (fmt : Formats) (zone : Zone) (b : Batch)

theorem scan_loop_integer : ∀ (i : Nat) (done ds : List Dest),
    scan_loop fmt zone b i (done.map .integer) (ds.map .integer) = lift (Drv.scan_loop b i done ds)
  | _, done, [] => rfl
  | i, done, d :: rest => by
    simp only [List.map_cons, scan_loop, Drv.scan_loop, scan_one]
    cases Drv.scan_one b i d with
    | error msg => rfl
    | ok r =>
      cases r with
      | error e => simp [Except.map, lift]
      | ok d' =>
        simp only [Except.map]
        rw [← scan_loop_integer (i + 1) (done ++ [d']) rest, List.map_append, List.map_singleton]

/-- On integer destinations, Scan is the Scan of Scan.lean. -/
theorem Scan_integer (dest : List Dest) : Scan fmt zone b (dest.map .integer) = lift (Drv.Scan b dest) := by
  unfold Scan Drv.Scan
  cases b.err with
  | some e => rfl
  | none =>
    simp only [List.length_map]
    split_ifs
    · rfl
    · rfl
    · exact scan_loop_integer fmt zone b 0 [] dest

/-! ### When Scan does not panic -/

/-- The columns each destination reads without a panic. -/
def reads (d : AnyDest) (f : IField) : Bool :=
  f.IsNull ||
    match d, f with
    | .integer .unsupported, _ => true
    | .integer _, f => is_integer f
    | .bool _, .Varchar .. | .bool _, .Bit .. | .bool _, .Tinyint .. | .bool _, .Smallint ..
    | .bool _, .Int .. | .bool _, .Bigint .. | .bool _, .Float .. => true
    | .bytes _, .Varbinary .. => true
    | .string _, _ => true
    | .float64 _, .Float .. => true
    | .time _, .Date .. | .time _, .Time .. | .time _, .Datetime .. => true
    | _, _ => false

theorem ColInt64_ok {i : Nat} {f : IField} (hf : b.record[i]? = some f)
    (h : f.IsNull = true ∨ is_integer f = true) : ∃ r, ColInt64 b i = .ok r := by
  rcases h with hn | hint
  · exact ⟨(0, true), by simp [ColInt64, hf, hn]⟩
  · obtain ⟨val, null, h, -⟩ := ColInt64_integer hf hint
    exact ⟨_, h⟩

theorem scan_one_ok {i : Nat} {f : IField} {d : AnyDest} (hf : b.record[i]? = some f) (hr : d.reads f = true) :
    ∃ r, scan_one fmt zone b i d = .ok r := by
  cases d with
  | integer d =>
    cases d with
    | unsupported => exact ⟨_, rfl⟩
    | _ =>
      obtain ⟨r, hc⟩ := ColInt64_ok b hf (Bool.or_eq_true_iff.mp (show (f.IsNull || is_integer f) = true from hr))
      simp [scan_one, Drv.scan_one, ColInt, hc, Except.map]
  | _ =>
    cases hn : f.IsNull
    · cases f <;> simp only [IField.IsNull] at hn <;> subst hn <;>
        first
        | exact (Bool.false_ne_true hr).elim
        | exact ⟨_, by simp only [scan_one, ColBool, ColBinary, ColString, ColFloat64, ColDatetime, ColDatetimeUTC, hf]; rfl⟩
    · simp [scan_one, ColBool, ColBinary, ColString, ColFloat64, ColDatetime, hf, hn, Except.map]

theorem scan_loop_no_panic {ds : List AnyDest} {fs : List IField} (h : List.Forall₂ (fun d f => d.reads f = true) ds fs) :
    ∀ (i : Nat) (done : List AnyDest), b.record.drop i = fs → ∀ msg, scan_loop fmt zone b i done ds ≠ .panic msg := by
  induction h with
  | nil => intro _ _ _ _; exact nofun
  | @cons d f ds fs hr _ ih =>
    intro i done hdrop msg
    obtain ⟨hf, hrest⟩ := getElem?_of_drop_eq_cons hdrop
    obtain ⟨r, hs⟩ := scan_one_ok fmt zone b hf hr
    rw [scan_loop, hs]
    cases r with
    | error e => exact nofun
    | ok d' => exact ih (i + 1) _ hrest msg

/-- Scan never panics when each destination reads its column without a
panic: it then returns nil or an error. -/
theorem Scan_no_panic (dest : List AnyDest) (h : List.Forall₂ (fun d f => d.reads f = true) dest b.record)
    (msg : String) : Scan fmt zone b dest ≠ .panic msg := by
  unfold Scan
  cases b.err with
  | some e => exact nofun
  | none =>
    simp only
    split_ifs
    · exact nofun
    · exact nofun
    · exact scan_loop_no_panic fmt zone b h 0 [] (List.drop_zero _) msg

end AnyDest

/-- A record with a VARCHAR holding "t" and a DATE. -/
def varchar_date_row : Batch :=
  { status := sTATUS_RECORD_AVAILABLE, record := [.Varchar 1 false false [0x74], .Date false zero_time] }

theorem Scan_no_panic_bool_time :
    List.Forall₂ (fun d f => d.reads f = true) [AnyDest.bool false, .time zero_time] varchar_date_row.record ∧
    ∀ msg, AnyDest.Scan ⟨fun _ => [], fun _ _ => []⟩ ⟨id⟩ varchar_date_row [.bool false, .time zero_time] ≠ .panic msg :=
  have h : List.Forall₂ (fun d f => d.reads f = true) [AnyDest.bool false, .time zero_time] varchar_date_row.record :=
    .cons rfl (.cons rfl .nil)
  ⟨h, AnyDest.Scan_no_panic _ _ _ _ h⟩

/-- A *bool destination on the DATE column panics. -/
example : AnyDest.Scan ⟨fun _ => [], fun _ _ => []⟩ ⟨id⟩ varchar_date_row [.bool false, .bool false] =
    .panic "record field 1 of type VARBINARY, MONEY, NUMERIC, DATE, TIME or DATETIME cannot be converted to bool." := rfl

end Rsql.Drv
