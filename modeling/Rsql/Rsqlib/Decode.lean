import Mathlib.Data.List.Forall2
import Rsql.Rsqlib.Field
import Rsql.Msgp.RoundTrip

/-! The wire format of a recordset as the server writes it with the msgp
Append functions, and rsql_read_values.go against it: the column names, the
layout and every record decode to what was written, with a NULL exactly
where the record holds nil, whatever the reused row held before. -/
namespace Rsql.Rsqlib

open Msgp GoM

/-- A column of the layout: its datatype with the parameters it carries. -/
inductive Column where
  | Void
  | Boolean
  | Varbinary (precision : UInt16)
  | Varchar (precision : UInt16) (fixlen : Bool)
  | Bit
  | Tinyint
  | Smallint
  | Int
  | Bigint
  | Money (precision scale : UInt16)
  | Numeric (precision scale : UInt16)
  | Float
  | Date
  | Time
  | Datetime
  deriving DecidableEq, Repr

def Column.tag : Column → UInt8
  | .Void => DTYPE_VOID
  | .Boolean => DTYPE_BOOLEAN
  | .Varbinary _ => DTYPE_VARBINARY
  | .Varchar .. => DTYPE_VARCHAR
  | .Bit => DTYPE_BIT
  | .Tinyint => DTYPE_TINYINT
  | .Smallint => DTYPE_SMALLINT
  | .Int => DTYPE_INT
  | .Bigint => DTYPE_BIGINT
  | .Money .. => DTYPE_MONEY
  | .Numeric .. => DTYPE_NUMERIC
  | .Float => DTYPE_FLOAT
  | .Date => DTYPE_DATE
  | .Time => DTYPE_TIME
  | .Datetime => DTYPE_DATETIME

/-- The parameters of a column after its tag. -/
def Column.params : Column → Bytes
  | .Varbinary p => AppendUint16 [] p
  | .Varchar p f => AppendUint16 [] p ++ AppendBool [] f
  | .Money p s | .Numeric p s => AppendUint16 [] p ++ AppendUint16 [] s
  | _ => []

/-- The length of the layout array of a column. -/
def Column.size : Column → UInt32
  | .Varbinary _ => 2
  | .Varchar .. | .Money .. | .Numeric .. => 3
  | _ => 1

/-- The layout array of a column: its tag, then its parameters. -/
def Column.encode (c : Column) : Bytes := AppendArrayHeader [] c.size ++ AppendUint8 [] c.tag ++ c.params

/-- The column a field stands for: its datatype and parameters. -/
def IField.column : IField → Column
  | .Void _ => .Void
  | .Boolean .. => .Boolean
  | .Varbinary p .. => .Varbinary p
  | .Varchar p f .. => .Varchar p f
  | .Bit .. => .Bit
  | .Tinyint .. => .Tinyint
  | .Smallint .. => .Smallint
  | .Int .. => .Int
  | .Bigint .. => .Bigint
  | .Money p s .. => .Money p s
  | .Numeric p s .. => .Numeric p s
  | .Float .. => .Float
  | .Date .. => .Date
  | .Time .. => .Time
  | .Datetime .. => .Datetime

/-- A new field of a column: NULL, with its zero value. -/
def Column.new : Column → IField
  | .Void => .Void true
  | .Boolean => .Boolean true false
  | .Varbinary p => .Varbinary p true []
  | .Varchar p f => .Varchar p f true []
  | .Bit => .Bit true 0
  | .Tinyint => .Tinyint true 0
  | .Smallint => .Smallint true 0
  | .Int => .Int true 0
  | .Bigint => .Bigint true 0
  | .Money p s => .Money p s true []
  | .Numeric p s => .Numeric p s true []
  | .Float => .Float true ⟨0⟩
  | .Date => .Date true zero_time
  | .Time => .Time true zero_time
  | .Datetime => .Datetime true zero_time

/-- A value of a record, as the server writes it. -/
inductive Value where
  | nil
  | bool (b : Bool)
  | uint8 (v : UInt8)
  | int16 (v : BitVec 16)
  | int32 (v : BitVec 32)
  | int64 (v : Int64)
  | float64 (f : Float64)
  | bytes (b : Bytes)
  | string (s : Bytes)
  | uint32 (v : UInt32)
  | uint32x2 (a b : UInt32)
  | uint32x3 (a b c : UInt32)
  deriving DecidableEq, Repr

def Value.encode : Value → Option Bytes
  | .nil => some (AppendNil [])
  | .bool b => some (AppendBool [] b)
  | .uint8 v => some (AppendUint8 [] v)
  | .int16 v => some (AppendInt16 [] v)
  | .int32 v => some (AppendInt32 [] v)
  | .int64 v => some (AppendInt64 [] v)
  | .float64 f => some (AppendFloat64 [] f)
  | .bytes b => AppendBytes [] b
  | .string s => AppendStringFromBytes [] s
  | .uint32 v => some (AppendUint32 [] v)
  | .uint32x2 a b => some (AppendArrayHeader [] 2 ++ AppendUint32 [] a ++ AppendUint32 [] b)
  | .uint32x3 a b c =>
    some (AppendArrayHeader [] 3 ++ AppendUint32 [] a ++ AppendUint32 [] b ++ AppendUint32 [] c)

/-- The values a column takes: nil, or a value of its type; a Bit is 0 or 1. -/
def Value.fits : Column → Value → Bool
  | _, .nil => true
  | .Boolean, .bool _ => true
  | .Varbinary _, .bytes _ => true
  | .Varchar .., .string _ => true
  | .Bit, .uint8 v => decide (v ≤ 1)
  | .Tinyint, .uint8 _ => true
  | .Smallint, .int16 _ => true
  | .Int, .int32 _ => true
  | .Bigint, .int64 _ => true
  | .Money .., .string _ => true
  | .Numeric .., .string _ => true
  | .Float, .float64 _ => true
  | .Date, .uint32 _ => true
  | .Time, .uint32x2 .. => true
  | .Datetime, .uint32x3 .. => true
  | _, _ => false

/-- What a field of a column holds once it has read a value: NULL for nil;
CHAR padded to its precision; days, seconds and nanoseconds as instants. -/
def Column.filled : Column → Value → IField
  | .Boolean, .bool b => .Boolean false b
  | .Varbinary p, .bytes b => .Varbinary p false b
  | .Varchar p f, .string s => .Varchar p f false (if f then pad_fixlen p s else s)
  | .Bit, .uint8 v => .Bit false v
  | .Tinyint, .uint8 v => .Tinyint false v
  | .Smallint, .int16 v => .Smallint false v
  | .Int, .int32 v => .Int false v
  | .Bigint, .int64 v => .Bigint false v
  | .Money p s, .string v => .Money p s false v
  | .Numeric p s, .string v => .Numeric p s false v
  | .Float, .float64 f => .Float false f
  | .Date, .uint32 d => .Date false (time_Unix (UNIX_SEC_LOWEST + d.toNat * SECONDS_PER_DAY) 0)
  | .Time, .uint32x2 s ns => .Time false (time_Unix (UNIX_SEC_1900_01_01 + s.toNat) ns.toNat)
  | .Datetime, .uint32x3 d s ns => .Datetime false
      (time_Unix (UNIX_SEC_LOWEST + d.toNat * SECONDS_PER_DAY + s.toNat) ns.toNat)
  | c, _ => c.new

/-- An array: its header, then the encodings of its elements. -/
def append_array {γ : Type} (append : γ → Option Bytes) (xs : List γ) : Option Bytes :=
  if MaxUint32 < xs.length then none
  else (append_each append xs).map (AppendArrayHeader [] (UInt32.ofNat xs.length) ++ ·)

/-! ### Fields and columns -/

@[simp] theorem Column.new_column (c : Column) : c.new.column = c := by
  cases c <;> rfl

@[simp] theorem Column.filled_column (c : Column) (v : Value) : (c.filled v).column = c := by
  cases c <;> cases v <;> rfl

theorem Column.filled_IsNull {c : Column} {v : Value} (hfit : v.fits c) :
    (c.filled v).IsNull = decide (v = .nil) := by
  cases v <;> cases c <;> first | rfl | cases hfit

/-! ### Column names and layout -/

theorem new_field_decodes (c : Column) : Decodes new_field c.encode c.new := by
  refine ((ReadArrayHeader_AppendArrayHeader c.size).bind ((ReadUint8_AppendUint8 c.tag).bind
    (show Decodes _ c.params _ from ?_))).of_eq (by simp [Column.encode])
  cases c
  case Varbinary => exact (Decodes.assert rfl).bind ((ReadUint16_AppendUint16 _).bind_pure rfl)
  case Varchar =>
    exact (Decodes.assert rfl).bind ((ReadUint16_AppendUint16 _).bind ((ReadBool_AppendBool _).bind_pure rfl))
  case Money | Numeric =>
    exact (Decodes.assert rfl).bind ((ReadUint16_AppendUint16 _).bind ((ReadUint16_AppendUint16 _).bind_pure rfl))
  all_goals exact (Decodes.assert rfl).bind (Decodes.pure rfl)

theorem Decodes.array {α γ : Type} {m : ReadM α} {append : γ → Option Bytes} {f : γ → α}
    (h : ∀ x e, append x = some e → Decodes m e (f x)) {xs : List γ} {enc : Bytes}
    (he : append_array append xs = some enc) :
    Decodes (ReadArrayHeader >>= fun n => GoM.repeat_n m n.toNat) enc (xs.map f) := by
  simp only [append_array, Option.ite_none_left_eq_some, Option.map_eq_some'] at he
  obtain ⟨hlen, es, hes, rfl⟩ := he
  have e : (UInt32.ofNat xs.length).toNat = xs.length := by simp [MaxUint32] at hlen ⊢; omega
  refine (ReadArrayHeader_AppendArrayHeader _).bind ?_
  rw [e]
  exact Decodes.repeat_n h xs hes

theorem Create_colname_list_decodes {names : List Bytes} {enc : Bytes}
    (he : append_array (AppendString []) names = some enc) : Decodes Create_colname_list enc names := by
  simpa using Decodes.array (fun _ _ h => ReadString_AppendString h) he

theorem Create_row_decodes {cols : List Column} {enc : Bytes}
    (he : append_array (fun c => some c.encode) cols = some enc) :
    Decodes Create_row enc (cols.map Column.new) :=
  Decodes.array (fun c _ h => by cases h; exact new_field_decodes c) he

/-! ### Values -/

theorem read_nullable_nil (null : IField) (read : ReadM IField) :
    Decodes (read_nullable null read) (AppendNil []) null :=
  Decodes.after_next_type (by
    rw [show next_type_of M_NIL = .NilType by decide, if_pos rfl]
    exact (ReadNil_AppendNil.discard).bind_nil (Decodes.pure rfl))

theorem read_nullable_value {null : IField} {read : ReadM IField} {enc b : Bytes} {p : UInt8}
    {a : IField} (he : enc = p :: b) (hp : next_type_of p ≠ .NilType) (h : Decodes read enc a) :
    Decodes (read_nullable null read) enc a :=
  Decodes.after_next_type_of_head he (by rw [if_neg hp]; exact h)

theorem AppendUint64_head (v : UInt64) :
    ∃ p b, AppendUint64 [] v = p :: b ∧ next_type_of p ≠ .NilType := by
  obtain ⟨p, b, he, ht⟩ := AppendUint64_cons v
  exact ⟨p, b, he, by rw [ht]; split <;> decide⟩

theorem AppendInt64_head (v : Int64) :
    ∃ p b, AppendInt64 [] v = p :: b ∧ next_type_of p ≠ .NilType := by
  obtain ⟨p, b, he, ht⟩ := AppendInt64_cons v
  exact ⟨p, b, he, by rw [ht]; decide⟩

theorem AppendString_head {s enc : Bytes} (he : AppendString [] s = some enc) :
    ∃ p b, enc = p :: b ∧ next_type_of p ≠ .NilType := by
  obtain ⟨p, b, hh, ht⟩ := AppendStringHeader_cons (UInt32.ofNat s.length)
  simp only [AppendString, Option.ite_none_left_eq_some, Option.some.injEq, hh] at he
  exact ⟨p, b ++ s, he.2.symm, by rw [ht]; decide⟩

theorem AppendBytes_head {s enc : Bytes} (he : AppendBytes [] s = some enc) :
    ∃ p b, enc = p :: b ∧ next_type_of p ≠ .NilType := by
  obtain ⟨p, b, hh, ht⟩ := AppendBytesHeader_cons (UInt32.ofNat s.length)
  simp only [AppendBytes, Option.ite_none_left_eq_some, Option.some.injEq, hh] at he
  exact ⟨p, b ++ s, he.2.symm, by rw [ht]; decide⟩

/-- An array header read back and checked against the size it was written
with, then the rest of the array. -/
theorem Decodes.checked_array_header {β : Type} {n : UInt32} {k : Unit → ReadM β} {b : Bytes} {a : β}
    (h : Decodes (k ()) b a) :
    Decodes (ReadArrayHeader >>= fun sz => GoM.assert (decide (sz = n)) >>= k) (AppendArrayHeader [] n ++ b) a :=
  (ReadArrayHeader_AppendArrayHeader n).bind ((Decodes.assert (decide_eq_true rfl)).bind h)

/-- A small array header is its one prefix byte. -/
theorem AppendArrayHeader_fix_cons (n : UInt32) (hn : n.toNat ≤ 15) (rest : Bytes) :
    AppendArrayHeader [] n ++ rest = (M_FIXARRAY_BASE ||| n.toUInt8) :: rest := by
  simp [AppendArrayHeader, append_container_header, hn]

theorem read_value_decodes (f : IField) (v : Value) (hfit : v.fits f.column) {enc : Bytes}
    (he : v.encode = some enc) : Decodes (read_value f) enc (f.column.filled v) := by
  cases v with
  | nil =>
    cases he
    cases f
    case Void =>
      exact Decodes.after_next_type ((Decodes.assert (by decide)).bind
        ((ReadNil_AppendNil.discard).bind (Decodes.pure rfl)))
    all_goals exact read_nullable_nil _ _
  | bool b =>
    cases he
    cases f <;> cases hfit
    exact read_nullable_value rfl (by cases b <;> decide) ((ReadBool_AppendBool b).bind_pure rfl)
  | uint8 v =>
    cases he
    obtain ⟨p, b, hh, hp⟩ := AppendUint64_head v.toUInt64
    cases f
    case Bit => exact read_nullable_value hh hp ((ReadUint8_AppendUint8 v).bind_nil
      ((Decodes.assert hfit).bind_nil (Decodes.pure rfl)))
    case Tinyint => exact read_nullable_value hh hp ((ReadUint8_AppendUint8 v).bind_pure rfl)
    all_goals cases hfit
  | int16 v =>
    cases he
    obtain ⟨p, b, hh, hp⟩ := AppendInt64_head (v.signExtend 64)
    cases f <;> cases hfit
    exact read_nullable_value hh hp ((ReadInt16_AppendInt16 v).bind_pure rfl)
  | int32 v =>
    cases he
    obtain ⟨p, b, hh, hp⟩ := AppendInt64_head (v.signExtend 64)
    cases f <;> cases hfit
    exact read_nullable_value hh hp ((ReadInt32_AppendInt32 v).bind_pure rfl)
  | int64 v =>
    cases he
    obtain ⟨p, b, hh, hp⟩ := AppendInt64_head v
    cases f <;> cases hfit
    exact read_nullable_value hh hp ((ReadInt64_AppendInt64 v).bind_pure rfl)
  | float64 x =>
    cases he
    cases f <;> cases hfit
    exact read_nullable_value rfl (by decide) ((ReadFloat64_AppendFloat64 x).bind_pure rfl)
  | bytes bs =>
    obtain ⟨p, b, hh, hp⟩ := AppendBytes_head he
    cases f <;> cases hfit
    exact read_nullable_value hh hp ((ReadBytes_AppendBytes he).bind_pure rfl)
  | string str =>
    obtain ⟨p, b, hh, hp⟩ := AppendString_head he
    cases f <;> cases hfit <;>
      exact read_nullable_value hh hp ((ReadStringAsBytes_AppendString he).bind_pure rfl)
  | uint32 v =>
    cases he
    obtain ⟨p, b, hh, hp⟩ := AppendUint64_head v.toUInt64
    cases f <;> cases hfit
    exact read_nullable_value hh hp ((ReadUint32_AppendUint32 v).bind_pure rfl)
  | uint32x2 a b =>
    cases he
    cases f <;> cases hfit
    refine read_nullable_value
      (by rw [List.append_assoc]; exact AppendArrayHeader_fix_cons 2 (by decide) _)
      (by decide) ((Decodes.checked_array_header ((ReadUint32_AppendUint32 a).bind
        ((ReadUint32_AppendUint32 b).bind_pure rfl))).of_eq (by simp))
  | uint32x3 a b c =>
    cases he
    cases f <;> cases hfit
    refine read_nullable_value
      (by rw [List.append_assoc, List.append_assoc]; exact AppendArrayHeader_fix_cons 3 (by decide) _)
      (by decide) ((Decodes.checked_array_header ((ReadUint32_AppendUint32 a).bind
        ((ReadUint32_AppendUint32 b).bind ((ReadUint32_AppendUint32 c).bind_pure rfl)))).of_eq (by simp))

/-! ### Filling a row -/

/-- Each field read in turn replaces its own slot: the row holds the fields
already filled, then the rest unchanged. -/
theorem fill_fields_decodes {fields : List IField} {vals : List Value}
    (fit : List.Forall₂ (fun f v => v.fits f.column = true) fields vals) :
    ∀ (done : List IField) {enc : Bytes}, append_each Value.encode vals = some enc →
      ∀ rest scratch, ∃ sc, (fill_fields done fields).run ⟨⟨enc ++ rest, scratch⟩, done ++ fields⟩ =
        .ok () ⟨⟨rest, sc⟩, done ++ List.zipWith (fun f v => f.column.filled v) fields vals⟩ := by
  induction fit with
  | nil =>
    intro done enc he rest scratch
    cases he
    exact ⟨scratch, rfl⟩
  | @cons f v fields vals hfv _ ih =>
    intro done enc he rest scratch
    simp only [append_each, Option.bind_eq_some, Option.map_eq_some'] at he
    obtain ⟨e, hv, es, hes, rfl⟩ := he
    obtain ⟨sc, hr⟩ := read_value_decodes f v hfv hv (es ++ rest) scratch
    obtain ⟨sc', hr'⟩ := ih (done ++ [f.column.filled v]) hes rest sc
    refine ⟨sc', ?_⟩
    simp only [List.append_assoc, List.singleton_append, List.zipWith_cons_cons] at hr' ⊢
    simp only [fill_fields, on_reader, run_bind, run_lift, hr, run_modify, hr']

theorem Fill_row_with_values_decodes {row : List IField} {vals : List Value} {enc : Bytes}
    (fit : List.Forall₂ (fun f v => v.fits f.column = true) row vals)
    (he : append_array Value.encode vals = some enc) (rest scratch : Bytes) :
    ∃ sc, Fill_row_with_values.run ⟨⟨enc ++ rest, scratch⟩, row⟩ =
      .ok () ⟨⟨rest, sc⟩, List.zipWith (fun f v => f.column.filled v) row vals⟩ := by
  simp only [append_array, Option.ite_none_left_eq_some, Option.map_eq_some'] at he
  obtain ⟨hlen, es, hes, rfl⟩ := he
  have e : (UInt32.ofNat vals.length).toNat = row.length := by
    rw [fit.length_eq]; simp [MaxUint32] at hlen ⊢; omega
  obtain ⟨sc, hr⟩ := ReadArrayHeader_AppendArrayHeader (UInt32.ofNat vals.length) (es ++ rest) scratch
  obtain ⟨sc', hr'⟩ := fill_fields_decodes fit [] hes rest sc
  refine ⟨sc', ?_⟩
  simp only [List.append_assoc, Fill_row_with_values, on_reader, run_bind, run_lift, hr, run_get,
    run_assert, e, decide_eq_true_eq, if_true]
  exact hr'

theorem filled_columns {cols : List Column} {vals : List Value}
    (fit : List.Forall₂ (fun c v => v.fits c = true) cols vals) :
    (List.zipWith Column.filled cols vals).map IField.column = cols := by
  induction fit with
  | nil => rfl
  | cons _ _ ih => simp [ih]

theorem filled_IsNull_iff_nil {cols : List Column} {vals : List Value}
    (fit : List.Forall₂ (fun c v => v.fits c = true) cols vals) :
    (List.zipWith Column.filled cols vals).map IField.IsNull = vals.map fun v => decide (v = .nil) := by
  induction fit with
  | nil => rfl
  | cons hfv _ ih => simp only [List.zipWith_cons_cons, List.map_cons, Column.filled_IsNull hfv, ih]

/-- The names, the layout and a record, each encoded with the msgp Append
functions, are read back by Create_colname_list, Create_row and
Fill_row_with_values, whatever the row buffer held before. -/
theorem recordset_round_trip (names : List Bytes) (cols : List Column) (vals : List Value)
    {encN encL encV : Bytes}
    (hN : append_array (AppendString []) names = some encN)
    (hL : append_array (fun c => some c.encode) cols = some encL)
    (hV : append_array Value.encode vals = some encV)
    (fit : List.Forall₂ (fun c v => v.fits c = true) cols vals) :
    Decodes Create_colname_list encN names ∧
    Decodes Create_row encL (cols.map Column.new) ∧
    (∀ row : List IField, row.map IField.column = cols → ∀ rest scratch, ∃ sc,
      Fill_row_with_values.run ⟨⟨encV ++ rest, scratch⟩, row⟩ =
        .ok () ⟨⟨rest, sc⟩, List.zipWith Column.filled cols vals⟩) ∧
    (List.zipWith Column.filled cols vals).map IField.column = cols ∧
    (List.zipWith Column.filled cols vals).map IField.IsNull = vals.map fun v => decide (v = .nil) := by
  refine ⟨Create_colname_list_decodes hN, Create_row_decodes hL, fun row hrow rest scratch => ?_,
    filled_columns fit, filled_IsNull_iff_nil fit⟩
  subst hrow
  rw [List.zipWith_map_left]
  exact Fill_row_with_values_decodes (List.forall₂_map_left_iff.mp fit) hV rest scratch

theorem recordset_round_trip_id :
    Decodes Create_colname_list [0x91, 0xa2, 105, 100] [[105, 100]] ∧
    Decodes Create_row [0x91, 0x91, DTYPE_INT] [Column.Int.new] ∧
    (∀ row : List IField, row.map IField.column = [.Int] → ∀ rest scratch, ∃ sc,
      Fill_row_with_values.run ⟨⟨[0x91, 7] ++ rest, scratch⟩, row⟩ =
        .ok () ⟨⟨rest, sc⟩, [.Int false 7]⟩) ∧
    [IField.Int false 7].map IField.column = [.Int] ∧ [IField.Int false 7].map IField.IsNull = [false] :=
  recordset_round_trip [[105, 100]] [.Int] [.int32 7] (by decide) (by decide) (by decide) (by decide)

end Rsql.Rsqlib
