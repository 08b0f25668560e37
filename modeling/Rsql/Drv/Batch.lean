import Rsql.Rsqlib.Session
import Mathlib.Logic.Function.Basic

/-! The batch engine of package drv (driver.go): a Connection owns the
session and its dirty flag, a Batch walks the server's response messages.
`step` is the message loop; a call of it, of Next, Finalize, Query or
Execute, reads the Batch and the Connection it points to as a `Heap`. A call
ends normally or in a panic (`none`): the loop catches every error into
b.err. The loop is well founded because each message starts with a
response type that takes at least one byte. -/
namespace Rsql.Drv

open Msgp Rsqlib

def sTATUS_BATCH_SENT : Nat := 1
def sTATUS_RECORD_LAYOUT_AVAILABLE : Nat := 2
def sTATUS_RECORD_AVAILABLE : Nat := 3
def sTATUS_RECORD_END : Nat := 4
def sTATUS_BATCH_END : Nat := 5

inductive stepOption where
  | sTEP_NEXT_RECORD
  | sTEP_FINALIZE
  deriving DecidableEq, Repr

structure Connection where
  session : Session
  isDirty : Bool

/-- A Go map from column names to positions, as its lookup function. -/
abbrev ColnameMap := Bytes → Option Nat

/-- A Batch, with Go's zero values as defaults; its `conn` is the
Connection it is read with. -/
structure Batch where
  text : Bytes := []
  status : Nat := 0
  recordsetCount : Nat := 0
  colnameList : List Bytes := []
  colnameMap : ColnameMap := fun _ => none
  record : List IField := []
  recordCount : Int64 := 0
  execRecordCount : Int64 := 0
  err : Option Error := none
  rc : Int64 := 0

def newBatchError (e : Error_info) : BatchError where
  SrcFile := e.src_file
  SrcLineNo := e.src_line_no
  SrcFuncname := e.src_funcname
  SrcBacktrace := e.src_backtrace
  Category := e.category
  Message := e.message
  Severity := e.severity
  State := e.state
  Text := e.text
  LineNo := e.line_no
  LinePos := e.line_pos

/-! ### The accessors -/

def Columns (b : Batch) : Except Error (List Bytes) :=
  if !(b.status = sTATUS_RECORD_LAYOUT_AVAILABLE ∨ b.status = sTATUS_RECORD_AVAILABLE) then
    .error .no_recordset
  else .ok b.colnameList

def RecordCount (b : Batch) : Int64 := b.recordCount

def ExecRecordCount (b : Batch) : Int64 := b.execRecordCount

def Err (b : Batch) : Option Error := b.err

def Rc (b : Batch) : Int64 := b.rc

def ExistsNextRecordset (b : Batch) : Bool := b.status = sTATUS_RECORD_LAYOUT_AVAILABLE

/-! ### The column-name map -/

/-- The range loop of step over the column names from position `i` on. -/
def colname_loop (i : Nat) (colnameMap : ColnameMap) : List Bytes → ColnameMap
  | [] => colnameMap
  | name :: rest =>
    if name = [] then colname_loop (i + 1) colnameMap rest
    else if (colnameMap name).isSome then
      colname_loop (i + 1) (Function.update colnameMap name (some i)) rest
    else colname_loop (i + 1) (Function.update colnameMap name none) rest

def make_colnameMap (colnameList : List Bytes) : ColnameMap :=
  colname_loop 0 (fun _ => none) colnameList

/-- The loop only ever updates names the map already has, so from an empty
map it builds the empty map. -/
theorem colname_loop_empty (i : Nat) (names : List Bytes) :
    colname_loop i (fun _ => none) names = fun _ => none := by
  induction names generalizing i with
  | nil => rfl
  | cons name rest ih =>
    have hu : Function.update (fun _ => none : ColnameMap) name none = fun _ => none :=
      Function.update_eq_self_iff.mpr rfl
    simp only [colname_loop, Option.isSome_none, Bool.false_eq_true, if_false, hu, ih, ite_self]

theorem make_colnameMap_misses_unique_name :
    make_colnameMap [ascii "a", ascii "b", ascii "a", []] (ascii "b") = none := by
  rw [make_colnameMap, colname_loop_empty]

/-! ### The objects of a call -/

structure Heap where
  b : Batch
  conn : Connection

instance : HasStream Heap := ⟨fun h => h.conn.session.mr.input⟩

def Heap.set_mr (h : Heap) (mr : Reader) : Heap :=
  { h with conn := { h.conn with session := { h.conn.session with mr := mr } } }

/-- A read on the session's reader. -/
def on_session {α : Type} (m : ReadM α) : GoM Heap α :=
  GoM.lift (fun h => h.conn.session.mr) (fun r h => h.set_mr r) (fun _ => rfl) (fun _ _ => rfl) m

/-- Fill_row_with_values(b.record): the fields are filled in place. -/
def fill_record : GoM Heap Unit :=
  GoM.lift (fun h => ⟨h.conn.session.mr, h.b.record⟩)
    (fun f h => { h.set_mr f.mr with b := { h.b with record := f.row } })
    (fun _ => rfl) (fun _ _ => rfl) Fill_row_with_values

/-- Fill_row_with_values(row) on a row of the caller's own. -/
def fill_row (row : List IField) : GoM Heap Unit :=
  GoM.lift (fun h => ⟨h.conn.session.mr, row⟩) (fun f h => h.set_mr f.mr)
    (fun _ => rfl) (fun _ _ => rfl) Fill_row_with_values

def set_b (f : Batch → Batch) : GoM Heap Unit :=
  GoM.modify (fun h => { h with b := f h.b }) fun _ => rfl

/-! ### The message loop -/

/-- How the message loop of step ended: a `return` of the RECORD_LAYOUT or
RECORD case, the return of the BATCH_END case, or an error put in b.err. -/
inductive Exit where
  | ret (v : Bool)
  | batch_end
  | failed (e : Error)
  deriving DecidableEq, Repr

/-- What step returns. -/
def Exit.value : Exit → Bool
  | .ret v => v
  | _ => false

/-! The statements of each case of the switch on the response type, up to
its `return`. -/

def on_RECORD_LAYOUT : GoM Heap Unit := do
  let colnameList ← on_session Create_colname_list
  set_b fun b => { b with colnameList := colnameList, colnameMap := make_colnameMap colnameList }
  let record ← on_session Create_row
  set_b fun b => { b with record := record, recordCount := 0 }
  set_b fun b => { b with recordsetCount := b.recordsetCount + 1 }
  set_b fun b => { b with status := sTATUS_RECORD_LAYOUT_AVAILABLE }

def on_RECORD : GoM Heap Unit := do
  fill_record
  set_b fun b => { b with recordCount := b.recordCount + 1, status := sTATUS_RECORD_AVAILABLE }

def on_RECORD_FINISHED : GoM Heap Unit := do
  let recordCount ← on_session Read_int64
  let h ← GoM.get
  if recordCount ≠ h.b.recordCount then GoM.throw (.recordcount_mismatch recordCount h.b.recordCount)
  else do
    set_b fun b => { b with colnameList := [], colnameMap := fun _ => none, record := [] }
    set_b fun b => { b with recordCount := recordCount, status := sTATUS_RECORD_END }

def on_EXECUTION_FINISHED : GoM Heap Unit := do
  let execRecordCount ← on_session Read_int64
  set_b fun b => { b with execRecordCount := execRecordCount }

def on_PRINT : GoM Heap Unit := do
  let row ← on_session Create_row
  fill_row row

def on_MESSAGE : GoM Heap Unit := do
  let _ ← on_session Read_string

def on_ERROR : GoM Heap Unit := do
  let error_info ← on_session Read_Error_info
  set_b fun b => { b with err := some (.batch (newBatchError error_info)) }

def on_BATCH_END : GoM Heap Unit := do
  let rc ← on_session Read_batch_end_RC
  set_b fun b => { b with rc := rc, status := sTATUS_BATCH_END }
  GoM.modify (fun h => { h with conn := { h.conn with isDirty := false } }) fun _ => rfl

/-- The switch on the response type: `none` to go round the loop again. -/
def handle (option : stepOption) (resp : UInt8) : GoM Heap (Option Exit) :=
  if resp = RESTYP_RECORD_LAYOUT then do
    on_RECORD_LAYOUT
    return if option = .sTEP_NEXT_RECORD then some (.ret false) else none
  else if resp = RESTYP_RECORD then do
    on_RECORD
    return if option = .sTEP_NEXT_RECORD then some (.ret true) else none
  else if resp = RESTYP_RECORD_FINISHED then do on_RECORD_FINISHED; return none
  else if resp = RESTYP_EXECUTION_FINISHED then do on_EXECUTION_FINISHED; return none
  else if resp = RESTYP_PRINT then do on_PRINT; return none
  else if resp = RESTYP_MESSAGE then do on_MESSAGE; return none
  else if resp = RESTYP_ERROR then do on_ERROR; return none
  else if resp = RESTYP_BATCH_END then do on_BATCH_END; return some .batch_end
  else GoM.panic "impossible"

/-- The statements of the case for `resp`, as `handle` runs them. -/
def case_body (resp : UInt8) : GoM Heap Unit :=
  if resp = RESTYP_RECORD_LAYOUT then on_RECORD_LAYOUT
  else if resp = RESTYP_RECORD then on_RECORD
  else if resp = RESTYP_RECORD_FINISHED then on_RECORD_FINISHED
  else if resp = RESTYP_EXECUTION_FINISHED then on_EXECUTION_FINISHED
  else if resp = RESTYP_PRINT then on_PRINT
  else if resp = RESTYP_MESSAGE then on_MESSAGE
  else if resp = RESTYP_ERROR then on_ERROR
  else if resp = RESTYP_BATCH_END then on_BATCH_END
  else GoM.panic "impossible"

/-- What the case for `resp` returns once its statements are done. -/
def case_exit (option : stepOption) (resp : UInt8) : Option Exit :=
  if resp = RESTYP_RECORD_LAYOUT then
    if option = .sTEP_NEXT_RECORD then some (.ret false) else none
  else if resp = RESTYP_RECORD then
    if option = .sTEP_NEXT_RECORD then some (.ret true) else none
  else if resp = RESTYP_BATCH_END then some .batch_end
  else none

/-- Only the `return` of a case depends on the step option. -/
theorem handle_eq (option : stepOption) (resp : UInt8) :
    handle option resp = case_body resp >>= fun _ => pure (case_exit option resp) := by
  unfold handle case_body case_exit
  by_cases h1 : resp = RESTYP_RECORD_LAYOUT
  · rw [if_pos h1, if_pos h1, if_pos h1]
  rw [if_neg h1, if_neg h1, if_neg h1]
  by_cases h2 : resp = RESTYP_RECORD
  · rw [if_pos h2, if_pos h2, if_pos h2]
  rw [if_neg h2, if_neg h2, if_neg h2]
  by_cases h8 : resp = RESTYP_BATCH_END
  · subst h8; rfl
  -- every other case returns none
  rw [if_neg h8]
  split_ifs <;> rfl

/-- One turn of the loop: a response type, then its case. -/
def message (option : stepOption) : GoM Heap (Option Exit) := do
  let resp ← on_session Read_response_type
  handle option resp

theorem message_consumes (option : stepOption) : (message option).Consumes :=
  (GoM.Consumes.lift ReadUint8_consumes).bind _

/-- The `for` loop of step. -/
def loop (option : stepOption) (h : Heap) : Option (Exit × Heap) :=
  match hm : (message option).run h with
  | .ok none h' => loop option h'
  | .ok (some x) h' => some (x, h')
  | .error e h' => some (.failed e, { h' with b := { h'.b with err := some e } })
  | .panic _ => none
termination_by (HasStream.unread h).length
decreasing_by exact message_consumes option _ _ _ hm

def step (option : stepOption) (h : Heap) : Option (Bool × Heap) :=
  if h.b.err.isSome then some (false, h)
  else (loop option h).map fun (x, h') => (x.value, h')

def Next (h : Heap) : Option (Bool × Heap) := step .sTEP_NEXT_RECORD h

def Finalize (h : Heap) : Option (Option Error × Heap) :=
  if h.b.err.isSome then some (h.b.err, h)
  else if h.b.status ≠ sTATUS_BATCH_END then
    (step .sTEP_FINALIZE h).map fun (_, h') => (h'.b.err, h')
  else some (h.b.err, h)

/-! ### Query and Execute -/

/-- What Query and Execute return, with the Connection after the call: the
Batch (nil when the text was not sent) and the error. -/
structure Created where
  b : Option Batch
  err : Option Error
  conn : Connection

/-- The part Query and Execute share: the dirty check, then Send_batch,
then `run` on the sent batch. An encoder panic on the text is `none`. -/
def send_then (run : Heap → Option Created) (conn : Connection) (text : Bytes) : Option Created :=
  if conn.isDirty then some ⟨none, some .connection_dirty, conn⟩
  else
    let conn := { conn with isDirty := true }
    match Send_batch conn.session text with
    | none => none
    | some (some e, session) => some ⟨none, some e, { conn with session := session }⟩
    | some (none, session) =>
      run ⟨{ text := text, status := sTATUS_BATCH_SENT }, { conn with session := session }⟩

def Query (conn : Connection) (text : Bytes) : Option Created :=
  send_then (fun h => (Next h).map fun (_, h') => ⟨some h'.b, none, h'.conn⟩) conn text

def Execute (conn : Connection) (text : Bytes) : Option Created :=
  send_then (fun h => (Finalize h).map fun (_, h') => ⟨some h'.b, h'.b.err, h'.conn⟩) conn text

end Rsql.Drv
