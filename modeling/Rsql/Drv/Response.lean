import Rsql.Drv.Messages
import Rsql.Msgp.Narrow
import Rsql.Rsqlib.ErrorRecord

/-! A well-formed response to a batch, as the server writes it, and how the
message loop of step reads each of its parts. -/
namespace Rsql.Drv

open Msgp Rsqlib GoM

/-- A message that may come before any other. -/
inductive Info where
  | execution_finished (count : Int64)
  | print (cols : List Column) (vals : List Value)
      (fit : List.Forall₂ (fun c v => v.fits c = true) cols vals)
  | message (text : Bytes)

def Info.encode : Info → Option Bytes
  | .execution_finished n => some (AppendUint8 [] RESTYP_EXECUTION_FINISHED ++ AppendInt64 [] n)
  | .print cols vals _ => do
    let l ← append_array (fun c => some c.encode) cols
    let v ← append_array Value.encode vals
    pure (AppendUint8 [] RESTYP_PRINT ++ (l ++ v))
  | .message text => (AppendString [] text).map (AppendUint8 [] RESTYP_MESSAGE ++ ·)

/-- What an informational message leaves in b.execRecordCount. -/
def Info.exec : Info → Int64 → Int64
  | .execution_finished n, _ => n
  | _, count => count

def exec_after (infos : List Info) (count : Int64) : Int64 := infos.foldl (fun c i => i.exec c) count

structure Row where
  before : List Info
  vals : List Value

structure Recordset where
  before_layout : List Info
  names : List Bytes
  cols : List Column
  rows : List Row
  before_finished : List Info
  fit : ∀ r ∈ rows, List.Forall₂ (fun c v => v.fits c = true) cols r.vals

/-- A recordset with no columns and `n` rows, with no other message. -/
def Recordset.blank (n : Nat) : Recordset :=
  ⟨[], [], [], List.replicate n ⟨[], []⟩, [], fun _ hr => by rw [List.eq_of_mem_replicate hr]; exact .nil⟩

/-- An error record as the server writes it: a map of entries under the keys
Read_Error_info knows. -/
structure ErrorRecord where
  entries : List ErrorEntry
  enc : Bytes
  encodes : AppendMapStrSimpleType [] (entries.map fun e => (e.key, e.value)) = some enc

/-- What Read_Error_info makes of the record. -/
def ErrorRecord.info (r : ErrorRecord) : Error_info := r.entries.foldl ErrorEntry.set {}

theorem ErrorRecord.decodes (r : ErrorRecord) : Decodes Read_Error_info r.enc r.info := by
  obtain ⟨body, hlen, hbody, he⟩ := AppendMapStrSimpleType_inv r.encodes
  have hes := read_error_entries_then (n := 0) r.entries {} hbody (Decodes.pure rfl)
  rw [Nat.add_zero, List.append_nil] at hes
  rw [List.length_map] at hlen
  rw [he, List.length_map]
  exact Read_Error_info_header hlen hes

/-- The field of a BatchError an entry names, set to the entry's value. -/
def ErrorEntry.apply (be : BatchError) : ErrorEntry → BatchError
  | .src_file v => { be with SrcFile := v }
  | .src_line_no v => { be with SrcLineNo := v }
  | .src_funcname v => { be with SrcFuncname := v }
  | .src_backtrace v => { be with SrcBacktrace := v }
  | .category v => { be with Category := v }
  | .message v => { be with Message := v }
  | .severity v => { be with Severity := v }
  | .state v => { be with State := v }
  | .text v => { be with Text := v }
  | .line_no v => { be with LineNo := v }
  | .line_pos v => { be with LinePos := v }

/-- The BatchError an error record stands for: each field holds the value of
the last entry under its key, or Go's zero value. -/
def ErrorRecord.batch_error (r : ErrorRecord) : BatchError := r.entries.foldl ErrorEntry.apply {}

theorem newBatchError_set (info : Error_info) (e : ErrorEntry) :
    newBatchError (e.set info) = ErrorEntry.apply (newBatchError info) e := by
  cases e <;> rfl

theorem newBatchError_foldl (es : List ErrorEntry) (info : Error_info) :
    newBatchError (es.foldl ErrorEntry.set info) = es.foldl ErrorEntry.apply (newBatchError info) := by
  induction es generalizing info with
  | nil => rfl
  | cons e es ih => rw [List.foldl_cons, List.foldl_cons, ih, newBatchError_set]

@[simp] theorem ErrorRecord.newBatchError_info (r : ErrorRecord) : newBatchError r.info = r.batch_error :=
  newBatchError_foldl r.entries {}

/-- The empty map is an error record with every field at its zero value. -/
theorem Read_Error_info_empty : Decodes Read_Error_info (AppendMapHeader [] 0) {} :=
  (ReadMapHeader_AppendMapHeader 0).bind_nil (Decodes.pure rfl)

structure Response where
  sets : List Recordset
  before_end : List Info
  error : Option ErrorRecord
  rc : Int64

/-! ### Encodings -/

def encode_infos (infos : List Info) : Option Bytes := append_each Info.encode infos

def Row.encode (r : Row) : Option Bytes := do
  let pre ← encode_infos r.before
  let v ← append_array Value.encode r.vals
  pure (pre ++ (AppendUint8 [] RESTYP_RECORD ++ v))

/-- The informational messages, RECORD_LAYOUT and the two arrays it carries. -/
def Recordset.head (R : Recordset) : Option Bytes := do
  let pre ← encode_infos R.before_layout
  let n ← append_array (AppendString []) R.names
  let l ← append_array (fun c => some c.encode) R.cols
  pure (pre ++ (AppendUint8 [] RESTYP_RECORD_LAYOUT ++ (n ++ l)))

/-- The rows `rows` of a recordset, then its RECORD_FINISHED. -/
def Recordset.tail (R : Recordset) (rows : List Row) : Option Bytes := do
  let er ← append_each Row.encode rows
  let fin ← encode_infos R.before_finished
  pure (er ++ (fin ++ (AppendUint8 [] RESTYP_RECORD_FINISHED ++ AppendInt64 [] (BitVec.ofNat 64 R.rows.length))))

def Recordset.encode (R : Recordset) : Option Bytes := do
  let eh ← R.head
  let et ← R.tail R.rows
  pure (eh ++ et)

/-- What follows the last recordset. -/
def Response.finish (B : Response) : Option Bytes :=
  (encode_infos B.before_end).map fun pre =>
    pre ++ ((B.error.map fun e => AppendUint8 [] RESTYP_ERROR ++ e.enc).getD [] ++
      (AppendUint8 [] RESTYP_BATCH_END ++ AppendInt64 [] B.rc))

def Response.encode (B : Response) : Option Bytes := do
  let es ← append_each Recordset.encode B.sets
  let ef ← B.finish
  pure (es ++ ef)

/-! ### What the response says -/

def Recordset.infos (R : Recordset) : List Info :=
  R.before_layout ++ R.rows.flatMap Row.before ++ R.before_finished

def Response.infos (B : Response) : List Info := B.sets.flatMap Recordset.infos ++ B.before_end

/-- The error Err() reports at the end: the BatchError of the error record. -/
def Response.err (B : Response) : Option Error := B.error.map fun e => .batch e.batch_error

theorem exec_after_append (xs ys : List Info) (count : Int64) :
    exec_after (xs ++ ys) count = exec_after ys (exec_after xs count) :=
  List.foldl_append _ _ _ _

theorem Response.encode_eq {B : Response} {enc : Bytes} (he : B.encode = some enc) :
    ∃ em fin, append_each Recordset.encode B.sets = some em ∧ B.finish = some fin ∧ enc = em ++ fin := by
  simp only [Response.encode, Option.bind_eq_bind, Option.bind_eq_some, Option.pure_def,
    Option.some.injEq] at he
  obtain ⟨em, hem, fin, hfin, rfl⟩ := he
  exact ⟨em, fin, hem, hfin, rfl⟩

theorem encode_sets_cons {R : Recordset} {more : List Recordset} {e : Bytes}
    (he : append_each Recordset.encode (R :: more) = some e) :
    ∃ eh et em, R.head = some eh ∧ R.tail R.rows = some et ∧ append_each Recordset.encode more = some em ∧
      e = eh ++ (et ++ em) := by
  simp only [append_each, Recordset.encode, Option.bind_eq_bind, Option.bind_eq_some, Option.map_eq_some',
    Option.pure_def, Option.some.injEq] at he
  obtain ⟨_, ⟨eh, hh, et, ht, rfl⟩, em, hem, rfl⟩ := he
  exact ⟨eh, et, em, hh, ht, hem, List.append_assoc _ _ _⟩

theorem tail_cons {R : Recordset} {r : Row} {rows : List Row} {et : Bytes}
    (he : R.tail (r :: rows) = some et) :
    ∃ er et', r.encode = some er ∧ R.tail rows = some et' ∧ et = er ++ et' := by
  simp only [Recordset.tail, append_each, Option.bind_eq_bind, Option.bind_eq_some, Option.map_eq_some', Option.pure_def,
    Option.some.injEq] at he
  obtain ⟨_, ⟨er, hr, es, hes, rfl⟩, fin, hfin, rfl⟩ := he
  refine ⟨er, _, hr, ?_, List.append_assoc _ _ _⟩
  simp [Recordset.tail, hes, hfin]

/-! ### Reading the messages -/

section Loop

variable {o : stepOption} {h : Heap}

@[simp] theorem Heap.with_exec_b_err (h : Heap) (n : Int64) : (h.with_exec n).b.err = h.b.err := rfl
@[simp] theorem Heap.with_exec_b_record (h : Heap) (n : Int64) : (h.with_exec n).b.record = h.b.record :=
  rfl
@[simp] theorem Heap.with_exec_b_recordCount (h : Heap) (n : Int64) :
    (h.with_exec n).b.recordCount = h.b.recordCount := rfl
@[simp] theorem Heap.with_exec_b_execRecordCount (h : Heap) (n : Int64) :
    (h.with_exec n).b.execRecordCount = n := rfl
@[simp] theorem Heap.with_exec_with_exec (h : Heap) (m n : Int64) :
    (h.with_exec m).with_exec n = h.with_exec n := rfl

theorem Info.continues (i : Info) {e : Bytes} (he : i.encode = some e) :
    Continues o h e (h.with_exec (i.exec h.b.execRecordCount)) := by
  cases i with
  | execution_finished n =>
    cases he
    exact .of_reads (message_reads (on_EXECUTION_FINISHED_reads n))
  | print cols vals fit =>
    simp only [Info.encode, Option.bind_eq_bind, Option.bind_eq_some, Option.pure_def, Option.some.injEq] at he
    obtain ⟨l, hl, v, hv, rfl⟩ := he
    exact .of_reads (message_reads (on_PRINT_reads fit hl hv))
  | message text =>
    simp only [Info.encode, Option.map_eq_some'] at he
    obtain ⟨enc, henc, rfl⟩ := he
    exact .of_reads (message_reads (on_MESSAGE_reads henc))

theorem infos_continue : ∀ (infos : List Info) {h : Heap} {e : Bytes}, encode_infos infos = some e →
    Continues o h e (h.with_exec (exec_after infos h.b.execRecordCount))
  | [], h, e, he => by
    cases he
    exact Continues.nil
  | i :: infos, h, e, he => by
    simp only [encode_infos, append_each, Option.bind_eq_some, Option.map_eq_some'] at he
    obtain ⟨ei, hi, es, hes, rfl⟩ := he
    exact (i.continues hi).trans (infos_continue infos hes)

theorem layout_exits {names : List Bytes} {cols : List Column} {encN encL : Bytes}
    (hN : append_array (AppendString []) names = some encN)
    (hL : append_array (fun c => some c.encode) cols = some encL) :
    Exits .sTEP_NEXT_RECORD h (AppendUint8 [] RESTYP_RECORD_LAYOUT ++ (encN ++ encL)) (.ret false)
      (h.layout names (cols.map Column.new)) :=
  .of_reads (message_reads (on_RECORD_LAYOUT_reads (Create_colname_list_decodes hN) (Create_row_decodes hL)))

theorem layout_continues {names : List Bytes} {cols : List Column} {encN encL : Bytes}
    (hN : append_array (AppendString []) names = some encN)
    (hL : append_array (fun c => some c.encode) cols = some encL) :
    Continues .sTEP_FINALIZE h (AppendUint8 [] RESTYP_RECORD_LAYOUT ++ (encN ++ encL))
      (h.layout names (cols.map Column.new)) :=
  .of_reads (message_reads (on_RECORD_LAYOUT_reads (Create_colname_list_decodes hN) (Create_row_decodes hL)))

theorem record_exits {vals : List Value} {encV : Bytes}
    (fit : List.Forall₂ (fun f v => v.fits f.column = true) h.b.record vals)
    (hV : append_array Value.encode vals = some encV) :
    Exits .sTEP_NEXT_RECORD h (AppendUint8 [] RESTYP_RECORD ++ encV) (.ret true) (h.filled vals) :=
  .of_reads (message_reads (on_RECORD_reads fit hV))

theorem head_exits {R : Recordset} {eh : Bytes} (he : R.head = some eh) :
    Exits .sTEP_NEXT_RECORD h eh (.ret false)
      ((h.with_exec (exec_after R.before_layout h.b.execRecordCount)).layout R.names
        (R.cols.map Column.new)) := by
  simp only [Recordset.head, Option.bind_eq_bind, Option.bind_eq_some, Option.pure_def, Option.some.injEq] at he
  obtain ⟨pre, hpre, n, hn, l, hl, rfl⟩ := he
  exact (infos_continue _ hpre).exits (layout_exits hn hl)

theorem row_exits {r : Row} {er : Bytes} (he : r.encode = some er)
    (fit : List.Forall₂ (fun f v => v.fits f.column = true) h.b.record r.vals) :
    Exits .sTEP_NEXT_RECORD h er (.ret true)
      ((h.with_exec (exec_after r.before h.b.execRecordCount)).filled r.vals) := by
  simp only [Row.encode, Option.bind_eq_bind, Option.bind_eq_some, Option.pure_def, Option.some.injEq] at he
  obtain ⟨pre, hpre, v, hv, rfl⟩ := he
  exact (infos_continue _ hpre).exits (record_exits fit hv)

theorem finished_continues {R : Recordset} {fin : Bytes} (hfin : encode_infos R.before_finished = some fin)
    (hn : h.b.recordCount = BitVec.ofNat 64 R.rows.length) :
    Continues o h (fin ++ (AppendUint8 [] RESTYP_RECORD_FINISHED ++ AppendInt64 [] (BitVec.ofNat 64 R.rows.length)))
      ((h.with_exec (exec_after R.before_finished h.b.execRecordCount)).finished
        (BitVec.ofNat 64 R.rows.length)) :=
  (infos_continue _ hfin).trans (.of_reads (message_reads (on_RECORD_FINISHED_reads hn.symm)))

theorem error_continues {enc : Bytes} {info : Error_info} (he : Decodes Read_Error_info enc info) :
    Continues o h (AppendUint8 [] RESTYP_ERROR ++ enc) (h.with_error info) :=
  .of_reads (message_reads (on_ERROR_reads he))

theorem batch_end_exits (rc : Int64) :
    Exits o h (AppendUint8 [] RESTYP_BATCH_END ++ AppendInt64 [] rc) .batch_end (h.batch_end rc) :=
  .of_reads (message_reads (on_BATCH_END_reads rc))

/-- The heap at BATCH_END: the error record's error, then rc, status and the
dirty flag. -/
def Heap.ended (h : Heap) (B : Response) : Heap :=
  ((B.error.elim h fun e => h.with_error e.info).with_exec
    (exec_after B.before_end h.b.execRecordCount)).batch_end B.rc

theorem finish_exits {B : Response} {ef : Bytes} (he : B.finish = some ef) :
    Exits o h ef .batch_end (h.ended B) := by
  simp only [Response.finish, Option.map_eq_some'] at he
  obtain ⟨pre, hpre, rfl⟩ := he
  refine (infos_continue _ hpre).exits ?_
  unfold Heap.ended
  cases B.error with
  | none => exact batch_end_exits B.rc
  | some e => exact (error_continues e.decodes).exits (batch_end_exits B.rc)

/-- A turn on a response type byte that is neither a positive fixint nor a
uint prefix: it reads the byte and fails with a bad prefix error. -/
theorem message_bad_type {p : UInt8} (hp : 127 < p.toNat) (h8 : p ≠ M_UINT8) (h16 : p ≠ M_UINT16)
    (h32 : p ≠ M_UINT32) (h64 : p ≠ M_UINT64) (rest sc₀ : Bytes) :
    ∃ sc, (message o).run (h.set_mr ⟨p :: rest, sc₀⟩) =
      .error ( Error.bad_prefix "read uint" p) (h.set_mr ⟨rest, sc⟩) := by
  obtain ⟨sc, hr⟩ := ReadUint8_bad_prefix hp h8 h16 h32 h64 rest sc₀
  rw [List.singleton_append] at hr
  exact ⟨sc, by simp only [message, on_session, Read_response_type, run_bind, run_lift, Heap.set_mr_mr, hr,
    Heap.set_mr_set_mr]⟩

/-- An error record whose last key Read_Error_info does not know: the loop
takes the key's value for a response type and fails before BATCH_END. -/
theorem unknown_key_fails (infos : List Info) {encI : Bytes} (hI : encode_infos infos = some encI)
    (es : List ErrorEntry) {key : Bytes} (hkey : ∀ e : ErrorEntry, e.key ≠ key) {v : Simple} {p : UInt8}
    {ev : Bytes} (hv : AppendSimpleType [] v = some (p :: ev)) (hp : 127 < p.toNat) (h8 : p ≠ M_UINT8)
    (h16 : p ≠ M_UINT16) (h32 : p ≠ M_UINT32) (h64 : p ≠ M_UINT64) {encE : Bytes}
    (hE : AppendMapStrSimpleType [] (es.map (fun e => (e.key, e.value)) ++ [(key, v)]) = some encE)
    (tail sc₀ : Bytes) :
    ∃ sc, loop o (h.set_mr ⟨encI ++ (AppendUint8 [] RESTYP_ERROR ++ encE ++ tail), sc₀⟩) =
      some (.failed ( Error.bad_prefix "read uint" p),
        ((h.with_exec (exec_after infos h.b.execRecordCount)).failed ( Error.bad_prefix "read uint" p)).set_mr
          ⟨ev ++ tail, sc⟩) := by
  obtain ⟨pre, rfl, hpre⟩ := Read_Error_info_unknown_last es hkey hv hE
  obtain ⟨sc₁, hc⟩ := ((infos_continue infos hI).trans (error_continues (o := o) hpre)) (p :: (ev ++ tail)) sc₀
  obtain ⟨sc, hm⟩ := message_bad_type (o := o)
    (h := (h.with_exec (exec_after infos h.b.execRecordCount)).with_error (es.foldl ErrorEntry.set {}))
    hp h8 h16 h32 h64 (ev ++ tail) sc₁
  have e : encI ++ (AppendUint8 [] RESTYP_ERROR ++ (pre ++ p :: ev) ++ tail) =
      encI ++ (AppendUint8 [] RESTYP_ERROR ++ pre) ++ p :: (ev ++ tail) := by simp
  exact ⟨sc, by rw [e, hc, loop_of_error hm]; rfl⟩

end Loop

end Rsql.Drv
