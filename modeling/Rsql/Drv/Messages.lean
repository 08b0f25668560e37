import Rsql.Drv.Loop
import Rsql.Rsqlib.Decode

/-! The messages of a response, as the server writes them with the msgp
Append functions, against the cases of step. `Reads m h enc a h'` says that
`m` reads exactly `enc` from the session and takes the heap `h` to `h'`,
whatever follows `enc` and whatever the reader's scratch buffer held; the
loop then reads a list of messages one after the other (`Continues`) until
a case returns (`Exits`). -/
namespace Rsql.Drv

open Msgp Rsqlib GoM

@[simp] theorem Heap.set_mr_b (h : Heap) (r : Reader) : (h.set_mr r).b = h.b := rfl
@[simp] theorem Heap.set_mr_mr (h : Heap) (r : Reader) : (h.set_mr r).conn.session.mr = r := rfl
@[simp] theorem Heap.set_mr_isDirty (h : Heap) (r : Reader) :
    (h.set_mr r).conn.isDirty = h.conn.isDirty := rfl
@[simp] theorem Heap.set_mr_set_mr (h : Heap) (r r' : Reader) : (h.set_mr r).set_mr r' = h.set_mr r' :=
  rfl
@[simp] theorem Heap.set_mr_self (h : Heap) : h.set_mr h.conn.session.mr = h := rfl

theorem Heap.set_mr_input {h : Heap} {e : Bytes} (hin : h.conn.session.mr.input = e) :
    h.set_mr ⟨e, h.conn.session.mr.scratch⟩ = h := by
  rw [← hin]; rfl

def Reads {α : Type} (m : GoM Heap α) (h : Heap) (enc : Bytes) (a : α) (h' : Heap) : Prop :=
  ∀ rest sc₀, ∃ sc, m.run (h.set_mr ⟨enc ++ rest, sc₀⟩) = .ok a (h'.set_mr ⟨rest, sc⟩)

section Reads

variable {α β : Type} {h h₁ h₂ : Heap}

theorem Reads.of_decodes {m : ReadM α} {enc : Bytes} {a : α} (hm : Decodes m enc a) :
    Reads (on_session m) h enc a h := fun rest sc₀ => by
  obtain ⟨sc, hr⟩ := hm rest sc₀
  refine ⟨sc, ?_⟩
  unfold on_session
  rw [run_lift]
  simp only [Heap.set_mr_mr, hr]
  rfl

theorem Reads.bind {x : GoM Heap α} {f : α → GoM Heap β} {e₁ e₂ : Bytes} {a : α} {c : β}
    (hx : Reads x h e₁ a h₁) (hf : Reads (f a) h₁ e₂ c h₂) : Reads (x >>= f) h (e₁ ++ e₂) c h₂ :=
  fun rest sc₀ => by
    obtain ⟨sc, hr⟩ := hx (e₂ ++ rest) sc₀
    obtain ⟨sc', hr'⟩ := hf rest sc
    exact ⟨sc', by rw [List.append_assoc, run_bind_ok hr, hr']⟩

theorem Reads.of_eq {m : GoM Heap α} {e e' : Bytes} {a : α} (hm : Reads m h e a h₁) (he : e = e') :
    Reads m h e' a h₁ := he ▸ hm

theorem Reads.bind_nil {x : GoM Heap α} {f : α → GoM Heap β} {e : Bytes} {a : α} {c : β}
    (hx : Reads x h e a h₁) (hf : Reads (f a) h₁ [] c h₂) : Reads (x >>= f) h e c h₂ :=
  (hx.bind hf).of_eq (List.append_nil e)

theorem Reads.pure (a : α) : Reads (Pure.pure a) h [] a h := fun _ sc₀ => ⟨sc₀, rfl⟩

theorem Reads.set_b (g : Batch → Batch) : Reads (set_b g) h [] () { h with b := g h.b } :=
  fun _ sc₀ => ⟨sc₀, rfl⟩

end Reads

/-! ### The cases of the switch -/

def Heap.layout (h : Heap) (names : List Bytes) (record : List IField) : Heap :=
  { h with b := { h.b with
      colnameList := names, colnameMap := make_colnameMap names, record := record, recordCount := 0,
      recordsetCount := h.b.recordsetCount + 1, status := sTATUS_RECORD_LAYOUT_AVAILABLE } }

def Heap.filled (h : Heap) (vals : List Value) : Heap :=
  { h with b := { h.b with
      record := List.zipWith (fun f v => f.column.filled v) h.b.record vals,
      recordCount := h.b.recordCount + 1, status := sTATUS_RECORD_AVAILABLE } }

def Heap.finished (h : Heap) (n : Int64) : Heap :=
  { h with b := { h.b with
      colnameList := [], colnameMap := fun _ => none, record := [], recordCount := n,
      status := sTATUS_RECORD_END } }

def Heap.with_exec (h : Heap) (n : Int64) : Heap := { h with b := { h.b with execRecordCount := n } }

def Heap.with_error (h : Heap) (info : Error_info) : Heap :=
  { h with b := { h.b with err := some (.batch (newBatchError info)) } }

/-- The heap where the loop stops on a failed turn: the error in b.err. -/
def Heap.failed (h : Heap) (e : Error) : Heap := { h with b := { h.b with err := some e } }

def Heap.batch_end (h : Heap) (rc : Int64) : Heap :=
  { b := { h.b with rc := rc, status := sTATUS_BATCH_END }, conn := { h.conn with isDirty := false } }

section Cases

variable {h : Heap}

theorem on_RECORD_LAYOUT_reads {encN encL : Bytes} {names : List Bytes} {record : List IField}
    (hN : Decodes Create_colname_list encN names) (hL : Decodes Create_row encL record) :
    Reads on_RECORD_LAYOUT h (encN ++ encL) () (h.layout names record) :=
  (Reads.of_decodes hN).bind ((Reads.set_b _).bind ((Reads.of_decodes hL).bind_nil
    ((Reads.set_b _).bind_nil ((Reads.set_b _).bind_nil (Reads.set_b _)))))

theorem on_RECORD_reads {vals : List Value} {encV : Bytes}
    (fit : List.Forall₂ (fun f v => v.fits f.column = true) h.b.record vals)
    (hV : append_array Value.encode vals = some encV) : Reads on_RECORD h encV () (h.filled vals) :=
  fun rest sc₀ => by
    obtain ⟨sc, hr⟩ := Fill_row_with_values_decodes fit hV rest sc₀
    exact ⟨sc, by simp only [on_RECORD, fill_record, run_bind, run_lift, Heap.set_mr_mr,
      Heap.set_mr_b, hr]; rfl⟩

theorem on_RECORD_FINISHED_reads {n : Int64} (hn : n = h.b.recordCount) :
    Reads on_RECORD_FINISHED h (AppendInt64 [] n) () (h.finished n) := fun rest sc₀ => by
  obtain ⟨sc, hr⟩ := ReadInt64_AppendInt64 n rest sc₀
  subst hn
  exact ⟨sc, by simp only [on_RECORD_FINISHED, on_session, Read_int64, run_bind, run_lift,
    Heap.set_mr_mr, hr, run_get, Heap.set_mr_b, ne_eq, not_true_eq_false, if_false]; rfl⟩

theorem on_EXECUTION_FINISHED_reads (n : Int64) :
    Reads on_EXECUTION_FINISHED h (AppendInt64 [] n) () (h.with_exec n) :=
  (Reads.of_decodes (ReadInt64_AppendInt64 n)).bind_nil (Reads.set_b _)

theorem on_PRINT_reads {cols : List Column} {vals : List Value} {encL encV : Bytes}
    (fit : List.Forall₂ (fun c v => v.fits c = true) cols vals)
    (hL : append_array (fun c => some c.encode) cols = some encL)
    (hV : append_array Value.encode vals = some encV) : Reads on_PRINT h (encL ++ encV) () h := by
  refine (Reads.of_decodes (Create_row_decodes hL)).bind fun rest sc₀ => ?_
  have fit' : List.Forall₂ (fun f v => v.fits f.column = true) (cols.map Column.new) vals := by
    simpa [List.forall₂_map_left_iff] using fit
  obtain ⟨sc, hr⟩ := Fill_row_with_values_decodes fit' hV rest sc₀
  exact ⟨sc, by simp only [fill_row, run_lift, Heap.set_mr_mr, hr]; rfl⟩

theorem on_MESSAGE_reads {text enc : Bytes} (he : AppendString [] text = some enc) :
    Reads on_MESSAGE h enc () h :=
  (Reads.of_decodes (ReadString_AppendString he)).bind_nil (Reads.pure ())

theorem on_ERROR_reads {enc : Bytes} {info : Error_info} (he : Decodes Read_Error_info enc info) :
    Reads on_ERROR h enc () (h.with_error info) :=
  (Reads.of_decodes he).bind_nil (Reads.set_b _)

theorem on_BATCH_END_reads (rc : Int64) :
    Reads on_BATCH_END h (AppendInt64 [] rc) () (h.batch_end rc) :=
  (Reads.of_decodes (ReadInt64_AppendInt64 rc)).bind_nil ((Reads.set_b _).bind_nil
    fun _ sc₀ => ⟨sc₀, rfl⟩)

end Cases

/-! ### One turn of the loop -/

section Loop

variable {o : stepOption} {h h₁ h₂ : Heap}

/-- A turn reads the response type, then the case's body. -/
theorem message_reads {resp : UInt8} {enc : Bytes} (hb : Reads (case_body resp) h enc () h₁) :
    Reads (message o) h (AppendUint8 [] resp ++ enc) (case_exit o resp) h₁ :=
  (Reads.of_decodes (ReadUint8_AppendUint8 resp)).bind (by rw [handle_eq]; exact hb.bind_nil (Reads.pure _))

def Continues (o : stepOption) (h : Heap) (enc : Bytes) (h' : Heap) : Prop :=
  ∀ rest sc₀, ∃ sc, loop o (h.set_mr ⟨enc ++ rest, sc₀⟩) = loop o (h'.set_mr ⟨rest, sc⟩)

def Exits (o : stepOption) (h : Heap) (enc : Bytes) (x : Exit) (h' : Heap) : Prop :=
  ∀ rest sc₀, ∃ sc, loop o (h.set_mr ⟨enc ++ rest, sc₀⟩) = some (x, h'.set_mr ⟨rest, sc⟩)

theorem Continues.of_reads {enc : Bytes} (hm : Reads (message o) h enc none h₁) : Continues o h enc h₁ :=
  fun rest sc₀ => by
    obtain ⟨sc, hr⟩ := hm rest sc₀
    exact ⟨sc, loop_of_continue hr⟩

theorem Exits.of_reads {enc : Bytes} {x : Exit} (hm : Reads (message o) h enc (some x) h₁) :
    Exits o h enc x h₁ := fun rest sc₀ => by
  obtain ⟨sc, hr⟩ := hm rest sc₀
  exact ⟨sc, loop_of_exit hr⟩

theorem Continues.nil : Continues o h [] h := fun _ sc₀ => ⟨sc₀, rfl⟩

theorem Continues.trans {e₁ e₂ : Bytes} (h₁₂ : Continues o h e₁ h₁) (h₂₃ : Continues o h₁ e₂ h₂) :
    Continues o h (e₁ ++ e₂) h₂ := fun rest sc₀ => by
  obtain ⟨sc, hr⟩ := h₁₂ (e₂ ++ rest) sc₀
  obtain ⟨sc', hr'⟩ := h₂₃ rest sc
  exact ⟨sc', by rw [List.append_assoc, hr, hr']⟩

theorem Continues.exits {e₁ e₂ : Bytes} {x : Exit} (hc : Continues o h e₁ h₁) (hx : Exits o h₁ e₂ x h₂) :
    Exits o h (e₁ ++ e₂) x h₂ := fun rest sc₀ => by
  obtain ⟨sc, hr⟩ := hc (e₂ ++ rest) sc₀
  obtain ⟨sc', hr'⟩ := hx rest sc
  exact ⟨sc', by rw [List.append_assoc, hr, hr']⟩

/-- The loop on a heap whose reader holds `enc ++ rest`. -/
theorem Exits.run {enc rest : Bytes} {x : Exit} (hx : Exits o h enc x h₁)
    (hin : h.conn.session.mr.input = enc ++ rest) : ∃ sc, loop o h = some (x, h₁.set_mr ⟨rest, sc⟩) := by
  obtain ⟨sc, hl⟩ := hx rest h.conn.session.mr.scratch
  rw [Heap.set_mr_input hin] at hl
  exact ⟨sc, hl⟩

end Loop

end Rsql.Drv
