import Rsql.Drv.Pause

/-! Calls made on a batch once it has recorded an error or read its
BATCH_END, and on the connection it belongs to. -/
namespace Rsql.Drv

open Msgp Rsqlib GoM

inductive Call where
  | next
  | finalize

inductive Returned where
  | next (v : Bool)
  | finalize (err : Option Error)

def Call.run : Call → Heap → Option (Returned × Heap)
  | .next, h => (Next h).map fun (v, h') => (.next v, h')
  | .finalize, h => (Finalize h).map fun (e, h') => (.finalize e, h')

/-- Calls made one after the other on one batch. -/
def run_calls : List Call → Heap → Option (List Returned × Heap)
  | [], h => some ([], h)
  | c :: cs, h => (c.run h).bind fun (r, h₁) => (run_calls cs h₁).map fun (rs, h₂) => (r :: rs, h₂)

/-- What a call returns on a batch whose error is `e`. -/
def Call.on_err : Call → Error → Returned
  | .next, _ => .next false
  | .finalize, e => .finalize (some e)

theorem Call.run_of_err (c : Call) {h : Heap} {e : Error} (he : h.b.err = some e) :
    c.run h = some (c.on_err e, h) := by
  cases c
  · simp [Call.run, Next, step_of_err (by simp [he] : h.b.err.isSome), Call.on_err]
  · simp [Call.run, Finalize_of_err he, Call.on_err]

theorem run_calls_of_err {h : Heap} {e : Error} (he : h.b.err = some e) :
    ∀ cs : List Call, run_calls cs h = some (cs.map (·.on_err e), h)
  | [] => rfl
  | c :: cs => by simp [run_calls, c.run_of_err he, run_calls_of_err he cs]

/-- Once a call has returned with the batch's error `e` set, later calls
answer at once; within the call, what follows an error record keeps it. -/
theorem batch_error_is_kept (cs : List Call) (h : Heap) (e : Error) (herr : h.b.err = some e)
    (o : stepOption) (h' : Heap) {enc : Bytes} {info : Error_info}
    (hdec : Decodes Read_Error_info enc info) (infos : List Info) {encI : Bytes}
    (hI : encode_infos infos = some encI) (rc : Int64) :
    run_calls cs h = some (cs.map (·.on_err e), h) ∧
      Exits o h' (AppendUint8 [] RESTYP_ERROR ++ enc ++
          (encI ++ (AppendUint8 [] RESTYP_BATCH_END ++ AppendInt64 [] rc))) .batch_end
        (((h'.with_error info).with_exec (exec_after infos h'.b.execRecordCount)).batch_end rc) :=
  ⟨run_calls_of_err herr cs, (error_continues hdec).exits ((infos_continue infos hI).exits (batch_end_exits rc))⟩

theorem batch_error_is_kept_eof :
    run_calls [.next, .finalize] ⟨{ err := some .eof }, .fresh []⟩ =
        some ([.next false, .finalize (some .eof)], ⟨{ err := some .eof }, .fresh []⟩) ∧
      Exits .sTEP_NEXT_RECORD ⟨{}, .fresh []⟩ (AppendUint8 [] RESTYP_ERROR ++ AppendMapHeader [] 0 ++
          ([] ++ (AppendUint8 [] RESTYP_BATCH_END ++ AppendInt64 [] 0))) .batch_end
        (((Heap.with_error ⟨{}, .fresh []⟩ {}).with_exec (exec_after [] 0)).batch_end 0) :=
  batch_error_is_kept [.next, .finalize] _ .eof rfl .sTEP_NEXT_RECORD ⟨{}, .fresh []⟩ Read_Error_info_empty
    [] rfl 0

theorem RECORD_FINISHED_mismatch_fails {o : stepOption} {h : Heap} {n : Int64} (hn : n ≠ h.b.recordCount)
    (rest sc₀ : Bytes) :
    ∃ sc, loop o (h.set_mr ⟨AppendUint8 [] RESTYP_RECORD_FINISHED ++ AppendInt64 [] n ++ rest, sc₀⟩) =
      some (.failed (.recordcount_mismatch n h.b.recordCount),
        (h.failed (.recordcount_mismatch n h.b.recordCount)).set_mr ⟨rest, sc⟩) := by
  obtain ⟨sc₁, hr⟩ := ReadUint8_AppendUint8 RESTYP_RECORD_FINISHED (AppendInt64 [] n ++ rest) sc₀
  obtain ⟨sc, hi⟩ := ReadInt64_AppendInt64 n rest sc₁
  have hc : case_body RESTYP_RECORD_FINISHED = on_RECORD_FINISHED := rfl
  have hm : (message o).run (h.set_mr ⟨AppendUint8 [] RESTYP_RECORD_FINISHED ++ AppendInt64 [] n ++ rest, sc₀⟩) =
      .error (.recordcount_mismatch n h.b.recordCount) (h.set_mr ⟨rest, sc⟩) := by
    rw [List.append_assoc]
    simp only [message, handle_eq, hc, on_RECORD_FINISHED, on_session, Read_response_type, Read_int64, run_bind,
      run_lift, Heap.set_mr_mr, hr, hi, run_get, Heap.set_mr_b, Heap.set_mr_set_mr, ne_eq, hn, not_false_eq_true,
      if_true, run_throw]
  exact ⟨sc, loop_of_error hm⟩

/-- Within the call that reads an error record the loop reads on, and what
it reads can still change the batch. -/
theorem error_record_not_terminal (h : Heap) (herr : h.b.err = none) (e₁ e₂ : ErrorRecord) (r : Row)
    {er : Bytes} (hr : r.encode = some er)
    (fit : List.Forall₂ (fun f v => v.fits f.column = true) h.b.record r.vals) (o : stepOption) (n : Int64)
    (hn : n ≠ h.b.recordCount) (rest sc₀ : Bytes) :
    (∃ (h' : Heap) (sc : Bytes), Next (h.set_mr ⟨AppendUint8 [] RESTYP_ERROR ++ e₁.enc ++ er ++ rest, sc₀⟩) =
        some (true, h'.set_mr ⟨rest, sc⟩) ∧ h'.b.err = some (.batch e₁.batch_error) ∧
        h'.b.record = List.zipWith (fun f v => f.column.filled v) h.b.record r.vals ∧
        RecordCount h'.b = h.b.recordCount + 1) ∧
    (∃ sc, loop o (h.set_mr ⟨AppendUint8 [] RESTYP_ERROR ++ e₁.enc ++ (AppendUint8 [] RESTYP_ERROR ++ e₂.enc) ++ rest,
        sc₀⟩) = loop o ((h.with_error e₂.info).set_mr ⟨rest, sc⟩)) ∧
    ∃ sc, loop o (h.set_mr ⟨AppendUint8 [] RESTYP_ERROR ++ e₁.enc ++
        (AppendUint8 [] RESTYP_RECORD_FINISHED ++ AppendInt64 [] n) ++ rest, sc₀⟩) =
      some (.failed (.recordcount_mismatch n h.b.recordCount),
        (h.failed (.recordcount_mismatch n h.b.recordCount)).set_mr ⟨rest, sc⟩) := by
  refine ⟨?_, (error_continues e₁.decodes).trans (error_continues e₂.decodes) rest sc₀, ?_⟩
  · obtain ⟨sc, hl⟩ := (error_continues e₁.decodes).exits (row_exits hr fit) rest sc₀
    have hN := Next_of_loop (h := h.set_mr ⟨AppendUint8 [] RESTYP_ERROR ++ e₁.enc ++ er ++ rest, sc₀⟩) herr hl
    exact ⟨_, sc, hN, by simp [Heap.filled, Heap.with_exec, Heap.with_error], rfl,
      by simp [RecordCount, Heap.filled, Heap.with_exec, Heap.with_error]⟩
  · obtain ⟨sc₁, hc⟩ := (error_continues (o := o) (h := h) e₁.decodes)
      (AppendUint8 [] RESTYP_RECORD_FINISHED ++ AppendInt64 [] n ++ rest) sc₀
    obtain ⟨sc, hf⟩ := RECORD_FINISHED_mismatch_fails (o := o) (h := h.with_error e₁.info) hn rest sc₁
    exact ⟨sc, by rw [List.append_assoc _ (AppendUint8 [] RESTYP_RECORD_FINISHED ++ _), hc, hf]; rfl⟩

theorem error_record_not_terminal_state :
    (∃ (h' : Heap) (sc : Bytes), Next (Heap.set_mr ⟨{}, .fresh []⟩ ⟨AppendUint8 [] RESTYP_ERROR ++ AppendMapHeader [] 0 ++
          [4, 0x90] ++ [], []⟩) = some (true, h'.set_mr ⟨[], sc⟩) ∧
        h'.b.err = some (.batch {}) ∧ h'.b.record = [] ∧ RecordCount h'.b = 0 + 1) ∧
    (∃ sc, loop .sTEP_NEXT_RECORD (Heap.set_mr ⟨{}, .fresh []⟩ ⟨AppendUint8 [] RESTYP_ERROR ++
        AppendMapHeader [] 0 ++ (AppendUint8 [] RESTYP_ERROR ++ [0x81, 0xa5] ++ ascii "state" ++ [2]) ++ [], []⟩) =
      loop .sTEP_NEXT_RECORD ((Heap.with_error ⟨{}, .fresh []⟩ { state := 2 }).set_mr ⟨[], sc⟩)) ∧
    ∃ sc, loop .sTEP_NEXT_RECORD (Heap.set_mr ⟨{}, .fresh []⟩ ⟨AppendUint8 [] RESTYP_ERROR ++
        AppendMapHeader [] 0 ++ (AppendUint8 [] RESTYP_RECORD_FINISHED ++ AppendInt64 [] 1) ++ [], []⟩) =
      some (.failed (.recordcount_mismatch 1 0), (Heap.failed ⟨{}, .fresh []⟩ (.recordcount_mismatch 1 0)).set_mr
        ⟨[], sc⟩) :=
  error_record_not_terminal ⟨{}, .fresh []⟩ rfl ⟨[], AppendMapHeader [] 0, rfl⟩
    ⟨[.state 2], [0x81, 0xa5] ++ ascii "state" ++ [2], rfl⟩ ⟨[], []⟩ rfl .nil .sTEP_NEXT_RECORD 1 (by decide) [] []

/-- Execute reads to BATCH_END; a later Next reads the session again, here
a second BATCH_END, and takes its rc. -/
theorem Next_reads_after_BATCH_END :
    ∃ b c h, Execute (.fresh [14, 0, 14, 5]) [] = some ⟨some b, none, c⟩ ∧ b.status = sTATUS_BATCH_END ∧
      Rc b = 0 ∧ c.session.mr.input = [14, 5] ∧ Next ⟨b, c⟩ = some (false, h) ∧ Rc h.b = 5 ∧
      h.conn.session.mr.input = [] := by
  obtain ⟨s', hsend⟩ : ∃ s', Send_batch (Connection.fresh [14, 0, 14, 5]).session [] = some (none, s') :=
    ⟨_, rfl⟩
  obtain ⟨sc, he⟩ := (batch_end_exits 0).run (h := sent_heap _ [] s')
    ((sent_heap_input hsend).trans (show _ = _ ++ [14, 5] from rfl))
  obtain ⟨sc', hn⟩ := (batch_end_exits 5).run (h := ((sent_heap _ [] s').batch_end 0).set_mr ⟨[14, 5], sc⟩)
    (show _ = _ ++ [] from rfl)
  exact ⟨_, _, _, Execute_of_loop rfl hsend he, rfl, rfl, rfl, Next_of_loop rfl hn, rfl, rfl⟩

/-- Next on a batch after its BATCH_END reads the next batch's BATCH_END. -/
theorem Query_dirty_after_two_BATCH_END :
    ∃ bA cA h bB cB, Query (.fresh [14, 0, 14, 0, 3, 0x90, 0x90]) [] = some ⟨some bA, none, cA⟩ ∧
      bA.status = sTATUS_BATCH_END ∧ cA.isDirty = false ∧
      Next ⟨bA, cA⟩ = some (false, h) ∧ h.conn.isDirty = false ∧ h.conn.session.mr.input = [3, 0x90, 0x90] ∧
      Query h.conn [] = some ⟨some bB, none, cB⟩ ∧ cB.isDirty = true ∧ cB.session.mr.input = [] := by
  obtain ⟨s', hsend, hmr, hnet, hd⟩ :=
    Send_batch_reliable (Connection.fresh [14, 0, 14, 0, 3, 0x90, 0x90]).session [] (fun _ => rfl) rfl
      (by decide)
  obtain ⟨sc, hq⟩ := (batch_end_exits (o := .sTEP_NEXT_RECORD) 0).run (h := sent_heap _ [] s')
    ((sent_heap_input hsend).trans (show _ = _ ++ [14, 0, 3, 0x90, 0x90] from rfl))
  let h₁ := ((sent_heap (.fresh [14, 0, 14, 0, 3, 0x90, 0x90]) [] s').batch_end 0).set_mr
    ⟨[14, 0, 3, 0x90, 0x90], sc⟩
  obtain ⟨sc', hn⟩ := (batch_end_exits (o := .sTEP_NEXT_RECORD) 0).run (h := h₁)
    (show _ = _ ++ [3, 0x90, 0x90] from rfl)
  let h₂ := (h₁.batch_end 0).set_mr ⟨[3, 0x90, 0x90], sc'⟩
  obtain ⟨s'', hsend', -⟩ := Send_batch_reliable h₂.conn.session [] (fun n => congrFun hnet n) hd (by decide)
  have hN : append_array (AppendString []) ([] : List Bytes) = some (AppendArrayHeader [] 0) := rfl
  have hL : append_array (fun c => some c.encode) ([] : List Column) = some (AppendArrayHeader [] 0) := rfl
  obtain ⟨sc'', hq'⟩ := (layout_exits hN hL).run (h := sent_heap h₂.conn [] s'')
    ((sent_heap_input hsend').trans (show _ = _ ++ [] from rfl))
  exact ⟨_, _, _, _, _, Query_of_loop rfl hsend hq, rfl, rfl, Next_of_loop rfl hn, rfl, rfl,
    Query_of_loop rfl hsend' hq', rfl, rfl⟩

end Rsql.Drv
