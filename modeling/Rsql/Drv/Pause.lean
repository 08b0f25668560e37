import Rsql.Drv.Cursor

/-! Reading a batch row by row and then finalizing it, against Execute. The
two differ only where step returns a row after it has read an error record:
Finalize then finds b.err set and stops, where Execute's loop reads on. -/
namespace Rsql.Drv

open Msgp Rsqlib GoM

/-- Up to `k` calls of Next, each made while err is nil and status is not
BATCH_END. -/
def next_calls : Nat → Heap → Option Heap
  | 0, h => some h
  | k + 1, h =>
    if h.b.err = none ∧ h.b.status ≠ sTATUS_BATCH_END then (Next h).bind fun (_, h') => next_calls k h'
    else some h

/-- Query, then up to `k` calls of Next made while err is nil and status is
not BATCH_END, then Finalize. -/
def query_next_finalize (k : Nat) (conn : Connection) (text : Bytes) : Option Created :=
  (Query conn text).bind fun c => match c.b with
    | none => some c
    | some b => ((next_calls k ⟨b, c.conn⟩).bind Finalize).map fun (_, h) => ⟨some h.b, h.b.err, h.conn⟩

variable {h : Heap}

theorem next_calls_of_stopped (k : Nat) (hs : ¬(h.b.err = none ∧ h.b.status ≠ sTATUS_BATCH_END)) :
    next_calls k h = some h := by
  cases k <;> simp [next_calls, hs]

theorem Finalize_of_ended (hs : h.b.status = sTATUS_BATCH_END) : Finalize h = some (h.b.err, h) := by
  cases he : h.b.err <;> simp [Finalize, he, hs]

/-- What Finalize reports after the FINALIZE loop. -/
def finalized (r : Exit × Heap) : Option Error × Heap := (r.2.b.err, r.2)

theorem Finalize_of_running (he : h.b.err = none) (hs : h.b.status ≠ sTATUS_BATCH_END) :
    Finalize h = (loop .sTEP_FINALIZE h).map finalized := by
  simp [Finalize, he, hs, step_of_no_err he, Option.map_map, Function.comp_def]
  rfl

theorem Execute_of_loop {conn : Connection} {text : Bytes} {session' : Session} {x : Exit} {h' : Heap}
    (hclean : conn.isDirty = false) (hsend : Send_batch conn.session text = some (none, session'))
    (hl : loop .sTEP_FINALIZE (sent_heap conn text session') = some (x, h')) :
    Execute conn text = some ⟨some h'.b, h'.b.err, h'.conn⟩ := by
  simp only [Execute, send_then, hclean, Bool.false_eq_true, if_false, hsend]
  change Option.map _ (Finalize (sent_heap conn text session')) = _
  rw [Finalize_of_running rfl (show sTATUS_BATCH_SENT ≠ sTATUS_BATCH_END by decide), hl]
  rfl

/-- Where Query leaves an error, Finalize returns it at once. -/
theorem query_next_finalize_zero_of_err {conn : Connection} {text : Bytes} {b : Batch} {c : Connection}
    (hq : Query conn text = some ⟨some b, none, c⟩) (he : b.err.isSome) :
    query_next_finalize 0 conn text = some ⟨some b, b.err, c⟩ := by
  simp [query_next_finalize, hq, next_calls, Finalize, he]

theorem status_ne_end_of_row {s : Nat}
    (hs : s = sTATUS_RECORD_LAYOUT_AVAILABLE ∨ s = sTATUS_RECORD_AVAILABLE) : s ≠ sTATUS_BATCH_END := by
  rcases hs with rfl | rfl <;> decide

theorem Next_bind {α : Type} (he : h.b.err = none) (f : Heap → Option α) :
    ((Next h).bind fun (_, h₁) => f h₁) = (loop .sTEP_NEXT_RECORD h).bind fun (_, h₁) => f h₁ := by
  rw [Next, step_of_no_err he]
  cases loop .sTEP_NEXT_RECORD h <;> rfl

/-- Where the loop ended at BATCH_END or on an error, no Next call is made
and Finalize reports b.err. -/
theorem ended_next_calls_Finalize {o : stepOption} {e₀ : Option Error} (k : Nat) {x : Exit}
    {h₁ : Heap} (hx : ∀ v, x ≠ .ret v) (post : exit_post o e₀ x h₁) :
    (next_calls k h₁).bind Finalize = some (finalized (x, h₁)) := by
  cases x with
  | ret v => exact absurd rfl (hx v)
  | batch_end =>
    rw [next_calls_of_stopped k (by simp [post.1]), Option.some_bind, Finalize_of_ended post.1]; rfl
  | failed e =>
    have post : h₁.b.err = some e := post
    rw [next_calls_of_stopped k (by simp [post]), Option.some_bind, Finalize_of_err post]
    simp [finalized, post]

/-- The first Next call, given what the later calls and Finalize do from a
returned row or layout. -/
theorem Next_next_calls_Finalize (k : Nat)
    (row : ∀ h₁ : Heap, h₁.b.err = none → h₁.b.status ≠ sTATUS_BATCH_END → h₁.conn.isDirty = true →
      (next_calls k h₁).bind Finalize = (loop .sTEP_FINALIZE h₁).map finalized ∨
      ∃ h₂ be, next_calls k h₁ = some h₂ ∧ h₂.b.err = some (.batch be) ∧ h₂.b.status ≠ sTATUS_BATCH_END ∧
        h₂.conn.isDirty = true ∧ loop .sTEP_FINALIZE h₁ = loop .sTEP_FINALIZE h₂)
    (h : Heap) (he : h.b.err = none) (hd : h.conn.isDirty = true) :
    (((Next h).bind fun (_, h₁) => next_calls k h₁).bind Finalize) = (loop .sTEP_FINALIZE h).map finalized ∨
    ∃ h₂ be, ((Next h).bind fun (_, h₁) => next_calls k h₁) = some h₂ ∧ h₂.b.err = some (.batch be) ∧
      h₂.b.status ≠ sTATUS_BATCH_END ∧ h₂.conn.isDirty = true ∧
      loop .sTEP_FINALIZE h = loop .sTEP_FINALIZE h₂ := by
  rw [Next_bind he, loop_finalize]
  rcases hl : loop .sTEP_NEXT_RECORD h with _ | ⟨x, h₁⟩
  · exact .inl rfl
  have post := loop_exit_post hl
  rw [he] at post
  simp only [Option.some_bind]
  cases x with
  | ret v =>
    have hd₁ : h₁.conn.isDirty = true := (loop_keeps_dirty hl).trans hd
    obtain ⟨-, herr | ⟨be, hbe⟩, hrow⟩ := post
    · exact row h₁ herr (status_ne_end_of_row hrow) hd₁
    · exact .inr ⟨h₁, be, next_calls_of_stopped k (by simp [hbe]), hbe, status_ne_end_of_row hrow, hd₁, rfl⟩
  | batch_end => exact .inl (ended_next_calls_Finalize k (fun _ => nofun) post)
  | failed e => exact .inl (ended_next_calls_Finalize k (fun _ => nofun) post)

/-- Next calls and Finalize against one FINALIZE loop. -/
theorem next_calls_Finalize (k : Nat) : ∀ h : Heap, h.b.err = none → h.conn.isDirty = true →
    (((Next h).bind fun (_, h₁) => next_calls k h₁).bind Finalize) = (loop .sTEP_FINALIZE h).map finalized ∨
    ∃ h₂ be, ((Next h).bind fun (_, h₁) => next_calls k h₁) = some h₂ ∧ h₂.b.err = some (.batch be) ∧
      h₂.b.status ≠ sTATUS_BATCH_END ∧ h₂.conn.isDirty = true ∧
      loop .sTEP_FINALIZE h = loop .sTEP_FINALIZE h₂ := by
  induction k with
  | zero =>
    refine Next_next_calls_Finalize 0 fun h₁ herr hs _ => .inl ?_
    simp [next_calls, Finalize_of_running herr hs]
  | succ k ih =>
    refine Next_next_calls_Finalize (k + 1) fun h₁ herr hs hd => ?_
    rw [next_calls, if_pos ⟨herr, hs⟩]
    exact ih h₁ herr hd

/-- Query, up to `k` Next calls and Finalize end as Execute does, or they
part where a call returned a row or a layout after an error record. -/
theorem query_next_finalize_eq_Execute (k : Nat) (conn : Connection) (text : Bytes) :
    query_next_finalize k conn text = Execute conn text ∨
    ∃ c b h be, Query conn text = some c ∧ c.b = some b ∧ next_calls k ⟨b, c.conn⟩ = some h ∧
      h.b.err = some (.batch be) ∧ h.b.status ≠ sTATUS_BATCH_END ∧ h.conn.isDirty = true ∧
      query_next_finalize k conn text = some ⟨some h.b, some (.batch be), h.conn⟩ ∧
      Execute conn text = (loop .sTEP_FINALIZE h).map fun (_, h') => ⟨some h'.b, h'.b.err, h'.conn⟩ := by
  by_cases hdirty : conn.isDirty
  · exact .inl (by simp [query_next_finalize, Execute, Query, send_then, hdirty])
  rcases hs : Send_batch conn.session text with _ | ⟨_ | e, session⟩
  · exact .inl (by simp [query_next_finalize, Execute, Query, send_then, hdirty, hs])
  · have hrun : Execute conn text = (Finalize ⟨{ text := text, status := sTATUS_BATCH_SENT },
        { conn with isDirty := true, session := session }⟩).map fun (_, h') => ⟨some h'.b, h'.b.err, h'.conn⟩ := by
      simp [Execute, send_then, hdirty, hs]
    rw [Finalize_of_running rfl (show sTATUS_BATCH_SENT ≠ sTATUS_BATCH_END by decide)] at hrun
    rcases next_calls_Finalize k ⟨{ text := text, status := sTATUS_BATCH_SENT },
        { conn with isDirty := true, session := session }⟩ rfl rfl with heq | ⟨h, be, hn, he, hst, hd, hloop⟩
    · refine .inl ?_
      rw [hrun, ← heq]
      simp only [query_next_finalize, Query, send_then, hdirty, hs, Bool.false_eq_true, if_false]
      cases Next _ <;> rfl
    · obtain ⟨⟨_, h₁⟩, hN, hk⟩ := Option.bind_eq_some.mp hn
      have hk : next_calls k h₁ = some h := hk
      have hq : Query conn text = some ⟨some h₁.b, none, h₁.conn⟩ := by
        simp only [Query, send_then, hdirty, hs, Bool.false_eq_true, if_false]
        rw [hN]
        rfl
      refine .inr ⟨_, h₁.b, h, be, hq, rfl, hk, he, hst, hd, ?_, by rw [hrun, hloop, Option.map_map]; rfl⟩
      simp only [query_next_finalize, hq, Option.some_bind]
      rw [show (⟨h₁.b, h₁.conn⟩ : Heap) = h₁ from rfl, hk, Option.some_bind, Finalize_of_err he]
      simp [he]
  · exact .inl (by simp [query_next_finalize, Execute, Query, send_then, hdirty, hs])

/-- Query, two Next calls and Finalize over a recordset with one row, as
Execute reads it. -/
theorem query_next_finalize_eq_Execute_rows :
    query_next_finalize 2 (.fresh (five_stream ++ [14, 0])) [] = Execute (.fresh (five_stream ++ [14, 0])) [] := by
  refine (query_next_finalize_eq_Execute 2 _ []).resolve_right ?_
  rintro ⟨c, b, h, be, hq, hb, hn, he, -⟩
  obtain ⟨s', hsend⟩ : ∃ s', Send_batch (Connection.fresh (five_stream ++ [14, 0])).session [] =
    some (none, s') := ⟨_, by rfl⟩
  have hN : append_array (AppendString []) [[0x61]] = some [0x91, 0xa1, 0x61] := rfl
  have hL : append_array (fun c => some c.encode) [Column.Int] = some [0x91, 0x91, 12] := rfl
  have hV : append_array Value.encode [Value.int32 5] = some [0x91, 5] := rfl
  obtain ⟨sc₁, hl₁⟩ := (layout_exits hN hL).run (h := sent_heap _ [] s')
    ((sent_heap_input hsend).trans (show _ = _ ++ [4, 0x91, 5, 5, 1, 14, 0] from rfl))
  rw [Query_of_loop rfl hsend hl₁] at hq
  cases hq
  cases hb
  let h₁ := ((sent_heap (.fresh (five_stream ++ [14, 0])) [] s').layout [[0x61]] [Column.new .Int]).set_mr
    ⟨[4, 0x91, 5, 5, 1, 14, 0], sc₁⟩
  have fit : List.Forall₂ (fun f v => v.fits f.column = true) h₁.b.record [Value.int32 5] := .cons rfl .nil
  obtain ⟨sc₂, hl₂⟩ := (record_exits fit hV).run (show _ = _ ++ [5, 1, 14, 0] from rfl)
  obtain ⟨sc₃, hl₃⟩ := ((finished_continues (R := five_set) (h := (h₁.filled [.int32 5]).set_mr ⟨[5, 1, 14, 0], sc₂⟩)
    rfl rfl).exits (batch_end_exits 0)).run (show _ = _ ++ [] from rfl)
  change next_calls 2 h₁ = some h at hn
  rw [next_calls, if_pos ⟨rfl, status_ne_end_of_row (.inl rfl)⟩, Next_of_loop rfl hl₂, Option.some_bind] at hn
  dsimp only at hn
  rw [next_calls, if_pos ⟨rfl, status_ne_end_of_row (.inr rfl)⟩, Next_of_loop rfl hl₃, Option.some_bind] at hn
  dsimp only at hn
  rw [next_calls] at hn
  cases hn
  exact nomatch he

/-- An error record before the first RECORD_LAYOUT: Finalize stops where
Execute reads on. -/
theorem query_next_finalize_stops_at_layout :
    ∃ c₁ c₂, query_next_finalize 0 (.fresh [12, 0x80, 3, 0x90, 0x90, 14, 0]) [] = some c₁ ∧
      Execute (.fresh [12, 0x80, 3, 0x90, 0x90, 14, 0]) [] = some c₂ ∧
      c₁.b.map Batch.status = some sTATUS_RECORD_LAYOUT_AVAILABLE ∧ c₁.conn.isDirty = true ∧
      c₂.b.map Batch.status = some sTATUS_BATCH_END ∧ c₂.conn.isDirty = false := by
  obtain ⟨s', hsend⟩ : ∃ s', Send_batch (Connection.fresh [12, 0x80, 3, 0x90, 0x90, 14, 0]).session [] =
    some (none, s') := ⟨_, rfl⟩
  have hin := sent_heap_input hsend
  have hN : append_array (AppendString []) ([] : List Bytes) = some (AppendArrayHeader [] 0) := rfl
  have hL : append_array (fun c => some c.encode) ([] : List Column) = some (AppendArrayHeader [] 0) := rfl
  obtain ⟨sc, hq⟩ := ((error_continues Read_Error_info_empty).exits (layout_exits hN hL)).run
    (h := sent_heap _ [] s') (hin.trans (show _ = _ ++ [14, 0] from rfl))
  obtain ⟨sc', he⟩ := ((error_continues Read_Error_info_empty).trans (layout_continues hN hL)).exits
    (batch_end_exits 0) |>.run (h := sent_heap _ [] s') (hin.trans (show _ = _ ++ [] from rfl))
  exact ⟨_, _, query_next_finalize_zero_of_err (Query_of_loop rfl hsend hq) rfl,
    Execute_of_loop rfl hsend he, rfl, rfl, rfl, rfl⟩

end Rsql.Drv
