import Rsql.Drv.Batch

/-! Laws of the message loop of step: the loop one turn at a time, what the
cases of the switch keep and how a turn can end the loop, and that
sTEP_FINALIZE reads on exactly where sTEP_NEXT_RECORD returns. -/
namespace Rsql.Drv

open Msgp Rsqlib GoM

variable {o : stepOption} {h h' : Heap}

/-! ### One turn -/

theorem loop_of_continue (hm : (message o).run h = .ok none h') : loop o h = loop o h' := by
  rw [loop]; split <;> simp_all

theorem loop_of_exit {x : Exit} (hm : (message o).run h = .ok (some x) h') :
    loop o h = some (x, h') := by
  rw [loop]; split <;> simp_all

theorem loop_of_error {e : Error} (hm : (message o).run h = .error e h') :
    loop o h = some (.failed e, { h' with b := { h'.b with err := some e } }) := by
  rw [loop]; split <;> simp_all

theorem loop_of_panic {m : String} (hm : (message o).run h = .panic m) : loop o h = none := by
  rw [loop]; split <;> simp_all

theorem step_of_err (he : h.b.err.isSome) : step o h = some (false, h) := by
  simp [step, he]

theorem step_of_no_err (he : h.b.err = none) :
    step o h = (loop o h).map fun (x, h') => (x.value, h') := by
  simp [step, he]

theorem Finalize_of_err {e : Error} (he : h.b.err = some e) : Finalize h = some (some e, h) := by
  simp [Finalize, he]

/-! ### What the cases keep -/

section KeepsErr

theorem on_session_keeps_err {α : Type} (m : ReadM α) : (on_session m).Keeps (·.b.err) :=
  Keeps.lift (by intros; rfl) m

theorem set_b_keeps_err {g : Batch → Batch} (hg : ∀ b, (g b).err = b.err) :
    (set_b g).Keeps (·.b.err) :=
  Keeps.modify (by intro h; exact hg h.b) _

theorem on_RECORD_LAYOUT_keeps_err : on_RECORD_LAYOUT.Keeps (·.b.err) :=
  (on_session_keeps_err _).bind fun _ => (set_b_keeps_err (by intros; rfl)).bind fun _ =>
    (on_session_keeps_err _).bind fun _ => (set_b_keeps_err (by intros; rfl)).bind fun _ =>
    (set_b_keeps_err (by intros; rfl)).bind fun _ => set_b_keeps_err (by intros; rfl)

theorem on_RECORD_keeps_err : on_RECORD.Keeps (·.b.err) :=
  (Keeps.lift (by intros; rfl) _).bind fun _ => set_b_keeps_err (by intros; rfl)

theorem on_RECORD_FINISHED_keeps_err : on_RECORD_FINISHED.Keeps (·.b.err) := by
  refine (on_session_keeps_err _).bind fun n => Keeps.get.bind fun h => ?_
  split
  · exact Keeps.throw _
  · exact (set_b_keeps_err (by intros; rfl)).bind fun _ => set_b_keeps_err (by intros; rfl)

theorem on_EXECUTION_FINISHED_keeps_err : on_EXECUTION_FINISHED.Keeps (·.b.err) :=
  (on_session_keeps_err _).bind fun _ => set_b_keeps_err (by intros; rfl)

theorem on_PRINT_keeps_err : on_PRINT.Keeps (·.b.err) :=
  (on_session_keeps_err _).bind fun _ => Keeps.lift (by intros; rfl) _

theorem on_MESSAGE_keeps_err : on_MESSAGE.Keeps (·.b.err) :=
  (on_session_keeps_err _).bind fun _ => Keeps.pure ()

theorem on_BATCH_END_keeps_err : on_BATCH_END.Keeps (·.b.err) :=
  (on_session_keeps_err _).bind fun _ => (set_b_keeps_err (by intros; rfl)).bind fun _ =>
    Keeps.modify (by intros; rfl) _

/-- An error is only ever recorded by the ERROR case. -/
theorem case_body_keeps_err {resp : UInt8} (hr : resp ≠ RESTYP_ERROR) :
    (case_body resp).Keeps (·.b.err) := by
  unfold case_body
  refine .ite on_RECORD_LAYOUT_keeps_err <| .ite on_RECORD_keeps_err <| .ite on_RECORD_FINISHED_keeps_err <|
    .ite on_EXECUTION_FINISHED_keeps_err <| .ite on_PRINT_keeps_err <| .ite on_MESSAGE_keeps_err ?_
  rw [if_neg hr]
  exact .ite on_BATCH_END_keeps_err (Keeps.panic _)

end KeepsErr

/-! ### How a case ends -/

theorem on_RECORD_LAYOUT_ends :
    on_RECORD_LAYOUT.Ends fun _ h => h.b.status = sTATUS_RECORD_LAYOUT_AVAILABLE :=
  Ends.bind fun _ => Ends.bind fun _ => Ends.bind fun _ => Ends.bind fun _ => Ends.bind fun _ =>
    Ends.modify (by intros; rfl) _

theorem on_RECORD_ends : on_RECORD.Ends fun _ h => h.b.status = sTATUS_RECORD_AVAILABLE :=
  Ends.bind fun _ => Ends.modify (by intros; rfl) _

theorem on_BATCH_END_ends :
    on_BATCH_END.Ends fun _ h => h.b.status = sTATUS_BATCH_END ∧ h.conn.isDirty = false := by
  refine Ends.bind fun _ s a s' hm => ?_
  simp only [set_b, run_bind, run_modify] at hm
  cases hm
  exact ⟨rfl, rfl⟩

theorem on_ERROR_ends : on_ERROR.Ends fun _ h => ∃ be, h.b.err = some (.batch be) :=
  Ends.bind fun info => Ends.modify (by intros; exact ⟨newBatchError info, rfl⟩) _

/-! ### How a turn ends -/

theorem message_ok {x : Option Exit} (hm : (message o).run h = .ok x h') :
    ∃ resp h₁, (on_session Read_response_type).run h = .ok resp h₁ ∧
      (case_body resp).run h₁ = .ok () h' ∧ case_exit o resp = x := by
  obtain ⟨resp, h₁, hr, hh⟩ := bind_eq_ok hm
  rw [handle_eq] at hh
  obtain ⟨_, h₂, hb, hp⟩ := bind_eq_ok hh
  cases hp
  exact ⟨resp, h₁, hr, hb, rfl⟩

theorem case_exit_eq_some {resp : UInt8} {x : Exit} (hx : case_exit o resp = some x) :
    (resp = RESTYP_BATCH_END ∧ x = .batch_end) ∨
    (o = .sTEP_NEXT_RECORD ∧ (resp = RESTYP_RECORD_LAYOUT ∧ x = .ret false ∨
      resp = RESTYP_RECORD ∧ x = .ret true)) := by
  unfold case_exit at hx
  split_ifs at hx <;> cases hx <;> simp_all

/-- sTEP_FINALIZE goes round the loop where sTEP_NEXT_RECORD returns a row. -/
theorem case_exit_finalize (resp : UInt8) : case_exit .sTEP_FINALIZE resp =
    match case_exit .sTEP_NEXT_RECORD resp with
    | some (.ret _) => none
    | x => x := by
  unfold case_exit
  split_ifs <;> simp_all

/-- The errors a run of the loop can leave in b.err: the one it started
with, or an error record of the server. -/
def err_from (e₀ e : Option Error) : Prop := e = e₀ ∨ ∃ be, e = some (.batch be)

theorem err_from.trans {e₀ e₁ e₂ : Option Error} (h₁ : err_from e₀ e₁) (h₂ : err_from e₁ e₂) :
    err_from e₀ e₂ := by
  rcases h₂ with rfl | h₂
  · exact h₁
  · exact .inr h₂

theorem message_err_from {x : Option Exit} (hm : (message o).run h = .ok x h') :
    err_from h.b.err h'.b.err := by
  obtain ⟨resp, h₁, hr, hb, -⟩ := message_ok hm
  have e₁ : h₁.b.err = h.b.err := by simpa [hr] using on_session_keeps_err Read_response_type h
  by_cases he : resp = RESTYP_ERROR
  · subst he
    exact .inr (on_ERROR_ends _ _ _ (by simpa [case_body] using hb))
  · have e₂ := case_body_keeps_err he h₁
    rw [hb] at e₂
    exact .inl (e₂.trans e₁)

/-- What holds where the loop ends, by how it ends. -/
def exit_post (o : stepOption) (e₀ : Option Error) : Exit → Heap → Prop
  | .ret _, h => o = .sTEP_NEXT_RECORD ∧ err_from e₀ h.b.err ∧
      (h.b.status = sTATUS_RECORD_LAYOUT_AVAILABLE ∨ h.b.status = sTATUS_RECORD_AVAILABLE)
  | .batch_end, h => h.b.status = sTATUS_BATCH_END ∧ h.conn.isDirty = false
  | .failed e, h => h.b.err = some e

theorem message_exit_post {x : Exit} (hm : (message o).run h = .ok (some x) h') :
    exit_post o h.b.err x h' := by
  obtain ⟨resp, h₁, -, hb, hx⟩ := message_ok hm
  rcases case_exit_eq_some hx with ⟨rfl, rfl⟩ | ⟨rfl, ⟨rfl, rfl⟩ | ⟨rfl, rfl⟩⟩
  · exact on_BATCH_END_ends _ _ _ (by simpa [case_body] using hb)
  · exact ⟨rfl, message_err_from hm, .inl (on_RECORD_LAYOUT_ends _ _ _ (by simpa [case_body] using hb))⟩
  · exact ⟨rfl, message_err_from hm, .inr (on_RECORD_ends _ _ _ (by simpa [case_body] using hb))⟩

theorem exit_post.weaken {e₀ e₁ : Option Error} {x : Exit} (he : err_from e₀ e₁)
    (hp : exit_post o e₁ x h) : exit_post o e₀ x h := by
  cases x with
  | ret v => exact ⟨hp.1, he.trans hp.2.1, hp.2.2⟩
  | batch_end => exact hp
  | failed e => exact hp

theorem loop_exit_post {x : Exit} (hl : loop o h = some (x, h')) : exit_post o h.b.err x h' := by
  induction' hn : (HasStream.unread h).length using Nat.strong_induction_on with n ih generalizing h
  cases hm : (message o).run h with
  | ok y h₁ =>
    cases y with
    | none =>
      rw [loop_of_continue hm] at hl
      exact (ih _ (hn ▸ message_consumes o _ _ _ hm) hl rfl).weaken (message_err_from hm)
    | some y =>
      rw [loop_of_exit hm, Option.some.injEq, Prod.mk.injEq] at hl
      obtain ⟨rfl, rfl⟩ := hl
      exact message_exit_post hm
  | error e h₁ =>
    rw [loop_of_error hm, Option.some.injEq, Prod.mk.injEq] at hl
    obtain ⟨rfl, rfl⟩ := hl
    rfl
  | panic m => simp [loop_of_panic hm] at hl

/-! ### The dirty flag -/

section KeepsDirty

theorem on_session_keeps_dirty {α : Type} (m : ReadM α) : (on_session m).Keeps (·.conn.isDirty) :=
  Keeps.lift (by intros; rfl) m

theorem set_b_keeps_dirty (g : Batch → Batch) : (set_b g).Keeps (·.conn.isDirty) := fun _ => rfl

/-- Only the BATCH_END case clears the dirty flag. -/
theorem case_body_keeps_dirty {resp : UInt8} (hr : resp ≠ RESTYP_BATCH_END) :
    (case_body resp).Keeps (·.conn.isDirty) := by
  unfold case_body
  refine .ite ?_ <| .ite ?_ <| .ite ?_ <| .ite ?_ <| .ite ?_ <| .ite ?_ <| .ite ?_ ?_
  · exact (on_session_keeps_dirty _).bind fun _ => (set_b_keeps_dirty _).bind fun _ =>
      (on_session_keeps_dirty _).bind fun _ => (set_b_keeps_dirty _).bind fun _ =>
      (set_b_keeps_dirty _).bind fun _ => set_b_keeps_dirty _
  · exact (Keeps.lift (by intros; rfl) _).bind fun _ => set_b_keeps_dirty _
  · refine (on_session_keeps_dirty _).bind fun _ => Keeps.get.bind fun _ => ?_
    split
    · exact Keeps.throw _
    · exact (set_b_keeps_dirty _).bind fun _ => set_b_keeps_dirty _
  · exact (on_session_keeps_dirty _).bind fun _ => set_b_keeps_dirty _
  · exact (on_session_keeps_dirty _).bind fun _ => Keeps.lift (by intros; rfl) _
  · exact (on_session_keeps_dirty _).bind fun _ => Keeps.pure ()
  · exact (on_session_keeps_dirty _).bind fun _ => set_b_keeps_dirty _
  · rw [if_neg hr]
    exact Keeps.panic _

theorem message_keeps_dirty {y : Option Exit} (hm : (message o).run h = .ok y h')
    (hy : y ≠ some .batch_end) : h'.conn.isDirty = h.conn.isDirty := by
  obtain ⟨resp, h₁, hr, hb, hx⟩ := message_ok hm
  have hne : resp ≠ RESTYP_BATCH_END := by
    rintro rfl
    exact hy (hx.symm.trans (by cases o <;> rfl))
  have e₁ : h₁.conn.isDirty = h.conn.isDirty := by simpa [hr] using on_session_keeps_dirty Read_response_type h
  have e₂ := case_body_keeps_dirty hne h₁
  rw [hb] at e₂
  exact e₂.trans e₁

/-- A run of the loop that returns a row or a layout leaves the dirty flag
as it found it. -/
theorem loop_keeps_dirty {v : Bool} (hl : loop o h = some (.ret v, h')) : h'.conn.isDirty = h.conn.isDirty := by
  induction' hn : (HasStream.unread h).length using Nat.strong_induction_on with n ih generalizing h
  cases hm : (message o).run h with
  | ok y h₁ =>
    cases y with
    | none =>
      rw [loop_of_continue hm] at hl
      exact (ih _ (hn ▸ message_consumes o _ _ _ hm) hl rfl).trans (message_keeps_dirty hm nofun)
    | some y =>
      rw [loop_of_exit hm, Option.some.injEq, Prod.mk.injEq] at hl
      obtain ⟨rfl, rfl⟩ := hl
      exact message_keeps_dirty hm nofun
  | error e h₁ => simp [loop_of_error hm] at hl
  | panic m => simp [loop_of_panic hm] at hl

end KeepsDirty

/-! ### sTEP_FINALIZE against sTEP_NEXT_RECORD -/

theorem message_finalize (h : Heap) : (message .sTEP_FINALIZE).run h =
    match (message .sTEP_NEXT_RECORD).run h with
    | .ok (some (.ret _)) h' => .ok none h'
    | r => r := by
  simp only [message, handle_eq, run_bind, run_pure]
  cases (on_session Read_response_type).run h with
  | ok resp h₁ =>
    dsimp only
    cases (case_body resp).run h₁ with
    | ok _ h₂ =>
      dsimp only
      rw [case_exit_finalize]
      rcases case_exit .sTEP_NEXT_RECORD resp with _ | (_ | _ | _) <;> rfl
    | error => rfl
    | panic => rfl
  | error => rfl
  | panic => rfl

/-- The FINALIZE loop is the NEXT_RECORD loop, gone on from each row it returns. -/
theorem loop_finalize (h : Heap) : loop .sTEP_FINALIZE h =
    match loop .sTEP_NEXT_RECORD h with
    | some (.ret _, h') => loop .sTEP_FINALIZE h'
    | r => r := by
  induction' hn : (HasStream.unread h).length using Nat.strong_induction_on with n ih generalizing h
  have hf := message_finalize h
  cases hm : (message .sTEP_NEXT_RECORD).run h with
  | ok y h₁ =>
    rw [hm] at hf
    rcases y with _ | (_ | _ | _)
    · rw [loop_of_continue hf, loop_of_continue hm]
      exact ih _ (hn ▸ message_consumes _ _ _ _ hm) h₁ rfl
    · rw [loop_of_continue hf, loop_of_exit hm]
    · rw [loop_of_exit hf, loop_of_exit hm]
    · rw [loop_of_exit hf, loop_of_exit hm]
  | error e h₁ =>
    rw [hm] at hf
    rw [loop_of_error hf, loop_of_error hm]
  | panic m =>
    rw [hm] at hf
    rw [loop_of_panic hf, loop_of_panic hm]

end Rsql.Drv
