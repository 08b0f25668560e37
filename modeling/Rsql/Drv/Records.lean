import Rsql.Drv.Calls
import Rsql.Drv.Getters

/-! The fields a batch holds come from the wire: the descriptors of
Create_row and the values of read_value. read_value asserts that a BIT is 0
or 1, so every BIT a batch holds is, over any run of Query, Next and
Finalize calls, and on every integer column the text getters agree with
ColInt64. -/
namespace Rsql

namespace GoM

variable {σ α β : Type} [HasStream σ] {P : σ → Prop}

/-- `m` keeps `P` of the objects, whether it returns or fails. -/
def Preserves (P : σ → Prop) (m : GoM σ α) : Prop :=
  ∀ s, P s → match m.run s with
    | .ok _ s' | .error _ s' => P s'
    | .panic _ => True

theorem Preserves.of_keeps {γ : Type} {f : σ → γ} {m : GoM σ α} (hk : m.Keeps f)
    (hP : ∀ s s', f s' = f s → P s → P s') : m.Preserves P := by
  intro s hs
  have h := hk s
  cases e : m.run s <;> simp only [e] at h ⊢
  · exact hP _ _ h hs
  · exact hP _ _ h hs

/-- The second call may rely on what the first returned. -/
theorem Preserves.bind_ends {Q : α → Prop} {x : GoM σ α} {g : α → GoM σ β} (hx : x.Preserves P)
    (he : x.Ends fun a _ => Q a) (hg : ∀ a, Q a → (g a).Preserves P) : (x >>= g).Preserves P := by
  intro s hs
  have h₁ := hx s hs
  rw [run_bind]
  cases e : x.run s with
  | ok a s₁ =>
    rw [e] at h₁
    exact hg a (he s a s₁ e) s₁ h₁
  | error e s₁ =>
    rw [e] at h₁
    exact h₁
  | panic => trivial

theorem Preserves.bind {x : GoM σ α} {g : α → GoM σ β} (hx : x.Preserves P) (hg : ∀ a, (g a).Preserves P) :
    (x >>= g).Preserves P :=
  hx.bind_ends (Q := fun _ => True) (fun _ _ _ _ => trivial) fun a _ => hg a

/-- The objects `get` returns satisfy `P`. -/
theorem Preserves.get_bind {g : σ → GoM σ β} (hg : ∀ s, P s → (g s).Preserves P) : (get >>= g).Preserves P :=
  fun s hs => hg s hs s hs

theorem Preserves.pure (a : α) : (pure a : GoM σ α).Preserves P := fun _ hs => hs

theorem Preserves.throw (e : Error) : (throw e : GoM σ α).Preserves P := fun _ hs => hs

theorem Preserves.panic (m : String) : (panic m : GoM σ α).Preserves P := fun _ _ => trivial

theorem Preserves.modify {g : σ → σ} (hg : ∀ s, P s → P (g s)) (keeps) : (modify g keeps).Preserves P := hg

theorem Preserves.ite {c : Prop} [Decidable c] {m₁ m₂ : GoM σ α} (h₁ : m₁.Preserves P) (h₂ : m₂.Preserves P) :
    (if c then m₁ else m₂).Preserves P := by
  split <;> assumption

theorem Preserves.lift {τ : Type} [HasStream τ] {Q : τ → Prop} {view : σ → τ} {update : τ → σ → σ} {hv hu}
    {m : GoM τ α} (hm : m.Preserves Q) (hview : ∀ s, P s → Q (view s))
    (hupdate : ∀ t s, Q t → P s → P (update t s)) : (lift view update hv hu m).Preserves P := by
  intro s hs
  have h := hm (view s) (hview s hs)
  rw [run_lift]
  cases e : m.run (view s) <;> simp only [e] at h ⊢
  · exact hupdate _ _ h hs
  · exact hupdate _ _ h hs

theorem Ends.pure {Q : α → σ → Prop} (a : α) (hq : ∀ s, Q a s) : (pure a : GoM σ α).Ends Q := by
  intro s b s' h
  cases h
  exact hq s

theorem Ends.throw {Q : α → σ → Prop} (e : Error) : (throw e : GoM σ α).Ends Q := by
  intro s a s' h
  cases h

theorem Ends.ite {Q : α → σ → Prop} {c : Prop} [Decidable c] {m₁ m₂ : GoM σ α} (h₁ : m₁.Ends Q)
    (h₂ : m₂.Ends Q) : (if c then m₁ else m₂).Ends Q := by
  split <;> assumption

/-- What a call returns after an assertion may rely on it. -/
theorem Ends.assert_bind {Q : α → σ → Prop} {c : Bool} {g : Unit → GoM σ α} (hg : c = true → (g ()).Ends Q) :
    (assert c >>= g).Ends Q := by
  intro s a s' h
  cases c
  · cases h
  · exact hg rfl s a s' h

theorem Ends.lift {τ : Type} [HasStream τ] {Q : α → Prop} {view : σ → τ} {update : τ → σ → σ} {hv hu}
    {m : GoM τ α} (hm : m.Ends fun a _ => Q a) : (lift view update hv hu m).Ends fun a _ => Q a := by
  intro s a s' h
  rw [run_lift] at h
  split at h
  · cases h
    exact hm _ _ _ ‹_›
  · cases h
  · cases h

/-- The second call may rely on what the first returned. -/
theorem Ends.bind_of {Q : α → Prop} {R : β → σ → Prop} {x : GoM σ α} {g : α → GoM σ β}
    (hx : x.Ends fun a _ => Q a) (hg : ∀ a, Q a → (g a).Ends R) : (x >>= g).Ends R := by
  intro s b s'' h
  obtain ⟨a, s', h₁, h₂⟩ := bind_eq_ok h
  exact hg a (hx s a s' h₁) s' b s'' h₂

theorem Ends.repeat_n {Q : α → Prop} {m : GoM σ α} (hm : m.Ends fun a _ => Q a) :
    ∀ n, (repeat_n m n).Ends fun as _ => ∀ a ∈ as, Q a
  | 0 => Ends.pure _ fun _ _ h => nomatch h
  | n + 1 => Ends.bind_of hm fun _ ha => Ends.bind_of (Ends.repeat_n hm n) fun _ has =>
    Ends.pure _ fun _ x hx => (List.mem_cons.mp hx).elim (fun h => h ▸ ha) (has x)

end GoM

namespace Rsqlib

open GoM Msgp

theorem new_field_bit_ok : new_field.Ends fun f _ => f.bit_ok = true := by
  unfold new_field
  refine Ends.bind fun _ => Ends.bind fun _ => ?_
  repeat' first
    | exact Ends.throw _
    | exact Ends.pure _ fun _ => rfl
    | refine Ends.ite ?_ ?_
    | refine Ends.bind fun _ => ?_

theorem Create_row_bit_ok : Create_row.Ends fun row _ => ∀ f ∈ row, f.bit_ok = true :=
  Ends.bind fun row_size => Ends.repeat_n new_field_bit_ok row_size.toNat

theorem read_nullable_bit_ok {null : IField} {read : ReadM IField} (hnull : null.bit_ok = true)
    (hread : read.Ends fun f _ => f.bit_ok = true) : (read_nullable null read).Ends fun f _ => f.bit_ok = true :=
  Ends.bind fun _ => Ends.ite (Ends.bind fun _ => Ends.pure _ fun _ => hnull) hread

/-- read_value asserts that a BIT it reads is 0 or 1. -/
theorem read_value_bit_ok (field : IField) : (read_value field).Ends fun f _ => f.bit_ok = true := by
  cases field
  case Void => exact Ends.bind fun _ => Ends.bind fun _ => Ends.bind fun _ => Ends.pure _ fun _ => rfl
  case Bit =>
    refine read_nullable_bit_ok rfl (Ends.bind fun val => Ends.assert_bind fun h => Ends.pure _ fun _ => ?_)
    simpa [IField.bit_ok] using h
  all_goals
    refine read_nullable_bit_ok rfl ?_
    repeat' first
      | exact Ends.pure _ fun _ => rfl
      | refine Ends.bind fun _ => ?_

/-- Every field of the row being filled has its BIT at 0 or 1. -/
def Filling.bits_ok (f : Filling) : Prop := ∀ x ∈ f.row, x.bit_ok = true

theorem on_reader_preserves {α : Type} (m : ReadM α) : (on_reader m).Preserves Filling.bits_ok := by
  unfold on_reader
  refine Preserves.of_keeps (Keeps.lift (f := fun f => f.row) ?_ m) fun _ _ h hs x hx => hs x (h ▸ hx)
  intros
  rfl

theorem fill_fields_preserves : ∀ (done todo : List IField), (∀ x ∈ done, x.bit_ok = true) →
    (∀ x ∈ todo, x.bit_ok = true) → (fill_fields done todo).Preserves Filling.bits_ok
  | _, [], _, _ => Preserves.pure ()
  | done, field :: todo, hd, ht =>
    (on_reader_preserves _).bind_ends (Ends.lift (read_value_bit_ok field)) fun field' hf =>
      (Preserves.modify (fun _ _ x hx => by
        rcases List.mem_append.mp hx with hx | hx
        · exact hd x hx
        · rcases List.mem_cons.mp hx with rfl | hx
          · exact hf
          · exact ht x (List.mem_cons_of_mem _ hx)) _).bind fun _ =>
      fill_fields_preserves _ todo
        (fun x hx => (List.mem_append.mp hx).elim (hd x) fun h => List.mem_singleton.mp h ▸ hf)
        fun x hx => ht x (List.mem_cons_of_mem _ hx)

theorem Fill_row_with_values_preserves : Fill_row_with_values.Preserves Filling.bits_ok :=
  (on_reader_preserves _).bind fun _ => Preserves.get_bind fun f hf =>
    (Preserves.of_keeps (Keeps.assert (f := fun s => s) _) fun _ _ h hs => h ▸ hs).bind fun _ =>
      fill_fields_preserves [] f.row nofun hf

end Rsqlib

namespace Drv

open GoM Msgp Rsqlib

/-- Every BIT the batch holds is 0 or 1. -/
def Heap.bits_ok (h : Heap) : Prop := ∀ f ∈ h.b.record, f.bit_ok = true

theorem preserves_of_keeps_record {α : Type} {m : GoM Heap α} (hk : m.Keeps fun h => h.b.record) :
    m.Preserves Heap.bits_ok :=
  Preserves.of_keeps hk fun _ _ h hs f hf => hs f (h ▸ hf)

theorem on_session_preserves {α : Type} (m : ReadM α) : (on_session m).Preserves Heap.bits_ok := by
  unfold on_session
  refine preserves_of_keeps_record (Keeps.lift ?_ m)
  intros
  rfl

theorem set_b_preserves {g : Batch → Batch} (hg : ∀ b, (∀ f ∈ b.record, f.bit_ok = true) → ∀ f ∈ (g b).record, f.bit_ok = true) :
    (set_b g).Preserves Heap.bits_ok :=
  Preserves.modify (fun h hh => hg h.b hh) _

theorem fill_record_preserves : fill_record.Preserves Heap.bits_ok := by
  unfold fill_record
  exact Preserves.lift Fill_row_with_values_preserves (fun _ hh => hh) fun _ _ ht _ => ht

theorem on_RECORD_LAYOUT_preserves : on_RECORD_LAYOUT.Preserves Heap.bits_ok := by
  refine (on_session_preserves _).bind fun _ => (set_b_preserves fun _ h => ?_).bind fun _ =>
    (on_session_preserves _).bind_ends (Ends.lift Create_row_bit_ok) fun _ hr =>
      (set_b_preserves fun _ _ => ?_).bind fun _ => (set_b_preserves fun _ h => ?_).bind fun _ =>
        set_b_preserves fun _ h => ?_
  all_goals assumption

theorem on_RECORD_preserves : on_RECORD.Preserves Heap.bits_ok := by
  refine fill_record_preserves.bind fun _ => set_b_preserves fun _ h => ?_
  exact h

theorem on_RECORD_FINISHED_preserves : on_RECORD_FINISHED.Preserves Heap.bits_ok := by
  refine (on_session_preserves _).bind fun _ => Preserves.get_bind fun _ _ =>
    .ite (.throw _) ((set_b_preserves fun _ _ f hf => ?_).bind fun _ => set_b_preserves fun _ h => ?_)
  · exact nomatch hf
  · exact h

theorem on_EXECUTION_FINISHED_preserves : on_EXECUTION_FINISHED.Preserves Heap.bits_ok := by
  refine (on_session_preserves _).bind fun _ => set_b_preserves fun _ h => ?_
  exact h

theorem on_PRINT_preserves : on_PRINT.Preserves Heap.bits_ok := by
  refine (on_session_preserves _).bind fun row => ?_
  unfold fill_row
  refine preserves_of_keeps_record (Keeps.lift ?_ _)
  intros
  rfl

theorem on_MESSAGE_preserves : on_MESSAGE.Preserves Heap.bits_ok :=
  (on_session_preserves _).bind fun _ => .pure _

theorem on_ERROR_preserves : on_ERROR.Preserves Heap.bits_ok := by
  refine (on_session_preserves _).bind fun _ => set_b_preserves fun _ h => ?_
  exact h

theorem on_BATCH_END_preserves : on_BATCH_END.Preserves Heap.bits_ok := by
  refine (on_session_preserves _).bind fun _ => (set_b_preserves fun _ h => ?_).bind fun _ =>
    Preserves.modify (fun _ h => ?_) _
  all_goals exact h

theorem message_preserves (o : stepOption) : (message o).Preserves Heap.bits_ok := by
  refine (on_session_preserves _).bind fun resp => ?_
  rw [handle_eq]
  refine Preserves.bind ?_ fun _ => .pure _
  unfold case_body
  exact .ite on_RECORD_LAYOUT_preserves <| .ite on_RECORD_preserves <| .ite on_RECORD_FINISHED_preserves <|
    .ite on_EXECUTION_FINISHED_preserves <| .ite on_PRINT_preserves <| .ite on_MESSAGE_preserves <|
    .ite on_ERROR_preserves <| .ite on_BATCH_END_preserves (.panic _)

theorem loop_preserves {o : stepOption} {h h' : Heap} {x : Exit} (hl : loop o h = some (x, h'))
    (hh : h.bits_ok) : h'.bits_ok := by
  induction' hn : (HasStream.unread h).length using Nat.strong_induction_on with n ih generalizing h
  have hm := message_preserves o h hh
  cases e : (message o).run h with
  | ok y h₁ =>
    rw [e] at hm
    cases y with
    | none =>
      rw [loop_of_continue e] at hl
      exact ih _ (hn ▸ message_consumes o _ _ _ e) hl hm rfl
    | some y =>
      rw [loop_of_exit e, Option.some.injEq, Prod.mk.injEq] at hl
      exact hl.2 ▸ hm
  | error err h₁ =>
    rw [e] at hm
    rw [loop_of_error e, Option.some.injEq, Prod.mk.injEq] at hl
    obtain ⟨-, rfl⟩ := hl
    exact hm
  | panic => simp [loop_of_panic e] at hl

theorem step_preserves {o : stepOption} {h h' : Heap} {v : Bool} (hs : step o h = some (v, h'))
    (hh : h.bits_ok) : h'.bits_ok := by
  unfold Drv.step at hs
  split at hs
  · cases hs
    exact hh
  · obtain ⟨⟨x, h''⟩, hl, he⟩ := Option.map_eq_some'.mp hs
    cases he
    exact loop_preserves hl hh

theorem Call.run_preserves {c : Call} {h h' : Heap} {r : Returned} (hc : c.run h = some (r, h'))
    (hh : h.bits_ok) : h'.bits_ok := by
  cases c with
  | next =>
    obtain ⟨⟨v, h''⟩, hn, he⟩ := Option.map_eq_some'.mp hc
    cases he
    exact step_preserves hn hh
  | finalize =>
    obtain ⟨⟨e, h''⟩, hf, he⟩ := Option.map_eq_some'.mp hc
    cases he
    unfold Finalize at hf
    split at hf
    · cases hf
      exact hh
    split at hf
    · obtain ⟨⟨v, h₁⟩, hs, he⟩ := Option.map_eq_some'.mp hf
      cases he
      exact step_preserves hs hh
    · cases hf
      exact hh

theorem run_calls_preserves : ∀ {cs : List Call} {h h' : Heap} {rs : List Returned},
    run_calls cs h = some (rs, h') → h.bits_ok → h'.bits_ok
  | [], _, _, _, hr, hh => by
    cases hr
    exact hh
  | c :: cs, h, h', rs, hr, hh => by
    obtain ⟨⟨r, h₁⟩, hc, hr⟩ := Option.bind_eq_some.mp hr
    obtain ⟨⟨rs', h₂⟩, hr', he⟩ := Option.map_eq_some'.mp hr
    cases he
    exact run_calls_preserves hr' (Call.run_preserves hc hh)

/-- The batch Query returns holds only BITs of 0 or 1. -/
theorem Query_bits_ok {conn : Connection} {text : Bytes} {c : Created} {b : Batch}
    (hq : Query conn text = some c) (hb : c.b = some b) : Heap.bits_ok ⟨b, c.conn⟩ := by
  unfold Query send_then at hq
  split at hq
  · cases hq
    cases hb
  dsimp only at hq
  split at hq
  · cases hq
  · cases hq
    cases hb
  · obtain ⟨⟨v, h'⟩, hn, he⟩ := Option.map_eq_some'.mp hq
    cases he
    cases hb
    exact step_preserves hn nofun

/-- On a batch Query returns, after any Next and Finalize calls, every
integer column reads the same through ColNumeric as through ColInt64:
ColNumeric is the decimal form of ColInt64's value, empty when the column
is NULL. -/
theorem ColNumeric_after_calls (fmt : Formats) (conn : Connection) (text : Bytes) (c : Created)
    (hq : Query conn text = some c) (b : Batch) (hb : c.b = some b) (cs : List Call) (rs : List Returned)
    (h : Heap) (hr : run_calls cs ⟨b, c.conn⟩ = some (rs, h)) (i : Nat) (f : IField)
    (hf : h.b.record[i]? = some f) (hint : is_integer f = true) :
    ColNumeric fmt h.b i = (ColInt64 h.b i).map fun (val, null) => (if null then [] else FormatInt val, null) :=
  ColNumeric_integer fmt hf hint (run_calls_preserves hr (Query_bits_ok hq hb) f (List.getElem?_mem hf))

/-- A response that describes one INT column "a", then sends a row where it
holds 7. -/
def one_int_response : Bytes := [3, 0x91, 0xa1, 0x61, 0x91, 0x91, 12, 4, 0x91, 0x07]

/-- The session once the empty text is sent on a fresh connection. -/
def one_int_sent : Session :=
  ⟨⟨one_int_response, []⟩, ⟨[160], none, [.write [21], .write [160], .flush]⟩, fun _ => none⟩

def one_int_heap (status : Nat) (record : List IField) (recordCount : Int64) (mr : Reader) : Heap :=
  ⟨{ text := [], status := status, recordsetCount := 1, colnameList := [[0x61]],
      colnameMap := make_colnameMap [[0x61]], record := record, recordCount := recordCount },
    ⟨⟨mr, one_int_sent.mw, fun _ => none⟩, true⟩⟩

/-- The objects after the layout, which Query stops at, and after the row. -/
def one_int_layout_heap : Heap := one_int_heap sTATUS_RECORD_LAYOUT_AVAILABLE [.Int true 0] 0 ⟨[4, 0x91, 0x07], [12]⟩

def one_int_row_heap : Heap := one_int_heap sTATUS_RECORD_AVAILABLE [.Int false 7] 1 ⟨[], [7]⟩

/-- Formats that print nothing: no column here needs them. -/
def no_formats : Formats := ⟨fun _ => [], fun _ _ => []⟩

theorem ColNumeric_after_calls_row :
    Query (.fresh one_int_response) [] = some ⟨some one_int_layout_heap.b, none, one_int_layout_heap.conn⟩ ∧
      run_calls [.next] one_int_layout_heap = some ([.next true], one_int_row_heap) ∧
      one_int_row_heap.b.record[0]? = some (.Int false 7) ∧ is_integer (.Int false 7) = true ∧
      ColNumeric no_formats one_int_row_heap.b 0 =
        (ColInt64 one_int_row_heap.b 0).map fun (val, null) => (if null then [] else FormatInt val, null) := by
  have hsend : Send_batch (Connection.fresh one_int_response).session [] = some (none, one_int_sent) := rfl
  have hm₁ : (message .sTEP_NEXT_RECORD).run (sent_heap (.fresh one_int_response) [] one_int_sent) =
      .ok (some (.ret false)) one_int_layout_heap := rfl
  have hm₂ : (message .sTEP_NEXT_RECORD).run one_int_layout_heap = .ok (some (.ret true)) one_int_row_heap := rfl
  have hq := Query_of_loop rfl hsend (loop_of_exit hm₁)
  have hr : run_calls [.next] one_int_layout_heap = some ([.next true], one_int_row_heap) := by
    simp only [run_calls, Call.run, Next_of_loop rfl (loop_of_exit hm₂)]
    rfl
  exact ⟨hq, hr, rfl, rfl, ColNumeric_after_calls no_formats _ [] _ hq _ rfl [.next] _ _ hr 0 _ rfl rfl⟩

example : ColNumeric no_formats one_int_row_heap.b 0 = .ok (ascii "7", false) := rfl

end Drv

end Rsql
