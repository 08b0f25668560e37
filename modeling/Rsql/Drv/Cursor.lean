import Rsql.Drv.Response

/-! The cursor a batch offers its caller, as an abstract machine over the
recordsets of a response, and the Next calls of the code as a refinement of
it. -/
namespace Rsql.Drv

open Msgp Rsqlib GoM

/-- What the caller sees after a Next call: the row and RecordCount(), or
the end of a recordset with ExistsNextRecordset() and RecordCount(). -/
inductive Seen where
  | row (record : List IField) (count : Int64)
  | done (more : Bool) (count : Int64)

def Seen.value : Seen → Bool
  | .row .. => true
  | .done .. => false

/-- What the caller sees of the batch after a Next call returned `v`. -/
def Seen.of (v : Bool) (b : Batch) : Seen :=
  if v then .row b.record (RecordCount b) else .done (ExistsNextRecordset b) (RecordCount b)

inductive Cursor where
  | at_set (R : Recordset) (i : Nat) (more : List Recordset)
  | ended (count : Int64)

/-- Where the cursor stands once the recordsets before `sets` are read, the
last with `count` rows. -/
def Cursor.enter : List Recordset → Int64 → Cursor
  | R :: more, _ => .at_set R 0 more
  | [], count => .ended count

def Cursor.shown : Cursor → Seen
  | .at_set _ i _ => .done true (BitVec.ofNat 64 i)
  | .ended count => .done false count

def Cursor.next : Cursor → Seen × Cursor
  | .at_set R i more =>
    match R.rows.drop i with
    | r :: _ => (.row (List.zipWith Column.filled R.cols r.vals) (BitVec.ofNat 64 (i + 1)),
        .at_set R (i + 1) more)
    | [] => ((Cursor.enter more (BitVec.ofNat 64 R.rows.length)).shown,
        Cursor.enter more (BitVec.ofNat 64 R.rows.length))
  | .ended count => (.done false count, .ended count)

@[simp] theorem Cursor.shown_value (c : Cursor) : c.shown.value = false := by
  cases c <;> rfl

theorem Cursor.enter_shown (more : List Recordset) (count : Int64) :
    (Cursor.enter more count).shown = .done (!more.isEmpty) (if more.isEmpty then count else 0) := by
  cases more <;> rfl

/-- The rows a recordset shows from its `i`-th on. -/
def rows_seen (cols : List Column) : Nat → List Row → List Seen
  | _, [] => []
  | i, r :: rs => .row (List.zipWith Column.filled cols r.vals) (BitVec.ofNat 64 (i + 1)) :: rows_seen cols (i + 1) rs

theorem rows_seen_length (cols : List Column) : ∀ (i : Nat) (rows : List Row),
    (rows_seen cols i rows).length = rows.length
  | _, [] => rfl
  | i, _ :: rs => congrArg Nat.succ (rows_seen_length cols (i + 1) rs)

/-- What Next calls show over the recordsets `sets`: the rows of each, then
the false return with ExistsNextRecordset() and RecordCount(). -/
def sets_seen : List Recordset → List Seen
  | [] => []
  | R :: more => rows_seen R.cols 0 R.rows ++
      .done (!more.isEmpty) (if more.isEmpty then BitVec.ofNat 64 R.rows.length else 0) :: sets_seen more

/-- `n` Next calls, each with what the caller sees after it. -/
def Nexts : Nat → Heap → Option (List Seen × Heap)
  | 0, h => some ([], h)
  | n + 1, h => (Next h).bind fun (v, h₁) => (Nexts n h₁).map fun (l, h₂) => (Seen.of v h₁.b :: l, h₂)

theorem Nexts_succ {h h₁ : Heap} {v : Bool} (n : Nat) (hn : Next h = some (v, h₁)) :
    Nexts (n + 1) h = (Nexts n h₁).map fun (l, h₂) => (Seen.of v h₁.b :: l, h₂) := by
  rw [Nexts, hn, Option.some_bind]

theorem Nexts_length : ∀ {n : Nat} {h h' : Heap} {l : List Seen}, Nexts n h = some (l, h') → l.length = n
  | 0, _, _, _, hn => by cases hn; rfl
  | n + 1, h, _, _, hn => by
    simp only [Nexts, Option.bind_eq_some, Option.map_eq_some'] at hn
    obtain ⟨_, -, ⟨l, _⟩, hl, he⟩ := hn
    cases he
    rw [List.length_cons, Nexts_length hl]

theorem Nexts_add (m n : Nat) (h : Heap) :
    Nexts (m + n) h = (Nexts m h).bind fun (l, h₁) => (Nexts n h₁).map fun (l', h₂) => (l ++ l', h₂) := by
  induction m generalizing h with
  | zero => simp [Nexts]
  | succ m ih =>
    rw [Nat.succ_add, Nexts, Nexts]
    cases Next h with
    | none => rfl
    | some p => simp [ih, Option.map_bind, Option.bind_map, Function.comp_def]

theorem Nexts_snoc (n : Nat) (h : Heap) : Nexts (n + 1) h =
    (Nexts n h).bind fun (l, h₁) => (Next h₁).map fun (v, h₂) => (l ++ [Seen.of v h₂.b], h₂) := by
  rw [Nexts_add]
  congr 1
  funext ⟨l, h₁⟩
  simp only [Nexts]
  cases Next h₁ <;> rfl

/-- The first `k + 1` of a run of Next calls show the first `k + 1` of what
the run shows, the last of them from the batch they leave. -/
theorem Nexts_take {N : Nat} {h h₁ : Heap} {L : List Seen} (hrun : Nexts N h = some (L, h₁)) {k : Nat}
    (hk : k < N) : ∃ v h', Nexts (k + 1) h = some (L.take (k + 1), h') ∧ L[k]? = some (Seen.of v h'.b) := by
  rw [show N = (k + 1) + (N - (k + 1)) by omega, Nexts_add] at hrun
  obtain ⟨⟨l, h'⟩, hl, hrest⟩ := Option.bind_eq_some.mp hrun
  obtain ⟨⟨l', _⟩, -, he⟩ := Option.map_eq_some'.mp hrest
  cases he
  have hl' := hl
  rw [Nexts_snoc] at hl'
  obtain ⟨⟨l₀, h₀⟩, hl₀, hnext⟩ := Option.bind_eq_some.mp hl'
  obtain ⟨⟨v, h₂⟩, -, he⟩ := Option.map_eq_some'.mp hnext
  cases he
  have hlen := Nexts_length hl₀
  refine ⟨v, h', by rwa [List.take_left' (by simp [hlen])], ?_⟩
  subst hlen
  rw [List.append_assoc, List.getElem?_append_right (Nat.le_refl _), Nat.sub_self, List.singleton_append,
    List.getElem?_cons_zero]

theorem filled_record {record : List IField} {vals : List Value} :
    List.zipWith (fun f v => f.column.filled v) record vals =
      List.zipWith Column.filled (record.map IField.column) vals :=
  (List.zipWith_map_left _ _ _ _).symm

section Refinement

variable (B : Response) (fin rest : Bytes) (F : Int64) (End : Int64 → Heap → Prop)

/-- How the last Next call reads the end `fin` of the response: it returns
false at a heap `End count` describes. -/
def Ending : Prop :=
  ∀ (h : Heap) (sc₀ : Bytes), h.b.err = none → h.conn.isDirty = true →
    (h.b.status = sTATUS_BATCH_SENT ∨ h.b.status = sTATUS_RECORD_END) →
    exec_after B.before_end h.b.execRecordCount = F →
    ∃ x h', loop .sTEP_NEXT_RECORD (h.set_mr ⟨fin ++ rest, sc₀⟩) = some (x, h') ∧ x.value = false ∧
      Seen.of false h'.b = .done false h.b.recordCount ∧ End h.b.recordCount h'

/-- The heaps that stand for a cursor position, when the reader holds the
recordsets of `B`, then its end `fin`, then `rest`. -/
def Holds : Cursor → Heap → Prop
  | .at_set R i more, h => h.b.err = none ∧ h.conn.isDirty = true ∧ h.b.record.map IField.column = R.cols ∧
      h.b.recordCount = BitVec.ofNat 64 i ∧ i ≤ R.rows.length ∧
      exec_after ((R.rows.drop i).flatMap Row.before ++ R.before_finished ++
        (more.flatMap Recordset.infos ++ B.before_end)) h.b.execRecordCount = F ∧
      ∃ et em, R.tail (R.rows.drop i) = some et ∧ append_each Recordset.encode more = some em ∧
        h.conn.session.mr.input = et ++ (em ++ (fin ++ rest))
  | .ended count, h => End count h

variable {B fin rest F End} (hend : Ending B fin rest F End)
include hend

/-- Reading on from the end of a recordset, or from the start: the loop
returns at the next RECORD_LAYOUT, or at the end. -/
theorem enter_refines (sets : List Recordset) {h : Heap} (herr : h.b.err = none) (hd : h.conn.isDirty = true)
    (hs : h.b.status = sTATUS_BATCH_SENT ∨ h.b.status = sTATUS_RECORD_END) {em : Bytes}
    (hem : append_each Recordset.encode sets = some em)
    (hF : exec_after (sets.flatMap Recordset.infos ++ B.before_end) h.b.execRecordCount = F) (sc₀ : Bytes) :
    ∃ x h', loop .sTEP_NEXT_RECORD (h.set_mr ⟨em ++ (fin ++ rest), sc₀⟩) = some (x, h') ∧ x.value = false ∧
      Holds B fin rest F End (Cursor.enter sets h.b.recordCount) h' ∧
      Seen.of false h'.b = (Cursor.enter sets h.b.recordCount).shown := by
  cases sets with
  | nil =>
    cases hem
    obtain ⟨x, h', hl, hx, hseen, hE⟩ := hend h sc₀ herr hd hs (by simpa using hF)
    exact ⟨x, h', hl, hx, hE, hseen⟩
  | cons R more =>
    obtain ⟨eh, et, em', hh, ht, hm, rfl⟩ := encode_sets_cons hem
    obtain ⟨sc, hl⟩ := head_exits (h := h) hh (et ++ (em' ++ (fin ++ rest))) sc₀
    simp only [List.append_assoc] at hl ⊢
    refine ⟨.ret false, _, hl, rfl, ?_, rfl⟩
    simp only [List.flatMap_cons, Recordset.infos, List.append_assoc, exec_after_append] at hF
    refine ⟨herr, hd, by simp [Heap.layout, Function.comp_def], rfl, Nat.zero_le _, ?_, et, em', ht, hm, rfl⟩
    simpa [Heap.layout, exec_after_append] using hF

/-- One Next call in a recordset: the next row, or the end of the
recordset and what follows it. -/
theorem Next_refines {R : Recordset} {i : Nat} {more : List Recordset} {h : Heap}
    (hh : Holds B fin rest F End (.at_set R i more) h) :
    ∃ h', Next h = some ((Cursor.at_set R i more).next.1.value, h') ∧
      Holds B fin rest F End (Cursor.at_set R i more).next.2 h' ∧
      Seen.of (Cursor.at_set R i more).next.1.value h'.b = (Cursor.at_set R i more).next.1 := by
  obtain ⟨herr, hd, hcols, hcount, hi, hF, et, em, ht, hm, hin⟩ := hh
  rw [Next, step_of_no_err herr]
  cases hdrop : R.rows.drop i with
  | cons r rs =>
    rw [hdrop] at ht hF
    obtain ⟨er, et', hr, ht', rfl⟩ := tail_cons ht
    have hmem : r ∈ R.rows := List.mem_of_mem_drop (hdrop ▸ List.mem_cons_self r rs)
    have fit := R.fit r hmem
    have fit' : List.Forall₂ (fun f v => v.fits f.column = true) h.b.record r.vals := by
      rw [← hcols] at fit
      exact List.forall₂_map_left_iff.mp fit
    have hnext : R.rows.drop (i + 1) = rs := by rw [← List.tail_drop, hdrop]; rfl
    have hlt : i < R.rows.length := by
      have := congrArg List.length hdrop
      simp only [List.length_drop, List.length_cons] at this
      omega
    obtain ⟨sc, hl⟩ := row_exits hr fit' (et' ++ (em ++ (fin ++ rest))) h.conn.session.mr.scratch
    rw [Heap.set_mr_input (by rw [hin, List.append_assoc])] at hl
    simp only [Cursor.next, hdrop, hl, Option.map_some', Seen.value]
    refine ⟨_, rfl, ⟨herr, hd, ?_, ?_, hlt, ?_, et', em, by rw [hnext]; exact ht', hm, rfl⟩, ?_⟩
    · simpa [Heap.filled, filled_record, hcols] using filled_columns fit
    · simp [Heap.filled, hcount, BitVec.ofNat_add]
    · simpa [hnext, Heap.filled, exec_after_append] using hF
    · simp [Seen.of, Heap.filled, RecordCount, filled_record, hcols, hcount, BitVec.ofNat_add]
  | nil =>
    have hlen : i = R.rows.length := by
      have := List.drop_eq_nil_iff.mp hdrop
      omega
    subst hlen
    rw [hdrop] at ht hF
    simp only [Recordset.tail, append_each, Option.bind_eq_bind, Option.some_bind, Option.bind_eq_some,
      Option.pure_def, Option.some.injEq, List.nil_append] at ht
    obtain ⟨fin', hfin, rfl⟩ := ht
    obtain ⟨sc, hc⟩ := finished_continues (o := .sTEP_NEXT_RECORD) hfin hcount (em ++ (fin ++ rest))
      h.conn.session.mr.scratch
    rw [Heap.set_mr_input hin] at hc
    simp only [List.flatMap_nil, List.nil_append] at hF
    rw [exec_after_append] at hF
    obtain ⟨x, h', hl, hx, hholds, hseen⟩ := enter_refines hend more (h := (h.with_exec
      (exec_after R.before_finished h.b.execRecordCount)).finished (BitVec.ofNat 64 R.rows.length))
      herr hd (.inr rfl) hm hF sc
    simp only [Cursor.next, hdrop, hc, hl, Option.map_some', hx, Cursor.shown_value]
    exact ⟨h', rfl, hholds, hseen⟩

/-- Next calls over the rows of a recordset from its `i`-th on, then the
call that returns false at its end. -/
theorem Nexts_rows (R : Recordset) (more : List Recordset) :
    ∀ (rows : List Row) (i : Nat) (h : Heap), R.rows.drop i = rows →
      Holds B fin rest F End (.at_set R i more) h →
      ∃ h₁, Holds B fin rest F End (Cursor.enter more (BitVec.ofNat 64 R.rows.length)) h₁ ∧
        ∀ n, Nexts (rows.length + 1 + n) h = (Nexts n h₁).map fun (l, h₂) =>
          (rows_seen R.cols i rows ++ (Cursor.enter more (BitVec.ofNat 64 R.rows.length)).shown :: l, h₂)
  | [], i, h, hdrop, hh => by
    obtain ⟨h₁, hn, hholds, hseen⟩ := Next_refines hend hh
    simp only [Cursor.next, hdrop, Cursor.shown] at hn hholds hseen
    refine ⟨h₁, hholds, fun n => ?_⟩
    rw [List.length_nil, Nat.zero_add, Nat.add_comm, Nexts_succ n hn, hseen]
    rfl
  | r :: rs, i, h, hdrop, hh => by
    obtain ⟨h₁, hn, hholds, hseen⟩ := Next_refines hend hh
    simp only [Cursor.next, hdrop, Seen.value] at hn hholds hseen
    have hnext : R.rows.drop (i + 1) = rs := by rw [← List.tail_drop, hdrop]; rfl
    obtain ⟨h₂, hend₂, hrun⟩ := Nexts_rows R more rs (i + 1) h₁ hnext hholds
    refine ⟨h₂, hend₂, fun n => ?_⟩
    rw [List.length_cons, show rs.length + 1 + 1 + n = (rs.length + 1 + n) + 1 by omega,
      Nexts_succ _ hn, hrun, Option.map_map, hseen]
    rfl

/-- Next calls over whole recordsets, from the RECORD_LAYOUT of the first. -/
theorem Nexts_sets : ∀ (sets : List Recordset) (count : Int64) (h : Heap),
    Holds B fin rest F End (Cursor.enter sets count) h →
      ∃ h₁ c, End c h₁ ∧
        ∀ n, Nexts ((sets_seen sets).length + n) h = (Nexts n h₁).map fun (l, h₂) => (sets_seen sets ++ l, h₂)
  | [], count, h, hh => ⟨h, count, hh, fun n => by simp [sets_seen]⟩
  | R :: more, _, h, hh => by
    obtain ⟨h₁, hh₁, hrun₁⟩ := Nexts_rows hend R more R.rows 0 h (List.drop_zero _) hh
    obtain ⟨h₂, c, hE, hrun₂⟩ := Nexts_sets more _ h₁ hh₁
    refine ⟨h₂, c, hE, fun n => ?_⟩
    have hlen : (sets_seen (R :: more)).length + n = R.rows.length + 1 + ((sets_seen more).length + n) := by
      simp only [sets_seen, List.length_append, rows_seen_length, List.length_cons]
      omega
    rw [hlen, hrun₁, hrun₂, Option.map_map]
    simp only [sets_seen, Cursor.enter_shown, Function.comp_def, List.append_assoc, List.cons_append]

/-- Next calls over whole recordsets `pre`, each followed by another: each
ends with ExistsNextRecordset() true and RecordCount() zero. -/
theorem Nexts_sets_before : ∀ (pre S : List Recordset) (count : Int64) (h : Heap), S ≠ [] →
    Holds B fin rest F End (Cursor.enter (pre ++ S) count) h →
      ∃ h₁ count₁, Holds B fin rest F End (Cursor.enter S count₁) h₁ ∧
        ∀ n, Nexts ((pre.flatMap fun R => rows_seen R.cols 0 R.rows ++ [.done true 0]).length + n) h =
          (Nexts n h₁).map fun (l, h₂) => ((pre.flatMap fun R => rows_seen R.cols 0 R.rows ++ [.done true 0]) ++ l, h₂)
  | [], _, count, h, _, hh => ⟨h, count, hh, fun n => by simp⟩
  | R :: pre, S, _, h, hS, hh => by
    obtain ⟨h₁, hh₁, hrun₁⟩ := Nexts_rows hend R (pre ++ S) R.rows 0 h (List.drop_zero _) hh
    obtain ⟨h₂, count₂, hh₂, hrun₂⟩ := Nexts_sets_before pre S _ h₁ hS hh₁
    have hshown : (Cursor.enter (pre ++ S) (BitVec.ofNat 64 R.rows.length)).shown = .done true 0 := by
      rw [Cursor.enter_shown]
      simp [List.isEmpty_iff, hS]
    refine ⟨h₂, count₂, hh₂, fun n => ?_⟩
    rw [List.flatMap_cons, List.length_append, List.length_append, rows_seen_length, List.length_singleton,
      Nat.add_assoc, hrun₁, hrun₂, Option.map_map, hshown]
    simp only [Function.comp_def, List.append_assoc, List.singleton_append, List.cons_append,
      List.nil_append]

end Refinement

/-- A clean connection on a network that never fails, whose reader holds
`input`. -/
def Connection.fresh (input : Bytes) : Connection := ⟨⟨⟨input, []⟩, NewWriter, fun _ => none⟩, false⟩

/-- The heap Query and Execute run step on, once the text is sent. -/
def sent_heap (conn : Connection) (text : Bytes) (session' : Session) : Heap :=
  ⟨{ text := text, status := sTATUS_BATCH_SENT }, { conn with isDirty := true, session := session' }⟩

theorem sent_heap_input {conn : Connection} {text : Bytes} {session' : Session}
    (hsend : Send_batch conn.session text = some (none, session')) :
    (sent_heap conn text session').conn.session.mr.input = conn.session.mr.input :=
  congrArg Reader.input (Send_batch_mr hsend)

theorem Next_of_loop {h h' : Heap} {x : Exit} (he : h.b.err = none)
    (hl : loop .sTEP_NEXT_RECORD h = some (x, h')) : Next h = some (x.value, h') := by
  rw [Next, step_of_no_err he, hl]
  rfl

theorem Query_of_loop {conn : Connection} {text : Bytes} {session' : Session} {x : Exit} {h' : Heap}
    (hclean : conn.isDirty = false) (hsend : Send_batch conn.session text = some (none, session'))
    (hl : loop .sTEP_NEXT_RECORD (sent_heap conn text session') = some (x, h')) :
    Query conn text = some ⟨some h'.b, none, h'.conn⟩ := by
  simp only [Query, send_then, hclean, Bool.false_eq_true, if_false, hsend]
  change Option.map _ (Next (sent_heap conn text session')) = _
  rw [Next, step_of_no_err rfl, hl]
  rfl

/-- Query stops at the first RECORD_LAYOUT, or at the end. -/
theorem Query_refines {B : Response} {fin rest : Bytes} {F : Int64} {End : Int64 → Heap → Prop}
    (hend : Ending B fin rest F End) (conn : Connection) (text : Bytes) (session' : Session)
    (hclean : conn.isDirty = false) (hsend : Send_batch conn.session text = some (none, session'))
    {em : Bytes} (hem : append_each Recordset.encode B.sets = some em)
    (hin : conn.session.mr.input = em ++ (fin ++ rest)) (hF : exec_after B.infos 0 = F) :
    ∃ b c, Query conn text = some ⟨some b, none, c⟩ ∧ ExistsNextRecordset b = !B.sets.isEmpty ∧
      Holds B fin rest F End (Cursor.enter B.sets 0) ⟨b, c⟩ := by
  obtain ⟨x, h', hl, -, hh, hseen⟩ := enter_refines hend B.sets (h := sent_heap conn text session') rfl rfl
    (.inl rfl) hem hF (sent_heap conn text session').conn.session.mr.scratch
  rw [Heap.set_mr_input ((sent_heap_input hsend).trans hin)] at hl
  refine ⟨h'.b, h'.conn, Query_of_loop hclean hsend hl, ?_, hh⟩
  rw [Cursor.enter_shown] at hseen
  simp only [Seen.of, Bool.false_eq_true, if_false, Seen.done.injEq] at hseen
  exact hseen.1

/-- Query, then as many Next calls as the cursor shows over the recordsets
of `B`, on a clean connection whose reader holds them and then an end that
the last call reads as `hend` says. -/
theorem Query_Nexts_sets {B : Response} {fin rest : Bytes} {F : Int64} {End : Int64 → Heap → Prop}
    (hend : Ending B fin rest F End) (conn : Connection) (text : Bytes) (session' : Session)
    (hclean : conn.isDirty = false) (hsend : Send_batch conn.session text = some (none, session'))
    {em : Bytes} (hem : append_each Recordset.encode B.sets = some em)
    (hin : conn.session.mr.input = em ++ (fin ++ rest)) (hF : exec_after B.infos 0 = F) :
    ∃ b c, Query conn text = some ⟨some b, none, c⟩ ∧ ExistsNextRecordset b = !B.sets.isEmpty ∧
      ∃ h count, Nexts (sets_seen B.sets).length ⟨b, c⟩ = some (sets_seen B.sets, h) ∧ End count h := by
  obtain ⟨b, c, hq, hex, hh⟩ := Query_refines hend conn text session' hclean hsend hem hin hF
  obtain ⟨h, count, hE, hrun⟩ := Nexts_sets hend B.sets 0 ⟨b, c⟩ hh
  exact ⟨b, c, hq, hex, h, count, by simpa [Nexts] using hrun 0, hE⟩

/-! ### The end of a well-formed response -/

/-- Where the cursor ends over a well-formed response `B`: BATCH_END read. -/
def Response.Ended (B : Response) (rest : Bytes) (F count : Int64) (h : Heap) : Prop :=
  h.b.status = sTATUS_BATCH_END ∧ h.b.rc = B.rc ∧ h.b.execRecordCount = F ∧ h.conn.isDirty = false ∧
    h.b.err = B.err ∧ h.b.recordCount = count ∧ h.conn.session.mr.input = rest

theorem finish_ending {B : Response} {fin : Bytes} (hfin : B.finish = some fin) (rest : Bytes) (F : Int64) :
    Ending B fin rest F (B.Ended rest F) := by
  intro h sc₀ herr _ _ hF
  obtain ⟨sc, hl⟩ := finish_exits (o := .sTEP_NEXT_RECORD) (h := h) hfin rest sc₀
  refine ⟨.batch_end, _, hl, rfl, ?_⟩
  cases he : B.error <;>
    simp [Response.Ended, Seen.of, ExistsNextRecordset, RecordCount, Heap.ended, Heap.batch_end, Heap.with_exec,
      Heap.with_error, Response.err, he, herr, hF, sTATUS_BATCH_END, sTATUS_RECORD_LAYOUT_AVAILABLE]

/-- The cursor contract over a well-formed response. -/
theorem Query_Nexts_follow_response (B : Response) (conn : Connection) (text enc rest : Bytes)
    (session' : Session) (hclean : conn.isDirty = false)
    (hsend : Send_batch conn.session text = some (none, session'))
    (henc : B.encode = some enc) (hin : conn.session.mr.input = enc ++ rest) :
    ∃ b c, Query conn text = some ⟨some b, none, c⟩ ∧ ExistsNextRecordset b = !B.sets.isEmpty ∧
      ∃ h, Nexts (sets_seen B.sets).length ⟨b, c⟩ = some (sets_seen B.sets, h) ∧
        h.b.status = sTATUS_BATCH_END ∧ Rc h.b = B.rc ∧ ExecRecordCount h.b = exec_after B.infos 0 ∧
        h.conn.isDirty = false ∧ Err h.b = B.err ∧ h.conn.session.mr.input = rest := by
  obtain ⟨em, fin, hem, hfin, rfl⟩ := Response.encode_eq henc
  obtain ⟨b, c, hq, hex, h, -, hrun, hs, hrc, hexec, hd, herr, -, hrest⟩ :=
    Query_Nexts_sets (finish_ending hfin rest _) conn text session' hclean hsend hem
      (by rw [hin, List.append_assoc]) rfl
  exact ⟨b, c, hq, hex, h, hrun, hs, hrc, hexec, hd, herr, hrest⟩

/-- A recordset of one INT column a, with one row holding 5. -/
def five_set : Recordset :=
  ⟨[], [[0x61]], [.Int], [⟨[], [.int32 5]⟩], [], fun r hr => by
    rw [List.mem_singleton] at hr
    exact hr ▸ .cons rfl .nil⟩

/-- RECORD_LAYOUT with the name a and an INT column, a RECORD holding 5 and
RECORD_FINISHED(1), as the server writes `five_set`. -/
def five_stream : Bytes := [3, 0x91, 0xa1, 0x61, 0x91, 0x91, 12, 4, 0x91, 5, 5, 1]

/-- The map of an error record: state 1, the text "divide by zero", line 4,
position 12. -/
def divide_record : Bytes :=
  [0x84, 0xa5] ++ ascii "state" ++ [1, 0xa4] ++ ascii "text" ++ [0xae] ++ ascii "divide by zero" ++ [0xa7] ++
    ascii "line_no" ++ [4, 0xa8] ++ ascii "line_pos" ++ [12]

/-- The recordset `five_set`, then the error record `divide_record`, then
BATCH_END(0). -/
def divide_response : Response :=
  ⟨[five_set], [], some ⟨[.state 1, .text (ascii "divide by zero"), .line_no 4, .line_pos 12],
    divide_record, rfl⟩, 0⟩

theorem Query_Nexts_follow_response_divide :
    ∃ b c, Query (.fresh (five_stream ++ [12] ++ divide_record ++ [14, 0])) [] = some ⟨some b, none, c⟩ ∧ ExistsNextRecordset b = true ∧
      ∃ h, Nexts 2 ⟨b, c⟩ = some ([.row [.Int false 5] 1, .done false 1], h) ∧
        h.b.status = sTATUS_BATCH_END ∧ Rc h.b = 0 ∧ ExecRecordCount h.b = 0 ∧ h.conn.isDirty = false ∧
        Err h.b = some (.batch { State := 1, Text := ascii "divide by zero", LineNo := 4, LinePos := 12 }) ∧
        h.conn.session.mr.input = [] :=
  Query_Nexts_follow_response divide_response _ [] _ [] _ rfl rfl rfl rfl

/-! ### An error record with an unknown key -/

/-- The map of an error record with the state 1, then the key x with a nil
value. -/
def unknown_record : Bytes := [0x82, 0xa5] ++ ascii "state" ++ [1, 0xa1, 0x78, 0xc0]

theorem unknown_key_ending {sets : List Recordset} {infos : List Info} {encI : Bytes}
    (hI : encode_infos infos = some encI) (es : List ErrorEntry) {key : Bytes}
    (hkey : ∀ e : ErrorEntry, e.key ≠ key) {v : Simple} {p : UInt8} {ev : Bytes}
    (hv : AppendSimpleType [] v = some (p :: ev)) (hp : 127 < p.toNat) (h8 : p ≠ M_UINT8) (h16 : p ≠ M_UINT16)
    (h32 : p ≠ M_UINT32) (h64 : p ≠ M_UINT64) {encE : Bytes}
    (hE : AppendMapStrSimpleType [] (es.map (fun e => (e.key, e.value)) ++ [(key, v)]) = some encE)
    (rc : Int64) (rest : Bytes) (F : Int64) :
    Ending ⟨sets, infos, none, rc⟩
      (encI ++ (AppendUint8 [] RESTYP_ERROR ++ encE ++ (AppendUint8 [] RESTYP_BATCH_END ++ AppendInt64 [] rc)))
      rest F fun count h => h.b.status ≠ sTATUS_BATCH_END ∧ h.conn.isDirty = true ∧
        h.b.err = some ( Error.bad_prefix "read uint" p) ∧ h.b.recordCount = count ∧
        h.conn.session.mr.input = ev ++ (AppendUint8 [] RESTYP_BATCH_END ++ AppendInt64 [] rc ++ rest) := by
  intro h sc₀ _ hd hs _
  obtain ⟨sc, hl⟩ := unknown_key_fails (o := .sTEP_NEXT_RECORD) (h := h) infos hI es hkey hv hp h8 h16 h32 h64
    hE (AppendUint8 [] RESTYP_BATCH_END ++ AppendInt64 [] rc ++ rest) sc₀
  have hs' : h.b.status ≠ sTATUS_RECORD_LAYOUT_AVAILABLE ∧ h.b.status ≠ sTATUS_BATCH_END := by
    rcases hs with hs | hs <;> rw [hs] <;> decide
  simp only [List.append_assoc] at hl ⊢
  refine ⟨_, _, hl, rfl, ?_, hs'.2, hd, rfl, rfl, rfl⟩
  simp [Seen.of, ExistsNextRecordset, RecordCount, Heap.failed, Heap.with_exec, hs'.1]

/-- An error record whose last key Read_Error_info does not know: the last
Next call reads its value as a response type and fails before BATCH_END. -/
theorem Query_Nexts_unknown_error_key (sets : List Recordset) (infos : List Info) (es : List ErrorEntry)
    (key : Bytes) (hkey : ∀ e : ErrorEntry, e.key ≠ key) (v : Simple) (p : UInt8) (ev : Bytes)
    (hv : AppendSimpleType [] v = some (p :: ev)) (hp : 127 < p.toNat) (h8 : p ≠ M_UINT8) (h16 : p ≠ M_UINT16)
    (h32 : p ≠ M_UINT32) (h64 : p ≠ M_UINT64) (rc : Int64) (conn : Connection) (text em encI encE rest : Bytes)
    (session' : Session) (hclean : conn.isDirty = false)
    (hsend : Send_batch conn.session text = some (none, session'))
    (hem : append_each Recordset.encode sets = some em) (hI : encode_infos infos = some encI)
    (hE : AppendMapStrSimpleType [] (es.map (fun e => (e.key, e.value)) ++ [(key, v)]) = some encE)
    (hin : conn.session.mr.input = em ++
      (encI ++ (AppendUint8 [] RESTYP_ERROR ++ encE ++ (AppendUint8 [] RESTYP_BATCH_END ++ AppendInt64 [] rc))) ++
        rest) :
    ∃ b c, Query conn text = some ⟨some b, none, c⟩ ∧ ExistsNextRecordset b = !sets.isEmpty ∧
      ∃ h, Nexts (sets_seen sets).length ⟨b, c⟩ = some (sets_seen sets, h) ∧
        h.b.status ≠ sTATUS_BATCH_END ∧ h.conn.isDirty = true ∧ Err h.b = some ( Error.bad_prefix "read uint" p) ∧
        h.conn.session.mr.input = ev ++ (AppendUint8 [] RESTYP_BATCH_END ++ AppendInt64 [] rc ++ rest) := by
  obtain ⟨b, c, hq, hex, h, _, hrun, hs, hd, herr, -, hrest⟩ :=
    Query_Nexts_sets (B := ⟨sets, infos, none, rc⟩)
      (unknown_key_ending hI es hkey hv hp h8 h16 h32 h64 hE rc rest (exec_after (sets.flatMap Recordset.infos ++ infos) 0))
      conn text session' hclean hsend hem (by rw [hin, List.append_assoc]) rfl
  exact ⟨b, c, hq, hex, h, hrun, hs, hd, herr, hrest⟩

theorem Query_Nexts_unknown_error_key_x :
    ∃ b c, Query (.fresh (five_stream ++ [12] ++ unknown_record ++ [14, 0])) [] = some ⟨some b, none, c⟩ ∧
      ExistsNextRecordset b = true ∧
      ∃ h, Nexts 2 ⟨b, c⟩ = some ([.row [.Int false 5] 1, .done false 1], h) ∧
        h.b.status ≠ sTATUS_BATCH_END ∧ h.conn.isDirty = true ∧ Err h.b = some ( Error.bad_prefix "read uint" 0xc0) ∧
        h.conn.session.mr.input = [14, 0] :=
  Query_Nexts_unknown_error_key [five_set] [] [.state 1] (ascii "x") (by intro e; cases e <;> simp only [ErrorEntry.key] <;> decide)
    .nil 0xc0 [] rfl (by decide) (by decide) (by decide) (by decide) (by decide) 0 _ [] _ [] _ [] _ rfl rfl rfl rfl rfl
    rfl

/-- After the Next call that returns false at the end of a recordset that
another follows, RecordCount() is zero. -/
theorem RecordCount_zero_after_recordset (B : Response) (conn : Connection) (text enc rest : Bytes)
    (session' : Session) (hclean : conn.isDirty = false)
    (hsend : Send_batch conn.session text = some (none, session'))
    (henc : B.encode = some enc) (hin : conn.session.mr.input = enc ++ rest)
    (pre : List Recordset) (R R' : Recordset) (post : List Recordset)
    (hsets : B.sets = pre ++ R :: R' :: post) :
    ∃ b c, Query conn text = some ⟨some b, none, c⟩ ∧ ∃ h,
      Nexts ((pre.flatMap fun R => rows_seen R.cols 0 R.rows ++ [.done true 0]).length + (R.rows.length + 1))
          ⟨b, c⟩ =
        some ((pre.flatMap fun R => rows_seen R.cols 0 R.rows ++ [.done true 0]) ++
          (rows_seen R.cols 0 R.rows ++ [.done true 0]), h) ∧
      RecordCount h.b = 0 := by
  obtain ⟨em, fin, hem, hfin, rfl⟩ := Response.encode_eq henc
  have hend := finish_ending hfin rest (exec_after B.infos 0)
  obtain ⟨b, c, hq, -, hh⟩ := Query_refines hend conn text session' hclean hsend hem
    (by rw [hin, List.append_assoc]) rfl
  rw [hsets] at hh
  obtain ⟨h₁, _, hh₁, hrun₁⟩ := Nexts_sets_before hend pre (R :: R' :: post) 0 ⟨b, c⟩ nofun hh
  obtain ⟨h₂, hh₂, hrun₂⟩ := Nexts_rows hend R (R' :: post) R.rows 0 h₁ (List.drop_zero _) hh₁
  refine ⟨b, c, hq, h₂, ?_, hh₂.2.2.2.1⟩
  rw [hrun₁, hrun₂ 0]
  rfl

theorem RecordCount_zero_after_recordset_one_row :
    ∃ b c, Query (.fresh [3, 0x90, 0x90, 4, 0x90, 5, 1, 3, 0x90, 0x90, 4, 0x90, 5, 1, 14, 0]) [] =
        some ⟨some b, none, c⟩ ∧ ∃ h,
      Nexts (0 + (1 + 1)) ⟨b, c⟩ = some ([] ++ (rows_seen [] 0 [⟨[], []⟩] ++ [.done true 0]), h) ∧
      RecordCount h.b = 0 :=
  RecordCount_zero_after_recordset ⟨[.blank 1, .blank 1], [], none, 0⟩
    (.fresh [3, 0x90, 0x90, 4, 0x90, 5, 1, 3, 0x90, 0x90, 4, 0x90, 5, 1, 14, 0]) [] _ [] _ rfl rfl rfl rfl
    [] (.blank 1) (.blank 1) [] rfl

end Rsql.Drv
