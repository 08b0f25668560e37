import Rsql.Msgp.Writer

/-! A Writer's failure is sticky. A healthy Writer hands each write method's
Append encoding, the staging buffer for WriteStaging, and each flush to the
underlying writer (`issued`); the first call that fails dooms it, and from
then on it makes no call and keeps that error, which Flush and Error report. -/
namespace Rsql.Msgp

/-- The encoder a write method runs on `mw.staging[:0]`. -/
def Op.append : Op → Option (Bytes → Option Bytes)
  | .WriteNil => some fun d => some (AppendNil d)
  | .WriteBool v => some fun d => some (AppendBool d v)
  | .WriteUint8 v => some fun d => some (AppendUint8 d v)
  | .WriteUint16 v => some fun d => some (AppendUint16 d v)
  | .WriteUint32 v => some fun d => some (AppendUint32 d v)
  | .WriteUint64 v => some fun d => some (AppendUint64 d v)
  | .WriteInt8 v => some fun d => some (AppendInt8 d v)
  | .WriteInt16 v => some fun d => some (AppendInt16 d v)
  | .WriteInt32 v => some fun d => some (AppendInt32 d v)
  | .WriteInt64 v => some fun d => some (AppendInt64 d v)
  | .WriteFloat32 v => some fun d => some (AppendFloat32 d v)
  | .WriteFloat64 v => some fun d => some (AppendFloat64 d v)
  | .WriteString v => some fun d => AppendString d v
  | .WriteStringFromBytes v => some fun d => AppendStringFromBytes d v
  | .WriteBytes v => some fun d => AppendBytes d v
  | .WriteStringHeader sz => some fun d => some (AppendStringHeader d sz)
  | .WriteBytesHeader sz => some fun d => some (AppendBytesHeader d sz)
  | .WriteArrayHeader sz => some fun d => some (AppendArrayHeader d sz)
  | .WriteMapHeader sz => some fun d => some (AppendMapHeader d sz)
  | .WriteSimpleType i => some fun d => AppendSimpleType d i
  | .WriteMapStrStr arg => some fun d => AppendMapStrStr d arg
  | .WriteMapStrSimpleType arg => some fun d => AppendMapStrSimpleType d arg
  | .WriteMapStrStrFromList args => some fun d => AppendMapStrStrFromList d args
  | _ => none

/-- What a healthy Writer with staging buffer `staging` does for `op`: the
call it makes on the underlying writer, if any, and its staging buffer
after; `none` when an encoder panics. -/
def issue (staging : Bytes) (op : Op) : Option (Option BwCall × Bytes) :=
  match op.append with
  | some append => (append []).map fun st => (some (.write st), st)
  | none => match op with
    | .WriteStaging => some (some (.write staging), staging)
    | .SetStaging b => some (none, b)
    | .Flush => some (some .flush, staging)
    | _ => some (none, staging)

/-- The calls a healthy Writer makes for `ops`, in order. -/
def issued (staging : Bytes) : List Op → Option (List BwCall)
  | [] => some []
  | op :: ops => (issue staging op).bind fun (c, st) => (issued st ops).map (c.toList ++ ·)

/-- The bytes the Writer's calls hand to the connection's bufio.Writer. -/
def written : List BwCall → Bytes
  | [] => []
  | .write b :: cs => b ++ written cs
  | .flush :: cs => written cs

/-- The calls `calls`, made from call number `base` on, all succeed. -/
def all_succeed (net : Net) (base : Nat) (calls : List BwCall) : Prop :=
  ∀ i < calls.length, net (base + i) = none

variable {net : Net} {mw mw₁ mw' : Writer} {op : Op} {r : Option Error}

@[simp] theorem written_append (xs ys : List BwCall) :
    written (xs ++ ys) = written xs ++ written ys := by
  induction xs with
  | nil => rfl
  | cons c cs ih => cases c <;> simp [written, ih]

@[simp] theorem bw_write_staging (bytes : Bytes) : (bw_write net mw bytes).staging = mw.staging := by
  unfold bw_write; split <;> rfl

@[simp] theorem bw_write_calls (bytes : Bytes) :
    (bw_write net mw bytes).calls = mw.calls ++ [.write bytes] := by
  unfold bw_write; split <;> rfl

@[simp] theorem bw_write_doomed (bytes : Bytes) :
    (bw_write net mw bytes).doomed = (net mw.calls.length).or mw.doomed := by
  unfold bw_write; split <;> simp_all

theorem exec_of_append {append : Bytes → Option Bytes} (h : op.append = some append) :
    exec net mw op = (write_with append net mw).map (·, none) := by
  cases op <;> cases h <;> rfl

/-- One call on a healthy Writer makes the call `issue` says, and is doomed
exactly when that call fails. -/
theorem exec_healthy (hd : mw.doomed = none) (he : exec net mw op = some (mw₁, r)) :
    ∃ c, issue mw.staging op = some (c, mw₁.staging) ∧ mw₁.calls = mw.calls ++ c.toList ∧
      mw₁.doomed = (if c.isSome then net mw.calls.length else none) := by
  cases ha : op.append with
  | some append =>
    rw [exec_of_append ha, write_with, hd] at he
    simp only [Option.isSome_none, Bool.false_eq_true, if_false, Option.map_map] at he
    obtain ⟨st, hst, hm⟩ := Option.map_eq_some'.mp he
    simp only [Function.comp, Prod.mk.injEq] at hm
    obtain ⟨rfl, -⟩ := hm
    exact ⟨some (.write st), by simp [issue, ha, hst], by simp, by simp [hd]⟩
  | none =>
    cases op <;> simp only [Op.append, reduceCtorEq] at ha <;>
      simp only [exec, WriteStaging, SetStaging, Flush, error, hd, Option.isSome_none,
        Bool.false_eq_true, if_false, Option.some.injEq, Prod.mk.injEq] at he
    · obtain ⟨rfl, -⟩ := he
      exact ⟨some (.write mw.staging), by simp [issue, Op.append], by simp, by simp [hd]⟩
    · obtain ⟨rfl, -⟩ := he
      exact ⟨none, by simp [issue, Op.append, SetStaging], by simp [SetStaging], by simp [SetStaging, hd]⟩
    · refine ⟨some .flush, ?_⟩
      split at he <;> obtain ⟨rfl, -⟩ := he <;> simp_all [issue, Op.append]
    · obtain ⟨rfl, -⟩ := he
      exact ⟨none, by simp [issue, Op.append], by simp, by simp [hd]⟩

/-- One call on a doomed Writer makes no call and keeps the error; Flush
and Error return it. -/
theorem exec_doomed {e : Error} (hd : mw.doomed = some e) (he : exec net mw op = some (mw₁, r)) :
    mw₁.doomed = some e ∧ mw₁.calls = mw.calls ∧ (op = .Flush ∨ op = .Error → r = some e) := by
  cases ha : op.append with
  | some append =>
    rw [exec_of_append ha, write_with, hd] at he
    simp only [Option.isSome_some, if_true, Option.map_some', Option.some.injEq, Prod.mk.injEq] at he
    obtain ⟨rfl, rfl⟩ := he
    refine ⟨hd, rfl, ?_⟩
    rintro (rfl | rfl) <;> cases ha
  | none =>
    cases op <;> simp only [Op.append, reduceCtorEq] at ha <;>
      simp only [exec, WriteStaging, SetStaging, Flush, error, hd, Option.isSome_some, if_true,
        Option.some.injEq, Prod.mk.injEq] at he <;>
      obtain ⟨rfl, rfl⟩ := he <;> simp [hd]

theorem exec_returns_doomed (hop : op = .Flush ∨ op = .Error) (he : exec net mw op = some (mw₁, r)) :
    r = mw₁.doomed := by
  rcases hop with rfl | rfl <;> simp only [exec, Flush, error, Option.some.injEq, Prod.mk.injEq] at he
  · split at he <;> [skip; split at he] <;> obtain ⟨rfl, rfl⟩ := he <;> simp_all
  · obtain ⟨rfl, rfl⟩ := he; rfl

/-! ### Runs -/

variable {ops : List Op} {rs : List (Option Error)}

theorem run_cons_eq_some :
    run net mw (op :: ops) = some (mw', rs) ↔
      ∃ mw₁ r rs', exec net mw op = some (mw₁, r) ∧ run net mw₁ ops = some (mw', rs') ∧ rs = r :: rs' := by
  constructor
  · intro hr
    simp only [run] at hr
    cases he : exec net mw op with
    | none => simp [he] at hr
    | some p =>
      obtain ⟨mw₁, r⟩ := p
      cases hr' : run net mw₁ ops with
      | none => simp [he, hr'] at hr
      | some q =>
        simp only [he, hr', Option.bind_eq_bind, Option.some_bind] at hr
        cases hr
        exact ⟨mw₁, r, q.2, rfl, hr', rfl⟩
  · rintro ⟨mw₁, r, rs', he, hr, rfl⟩
    simp [run, he, hr]

theorem run_snoc_eq_some {pre : List Op} (hr : run net mw (pre ++ [op]) = some (mw', rs)) :
    ∃ mw₁ rs₁ r, run net mw pre = some (mw₁, rs₁) ∧ exec net mw₁ op = some (mw', r) ∧
      rs = rs₁ ++ [r] := by
  induction pre generalizing mw rs with
  | nil =>
    obtain ⟨mw₁, r, rs', he, hr₁, rfl⟩ := run_cons_eq_some.mp hr
    simp only [run, Option.some.injEq, Prod.mk.injEq] at hr₁
    obtain ⟨rfl, rfl⟩ := hr₁
    exact ⟨mw, [], r, rfl, he, rfl⟩
  | cons op' pre ih =>
    obtain ⟨mw₁, r', rs', he, hr₁, rfl⟩ := run_cons_eq_some.mp hr
    obtain ⟨mw₂, rs₂, r, hr₂, he₂, rfl⟩ := ih hr₁
    exact ⟨mw₂, r' :: rs₂, r, run_cons_eq_some.mpr ⟨mw₁, r', rs₂, he, hr₂, rfl⟩, he₂, rfl⟩

theorem run_snoc_of_eq_some {pre : List Op} {mw₁ : Writer} {rs₁ : List (Option Error)}
    (hr : run net mw pre = some (mw₁, rs₁)) (he : exec net mw₁ op = some (mw', r)) :
    run net mw (pre ++ [op]) = some (mw', rs₁ ++ [r]) := by
  induction pre generalizing mw rs₁ with
  | nil =>
    simp only [run, Option.some.injEq, Prod.mk.injEq] at hr
    obtain ⟨rfl, rfl⟩ := hr
    simp [run, he]
  | cons op' pre ih =>
    obtain ⟨mw₂, r', rs₂, he', hr₂, rfl⟩ := run_cons_eq_some.mp hr
    exact run_cons_eq_some.mpr ⟨mw₂, r', rs₂ ++ [r], he', ih hr₂, rfl⟩

theorem run_take (hr : run net mw ops = some (mw', rs)) (n : Nat) :
    ∃ mwₙ, run net mw (ops.take n) = some (mwₙ, rs.take n) := by
  induction ops generalizing mw rs n with
  | nil =>
    simp only [run, Option.some.injEq, Prod.mk.injEq] at hr
    obtain ⟨rfl, rfl⟩ := hr
    exact ⟨mw, by simp [run]⟩
  | cons op ops ih =>
    obtain ⟨mw₁, r, rs', he, hr₁, rfl⟩ := run_cons_eq_some.mp hr
    cases n with
    | zero => exact ⟨mw, rfl⟩
    | succ n =>
      obtain ⟨mwₙ, hn⟩ := ih hr₁ n
      exact ⟨mwₙ, run_cons_eq_some.mpr ⟨mw₁, r, rs'.take n, he, hn, rfl⟩⟩

/-- Once doomed, a Writer makes no call and keeps its error. -/
theorem run_doomed {e : Error} (hd : mw.doomed = some e) (hr : run net mw ops = some (mw', rs)) :
    mw'.doomed = some e ∧ mw'.calls = mw.calls := by
  induction ops generalizing mw rs with
  | nil =>
    simp only [run, Option.some.injEq, Prod.mk.injEq] at hr
    obtain ⟨rfl, -⟩ := hr
    exact ⟨hd, rfl⟩
  | cons op ops ih =>
    obtain ⟨mw₁, r, rs', he, hr, -⟩ := run_cons_eq_some.mp hr
    obtain ⟨hd₁, hc₁, -⟩ := exec_doomed hd he
    exact (ih hd₁ hr).imp_right (·.trans hc₁)

theorem all_succeed_cons {base : Nat} {c : Option BwCall} {calls : List BwCall}
    (hc : c.isSome → net base = none) (h : all_succeed net (base + c.toList.length) calls) :
    all_succeed net base (c.toList ++ calls) := by
  intro i hi
  cases c with
  | none => simpa using h i (by simpa using hi)
  | some call =>
    cases i with
    | zero => exact hc rfl
    | succ i =>
      have := h i (by simp at hi; omega)
      simpa [Nat.add_assoc, Nat.add_comm 1 i] using this

/-- What a run from a healthy Writer does: every call `issued` says, each
succeeding; or the calls of the operations up to the one whose call is the
first to fail, that call's error as the doom, and no call after it. -/
def HealthyRun (net : Net) (mw mw' : Writer) (ops : List Op) : Prop :=
  (mw'.doomed = none ∧ ∃ calls, issued mw.staging ops = some calls ∧
      mw'.calls = mw.calls ++ calls ∧ all_succeed net mw.calls.length calls) ∨
  (∃ e pre op post calls c, ops = pre ++ op :: post ∧
      issued mw.staging (pre ++ [op]) = some (calls ++ [c]) ∧ mw'.calls = mw.calls ++ calls ++ [c] ∧
      all_succeed net mw.calls.length calls ∧ net (mw.calls.length + calls.length) = some e ∧
      mw'.doomed = some e)

theorem run_healthy (hd : mw.doomed = none) (hr : run net mw ops = some (mw', rs)) :
    HealthyRun net mw mw' ops := by
  induction ops generalizing mw rs with
  | nil =>
    simp only [run, Option.some.injEq, Prod.mk.injEq] at hr
    obtain ⟨rfl, -⟩ := hr
    exact .inl ⟨hd, [], rfl, by simp, fun _ h => absurd h (Nat.not_lt_zero _)⟩
  | cons op ops ih =>
    obtain ⟨mw₁, r, rs', he, hr, -⟩ := run_cons_eq_some.mp hr
    obtain ⟨c, hi, hc, hdm⟩ := exec_healthy hd he
    have hiss : ∀ ops calls, issued mw₁.staging ops = some calls →
        issued mw.staging (op :: ops) = some (c.toList ++ calls) := fun _ calls h => by
      simp [issued, hi, h]
    cases hd₁ : mw₁.doomed with
    | none =>
      have hc_ok : c.isSome → net mw.calls.length = none := fun h => by simpa [h] using hdm.symm.trans hd₁
      have hlen : mw₁.calls.length = mw.calls.length + c.toList.length := by simp [hc]
      rcases ih hd₁ hr with ⟨hd', calls, his, hcalls, hsucc⟩ |
          ⟨e, pre, op', post, calls, c', rfl, his, hcalls, hsucc, hnet, hdoom⟩
      · refine .inl ⟨hd', c.toList ++ calls, hiss _ calls his, by simp [hcalls, hc], ?_⟩
        exact all_succeed_cons hc_ok (hlen ▸ hsucc)
      · refine .inr ⟨e, op :: pre, op', post, c.toList ++ calls, c', rfl, ?_, ?_, ?_, ?_, hdoom⟩
        · simpa using hiss _ _ his
        · simp [hcalls, hc]
        · exact all_succeed_cons hc_ok (hlen ▸ hsucc)
        · rw [← hnet, hlen]; simp [Nat.add_assoc]
    | some e =>
      cases c with
      | none => simp [hd₁] at hdm
      | some call =>
        obtain ⟨hdoom, hcalls⟩ := run_doomed hd₁ hr
        refine .inr ⟨e, [], op, ops, [], call, rfl, by simp [issued, hi], by simp [hcalls, hc],
          fun _ h => absurd h (Nat.not_lt_zero _), by simpa [hd₁] using hdm.symm, hdoom⟩

theorem run_length (hr : run net mw ops = some (mw', rs)) : rs.length = ops.length := by
  induction ops generalizing mw rs with
  | nil =>
    simp only [run, Option.some.injEq, Prod.mk.injEq] at hr
    simp [← hr.2]
  | cons op ops ih =>
    obtain ⟨mw₁, r, rs', -, hr₁, rfl⟩ := run_cons_eq_some.mp hr
    simp [ih hr₁]

/-- Flush or Error as the `i`-th call returns the doom of the Writer right
after it. -/
theorem run_reports_doomed (hr : run net mw ops = some (mw', rs)) {i : Nat}
    (hop : ops[i]? = some .Flush ∨ ops[i]? = some .Error) :
    ∃ mwᵢ, run net mw (ops.take (i + 1)) = some (mwᵢ, rs.take (i + 1)) ∧ rs[i]? = some mwᵢ.doomed := by
  obtain ⟨mwᵢ, hi⟩ := run_take hr (i + 1)
  refine ⟨mwᵢ, hi, ?_⟩
  obtain ⟨op, hopi, hop⟩ : ∃ op, ops[i]? = some op ∧ (op = .Flush ∨ op = .Error) := by
    rcases hop with h | h <;> exact ⟨_, h, by simp⟩
  have hlt : i < ops.length := by
    by_contra hge
    simp [List.getElem?_eq_none (Nat.le_of_not_lt hge)] at hopi
  rw [List.take_succ, hopi, Option.toList_some] at hi
  obtain ⟨mw₁, rs₁, r, hr₁, he, hrs⟩ := run_snoc_eq_some hi
  have hlen : rs₁.length = i := by
    have := run_length hr₁
    simp only [List.length_take] at this
    omega
  have hri : rs[i]? = some r := by
    rw [← List.getElem?_take_of_lt (Nat.lt_succ_self i), hrs, List.getElem?_append_right hlen.le,
      hlen, Nat.sub_self]
    rfl
  rw [hri, exec_returns_doomed hop he]

/-- The failure of a Writer is sticky: once doomed it keeps its error and
makes no call; from a healthy Writer the underlying writer gets exactly the
healthy calls up to the first that fails; and Flush and Error return the
doom. -/
theorem run_failure_sticky (net : Net) (mw : Writer) (ops : List Op) (mw' : Writer)
    (rs : List (Option Error)) (hr : run net mw ops = some (mw', rs)) :
    (∀ e, mw.doomed = some e → mw'.doomed = some e ∧ mw'.calls = mw.calls) ∧
    (mw.doomed = none → HealthyRun net mw mw' ops) ∧
    (∀ i, ops[i]? = some .Flush ∨ ops[i]? = some .Error →
      ∃ mwᵢ, run net mw (ops.take (i + 1)) = some (mwᵢ, rs.take (i + 1)) ∧
        rs[i]? = some mwᵢ.doomed) :=
  ⟨fun _ hd => run_doomed hd hr, fun hd => run_healthy hd hr, fun _ hop => run_reports_doomed hr hop⟩

/-- A flush on a fresh Writer whose network fails it. -/
theorem run_failure_sticky_flush_fails :
    run (fun _ => some (.transport 0)) NewWriter [.Flush, .WriteNil] =
      some (⟨[], some (.transport 0), [.flush]⟩, [some (.transport 0), none]) ∧
    ((∀ e, NewWriter.doomed = some e → (⟨[], some (.transport 0), [.flush]⟩ : Writer).doomed = some e ∧
        (⟨[], some (.transport 0), [.flush]⟩ : Writer).calls = NewWriter.calls) ∧
      (NewWriter.doomed = none →
        HealthyRun (fun _ => some (.transport 0)) NewWriter ⟨[], some (.transport 0), [.flush]⟩
          [.Flush, .WriteNil]) ∧
      (∀ i, [Op.Flush, .WriteNil][i]? = some .Flush ∨ [Op.Flush, .WriteNil][i]? = some .Error →
        ∃ mwᵢ, run (fun _ => some (.transport 0)) NewWriter ([Op.Flush, .WriteNil].take (i + 1)) =
            some (mwᵢ, [some (Error.transport 0), none].take (i + 1)) ∧
          [some (Error.transport 0), none][i]? = some mwᵢ.doomed)) :=
  ⟨rfl, run_failure_sticky _ _ _ _ _ rfl⟩

end Rsql.Msgp
