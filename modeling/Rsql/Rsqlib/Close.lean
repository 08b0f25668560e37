import Rsql.Rsqlib.Session

/-! A session after Connect, as the interleavings of Session.Close, the
keepalive goroutine and the other goroutines' sends and reads. -/
namespace Rsql.Rsqlib

/-- What Close and the keepalive goroutine read and change of a session. -/
structure Lifecycle where
  ticker_stopped : Bool
  ticker_done_closed : Bool
  conn_closed : Bool
  keepalive_running : Bool
  deriving DecidableEq, Repr

/-- The session Connect returns. -/
def Lifecycle.connected : Lifecycle := ⟨false, false, false, true⟩

/-- Session.Close: ticker.Stop(), close(ticker_done), then conn.Close(), whose
error is returned. -/
def Session.Close (s : Lifecycle) : Result Lifecycle (Option Error) :=
  let s := { s with ticker_stopped := true }
  if s.ticker_done_closed then .panic "close of closed channel"
  else .ok (if s.conn_closed then some .net_closed else none)
    { s with ticker_done_closed := true, conn_closed := true }

/-- Connection.Close (package drv) calls session.Close() and drops its error. -/
def Connection.Close (s : Lifecycle) : Result Lifecycle Unit := (Session.Close s).discard

/-- One step of one goroutine on the session. -/
inductive Event where
  | session_close
  | connection_close
  /-- The keepalive goroutine receives a tick and sends a keepalive request;
  `sent` is whether Send_special_request succeeded. -/
  | tick (sent : Bool)
  /-- The keepalive goroutine receives from the closed ticker_done and returns. -/
  | done
  /-- Send_batch or a Read_* call on another goroutine. -/
  | io
  deriving DecidableEq, Repr

def Event.is_close : Event → Bool
  | .session_close | .connection_close => true
  | _ => false

/-- The step, or `none` when the event cannot happen in `s`. A stopped
ticker's channel may still hold one tick. -/
def step (s : Lifecycle) : Event → Option (Result Lifecycle Unit)
  | .session_close => some (Session.Close s).discard
  | .connection_close => some (Connection.Close s)
  | .tick sent =>
    if s.keepalive_running then
      some (.ok () (if sent then s else { s with ticker_stopped := true, keepalive_running := false }))
    else none
  | .done =>
    if s.keepalive_running ∧ s.ticker_done_closed then some (.ok () { s with keepalive_running := false })
    else none
  | .io => some (.ok () s)

/-- The events in order, up to the first panic. -/
def run (s : Lifecycle) : List Event → Option (Result Lifecycle Unit)
  | [] => some (.ok () s)
  | ev :: evs =>
    match step s ev with
    | some (.ok _ s') => run s' evs
    | other => other

/-- How many events are calls of Close. -/
def closes (evs : List Event) : Nat := evs.countP Event.is_close

/-! ### What a step can do -/

theorem Close_of_open {s : Lifecycle} (h : s.ticker_done_closed = false) :
    Session.Close s = .ok (if s.conn_closed then some .net_closed else none)
      { s with ticker_stopped := true, ticker_done_closed := true, conn_closed := true } := by
  simp [Session.Close, h]

theorem Close_of_closed {s : Lifecycle} (h : s.ticker_done_closed = true) :
    Session.Close s = .panic "close of closed channel" := by
  simp [Session.Close, h]

/-- Only a Close on a closed ticker_done panics. -/
theorem step_cases {s : Lifecycle} {ev : Event} {r : Result Lifecycle Unit} (h : step s ev = some r) :
    (ev.is_close = true ∧ s.ticker_done_closed = true ∧ r = .panic "close of closed channel") ∨
    (∃ s', r = .ok () s' ∧ s'.ticker_done_closed = (s.ticker_done_closed || ev.is_close) ∧
      (ev.is_close = true → s.ticker_done_closed = false)) := by
  cases ev with
  | session_close | connection_close =>
    cases hd : s.ticker_done_closed
    · right
      simp only [step, Connection.Close, Close_of_open hd, Result.discard, Option.some.injEq] at h
      exact ⟨_, h.symm, rfl, fun _ => rfl⟩
    · left
      simp only [step, Connection.Close, Close_of_closed hd, Result.discard, Option.some.injEq] at h
      exact ⟨rfl, rfl, h.symm⟩
  | tick sent =>
    simp only [step] at h
    split at h
    · cases h; cases sent <;> exact .inr ⟨_, rfl, (Bool.or_false _).symm, nofun⟩
    · cases h
  | done =>
    simp only [step] at h
    split at h
    · cases h; exact .inr ⟨_, rfl, (Bool.or_false _).symm, nofun⟩
    · cases h
  | io =>
    cases h; exact .inr ⟨_, rfl, (Bool.or_false _).symm, nofun⟩

/-! ### Runs -/

/-- Close calls already made: ticker_done is closed or not. -/
def closed_count (s : Lifecycle) : Nat := if s.ticker_done_closed then 1 else 0

theorem closed_count_le (s : Lifecycle) : closed_count s ≤ 1 := by
  unfold closed_count; split <;> omega

/-- A step that goes on counts one more Close exactly when it is one. -/
theorem closed_count_step {s s' : Lifecycle} {c : Bool}
    (hs' : s'.ticker_done_closed = (s.ticker_done_closed || c)) (fresh : c = true → s.ticker_done_closed = false) :
    closed_count s' = closed_count s + if c then 1 else 0 := by
  unfold closed_count
  rw [hs']
  revert fresh
  cases s.ticker_done_closed <;> cases c <;> decide

theorem run_panics {s : Lifecycle} {evs : List Event} {r : Result Lifecycle Unit}
    (two : 2 ≤ closes evs + closed_count s) (hr : run s evs = some r) :
    r = .panic "close of closed channel" := by
  induction evs generalizing s with
  | nil => have := closed_count_le s; simp only [closes, List.countP_nil] at two; omega
  | cons ev evs ih =>
    simp only [run] at hr
    cases hs : step s ev with
    | none => rw [hs] at hr; cases hr
    | some r₁ =>
      rw [hs] at hr
      rcases step_cases hs with ⟨-, -, rfl⟩ | ⟨s', rfl, hs', fresh⟩
      · cases hr; rfl
      · refine ih ?_ hr
        rw [closed_count_step hs' fresh]
        simp only [closes, List.countP_cons] at two ⊢
        omega

/-- Every interleaving with two calls of Close panics at the second. -/
theorem Close_twice_panics (evs : List Event) (two : 2 ≤ closes evs) (r : Result Lifecycle Unit)
    (hr : run .connected evs = some r) : r = .panic "close of closed channel" :=
  run_panics (by rwa [show closed_count .connected = 0 from rfl]) hr

theorem Close_twice_panics_in_sequence :
    ∃ r, run .connected [.session_close, .session_close] = some r ∧ r = .panic "close of closed channel" :=
  ⟨_, rfl, Close_twice_panics [.session_close, .session_close] (by decide) _ rfl⟩

/-! ### The resources along a run -/

/-- The session's resources in every state a run reaches. -/
structure Lifecycle.Tidy (s : Lifecycle) : Prop where
  conn : s.conn_closed = s.ticker_done_closed
  done_stopped : s.ticker_done_closed = true → s.ticker_stopped = true
  exited_stopped : s.keepalive_running = false → s.ticker_stopped = true

theorem Lifecycle.Tidy.of_step {s s' : Lifecycle} {ev : Event} (hs : s.Tidy) (h : step s ev = some (.ok () s')) :
    s'.Tidy := by
  cases ev with
  | session_close | connection_close =>
    cases hd : s.ticker_done_closed
    · simp only [step, Connection.Close, Close_of_open hd, Result.discard, Option.some.injEq, Result.ok.injEq,
        true_and] at h
      subst h
      exact ⟨rfl, fun _ => rfl, fun _ => rfl⟩
    · simp [step, Connection.Close, Close_of_closed hd, Result.discard] at h
  | tick sent =>
    simp only [step] at h
    split at h
    · cases sent <;>
        simp only [Option.some.injEq, Result.ok.injEq, true_and, Bool.false_eq_true, if_true, if_false] at h <;>
        subst h
      · exact ⟨hs.conn, fun _ => rfl, fun _ => rfl⟩
      · exact hs
    · cases h
  | done =>
    simp only [step] at h
    split at h
    · next hr =>
      simp only [Option.some.injEq, Result.ok.injEq, true_and] at h
      subst h
      exact ⟨hs.conn, hs.done_stopped, fun _ => hs.done_stopped hr.2⟩
    · cases h
  | io => cases h; exact hs

theorem Lifecycle.Tidy.of_run {s s' : Lifecycle} {evs : List Event} (hs : s.Tidy)
    (h : run s evs = some (.ok () s')) : s'.Tidy := by
  induction evs generalizing s with
  | nil => cases h; exact hs
  | cons ev evs ih =>
    simp only [Rsqlib.run] at h
    cases h₁ : Rsqlib.step s ev with
    | none => rw [h₁] at h; cases h
    | some r =>
      rw [h₁] at h
      cases r with
      | ok _ s₁ => exact ih (hs.of_step h₁) h
      | error _ _ | panic _ => cases h

/-- A Close that does not panic returns no error, and a returned keepalive
goroutine leaves the ticker stopped. -/
theorem Close_never_fails (evs : List Event) (s : Lifecycle) (h : run .connected evs = some (.ok () s)) :
    s.Tidy ∧ ∀ err s', Session.Close s = .ok err s' → err = none := by
  have hs : s.Tidy := Lifecycle.Tidy.of_run ⟨rfl, by decide, by decide⟩ h
  refine ⟨hs, fun err s' hc => ?_⟩
  cases hd : s.ticker_done_closed
  · rw [Close_of_open hd, hs.conn, hd] at hc
    cases hc; rfl
  · rw [Close_of_closed hd] at hc
    cases hc

theorem Close_never_fails_after_tick :
    run .connected [.tick true, .io] = some (.ok () .connected) ∧ Lifecycle.connected.Tidy ∧
      ∀ err s', Session.Close .connected = .ok err s' → err = none :=
  ⟨rfl, Close_never_fails [.tick true, .io] .connected rfl⟩

end Rsql.Rsqlib
