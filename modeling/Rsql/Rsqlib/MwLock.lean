import Rsql.Msgp.Doomed
import Rsql.Msgp.RoundTrip
import Rsql.Rsqlib.Session

/-! The writes of a session, serialized by mw_lock: Send_batch and
Send_special_request on a shared msgp.Writer, from goroutines that take their
steps in any order. -/
namespace Rsql.Rsqlib

open Msgp

/-- Sends a keepalive message: the request type, then a flush, whose error
is returned. Any other request type panics, before the lock is taken. -/
def Send_special_request (session : Session) (reqtyp : UInt8) : Option (Option Error × Session) :=
  if reqtyp ≠ REQTYP_KEEPALIVE then none
  else do
    let mw ← WriteUint8 session.net session.mw reqtyp
    let (err, mw) := Flush session.net mw
    some (err, { session with mw := mw })

/-- A request a goroutine sends on the session: a batch text with
Send_batch, or a request type with Send_special_request. -/
inductive Request where
  | batch (batch_text : Bytes)
  | special (reqtyp : UInt8)
  deriving DecidableEq, Repr

namespace Request

/-- The calls a send makes on the Writer while it holds mw_lock. -/
def calls : Request → List Op
  | batch batch_text => [.WriteUint8 REQTYP_BATCH, .WriteStringFromBytes batch_text, .Flush]
  | special reqtyp => [.WriteUint8 reqtyp, .Flush]

/-- The requests that get as far as mw_lock: Send_special_request panics on
any type but REQTYP_KEEPALIVE. -/
def valid : Request → Bool
  | batch _ => true
  | special reqtyp => reqtyp == REQTYP_KEEPALIVE

/-- The encoder takes the request: a batch text fits the string header's
uint32 length. -/
def fits : Request → Bool
  | batch batch_text => decide (batch_text.length ≤ MaxUint32)
  | special _ => true

/-- The error a send returns when its flush leaves the Writer with doom
`err`: Send_batch replaces it for a text over BATCH_TEXT_SIZE_MAX. -/
def report : Request → Option Error → Option Error
  | batch batch_text, err =>
    err.map fun e => if BATCH_TEXT_SIZE_MAX < batch_text.length then .batch_too_large else e
  | special _, err => err

def send (session : Session) : Request → Option (Option Error × Session)
  | batch batch_text => Send_batch session batch_text
  | special reqtyp => Send_special_request session reqtyp

end Request

theorem Flush_returns_doomed (net : Net) (mw : Writer) : (Flush net mw).1 = (Flush net mw).2.doomed := by
  unfold Flush
  split
  · next h => exact h.symm
  · split <;> simp_all

theorem WriteUint8_eq_some (net : Net) (mw : Writer) (v : UInt8) :
    ∃ mw', WriteUint8 net mw v = some mw' := by
  unfold WriteUint8 write_with
  split <;> simp

/-- A send is its lock section: the calls of `calls` on the Writer, then the
error `report` makes of the doom they leave; an invalid request panics. -/
theorem send_eq_run (session : Session) (r : Request) :
    r.send session = if r.valid then (Msgp.run session.net session.mw r.calls).map fun p =>
      (r.report p.1.doomed, { session with mw := p.1 }) else none := by
  cases r with
  | batch t =>
    obtain ⟨mw₁, h₁⟩ := WriteUint8_eq_some session.net session.mw REQTYP_BATCH
    simp only [Request.send, Send_batch, Request.valid, Request.calls, Msgp.run, exec, if_true, h₁,
      Option.map_some', Option.bind_eq_bind, Option.some_bind]
    cases WriteStringFromBytes session.net mw₁ t with
    | none => rfl
    | some mw₂ =>
      simp only [Option.map_some', Option.some_bind, Flush_returns_doomed, Option.pure_def]
      cases (Flush session.net mw₂).2.doomed <;> rfl
  | special reqtyp =>
    obtain ⟨mw₁, h₁⟩ := WriteUint8_eq_some session.net session.mw reqtyp
    simp only [Request.send, Send_special_request, Request.valid, Request.calls, Msgp.run, exec, h₁,
      Option.map_some', Option.bind_eq_bind, Option.some_bind, Flush_returns_doomed, beq_iff_eq,
      ite_not, Option.pure_def]
    rfl

/-- A call of a request the encoder takes does not panic. -/
theorem exec_calls_some {r : Request} {op : Op} (hf : r.fits) (hop : op ∈ r.calls) (net : Net)
    (mw : Writer) : ∃ p, exec net mw op = some p := by
  have hu : ∀ v, ∃ p, exec net mw (.WriteUint8 v) = some p := fun v => by
    obtain ⟨mw', h⟩ := WriteUint8_eq_some net mw v
    exact ⟨(mw', none), by simp [exec, h]⟩
  cases r with
  | batch t =>
    simp only [Request.calls, List.mem_cons, List.mem_singleton, List.not_mem_nil, or_false] at hop
    rcases hop with rfl | rfl | rfl
    · exact hu _
    · have ht : ¬MaxUint32 < t.length := by simpa [Request.fits] using hf
      obtain ⟨mw', h⟩ : ∃ mw', WriteStringFromBytes net mw t = some mw' := by
        unfold WriteStringFromBytes write_with
        split <;> simp [AppendStringFromBytes, AppendString, ht]
      exact ⟨(mw', none), by simp [exec, h]⟩
    · exact ⟨_, rfl⟩
  | special reqtyp =>
    simp only [Request.calls, List.mem_cons, List.mem_singleton, List.not_mem_nil, or_false] at hop
    rcases hop with rfl | rfl
    · exact hu _
    · exact ⟨_, rfl⟩

/-! ### One goroutine: sends one after another -/

/-- The sends of `reqs` one after another on one session: the error each
returns and the session after them; `none` when one panics. -/
def send_all (session : Session) : List Request → Option (List (Option Error) × Session)
  | [] => some ([], session)
  | r :: reqs => (r.send session).bind fun (err, session) =>
      (send_all session reqs).map fun (errs, session) => (err :: errs, session)

theorem send_all_snoc {session s₁ s₂ : Session} {reqs : List Request} {r : Request}
    {errs : List (Option Error)} {err : Option Error}
    (h : send_all session reqs = some (errs, s₁)) (hr : r.send s₁ = some (err, s₂)) :
    send_all session (reqs ++ [r]) = some (errs ++ [err], s₂) := by
  induction reqs generalizing session errs with
  | nil =>
    cases h
    simp [send_all, hr]
  | cons r' reqs ih =>
    simp only [send_all, Option.bind_eq_some, Option.map_eq_some'] at h
    obtain ⟨⟨err', s'⟩, h', ⟨errs', s''⟩, hrest, he⟩ := h
    cases he
    simp [send_all, h', ih hrest]

/-! ### What the connection receives -/

/-- How the bytes of a request read back with a msgp.Reader: the request
type, then for a batch its text as a string. -/
def read_request : ReadM Request := do
  let reqtyp ← ReadUint8
  if reqtyp = REQTYP_BATCH then return .batch (← ReadStringAsBytes)
  else return .special reqtyp

theorem send_doomed {session session' : Session} {r : Request} {err : Option Error} {e : Error}
    (h : r.send session = some (err, session')) (hd : session.mw.doomed = some e) :
    session'.mw.doomed = some e := by
  rw [send_eq_run] at h
  split at h
  · obtain ⟨⟨mw', rs⟩, hr, he⟩ := Option.map_eq_some'.mp h
    cases he
    exact (run_doomed hd hr).1
  · cases h

theorem send_all_doomed {session session' : Session} {reqs : List Request} {errs : List (Option Error)}
    {e : Error} (h : send_all session reqs = some (errs, session')) (hd : session.mw.doomed = some e) :
    session'.mw.doomed = some e := by
  induction reqs generalizing session errs with
  | nil => cases h; exact hd
  | cons r reqs ih =>
    simp only [send_all, Option.bind_eq_some, Option.map_eq_some'] at h
    obtain ⟨⟨err, s₁⟩, h₁, ⟨errs', s₂⟩, h₂, he⟩ := h
    cases he
    exact ih h₂ (send_doomed h₁ hd)

theorem issued_batch (staging batch_text : Bytes) :
    issued staging (Request.batch batch_text).calls = (AppendString [] batch_text).map fun enc =>
      [.write (AppendUint8 [] REQTYP_BATCH), .write enc, .flush] := by
  cases h : AppendString [] batch_text <;>
    simp [Request.calls, issued, issue, Op.append, AppendStringFromBytes, h]

theorem issued_special (staging : Bytes) (reqtyp : UInt8) :
    issued staging (Request.special reqtyp).calls = some [.write (AppendUint8 [] reqtyp), .flush] := by
  simp [Request.calls, issued, issue, Op.append]

/-- The calls a valid request issues write bytes that read back as it. -/
theorem issued_decodes {staging : Bytes} {r : Request} {calls : List BwCall} (hv : r.valid = true)
    (hi : issued staging r.calls = some calls) : Decodes read_request (written calls) r := by
  cases r with
  | batch t =>
    rw [issued_batch] at hi
    obtain ⟨enc, hs, rfl⟩ := Option.map_eq_some'.mp hi
    simp only [written, List.append_nil]
    refine (ReadUint8_AppendUint8 REQTYP_BATCH).bind ?_
    rw [if_pos rfl]
    exact (ReadStringAsBytes_AppendString hs).bind_pure rfl
  | special reqtyp =>
    have hk : reqtyp = REQTYP_KEEPALIVE := by simpa [Request.valid] using hv
    subst hk
    cases (issued_special _ _).symm.trans hi
    refine (ReadUint8_AppendUint8 REQTYP_KEEPALIVE).bind ?_
    rw [if_neg (by decide)]
    exact Decodes.pure rfl

/-- A send that leaves the Writer healthy hands the connection the bytes of
its request, which read back as that request. -/
theorem send_wire {session session' : Session} {r : Request} {err : Option Error}
    (h : r.send session = some (err, session')) (hd : session'.mw.doomed = none) :
    ∃ w, written session'.mw.calls = written session.mw.calls ++ w ∧ Decodes read_request w r := by
  rw [send_eq_run] at h
  split at h
  · next hv =>
    obtain ⟨⟨mw', rs⟩, hr, he⟩ := Option.map_eq_some'.mp h
    cases he
    have hd₀ : session.mw.doomed = none := by
      cases hd₀ : session.mw.doomed with
      | none => rfl
      | some e => simp [(run_doomed hd₀ hr).1] at hd
    rcases run_healthy hd₀ hr with ⟨-, calls, hi, hc, -⟩ | ⟨e, _, _, _, _, _, _, _, _, _, _, hdoom⟩
    · rw [hc, written_append]
      exact ⟨written calls, rfl, issued_decodes hv hi⟩
    · simp [hdoom] at hd
  · cases h

/-- Sends one after another that leave the Writer healthy hand the
connection bytes that read back as their requests, in order. -/
theorem send_all_wire {session session' : Session} {reqs : List Request} {errs : List (Option Error)}
    (h : send_all session reqs = some (errs, session')) (hd : session'.mw.doomed = none) :
    ∃ w, written session'.mw.calls = written session.mw.calls ++ w ∧
      Decodes (GoM.repeat_n read_request reqs.length) w reqs := by
  induction reqs generalizing session errs with
  | nil =>
    cases h
    exact ⟨[], by simp, Decodes.pure rfl⟩
  | cons r reqs ih =>
    simp only [send_all, Option.bind_eq_some, Option.map_eq_some'] at h
    obtain ⟨⟨err, s₁⟩, h₁, ⟨errs', s₂⟩, h₂, he⟩ := h
    cases he
    have hd₁ : s₁.mw.doomed = none := by
      cases hd₁ : s₁.mw.doomed with
      | none => rfl
      | some e => simp [send_all_doomed h₂ hd₁] at hd
    obtain ⟨w₁, hw₁, hr₁⟩ := send_wire h₁ hd₁
    obtain ⟨w₂, hw₂, hr₂⟩ := ih h₂
    exact ⟨w₁ ++ w₂, by rw [hw₂, hw₁, List.append_assoc], hr₁.bind (hr₂.bind_pure rfl)⟩

/-! ### Goroutines sharing the Writer -/

namespace MwLock

/-- The goroutines of a session between their steps. `lock` is mw_lock's
holder, its request and how many of its calls it has made; `sent` is the
lock's history, which the code does not keep. -/
structure Sys (G : Type) where
  mw : Writer
  lock : Option (G × Request × Nat)
  /-- The requests each goroutine has still to send, in its order. -/
  todo : G → List Request
  sent : List (G × Request × Option Error)

/-- A step of one goroutine. -/
inductive Event (G : Type) where
  /-- mw_lock.Lock(), in the send of the first request it has still to send -/
  | lock (g : G)
  /-- the next call of its send on the Writer -/
  | call (g : G)
  /-- the deferred Unlock(), once its send has made all its calls -/
  | unlock (g : G)
  deriving DecidableEq, Repr

section Goroutines

variable {G : Type}

/-- No goroutine holds the lock and none has sent anything yet. -/
def start (mw : Writer) (todo : G → List Request) : Sys G := ⟨mw, none, todo, []⟩

/-- The calls the lock's holder has made under it. -/
def Sys.held_calls (s : Sys G) : List Op :=
  match s.lock with
  | some (_, r, pc) => r.calls.take pc
  | none => []

/-- The error a finished send returned. -/
def Sys.returned (x : G × Request × Option Error) : Option Error := x.2.1.report x.2.2

@[simp] theorem held_calls_of_none {s : Sys G} (h : s.lock = none) : s.held_calls = [] := by
  simp [Sys.held_calls, h]

variable [DecidableEq G]

/-- `none` when the step cannot be taken: the lock is not the goroutine's to
take or to release, or the send panics. -/
def step (net : Net) (s : Sys G) : Event G → Option (Sys G)
  | .lock g => match s.lock, s.todo g with
    | none, r :: rest =>
      if r.valid then some { s with lock := some (g, r, 0), todo := Function.update s.todo g rest }
      else none
    | _, _ => none
  | .call g => match s.lock with
    | some (h, r, pc) =>
      if h = g then (r.calls[pc]?).bind fun op =>
        (exec net s.mw op).map fun p => { s with mw := p.1, lock := some (g, r, pc + 1) }
      else none
    | none => none
  | .unlock g => match s.lock with
    | some (h, r, pc) =>
      if h = g ∧ pc = r.calls.length then
        some { s with lock := none, sent := s.sent ++ [(g, r, s.mw.doomed)] }
      else none
    | none => none

/-- A schedule: the goroutines' steps in the order they are taken. -/
def steps (net : Net) : Sys G → List (Event G) → Option (Sys G)
  | s, [] => some s
  | s, e :: es => (step net s e).bind fun s' => steps net s' es

/-- The request goroutine `g` is sending under the lock, if it holds it. -/
def Sys.holding (s : Sys G) (g : G) : List Request :=
  match s.lock with
  | some (h, r, _) => if h = g then [r] else []
  | none => []

/-- The requests of goroutine `g` whose sends are over, in order. -/
def Sys.done (s : Sys G) (g : G) : List Request :=
  (s.sent.filter (·.1 == g)).map (·.2.1)

variable {net : Net} {s s' : Sys G} {g : G}

theorem step_lock_eq (h : step net s (.lock g) = some s') :
    ∃ r rest, s.lock = none ∧ s.todo g = r :: rest ∧ r.valid ∧
      s' = { s with lock := some (g, r, 0), todo := Function.update s.todo g rest } := by
  simp only [step] at h
  split at h
  · next r rest hl ht =>
    split at h
    · exact ⟨r, rest, hl, ht, ‹_›, (Option.some.inj h).symm⟩
    · cases h
  · cases h

theorem step_call_eq (h : step net s (.call g) = some s') :
    ∃ r pc op mw r', s.lock = some (g, r, pc) ∧ r.calls[pc]? = some op ∧
      exec net s.mw op = some (mw, r') ∧ s' = { s with mw := mw, lock := some (g, r, pc + 1) } := by
  simp only [step] at h
  split at h
  · next h' r pc hl =>
    split at h
    · subst h'
      simp only [Option.bind_eq_some, Option.map_eq_some'] at h
      obtain ⟨op, hop, ⟨mw, r'⟩, he, rfl⟩ := h
      exact ⟨r, pc, op, mw, r', hl, hop, he, rfl⟩
    · cases h
  · cases h

theorem step_unlock_eq (h : step net s (.unlock g) = some s') :
    ∃ r, s.lock = some (g, r, r.calls.length) ∧
      s' = { s with lock := none, sent := s.sent ++ [(g, r, s.mw.doomed)] } := by
  simp only [step] at h
  split at h
  · next h' r pc hl =>
    split at h
    · next hc =>
      obtain ⟨rfl, rfl⟩ := hc
      exact ⟨r, hl, (Option.some.inj h).symm⟩
    · cases h
  · cases h

@[simp] theorem holding_of_none (h : s.lock = none) : s.holding g = [] := by
  simp [Sys.holding, h]

/-- What every state reached from `start session.mw todo₀` satisfies. -/
structure Serial (session : Session) (todo₀ : G → List Request) (s : Sys G) : Prop where
  /-- The finished sends returned what one goroutine calling them in lock
  order gets, and the holder has made its calls on the Writer they left. -/
  sends : ∃ mw₁, send_all session (s.sent.map (·.2.1)) =
      some (s.sent.map Sys.returned, { session with mw := mw₁ }) ∧
    ∃ rs, Msgp.run session.net mw₁ s.held_calls = some (s.mw, rs)
  held : ∀ g r pc, s.lock = some (g, r, pc) → r.valid ∧ pc ≤ r.calls.length
  /-- Each goroutine sends its requests in its own order. -/
  program : ∀ g, s.done g ++ s.holding g ++ s.todo g = todo₀ g
  doom_kept : ∀ x ∈ s.sent, ∀ e, x.2.2 = some e → s.mw.doomed = some e
  sticky : (s.sent.map (·.2.2)).Pairwise fun a b => ∀ e, a = some e → b = some e

variable {session : Session} {todo₀ : G → List Request}

theorem start_serial : Serial session todo₀ (start session.mw todo₀) where
  sends := ⟨session.mw, rfl, [], rfl⟩
  held _ _ _ h := by cases h
  program _ := by simp [start, Sys.done]
  doom_kept _ h := by cases h
  sticky := List.Pairwise.nil

theorem lock_serial (hs : Serial session todo₀ s) (h : step session.net s (.lock g) = some s') :
    Serial session todo₀ s' := by
  obtain ⟨r, rest, hl, ht, hv, rfl⟩ := step_lock_eq h
  obtain ⟨mw₁, h₁, rs, h₂⟩ := hs.sends
  refine ⟨⟨mw₁, h₁, rs, by simpa [Sys.held_calls, hl] using h₂⟩, ?_, fun g' => ?_, hs.doom_kept,
    hs.sticky⟩
  · rintro _ _ _ ⟨⟩
    exact ⟨hv, Nat.zero_le _⟩
  · have hp := hs.program g'
    by_cases hg : g = g'
    · subst hg
      simpa [Sys.holding, Sys.done, hl, ht] using hp
    · simpa [Sys.holding, Sys.done, hl, hg, Function.update_noteq (Ne.symm hg)] using hp

theorem call_serial (hs : Serial session todo₀ s) (h : step session.net s (.call g) = some s') :
    Serial session todo₀ s' := by
  obtain ⟨r, pc, op, mw, r', hl, hop, he, rfl⟩ := step_call_eq h
  obtain ⟨mw₁, h₁, rs, h₂⟩ := hs.sends
  have hc : s.held_calls = r.calls.take pc := by simp [Sys.held_calls, hl]
  refine ⟨⟨mw₁, h₁, rs ++ [r'], ?_⟩, fun _ _ _ h => ?_, fun g' => ?_, fun x hx e hxe => ?_,
    hs.sticky⟩
  · simpa [Sys.held_calls, List.take_succ, hop, ← hc] using run_snoc_of_eq_some h₂ he
  · cases h
    exact ⟨(hs.held _ _ pc hl).1, (List.getElem?_eq_some.mp hop).1⟩
  · simpa [Sys.holding, hl] using hs.program g'
  · exact (exec_doomed (hs.doom_kept x hx e hxe) he).1

theorem unlock_serial (hs : Serial session todo₀ s) (h : step session.net s (.unlock g) = some s') :
    Serial session todo₀ s' := by
  obtain ⟨r, hl, rfl⟩ := step_unlock_eq h
  obtain ⟨mw₁, h₁, rs, h₂⟩ := hs.sends
  have hrun : Msgp.run session.net mw₁ r.calls = some (s.mw, rs) := by
    simpa [Sys.held_calls, hl] using h₂
  have hsend : r.send { session with mw := mw₁ } =
      some (r.report s.mw.doomed, { session with mw := s.mw }) := by
    rw [send_eq_run, if_pos (hs.held g r _ hl).1]
    simp [hrun]
  refine ⟨⟨s.mw, ?_, [], rfl⟩, (fun _ _ _ h => nomatch h), fun g' => ?_, ?_, ?_⟩
  · simpa [Sys.returned] using send_all_snoc h₁ hsend
  · have hp := hs.program g'
    simp only [Sys.holding, hl, Sys.done, List.filter_append, List.map_append] at hp ⊢
    by_cases hg : g = g' <;> simp_all
  · simp only [List.mem_append, List.mem_singleton]
    rintro x (hx | rfl) e hxe
    · exact hs.doom_kept x hx e hxe
    · exact hxe
  · simp only [List.map_append, List.map_singleton]
    refine List.pairwise_append.mpr ⟨hs.sticky, List.pairwise_singleton _ _, ?_⟩
    simp only [List.mem_map, List.mem_singleton]
    rintro _ ⟨x, hx, rfl⟩ _ rfl e hxe
    exact hs.doom_kept x hx e hxe

theorem step_serial (hs : Serial session todo₀ s) {e : Event G} (h : step session.net s e = some s') :
    Serial session todo₀ s' := by
  cases e with
  | lock g => exact lock_serial hs h
  | call g => exact call_serial hs h
  | unlock g => exact unlock_serial hs h

theorem steps_serial {evs : List (Event G)} (hs : Serial session todo₀ s)
    (h : steps session.net s evs = some s') : Serial session todo₀ s' := by
  induction evs generalizing s with
  | nil => cases h; exact hs
  | cons e evs ih =>
    simp only [steps, Option.bind_eq_some] at h
    obtain ⟨s₁, h₁, h⟩ := h
    exact ih (step_serial hs h₁) h

theorem steps_append (xs ys : List (Event G)) :
    steps net s (xs ++ ys) = (steps net s xs).bind fun s' => steps net s' ys := by
  induction xs generalizing s with
  | nil => rfl
  | cons e xs ih =>
    rw [List.cons_append, steps, steps, Option.bind_assoc]
    exact congrArg _ (funext fun _ => ih)

/-- The holder of the lock can make the calls it has left and unlock. -/
theorem finish_held (net : Net) (g : G) {r : Request} (hf : r.fits) :
    ∀ k (s : Sys G), s.lock = some (g, r, r.calls.length - k) → k ≤ r.calls.length →
      ∃ s', steps net s (List.replicate k (.call g) ++ [.unlock g]) = some s' ∧ s'.lock = none ∧
        s'.todo = s.todo
  | 0, s, hl, _ =>
    ⟨{ s with lock := none, sent := s.sent ++ [(g, r, s.mw.doomed)] }, by simp [steps, step, hl], rfl,
      rfl⟩
  | k + 1, s, hl, hk => by
    obtain ⟨op, hop⟩ : ∃ op, r.calls[r.calls.length - (k + 1)]? = some op :=
      ⟨_, List.getElem?_eq_getElem (by omega)⟩
    obtain ⟨⟨mw', x⟩, he⟩ := exec_calls_some hf (List.getElem?_mem hop) net s.mw
    have hpc : r.calls.length - (k + 1) + 1 = r.calls.length - k := by omega
    obtain ⟨s', h', hl', ht'⟩ :=
      finish_held net g hf k { s with mw := mw', lock := some (g, r, r.calls.length - k) } rfl (by omega)
    refine ⟨s', ?_, hl', ht'⟩
    simp only [List.replicate_succ, List.cons_append, steps, step, hl, if_pos, hop, Option.some_bind,
      he, Option.map_some', hpc]
    exact h'

/-- A goroutine with its first request sendable and the lock free sends it. -/
theorem send_next (net : Net) {r : Request} {rest : List Request} (hl : s.lock = none)
    (ht : s.todo g = r :: rest) (hv : r.valid) (hf : r.fits) :
    ∃ s', steps net s (.lock g :: (List.replicate r.calls.length (.call g) ++ [.unlock g])) = some s' ∧
      s'.lock = none ∧ s'.todo = Function.update s.todo g rest := by
  obtain ⟨s', h', hl', ht'⟩ := finish_held net g hf r.calls.length
    { s with lock := some (g, r, 0), todo := Function.update s.todo g rest } (by simp) le_rfl
  exact ⟨s', by simpa [steps, step, hl, ht, hv] using h', hl', ht'⟩

/-- With the lock free, a goroutine whose requests are all sendable sends
them all. -/
theorem drain (net : Net) (g : G) :
    ∀ (reqs : List Request) (s : Sys G), s.lock = none → s.todo g = reqs →
      (∀ r ∈ reqs, r.valid ∧ r.fits) →
      ∃ evs s', steps net s evs = some s' ∧ s'.lock = none ∧ s'.todo = Function.update s.todo g []
  | [], s, hl, ht, _ => ⟨[], s, rfl, hl, by rw [← ht, Function.update_eq_self]⟩
  | r :: rest, s, hl, ht, hok => by
    obtain ⟨hv, hf⟩ := hok r (List.mem_cons_self _ _)
    obtain ⟨s₁, h₁, hl₁, ht₁⟩ := send_next net hl ht hv hf
    obtain ⟨evs, s', h', hl', ht'⟩ :=
      drain net g rest s₁ hl₁ (by simp [ht₁]) fun r hr => hok r (List.mem_cons_of_mem _ hr)
    exact ⟨_ ++ evs, s', by rw [steps_append, h₁]; exact h', hl', by rw [ht', ht₁, Function.update_idem]⟩

/-- With the lock free, goroutines `gs` send all their requests. -/
theorem drain_all (net : Net) :
    ∀ (gs : List G) (s : Sys G), s.lock = none → (∀ g, g ∉ gs → s.todo g = []) →
      (∀ g, ∀ r ∈ s.todo g, r.valid ∧ r.fits) →
      ∃ evs s', steps net s evs = some s' ∧ s'.lock = none ∧ ∀ g, s'.todo g = []
  | [], s, hl, hgs, _ => ⟨[], s, rfl, hl, fun g => hgs g (List.not_mem_nil g)⟩
  | g :: gs, s, hl, hgs, hok => by
    obtain ⟨evs₁, s₁, h₁, hl₁, ht₁⟩ := drain net g (s.todo g) s hl rfl (hok g)
    have ht : ∀ g', s₁.todo g' = if g' = g then [] else s.todo g' := fun g' => by
      rw [ht₁, Function.update_apply]
    obtain ⟨evs₂, s', h₂, hl', ht'⟩ := drain_all net gs s₁ hl₁
      (fun g' hg' => by
        rw [ht g']
        split
        · rfl
        · exact hgs g' (by simp_all))
      (fun g' r hr => by
        rw [ht g'] at hr
        split at hr
        · cases hr
        · exact hok g' r hr)
    exact ⟨evs₁ ++ evs₂, s', by rw [steps_append, h₁]; exact h₂, hl', ht'⟩

/-- Whatever order the goroutines take their steps in, the state is the one
a single goroutine sending in lock order reaches. -/
theorem sends_serialized (session : Session) (todo₀ : G → List Request) (evs : List (Event G))
    (s : Sys G) (h : steps session.net (start session.mw todo₀) evs = some s) :
    (∃ mw₁, send_all session (s.sent.map (·.2.1)) =
        some (s.sent.map Sys.returned, { session with mw := mw₁ }) ∧
      ∃ rs, Msgp.run session.net mw₁ s.held_calls = some (s.mw, rs)) ∧
    ∀ g, s.done g ++ s.holding g ++ s.todo g = todo₀ g :=
  have hs := steps_serial start_serial h
  ⟨hs.sends, hs.program⟩

/-- Goroutine `true` runs a batch; goroutine `false` sends two keepalive
messages. -/
def two_goroutines : Bool → List Request := fun g =>
  if g then [.batch [0x41]] else [.special REQTYP_KEEPALIVE, .special REQTYP_KEEPALIVE]

/-- A keepalive, the batch, then the second keepalive. -/
def keepalive_batch_keepalive : List (Event Bool) :=
  [.lock false, .call false, .call false, .unlock false,
   .lock true, .call true, .call true, .call true, .unlock true,
   .lock false, .call false, .call false, .unlock false]

/-- The state the schedule ends in, for the Writer and history given. -/
def after_schedule (mw : Writer) (sent : List (Bool × Request × Option Error)) : Sys Bool :=
  ⟨mw, none, Function.update (Function.update (Function.update two_goroutines false
    [.special REQTYP_KEEPALIVE]) true []) false [], sent⟩

/-- A fresh session on a network that takes every call. -/
def healthy_session : Session := ⟨⟨[], []⟩, NewWriter, fun _ => none⟩

/-- Each send made its calls; the batch's text went out as a fixstr. -/
def healthy_end : Sys Bool :=
  after_schedule ⟨[30], none, [.write [30], .flush, .write [21], .write [0xa1, 0x41], .flush,
    .write [30], .flush]⟩
    [(false, .special REQTYP_KEEPALIVE, none), (true, .batch [0x41], none),
      (false, .special REQTYP_KEEPALIVE, none)]

theorem sends_serialized_keepalive_batch_keepalive :
    steps healthy_session.net (start healthy_session.mw two_goroutines) keepalive_batch_keepalive =
        some healthy_end ∧
      ((∃ mw₁, send_all healthy_session (healthy_end.sent.map (·.2.1)) =
          some (healthy_end.sent.map Sys.returned, { healthy_session with mw := mw₁ }) ∧
        ∃ rs, Msgp.run healthy_session.net mw₁ healthy_end.held_calls = some (healthy_end.mw, rs)) ∧
      ∀ g, healthy_end.done g ++ healthy_end.holding g ++ healthy_end.todo g = two_goroutines g) :=
  ⟨rfl, sends_serialized healthy_session two_goroutines keepalive_batch_keepalive _ rfl⟩

/-- A failure of the connection is seen by every later send, from whichever
goroutine. -/
theorem failure_reaches_later_sends (session : Session) (todo₀ : G → List Request)
    (evs : List (Event G)) (s : Sys G) (h : steps session.net (start session.mw todo₀) evs = some s) :
    s.sent.Pairwise (fun x y => ∀ e, x.2.2 = some e →
      y.2.2 = some e ∧ Sys.returned y = y.2.1.report (some e)) ∧
    ∀ x ∈ s.sent, ∀ e, x.2.2 = some e → s.mw.doomed = some e := by
  have hs := steps_serial start_serial h
  refine ⟨?_, hs.doom_kept⟩
  refine (List.pairwise_map.mp hs.sticky).imp fun {x y} hxy e hx => ?_
  have hy := hxy e hx
  exact ⟨hy, by rw [Sys.returned, hy]⟩

/-- A fresh session on a network that fails its second call. -/
def failing_session : Session :=
  ⟨⟨[], []⟩, NewWriter, fun n => if n = 1 then some (.transport 0) else none⟩

/-- The first keepalive's flush fails; the batch and the second keepalive
make no call and return its error. -/
def failed_end : Sys Bool :=
  after_schedule ⟨[30], some (.transport 0), [.write [30], .flush]⟩
    [(false, .special REQTYP_KEEPALIVE, some (.transport 0)), (true, .batch [0x41], some (.transport 0)),
      (false, .special REQTYP_KEEPALIVE, some (.transport 0))]

theorem failure_reaches_later_sends_after_keepalive :
    steps failing_session.net (start failing_session.mw two_goroutines) keepalive_batch_keepalive =
        some failed_end ∧
      (failed_end.sent.Pairwise (fun x y => ∀ e, x.2.2 = some e →
          y.2.2 = some e ∧ Sys.returned y = y.2.1.report (some e)) ∧
        ∀ x ∈ failed_end.sent, ∀ e, x.2.2 = some e → failed_end.mw.doomed = some e) :=
  ⟨rfl, failure_reaches_later_sends failing_session two_goroutines keepalive_batch_keepalive _ rfl⟩

/-- The bytes handed to a healthy connection read back as the requests
sent, each whole, in lock order. -/
theorem wire_round_trip (session : Session) (todo₀ : G → List Request) (evs : List (Event G))
    (s : Sys G) (h : steps session.net (start session.mw todo₀) evs = some s) (hl : s.lock = none)
    (hd : s.mw.doomed = none) :
    ∃ w, written s.mw.calls = written session.mw.calls ++ w ∧
      Decodes (GoM.repeat_n read_request s.sent.length) w (s.sent.map (·.2.1)) := by
  obtain ⟨mw₁, h₁, rs, h₂⟩ := (steps_serial start_serial h).sends
  rw [held_calls_of_none hl] at h₂
  cases h₂
  simpa using send_all_wire h₁ hd

theorem wire_round_trip_keepalive_batch_keepalive :
    steps healthy_session.net (start healthy_session.mw two_goroutines) keepalive_batch_keepalive =
        some healthy_end ∧ healthy_end.lock = none ∧ healthy_end.mw.doomed = none ∧
      ∃ w, written healthy_end.mw.calls = written healthy_session.mw.calls ++ w ∧
        Decodes (GoM.repeat_n read_request healthy_end.sent.length) w (healthy_end.sent.map (·.2.1)) :=
  ⟨rfl, rfl, rfl, wire_round_trip healthy_session two_goroutines keepalive_batch_keepalive _ rfl rfl rfl⟩

/-- From a reachable state, the holder of the lock can finish its send and
release the lock, the requests still to send left as they are. -/
theorem release_lock {s : Sys G} (hs : Serial session todo₀ s) (hown : ∀ g, ∀ r ∈ s.holding g, r.fits) :
    ∃ evs s₁, steps session.net s evs = some s₁ ∧ s₁.lock = none ∧ s₁.todo = s.todo := by
  cases hl : s.lock with
  | none => exact ⟨[], s, rfl, hl, rfl⟩
  | some x =>
    obtain ⟨g, r, pc⟩ := x
    obtain ⟨-, hpc⟩ := hs.held g r pc hl
    obtain ⟨s₁, h₁, hl₁, ht₁⟩ := finish_held session.net g (hown g r (by simp [Sys.holding, hl]))
      (r.calls.length - pc) s (by rw [hl, Nat.sub_sub_self hpc]) (Nat.sub_le _ _)
    exact ⟨_, s₁, h₁, hl₁, ht₁⟩

/-- mw_lock never blocks the sends for good. -/
theorem sends_complete (session : Session) (todo₀ : G → List Request) (gs : List G)
    (hgs : ∀ g, g ∉ gs → todo₀ g = []) (hok : ∀ g, ∀ r ∈ todo₀ g, r.valid ∧ r.fits)
    (evs : List (Event G)) (s : Sys G) (h : steps session.net (start session.mw todo₀) evs = some s) :
    ∃ evs' s', steps session.net s evs' = some s' ∧ s'.lock = none ∧
      ∀ g, s'.todo g = [] ∧ s'.done g = todo₀ g := by
  have hs := steps_serial start_serial h
  have hown : ∀ g, ∀ r ∈ s.holding g ++ s.todo g, r.valid ∧ r.fits := fun g r hr =>
    hok g r (by rw [← hs.program g, List.append_assoc]; exact List.mem_append_right _ hr)
  obtain ⟨evs₁, s₁, h₁, hl₁, ht₁⟩ := release_lock hs fun g r hr => (hown g r (List.mem_append_left _ hr)).2
  obtain ⟨evs₂, s', h₂, hl', ht'⟩ := drain_all session.net gs s₁ hl₁
    (fun g hg => by
      have hp := hs.program g
      rw [hgs g hg, List.append_eq_nil] at hp
      rw [ht₁, hp.2])
    (fun g r hr => hown g r (List.mem_append_right _ (ht₁ ▸ hr)))
  have h' : steps session.net s (evs₁ ++ evs₂) = some s' := by rw [steps_append, h₁]; exact h₂
  refine ⟨evs₁ ++ evs₂, s', h', hl', fun g => ⟨ht' g, ?_⟩⟩
  simpa [ht' g, hl'] using (steps_serial hs h').program g

/-- The keepalive goroutine holds the lock, its first call made. -/
def keepalive_in_flight : Sys Bool :=
  ⟨⟨[30], none, [.write [30]]⟩, some (false, .special REQTYP_KEEPALIVE, 1),
    Function.update two_goroutines false [.special REQTYP_KEEPALIVE], []⟩

theorem sends_complete_from_keepalive_in_flight :
    (∀ g, g ∉ [true, false] → two_goroutines g = []) ∧
      (∀ g, ∀ r ∈ two_goroutines g, r.valid ∧ r.fits) ∧
      steps healthy_session.net (start healthy_session.mw two_goroutines) [.lock false, .call false] =
        some keepalive_in_flight ∧
      ∃ evs' s', steps healthy_session.net keepalive_in_flight evs' = some s' ∧ s'.lock = none ∧
        ∀ g, s'.todo g = [] ∧ s'.done g = two_goroutines g :=
  ⟨by decide, by decide, rfl, sends_complete healthy_session two_goroutines [true, false]
    (by decide) (by decide) [.lock false, .call false] _ rfl⟩

end Goroutines

end MwLock

end Rsql.Rsqlib
