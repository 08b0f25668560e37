import Mathlib.Data.List.Basic
import Mathlib.Algebra.Group.Nat.Basic
import Mathlib.Algebra.Group.Int

/-! Go calls as state transformers: `GoM σ α` runs on the objects `σ`, which
hold the server's stream, and returns a value, an error (the mutations made
before it stay) or a panic. No call gives back bytes it has read. -/
namespace Rsql

/-- Go byte slices and strings are both byte sequences. -/
abbrev Bytes := List UInt8

/-- A Go int64, in two's complement. -/
abbrev Int64 := BitVec 64

/-- Fields of a server error record, as `drv.BatchError` copies them from
`rsqlib.Error_info`. -/
structure BatchError where
  SrcFile : Bytes := []
  SrcLineNo : Int64 := 0
  SrcFuncname : Bytes := []
  SrcBacktrace : Bytes := []
  Category : Bytes := []
  Message : Bytes := []
  Severity : Bytes := []
  State : Int64 := 0
  Text : Bytes := []
  LineNo : Int64 := 0
  LinePos : Int64 := 0
  deriving DecidableEq, Repr

inductive Error where
  /-- io.EOF: the stream ended before a read started. -/
  | eof
  /-- io.ErrUnexpectedEOF: the stream ended inside a read. -/
  | unexpected_eof
  /-- An error the network returned to a write or a flush. -/
  | transport (id : Nat)
  /-- error_bad_prefix: "msgp funcname: bad prefix byte %08b". -/
  | bad_prefix (funcname : String) (pfx : UInt8)
  /-- "msgp: funcname overflow, read %d". -/
  | overflow (funcname : String) (read : Int)
  /-- "msgp: ReadSimpleType: type not supported". -/
  | type_not_supported
  /-- "Unknown datatype received". -/
  | unknown_datatype
  /-- "Batch: recordcount mismatch (RSQL bug)." with both counts. -/
  | recordcount_mismatch (recordCount bRecordCount : Int64)
  /-- A batch error sent by the server. -/
  | batch (be : BatchError)
  /-- "Batch: connection still contains data from previous batch." -/
  | connection_dirty
  /-- "Connection closed by server. Batch size too large, must be < 100000 bytes." -/
  | batch_too_large
  /-- "Column list not available, no recordset found." -/
  | no_recordset
  /-- net.ErrClosed, "use of closed network connection": Close of a closed socket. -/
  | net_closed
  /-- "param \"%s\": not known.", with the lowercased name. -/
  | param_not_known (param : Bytes)
  /-- "param \"%s\": number %s is invalid.", with the trimmed number string. -/
  | number_invalid (param numstr : Bytes)
  /-- "SQL text: placeholder \"%s\" has not been filled by a Bind method." -/
  | placeholder_not_filled (name : Bytes)
  /-- "scan: record not available." -/
  | scan_record_not_available
  /-- "scan: dest arguments count must be the same as record columns count (%d)." -/
  | scan_dest_count (colCount : Nat)
  /-- "scan: column %d to %s: overflow." -/
  | scan_overflow (i : Nat) (typ : String)
  /-- "scan: destination type not supported." -/
  | scan_dest_not_supported
  /-- "Connection string must contain attr=val pairs separated by semicolon." -/
  | conn_string_not_pairs
  /-- "Connection string: attributes cannot be empty string." -/
  | conn_string_empty_attribute
  /-- "Connection string: value for attribute \"%s\" cannot be empty string." -/
  | conn_string_empty_value (attr : Bytes)
  /-- "Connection string attribute \"%s\" is not supported." -/
  | conn_string_not_supported (attr : Bytes)
  /-- "Login failed": the server's answer to the auth request is not RESTYP_LOGIN_SUCCESS. -/
  | login_failed
  /-- "Connection: login failed.", NewConnection's error for any error of Connect. -/
  | connection_login_failed
  /-- "param \"%s\": invalid float64, is Infinite.", with the name as given. -/
  | float_infinite (param : Bytes)
  /-- "param \"%s\": invalid float64, is NaN.", with the name as given. -/
  | float_nan (param : Bytes)
  deriving DecidableEq, Repr

/-- Objects that hold the part of the server's stream not read yet. -/
class HasStream (σ : Type) where
  unread : σ → Bytes

open HasStream

/-- How a call ends: a value and the objects after it, a returned error and
the objects after it, or a panic. -/
inductive Result (σ α : Type) where
  | ok (a : α) (s : σ)
  | error (e : Error) (s : σ)
  | panic (msg : String)
  deriving DecidableEq, Repr

/-- The call's value dropped, as a call statement drops it. -/
def Result.discard {σ α : Type} : Result σ α → Result σ Unit
  | .ok _ s => .ok () s
  | .error e s => .error e s
  | .panic msg => .panic msg

variable {σ α β : Type} [HasStream σ]

/-- The call that ended in `r` read its stream forward from `s`, never back. -/
def Result.Within (s : σ) : Result σ α → Prop
  | .ok _ s' => (unread s').length ≤ (unread s).length
  | .error _ s' => (unread s').length ≤ (unread s).length
  | .panic _ => True

theorem Result.Within.trans {r : Result σ α} {s s' : σ} (h : r.Within s')
    (le : (unread s').length ≤ (unread s).length) : r.Within s := by
  cases r <;> simp only [Result.Within] at h ⊢ <;> omega

structure GoM (σ : Type) [HasStream σ] (α : Type) where
  run : σ → Result σ α
  within : ∀ s, (run s).Within s

namespace GoM

protected def pure (a : α) : GoM σ α := ⟨fun s => .ok a s, fun _ => le_refl _⟩

protected def bind (x : GoM σ α) (f : α → GoM σ β) : GoM σ β where
  run s := match x.run s with
    | .ok a s' => (f a).run s'
    | .error e s' => .error e s'
    | .panic m => .panic m
  within s := by
    have hx := x.within s
    dsimp only
    cases h : x.run s with
    | ok a s' => exact ((f a).within s').trans (by simpa only [h, Result.Within] using hx)
    | error e s' => simpa only [h] using hx
    | panic m => trivial

instance : Monad (GoM σ) where
  pure := GoM.pure
  bind := GoM.bind

def throw (e : Error) : GoM σ α := ⟨fun s => .error e s, fun _ => le_refl _⟩

/-- Go's panic, here only from failed assertions and impossible cases. -/
def panic (msg : String) : GoM σ α := ⟨fun _ => .panic msg, fun _ => trivial⟩

/-- rsqlib.assert. -/
def assert (c : Bool) : GoM σ Unit :=
  ⟨fun s => if c then .ok () s else .panic "assertion failed", fun s => by
    cases c <;> simp [Result.Within]⟩

/-- A change of the objects that leaves their stream alone. -/
def modify (f : σ → σ) (keeps : ∀ s, unread (f s) = unread s) : GoM σ Unit :=
  ⟨fun s => .ok () (f s), fun s => by simp [Result.Within, keeps]⟩

def get : GoM σ σ := ⟨fun s => .ok s s, fun _ => le_refl _⟩

/-- A call whose returned error is dropped (its state changes stay). -/
def discard (m : GoM σ Unit) : GoM σ Unit where
  run s := match m.run s with
    | .error _ s' => .ok () s'
    | r => r
  within s := by
    have h := m.within s
    dsimp only
    split <;> simp_all [Result.Within]

/-- `n` calls of `m` in a row, their results in order. -/
def repeat_n (m : GoM σ α) : Nat → GoM σ (List α)
  | 0 => pure []
  | n + 1 => do
    let a ← m
    let as ← repeat_n m n
    return a :: as

/-- Runs a call on a part `view` of the objects that holds their stream. -/
def lift {τ : Type} [HasStream τ] (view : σ → τ) (update : τ → σ → σ)
    (hv : ∀ s, unread (view s) = unread s) (hu : ∀ t s, unread (update t s) = unread t)
    (m : GoM τ α) : GoM σ α where
  run s := match m.run (view s) with
    | .ok a t => .ok a (update t s)
    | .error e t => .error e (update t s)
    | .panic msg => .panic msg
  within s := by
    have h := m.within (view s)
    dsimp only
    split <;> simp_all [Result.Within]

@[simp] theorem run_get (s : σ) : (get : GoM σ σ).run s = .ok s s := rfl

@[simp] theorem run_pure (a : α) (s : σ) : (pure a : GoM σ α).run s = .ok a s := rfl

@[simp] theorem run_bind (x : GoM σ α) (f : α → GoM σ β) (s : σ) :
    (x >>= f).run s = match x.run s with
      | .ok a s' => (f a).run s'
      | .error e s' => .error e s'
      | .panic m => .panic m := rfl

@[simp] theorem run_throw (e : Error) (s : σ) : (throw e : GoM σ α).run s = .error e s := rfl

@[simp] theorem run_panic (m : String) (s : σ) : (panic m : GoM σ α).run s = .panic m := rfl

@[simp] theorem run_modify (f : σ → σ) (keeps) (s : σ) :
    (modify f keeps).run s = .ok () (f s) := rfl

@[simp] theorem run_assert (c : Bool) (s : σ) :
    (assert c : GoM σ Unit).run s = if c then .ok () s else .panic "assertion failed" := rfl

@[simp] theorem run_map (f : α → β) (x : GoM σ α) (s : σ) :
    (f <$> x).run s = match x.run s with
      | .ok a s' => .ok (f a) s'
      | .error e s' => .error e s'
      | .panic m => .panic m := by
  show (x >>= fun a => pure (f a)).run s = _
  simp only [run_bind, run_pure]

@[simp] theorem run_lift {τ : Type} [HasStream τ] (view : σ → τ) (update : τ → σ → σ) (hv hu)
    (m : GoM τ α) (s : σ) : (lift view update hv hu m).run s = match m.run (view s) with
      | .ok a t => .ok a (update t s)
      | .error e t => .error e (update t s)
      | .panic msg => .panic msg := rfl

theorem run_bind_ok {x : GoM σ α} {f : α → GoM σ β} {s s' : σ} {a : α}
    (h : x.run s = .ok a s') : (x >>= f).run s = (f a).run s' := by
  simp [h]

theorem run_bind_error {x : GoM σ α} {f : α → GoM σ β} {s s' : σ} {e : Error}
    (h : x.run s = .error e s') : (x >>= f).run s = .error e s' := by
  simp [h]

@[simp] theorem run_bind_pure (x : GoM σ α) (b : β) (s : σ) :
    (x >>= fun _ => pure b).run s = match x.run s with
      | .ok _ s' => .ok b s'
      | .error e s' => .error e s'
      | .panic m => .panic m := by
  simp only [run_bind, run_pure]

/-- A bind that returned a value ran both halves to completion. -/
theorem bind_eq_ok {x : GoM σ α} {f : α → GoM σ β} {s s'' : σ} {b : β}
    (h : (x >>= f).run s = .ok b s'') : ∃ a s', x.run s = .ok a s' ∧ (f a).run s' = .ok b s'' := by
  simp only [run_bind] at h
  split at h
  · exact ⟨_, _, ‹_›, h⟩
  · cases h
  · cases h

/-- A call that reads at least one byte whenever it returns a value. -/
def Consumes (m : GoM σ α) : Prop :=
  ∀ s a s', m.run s = .ok a s' → (unread s').length < (unread s).length

theorem Consumes.bind {x : GoM σ α} (hx : x.Consumes) (f : α → GoM σ β) : (x >>= f).Consumes := by
  intro s b s'' h
  obtain ⟨a, s', h₁, h₂⟩ := bind_eq_ok h
  have hf := (f a).within s'
  rw [h₂] at hf
  exact lt_of_le_of_lt hf (hx s a s' h₁)

theorem Consumes.map {x : GoM σ α} (hx : x.Consumes) (f : α → β) : (f <$> x).Consumes :=
  hx.bind fun a => pure (f a)

theorem Consumes.lift {τ : Type} [HasStream τ] {view : σ → τ} {update : τ → σ → σ} {hv hu}
    {m : GoM τ α} (hm : m.Consumes) : (lift view update hv hu m).Consumes := by
  intro s a s' h
  rw [run_lift] at h
  split at h
  · cases h
    rw [hu, ← hv s]
    exact hm _ _ _ ‹_›
  · cases h
  · cases h

/-! ### Frames and postconditions -/

/-- `m` leaves `f` of the objects as it found it, whether it returns or fails. -/
def Keeps {β : Type} (f : σ → β) (m : GoM σ α) : Prop :=
  ∀ s, match m.run s with
    | .ok _ s' | .error _ s' => f s' = f s
    | .panic _ => True

/-- Every value `m` returns comes with objects satisfying `P`. -/
def Ends (P : α → σ → Prop) (m : GoM σ α) : Prop :=
  ∀ s a s', m.run s = .ok a s' → P a s'

section Frames

variable {β γ : Type} {f : σ → β}

theorem Keeps.pure (a : α) : (pure a : GoM σ α).Keeps f := fun _ => rfl

theorem Keeps.get : (get : GoM σ σ).Keeps f := fun _ => rfl

theorem Keeps.throw (e : Error) : (throw e : GoM σ α).Keeps f := fun _ => rfl

theorem Keeps.panic (m : String) : (panic m : GoM σ α).Keeps f := fun _ => trivial

theorem Keeps.assert (c : Bool) : (assert c : GoM σ Unit).Keeps f := by
  intro s
  cases c <;> trivial

theorem Keeps.modify {g : σ → σ} (hg : ∀ s, f (g s) = f s) (keeps) :
    (modify g keeps).Keeps f := hg

theorem Keeps.bind {x : GoM σ α} {g : α → GoM σ γ} (hx : x.Keeps f) (hg : ∀ a, (g a).Keeps f) :
    (x >>= g).Keeps f := by
  intro s
  have h₁ := hx s
  rw [run_bind]
  cases e : x.run s with
  | ok a s₁ =>
    have h₂ := hg a s₁
    rw [e] at h₁
    dsimp only
    split at h₂ <;> rename_i heq <;> rw [heq] <;> simp_all
  | error => simpa [e] using h₁
  | panic => trivial

theorem Keeps.map {x : GoM σ α} (hx : x.Keeps f) (g : α → γ) : (g <$> x).Keeps f :=
  hx.bind fun a => Keeps.pure (g a)

theorem Keeps.ite {c : Prop} [Decidable c] {m₁ m₂ : GoM σ α} (h₁ : m₁.Keeps f) (h₂ : m₂.Keeps f) :
    (if c then m₁ else m₂).Keeps f := by
  split <;> assumption

theorem Keeps.lift {τ : Type} [HasStream τ] {view : σ → τ} {update : τ → σ → σ} {hv hu}
    (hf : ∀ t s, f (update t s) = f s) (m : GoM τ α) : (lift view update hv hu m).Keeps f := by
  intro s
  rw [run_lift]
  cases m.run (view s) <;> simp [hf]

theorem Ends.bind {P : γ → σ → Prop} {x : GoM σ α} {g : α → GoM σ γ} (hg : ∀ a, (g a).Ends P) :
    (x >>= g).Ends P := by
  intro s b s'' h
  obtain ⟨a, s', -, h₂⟩ := bind_eq_ok h
  exact hg a s' b s'' h₂

theorem Ends.modify {P : Unit → σ → Prop} {g : σ → σ} (hg : ∀ s, P () (g s)) (keeps) :
    (modify g keeps).Ends P := by
  intro s a s' h
  cases h
  exact hg s

end Frames

end GoM

end Rsql
