/-
Requests, responses and the effects of handlers.  A handler works on a store
that all handlers share and may leave through a fault; the store keeps what
was done up to there.
-/
import SwanServer.Text

namespace SwanServer

/-- The HTTP statuses that handlers answer with. -/
inductive Status where
  | ok
  | badRequest
  | notFound
  | internalServerError
deriving Repr, DecidableEq

/-- What handlers read of a parsed request. -/
structure Request where
  method : Str
  target : Str
  body : Str
deriving Repr, DecidableEq

/-- What handlers write of a response. -/
structure Response where
  version : Nat
  result : Status
  contentType : Str
  accessControlAllowOrigin : Str
  contentLength : Option Nat
  body : Str
deriving Repr, DecidableEq

/-- The response a session starts every request with. -/
def Response.empty : Response where
  version := 11
  result := .ok
  contentType := []
  accessControlAllowOrigin := []
  contentLength := none
  body := []

/-- `RequestHandler::set_response`. -/
def setResponse (status : Status) (contentType body : Str)
    (httpResponse : Response) : Response :=
  { httpResponse with
    version := 11
    result := status
    contentType := contentType
    body := body
    accessControlAllowOrigin := "*".toList
    contentLength := some body.length }

@[simp] theorem setResponse_result (status : Status) (contentType body : Str)
    (httpResponse : Response) :
    (setResponse status contentType body httpResponse).result = status := rfl

@[simp] theorem setResponse_body (status : Status) (contentType body : Str)
    (httpResponse : Response) :
    (setResponse status contentType body httpResponse).body = body := rfl

/-- A computation on the store `σ` that may end in a fault. -/
abbrev Act (σ α : Type) := ExceptT Fault (StateM σ) α

namespace Act

variable {σ α β : Type}

/-- Run a computation: its value or its fault, and the store it leaves. -/
def exec (act : Act σ α) (store : σ) : Except Fault α × σ :=
  Id.run ((ExceptT.run act).run store)

/-- A single access to the store, which may fail. -/
def attempt (f : σ → Except Fault α × σ) : Act σ α := ExceptT.mk f

/-- The outcome of a pure computation. -/
def ofExcept (result : Except Fault α) : Act σ α :=
  attempt fun store => (result, store)

@[simp] theorem exec_pure (value : α) (store : σ) :
    (pure value : Act σ α).exec store = (.ok value, store) := rfl

@[simp] theorem exec_throw (fault : Fault) (store : σ) :
    (throw fault : Act σ α).exec store = (.error fault, store) := rfl

@[simp] theorem exec_attempt (f : σ → Except Fault α × σ) (store : σ) :
    (attempt f).exec store = f store := rfl

@[simp] theorem exec_ofExcept (result : Except Fault α) (store : σ) :
    (ofExcept result : Act σ α).exec store = (result, store) := rfl

theorem ofExcept_ok (value : α) : (ofExcept (.ok value) : Act σ α) = pure value := rfl

theorem exec_bind (act : Act σ α) (next : α → Act σ β) (store : σ) :
    (act >>= next).exec store =
      match act.exec store with
      | (.ok value, later) => (next value).exec later
      | (.error fault, later) => (.error fault, later) := by
  change Id.run (((ExceptT.run act) >>= ExceptT.bindCont next).run store) = _
  rw [StateT.run_bind]
  change Id.run ((ExceptT.bindCont next (act.exec store).1).run (act.exec store).2) = _
  cases hact : act.exec store with
  | mk result later => cases result <;> rfl

/-- A step that succeeds is followed by the rest on the store it leaves. -/
theorem exec_bind_ok {act : Act σ α} {next : α → Act σ β} {store later : σ}
    {value : α} (hact : act.exec store = (.ok value, later)) :
    (act >>= next).exec store = (next value).exec later := by
  rw [exec_bind, hact]

/-- A fault ends the computation. -/
theorem exec_bind_error {act : Act σ α} {next : α → Act σ β} {store later : σ}
    {fault : Fault} (hact : act.exec store = (.error fault, later)) :
    (act >>= next).exec store = (.error fault, later) := by
  rw [exec_bind, hact]

/-- What returns has returned at each step. -/
theorem exists_of_bind_eq_ok {act : Act σ α} {next : α → Act σ β} {store final : σ}
    {result : β} (hresult : (act >>= next).exec store = (.ok result, final)) :
    ∃ value later, act.exec store = (.ok value, later) ∧
      (next value).exec later = (.ok result, final) := by
  rcases hact : act.exec store with ⟨fault | value, later⟩
  · rw [exec_bind_error hact] at hresult
    cases hresult
  · rw [exec_bind_ok hact] at hresult
    exact ⟨value, later, rfl, hresult⟩

@[simp] theorem exec_ite (p : Prop) [Decidable p] (first second : Act σ α)
    (store : σ) :
    (if p then first else second).exec store =
      if p then first.exec store else second.exec store := by
  split <;> rfl

/-- The store stays as it is, whatever the outcome. -/
def ReadsOnly (act : Act σ α) : Prop := ∀ store, (act.exec store).2 = store

theorem readsOnly_pure (value : α) : (pure value : Act σ α).ReadsOnly := fun _ => rfl

theorem readsOnly_throw (fault : Fault) : (throw fault : Act σ α).ReadsOnly :=
  fun _ => rfl

theorem ReadsOnly.bind {act : Act σ α} {next : α → Act σ β} (hact : act.ReadsOnly)
    (hnext : ∀ value, (next value).ReadsOnly) : (act >>= next).ReadsOnly := by
  intro store
  have hstore := hact store
  rcases hexec : act.exec store with ⟨fault | value, later⟩ <;> rw [hexec] at hstore
  · rw [exec_bind_error hexec]
    exact hstore
  · rw [exec_bind_ok hexec, hnext value]
    exact hstore

/-- What holds of the store goes on to hold, whatever the outcome. -/
def Preserves (P : σ → Prop) (act : Act σ α) : Prop :=
  ∀ store, P store → P (act.exec store).2

theorem ReadsOnly.preserves {act : Act σ α} (hreads : act.ReadsOnly) (P : σ → Prop) :
    act.Preserves P := by
  intro store hstore
  rwa [hreads store]

theorem Preserves.bind {P : σ → Prop} {act : Act σ α} {next : α → Act σ β}
    (hact : act.Preserves P) (hnext : ∀ value, (next value).Preserves P) :
    (act >>= next).Preserves P := by
  intro store hstore
  have hlater := hact store hstore
  rcases hexec : act.exec store with ⟨fault | value, later⟩ <;> rw [hexec] at hlater
  · rw [exec_bind_error hexec]
    exact hlater
  · rw [exec_bind_ok hexec]
    exact hnext value later hlater

end Act

end SwanServer
