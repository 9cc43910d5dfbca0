import AaaServer.Sql.Table

namespace sql

/-- What a method can throw, as the transaction manager tells it apart. -/
inductive Throwable where
  | checked
  | runtime
  | error
  deriving DecidableEq

/-- A method that works on the tables of an open transaction. What it wrote
    before it throws stays in the tables until the transaction ends. -/
abbrev Transaction (Tables : Type) := ExceptT Throwable (StateM Tables)

namespace Transaction

variable {Tables A B : Type}

def exec (method : Transaction Tables A) (tables : Tables) : Except Throwable A × Tables :=
  (ExceptT.run method).run tables

/-- `catch (Exception e) { throw new RuntimeException(..) }`. -/
def rethrow (method : Transaction Tables A) : Transaction Tables A :=
  tryCatch method fun
    | .error => throw .error
    | _ => throw .runtime

/-- `@Transactional`: the tables are rolled back after an unchecked throwable
    and committed otherwise, also after a checked exception. -/
def transactional (method : Transaction Tables A) (tables : Tables) : Except Throwable A × Tables :=
  match method.exec tables with
  | (.error .runtime, _) => (.error .runtime, tables)
  | (.error .error, _) => (.error .error, tables)
  | result => result

variable {tables tables' : Tables}

theorem exec_pure_ok_iff {a b : A} :
    (pure a : Transaction Tables A).exec tables = (.ok b, tables') ↔ a = b ∧ tables = tables' := by
  have hpure : (pure a : Transaction Tables A).exec tables = (.ok a, tables) := rfl
  rw [hpure, Prod.mk.injEq, Except.ok.injEq]

theorem exec_bind_ok_iff {x : Transaction Tables A} {f : A → Transaction Tables B} {b : B} :
    (x >>= f).exec tables = (.ok b, tables') ↔
      ∃ a middle, x.exec tables = (.ok a, middle) ∧ (f a).exec middle = (.ok b, tables') := by
  have hbind : (x >>= f).exec tables = match x.exec tables with
      | (.ok a, middle) => (f a).exec middle
      | (.error e, middle) => (.error e, middle) := by
    simp only [exec, ExceptT.run_bind, StateT.run_bind]
    rcases ExceptT.run x |>.run tables with ⟨result, middle⟩
    cases result <;> rfl
  rw [hbind]
  rcases x.exec tables with ⟨result, middle⟩
  cases result <;> simp

theorem exec_rethrow (method : Transaction Tables A) (tables : Tables) :
    (rethrow method).exec tables = match method.exec tables with
      | (.ok a, middle) => (.ok a, middle)
      | (.error .error, middle) => (.error .error, middle)
      | (.error _, middle) => (.error .runtime, middle) := by
  simp only [exec, rethrow, tryCatch, tryCatchThe, MonadExceptOf.tryCatch, ExceptT.tryCatch, ExceptT.mk,
    ExceptT.run, StateT.run_bind]
  rcases StateT.run method tables with ⟨result, middle⟩
  cases result with
  | ok a => rfl
  | error e => cases e <;> rfl

/-- A method that rethrows every exception as an unchecked one is all or nothing. -/
theorem transactional_rethrow {method : Transaction Tables A} {result : Except Throwable A}
    (hresult : (rethrow method).transactional tables = (result, tables')) :
    (∃ a, result = .ok a ∧ method.exec tables = (.ok a, tables')) ∨
      ((∀ a, result ≠ .ok a) ∧ tables' = tables) := by
  rw [transactional, exec_rethrow] at hresult
  rcases hexec : method.exec tables with ⟨outcome, middle⟩
  rw [hexec] at hresult
  cases outcome with
  | ok a =>
    simp only [Prod.mk.injEq] at hresult
    obtain ⟨rfl, rfl⟩ := hresult
    exact .inl ⟨a, rfl, rfl⟩
  | error e =>
    cases e <;> simp only [Prod.mk.injEq] at hresult <;> obtain ⟨rfl, rfl⟩ := hresult <;>
      exact .inr ⟨by simp, rfl⟩

theorem transactional_rethrow_ok {method : Transaction Tables A} {a : A}
    (hexec : method.exec tables = (.ok a, tables')) :
    (rethrow method).transactional tables = (.ok a, tables') := by
  rw [transactional, exec_rethrow, hexec]

end Transaction

end sql
