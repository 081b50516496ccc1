import Notary.Lib.Transaction

/-! Transactions of several statements under `READ COMMITTED`. Each statement sees the rows
committed before it together with the transaction's own writes, and a row that one transaction
has locked waits for that transaction in every other. -/

namespace Relational

/-- A transaction as its statements. A statement names the rows it locked, given its result; one
that locked no row wrote none. -/
inductive Program (σ ε κ α : Type) : Type 1
  | done (a : α)
  | fail (e : ε)
  | stmt {β : Type} (x : Tx σ ε β) (locks : β → List κ) (next : β → Program σ ε κ α)

namespace Program

variable {σ ε κ α β : Type}

protected def bind : Program σ ε κ α → (α → Program σ ε κ β) → Program σ ε κ β
  | done a, f => f a
  | fail e, _ => fail e
  | stmt x locks next, f => stmt x locks fun b => (next b).bind f

instance : Monad (Program σ ε κ) where
  pure := done
  bind := Program.bind

/-- One statement on its own. -/
def exec (x : Tx σ ε α) (locks : α → List κ) : Program σ ε κ α := stmt x locks done

/-- A statement that only reads. -/
def select (x : Tx σ ε α) : Program σ ε κ α := exec x fun _ => []

def require (o : Option α) (e : ε) : Program σ ε κ α :=
  match o with
  | some a => done a
  | none => fail e

def ensure (c : Prop) [Decidable c] (e : ε) : Program σ ε κ Unit := if c then done () else fail e

def ofExcept (x : Except ε α) : Program σ ε κ α :=
  match x with
  | .ok a => done a
  | .error e => fail e

/-- The transaction when nothing comes between its statements. -/
def run : Program σ ε κ α → Tx σ ε α
  | done a => pure a
  | fail e => throw e
  | stmt x _ next => x >>= fun b => (next b).run

@[simp] theorem run_pure (a : α) : (pure a : Program σ ε κ α).run = pure a := rfl

@[simp] theorem run_fail (e : ε) : (fail e : Program σ ε κ α).run = throw e := rfl

@[simp] theorem run_exec (x : Tx σ ε α) (locks : α → List κ) : (exec x locks).run = x :=
  bind_pure x

@[simp] theorem run_select (x : Tx σ ε α) : (select x : Program σ ε κ α).run = x := bind_pure x

@[simp] theorem run_require (o : Option α) (e : ε) :
    (require o e : Program σ ε κ α).run = Tx.require o e := by
  cases o <;> rfl

@[simp] theorem run_ensure (c : Prop) [Decidable c] (e : ε) :
    (ensure c e : Program σ ε κ Unit).run = Tx.ensure c e := by
  funext s
  unfold ensure Tx.ensure
  split <;> rfl

@[simp] theorem run_ofExcept (x : Except ε α) :
    (ofExcept x : Program σ ε κ α).run = Tx.ofExcept x := by
  cases x <;> rfl

@[simp] theorem run_bind (p : Program σ ε κ α) (f : α → Program σ ε κ β) :
    (p >>= f).run = p.run >>= fun a => (f a).run := by
  change (p.bind f).run = _
  induction p with
  | done a => exact (pure_bind a fun a => (f a).run).symm
  | fail e => rfl
  | stmt x _ next ih =>
    change (x >>= fun b => ((next b).bind f).run) = (x >>= fun b => (next b).run) >>= _
    simp only [ih, bind_assoc]

end Program

/-- The uncommitted part of a transaction: what its writes make of a committed state, and the
rows it has locked. -/
structure Uncommitted (σ κ : Type) where
  own : σ → Option σ
  locked : List κ

namespace Uncommitted

variable {σ ε κ α : Type}

/-- A transaction that has begun. -/
def begin : Uncommitted σ κ := ⟨some, []⟩

/-- Run a statement on the committed state together with the transaction's own writes. -/
def execute (t : Uncommitted σ κ) (committed : σ) (x : Tx σ ε α) (locks : α → List κ) :
    Option (α × Uncommitted σ κ) :=
  match t.own committed with
  | none => none
  | some view =>
    match x view with
    | .error _ => none
    | .ok (a, _) =>
      if (locks a).isEmpty then some (a, t)
      else some (a, ⟨fun s => (t.own s).bind fun v => (x v).toOption.map Prod.snd,
        t.locked ++ locks a⟩)

theorem execute_eq_some {t t' : Uncommitted σ κ} {s : σ} {x : Tx σ ε α} {locks : α → List κ}
    {a : α} (h : t.execute s x locks = some (a, t')) :
    ∃ v v', t.own s = some v ∧ x v = .ok (a, v') ∧
      (locks a = [] ∧ t' = t ∨ locks a ≠ [] ∧
        t' = ⟨fun s => (t.own s).bind fun v => (x v).toOption.map Prod.snd,
          t.locked ++ locks a⟩) := by
  unfold execute at h
  split at h
  · cases h
  · rename_i v hv
    split at h
    · cases h
    · rename_i v' hx
      split at h
      · rename_i hl
        cases h
        exact ⟨v, v', hv, hx, .inl ⟨List.isEmpty_iff.mp hl, rfl⟩⟩
      · rename_i hl
        cases h
        exact ⟨v, v', hv, hx, .inr ⟨fun hn => hl (List.isEmpty_iff.mpr hn), rfl⟩⟩

/-- What a transaction that has run another statement makes of a committed state. -/
theorem own_execute {t t' : Uncommitted σ κ} {s : σ} {x : Tx σ ε α} {locks : α → List κ}
    {a : α} (h : t.execute s x locks = some (a, t')) {c v' : σ} (hv' : t'.own c = some v') :
    (locks a = [] ∧ t.own c = some v') ∨
      locks a ≠ [] ∧ ∃ v b, t.own c = some v ∧ x v = .ok (b, v') := by
  obtain ⟨_, _, -, -, ⟨hn, rfl⟩ | ⟨hs, rfl⟩⟩ := execute_eq_some h
  · exact .inl ⟨hn, hv'⟩
  · obtain ⟨v, hv, hr⟩ := Option.bind_eq_some_iff.mp hv'
    cases hx : x v with
    | error =>
      rw [hx] at hr
      cases hr
    | ok r =>
      rw [hx] at hr
      cases hr
      exact .inr ⟨hs, v, r.1, hv, hx⟩

/-- Neither transaction has locked a row of the other. -/
def Compatible [DecidableEq κ] (t u : Uncommitted σ κ) : Prop := ∀ k ∈ t.locked, k ∉ u.locked

instance [DecidableEq κ] (t u : Uncommitted σ κ) : Decidable (t.Compatible u) :=
  inferInstanceAs (Decidable (∀ k ∈ t.locked, k ∉ u.locked))

end Uncommitted

end Relational
