import Notary.Lib.Transaction

/-! Scripts of transactions. Each transaction of a script commits or rolls back on its own;
an error ends the script and leaves what was committed before it. -/

namespace Relational

/-- A script over the state `σ` that may end with an error of type `ε`. -/
abbrev Script (σ ε : Type) : Type → Type := ExceptT ε (StateM σ)

namespace Script

variable {σ ε α β : Type}

def transaction (x : Tx σ ε α) : Script σ ε α := ExceptT.mk fun s => x.attempt s

def ofExcept (x : Except ε α) : Script σ ε α := ExceptT.mk (pure x)

def require (o : Option α) (e : ε) : Script σ ε α :=
  match o with
  | some a => pure a
  | none => throw e

def exec (x : Script σ ε α) (s : σ) : σ := (x.run s).2

@[simp] theorem exec_pure (a : α) (s : σ) : (pure a : Script σ ε α).exec s = s := rfl

@[simp] theorem exec_throw (e : ε) (s : σ) : (throw e : Script σ ε α).exec s = s := rfl

@[simp] theorem exec_ofExcept (x : Except ε α) (s : σ) :
    (ofExcept x : Script σ ε α).exec s = s := rfl

@[simp] theorem exec_require (o : Option α) (e : ε) (s : σ) :
    (require o e : Script σ ε α).exec s = s := by
  cases o <;> rfl

theorem exec_transaction (x : Tx σ ε α) (s : σ) : (transaction x).exec s = x.exec s := rfl

/-- A sequence ends where its first part does when that part fails, and otherwise where the
second part ends. -/
theorem exec_bind (x : Script σ ε α) (f : α → Script σ ε β) (s : σ) :
    (x >>= f).exec s = match x.run s with
      | (.ok a, s') => (f a).exec s'
      | (.error _, s') => s' := by
  change (ExceptT.bindCont f (x.run s).1 (x.run s).2).2 = _
  rcases x.run s with ⟨_ | _, _⟩ <;> rfl

/-- A script that starts with a transaction goes on from the state it committed. -/
theorem exec_transaction_bind (x : Tx σ ε α) (f : α → Script σ ε β) (s : σ) :
    (transaction x >>= f).exec s = match x s with
      | .ok (a, s') => (f a).exec s'
      | .error _ => s := by
  rw [exec_bind]
  change (match x.attempt s with | (.ok a, s') => _ | (.error _, s') => _) = _
  unfold Tx.attempt
  cases x s <;> rfl

theorem exec_ofExcept_bind (x : Except ε α) (f : α → Script σ ε β) (s : σ) :
    (ofExcept x >>= f).exec s = match x with
      | .ok a => (f a).exec s
      | .error _ => s := by
  rw [exec_bind]
  cases x <;> rfl

/-- Every run of the script takes a state to one related to it. -/
structure Respects (R : σ → σ → Prop) (x : Script σ ε α) : Prop where
  exec : ∀ s, R s (x.exec s)

variable {R : σ → σ → Prop} [Std.Refl R] [IsTrans σ R]

omit [IsTrans σ R] in
theorem respects_of_exec {x : Script σ ε α} (h : ∀ s, x.exec s = s) : Respects R x := by
  constructor
  intro s
  rw [h]
  exact refl_of R s

omit [IsTrans σ R] in
theorem respects_pure (a : α) : Respects R (pure a : Script σ ε α) :=
  respects_of_exec (exec_pure a)

omit [IsTrans σ R] in
theorem respects_throw (e : ε) : Respects R (throw e : Script σ ε α) :=
  respects_of_exec (exec_throw e)

omit [IsTrans σ R] in
theorem respects_ofExcept (x : Except ε α) : Respects R (ofExcept x : Script σ ε α) :=
  respects_of_exec (exec_ofExcept x)

omit [IsTrans σ R] in
theorem respects_require (o : Option α) (e : ε) : Respects R (require o e : Script σ ε α) :=
  respects_of_exec (exec_require o e)

omit [IsTrans σ R] in
/-- It is enough to relate the states of a transaction that commits. -/
theorem respects_transaction {x : Tx σ ε α}
    (h : ∀ s a s', x s = .ok (a, s') → R s s') : Respects R (transaction x) := by
  constructor
  intro s
  rw [exec_transaction]
  exact Tx.exec_inv (refl_of R s) fun a s' hx => h s a s' hx

omit [IsTrans σ R] in
theorem respects_readOnly {x : Tx σ ε α} (h : x.ReadOnly) : Respects R (transaction x) :=
  respects_transaction fun s _ _ hx => h hx ▸ refl_of R s

/-- Every value that the script can end with satisfies the condition. -/
structure Returns (x : Script σ ε α) (Q : α → Prop) : Prop where
  run : ∀ s a s', x.run s = (.ok a, s') → Q a

omit [Std.Refl R] in
/-- What is known of the first value is known in the rest of the sequence. -/
theorem respects_bind_of {x : Script σ ε α} {f : α → Script σ ε β} {Q : α → Prop}
    (hx : Respects R x) (hq : Returns x Q) (hf : ∀ a, Q a → Respects R (f a)) :
    Respects R (x >>= f) := by
  constructor
  intro s
  have hfi : R s (x.run s).2 := hx.exec s
  rw [exec_bind]
  rcases hr : x.run s with ⟨_ | a, s'⟩
  · simpa [hr] using hfi
  · rw [hr] at hfi
    exact trans_of R hfi ((hf a (hq.run s a s' hr)).exec s')

omit [Std.Refl R] in
theorem respects_bind {x : Script σ ε α} {f : α → Script σ ε β} (hx : Respects R x)
    (hf : ∀ a, Respects R (f a)) : Respects R (x >>= f) :=
  respects_bind_of hx (Q := fun _ => True) ⟨fun _ _ _ _ => trivial⟩ fun a _ => hf a

theorem returns_pure {a : α} {Q : α → Prop} (h : Q a) : Returns (pure a : Script σ ε α) Q := by
  constructor
  intro _ _ _ hr
  cases hr
  exact h

theorem returns_throw (e : ε) (Q : α → Prop) : Returns (throw e : Script σ ε α) Q := by
  constructor
  intro _ _ _ hr
  cases hr

theorem returns_require (o : Option α) (e : ε) :
    Returns (require o e : Script σ ε α) fun a => o = some a := by
  cases o with
  | none => exact returns_throw e _
  | some => exact returns_pure rfl

theorem returns_bind {x : Script σ ε α} {f : α → Script σ ε β} {P : α → Prop} {Q : β → Prop}
    (hx : Returns x P) (hf : ∀ a, P a → Returns (f a) Q) : Returns (x >>= f) Q := by
  constructor
  intro s b s' hr
  change ExceptT.bindCont f (x.run s).1 (x.run s).2 = (.ok b, s') at hr
  rcases hx' : x.run s with ⟨_ | a, t⟩
  · rw [hx'] at hr
    cases hr
  · rw [hx'] at hr
    exact (hf a (hx.run s a t hx')).run t b s' hr

end Script

end Relational
