import Mathlib

/-! Database transactions: a computation either commits a new state with its reply
or fails, and a failed computation leaves the state as it found it. -/

namespace Relational

/-- A transaction over the state `σ` that may fail with an error of type `ε`. -/
abbrev Tx (σ ε : Type) : Type → Type := StateT σ (Except ε)

namespace Tx

variable {σ ε α β : Type}

def attempt (x : Tx σ ε α) (s : σ) : Except ε α × σ :=
  match x s with
  | .ok (a, s') => (.ok a, s')
  | .error e => (.error e, s)

theorem attempt_of_ok {x : Tx σ ε α} {s s' : σ} {a : α} (h : x s = .ok (a, s')) :
    x.attempt s = (.ok a, s') := by
  simp [attempt, h]

variable {e : ε}

theorem attempt_of_error {x : Tx σ ε α} {s : σ} (h : x s = .error e) :
    x.attempt s = (.error e, s) := by
  simp [attempt, h]

def exec (x : Tx σ ε α) (s : σ) : σ := (x.attempt s).2

theorem exec_of_ok {x : Tx σ ε α} {s s' : σ} {a : α} (h : x s = .ok (a, s')) : x.exec s = s' := by
  rw [exec, attempt_of_ok h]

theorem exec_of_error {x : Tx σ ε α} {s : σ} (h : x s = .error e) : x.exec s = s := by
  rw [exec, attempt_of_error h]

/-- What holds before an attempt and after each successful computation holds after the
attempt. -/
theorem exec_inv {x : Tx σ ε α} {s : σ} {P : σ → Prop} (hs : P s)
    (ho : ∀ a s', x s = .ok (a, s') → P s') : P (x.exec s) := by
  cases h : x s with
  | error => rwa [exec_of_error h]
  | ok p => rw [exec_of_ok h]; exact ho p.1 p.2 h

/-- Fail with `e` unless the condition holds. -/
def ensure (c : Prop) [Decidable c] (e : ε) : Tx σ ε Unit :=
  fun s => if c then .ok ((), s) else .error e

def require (o : Option α) (e : ε) : Tx σ ε α :=
  fun s => match o with
    | some a => .ok (a, s)
    | none => .error e

def ofExcept (x : Except ε α) : Tx σ ε α :=
  fun s => match x with
    | .ok a => .ok (a, s)
    | .error e => .error e

def query (f : σ → α) : Tx σ ε α := fun s => .ok (f s, s)

/-- Replace the state unless a constraint of the new one is violated. -/
def write (f : σ → Option σ) (e : ε) : Tx σ ε Unit :=
  fun s => match f s with
    | some s' => .ok ((), s')
    | none => .error e

@[simp] theorem ensure_ok {c : Prop} [Decidable c] {s : σ} {r : Unit × σ} :
    ensure c e s = .ok r ↔ c ∧ s = r.2 := by
  unfold ensure
  split <;> simp_all [Prod.ext_iff]

@[simp] theorem require_ok {o : Option α} {s : σ} {r : α × σ} :
    require o e s = .ok r ↔ o = some r.1 ∧ s = r.2 := by
  obtain ⟨_, _⟩ := r
  cases o <;> simp [require]

@[simp] theorem ofExcept_ok {x : Except ε α} {s : σ} {r : α × σ} :
    ofExcept x s = .ok r ↔ x = .ok r.1 ∧ s = r.2 := by
  obtain ⟨_, _⟩ := r
  cases x <;> simp [ofExcept]

@[simp] theorem query_ok {f : σ → α} {s : σ} {r : α × σ} :
    (query f : Tx σ ε α) s = .ok r ↔ f s = r.1 ∧ s = r.2 := by
  simp [query, Prod.ext_iff]

@[simp] theorem write_ok {f : σ → Option σ} {s : σ} {r : Unit × σ} :
    write f e s = .ok r ↔ f s = some r.2 := by
  unfold write
  split <;> rename_i h
  · simp [h, Prod.ext_iff]
  · simp [h]

@[simp] theorem pure_ok {a : α} {s : σ} {r : α × σ} :
    (pure a : Tx σ ε α) s = .ok r ↔ a = r.1 ∧ s = r.2 := by
  change Except.ok (a, s) = .ok r ↔ _
  simp [Prod.ext_iff]

@[simp] theorem throw_ok {s : σ} {r : α × σ} : (throw e : Tx σ ε α) s = .ok r ↔ False := by
  change Except.error e = .ok r ↔ _
  simp

/-- A sequence commits exactly when each part does, from the state the first one left. -/
@[simp] theorem bind_ok {x : Tx σ ε α} {f : α → Tx σ ε β} {s : σ} {r : β × σ} :
    (x >>= f) s = .ok r ↔ ∃ a s', x s = .ok (a, s') ∧ f a s' = .ok r := by
  change (x s).bind (fun p => f p.1 p.2) = .ok r ↔ _
  rcases x s with _ | ⟨_, _⟩ <;> simp [Except.bind, and_assoc]

theorem bind_of_ok {x : Tx σ ε α} {f : α → Tx σ ε β} {s s' : σ} {a : α}
    (h : x s = .ok (a, s')) : (x >>= f) s = f a s' := by
  change (x s).bind (fun p => f p.1 p.2) = _
  rw [h]
  rfl

/-- A sequence fails when its first part does, or its second part does afterwards. -/
theorem bind_error {x : Tx σ ε α} {f : α → Tx σ ε β} {s : σ} : (x >>= f) s = .error e ↔
      x s = .error e ∨ ∃ a s', x s = .ok (a, s') ∧ f a s' = .error e := by
  change (x s).bind (fun p => f p.1 p.2) = .error e ↔ _
  rcases x s with _ | ⟨_, _⟩ <;> simp [Except.bind, and_assoc]

/-- The transaction never changes the state. -/
def ReadOnly (x : Tx σ ε α) : Prop := ∀ ⦃s a s'⦄, x s = .ok (a, s') → s = s'

theorem readOnly_pure (a : α) : ReadOnly (pure a : Tx σ ε α) :=
  fun _ _ _ h => (pure_ok.mp h).2

theorem readOnly_query (f : σ → α) : ReadOnly (query f : Tx σ ε α) :=
  fun _ _ _ h => (query_ok.mp h).2

theorem readOnly_ensure (c : Prop) [Decidable c] (e : ε) : ReadOnly (ensure c e : Tx σ ε Unit) :=
  fun _ _ _ h => (ensure_ok.mp h).2

theorem readOnly_require (o : Option α) (e : ε) : ReadOnly (require o e : Tx σ ε α) :=
  fun _ _ _ h => (require_ok.mp h).2

theorem readOnly_bind {x : Tx σ ε α} {f : α → Tx σ ε β} (hx : x.ReadOnly)
    (hf : ∀ a, (f a).ReadOnly) : (x >>= f).ReadOnly := by
  intro _ _ _ h
  obtain ⟨a, _, h₁, h₂⟩ := bind_ok.mp h
  exact (hx h₁).trans (hf a h₂)

/-- From this state the transaction fails only with errors that satisfy `P`. -/
def FailsAt (x : Tx σ ε α) (s : σ) (P : ε → Prop) : Prop := ∀ e, x s = .error e → P e

/-- From every state the transaction fails only with errors that satisfy `P`. -/
def FailsOnly (x : Tx σ ε α) (P : ε → Prop) : Prop := ∀ s, x.FailsAt s P

variable {P : ε → Prop}

theorem failsOnly_pure (a : α) : FailsOnly (pure a : Tx σ ε α) P := by
  intro s e h
  change Except.ok (a, s) = .error e at h
  cases h

theorem failsOnly_query (f : σ → α) : FailsOnly (query f : Tx σ ε α) P := by
  intro _ _ h
  cases h

theorem failsOnly_ensure {c : Prop} [Decidable c] (he : P e) :
    FailsOnly (ensure c e : Tx σ ε Unit) P := by
  intro _ _ h
  unfold ensure at h
  split at h
  · cases h
  · cases h
    exact he

theorem failsOnly_require {o : Option α} (he : P e) : FailsOnly (require o e : Tx σ ε α) P := by
  intro _ _ h
  cases o with
  | none =>
    cases h
    exact he
  | some => cases h

theorem failsOnly_write {f : σ → Option σ} (he : P e) : FailsOnly (write f e) P := by
  intro _ _ h
  unfold write at h
  split at h
  · cases h
  · cases h
    exact he

theorem failsOnly_bind {x : Tx σ ε α} {f : α → Tx σ ε β} (hx : x.FailsOnly P)
    (hf : ∀ a, (f a).FailsOnly P) : (x >>= f).FailsOnly P := by
  intro s e h
  rcases bind_error.mp h with h | ⟨a, s', -, h⟩
  · exact hx s e h
  · exact hf a s' e h

/-- A step that only reads hands its own state to the rest of the sequence. -/
theorem failsAt_bind {x : Tx σ ε α} {f : α → Tx σ ε β} {s : σ} (hr : x.ReadOnly)
    (hx : x.FailsOnly P) (hf : ∀ a, x s = .ok (a, s) → (f a).FailsAt s P) :
    (x >>= f).FailsAt s P := by
  intro e h
  rcases bind_error.mp h with h | ⟨a, _, ho, h⟩
  · exact hx s e h
  · obtain rfl := hr ho
    exact hf a ho e h

end Tx

end Relational
