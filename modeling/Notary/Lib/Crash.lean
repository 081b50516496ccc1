import Mathlib

/-! Programs whose steps may fail or be the last thing their process does. A run takes the faults
of its steps from a list, one for each step; when the list is empty, steps go through. -/

namespace Crash

/-- How a run ends. -/
inductive Outcome (ε α : Type)
  | done (a : α)
  | failed (error : ε)
  | killed
  deriving DecidableEq

/-- A program over the state `σ` with faults of type `φ`: how it ends, the state it leaves, and
the faults that are left for what runs next. -/
def Prog (φ σ ε α : Type) : Type := List φ → σ → Outcome ε α × σ × List φ

namespace Prog

variable {φ σ ε α β : Type}

protected def pure (a : α) : Prog φ σ ε α := fun faults s => (.done a, s, faults)

protected def bind (x : Prog φ σ ε α) (f : α → Prog φ σ ε β) : Prog φ σ ε β := fun faults s =>
  match x faults s with
  | (.done a, s', rest) => f a rest s'
  | (.failed e, s', rest) => (.failed e, s', rest)
  | (.killed, s', rest) => (.killed, s', rest)

instance : Monad (Prog φ σ ε) where
  pure := Prog.pure
  bind := Prog.bind

/-- One step, which sees its fault and the state. -/
def step (f : Option φ → σ → Outcome ε α × σ) : Prog φ σ ε α := fun faults s =>
  ((f faults.head? s).1, (f faults.head? s).2, faults.tail)

def fail (e : ε) : Prog φ σ ε α := fun faults s => (.failed e, s, faults)

def ensure (c : Prop) [Decidable c] (e : ε) : Prog φ σ ε Unit :=
  if c then Prog.pure () else fail e

def ofExcept : Except ε α → Prog φ σ ε α
  | .ok a => Prog.pure a
  | .error e => fail e

/-- The error of a failed program is a value; a killed one does not come back. -/
def attempt (x : Prog φ σ ε α) : Prog φ σ ε (Except ε α) := fun faults s =>
  match x faults s with
  | (.done a, s', rest) => (.done (.ok a), s', rest)
  | (.failed e, s', rest) => (.done (.error e), s', rest)
  | (.killed, s', rest) => (.killed, s', rest)

def after (x : Prog φ σ ε α) (faults : List φ) (s : σ) : σ := (x faults s).2.1

variable {faults rest : List φ}

theorem bind_of_done {x : Prog φ σ ε α} {f : α → Prog φ σ ε β} {s s' : σ}
    {a : α} (h : x faults s = (.done a, s', rest)) : (x >>= f) faults s = f a rest s' := by
  change Prog.bind x f faults s = _
  rw [Prog.bind, h]

theorem bind_of_failed {x : Prog φ σ ε α} {f : α → Prog φ σ ε β}
    {s s' : σ} {e : ε} (h : x faults s = (.failed e, s', rest)) :
    (x >>= f) faults s = (.failed e, s', rest) := by
  change Prog.bind x f faults s = _
  rw [Prog.bind, h]

theorem bind_assoc {γ : Type} (x : Prog φ σ ε α) (f : α → Prog φ σ ε β) (g : β → Prog φ σ ε γ) :
    x >>= f >>= g = x >>= fun a => f a >>= g := by
  funext faults s
  change Prog.bind (Prog.bind x f) g faults s = Prog.bind x (fun a => Prog.bind (f a) g) faults s
  unfold Prog.bind
  rcases x faults s with ⟨_ | _ | _, _⟩ <;> rfl

/-- A sequence fails in its first program or in the second. -/
theorem bind_failed {x : Prog φ σ ε α} {f : α → Prog φ σ ε β} {s s' : σ}
    {e : ε} (h : (x >>= f) faults s = (.failed e, s', rest)) : x faults s = (.failed e, s', rest) ∨
      ∃ a s₁ rest₁, x faults s = (.done a, s₁, rest₁) ∧ f a rest₁ s₁ = (.failed e, s', rest) := by
  change Prog.bind x f faults s = _ at h
  unfold Prog.bind at h
  rcases hx : x faults s with ⟨_ | _ | _, s₁, rest₁⟩
  · rw [hx] at h
    exact .inr ⟨_, s₁, rest₁, rfl, h⟩
  · rw [hx] at h
    cases h
    exact .inl rfl
  · rw [hx] at h
    cases h

/-- A sequence that ends with a value went through both programs. -/
theorem bind_done {x : Prog φ σ ε α} {f : α → Prog φ σ ε β} {s s' : σ} {b : β}
    (h : (x >>= f) faults s = (.done b, s', rest)) :
    ∃ a s₁ rest₁, x faults s = (.done a, s₁, rest₁) ∧ f a rest₁ s₁ = (.done b, s', rest) := by
  change Prog.bind x f faults s = _ at h
  unfold Prog.bind at h
  rcases hx : x faults s with ⟨_ | _ | _, s₁, rest₁⟩
  · rw [hx] at h
    exact ⟨_, s₁, rest₁, rfl, h⟩
  · rw [hx] at h
    cases h
  · rw [hx] at h
    cases h

theorem attempt_ok {x : Prog φ σ ε α} {s s' : σ} {a : α}
    (h : x.attempt faults s = (.done (.ok a), s', rest)) : x faults s = (.done a, s', rest) := by
  unfold attempt at h
  rcases hx : x faults s with ⟨_ | _ | _, _⟩ <;> rw [hx] at h <;> cases h
  rfl

theorem attempt_error {x : Prog φ σ ε α} {s s' : σ} {e : ε}
    (h : x.attempt faults s = (.done (.error e), s', rest)) :
    x faults s = (.failed e, s', rest) := by
  unfold attempt at h
  rcases hx : x faults s with ⟨_ | _ | _, _⟩ <;> rw [hx] at h <;> cases h
  rfl

theorem attempt_ne_failed {x : Prog φ σ ε α} {s s' : σ} {e : ε} :
    x.attempt faults s ≠ (.failed e, s', rest) := by
  intro h
  unfold attempt at h
  rcases hx : x faults s with ⟨_ | _ | _, _⟩ <;> rw [hx] at h <;> cases h

theorem ensure_of {c : Prop} [Decidable c] (h : c) (e : ε) (faults : List φ) (s : σ) :
    (ensure c e : Prog φ σ ε Unit) faults s = (.done (), s, faults) := by
  rw [ensure, if_pos h]
  rfl

/-- A run that ends with a value takes `n` faults. -/
def Takes (n : ℕ) (x : Prog φ σ ε α) : Prop :=
  ∀ faults s a s' rest, x faults s = (.done a, s', rest) → rest = faults.drop n

theorem takes_step (f : Option φ → σ → Outcome ε α × σ) : Takes 1 (step f) := by
  intro faults s a s' rest h
  rw [List.drop_one]
  exact (congrArg (·.2.2) h).symm

/-- A step that is attempted takes its fault also when it fails. -/
theorem takes_attempt_step (f : Option φ → σ → Outcome ε α × σ) : Takes 1 (step f).attempt := by
  intro faults s r s' rest h
  cases r with
  | ok => exact takes_step f _ _ _ _ _ (attempt_ok h)
  | error =>
    rw [List.drop_one]
    exact (congrArg (·.2.2) (attempt_error h)).symm

theorem Takes.bind {x : Prog φ σ ε α} {f : α → Prog φ σ ε β} {m n : ℕ} (hx : Takes m x)
    (hf : ∀ a, Takes n (f a)) : Takes (m + n) (x >>= f) := by
  intro faults s b s' rest h
  obtain ⟨a, s₁, rest₁, hdone, h⟩ := bind_done h
  rw [hf a _ _ _ _ _ h, hx _ _ _ _ _ hdone, List.drop_drop]

/-- From every state with `P` and under all faults, the program ends with `Q`, or it fails or is
killed in a state with `I`. -/
def Sat (I : σ → Prop) (P : σ → Prop) (x : Prog φ σ ε α) (Q : α → σ → Prop) : Prop :=
  ∀ faults s, P s →
    match x faults s with
    | (.done a, s', _) => Q a s'
    | (.failed _, s', _) => I s'
    | (.killed, s', _) => I s'

variable {I P R : σ → Prop} {x : Prog φ σ ε α} {Q : α → σ → Prop}

theorem Sat.pre (h : Sat I R x Q) (hp : ∀ s, P s → R s) : Sat I P x Q :=
  fun faults s hs => h faults s (hp s hs)

theorem Sat.post {Q' : α → σ → Prop} (h : Sat I P x Q') (hp : ∀ a s, Q' a s → Q a s) :
    Sat I P x Q := by
  intro faults s hs
  have hr := h faults s hs
  rcases hx : x faults s with ⟨_ | _ | _, _, _⟩
  · rw [hx] at hr
    exact hp _ _ hr
  · rwa [hx] at hr
  · rwa [hx] at hr

theorem Sat.weaken {J : σ → Prop} (h : Sat J P x Q) (hJ : ∀ s, J s → I s) : Sat I P x Q := by
  intro faults s hs
  have hr := h faults s hs
  rcases hx : x faults s with ⟨_ | _ | _, _, _⟩
  · rwa [hx] at hr
  · rw [hx] at hr
    exact hJ _ hr
  · rw [hx] at hr
    exact hJ _ hr

theorem sat_pure {a : α} (h : ∀ s, P s → Q a s) : Sat I P (pure a : Prog φ σ ε α) Q :=
  fun _ s hs => h s hs

theorem sat_fail {e : ε} (h : ∀ s, P s → I s) : Sat I P (fail e : Prog φ σ ε α) Q :=
  fun _ s hs => h s hs

theorem sat_ensure {c : Prop} [Decidable c] {e : ε} (h : ∀ s, P s → I s) :
    Sat I P (ensure c e : Prog φ σ ε Unit) fun _ s => P s ∧ c := by
  unfold ensure
  split_ifs with hc
  · exact sat_pure fun s hs => ⟨hs, hc⟩
  · exact sat_fail h

theorem sat_ofExcept {r : Except ε α} (ho : ∀ a, r = .ok a → ∀ s, P s → Q a s)
    (he : ∀ e, r = .error e → ∀ s, P s → I s) : Sat I P (ofExcept r : Prog φ σ ε α) Q := by
  cases r with
  | ok a => exact sat_pure (ho a rfl)
  | error e => exact sat_fail (he e rfl)

theorem sat_bind {f : α → Prog φ σ ε β} {S : α → σ → Prop} {Q : β → σ → Prop}
    (hx : Sat I P x S) (hf : ∀ a, Sat I (S a) (f a) Q) : Sat I P (x >>= f) Q := by
  intro faults s hs
  have hr := hx faults s hs
  change match Prog.bind x f faults s with
    | (.done a, s', _) => Q a s'
    | (.failed _, s', _) => I s'
    | (.killed, s', _) => I s'
  unfold Prog.bind
  rcases h : x faults s with ⟨_ | _ | _, s', rest⟩
  · rw [h] at hr
    exact hf _ rest s' hr
  · rwa [h] at hr
  · rwa [h] at hr

theorem sat_attempt (h : Sat I P x Q) : Sat I P x.attempt fun r s => match r with
      | .ok a => Q a s
      | .error _ => I s := by
  intro faults s hs
  have hr := h faults s hs
  unfold attempt
  rcases hx : x faults s with ⟨_ | _ | _, _, _⟩
  · rwa [hx] at hr
  · rwa [hx] at hr
  · rwa [hx] at hr

theorem sat_step {f : Option φ → σ → Outcome ε α × σ}
    (h : ∀ fault s, P s → match f fault s with
      | (.done a, s') => Q a s'
      | (.failed _, s') => I s'
      | (.killed, s') => I s') : Sat I P (step f) Q := by
  intro faults s hs
  have hr := h faults.head? s hs
  unfold step
  rcases hf : f faults.head? s with ⟨_ | _ | _, _⟩
  · rwa [hf] at hr
  · rwa [hf] at hr
  · rwa [hf] at hr

theorem Sat.after (h : Sat I P x Q) {s : σ} (hs : P s)
    (hQ : ∀ a s', Q a s' → I s') : I (x.after faults s) := by
  have hr := h faults s hs
  unfold Prog.after
  rcases hx : x faults s with ⟨_ | _ | _, _, _⟩
  · rw [hx] at hr
    exact hQ _ _ hr
  · rwa [hx] at hr
  · rwa [hx] at hr

theorem Sat.done (h : Sat I P x Q) {s s' : σ} {a : α} (hs : P s)
    (hx : x faults s = (.done a, s', rest)) : Q a s' := by
  have hr := h faults s hs
  rwa [hx] at hr

theorem Sat.failed (h : Sat I P x Q) {s s' : σ} {e : ε} (hs : P s)
    (hx : x faults s = (.failed e, s', rest)) : I s' := by
  have hr := h faults s hs
  rwa [hx] at hr

end Prog

end Crash
