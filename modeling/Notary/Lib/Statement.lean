import Notary.Lib.Table
import Notary.Lib.Transaction

/-! The statements of a transaction, each on one table of the database. -/

namespace Relational

/-- A statement that only computes a new state. -/
def Tx.change {σ ε : Type} (f : σ → σ) : Tx σ ε Unit := fun s => .ok ((), f s)

@[simp] theorem Tx.change_ok {σ ε : Type} {f : σ → σ} {s : σ} {r : Unit × σ} :
    (Tx.change f : Tx σ ε Unit) s = .ok r ↔ f s = r.2 := by
  simp [Tx.change, Prod.ext_iff]

/-- Access to one table of a database of type `σ`. -/
structure Ref (σ ρ : Type) [Schema ρ] where
  get : σ → Table ρ
  set : Table ρ → σ → σ

namespace Ref

variable {σ ρ ε : Type} [Schema ρ] (ref : Ref σ ρ)

/-- `SELECT` by primary key. -/
def select (k : Schema.Key ρ) : Tx σ ε (Option ρ) := Tx.query fun s => (ref.get s).find? k

/-- `INSERT`. A violated constraint is the error `e`. -/
def insert (row : ρ) (e : ε) : Tx σ ε Unit :=
  Tx.write (fun s => ((ref.get s).insert row).map (ref.set · s)) e

/-- `UPDATE`, with the number of rows it changed. -/
def update (p : ρ → Bool) (f : ρ → ρ) (e : ε) : Tx σ ε ℕ := fun s =>
  match (ref.get s).update p f with
  | some t => .ok ((ref.get s).count p, ref.set t s)
  | none => .error e

/-- `DELETE`, with the number of rows it removed. -/
def delete (p : ρ → Bool) : Tx σ ε ℕ := fun s =>
  .ok ((ref.get s).count p, ref.set ((ref.get s).delete p) s)

variable {ref} {p : ρ → Bool} {f : ρ → ρ} {e : ε} {s : σ}

@[simp] theorem select_ok {k : Schema.Key ρ} {r : Option ρ × σ} :
    (ref.select k : Tx σ ε (Option ρ)) s = .ok r ↔ (ref.get s).find? k = r.1 ∧ s = r.2 := by
  simp [select]

@[simp] theorem insert_ok {row : ρ} {r : Unit × σ} :
    ref.insert row e s = .ok r ↔ ∃ t, (ref.get s).insert row = some t ∧ ref.set t s = r.2 := by
  simp [insert]

@[simp] theorem update_ok {r : ℕ × σ} : ref.update p f e s = .ok r ↔
      ∃ t, (ref.get s).update p f = some t ∧ (ref.get s).count p = r.1 ∧ ref.set t s = r.2 := by
  unfold update
  cases h : (ref.get s).update p f <;> simp [Prod.ext_iff]

@[simp] theorem delete_ok {r : ℕ × σ} : (ref.delete p : Tx σ ε ℕ) s = .ok r ↔
      (ref.get s).count p = r.1 ∧ ref.set ((ref.get s).delete p) s = r.2 := by
  simp [delete, Prod.ext_iff]

end Ref

end Relational
