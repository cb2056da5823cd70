import Mathlib.Logic.Function.Basic

/-!
# Programs of loads and stores

A thread runs a program that loads and stores words of a shared memory, one access a step, and other
threads take steps between any two of them. `Meets` is what such a program has to do: `rely` is what
the others may do meanwhile, `may` what it is allowed to store and `post` what holds when it has
ended. `loaded` and `stored` are what an access does to the shared state.
-/

namespace SharedWords

variable {A V α β σ : Type}

inductive Prog (A V α : Type)
  | ret (a : α)
  | load (p : A) (k : V → Prog A V α)
  | store (p : A) (v : V) (rest : Prog A V α)

namespace Prog

def bind : Prog A V α → (α → Prog A V β) → Prog A V β
  | .ret a, f => f a
  | .load p k, f => .load p fun v => (k v).bind f
  | .store p v rest, f => .store p v (rest.bind f)

instance : Monad (Prog A V) where
  pure := .ret
  bind := .bind

def read (p : A) : Prog A V V := .load p .ret

def write (p : A) (v : V) : Prog A V Unit := .store p v (.ret ())

/-- Whatever it loads, the program ends after at most so many accesses. -/
def Within : Nat → Prog A V α → Prop
  | _, .ret _ => True
  | 0, _ => False
  | n + 1, .load _ k => ∀ v, (k v).Within n
  | n + 1, .store _ _ rest => rest.Within n

theorem Within.succ {n : Nat} {x : Prog A V α} (h : x.Within n) : x.Within (n + 1) := by
  induction n generalizing x with
  | zero =>
    cases x with
    | ret a => trivial
    | load p k => exact h.elim
    | store p v rest => exact h.elim
  | succ n ih =>
    cases x with
    | ret a => trivial
    | load p k => exact fun v => ih (h v)
    | store p v rest => exact ih h

@[simp] theorem pure_eq (a : α) : (pure a : Prog A V α) = .ret a := rfl

@[simp] theorem read_bind (p : A) (f : V → Prog A V β) : read p >>= f = .load p f := rfl

@[simp] theorem write_bind (p : A) (v : V) (f : Unit → Prog A V β) : write p v >>= f = .store p v (f ()) := rfl

end Prog

/-- What a thread and the other threads do to the shared state. -/
structure Contract (σ A V : Type) where
  value : σ → A → V
  loaded : A → σ → σ
  stored : A → V → σ → σ
  rely : σ → σ → Prop
  may : σ → A → V → Prop
  rely_refl : ∀ s, rely s s
  rely_trans : ∀ s t u, rely s t → rely t u → rely s u

namespace Contract

variable (C : Contract σ A V)

def Meets (post : α → σ → Prop) : Prog A V α → σ → Prop
  | .ret a, s => ∀ t, C.rely s t → post a t
  | .load p k, s => ∀ t, C.rely s t → Meets post (k (C.value t p)) (C.loaded p t)
  | .store p v rest, s => ∀ t, C.rely s t → C.may t p v ∧ Meets post rest (C.stored p v t)

variable {C} {post : α → σ → Prop} {s t : σ} {x : Prog A V α}

theorem Meets.stable (h : C.Meets post x s) (hst : C.rely s t) : C.Meets post x t := by
  cases x with
  | ret a => exact fun u hu => h u (C.rely_trans s t u hst hu)
  | load p k => exact fun u hu => h u (C.rely_trans s t u hst hu)
  | store p v rest => exact fun u hu => h u (C.rely_trans s t u hst hu)

/-- One program after another. -/
theorem Meets.bind {f : α → Prog A V β} {last : β → σ → Prop} (h : C.Meets post x s)
    (hf : ∀ a t, post a t → C.Meets last (f a) t) : C.Meets last (x >>= f) s := by
  induction x generalizing s with
  | ret a => exact hf a s (h s (C.rely_refl s))
  | load p k ih => exact fun t ht => ih _ (h t ht)
  | store p v rest ih => exact fun t ht => ⟨(h t ht).1, ih (h t ht).2⟩

end Contract

end SharedWords
