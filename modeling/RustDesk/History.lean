import Mathlib.Data.List.Basic

/-!
# Histories and guarded runs

A deterministic system is given by a step function from a state and an input to
the next state. A run folds the step over a list of inputs. `Guarded` collects a
condition on every step that is taken, `Throughout` a condition on every state
that is reached. A history is kept newest entry first, and `Always` relates each
entry to the entries before it, which is how an order between two events is stated.
-/

namespace History

variable {ε σ ι β : Type*}

/-- Every entry of a newest-first history satisfies `P` with the entries before it. -/
def Always (P : ε → List ε → Prop) : List ε → Prop
  | [] => True
  | e :: h => P e h ∧ Always P h

@[simp] theorem always_nil (P : ε → List ε → Prop) : Always P [] := trivial

@[simp] theorem always_cons (P : ε → List ε → Prop) (e : ε) (h : List ε) :
    Always P (e :: h) ↔ P e h ∧ Always P h := Iff.rfl

theorem always_split {P : ε → List ε → Prop} {e : ε} {after before : List ε}
    (h : Always P (after ++ e :: before)) : P e before := by
  induction after with
  | nil => exact h.1
  | cons a after ih => exact ih h.2

theorem always_of_forall {P : ε → List ε → Prop} :
    ∀ h : List ε, (∀ e after before, h = after ++ e :: before → P e before) → Always P h
  | [], _ => trivial
  | e :: h, hp =>
    ⟨hp e [] h rfl, always_of_forall h fun e' after before hh =>
      hp e' (e :: after) before (by rw [hh, List.cons_append])⟩

theorem always_iff {P : ε → List ε → Prop} {h : List ε} :
    Always P h ↔ ∀ e after before, h = after ++ e :: before → P e before := by
  constructor
  · intro ha e after before hh
    subst hh
    exact always_split ha
  · exact always_of_forall h

/-- The state after a list of inputs. -/
def run (step : σ → ι → σ) (s : σ) (is : List ι) : σ := is.foldl step s

@[simp] theorem run_nil (step : σ → ι → σ) (s : σ) : run step s [] = s := rfl

@[simp] theorem run_cons (step : σ → ι → σ) (s : σ) (i : ι) (is : List ι) :
    run step s (i :: is) = run step (step s i) is := rfl

theorem run_append (step : σ → ι → σ) (s : σ) (is js : List ι) :
    run step s (is ++ js) = run step (run step s is) js := List.foldl_append

/-- `ok` holds of every step of the run. -/
def Guarded (step : σ → ι → σ) (ok : σ → ι → Prop) : σ → List ι → Prop
  | _, [] => True
  | s, i :: is => ok s i ∧ Guarded step ok (step s i) is

instance decidableGuarded (step : σ → ι → σ) (ok : σ → ι → Prop) [∀ s i, Decidable (ok s i)] :
    ∀ (s : σ) (is : List ι), Decidable (Guarded step ok s is)
  | _, [] => .isTrue trivial
  | s, i :: is =>
    have := decidableGuarded step ok (step s i) is
    inferInstanceAs (Decidable (ok s i ∧ Guarded step ok (step s i) is))

theorem guarded_append {step : σ → ι → σ} {ok : σ → ι → Prop} {s : σ} {is js : List ι}
    (h : Guarded step ok s is) (h' : Guarded step ok (run step s is) js) :
    Guarded step ok s (is ++ js) := by
  induction is generalizing s with
  | nil => exact h'
  | cons i is ih => exact ⟨h.1, ih h.2 h'⟩

theorem guarded_left {step : σ → ι → σ} {ok : σ → ι → Prop} {s : σ} {is js : List ι}
    (h : Guarded step ok s (is ++ js)) : Guarded step ok s is := by
  induction is generalizing s with
  | nil => trivial
  | cons i is ih => exact ⟨h.1, ih h.2⟩

theorem guarded_right {step : σ → ι → σ} {ok : σ → ι → Prop} {s : σ} {is js : List ι}
    (h : Guarded step ok s (is ++ js)) : Guarded step ok (run step s is) js := by
  induction is generalizing s with
  | nil => exact h
  | cons i is ih => exact ih h.2

theorem guarded_congr {step : σ → ι → σ} {ok ok' : σ → ι → Prop} (h : ∀ s i, ok s i ↔ ok' s i)
    {s : σ} {is : List ι} : Guarded step ok s is ↔ Guarded step ok' s is := by
  induction is generalizing s with
  | nil => exact Iff.rfl
  | cons i is ih => exact and_congr (h s i) ih

theorem guarded_of_forall {step : σ → ι → σ} {ok : σ → ι → Prop} (h : ∀ s i, ok s i) {s : σ}
    {is : List ι} : Guarded step ok s is := by
  induction is generalizing s with
  | nil => trivial
  | cons i is ih => exact ⟨h s i, ih⟩

theorem guarded_imp {step : σ → ι → σ} {ok ok' : σ → ι → Prop} (himp : ∀ s i, ok s i → ok' s i)
    {s : σ} {is : List ι} (h : Guarded step ok s is) : Guarded step ok' s is := by
  induction is generalizing s with
  | nil => trivial
  | cons i is ih => exact ⟨himp s i h.1, ih h.2⟩

theorem guarded_of_mem {step : σ → ι → σ} {P : ι → Prop} {s : σ} {is : List ι}
    (h : ∀ i ∈ is, P i) : Guarded step (fun _ i => P i) s is := by
  induction is generalizing s with
  | nil => trivial
  | cons i is ih =>
    exact ⟨h i List.mem_cons_self, ih fun j hj => h j (List.mem_cons_of_mem i hj)⟩

/-- Under an invariant of the guarded steps, one guard gives another. -/
theorem guarded_of_inv {step : σ → ι → σ} {ok ok' : σ → ι → Prop} {Inv : σ → Prop}
    (hstep : ∀ s i, Inv s → ok s i → Inv (step s i)) (himp : ∀ s i, Inv s → ok s i → ok' s i)
    {s : σ} {is : List ι} (hs : Inv s) (hg : Guarded step ok s is) : Guarded step ok' s is := by
  induction is generalizing s with
  | nil => trivial
  | cons i is ih => exact ⟨himp s i hs hg.1, ih (hstep s i hs hg.1) hg.2⟩

/-- `Q` holds of every state of the run, the first and the last included. -/
def Throughout (step : σ → ι → σ) (Q : σ → Prop) : σ → List ι → Prop
  | s, [] => Q s
  | s, i :: is => Q s ∧ Throughout step Q (step s i) is

theorem throughout_head {step : σ → ι → σ} {Q : σ → Prop} {s : σ} {is : List ι}
    (h : Throughout step Q s is) : Q s := by
  cases is with
  | nil => exact h
  | cons i is => exact h.1

theorem throughout_last {step : σ → ι → σ} {Q : σ → Prop} {s : σ} {is : List ι}
    (h : Throughout step Q s is) : Q (run step s is) := by
  induction is generalizing s with
  | nil => exact h
  | cons i is ih => exact ih h.2

/-- An invariant kept by every guarded step holds throughout a guarded run. -/
theorem throughout_of_guarded {step : σ → ι → σ} {ok : σ → ι → Prop} {Inv : σ → Prop}
    (hstep : ∀ s i, Inv s → ok s i → Inv (step s i)) {s : σ} {is : List ι}
    (hs : Inv s) (hg : Guarded step ok s is) : Throughout step Inv s is := by
  induction is generalizing s with
  | nil => exact hs
  | cons i is ih => exact ⟨hs, ih (hstep s i hs hg.1) hg.2⟩

theorem throughout_of_step {step : σ → ι → σ} {Inv : σ → Prop} (hstep : ∀ s i, Inv s → Inv (step s i))
    {s : σ} (hs : Inv s) (is : List ι) : Throughout step Inv s is := by
  have hall : Guarded step (fun _ _ => True) s is := guarded_of_forall fun _ _ => trivial
  exact throughout_of_guarded (fun s i h _ => hstep s i h) hs hall

theorem throughout_imp {step : σ → ι → σ} {Q R : σ → Prop} (hqr : ∀ s, Q s → R s)
    {s : σ} {is : List ι} (h : Throughout step Q s is) : Throughout step R s is := by
  induction is generalizing s with
  | nil => exact hqr s h
  | cons i is ih => exact ⟨hqr s h.1, ih h.2⟩

/-- When a step that is not guarded leaves the good states, the good runs are
exactly the guarded ones. `env` is what every step may rely on. -/
theorem throughout_iff_guarded_in {step : σ → ι → σ} {env ok : σ → ι → Prop} {Inv Q : σ → Prop}
    (hgood : ∀ s i, Inv s → env s i → ok s i → Inv (step s i)) (hinv : ∀ s, Inv s → Q s)
    (hbad : ∀ s i, Inv s → env s i → ¬ ok s i → ¬ Q (step s i)) {s : σ} {is : List ι} (hs : Inv s)
    (henv : Guarded step env s is) : Throughout step Q s is ↔ Guarded step ok s is := by
  induction is generalizing s with
  | nil => exact ⟨fun _ => trivial, fun _ => hinv s hs⟩
  | cons i is ih =>
    constructor
    · intro h
      have hok : ok s i := by
        by_contra hno
        exact hbad s i hs henv.1 hno (throughout_head h.2)
      exact ⟨hok, (ih (hgood s i hs henv.1 hok) henv.2).mp h.2⟩
    · intro h
      exact ⟨hinv s hs, (ih (hgood s i hs henv.1 h.1) henv.2).mpr h.2⟩

theorem throughout_iff_guarded {step : σ → ι → σ} {ok : σ → ι → Prop} {Inv Q : σ → Prop}
    (hgood : ∀ s i, Inv s → ok s i → Inv (step s i)) (hinv : ∀ s, Inv s → Q s)
    (hbad : ∀ s i, Inv s → ¬ ok s i → ¬ Q (step s i)) {s : σ} {is : List ι} (hs : Inv s) :
    Throughout step Q s is ↔ Guarded step ok s is := by
  have henv : Guarded step (fun _ _ => True) s is := guarded_of_forall fun _ _ => trivial
  exact throughout_iff_guarded_in (fun s i h _ => hgood s i h) hinv (fun s i h _ => hbad s i h) hs henv

/-- What the steps of a run give, in order. -/
def collect (step : σ → ι → σ) (out : σ → ι → List β) : σ → List ι → List β
  | _, [] => []
  | s, i :: is => out s i ++ collect step out (step s i) is

/-- What a store holds and what comes in is what goes out and what is left. -/
theorem collect_conserved {step : σ → ι → σ} {ok : σ → ι → Prop} {Inv : σ → Prop}
    (held : σ → List β) (inflow outflow : σ → ι → List β)
    (hstep : ∀ s i, Inv s → ok s i → Inv (step s i))
    (hflow : ∀ s i, Inv s → ok s i → held s ++ inflow s i = outflow s i ++ held (step s i))
    {s : σ} {is : List ι} (hs : Inv s) (hg : Guarded step ok s is) :
    held s ++ collect step inflow s is = collect step outflow s is ++ held (run step s is) := by
  induction is generalizing s with
  | nil => simp [collect]
  | cons i is ih =>
    have hrest := ih (hstep s i hs hg.1) hg.2
    calc held s ++ (inflow s i ++ collect step inflow (step s i) is)
        = outflow s i ++ (held (step s i) ++ collect step inflow (step s i) is) := by
          rw [← List.append_assoc, hflow s i hs hg.1, List.append_assoc]
      _ = collect step outflow s (i :: is) ++ held (run step (step s i) is) := by
          rw [hrest, collect, List.append_assoc]

theorem collect_flatten {step : σ → ι → σ} {out : σ → ι → List (List β)} (s : σ) (is : List ι) :
    (collect step out s is).flatten = collect step (fun s i => (out s i).flatten) s is := by
  induction is generalizing s with
  | nil => rfl
  | cons i is ih => rw [collect, List.flatten_append, ih, collect]

theorem collect_eq_nil {step : σ → ι → σ} {out : σ → ι → List β} {s : σ} {is : List ι}
    (h : Guarded step (fun s i => out s i = []) s is) : collect step out s is = [] := by
  induction is generalizing s with
  | nil => rfl
  | cons i is ih => rw [collect, h.1, ih h.2, List.nil_append]

end History
