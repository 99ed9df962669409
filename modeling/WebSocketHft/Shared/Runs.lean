import Mathlib.Data.List.Basic
import Mathlib.Logic.Relation

/-! # Runs of a step function

A run is a fold of a step over its inputs. What every step keeps, perhaps under a
condition on the state and the input it meets, is kept by the run. -/

namespace WebSocketHft.Runs

variable {σ ι α : Type*} {step : σ → ι → σ} {C D : σ → ι → Prop} {I : σ → Prop} {s : σ} {is : List ι}

/-- A condition on every step of a run. -/
def Along (step : σ → ι → σ) (C : σ → ι → Prop) : σ → List ι → Prop
  | _, [] => True
  | s, i :: is => C s i ∧ Along step C (step s i) is

theorem along_append {js : List ι} :
    Along step C s (is ++ js) ↔ Along step C s is ∧ Along step C (is.foldl step s) js := by
  induction is generalizing s with
  | nil => exact (and_iff_right trivial).symm
  | cons i is ih => rw [List.cons_append, Along, Along, ih, List.foldl_cons, and_assoc]

/-- The condition at one place of a run. -/
theorem Along.getElem? (h : Along step C s is) {k : ℕ} {i : ι} (hi : is[k]? = some i) :
    C ((is.take k).foldl step s) i := by
  induction is generalizing s k with
  | nil => exact absurd hi (Option.some_ne_none i).symm
  | cons first is ih =>
      cases k with
      | zero =>
          obtain rfl := Option.some.inj hi
          exact h.1
      | succ k => exact ih h.2 hi

/-- What every step keeps under the condition is kept by a run that meets it. -/
theorem Along.invariant (h : Along step C s is) (hstep : ∀ s i, I s → C s i → I (step s i))
    (hs : I s) : I (is.foldl step s) := by
  induction is generalizing s with
  | nil => exact hs
  | cons i is ih => exact ih h.2 (hstep s i hs h.1)

/-- What every step of the run keeps is kept by the run. -/
theorem foldl_invariant_of_mem (hstep : ∀ s, ∀ i ∈ is, I s → I (step s i)) (hs : I s) :
    I (is.foldl step s) := by
  induction is generalizing s with
  | nil => exact hs
  | cons i is ih =>
      exact ih (fun s j hj => hstep s j (List.mem_cons_of_mem i hj))
        (hstep s i List.mem_cons_self hs)

/-- What every step keeps is kept by every run. -/
theorem foldl_invariant (hstep : ∀ s i, I s → I (step s i)) (hs : I s) (is : List ι) :
    I (is.foldl step s) :=
  foldl_invariant_of_mem (fun s i _ => hstep s i) hs

/-- Conditions that agree in the states of an invariant agree along a run. -/
theorem along_congr (hstep : ∀ s i, I s → I (step s i)) (hiff : ∀ s i, I s → (C s i ↔ D s i))
    (hs : I s) : Along step C s is ↔ Along step D s is := by
  induction is generalizing s with
  | nil => exact Iff.rfl
  | cons i is ih => exact and_congr (hiff s i hs) (ih (hstep s i hs))

/-- The property holds in every state of the run, the first and the last one included. -/
def Always (step : σ → ι → σ) (I : σ → Prop) (s : σ) (is : List ι) : Prop :=
  ∀ is', is' <+: is → I (is'.foldl step s)

theorem always_cons {i : ι} : Always step I s (i :: is) ↔ I s ∧ Always step I (step s i) is := by
  constructor
  · intro h
    exact ⟨h [] List.nil_prefix, fun is' his => h (i :: is') (List.prefix_cons_inj i |>.mpr his)⟩
  · rintro ⟨hs, hrest⟩ is' his
    cases is' with
    | nil => exact hs
    | cons i' is' =>
        obtain ⟨rfl, htail⟩ := List.cons_prefix_cons.mp his
        exact hrest is' htail

/-- If a step keeps the property exactly under the condition, every state of a run has it
exactly when every step meets the condition. -/
theorem always_iff_along {G : ι → Prop}
    (hstep : ∀ s i, I s → G i → (I (step s i) ↔ C s i)) (hgood : ∀ i ∈ is, G i) (hs : I s) :
    Always step I s is ↔ Along step C s is := by
  induction is generalizing s with
  | nil => exact iff_of_true (fun is' his => by rwa [List.prefix_nil.mp his]) trivial
  | cons i is ih =>
      have hfirst := hstep s i hs (hgood i List.mem_cons_self)
      have hrest := ih (s := step s i) fun j hj => hgood j (List.mem_cons_of_mem i hj)
      rw [always_cons]
      constructor
      · rintro ⟨-, halways⟩
        have hnext : I (step s i) := halways [] List.nil_prefix
        exact ⟨hfirst.mp hnext, (hrest hnext).mp halways⟩
      · rintro ⟨hC, halong⟩
        exact ⟨hs, (hrest (hfirst.mpr hC)).mpr halong⟩

/-! ## Logs -/

/-- What the steps of a run log, in order. -/
def collect (step : σ → ι → σ) (log : σ → ι → List α) : σ → List ι → List α
  | _, [] => []
  | s, i :: is => log s i ++ collect step log (step s i) is

/-- What every step keeps if the entries it logs are good is kept by a run that logs only
good entries. -/
theorem collect_invariant {log : σ → ι → List α} {P : α → Prop} {G : ι → Prop}
    (hstep : ∀ s i, G i → I s → (∀ a ∈ log s i, P a) → I (step s i)) (hgood : ∀ i ∈ is, G i)
    (hlog : ∀ a ∈ collect step log s is, P a) (hs : I s) : I (is.foldl step s) := by
  induction is generalizing s with
  | nil => exact hs
  | cons i is ih =>
      have hfirst := hstep s i (hgood i List.mem_cons_self) hs fun a ha =>
        hlog a (List.mem_append_left _ ha)
      exact ih (fun j hj => hgood j (List.mem_cons_of_mem i hj))
        (fun a ha => hlog a (List.mem_append_right _ ha)) hfirst

/-! ## Partial steps -/

section Partial

variable {next : σ → ι → Option σ} {s' : σ} {js : List ι}

/-- A run of a partial step gets through one list and then through the next one. -/
theorem foldlM_append_eq_some :
    (is ++ js).foldlM next s = some s' ↔
      ∃ between, is.foldlM next s = some between ∧ js.foldlM next between = some s' := by
  rw [List.foldlM_append]
  exact Option.bind_eq_some_iff

/-- Inputs that leave a state alone are got through. -/
theorem foldlM_of_fixed (h : ∀ i ∈ is, next s i = some s) : is.foldlM next s = some s := by
  induction is with
  | nil => rfl
  | cons i is ih =>
      rw [List.foldlM_cons, h i List.mem_cons_self]
      exact ih fun j hj => h j (List.mem_cons_of_mem i hj)

end Partial

/-! ## Step relations -/

/-- If one step of a system is answered by at most one step of another, every run is answered
by a run. -/
theorem reachable_of_simulation {τ : Type*} {r : σ → σ → Prop} {q : τ → τ → Prop}
    {R : σ → τ → Prop} {s s' : σ} {t : τ}
    (hstep : ∀ s s' t, R s t → r s s' → ∃ t', Relation.ReflGen q t t' ∧ R s' t')
    (hs : R s t) (h : Relation.ReflTransGen r s s') :
    ∃ t', Relation.ReflTransGen q t t' ∧ R s' t' := by
  induction h with
  | refl => exact ⟨t, .refl, hs⟩
  | tail _ hlast ih =>
      obtain ⟨t₁, hrun, hbetween⟩ := ih
      obtain ⟨t', hanswer, hend⟩ := hstep _ _ _ hbetween hlast
      exact ⟨t', hrun.trans hanswer.to_reflTransGen, hend⟩

end WebSocketHft.Runs
