import DirectConv.Fault
import Mathlib.Data.List.Basic

/-!
# Loops

Everything the engine does is a loop over numbers whose rounds can fail. A loop succeeds if every
round succeeds in a state that satisfies the invariant, and then the invariant holds at its end.

## Main statements

- `DirectConv.foldlM_range'_ok`, `DirectConv.foldlM_range_ok`: the rule for loops over numbers
- `DirectConv.first_of_foldlM_range`, `DirectConv.rounds_of_foldlM`: a loop that succeeds has had
  its first round, and every other one
- `DirectConv.foldlM_flatMap_hom`: a loop over lists of steps does what a loop over elements does
- `DirectConv.foldl_range_induction`: the rule for loops that cannot fail
- `DirectConv.foldl_range_mul`: two nested loops are one loop
-/

namespace DirectConv

variable {σ α β : Type}

theorem bind_of_eq_ok {x : Except Fault α} {a : α} (h : x = .ok a) (f : α → Except Fault β) :
    (x >>= f) = f a := by
  subst h
  rfl

theorem bind_of_eq_error {x : Except Fault α} {fault : Fault} (h : x = .error fault)
    (f : α → Except Fault β) : (x >>= f) = .error fault := by
  subst h
  rfl

/-- The invariant `P` speaks about the number whose turn is next. -/
theorem foldlM_range'_ok {f : σ → Nat → Except Fault σ} (P : Nat → σ → Prop) {start count : Nat}
    {s : σ} (h : P start s)
    (step : ∀ i s, start ≤ i → i < start + count → P i s → ∃ s', f s i = .ok s' ∧ P (i + 1) s') :
    ∃ s', (List.range' start count).foldlM f s = .ok s' ∧ P (start + count) s' := by
  induction count generalizing start s with
  | zero => exact ⟨s, rfl, h⟩
  | succ count ih =>
    obtain ⟨s₁, hs₁, h₁⟩ := step start s (Nat.le_refl _) (by omega) h
    obtain ⟨s₂, hs₂, h₂⟩ := ih h₁ fun i s hi hi' => step i s (by omega) (by omega)
    refine ⟨s₂, ?_, ?_⟩
    · rw [List.range'_succ, List.foldlM_cons, bind_of_eq_ok hs₁, hs₂]
    · rw [show start + (count + 1) = start + 1 + count by omega]
      exact h₂

theorem foldlM_range_ok {f : σ → Nat → Except Fault σ} (P : Nat → σ → Prop) {count : Nat}
    {s : σ} (h : P 0 s)
    (step : ∀ i s, i < count → P i s → ∃ s', f s i = .ok s' ∧ P (i + 1) s') :
    ∃ s', (List.range count).foldlM f s = .ok s' ∧ P count s' := by
  obtain ⟨s', hs', h'⟩ := foldlM_range'_ok P h fun i s _ (hi : i < 0 + count) =>
    step i s (by omega)
  exact ⟨s', by rw [List.range_eq_range', hs'], by rw [Nat.zero_add] at h'; exact h'⟩

theorem foldlM_cons_eq_ok {f : σ → α → Except Fault σ} {x : α} {rest : List α}
    {s s' : σ} (h : (x :: rest).foldlM f s = .ok s') :
    ∃ s₁, f s x = .ok s₁ ∧ rest.foldlM f s₁ = .ok s' := by
  rwa [List.foldlM_cons, bind_eq_ok_iff] at h

/-- A loop that succeeds gets through every first part of its list. -/
theorem foldlM_append_eq_ok {f : σ → α → Except Fault σ} {xs ys : List α} {s s' : σ}
    (h : (xs ++ ys).foldlM f s = .ok s') :
    ∃ s₁, xs.foldlM f s = .ok s₁ ∧ ys.foldlM f s₁ = .ok s' := by
  rwa [List.foldlM_append, bind_eq_ok_iff] at h

/-- A loop over numbers that succeeds has had its first round. -/
theorem first_of_foldlM_range' {f : σ → Nat → Except Fault σ} {start count : Nat}
    {s s' : σ} (h : (List.range' start count).foldlM f s = .ok s') (hcount : 0 < count) :
    ∃ s₁, f s start = .ok s₁ := by
  cases count with
  | zero => exact absurd hcount (Nat.lt_irrefl 0)
  | succ count =>
    obtain ⟨s₁, hs₁, -⟩ := foldlM_cons_eq_ok h
    exact ⟨s₁, hs₁⟩

theorem first_of_foldlM_range {f : σ → Nat → Except Fault σ} {count : Nat} {s s' : σ}
    (h : (List.range count).foldlM f s = .ok s') (hcount : 0 < count) : ∃ s₁, f s 0 = .ok s₁ := by
  rw [List.range_eq_range'] at h
  exact first_of_foldlM_range' h hcount

/-- A loop that succeeds has had all its rounds, each of them in a state that satisfies the
invariant. -/
theorem rounds_of_foldlM {f : σ → α → Except Fault σ} (P : σ → Prop) {xs : List α} {s s' : σ}
    (step : ∀ x s s', P s → f s x = .ok s' → P s') (hs : P s) (h : xs.foldlM f s = .ok s') :
    P s' ∧ ∀ x ∈ xs, ∃ s₁ s₂, P s₁ ∧ f s₁ x = .ok s₂ := by
  induction xs generalizing s with
  | nil =>
    obtain rfl := Except.ok.inj h
    exact ⟨hs, nofun⟩
  | cons x rest ih =>
    obtain ⟨s₁, hs₁, hrest⟩ := foldlM_cons_eq_ok h
    obtain ⟨hs', hrounds⟩ := ih (step x s s₁ hs hs₁) hrest
    refine ⟨hs', ?_⟩
    intro y hy
    rcases List.mem_cons.1 hy with rfl | hmem
    · exact ⟨s, s₁, hs, hs₁⟩
    · exact hrounds y hmem

/-- A loop over lists of steps, where the steps of an element do to the image of a state what the
element does to the state. -/
theorem foldlM_flatMap_hom {τ : Type} {f : σ → α → Except Fault σ} {g : τ → β → Except Fault τ}
    {steps : α → List β} (image : σ → τ) (xs : List α)
    (h : ∀ x ∈ xs, ∀ s, (steps x).foldlM g (image s) = image <$> f s x) (s : σ) :
    (xs.flatMap steps).foldlM g (image s) = image <$> xs.foldlM f s := by
  induction xs generalizing s with
  | nil => rfl
  | cons x rest ih =>
    rw [List.flatMap_cons, List.foldlM_append, h x List.mem_cons_self, List.foldlM_cons, map_bind,
      bind_map_left]
    exact bind_congr fun s' => ih (fun y hy => h y (List.mem_cons_of_mem _ hy)) s'

/-- The same where an element has one step. -/
theorem foldlM_map_hom {τ : Type} {f : σ → α → Except Fault σ} {g : τ → β → Except Fault τ}
    (step : α → β) (image : σ → τ) (xs : List α)
    (h : ∀ x ∈ xs, ∀ s, g (image s) (step x) = image <$> f s x) (s : σ) :
    (xs.map step).foldlM g (image s) = image <$> xs.foldlM f s := by
  rw [List.map_eq_flatMap]
  refine foldlM_flatMap_hom image xs (fun x hx s => ?_) s
  rw [List.foldlM_cons, h x hx]
  exact bind_pure _

/-- The same where both loops are over the same list. -/
theorem foldlM_hom {τ : Type} {f : σ → α → Except Fault σ} {g : τ → α → Except Fault τ}
    (image : σ → τ) (h : ∀ s x, g (image s) x = image <$> f s x) (xs : List α) (s : σ) :
    xs.foldlM g (image s) = image <$> xs.foldlM f s := by
  have hsteps := foldlM_map_hom id image xs (fun x _ s => h s x) s
  rwa [List.map_id] at hsteps

theorem foldl_range_succ (f : σ → Nat → σ) (s : σ) (count : Nat) :
    (List.range (count + 1)).foldl f s = f ((List.range count).foldl f s) count := by
  rw [List.range_succ, List.foldl_append, List.foldl_cons, List.foldl_nil]

/-- A loop that cannot fail keeps an invariant. -/
theorem foldl_range_induction {f : σ → Nat → σ} (P : Nat → σ → Prop) {count : Nat} {s : σ}
    (h : P 0 s) (step : ∀ i < count, ∀ s, P i s → P (i + 1) (f s i)) :
    P count ((List.range count).foldl f s) := by
  induction count with
  | zero => exact h
  | succ count ih =>
    rw [foldl_range_succ]
    exact step count (Nat.lt_succ_self _) _ (ih fun i hi => step i (Nat.lt_succ_of_lt hi))

end DirectConv
