import Mathlib.Data.List.Forall2
import Mathlib.Tactic.Common

/-!
# Computations that return

When a computation that may fail returns, each of its steps has returned.  These
lemmas take such a computation apart, one step at a time, so that no later proof
has to open a `do` block.  The same is said of computations on a state.
-/

namespace CilAtlas
namespace Outcome

variable {ε ε' α β : Type}

theorem bind_eq_ok_iff {x : Except ε α} {f : α → Except ε β} {b : β} :
    x >>= f = .ok b ↔ ∃ a, x = .ok a ∧ f a = .ok b := by
  cases x with
  | error e =>
    constructor
    · intro h
      cases h
    · rintro ⟨a, ha, -⟩
      cases ha
  | ok a =>
    constructor
    · intro h
      exact ⟨a, rfl, h⟩
    · rintro ⟨a', ha, h⟩
      cases ha
      exact h

theorem pure_eq_ok_iff {a b : α} : (pure a : Except ε α) = .ok b ↔ a = b := by
  constructor
  · intro h
    exact Except.ok.inj h
  · rintro rfl
    rfl

theorem map_eq_ok_iff {x : Except ε α} {f : α → β} {b : β} :
    x.map f = .ok b ↔ ∃ a, x = .ok a ∧ f a = b := by
  cases x with
  | error e => simp [Except.map]
  | ok a => simp [Except.map]

theorem mapError_eq_ok_iff {x : Except ε α} {f : ε → ε'} {a : α} :
    x.mapError f = .ok a ↔ x = .ok a := by
  cases x with
  | error e => simp [Except.mapError]
  | ok a => simp [Except.mapError]

/-- A list of steps returns exactly when each step does, with the results in the
order of the steps. -/
theorem mapM_eq_ok_iff {f : α → Except ε β} {xs : List α} {ys : List β} :
    xs.mapM f = .ok ys ↔ List.Forall₂ (fun x y => f x = .ok y) xs ys := by
  induction xs generalizing ys with
  | nil =>
    rw [List.mapM_nil, pure_eq_ok_iff, List.forall₂_nil_left_iff]
    exact eq_comm
  | cons x xs ih =>
    rw [List.mapM_cons, bind_eq_ok_iff]
    constructor
    · rintro ⟨y, hy, hrest⟩
      obtain ⟨ys', hys, hdone⟩ := bind_eq_ok_iff.mp hrest
      rw [← pure_eq_ok_iff.mp hdone]
      exact List.Forall₂.cons hy (ih.mp hys)
    · intro h
      cases h with
      | cons hy hys => exact ⟨_, hy, bind_eq_ok_iff.mpr ⟨_, ih.mpr hys, rfl⟩⟩

theorem mapM_eq_ok_map {f : α → Except ε β} {g : α → β} {xs : List α}
    (heach : ∀ x ∈ xs, f x = .ok (g x)) : xs.mapM f = .ok (xs.map g) := by
  rw [mapM_eq_ok_iff, List.forall₂_map_right_iff, List.forall₂_same]
  exact heach

theorem mapM_map_eq_ok {γ : Type} {f : β → Except ε γ} {g : α → β} {h : α → γ} {xs : List α}
    (heach : ∀ x ∈ xs, f (g x) = .ok (h x)) : (xs.map g).mapM f = .ok (xs.map h) := by
  rw [mapM_eq_ok_iff, List.forall₂_map_left_iff, List.forall₂_map_right_iff, List.forall₂_same]
  exact heach

theorem exists_mapM_ok {f : α → Except ε β} {xs : List α}
    (h : ∀ x ∈ xs, ∃ y, f x = .ok y) : ∃ ys, xs.mapM f = .ok ys := by
  induction xs with
  | nil => exact ⟨[], rfl⟩
  | cons x xs ih =>
    obtain ⟨y, hy⟩ := h x List.mem_cons_self
    obtain ⟨ys, hys⟩ := ih fun x' hx' => h x' (List.mem_cons_of_mem x hx')
    exact ⟨y :: ys, mapM_eq_ok_iff.mpr (List.Forall₂.cons hy (mapM_eq_ok_iff.mp hys))⟩

theorem bind_of_ok {x : Except ε α} {a : α} (h : x = .ok a) (f : α → Except ε β) :
    x >>= f = f a := by
  rw [h]
  rfl

theorem bind_of_error {x : Except ε α} {e : ε} (h : x = .error e) (f : α → Except ε β) :
    x >>= f = .error e := by
  rw [h]
  rfl

theorem exists_of_isOk {x : Except ε α} (h : x.isOk = true) : ∃ a, x = .ok a := by
  cases x with
  | error e => cases h
  | ok a => exact ⟨a, rfl⟩

theorem toOption_eq_some_iff {x : Except ε α} {a : α} : x.toOption = some a ↔ x = .ok a := by
  cases x with
  | error e => exact iff_of_false nofun nofun
  | ok b => exact ⟨fun h => congrArg _ (Option.some.inj h), fun h => congrArg _ (Except.ok.inj h)⟩

theorem exists_bind_ok {x : Except ε α} {a : α} {f : α → Except ε β} (h : x = .ok a)
    (hlater : ∃ b, f a = .ok b) : ∃ b, x >>= f = .ok b := by
  rw [bind_of_ok h]
  exact hlater

theorem mapM_congr {f g : α → Except ε β} {xs : List α} (hsame : ∀ x ∈ xs, f x = g x) :
    xs.mapM f = xs.mapM g := by
  induction xs with
  | nil => rfl
  | cons x xs ih =>
    obtain ⟨hfirst, hothers⟩ := List.forall_mem_cons.mp hsame
    rw [List.mapM_cons, List.mapM_cons, hfirst, ih hothers]

/-! ### Computations on a state -/

section Stateful

variable {σ : Type} {step : EStateM ε σ α} {s s' : σ}

theorem run_bind_of_ok {a : α} (h : step s = .ok a s') (next : α → EStateM ε σ β) :
    (step >>= next) s = next a s' := by
  show EStateM.bind step next s = _
  unfold EStateM.bind
  rw [h]

theorem run_get_bind (next : σ → EStateM ε σ β) : (get >>= next) s = next s s :=
  rfl

theorem run_bind_of_error {e : ε} (h : step s = .error e s') (next : α → EStateM ε σ β) :
    (step >>= next) s = .error e s' := by
  show EStateM.bind step next s = _
  unfold EStateM.bind
  rw [h]

theorem run_bind_eq_ok_iff {next : α → EStateM ε σ β} {b : β} {s'' : σ} :
    (step >>= next) s = .ok b s'' ↔ ∃ a s', step s = .ok a s' ∧ next a s' = .ok b s'' := by
  cases h : step s with
  | ok a s' => simp [run_bind_of_ok h]
  | error e s' => simp [run_bind_of_error h]

theorem run_bind_eq_error_iff {next : α → EStateM ε σ β} {e : ε} {s'' : σ} :
    (step >>= next) s = .error e s'' ↔
      step s = .error e s'' ∨ ∃ a s', step s = .ok a s' ∧ next a s' = .error e s'' := by
  cases h : step s with
  | ok a s' => simp [run_bind_of_ok h]
  | error e s' => simp [run_bind_of_error h]

/-- The state in which a computation ends, whether it returns or fails. -/
def stateOf : EStateM.Result ε σ α → σ
  | .ok _ s => s
  | .error _ s => s

theorem stateOf_bind_pure (step : EStateM ε σ α) (f : α → β) (s : σ) :
    stateOf ((step >>= fun a => pure (f a)) s) = stateOf (step s) := by
  cases h : step s with
  | ok a s' =>
    rw [run_bind_of_ok h]
    rfl
  | error e s' =>
    rw [run_bind_of_error h]
    rfl

/-- Wherever the computation starts, the state in which it ends is related to that. -/
def Advances (R : σ → σ → Prop) (step : EStateM ε σ α) : Prop :=
  ∀ s, R s (stateOf (step s))

theorem Advances.bind {R : σ → σ → Prop} {next : α → EStateM ε σ β} (hfirst : Advances R step)
    (hlater : ∀ a, Advances R (next a)) (htrans : ∀ {s s' s'' : σ}, R s s' → R s' s'' → R s s'') :
    Advances R (step >>= next) := by
  intro s
  have hbegun := hfirst s
  cases h : step s with
  | ok a s' =>
    rw [h] at hbegun
    rw [run_bind_of_ok h]
    exact htrans hbegun (hlater a s')
  | error e s' =>
    rw [h] at hbegun
    rw [run_bind_of_error h]
    exact hbegun

end Stateful

/-! ### Exact conditions -/

/-- The computation returns when the condition holds, and fails with one of the
given errors when it does not. -/
def ReturnsIff {δ : Type} (p : Prop) (fault : δ → ε) (x : Except ε α) : Prop :=
  (p ∧ ∃ a, x = .ok a) ∨ ¬ p ∧ ∃ e, x = .error (fault e)

namespace ReturnsIff

variable {δ : Type} {p : Prop} {fault : δ → ε} {x : Except ε α}

theorem exists_ok_iff (h : ReturnsIff p fault x) : (∃ a, x = .ok a) ↔ p := by
  rcases h with ⟨hholds, hreturns⟩ | ⟨hfails, e, hx⟩
  · exact iff_of_true hreturns hholds
  · refine iff_of_false ?_ hfails
    rintro ⟨a, ha⟩
    rw [hx] at ha
    cases ha

theorem exists_fault {e : ε} (h : ReturnsIff p fault x) (hx : x = .error e) :
    ∃ d, e = fault d := by
  rcases h with ⟨-, a, ha⟩ | ⟨-, d, hd⟩
  · rw [hx] at ha
    cases ha
  · rw [hx] at hd
    exact ⟨d, Except.error.inj hd⟩

/-- A step that returns changes nothing. -/
theorem after {y : Except ε β} {b : β} {f : β → Except ε α} (hy : y = .ok b)
    (h : ReturnsIff p fault (f b)) : ReturnsIff p fault (y >>= f) := by
  rw [bind_of_ok hy]
  exact h

/-- Only the first step can fail. -/
theorem bind {f : α → Except ε β} (h : ReturnsIff p fault x)
    (hlater : ∀ a, x = .ok a → ∃ b, f a = .ok b) : ReturnsIff p fault (x >>= f) := by
  rcases h with ⟨hholds, a, ha⟩ | ⟨hfails, e, hx⟩
  · exact .inl ⟨hholds, exists_bind_ok ha (hlater a ha)⟩
  · exact .inr ⟨hfails, e, bind_of_error hx f⟩

/-- The same condition with the errors renamed. -/
theorem mapError {ε' : Type} (rename : ε → ε') (h : ReturnsIff p fault x) :
    ReturnsIff p (rename ∘ fault) (x.mapError rename) := by
  rcases h with ⟨hholds, a, rfl⟩ | ⟨hfails, e, rfl⟩
  · exact .inl ⟨hholds, a, rfl⟩
  · exact .inr ⟨hfails, e, rfl⟩

/-- A list of steps that each fail by a condition of their own. -/
theorem mapM {q : α → Prop} {f : α → Except ε β} {xs : List α}
    (heach : ∀ x ∈ xs, ReturnsIff (q x) fault (f x)) :
    ReturnsIff (∀ x ∈ xs, q x) fault (xs.mapM f) := by
  induction xs with
  | nil => exact .inl ⟨by simp, [], rfl⟩
  | cons x xs ih =>
    rw [List.mapM_cons]
    rcases heach x List.mem_cons_self with ⟨hholds, y, hy⟩ | ⟨hfails, e, hx⟩
    · rw [bind_of_ok hy]
      have hothers := (ih fun x' hmember => heach x' (List.mem_cons_of_mem x hmember)).bind
        (f := fun ys => pure (y :: ys)) fun ys _ => ⟨y :: ys, rfl⟩
      rcases hothers with ⟨hrest, hreturns⟩ | ⟨hrest, hfailed⟩
      · exact .inl ⟨List.forall_mem_cons.mpr ⟨hholds, hrest⟩, hreturns⟩
      · exact .inr ⟨fun hall => hrest (List.forall_mem_cons.mp hall).2, hfailed⟩
    · exact .inr ⟨fun hall => hfails (List.forall_mem_cons.mp hall).1, e, bind_of_error hx _⟩

end ReturnsIff
end Outcome

variable {α β : Type}

theorem exists_mem_of_forall₂_left {R : α → β → Prop} {xs : List α} {ys : List β}
    (hmatched : List.Forall₂ R xs ys) {x : α} (hmember : x ∈ xs) : ∃ y ∈ ys, R x y := by
  induction hmatched with
  | nil => cases hmember
  | cons hfirst _ ih =>
    rcases List.mem_cons.mp hmember with rfl | hlater
    · exact ⟨_, List.mem_cons_self, hfirst⟩
    · obtain ⟨y, hy, hR⟩ := ih hlater
      exact ⟨y, List.mem_cons_of_mem _ hy, hR⟩

theorem exists_mem_of_forall₂_right {R : α → β → Prop} {xs : List α} {ys : List β}
    (hmatched : List.Forall₂ R xs ys) {y : β} (hmember : y ∈ ys) : ∃ x ∈ xs, R x y :=
  exists_mem_of_forall₂_left hmatched.flip hmember

theorem forall₂_mem_left {R : α → β → Prop} {xs : List α} {ys : List β}
    (hmatched : List.Forall₂ R xs ys) : List.Forall₂ (fun x y => x ∈ xs ∧ R x y) xs ys :=
  (List.forall₂_and_left _ _).mpr ⟨fun _ hmember => hmember, hmatched⟩

theorem exists_getElem?_of_forall₂ {R : α → β → Prop} {xs : List α} {ys : List β}
    (hmatched : List.Forall₂ R xs ys) {i : Nat} {x : α} (hpresent : xs[i]? = some x) :
    ∃ y, ys[i]? = some y ∧ R x y := by
  induction hmatched generalizing i with
  | nil => simp at hpresent
  | cons hfirst _ ih =>
    cases i with
    | zero =>
      obtain rfl : _ = x := Option.some.inj hpresent
      exact ⟨_, rfl, hfirst⟩
    | succ i => exact ih hpresent

/-- Results that may be missing, with the missing ones left out on both sides. -/
theorem forall₂_filter_of_options {R : α → Option β → Prop} {S : α → β → Prop} {p : α → Bool}
    {xs : List α} {results : List (Option β)} (hmissing : ∀ x, R x none → p x = false)
    (hpresent : ∀ x y, R x (some y) → p x = true ∧ S x y) (hmatched : List.Forall₂ R xs results) :
    List.Forall₂ S (xs.filter p) (results.filterMap id) := by
  induction hmatched with
  | nil => exact .nil
  | @cons x result xs results hfirst _ ih =>
    cases result with
    | none =>
      rw [List.filter_cons_of_neg (by simp [hmissing x hfirst])]
      exact ih
    | some y =>
      obtain ⟨hkept, hshown⟩ := hpresent x y hfirst
      rw [List.filter_cons_of_pos hkept]
      exact .cons hshown ih

theorem forall₂_trans {γ : Type} {R : α → β → Prop} {S : β → γ → Prop} {xs : List α}
    {ys : List β} {zs : List γ} (hfirst : List.Forall₂ R xs ys) (hsecond : List.Forall₂ S ys zs) :
    List.Forall₂ (fun x z => ∃ y, R x y ∧ S y z) xs zs := by
  induction hfirst generalizing zs with
  | nil =>
    cases hsecond
    exact .nil
  | cons hR _ ih =>
    cases hsecond with
    | cons hS hothers => exact .cons ⟨_, hR, hS⟩ (ih hothers)

end CilAtlas
