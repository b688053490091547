import Mathlib.Data.List.Forall2

/-!
# Steps that may fail

A computation in steps succeeds when each step does. These lemmas take such a computation apart
without opening the monad: a sequence of two steps, a step whose error is renamed, and the same
step on every item of a list.
-/

namespace AccessPattern

variable {ε ε' α β : Type}

/-- After a step that succeeded the next one goes on with its result. -/
@[simp] theorem ok_bind (value : α) (next : α → Except ε β) :
    (Except.ok value >>= next) = next value :=
  rfl

/-- After a step that failed nothing goes on. -/
@[simp] theorem error_bind (fault : ε) (next : α → Except ε β) :
    (Except.error fault >>= next) = .error fault :=
  rfl

/-- Renaming errors leaves a result alone. -/
@[simp] theorem mapError_ok (rename : ε → ε') (value : α) :
    (Except.ok value).mapError rename = .ok value :=
  rfl

/-- Renaming errors renames an error. -/
@[simp] theorem mapError_error (rename : ε → ε') (fault : ε) :
    (Except.error fault : Except ε α).mapError rename = .error (rename fault) :=
  rfl

/-- Two steps succeed when the first does and then the second. -/
theorem bind_eq_ok_iff {first : Except ε α} {second : α → Except ε β} {result : β} :
    first >>= second = .ok result ↔ ∃ value, first = .ok value ∧ second value = .ok result := by
  cases first with
  | error fault => simp
  | ok value => simp

/-- Renaming errors does not change whether a step succeeds. -/
theorem mapError_eq_ok_iff {rename : ε → ε'} {step : Except ε α} {result : α} :
    step.mapError rename = .ok result ↔ step = .ok result := by
  cases step with
  | error fault => simp
  | ok value => simp

/-- The same step on all items succeeds when it does on each. -/
theorem mapM_eq_ok_iff {step : α → Except ε β} {items : List α} {results : List β} :
    items.mapM step = .ok results ↔
      List.Forall₂ (fun item result => step item = .ok result) items results := by
  induction items generalizing results with
  | nil =>
    rw [List.mapM_nil, List.forall₂_nil_left_iff]
    exact ⟨fun h => (Except.ok.inj h).symm, fun h => h ▸ rfl⟩
  | cons item items ih =>
    rw [List.mapM_cons, bind_eq_ok_iff, List.forall₂_cons_left_iff]
    constructor
    · rintro ⟨result, hresult, hrest⟩
      obtain ⟨rest, hitems, hpure⟩ := bind_eq_ok_iff.mp hrest
      exact ⟨result, rest, hresult, ih.mp hitems, (Except.ok.inj hpure).symm⟩
    · rintro ⟨result, rest, hresult, hitems, rfl⟩
      exact ⟨result, hresult, bind_eq_ok_iff.mpr ⟨rest, ih.mpr hitems, rfl⟩⟩

/-- Renaming the error of each step renames that of the steps together. -/
theorem mapM_mapError {rename : ε → ε'} {step : α → Except ε β} (items : List α) :
    (items.mapM fun item => (step item).mapError rename) = (items.mapM step).mapError rename := by
  induction items with
  | nil => rfl
  | cons item items ih =>
    rw [List.mapM_cons, List.mapM_cons, ih]
    cases step item with
    | error fault => rfl
    | ok result =>
      cases items.mapM step with
      | error fault => rfl
      | ok results => rfl

/-- When steps in turn succeed, each item is taken by one that does. -/
theorem exists_step_eq_ok {σ : Type} {step : σ → α → Except ε σ} {items : List α} {start final : σ}
    (h : items.foldlM step start = .ok final) :
    ∀ item ∈ items, ∃ before after, step before item = .ok after := by
  induction items generalizing start with
  | nil => exact List.forall_mem_nil _
  | cons item items ih =>
    obtain ⟨next, hfirst, hlater⟩ := bind_eq_ok_iff.mp h
    exact List.forall_mem_cons.mpr ⟨⟨start, next, hfirst⟩, ih hlater⟩

variable {σ : Type} {first : ExceptT ε (StateM σ) α} {second : α → ExceptT ε (StateM σ) β}
  {start final : σ}

/-- Of two steps that may fail and change a state, the second starts where the first ends, unless
that failed. -/
theorem run_bind (first : ExceptT ε (StateM σ) α) (second : α → ExceptT ε (StateM σ) β)
    (start : σ) :
    (first >>= second).run.run start =
      match first.run.run start with
      | (.ok value, between) => (second value).run.run between
      | (.error fault, between) => (.error fault, between) := by
  rw [ExceptT.run_bind, StateT.run_bind]
  cases first.run.run start with
  | mk outcome next =>
    cases outcome with
    | error fault => rfl
    | ok value => rfl

/-- Two steps that may fail and change a state succeed when the first does and then the second,
from the state that the first leaves. -/
theorem run_bind_eq_ok_iff {result : β} :
    (first >>= second).run.run start = (.ok result, final) ↔
      ∃ value between, first.run.run start = (.ok value, between) ∧
        (second value).run.run between = (.ok result, final) := by
  rw [run_bind]
  rcases first.run.run start with ⟨fault | value, next⟩
  · refine ⟨fun h => ?_, fun ⟨_, _, h, _⟩ => ?_⟩
    · exact nomatch (Prod.mk.inj h).1
    · exact nomatch (Prod.mk.inj h).1
  · refine ⟨fun h => ⟨value, next, rfl, h⟩, fun ⟨_, _, h, hsecond⟩ => ?_⟩
    obtain ⟨⟨⟩, rfl⟩ := Prod.mk.inj h
    exact hsecond

/-- They fail when the first does, or when the second does from the state that the first leaves. -/
theorem run_bind_eq_error_iff {fault : ε} :
    (first >>= second).run.run start = (.error fault, final) ↔
      first.run.run start = (.error fault, final) ∨
      ∃ value between, first.run.run start = (.ok value, between) ∧
        (second value).run.run between = (.error fault, final) := by
  rw [run_bind]
  rcases first.run.run start with ⟨cause | value, next⟩
  · refine ⟨fun h => ?_, fun h => ?_⟩
    · obtain ⟨⟨⟩, rfl⟩ := Prod.mk.inj h
      exact .inl rfl
    · obtain ⟨⟨⟩, rfl⟩ := Prod.mk.inj <|
        h.resolve_right fun ⟨_, _, hfirst, _⟩ => nomatch (Prod.mk.inj hfirst).1
      rfl
  · refine ⟨fun h => .inr ⟨value, next, rfl, h⟩, fun h => ?_⟩
    obtain ⟨_, _, hfirst, hsecond⟩ := h.resolve_left fun h => nomatch (Prod.mk.inj h).1
    obtain ⟨⟨⟩, rfl⟩ := Prod.mk.inj hfirst
    exact hsecond

end AccessPattern
