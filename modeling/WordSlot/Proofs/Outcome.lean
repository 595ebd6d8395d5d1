import Mathlib.Data.List.Forall2
import WordSlot.Surroundings

/-!
# Reading off outcomes

What it takes for a computation that can fail to succeed, step by step, what faults it can end with, and what an action leaves
behind. Proofs about the readers and about the backends peel computations apart with these statements and do not unfold the
monads. Actions performed one after another leave a history of what each gave.
-/

namespace WordSlot

namespace Outcome

variable {ε α β : Type}

/-- A computation with a continuation succeeds exactly when both do. -/
theorem bind_eq_ok {x : Except ε α} {f : α → Except ε β} {b : β} : x >>= f = .ok b ↔ ∃ a, x = .ok a ∧ f a = .ok b := by
  rcases x with e | a
  · constructor
    · rintro ⟨⟩
    · rintro ⟨a, ⟨⟩, -⟩
  · constructor
    · intro h
      exact ⟨a, rfl, h⟩
    · rintro ⟨_, ⟨⟩, h⟩
      exact h

/-- A computation with a continuation fails exactly when it fails itself or the continuation does. -/
theorem bind_eq_error {x : Except ε α} {f : α → Except ε β} {e : ε} :
    x >>= f = .error e ↔ x = .error e ∨ ∃ a, x = .ok a ∧ f a = .error e := by
  rcases x with e' | a
  · constructor
    · intro h
      cases h
      exact .inl rfl
    · rintro (⟨⟨⟩⟩ | ⟨a, ⟨⟩, -⟩)
      rfl
  · constructor
    · intro h
      exact .inr ⟨a, rfl, h⟩
    · rintro (⟨⟨⟩⟩ | ⟨_, ⟨⟩, h⟩)
      exact h

/-- A computation that gave a value goes on with it. -/
@[simp] theorem ok_bind (a : α) (f : α → Except ε β) : (Except.ok a >>= f) = f a := rfl

/-- A computation that failed goes no further. -/
@[simp] theorem error_bind (e : ε) (f : α → Except ε β) : (Except.error e >>= f) = .error e := rfl

/-- `pure` is a value. -/
@[simp] theorem pure_eq_ok (a : α) : (pure a : Except ε α) = .ok a := rfl

/-- `throw` is a fault. -/
@[simp] theorem throw_eq_error (e : ε) : (throw e : Except ε α) = .error e := rfl

/-- What is left of an outcome when the fault is forgotten is its value. -/
theorem toOption_eq_some {x : Except ε α} {a : α} : x.toOption = some a ↔ x = .ok a := by
  rcases x with e | a <;> simp [Except.toOption]

/-- What gives no value has failed. -/
theorem exists_error_iff {x : Except ε α} : (∃ e, x = .error e) ↔ ¬∃ a, x = .ok a := by
  rcases x with e | a <;> simp

/-- A value under a function comes from a value. -/
theorem map_eq_ok {x : Except ε α} {f : α → β} {b : β} : x.map f = .ok b ↔ ∃ a, x = .ok a ∧ f a = b := by
  rcases x with e | a <;> simp [Except.map]

/-- Working through a list succeeds exactly when each item does, with one result for each. -/
theorem mapM_eq_ok_iff {f : α → Except ε β} {as : List α} {bs : List β} :
    as.mapM f = .ok bs ↔ List.Forall₂ (fun a b => f a = .ok b) as bs := by
  induction as generalizing bs with
  | nil =>
    rw [List.mapM_nil, pure_eq_ok, Except.ok.injEq, List.forall₂_nil_left_iff]
    exact eq_comm
  | cons a as ih =>
    simp only [List.mapM_cons, bind_eq_ok, ih, pure_eq_ok, Except.ok.injEq, List.forall₂_cons_left_iff]
    constructor
    · rintro ⟨b, hb, bs, hbs, rfl⟩
      exact ⟨b, bs, hb, hbs, rfl⟩
    · rintro ⟨b, bs, hb, hbs, rfl⟩
      exact ⟨b, hb, bs, hbs, rfl⟩

/-- A loop fails exactly at the first item whose step fails, with the fault of that step. -/
theorem foldlM_eq_error_iff {f : β → α → Except ε β} {as : List α} {b : β} {e : ε} :
    as.foldlM f b = .error e ↔
      ∃ before a after b', as = before ++ a :: after ∧ before.foldlM f b = .ok b' ∧ f b' a = .error e := by
  induction as generalizing b with
  | nil => simp
  | cons a as ih =>
    rw [List.foldlM_cons, bind_eq_error]
    constructor
    · rintro (h | ⟨b₁, hb, h⟩)
      · exact ⟨[], a, as, b, rfl, rfl, h⟩
      · obtain ⟨before, a', after, b', rfl, hbefore, ha⟩ := ih.mp h
        exact ⟨a :: before, a', after, b', rfl, bind_eq_ok.mpr ⟨b₁, hb, hbefore⟩, ha⟩
    · rintro ⟨before, a', after, b', hsplit, hbefore, ha⟩
      cases before with
      | nil =>
        cases hsplit
        cases hbefore
        exact .inl ha
      | cons x before =>
        obtain ⟨rfl, rfl⟩ := List.cons.inj hsplit
        obtain ⟨b₁, hb, hbefore⟩ := bind_eq_ok.mp hbefore
        exact .inr ⟨b₁, hb, ih.mpr ⟨before, a', after, b', rfl, hbefore, ha⟩⟩

/-- Every fault that a computation can end with is of a kind. -/
def Fails (x : Except ε α) (P : ε → Prop) : Prop := ∀ e, x = .error e → P e

variable {P : ε → Prop}

/-- A value fails in no way. -/
theorem fails_ok (a : α) : Fails (.ok a) P := nofun

/-- A fault fails in its own way. -/
theorem fails_error {e : ε} (h : P e) : Fails (.error e : Except ε α) P := by
  rintro _ ⟨⟩
  exact h

/-- The continuation starts from what the computation gave, so only that has to be looked at. -/
theorem Fails.bind {x : Except ε α} {f : α → Except ε β} (hx : Fails x P) (hf : ∀ a, x = .ok a → Fails (f a) P) :
    Fails (x >>= f) P := by
  cases x with
  | error e => exact fails_error (hx e rfl)
  | ok a => exact hf a rfl

/-- Faults may be described more loosely. -/
theorem Fails.imp {x : Except ε α} {Q : ε → Prop} (hx : Fails x P) (h : ∀ e, P e → Q e) : Fails x Q := fun e he => h e (hx e he)

/-- A function on values leaves the faults. -/
theorem Fails.map {x : Except ε α} (hx : Fails x P) (f : α → β) : Fails (x.map f) P := by
  cases x with
  | error e => exact fails_error (hx e rfl)
  | ok a => exact fails_ok (f a)

end Outcome

namespace Act

variable {σ α β : Type}

/-- A value leaves the state alone. -/
@[simp] theorem perform_pure (a : α) (s : σ) : (pure a : Act σ α).perform s = (.ok a, s) := rfl

/-- An outcome leaves the state alone. -/
@[simp] theorem perform_ofExcept (x : Except Fault α) (s : σ) : (ofExcept x).perform s = (x, s) := rfl

/-- An action that is made of a function is that function. -/
theorem perform_mk (f : σ → Except Fault α × σ) (s : σ) : @Act.perform σ α (ExceptT.mk f) s = f s := rfl

/-- Reading the state leaves it alone. -/
@[simp] theorem perform_get (s : σ) : (get : Act σ σ).perform s = (.ok s, s) := rfl

/-- Setting the state forgets the old one. -/
@[simp] theorem perform_set (s s' : σ) : (set s' : Act σ Unit).perform s = (.ok (), s') := rfl

/-- Changing the state never fails. -/
@[simp] theorem perform_modify (f : σ → σ) (s : σ) : (modify f : Act σ Unit).perform s = (.ok (), f s) := rfl

/-- An action with a continuation: the continuation starts where the action ended, and a fault ends both. -/
theorem perform_bind (x : Act σ α) (f : α → Act σ β) (s : σ) :
    (x >>= f).perform s =
      match x.perform s with
      | (.ok a, s') => (f a).perform s'
      | (.error e, s') => (.error e, s') := by
  change (ExceptT.bindCont f (x.perform s).1).run (x.perform s).2 = _
  rcases x.perform s with ⟨e | a, s'⟩ <;> rfl

/-- An action whose result is only rewritten. -/
theorem perform_bind_pure (x : Act σ α) (f : α → β) (s : σ) :
    (x >>= fun a => pure (f a)).perform s = ((x.perform s).1.map f, (x.perform s).2) := by
  rw [perform_bind]
  rcases x.perform s with ⟨e | a, s'⟩ <;> rfl

/-- A handler takes over where the action failed, with what the action had changed by then. -/
theorem perform_tryCatch (x : Act σ α) (handle : Fault → Act σ α) (s : σ) :
    (tryCatch x handle).perform s =
      match x.perform s with
      | (.ok a, s') => (.ok a, s')
      | (.error e, s') => (handle e).perform s' := by
  cases hx : x.perform s with
  | mk result s' =>
    simp only [perform, ExceptT.run] at hx ⊢
    simp only [tryCatch, tryCatchThe, MonadExceptOf.tryCatch, ExceptT.tryCatch, ExceptT.mk, bind, StateT.bind, hx]
    cases result <;> rfl

/-- A fault leaves the state alone. -/
@[simp] theorem perform_throw (f : Fault) (s : σ) : (throw f : Act σ α).perform s = (.error f, s) := rfl

/-- Every fault that an action can end with is of a kind. -/
def Raises (act : Act σ α) (P : Fault → Prop) : Prop := ∀ s, Outcome.Fails (act.perform s).1 P

section

variable {P : Fault → Prop}

/-- A value raises nothing. -/
theorem raises_pure (a : α) : (pure a : Act σ α).Raises P := fun _ => Outcome.fails_ok a

/-- Throwing raises the fault that is thrown. -/
theorem raises_throw {f : Fault} (h : P f) : (throw f : Act σ α).Raises P := fun _ => Outcome.fails_error h

/-- An outcome raises its fault. -/
theorem raises_ofExcept {x : Except Fault α} (h : Outcome.Fails x P) : (ofExcept x : Act σ α).Raises P := fun _ => h

theorem raises_get : (get : Act σ σ).Raises P := fun s => Outcome.fails_ok s

theorem raises_set (s : σ) : (set s : Act σ Unit).Raises P := fun _ => Outcome.fails_ok ()

theorem raises_modify (f : σ → σ) : (modify f : Act σ Unit).Raises P := fun _ => Outcome.fails_ok ()

/-- Actions in sequence raise what either of them raises. -/
theorem Raises.bind {x : Act σ α} {f : α → Act σ β} (hx : x.Raises P) (hf : ∀ a, (f a).Raises P) : (x >>= f).Raises P := by
  intro s
  rw [perform_bind]
  cases h : x.perform s with
  | mk result s' =>
    cases result with
    | error e => exact Outcome.fails_error (hx s e (congrArg Prod.fst h))
    | ok a => exact hf a s'

end

/-- What holds of the state before an action holds of the state after it, whether it fails or not. -/
def Keeps (act : Act σ α) (I : σ → Prop) : Prop := ∀ s, I s → I (act.perform s).2

section

variable {I : σ → Prop}

/-- A value keeps whatever holds. -/
theorem keeps_pure (a : α) : (pure a : Act σ α).Keeps I := fun _ h => h

/-- A fault keeps whatever holds. -/
theorem keeps_throw (f : Fault) : (throw f : Act σ α).Keeps I := fun _ h => h

/-- An outcome keeps whatever holds. -/
theorem keeps_ofExcept (x : Except Fault α) : (ofExcept x : Act σ α).Keeps I := fun _ h => h

/-- Actions in sequence keep what both of them keep. -/
theorem Keeps.bind {x : Act σ α} {f : α → Act σ β} (hx : x.Keeps I) (hf : ∀ a, (f a).Keeps I) : (x >>= f).Keeps I := by
  intro s hs
  have hs' := hx s hs
  rw [perform_bind]
  cases h : x.perform s with
  | mk result s' =>
    rw [h] at hs'
    cases result with
    | error e => exact hs'
    | ok a => exact hf a s' hs'

/-- An action with a handler keeps what both of them keep. -/
theorem Keeps.tryCatch {x : Act σ α} {handle : Fault → Act σ α} (hx : x.Keeps I) (hh : ∀ f, (handle f).Keeps I) :
    (tryCatch x handle).Keeps I := by
  intro s hs
  have hs' := hx s hs
  rw [perform_tryCatch]
  cases h : x.perform s with
  | mk result s' =>
    rw [h] at hs'
    cases result with
    | error e => exact hh e s' hs'
    | ok a => exact hs'

end

/-- Performs actions one after another, whatever becomes of each, and notes each with its result. -/
def runAll {ι : Type} (act : ι → Act σ α) : List ι → σ → List (ι × Except Fault α) × σ
  | [], s => ([], s)
  | i :: is, s =>
    let (result, s₁) := (act i).perform s
    let (history, s₂) := runAll act is s₁
    ((i, result) :: history, s₂)

/-- A run begins with its first action and goes on from the state that this leaves. -/
theorem runAll_cons {ι : Type} (act : ι → Act σ α) (i : ι) (is : List ι) (s : σ) :
    runAll act (i :: is) s = ((i, ((act i).perform s).1) :: (runAll act is ((act i).perform s).2).1,
      (runAll act is ((act i).perform s).2).2) := rfl

/-- The last of some actions starts where the others ended, and its result is noted last. -/
theorem runAll_snoc {ι : Type} (act : ι → Act σ α) (is : List ι) (i : ι) (s : σ) :
    runAll act (is ++ [i]) s = ((runAll act is s).1 ++ [(i, ((act i).perform (runAll act is s).2).1)],
      ((act i).perform (runAll act is s).2).2) := by
  induction is generalizing s with
  | nil => rfl
  | cons j is ih => rw [List.cons_append, runAll_cons, runAll_cons, ih, List.cons_append]

end Act

end WordSlot
