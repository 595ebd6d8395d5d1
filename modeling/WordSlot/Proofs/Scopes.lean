import WordSlot.Proofs.LogLines

/-!
# Scopes of the log context

Leaving a trace scope brings back the context that was there when it was entered, whatever happened inside: fields bound and
unbound, the trace id among them, the whole context cleared, scopes entered and left, an exception on its way out. The steps of a
run are looked at one after another; those of a scope that is entered and left lie between the two like a bracketed list. Such a
list keeps the contexts to come back to, and that carries the induction.
-/

namespace WordSlot

open Outcome

namespace Fields

/-- Fields are shown under their names. -/
theorem LoggedAs.keys_eq {given shown : Fields} (h : given.LoggedAs shown) : shown.keys = given.keys := by
  induction h with
  | nil => rfl
  | cons hf _ ih => exact congrArg₂ List.cons hf.1.symm ih

/-- Setting fields leaves the others. -/
theorem value?_putAll_of_notMem {key : Text} {more : Fields} (h : key ∉ more.keys) (fields : Fields) :
    (fields.putAll more).value? key = fields.value? key := by
  induction more generalizing fields with
  | nil => rfl
  | cons f more ih =>
    have hlater : (fields.putAll (f :: more)).value? key = (fields.put f.1 f.2).value? key :=
      ih (List.not_mem_of_not_mem_cons h) _
    rw [hlater, value?_put, if_neg (List.ne_of_not_mem_cons h)]

/-- Dropping fields leaves the others. -/
theorem value?_dropAll_of_notMem {key : Text} {keys : List Text} (h : key ∉ keys) (fields : Fields) :
    (keys.foldl (fun acc k => acc.drop k) fields).value? key = fields.value? key := by
  induction keys generalizing fields with
  | nil => rfl
  | cons k keys ih =>
    have hne := List.ne_of_not_mem_cons h
    rw [List.foldl_cons, ih (List.not_mem_of_not_mem_cons h), drop, value?_filter (· != k),
      if_pos (by simpa using hne)]

end Fields

namespace LogContext

/-- What can be done to the context inside a scope; an exception of any other origin does nothing to it. -/
inductive Change where
  | bind (fields : Fields)
  | unbind (keys : List Text)
  | clear
  | raise (fault : Fault)

/-- A step of a run. A scope is entered with the trace id given, or with a fresh one if none is given or the one given is empty. -/
inductive Step where
  | change (change : Change)
  | enter (given : Option Text) (fresh : Text)
  | leave

/-- The trace id of a scope. -/
def scopeId (given : Option Text) (fresh : Text) : Value := traceId fresh ((given.map Value.text).getD .none)

/-- The id of a scope is a text. -/
theorem scopeId_eq_text (given : Option Text) (fresh : Text) : ∃ t, scopeId given fresh = .text t := by
  cases given with
  | none => exact ⟨fresh, rfl⟩
  | some t =>
    change ∃ u, (if (Value.text t).holds then Value.text t else .text fresh) = .text u
    split
    · exact ⟨t, rfl⟩
    · exact ⟨fresh, rfl⟩

namespace Change

/-- Makes the change; what cannot be bound is a fault, and then nothing is bound. -/
def act : Change → Act LogContext Unit
  | .bind fields => do set (← Act.ofExcept ((← get).bind fields))
  | .unbind keys => modify (·.unbind keys)
  | .clear => modify (·.clear)
  | .raise fault => throw fault

/-- What becomes of the change, in whatever context. -/
def outcome : Change → Except Fault Unit
  | .bind fields => (loggableAll fields).map fun _ => ()
  | .raise fault => .error fault
  | _ => .ok ()

/-- The change binds, unbinds or clears a key. Fields that cannot be bound bind none. -/
def Touches (key : Text) : Change → Prop
  | .bind fields => key ∈ fields.keys ∧ ∃ shown, loggableAll fields = .ok shown
  | .unbind keys => key ∈ keys
  | .clear => True
  | .raise _ => False

/-- Binding puts what the log makes of fields, or fails and changes nothing. -/
theorem bind_perform (fields : Fields) (c : LogContext) :
    (Change.bind fields).act.perform c =
      match loggableAll fields with
      | .ok shown => (.ok (), { c with fields := c.fields.putAll shown })
      | .error f => (.error f, c) := by
  simp only [act, LogContext.bind, Act.perform_bind, Act.perform_get, Act.perform_ofExcept]
  cases loggableAll fields <;> rfl

/-- How a change ends does not depend on the context. -/
theorem perform_fst (change : Change) (c : LogContext) : (change.act.perform c).1 = change.outcome := by
  cases change with
  | bind fields =>
    rw [bind_perform, outcome]
    cases loggableAll fields <;> rfl
  | unbind keys => rfl
  | clear => rfl
  | raise fault => rfl

/-- A change is to the fields alone. -/
theorem perform_outer (change : Change) (c : LogContext) : (change.act.perform c).2.outer = c.outer := by
  cases change with
  | bind fields =>
    rw [bind_perform]
    cases loggableAll fields <;> rfl
  | unbind keys => rfl
  | clear => rfl
  | raise fault => rfl

end Change

/-- A change that does not touch a key leaves its value. -/
theorem Change.perform_value? {change : Change} {key : Text} (h : ¬change.Touches key) (c : LogContext) :
    (change.act.perform c).2.fields.value? key = c.fields.value? key := by
  cases change with
  | bind fields =>
    rw [bind_perform]
    cases hshown : loggableAll fields with
    | error f => rfl
    | ok shown =>
      refine Fields.value?_putAll_of_notMem (fun hmem => h ⟨?_, shown, hshown⟩) c.fields
      rwa [(Fields.loggedAs_of_loggableAll hshown).keys_eq] at hmem
  | unbind keys => exact Fields.value?_dropAll_of_notMem h c.fields
  | clear => exact absurd trivial h
  | raise fault => rfl

/-! ## Runs -/

namespace Step

/-- Takes the step. -/
def act : Step → Act LogContext Unit
  | .change c => c.act
  | .enter given fresh => do set (← Act.ofExcept ((← get).enter (scopeId given fresh)))
  | .leave => modify (·.leave)

/-- Entering a scope binds its id and keeps the fields that were there to come back to. -/
theorem enter_perform (given : Option Text) (fresh : Text) (c : LogContext) :
    (Step.enter given fresh).act.perform c =
      (.ok (), ⟨c.fields.put "trace_id" (scopeId given fresh), c.fields :: c.outer⟩) := by
  obtain ⟨t, ht⟩ := scopeId_eq_text given fresh
  simp only [act, ht, Act.perform_bind, Act.perform_get, Act.perform_ofExcept]
  rfl

end Step

/-- The context after steps taken one after another, whatever becomes of each. -/
def replay (c : LogContext) (steps : List Step) : LogContext := steps.foldl (fun c step => (step.act.perform c).2) c

/-- Steps in two goes are replayed one after another. -/
theorem replay_append (c : LogContext) (steps more : List Step) : c.replay (steps ++ more) = (c.replay steps).replay more :=
  List.foldl_append

/-- A replay begins with its first step. -/
theorem replay_cons (c : LogContext) (step : Step) (steps : List Step) :
    c.replay (step :: steps) = ((step.act.perform c).2).replay steps := rfl

/-- Steps in which every scope that is entered is left and none else is, beside the changes among them that lie outside these
scopes. -/
inductive Nested : List Step → List Change → Prop
  | nil : Nested [] []
  | change (change : Change) {steps : List Step} {outside : List Change} (rest : Nested steps outside) :
    Nested (.change change :: steps) (change :: outside)
  | scope (given : Option Text) (fresh : Text) {body steps : List Step} {inside outside : List Change}
    (within : Nested body inside) (rest : Nested steps outside) :
    Nested (.enter given fresh :: (body ++ .leave :: steps)) outside

/-- Nested steps side by side are nested. -/
theorem Nested.append {steps more : List Step} {outside after : List Change} (h : Nested steps outside)
    (hmore : Nested more after) : Nested (steps ++ more) (outside ++ after) := by
  induction h with
  | nil => exact hmore
  | change ch _ ih => exact .change ch ih
  | scope given fresh within _ _ ih =>
    rw [List.cons_append, List.append_assoc, List.cons_append]
    exact .scope given fresh within ih

/-- A scope that is entered and left, with nested steps between, leaves the context as it was. -/
theorem replay_scope {body : List Step} (given : Option Text) (fresh : Text) (steps : List Step)
    (hbody : ∀ c : LogContext, (c.replay body).outer = c.outer) (c : LogContext) :
    c.replay (.enter given fresh :: (body ++ .leave :: steps)) = c.replay steps := by
  have hleave : ∀ entered : LogContext, entered.outer = c.fields :: c.outer → entered.leave = c := by
    intro entered houter
    rw [leave, houter]
  rw [replay_cons, replay_append, replay_cons, Step.enter_perform]
  congr 1
  exact hleave _ (hbody _)

/-- Nested steps keep the contexts to come back to. -/
theorem Nested.outer {steps : List Step} {outside : List Change} (h : Nested steps outside) (c : LogContext) :
    (c.replay steps).outer = c.outer := by
  induction h generalizing c with
  | nil => rfl
  | change ch _ ih => rw [replay_cons, ih, Step.act, ch.perform_outer]
  | scope given fresh _ _ hbody ih => rw [replay_scope given fresh _ hbody, ih]

/-- Nested steps keep the value of a key that no change outside their scopes touches. -/
theorem Nested.value? {steps : List Step} {outside : List Change} (h : Nested steps outside) {key : Text}
    (hkey : ∀ change ∈ outside, ¬change.Touches key) (c : LogContext) :
    (c.replay steps).fields.value? key = c.fields.value? key := by
  induction h generalizing c with
  | nil => rfl
  | change ch _ ih =>
    obtain ⟨hfirst, hrest⟩ := List.forall_mem_cons.mp hkey
    rw [replay_cons, ih hrest, Step.act, Change.perform_value? hfirst]
  | scope given fresh within _ _ ih => rw [replay_scope given fresh _ within.outer, ih hkey]

/-! ## Programs -/

/-- A program that changes the context. An exception ends the program up to where it is caught; scopes are left on the way. -/
inductive Program where
  | skip
  | change (change : Change)
  | andThen (first second : Program)
  | attempt (body : Program)
  | scope (given : Option Text) (fresh : Text) (body : Program)

namespace Program

/-- Runs a program. -/
def act : Program → Act LogContext Unit
  | .skip => pure ()
  | .change c => c.act
  | .andThen first second => do
    first.act
    second.act
  | .attempt body => tryCatch body.act fun _ => pure ()
  | .scope given fresh body => do
    (Step.enter given fresh).act
    tryCatch body.act fun fault => do
      Step.leave.act
      throw fault
    Step.leave.act

/-- What becomes of a program, in whatever context. -/
def outcome : Program → Except Fault Unit
  | .skip => .ok ()
  | .change c => c.outcome
  | .andThen first second => first.outcome >>= fun _ => second.outcome
  | .attempt _ => .ok ()
  | .scope _ _ body => body.outcome

/-- The steps that running a program takes. -/
def steps : Program → List Step
  | .skip => []
  | .change c => [.change c]
  | .andThen first second => first.steps ++ (match first.outcome with | .ok _ => second.steps | .error _ => [])
  | .attempt body => body.steps
  | .scope given fresh body => .enter given fresh :: (body.steps ++ [.leave])

/-- Running a program takes its steps. -/
theorem act_perform (p : Program) (c : LogContext) : p.act.perform c = (p.outcome, c.replay p.steps) := by
  induction p generalizing c with
  | skip => rfl
  | change ch => exact Prod.ext (ch.perform_fst c) rfl
  | andThen first second hfirst hsecond =>
    rw [act, outcome, steps, Act.perform_bind, hfirst]
    cases first.outcome with
    | ok done => simp only [ok_bind, hsecond, replay_append]
    | error fault => simp only [error_bind, List.append_nil]
  | attempt body hbody =>
    rw [act, outcome, steps, Act.perform_tryCatch, hbody]
    cases body.outcome <;> rfl
  | scope given fresh body hbody =>
    rw [act, outcome, steps, replay_cons, replay_append, Act.perform_bind, Step.enter_perform]
    simp only [Act.perform_bind, Act.perform_tryCatch, hbody]
    cases body.outcome <;> rfl

/-- However a program ends, every scope that it entered has been left. -/
theorem nested_steps (p : Program) : ∃ outside, Nested p.steps outside := by
  induction p with
  | skip => exact ⟨_, .nil⟩
  | change ch => exact ⟨_, .change ch .nil⟩
  | andThen first second hfirst hsecond =>
    obtain ⟨outside, hfirst⟩ := hfirst
    obtain ⟨after, hsecond⟩ := hsecond
    rw [steps]
    cases first.outcome with
    | ok done => exact ⟨_, hfirst.append hsecond⟩
    | error fault => exact ⟨_, hfirst.append .nil⟩
  | attempt body hbody => exact hbody
  | scope given fresh body hbody =>
    obtain ⟨inside, hbody⟩ := hbody
    exact ⟨_, .scope given fresh hbody .nil⟩

end Program

/-- Trace scopes bring the context back. At whatever point of a run a scope is entered and after whatever steps it is left, with
all scopes that were entered inside left before, the fields are the ones from before the scope, in their order. As long as the scope
is open and the innermost one, its id is the trace id, unless a change outside the scopes inside it has touched that key. The runs
of all programs are of this kind, whatever they raise and wherever it is caught: the scope of a program ends as its body does, and
the context is what it was. -/
theorem scopes_bring_context_back :
    (∀ (c : LogContext) (before body : List Step) (outside : List Change) (given : Option Text) (fresh : Text),
      Nested body outside →
      (c.replay (before ++ .enter given fresh :: (body ++ [.leave]))).fields = (c.replay before).fields ∧
      ((∀ change ∈ outside, ¬change.Touches "trace_id") →
        (c.replay (before ++ .enter given fresh :: body)).fields.value? "trace_id" = some (scopeId given fresh))) ∧
    (∀ (c : LogContext) (p : Program), (p.act.perform c).2 = c.replay p.steps ∧ ∃ outside, Nested p.steps outside) ∧
    (∀ (c : LogContext) (given : Option Text) (fresh : Text) (body : Program),
      (Program.scope given fresh body).act.perform c = (body.outcome, c)) := by
  refine ⟨fun c before body outside given fresh hbody => ⟨?_, fun hkey => ?_⟩, fun c p => ⟨?_, p.nested_steps⟩,
    fun c given fresh body => ?_⟩
  · rw [replay_append, replay_scope given fresh [] hbody.outer]
    rfl
  · rw [replay_append, replay_cons, Step.enter_perform, hbody.value? hkey]
    exact (Fields.value?_put _ _ _ _).trans (if_pos rfl)
  · rw [p.act_perform]
  · obtain ⟨outside, hbody⟩ := body.nested_steps
    rw [Program.act_perform, Program.outcome, Program.steps, replay_scope given fresh [] hbody.outer]
    rfl

/-- The law at a scope inside a scope that is cleared and left again, with a field bound outside, and at a program that rebinds the
trace id, clears the context and then raises. -/
theorem scopes_bring_context_back_when_cleared :
    let c : LogContext := ⟨[("component", .text "store"), ("trace_id", .text "old")], []⟩
    let body : List Step := [.enter none "fresh", .change .clear, .leave, .change (.bind [("state", .int 1)])]
    Nested body [.bind [("state", .int 1)]] ∧
    (c.replay (.enter (some "new") "unused" :: (body ++ [.leave]))).fields = c.fields ∧
    (c.replay (.enter (some "new") "unused" :: body)).fields.value? "trace_id" = some (.text "new") ∧
    (Program.scope (some "new") "unused" (.andThen (.change (.bind [("trace_id", .int 7)]))
      (.andThen (.change .clear) (.change (.raise (.misuse .wrongValue)))))).act.perform c =
        (.error (.misuse .wrongValue), c) := by
  intro c body
  obtain ⟨hscope, -, hprogram⟩ := scopes_bring_context_back
  have hnested : Nested body [.bind [("state", .int 1)]] := .scope none "fresh" (.change .clear .nil) (.change _ .nil)
  obtain ⟨hback, hinside⟩ := hscope c [] body _ (some "new") "unused" hnested
  refine ⟨hnested, hback, hinside ?_, hprogram c _ _ _⟩
  simp only [List.forall_mem_singleton]
  rintro ⟨hmem, -⟩
  exact absurd (List.mem_singleton.mp hmem) (by decide)

end LogContext

end WordSlot
