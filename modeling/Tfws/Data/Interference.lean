/-! Programs that call a system while others change it: between any two calls
the world may be disturbed. Rules for what holds of every run, and for runs that
exist. -/
namespace Interference

universe u v w

/-- A program is done, or calls the system and goes on with the answer. -/
inductive Program (Call : Type u) (Answer : Call → Type v) (α : Type v) : Type (max u v)
  | done (result : α)
  | call (call : Call) (next : Answer call → Program Call Answer α)

namespace Program

variable {Call : Type u} {Answer : Call → Type v} {α β : Type v}

def bind (program : Program Call Answer α) (next : α → Program Call Answer β) :
    Program Call Answer β :=
  match program with
  | done result => next result
  | call request answered => call request fun answer => (answered answer).bind next

instance : Monad (Program Call Answer) where
  pure := done
  bind := bind

end Program

/-- A system with others around: how they may change the world, and what a call
may answer and leave behind. -/
structure Machine (World : Type w) (Call : Type u) (Answer : Call → Type v) where
  disturbs : World → World → Prop
  step : World → (call : Call) → Answer call → World → Prop

variable {World : Type w} {Call : Type u} {Answer : Call → Type v} {α β : Type v}
  {machine : Machine World Call Answer} {world final : World} {result : α}

/-- A run of a program, with a disturbance before each of its calls. -/
inductive Runs (machine : Machine World Call Answer) :
    World → Program Call Answer α → α → World → Prop
  | done (world : World) (result : α) : Runs machine world (.done result) result world
  | call {world disturbed after final : World} {request : Call} {answer : Answer request}
      {next : Answer request → Program Call Answer α} {result : α}
      (disturbance : machine.disturbs world disturbed)
      (answered : machine.step disturbed request answer after)
      (rest : Runs machine after (next answer) result final) :
      Runs machine world (.call request next) result final

/-- Every run ends as wished, whatever others do between the calls. Nothing is said
here about whether there is a run. -/
def Always (machine : Machine World Call Answer) (world : World) (program : Program Call Answer α)
    (post : α → World → Prop) : Prop :=
  ∀ result final, Runs machine world program result final → post result final

variable {post weaker : α → World → Prop} {program : Program Call Answer α}

theorem Always.mono (h : Always machine world program post)
    (hPost : ∀ result final, post result final → weaker result final) :
    Always machine world program weaker :=
  fun result final hRun => hPost result final (h result final hRun)

/-- A program that is done has ended in the world it is in: others get no turn after
the last call. -/
theorem always_done (h : post result world) : Always machine world (.done result) post := by
  intro value final hRun
  cases hRun
  exact h

/-- The rule for a call: others may have disturbed the world just before it, and any
answer that the system may give has to do. -/
theorem always_call {request : Call} {next : Answer request → Program Call Answer α}
    (h : ∀ disturbed answer after, machine.disturbs world disturbed →
      machine.step disturbed request answer after → Always machine after (next answer) post) :
    Always machine world (.call request next) post := by
  intro value final hRun
  cases hRun with
  | call disturbance answered rest => exact h _ _ _ disturbance answered value final rest

/-- The rule for a sequence, with the world of the first program's end as the one the
second starts in. -/
theorem always_bind {next : α → Program Call Answer β} {post : β → World → Prop}
    (h : Always machine world program fun value middle => Always machine middle (next value) post) :
    Always machine world (program.bind next) post := by
  induction program generalizing world with
  | done result => exact h result world (Runs.done world result)
  | call request answered ih =>
      apply always_call
      intro disturbed answer after hDisturbs hStep
      apply ih
      intro value middle hRun
      exact h value middle (Runs.call hDisturbs hStep hRun)

/-- Where others may leave the world alone and every call is answered, every program
runs to its end. With a statement about every run, it shows that the statement is not
empty. -/
theorem exists_runs (hRest : ∀ world, machine.disturbs world world)
    (hAnswers : ∀ world request, ∃ answer after, machine.step world request answer after)
    (world : World) (program : Program Call Answer α) :
    ∃ result final, Runs machine world program result final := by
  induction program generalizing world with
  | done result => exact ⟨result, world, Runs.done world result⟩
  | call request next ih =>
      obtain ⟨answer, after, hStep⟩ := hAnswers world request
      obtain ⟨result, final, hRun⟩ := ih answer after
      exact ⟨result, final, Runs.call (hRest world) hStep hRun⟩

/-- A run among few others is one among more, since nobody is made to act. -/
theorem Runs.mono_disturbs {more : World → World → Prop} {program : Program Call Answer α}
    (h : Runs machine world program result final)
    (hMore : ∀ before after, machine.disturbs before after → more before after) :
    Runs ⟨more, machine.step⟩ world program result final := by
  induction h with
  | done world result => exact Runs.done world result
  | call disturbance answered rest ih => exact Runs.call (hMore _ _ disturbance) answered ih

/-- A program that ends with a value or an error. An error ends whatever it is part
of. -/
abbrev Operation (Call : Type u) (Answer : Call → Type v) (ε α : Type v) : Type (max u v) :=
  ExceptT ε (Program Call Answer) α

variable {ε : Type v}

/-- Call the system. The answer comes as a value: whether it stands for a failure is
for the caller to see. -/
def ask (request : Call) : Operation Call Answer ε (Answer request) :=
  ExceptT.lift (.call request .done)

/-- Stop with the error unless the condition holds; the world is not asked. -/
def demand (condition : Bool) (error : ε) : Operation Call Answer ε PUnit :=
  if condition then pure ⟨⟩ else throw error

/-- Stop with the error when nothing was answered, and go on with the answer
otherwise. -/
def demandSome (answer : Option α) (error : ε) : Operation Call Answer ε α :=
  match answer with
  | some value => pure value
  | none => throw error

/-- Run an operation, then call the system whatever its outcome is. -/
def andFinally (operation : Operation Call Answer ε α) (request : Call) :
    Operation Call Answer ε α :=
  ExceptT.mk (operation.run.bind fun outcome => .call request fun _ => .done outcome)

/-- A wish for each outcome: for a value it may speak of the world at the end, for an
error only of the error. -/
def outcome (good : α → World → Prop) (bad : ε → Prop) : Except ε α → World → Prop
  | .ok value, world => good value world
  | .error error, _ => bad error

/-- Every run of the operation ends with a wished value or a wished error. -/
def Ends (machine : Machine World Call Answer) (world : World)
    (operation : Operation Call Answer ε α) (good : α → World → Prop) (bad : ε → Prop) : Prop :=
  Always machine world operation.run (outcome good bad)

variable {good : α → World → Prop} {bad : ε → Prop}

theorem ends_pure {value : α} (h : good value world) :
    Ends machine world (pure value : Operation Call Answer ε α) good bad :=
  always_done h

theorem ends_throw {error : ε} (h : bad error) :
    Ends machine world (throw error : Operation Call Answer ε α) good bad :=
  always_done h

/-- The rule for a sequence of operations: the error wished for is one and the same
throughout, since an error of the first ends both. -/
theorem ends_bind {operation : Operation Call Answer ε α} {next : α → Operation Call Answer ε β}
    {good : β → World → Prop}
    (h : Ends machine world operation (fun value middle => Ends machine middle (next value) good bad) bad) :
    Ends machine world (operation >>= next) good bad := by
  apply always_bind
  refine Always.mono h ?_
  intro value middle hValue
  cases value with
  | ok value => exact hValue
  | error error => exact always_done hValue

/-- The rule for a call, with the disturbance before it in the hypothesis. -/
theorem ends_ask {request : Call} {good : Answer request → World → Prop}
    (h : ∀ disturbed answer after, machine.disturbs world disturbed →
      machine.step disturbed request answer after → good answer after) :
    Ends machine world (ask request : Operation Call Answer ε _) good bad := by
  apply always_call
  intro disturbed answer after hDisturbs hStep
  exact always_done (h disturbed answer after hDisturbs hStep)

/-- A demand has two ends, of which the condition selects one; the world is as it was
in either. -/
theorem ends_demand {condition : Bool} {error : ε} {good : PUnit → World → Prop}
    (hGood : condition = true → good ⟨⟩ world) (hBad : condition = false → bad error) :
    Ends machine world (demand condition error : Operation Call Answer ε _) good bad := by
  rw [demand]
  cases condition with
  | true => exact ends_pure (hGood rfl)
  | false => exact ends_throw (hBad rfl)

theorem ends_demand_of {condition : Bool} {error : ε} {good : PUnit → World → Prop}
    (h : condition = true) (hGood : good ⟨⟩ world) :
    Ends machine world (demand condition error : Operation Call Answer ε _) good bad := by
  rw [demand, if_pos h]
  exact ends_pure hGood

theorem ends_demandSome {answer : Option α} {error : ε}
    (hGood : ∀ value, answer = some value → good value world) (hBad : answer = none → bad error) :
    Ends machine world (demandSome answer error : Operation Call Answer ε _) good bad := by
  cases answer with
  | some value => exact ends_pure (hGood value rfl)
  | none => exact ends_throw (hBad rfl)

/-- Cleaning up changes the world once more, so that a value has to be good in
whatever world comes of it. -/
theorem ends_andFinally {operation : Operation Call Answer ε α} {request : Call}
    (h : Ends machine world operation (fun value _ => ∀ final, good value final) bad) :
    Ends machine world (andFinally operation request) good bad := by
  apply always_bind
  refine Always.mono h ?_
  intro value middle hValue
  apply always_call
  intro disturbed answer after _ _
  cases value with
  | ok value => exact always_done (hValue after)
  | error error => exact always_done hValue

/-- Where no error is wished for, there is a run and every run ends with a value. -/
theorem Ends.exists_ok {operation : Operation Call Answer ε α}
    (h : Ends machine world operation good fun _ => False)
    (hRest : ∀ world, machine.disturbs world world)
    (hAnswers : ∀ world request, ∃ answer after, machine.step world request answer after) :
    ∃ value final, Runs machine world operation.run (.ok value) final ∧ good value final := by
  obtain ⟨result, final, hRun⟩ := exists_runs hRest hAnswers world operation.run
  have hResult := h result final hRun
  cases result with
  | ok value => exact ⟨value, final, hRun, hResult⟩
  | error error => exact hResult.elim

theorem Ends.mono {operation : Operation Call Answer ε α} {good' : α → World → Prop}
    (h : Ends machine world operation good bad)
    (hGood : ∀ value final, good value final → good' value final) :
    Ends machine world operation good' bad := by
  refine Always.mono h ?_
  intro value final hValue
  cases value with
  | ok value => exact hGood value final hValue
  | error error => exact hValue

end Interference
