import TaskFlow.Submission

/-!
# A submission call by call

`Submission.progress` reads off what is left to run how far a submission is with its
task: named, cached, marked `PENDING`.  `Submission.Advance` lists the calls that take
it from one to the next, and `Submitting.advance` shows that a submission makes no
others, whatever the answers.
-/

namespace TaskFlow

open Effect

variable {Raw β : Type}

namespace Gateway

/-- `enqueue` after the last call. -/
def afterPublish : Option Error → Service Raw (Option Failure)
  | some _ => .pure (some (.internal "failed to enqueue task"))
  | none => .pure none

/-- `enqueue` after the status was written. -/
def afterMark (json : Json Raw) (task : Task) : Option Error → Service Raw (Option Failure)
  | some _ => .pure (some (.internal "failed to create task"))
  | none => .call (.create task) fun _ =>
      .call (.publish topicPending task.id (json.marshal task) .gateway) afterPublish

/-- `enqueue` after the copy was cached. -/
def afterCache (json : Json Raw) (task : Task) : Option Error → Service Raw (Option Failure)
  | some _ => .pure (some (.internal "failed to create task"))
  | none => .call (.setStatus task.id .pending) (afterMark json task)

theorem enqueue_eq (json : Json Raw) (task : Task) :
    enqueue json task = .call (.setTaskMeta task) (afterCache json task) := by
  refine congrArg (Prog.call _) (funext fun answer => ?_)
  cases answer with
  | some err => rfl
  | none =>
      refine congrArg (Prog.call _) (funext fun answer => ?_)
      cases answer with
      | some err => rfl
      | none =>
          refine congrArg (Prog.call _) (funext fun _ => congrArg (Prog.call _) ?_)
          funext answer
          cases answer <;> rfl

/-- The four calls of a submission. -/
theorem enqueue_calls {P : Op Raw → Prop} {json : Json Raw} {task : Task}
    (cache : P (.setTaskMeta task)) (mark : P (.setStatus task.id .pending))
    (insert : P (.create task))
    (send : P (.publish topicPending task.id (json.marshal task) .gateway)) :
    Prog.All P (enqueue json task) := by
  rw [enqueue_eq]
  refine ⟨cache, fun answer => ?_⟩
  cases answer with
  | some err => trivial
  | none =>
      refine ⟨mark, fun answer => ?_⟩
      cases answer with
      | some err => trivial
      | none =>
          refine ⟨insert, fun _ => ⟨send, fun answer => ?_⟩⟩
          cases answer <;> trivial

end Gateway

namespace Submission

/-- How far a submission is with its task. -/
inductive Progress : Type
  | none
  | named (id : String)
  | cached (id : String)
  | marked (id : String)
deriving DecidableEq

/-- The task the submission is about, while it has calls to make for it. -/
def Progress.id : Progress → Option String
  | .none => Option.none
  | .named id => some id
  | .cached id => some id
  | .marked id => some id

/-- The progress, by the next call on the stores. -/
def progress : Service Raw β → Progress
  | .call (.setTaskMeta task) _ => .named task.id
  | .call (.setStatus id _) _ => .cached id
  | .call (.create task) _ => .marked task.id
  | .call (.publish _ key _ _) _ => .marked key
  | .call .now next => progress (next zeroTime)
  | _ => .none

/-- The task of a submission: of a type, not begun and not completed. -/
structure New (task : Task) : Prop where
  pending : task.status = .pending
  typed : task.type ≠ ""
  unfinished : task.completedAt = none

/-- The calls of a submission, each with its answer and the progress it makes. -/
inductive Advance (json : Json Raw) : Progress → (op : Op Raw) → op.Ans → Progress → Prop
  | draw (id : String) : Advance json .none .newUUID id (.named id)
  | clock (id : String) (now : Time) : Advance json (.named id) .now now (.named id)
  | cache {task : Task} : New task →
    Advance json (.named task.id) (.setTaskMeta task) Option.none (.cached task.id)
  | cacheFails {task : Task} (err : Error) : New task →
    Advance json (.named task.id) (.setTaskMeta task) (some err) .none
  | mark (id : String) :
    Advance json (.cached id) (.setStatus id .pending) Option.none (.marked id)
  | markFails (id : String) (err : Error) :
    Advance json (.cached id) (.setStatus id .pending) (some err) .none
  | create {task : Task} (answer : Option Error) : New task →
    Advance json (.marked task.id) (.create task) answer (.marked task.id)
  | publish {task : Task} (answer : Option Error) : New task →
    Advance json (.marked task.id)
      (.publish topicPending task.id (json.marshal task) .gateway) answer .none
  | count (metric : Metric) (delta : Int) : Advance json .none (.count metric delta) () .none

theorem Advance.drawn {json : Json Raw} {before after : Progress} {id : String}
    (advance : Advance json before .newUUID id after) : after = .named id := by
  cases advance
  rfl

/-- Any other call keeps to the task of the submission. -/
theorem Advance.keeps {json : Json Raw} {before after : Progress} {op : Op Raw} {answer : op.Ans}
    {id : String} (advance : Advance json before op answer after) (other : op ≠ .newUUID)
    (held : after.id = some id) : before.id = some id := by
  cases advance with
  | draw id => exact absurd rfl other
  | cacheFails err new => cases held
  | markFails id err => cases held
  | publish answer new => cases held
  | count metric delta => cases held
  | _ => exact held

theorem Advance.caches {json : Json Raw} {before after : Progress} {task : Task}
    {answer : Option Error} (advance : Advance json before (.setTaskMeta task) answer after) :
    New task := by
  cases advance with
  | cache new => exact new
  | cacheFails err new => exact new

theorem Advance.creates {json : Json Raw} {before after : Progress} {task : Task}
    {answer : Option Error} (advance : Advance json before (.create task) answer after) :
    New task := by
  cases advance with
  | create answer new => exact new

theorem Advance.marks {json : Json Raw} {before after : Progress} {id : String} {status : Status}
    {answer : Option Error} (advance : Advance json before (.setStatus id status) answer after) :
    before = .cached id ∧ status = .pending := by
  cases advance with
  | mark id => exact ⟨rfl, rfl⟩
  | markFails id err => exact ⟨rfl, rfl⟩

/-- A submission writes about its task only. -/
theorem Advance.writes {json : Json Raw} {before after : Progress} {op : Op Raw} {answer : op.Ans}
    {id : String} (advance : Advance json before op answer after) (writes : op.Writes id) :
    before.id = some id := by
  cases advance with
  | cache new => exact congrArg some writes
  | cacheFails err new => exact congrArg some writes
  | mark other => exact congrArg some writes
  | markFails other err => exact congrArg some writes
  | create answer new => exact congrArg some writes
  | _ => exact writes.elim

/-- A submission publishes its task and is over then. -/
theorem Advance.publishes {json : Json Raw} {before after : Progress} {topic key : String}
    {value : Raw} {origin : Origin} {answer : Option Error}
    (advance : Advance json before (.publish topic key value origin) answer after) :
    ∃ task, New task ∧ topic = topicPending ∧ value = json.marshal task ∧
      before = .marked task.id ∧ after = .none := by
  cases advance with
  | publish answer new => exact ⟨_, new, rfl, rfl, rfl, rfl⟩

/-- A program that at most counts. -/
def Ends (p : Service Raw β) : Prop := Prog.All (fun op => ∃ m n, op = .count m n) p

/-- What is left to run of a submission. -/
inductive Submitting (json : Json Raw) : Service Raw β → Prop
  | drawing {req : SubmitTaskRequest} {answer : String → Time → Option Failure → Service Raw β} :
    req.type ≠ "" → Gateway.Counts answer → Submitting json (Gateway.submit json req answer)
  | timing {req : SubmitTaskRequest} {answer : String → Time → Option Failure → Service Raw β}
      (id : String) : req.type ≠ "" → Gateway.Counts answer →
    Submitting json (.call .now fun now =>
      Gateway.enqueue json (Gateway.newTask req id now) >>= answer id now)
  | caching {task : Task} {answer : Option Failure → Service Raw β} :
    New task → (∀ failed, Ends (answer failed)) →
    Submitting json (Gateway.enqueue json task >>= answer)
  | marking {task : Task} {answer : Option Failure → Service Raw β} :
    New task → (∀ failed, Ends (answer failed)) →
    Submitting json (Gateway.afterCache json task none >>= answer)
  | creating {task : Task} {answer : Option Failure → Service Raw β} :
    New task → (∀ failed, Ends (answer failed)) →
    Submitting json (Gateway.afterMark json task none >>= answer)
  | publishing {task : Task} {answer : Option Failure → Service Raw β} :
    New task → (∀ failed, Ends (answer failed)) →
    Submitting json (.call (.publish topicPending task.id (json.marshal task) .gateway)
      fun result => Gateway.afterPublish result >>= answer)
  | ended {p : Service Raw β} : Ends p → Submitting json p

theorem progress_of_ends {p : Service Raw β} (ends : Ends p) : progress p = .none := by
  cases p with
  | pure value => rfl
  | call op next =>
      obtain ⟨⟨m, n, rfl⟩, _⟩ := ends
      rfl

variable {json : Json Raw}

/-- A call after which the submission is over. -/
theorem Ends.advance {p : Service Raw β} {before : Progress} {op : Op Raw} {answer : op.Ans}
    (ends : Ends p) (last : Advance json before op answer .none) :
    Submitting json p ∧ Advance json before op answer (progress p) := by
  rw [progress_of_ends ends]
  exact ⟨.ended ends, last⟩

/-- A submission makes no other calls, and its progress is as they say. -/
theorem Submitting.advance {op : Op Raw} {next : op.Ans → Service Raw β}
    (submitting : Submitting json (.call op next)) (answer : op.Ans) :
    Submitting json (next answer) ∧
      Advance json (progress (.call op next)) op answer (progress (next answer)) := by
  generalize eq : Prog.call op next = p at submitting
  cases submitting with
  | @drawing req answer' typed counts =>
      have shape : Gateway.submit json req answer' = .call .newUUID fun id => .call .now fun now =>
        Gateway.enqueue json (Gateway.newTask req id now) >>= answer' id now := rfl
      rw [shape] at eq
      cases eq
      exact ⟨.timing answer typed counts, .draw answer⟩
  | @timing req answer' id typed counts =>
      cases eq
      refine ⟨.caching ⟨rfl, typed, rfl⟩ (counts id answer), ?_⟩
      simp only [Gateway.enqueue_eq]
      exact .clock id answer
  | @caching task answer' new ends =>
      rw [Gateway.enqueue_eq] at eq
      cases eq
      cases answer with
      | none => exact ⟨.marking new ends, .cache new⟩
      | some err => exact Ends.advance (ends _) (.cacheFails err new)
  | @marking task answer' new ends =>
      cases eq
      cases answer with
      | none => exact ⟨.creating new ends, .mark task.id⟩
      | some err => exact Ends.advance (ends _) (.markFails task.id err)
  | @creating task answer' new ends =>
      cases eq
      exact ⟨.publishing new ends, .create answer new⟩
  | @publishing task answer' new ends =>
      cases eq
      cases answer with
      | none => exact Ends.advance (ends _) (.publish none new)
      | some err => exact Ends.advance (ends _) (.publish (some err) new)
  | ended ends =>
      subst eq
      obtain ⟨⟨m, n, rfl⟩, later⟩ := ends
      exact Ends.advance (later answer) (.count m n)

/-- The whole call, with its result left out, is a submission that has not begun. -/
theorem submitting_submit (json : Json Raw) (r : Submission) (value : β) :
    Submitting json (r.submit json >>= fun _ => pure value) ∧
      progress (r.submit json >>= fun _ => (pure value : Service Raw β)) = .none := by
  cases valid : r.fields with
  | none =>
      obtain ⟨failed, eq⟩ := submit_invalid json valid
      rw [eq]
      exact ⟨.ended trivial, rfl⟩
  | some req =>
      obtain ⟨answer, counts, _, eq⟩ := submit_eq json valid
      have shape : r.submit json >>= (fun _ => (pure value : Service Raw β)) =
          Gateway.submit json req fun id now failed => answer id now failed >>= fun _ =>
            pure value := by
        rw [eq]
        simp only [Gateway.submit, Prog.bind_assoc]
      rw [shape]
      exact ⟨.drawing (fields_typed valid) fun id now failed =>
        (counts id now failed).bind fun _ => trivial, rfl⟩

end Submission

end TaskFlow
