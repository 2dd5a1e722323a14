import TaskFlow.ConsumerPool
import TaskFlow.Pipeline

/-!
# Redelivery to a single worker

When nothing fails, a call of `processMessage` leaves the live status of its task
terminal (`processMessage_closes`) and that of every other task alone
(`processMessage_others`), and a call that finds a terminal status changes nothing
(`processMessage_again`).  So a list of deliveries does what its first deliveries do.
-/

namespace TaskFlow

open Effect

variable {Raw : Type} {json : Json Raw} {s : World Raw} {task : Task}

namespace Worker

variable {w : Worker} {msg : Message Raw}

theorem finish_returns (w : Worker) (msg : Message Raw) (task : Task) (start : Time)
    (result : Option Error × Nat) (s : World Raw) :
    (Service.run (w.finish msg task start result) s).1 = none := by
  obtain ⟨execErr, attempts⟩ := result
  simp only [finish_eq, Service.run, Prog.run_call, Prog.run_bind, Prog.run_mk_pure]

theorem noHandler_returns (w : Worker) (msg : Message Raw) (task : Task) (s : World Raw) :
    (Service.run (w.noHandler msg task) s).1 = none := by
  simp only [noHandler, ask, Service.run, Prog.op_bind, Prog.run_call, Prog.run_pure]

/-- A delivery of a finished task changes nothing. -/
theorem processMessage_again (decodes : json.unmarshal msg.value = some task) (up : s.Up)
    (finished : s.terminal task.id = true) :
    Service.run (w.processMessage json msg) s = (none, s) := by
  have seen : alreadyTerminal (perform (.getStatus task.id) s).1 = true := by
    rw [alreadyTerminal_getStatus, up.reliable.fails, up.live, finished]
    rfl
  rw [processMessage_skips decodes seen, up.reliable.perform_getStatus]

theorem processMessage_malformed (malformed : json.unmarshal msg.value = none) :
    Service.run (w.processMessage json msg) s = (none, s) := by
  simp only [processMessage, malformed, Service.run, Prog.run_pure]

theorem processMessage_returns (up : s.Up) :
    (Service.run (w.processMessage json msg) s).1 = none := by
  cases decodes : json.unmarshal msg.value with
  | none => rw [processMessage_malformed decodes]
  | some task =>
      cases finished : s.terminal task.id with
      | true => rw [processMessage_again decodes up finished]
      | false =>
          rw [processMessage_open decodes up.stores finished, processNew]
          cases w.registry.get task.type with
          | error err => exact w.noHandler_returns msg task s
          | ok h =>
              have works : s.fails .setStatus = false := (up.reliable.fails _).trans up.live
              obtain ⟨start, run⟩ := execute_run w msg task h works
              rw [run]
              exact w.finish_returns ..

/-- After a delivery its task is finished. -/
theorem processMessage_closes (decodes : json.unmarshal msg.value = some task) (calm : s.Calm) :
    (Service.run (w.processMessage json msg) s).2.terminal task.id = true := by
  cases finished : s.terminal task.id with
  | true =>
      rw [processMessage_again decodes calm.up finished]
      exact finished
  | false =>
      cases found : w.registry.get task.type with
      | error err =>
          exact World.terminal_of_live
            (congrArg Dossier.live (w.reject_dossier decodes calm.up finished found))
      | ok h =>
          obtain ⟨closed, t, exec, terminal, _, closes⟩ :=
            w.process_dossier decodes calm finished found
          exact (World.terminal_of_live (congrArg Dossier.live closes)).trans terminal

/-- A delivery leaves the live status of the other tasks alone. -/
theorem processMessage_others (decodes : json.unmarshal msg.value = some task) {id : String}
    (other : id ≠ task.id) :
    (Service.run (w.processMessage json msg) s).2.terminal id = s.terminal id := by
  have own : Prog.All (Op.Of task.id) (w.processMessage json msg) := by
    simp only [processMessage, decodes, processTask_eq]
    refine ⟨trivial, fun status => ?_⟩
    dsimp only
    split
    · trivial
    · exact w.processNew_of msg task
  refine own.run_invariant (I := fun s' : World Raw => s'.terminal id = s.terminal id)
    (fun op s' about same => ?_) rfl
  refine (perform_terminal fun status eq => ?_).trans same
  subst eq
  exact other about

end Worker

/-! ## Lists of deliveries -/

/-- The deliveries of a list of messages, one after another. -/
def Worker.processAll (w : Worker) (json : Json Raw) :
    List (Message Raw) → Service Raw (List (Option Error))
  | [] => pure []
  | msg :: msgs => do
      let result ← w.processMessage json msg
      let results ← w.processAll json msgs
      pure (result :: results)

/-- The list without the messages whose task occurred before, in `seen` or in the list.
Malformed messages stay. -/
def firstDeliveries (json : Json Raw) (seen : List String) :
    List (Message Raw) → List (Message Raw)
  | [] => []
  | msg :: msgs =>
      match json.unmarshal msg.value with
      | none => msg :: firstDeliveries json seen msgs
      | some task =>
          if task.id ∈ seen then firstDeliveries json seen msgs
          else msg :: firstDeliveries json (task.id :: seen) msgs

namespace Worker

variable {w : Worker}

theorem processAll_cons (w : Worker) (json : Json Raw) (msg : Message Raw)
    (msgs : List (Message Raw)) (s : World Raw) :
    Service.run (w.processAll json (msg :: msgs)) s =
      let first := Service.run (w.processMessage json msg) s
      let later := Service.run (w.processAll json msgs) first.2
      (first.1 :: later.1, later.2) := by
  simp only [processAll, Service.run, Prog.run_bind, Prog.run_pure]

theorem processAll_returns (w : Worker) (json : Json Raw) (msgs : List (Message Raw))
    (calm : s.Calm) : ∀ result ∈ (Service.run (w.processAll json msgs) s).1, result = none := by
  induction msgs generalizing s with
  | nil => exact fun _ member => nomatch member
  | cons msg msgs ih =>
      rw [processAll_cons]
      intro result member
      rcases List.mem_cons.mp member with rfl | later
      · exact processMessage_returns calm.up
      · exact ih (Service.run_calm calm) result later

/-- With the tasks in `seen` finished, a list of deliveries ends in the same world as
its first deliveries. -/
theorem processAll_firstDeliveries (w : Worker) (json : Json Raw) (msgs : List (Message Raw))
    (seen : List String) (calm : s.Calm) (finished : ∀ id ∈ seen, s.terminal id = true) :
    (Service.run (w.processAll json msgs) s).2 =
      (Service.run (w.processAll json (firstDeliveries json seen msgs)) s).2 := by
  induction msgs generalizing s seen with
  | nil => rfl
  | cons msg msgs ih =>
      rw [processAll_cons, firstDeliveries]
      cases decodes : json.unmarshal msg.value with
      | none =>
          dsimp only
          rw [processAll_cons, processMessage_malformed decodes]
          exact ih seen calm finished
      | some task =>
          dsimp only
          by_cases again : task.id ∈ seen
          · rw [if_pos again, processMessage_again decodes calm.up (finished _ again)]
            exact ih seen calm finished
          · rw [if_neg again, processAll_cons]
            refine ih (task.id :: seen) (Service.run_calm calm) fun id member => ?_
            by_cases same : id = task.id
            · subst same
              exact processMessage_closes decodes calm
            · rw [processMessage_others decodes same]
              exact finished id ((List.mem_cons.mp member).resolve_left same)

/-- **Redelivery is harmless.**  When nothing fails, every delivery returns nil, and a
list of deliveries leaves the same world as its first deliveries: stores, log, handler
calls and metrics. -/
theorem redelivery_harmless (w : Worker) (json : Json Raw) (msgs : List (Message Raw))
    (calm : s.Calm) :
    (Service.run (w.processAll json msgs) s).2 =
        (Service.run (w.processAll json (firstDeliveries json [] msgs)) s).2 ∧
      ∀ result ∈ (Service.run (w.processAll json msgs) s).1, result = none :=
  ⟨w.processAll_firstDeliveries json msgs [] calm fun _ member => (nomatch member),
    w.processAll_returns json msgs calm⟩

theorem redelivery_harmless_email :
    (Service.run ((emailWorker 3).processAll plainJson [emailMessage, emailMessage])
        (World.fresh .calm)).2 =
      (Service.run ((emailWorker 3).processAll plainJson [emailMessage]) (World.fresh .calm)).2 ∧
    ∀ result ∈ (Service.run ((emailWorker 3).processAll plainJson [emailMessage, emailMessage])
        (World.fresh .calm)).1, result = none :=
  (emailWorker 3).redelivery_harmless plainJson [emailMessage, emailMessage]
    ⟨⟨rfl, fun _ => rfl, fun _ => rfl⟩, fun _ _ => rfl⟩

end Worker

end TaskFlow
