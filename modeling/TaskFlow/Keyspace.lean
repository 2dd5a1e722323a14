import TaskFlow.Effect.Machine
import TaskFlow.RateLimiter
import TaskFlow.World

/-!
# One Redis keyspace

The state store, the rate limiter and the scheduler share one flat keyspace, in
which a key is the concatenation of a constant and a task id, a task type or
nothing, and holds a string or a sorted set.  A command on a key of the other kind
fails.  Here no key expires and no command fails otherwise.

`StoreKey` names the key families and `StoreKey.text` builds the keys; it is
injective, whatever the ids are.  So the keyspace, seen through the families, is a
product of independent maps, `StoreMaps`, and answers every sequence of operations
as they do.
-/

namespace TaskFlow

open Effect

/-! ## Keys -/

def stateKey (taskID : String) : String := "task:state:" ++ taskID

def metaKey (taskID : String) : String := "task:meta:" ++ taskID

def resultKey (taskID : String) : String := "task:result:" ++ taskID

def leaderKey : String := "scheduler:leader"

/-- A key of the services. -/
inductive StoreKey : Type
  | state (taskID : String)
  | metas (taskID : String)
  | result (taskID : String)
  | window (limiterKey : String)
  | leader
deriving DecidableEq

/-- The key families. -/
inductive KeyFamily : Type
  | state | metas | result | window | leader
deriving DecidableEq

/-- The constant that starts the keys of a family. -/
def KeyFamily.label : KeyFamily → String
  | .state => "task:state:"
  | .metas => "task:meta:"
  | .result => "task:result:"
  | .window => "ratelimit:"
  | .leader => "scheduler:leader"

/-- Six characters are enough to tell the families apart. -/
theorem KeyFamily.take_label_injective {a b : KeyFamily}
    (same : a.label.toList.take 6 = b.label.toList.take 6) : a = b := by
  revert same
  cases a <;> cases b <;> decide

theorem KeyFamily.six_le_label (a : KeyFamily) : 6 ≤ a.label.toList.length := by
  cases a <;> decide

namespace StoreKey

def text : StoreKey → String
  | .state taskID => stateKey taskID
  | .metas taskID => metaKey taskID
  | .result taskID => resultKey taskID
  | .window limiterKey => RateLimiter.rkey limiterKey
  | .leader => leaderKey

def family : StoreKey → KeyFamily
  | .state _ => .state
  | .metas _ => .metas
  | .result _ => .result
  | .window _ => .window
  | .leader => .leader

def argument : StoreKey → String
  | .state taskID => taskID
  | .metas taskID => taskID
  | .result taskID => taskID
  | .window limiterKey => limiterKey
  | .leader => ""

theorem text_eq (key : StoreKey) : key.text = key.family.label ++ key.argument := by
  cases key <;> rfl

theorem take_text (key : StoreKey) :
    key.text.toList.take 6 = key.family.label.toList.take 6 := by
  rw [text_eq, String.toList_append, List.take_append_of_le_length key.family.six_le_label]

/-- No two keys of the services have the same text, whatever the ids are. -/
theorem text_injective : Function.Injective text := by
  intro a b same
  have families : a.family = b.family := by
    apply KeyFamily.take_label_injective
    rw [← take_text a, ← take_text b, same]
  have arguments : a.argument = b.argument := by
    rw [text_eq a, text_eq b, families] at same
    exact (String.append_right_inj _).mp same
  cases a <;> cases b <;> simp_all [family, argument]

end StoreKey

/-! ## Values and commands -/

/-- How tasks, statuses and instance ids become the bytes of a string value. -/
structure Encoding (Raw : Type) : Type where
  json : Json Raw
  bytes : String → Raw
  string : Raw → String
  string_bytes : ∀ text, string (bytes text) = text

inductive RedisValue (Raw : Type) : Type
  | string (bytes : Raw)
  | zset (set : SortedSet)
deriving DecidableEq

abbrev Keyspace (Raw : Type) : Type := String → Option (RedisValue Raw)

/-- The error of a command on a key that holds the wrong kind of value. -/
def wrongType : Error :=
  .new "WRONGTYPE Operation against a key holding the wrong kind of value"

/-- The operations of the services on Redis.  `domain.Status` is a string type, so a
status is any text. -/
inductive StoreOp (Raw : Type) : Type
  | setStatus (taskID status : String)
  | getStatus (taskID : String)
  | setTaskMeta (task : Task)
  | getTaskMeta (taskID : String)
  | setResult (taskID : String) (result : Raw) (ttl : Int64)
  | getResult (taskID : String)
  | allow (limiter : RateLimiter) (call : AllowCall)
  | setNX (instanceID : String)
  | renew (instanceID : String)

inductive StoreReply (Raw : Type) : Type
  | stored (err : Option Error)
  | status (answer : Except Error String)
  | task (answer : Except Error Task)
  | result (answer : Except Error Raw)
  | allowed (answer : Except Error Bool)
  | acquired (ok : Bool)
  | renewed (answer : Except Error Int)

/-- `Allow` on what its own key holds. -/
def RateLimiter.allowHeld (r : RateLimiter) (call : AllowCall) (held : Option SortedSet) :
    Bool × Option SortedSet :=
  ((r.allow call fun _ => held).1, (r.allow call fun _ => held).2 (rkey call.key))

variable {Raw : Type}

namespace Keyspace

/-- `SET`, over whatever the key holds. -/
def set (ks : Keyspace Raw) (key : String) (bytes : Raw) : Keyspace Raw :=
  Function.update ks key (some (.string bytes))

/-- `GET` for a task, under its error text. -/
def fetch (ks : Keyspace Raw) (key what taskID : String) : Except Error Raw :=
  match ks key with
  | none => .error (.taskNotFound taskID)
  | some (.string bytes) => .ok bytes
  | some (.zset _) => .error (.wrap ("redis get " ++ what ++ " for " ++ taskID) wrongType)

/-- `GetStatus`. -/
def getStatus (enc : Encoding Raw) (ks : Keyspace Raw) (taskID : String) : Except Error String :=
  (ks.fetch (stateKey taskID) "status" taskID).map enc.string

/-- `GetTaskMeta`. -/
def getTaskMeta (enc : Encoding Raw) (ks : Keyspace Raw) (taskID : String) : Except Error Task :=
  match ks.fetch (metaKey taskID) "meta" taskID with
  | .error err => .error err
  | .ok data =>
      match enc.json.unmarshal data with
      | none => .error (.wrap "unmarshal task meta" (.new "invalid JSON"))
      | some task => .ok task

/-- `GetResult`. -/
def getResult (ks : Keyspace Raw) (taskID : String) : Except Error Raw :=
  ks.fetch (resultKey taskID) "result" taskID

/-- `Allow`: a transaction on one sorted set.  On a string its three commands on sets
fail, but `EXPIRE` does not, and a time to live that is not positive deletes the key. -/
def allow (r : RateLimiter) (call : AllowCall) (ks : Keyspace Raw) :
    Except Error Bool × Keyspace Raw :=
  match ks (RateLimiter.rkey call.key) with
  | some (.string bytes) =>
      (.error (.wrap ("rate limiter pipeline for \"" ++ call.key ++ "\"") wrongType),
        Function.update ks (RateLimiter.rkey call.key)
          (if 0 < r.ttl then some (.string bytes) else none))
  | some (.zset set) =>
      (.ok (r.allowHeld call (some set)).1,
        Function.update ks (RateLimiter.rkey call.key)
          ((r.allowHeld call (some set)).2.map .zset))
  | none =>
      (.ok (r.allowHeld call none).1,
        Function.update ks (RateLimiter.rkey call.key) ((r.allowHeld call none).2.map .zset))

/-- `SET scheduler:leader id NX`. -/
def setNX (enc : Encoding Raw) (ks : Keyspace Raw) (instanceID : String) : Bool × Keyspace Raw :=
  match ks leaderKey with
  | none => (true, ks.set leaderKey (enc.bytes instanceID))
  | some _ => (false, ks)

variable [DecidableEq Raw]

/-- The renewal script: 1 if the key holds this instance, else 0. -/
def renew (enc : Encoding Raw) (ks : Keyspace Raw) (instanceID : String) : Except Error Int :=
  match ks leaderKey with
  | none => .ok 0
  | some (.string owner) => .ok (if owner = enc.bytes instanceID then 1 else 0)
  | some (.zset _) => .error wrongType

def perform (enc : Encoding Raw) : StoreOp Raw → Keyspace Raw → StoreReply Raw × Keyspace Raw
  | .setStatus taskID status, ks => (.stored none, ks.set (stateKey taskID) (enc.bytes status))
  | .getStatus taskID, ks => (.status (ks.getStatus enc taskID), ks)
  | .setTaskMeta task, ks => (.stored none, ks.set (metaKey task.id) (enc.json.marshal task))
  | .getTaskMeta taskID, ks => (.task (ks.getTaskMeta enc taskID), ks)
  | .setResult taskID result _, ks => (.stored none, ks.set (resultKey taskID) result)
  | .getResult taskID, ks => (.result (ks.getResult taskID), ks)
  | .allow r call, ks => (.allowed (ks.allow r call).1, (ks.allow r call).2)
  | .setNX instanceID, ks =>
      (.acquired (ks.setNX enc instanceID).1, (ks.setNX enc instanceID).2)
  | .renew instanceID, ks => (.renewed (ks.renew enc instanceID), ks)

/-- A server without keys. -/
def empty : Keyspace Raw := fun _ => none

/-- The keyspace after some operations. -/
def after (enc : Encoding Raw) (ops : List (StoreOp Raw)) : Keyspace Raw :=
  (serveAll (perform enc) ops empty).2

end Keyspace

/-- The key an operation is about. -/
def StoreOp.key : StoreOp Raw → StoreKey
  | .setStatus taskID _ => .state taskID
  | .getStatus taskID => .state taskID
  | .setTaskMeta task => .metas task.id
  | .getTaskMeta taskID => .metas taskID
  | .setResult taskID _ _ => .result taskID
  | .getResult taskID => .result taskID
  | .allow _ call => .window call.key
  | .setNX _ => .leader
  | .renew _ => .leader

/-! ## Independent maps -/

/-- What the families are for: a status, a record and a result for each task, a
window of readings for each limiter key, and a leader. -/
structure StoreMaps (Raw : Type) : Type where
  statuses : String → Option String
  metas : String → Option Task
  results : String → Option Raw
  windows : String → Option SortedSet
  leader : Option String

/-- The answer of a lookup. -/
def found {α : Type} (taskID : String) : Option α → Except Error α
  | none => .error (.taskNotFound taskID)
  | some value => .ok value

namespace StoreMaps

def empty : StoreMaps Raw :=
  ⟨fun _ => none, fun _ => none, fun _ => none, fun _ => none, none⟩

def perform : StoreOp Raw → StoreMaps Raw → StoreReply Raw × StoreMaps Raw
  | .setStatus taskID status, m =>
      (.stored none, { m with statuses := Function.update m.statuses taskID (some status) })
  | .getStatus taskID, m => (.status (found taskID (m.statuses taskID)), m)
  | .setTaskMeta task, m =>
      (.stored none, { m with metas := Function.update m.metas task.id (some task) })
  | .getTaskMeta taskID, m => (.task (found taskID (m.metas taskID)), m)
  | .setResult taskID result _, m =>
      (.stored none, { m with results := Function.update m.results taskID (some result) })
  | .getResult taskID, m => (.result (found taskID (m.results taskID)), m)
  | .allow r call, m =>
      (.allowed (.ok (r.allowHeld call (m.windows call.key)).1),
        { m with
          windows :=
            Function.update m.windows call.key (r.allowHeld call (m.windows call.key)).2 })
  | .setNX instanceID, m =>
      (.acquired m.leader.isNone, { m with leader := m.leader.or (some instanceID) })
  | .renew instanceID, m => (.renewed (.ok (if m.leader = some instanceID then 1 else 0)), m)

/-- What a key holds when the keyspace represents the maps. -/
def value (enc : Encoding Raw) (m : StoreMaps Raw) : StoreKey → Option (RedisValue Raw)
  | .state taskID => (m.statuses taskID).map fun status => .string (enc.bytes status)
  | .metas taskID => (m.metas taskID).map fun task => .string (enc.json.marshal task)
  | .result taskID => (m.results taskID).map .string
  | .window limiterKey => (m.windows limiterKey).map .zset
  | .leader => m.leader.map fun instanceID => .string (enc.bytes instanceID)

variable {enc : Encoding Raw} {ks : Keyspace Raw} {m : StoreMaps Raw}

/-- The keyspace represents the maps. -/
def Represents (enc : Encoding Raw) (ks : Keyspace Raw) (m : StoreMaps Raw) : Prop :=
  ∀ key : StoreKey, ks key.text = m.value enc key

/-- An operation leaves every entry but its own alone. -/
theorem value_perform (op : StoreOp Raw) {key : StoreKey} (differs : key ≠ op.key) :
    (perform op m).2.value enc key = m.value enc key := by
  cases op with
  | setStatus taskID status => cases key <;> simp_all [perform, value, StoreOp.key]
  | setTaskMeta task => cases key <;> simp_all [perform, value, StoreOp.key]
  | setResult taskID result ttl => cases key <;> simp_all [perform, value, StoreOp.key]
  | allow r call => cases key <;> simp_all [perform, value, StoreOp.key]
  | setNX instanceID => cases key <;> simp_all [perform, value, StoreOp.key]
  | _ => rfl

/-- Writing the key of an operation is writing one entry of one map. -/
theorem Represents.write (rep : Represents enc ks m) (op : StoreOp Raw)
    {held : Option (RedisValue Raw)} (own : (perform op m).2.value enc op.key = held) :
    Represents enc (Function.update ks op.key.text held) (perform op m).2 := by
  intro other
  by_cases same : other = op.key
  · rw [same, Function.update_self, own]
  · rw [Function.update_of_ne (fun text => same (StoreKey.text_injective text)), rep other,
      value_perform op same]

/-- A lookup in the keyspace is a lookup in the map. -/
theorem Represents.fetch {α : Type} (rep : Represents enc ks m) (key : StoreKey)
    (what taskID : String) (held : Option α) (write : α → Raw)
    (own : m.value enc key = held.map fun value => .string (write value)) :
    ks.fetch key.text what taskID = found taskID (held.map write) := by
  unfold Keyspace.fetch
  rw [rep key, own]
  cases held <;> rfl

theorem Represents.getStatus (rep : Represents enc ks m) (taskID : String) :
    ks.getStatus enc taskID = found taskID (m.statuses taskID) := by
  have fetched := rep.fetch (.state taskID) "status" taskID (m.statuses taskID) enc.bytes rfl
  unfold Keyspace.getStatus
  rw [show stateKey taskID = (StoreKey.state taskID).text from rfl, fetched]
  cases m.statuses taskID with
  | none => rfl
  | some status => exact congrArg Except.ok (enc.string_bytes status)

theorem Represents.getTaskMeta (rep : Represents enc ks m) (taskID : String) :
    ks.getTaskMeta enc taskID = found taskID (m.metas taskID) := by
  have fetched := rep.fetch (.metas taskID) "meta" taskID (m.metas taskID) enc.json.marshal rfl
  unfold Keyspace.getTaskMeta
  rw [show metaKey taskID = (StoreKey.metas taskID).text from rfl, fetched]
  cases m.metas taskID with
  | none => rfl
  | some task =>
      dsimp only [found, Option.map_some]
      rw [enc.json.unmarshal_marshal]

theorem Represents.getResult (rep : Represents enc ks m) (taskID : String) :
    ks.getResult taskID = found taskID (m.results taskID) := by
  have fetched := rep.fetch (.result taskID) "result" taskID (m.results taskID) id rfl
  rw [Option.map_id_fun] at fetched
  exact fetched

theorem Represents.allow (rep : Represents enc ks m) (r : RateLimiter) (call : AllowCall) :
    (ks.allow r call).1 = .ok (r.allowHeld call (m.windows call.key)).1 ∧
      Represents enc (ks.allow r call).2 (perform (.allow r call) m).2 := by
  have held : ks (RateLimiter.rkey call.key) = (m.windows call.key).map .zset :=
    rep (.window call.key)
  have written : Represents enc
      (Function.update ks (RateLimiter.rkey call.key)
        ((r.allowHeld call (m.windows call.key)).2.map .zset))
      (perform (.allow r call) m).2 := by
    apply rep.write (.allow r call)
    simp [perform, value, StoreOp.key]
  unfold Keyspace.allow
  rw [held]
  cases window : m.windows call.key with
  | none =>
      rw [window] at written
      exact ⟨rfl, written⟩
  | some set =>
      rw [window] at written
      exact ⟨rfl, written⟩

theorem Represents.setNX (rep : Represents enc ks m) (instanceID : String) :
    (ks.setNX enc instanceID).1 = m.leader.isNone ∧
      Represents enc (ks.setNX enc instanceID).2 (perform (.setNX instanceID) m).2 := by
  have owned : ks leaderKey = m.leader.map fun id => .string (enc.bytes id) := rep .leader
  unfold Keyspace.setNX
  rw [owned]
  cases leader : m.leader with
  | none =>
      refine ⟨rfl, rep.write (.setNX instanceID) ?_⟩
      simp [perform, value, StoreOp.key, leader]
  | some owner =>
      refine ⟨rfl, ?_⟩
      have same : (perform (.setNX instanceID) m).2 = m := by
        cases m
        cases leader
        rfl
      rw [same]
      exact rep

theorem Represents.renew [DecidableEq Raw] (rep : Represents enc ks m) (instanceID : String) :
    ks.renew enc instanceID = .ok (if m.leader = some instanceID then 1 else 0) := by
  have owned : ks leaderKey = m.leader.map fun id => .string (enc.bytes id) := rep .leader
  unfold Keyspace.renew
  rw [owned]
  cases m.leader with
  | none => rfl
  | some owner =>
      have injective : enc.bytes owner = enc.bytes instanceID ↔ owner = instanceID := by
        refine ⟨fun same => ?_, fun same => congrArg enc.bytes same⟩
        rw [← enc.string_bytes owner, same, enc.string_bytes]
      simp only [Option.map_some, injective, Option.some.injEq]

/-- Each operation answers as on the maps, and keeps the representation. -/
theorem Represents.perform [DecidableEq Raw] (rep : Represents enc ks m) (op : StoreOp Raw) :
    (ks.perform enc op).1 = (StoreMaps.perform op m).1 ∧
      Represents enc (ks.perform enc op).2 (StoreMaps.perform op m).2 := by
  cases op with
  | setStatus taskID status =>
      refine ⟨rfl, rep.write (.setStatus taskID status) ?_⟩
      simp [StoreMaps.perform, value, StoreOp.key]
  | getStatus taskID => exact ⟨congrArg StoreReply.status (rep.getStatus taskID), rep⟩
  | setTaskMeta task =>
      refine ⟨rfl, rep.write (.setTaskMeta task) ?_⟩
      simp [StoreMaps.perform, value, StoreOp.key]
  | getTaskMeta taskID => exact ⟨congrArg StoreReply.task (rep.getTaskMeta taskID), rep⟩
  | setResult taskID result ttl =>
      refine ⟨rfl, rep.write (.setResult taskID result ttl) ?_⟩
      simp [StoreMaps.perform, value, StoreOp.key]
  | getResult taskID => exact ⟨congrArg StoreReply.result (rep.getResult taskID), rep⟩
  | allow r call =>
      obtain ⟨answer, kept⟩ := rep.allow r call
      exact ⟨congrArg StoreReply.allowed answer, kept⟩
  | setNX instanceID =>
      obtain ⟨answer, kept⟩ := rep.setNX instanceID
      exact ⟨congrArg StoreReply.acquired answer, kept⟩
  | renew instanceID => exact ⟨congrArg StoreReply.renewed (rep.renew instanceID), rep⟩

end StoreMaps

/-! ## Whole sequences -/

namespace StoreOp

/-- The status an operation sets for a task. -/
def statusOf (taskID : String) : StoreOp Raw → Option String
  | .setStatus id status => if id = taskID then some status else none
  | _ => none

/-- The record an operation sets for a task. -/
def metaOf (taskID : String) : StoreOp Raw → Option Task
  | .setTaskMeta task => if task.id = taskID then some task else none
  | _ => none

/-- The result an operation sets for a task. -/
def resultOf (taskID : String) : StoreOp Raw → Option Raw
  | .setResult id result _ => if id = taskID then some result else none
  | _ => none

end StoreOp

/-- An operation leaves every key but its own alone. -/
theorem Keyspace.perform_frame [DecidableEq Raw] (enc : Encoding Raw) (ks : Keyspace Raw)
    (op : StoreOp Raw) {text : String} (differs : text ≠ op.key.text) :
    (ks.perform enc op).2 text = ks text := by
  cases op with
  | allow r call =>
      simp only [Keyspace.perform, Keyspace.allow]
      split <;> exact Function.update_of_ne differs _ _
  | setNX instanceID =>
      simp only [Keyspace.perform, Keyspace.setNX]
      split
      · exact Function.update_of_ne differs _ _
      · rfl
  | setStatus taskID status => exact Function.update_of_ne differs _ _
  | setTaskMeta task => exact Function.update_of_ne differs _ _
  | setResult taskID result ttl => exact Function.update_of_ne differs _ _
  | _ => rfl

namespace StoreMaps

variable (op : StoreOp Raw) (m : StoreMaps Raw) (taskID : String)

theorem statuses_perform :
    (perform op m).2.statuses taskID = (op.statusOf taskID).or (m.statuses taskID) := by
  cases op with
  | setStatus id status => exact update_some_eq_or ..
  | _ => rfl

theorem metas_perform :
    (perform op m).2.metas taskID = (op.metaOf taskID).or (m.metas taskID) := by
  cases op with
  | setTaskMeta task => exact update_some_eq_or ..
  | _ => rfl

theorem results_perform :
    (perform op m).2.results taskID = (op.resultOf taskID).or (m.results taskID) := by
  cases op with
  | setResult id result ttl => exact update_some_eq_or ..
  | _ => rfl

end StoreMaps

/-- Over every sequence of operations, from an empty server: the answers are those
of independent maps; each lookup answers with the value of the last operation that
set it for exactly that task, or that the task is not found; and an operation never
changes what another key holds. -/
theorem keyspace_independent [DecidableEq Raw] (enc : Encoding Raw) (ops : List (StoreOp Raw)) :
    (serveAll (Keyspace.perform enc) ops Keyspace.empty).1 =
        (serveAll StoreMaps.perform ops StoreMaps.empty).1 ∧
      (∀ taskID,
        (Keyspace.after enc ops).getStatus enc taskID =
          found taskID (lastWrite (StoreOp.statusOf taskID) ops) ∧
        (Keyspace.after enc ops).getTaskMeta enc taskID =
          found taskID (lastWrite (StoreOp.metaOf taskID) ops) ∧
        (Keyspace.after enc ops).getResult taskID =
          found taskID (lastWrite (StoreOp.resultOf taskID) ops)) ∧
      ∀ (op : StoreOp Raw) (key : StoreKey), key ≠ op.key →
        (Keyspace.perform enc op (Keyspace.after enc ops)).2 key.text =
          Keyspace.after enc ops key.text := by
  have start : StoreMaps.Represents enc Keyspace.empty StoreMaps.empty := by
    intro key
    cases key <;> rfl
  obtain ⟨answers, rep⟩ := serveAll_simulates (R := StoreMaps.Represents enc)
    (fun op _ _ related => related.perform op) ops start
  refine ⟨answers, fun taskID => ?_, fun op key differs => ?_⟩
  · have status := serveAll_look (fun m : StoreMaps Raw => m.statuses taskID)
      (StoreOp.statusOf taskID) (fun op m => StoreMaps.statuses_perform op m taskID) ops
      StoreMaps.empty
    have record := serveAll_look (fun m : StoreMaps Raw => m.metas taskID)
      (StoreOp.metaOf taskID) (fun op m => StoreMaps.metas_perform op m taskID) ops
      StoreMaps.empty
    have result := serveAll_look (fun m : StoreMaps Raw => m.results taskID)
      (StoreOp.resultOf taskID) (fun op m => StoreMaps.results_perform op m taskID) ops
      StoreMaps.empty
    unfold Keyspace.after
    rw [rep.getStatus, rep.getTaskMeta, rep.getResult, status, record, result]
    simp only [StoreMaps.empty, Option.or_none, and_self]
  · exact Keyspace.perform_frame enc _ op fun text => differs (StoreKey.text_injective text)

end TaskFlow
