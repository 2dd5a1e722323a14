import Mathlib.Data.List.Nodup
import Mathlib.Data.List.Perm.Basic
import Mathlib.Logic.Function.Iterate
import TaskFlow.Mime
import TaskFlow.World
import TaskFlow.Effect.Prog

/-!
# `internal/handlers`

The two handlers of the worker as programs over what they ask of the outside: the webhook
handler makes one HTTP call, the email handler hands one message to `smtp.SendMail`.
`encoding/json` and `net/http` are parameters: how the bytes of a payload decode, which
method and URL `http.NewRequest` refuses, and the canonical form of a header key.

Ranging over the header map of a payload takes its entries in any order.
`Webhook.header_perm`: the request does not depend on it as long as the keys are different
in their canonical form.  Spans are not modelled.
-/

namespace TaskFlow

open Effect

/-! ## What the handlers ask of the outside -/

/-- A `map[string]string`. -/
structure StringMap : Type where
  entries : List (String × String)
  distinct : (entries.map Prod.fst).Nodup

/-- The parts of an `http.Request` the handler sets. -/
structure HTTPRequest : Type where
  method : String
  url : String
  header : String → Option String
  body : Option String

/-- The arguments of `smtp.SendMail`. -/
structure Mail : Type where
  addr : String
  auth : Option (String × String × String)
  sender : String
  recipients : List String
  msg : List UInt8
deriving DecidableEq

/-- How the `select` of the email handler ends: with the result of `smtp.SendMail`, or with
the error of the context while the call is still going on. -/
inductive MailEnd : Type
  | result (err : Option Error)
  | timeout (err : Error)

/-- A call on the outside. -/
inductive Outbound : Type
  | range (headers : StringMap)
  | clientDo (req : HTTPRequest)
  | sendMail (mail : Mail)

/-- The answer of the outside. -/
abbrev Outbound.Ans : Outbound → Type
  | .range headers => { order : List (String × String) // order.Perm headers.entries }
  | .clientDo _ => Except Error Nat
  | .sendMail _ => MailEnd

/-- `Handler.Handle` on one task. -/
abbrev Handling : Type := Prog Outbound Outbound.Ans (Option Error)

/-! ## The webhook handler -/

/-- `net/http`: the error of `http.NewRequest` for a method and a URL, and the canonical
form of a header key. -/
structure NetHTTP : Type where
  newRequest : String → String → Option Error
  canonicalKey : String → String

namespace Webhook

/-- `webhookPayload`. -/
structure Payload : Type where
  url : String
  method : String
  headers : StringMap
  body : String

/-- The method of the request: `POST` unless the payload names one. -/
def Payload.verb (p : Payload) : String := if p.method = "" then "POST" else p.method

/-- `req.Header.Set` for the entries of a map, in the order of a range. -/
def header (net : NetHTTP) (order : List (String × String)) : String → Option String :=
  order.foldl (fun header entry =>
    Function.update header (net.canonicalKey entry.1) (some entry.2)) fun _ => none

/-- The request of a payload, with its headers set in some order. -/
def Payload.request (net : NetHTTP) (p : Payload) (order : List (String × String)) :
    HTTPRequest where
  method := p.verb
  url := p.url
  header := header net order
  body := if p.body = "" then none else some p.body

/-- What the handler makes of the end of `client.Do`. -/
def verdict (url : String) : Except Error Nat → Option Error
  | .error err => some (.wrap ("webhook call to " ++ url) err)
  | .ok statusCode =>
      if 400 ≤ statusCode then
        some (.new ("webhook " ++ url ++ " returned status " ++ toString statusCode))
      else none

/-- `WebhookHandler.Handle` up to `http.NewRequest`. -/
def prepare (net : NetHTTP) (unmarshal : List UInt8 → Except Error Payload) (task : Task) :
    Except Error Payload :=
  match unmarshal task.payload with
  | .error err => .error (.wrap "invalid webhook payload" err)
  | .ok p =>
      if p.url = "" then .error (.new "webhook payload missing required field 'url'")
      else
        match net.newRequest p.verb p.url with
        | some err => .error (.wrap "build webhook request" err)
        | none => .ok p

/-- `WebhookHandler.Handle`. -/
def handle (net : NetHTTP) (unmarshal : List UInt8 → Except Error Payload) (task : Task) :
    Handling :=
  match prepare net unmarshal task with
  | .error err => pure (some err)
  | .ok p => do
      let order ← Prog.op (.range p.headers)
      let resp ← Prog.op (.clientDo (p.request net order.val))
      pure (verdict p.url resp)

/-- With keys that stay different in their canonical form, the order of a range does not
show in the headers. -/
theorem header_perm {net : NetHTTP} {order entries : List (String × String)}
    (distinct : (entries.map fun entry => net.canonicalKey entry.1).Nodup)
    (perm : order.Perm entries) : header net order = header net entries := by
  refine List.Perm.foldl_eq' perm (fun x hx y hy z => ?_) _
  have back : ∀ {e}, e ∈ order → e ∈ entries := fun member => perm.mem_iff.mp member
  by_cases same : net.canonicalKey x.1 = net.canonicalKey y.1
  · have equal : x = y := List.inj_on_of_nodup_map distinct (back hx) (back hy) same
    rw [equal]
  · exact Function.update_comm same _ _ _

end Webhook

/-! ## The email handler -/

namespace Email

/-- `emailPayload`. -/
structure Payload : Type where
  recipient : String
  subject : String
  body : String

/-- `EmailConfig`. -/
structure Config : Type where
  host : String
  port : Int
  sender : String
  username : String
  password : String

/-- The bytes of a string. -/
def bytes (s : String) : List UInt8 := s.toUTF8.toList

/-- The arguments of `smtp.SendMail` for a payload. -/
def Payload.mail (cfg : Config) (p : Payload) : Mail where
  addr := cfg.host ++ ":" ++ toString cfg.port
  auth := if cfg.username = "" then none else some (cfg.username, cfg.password, cfg.host)
  sender := cfg.sender
  recipients := [p.recipient]
  msg := buildMIME (bytes cfg.sender) (bytes p.recipient) (bytes p.subject) (bytes p.body)

/-- What the handler makes of the end of its `select`. -/
def verdict (recipient : String) : MailEnd → Option Error
  | .result none => none
  | .result (some err) => some (.wrap ("smtp send to " ++ recipient) err)
  | .timeout err => some (.wrap "email send timed out" err)

/-- `EmailHandler.Handle` up to `smtp.SendMail`. -/
def prepare (unmarshal : List UInt8 → Except Error Payload) (task : Task) :
    Except Error Payload :=
  match unmarshal task.payload with
  | .error err => .error (.wrap "invalid email payload" err)
  | .ok p =>
      if p.recipient = "" then .error (.new "email payload missing required field 'to'") else .ok p

/-- `EmailHandler.Handle`. -/
def handle (cfg : Config) (unmarshal : List UInt8 → Except Error Payload) (task : Task) :
    Handling :=
  match prepare unmarshal task with
  | .error err => pure (some err)
  | .ok p => do
      let ended ← Prog.op (.sendMail (p.mail cfg))
      pure (verdict p.recipient ended)

end Email

/-! ## The outside -/

/-- What the outside was asked, and how it will answer. -/
structure Outside : Type where
  requests : List HTTPRequest
  mails : List Mail
  order : Nat → (headers : StringMap) →
    { order : List (String × String) // order.Perm headers.entries }
  responses : Nat → Except Error Nat
  mailEnds : Nat → MailEnd

/-- Answer one call on the outside. -/
def Outside.perform : (op : Outbound) → Outside → op.Ans × Outside
  | .range headers, v => (v.order 0 headers, { v with order := rest v.order })
  | .clientDo req, v => (v.responses 0,
      { v with requests := v.requests ++ [req], responses := rest v.responses })
  | .sendMail mail, v => (v.mailEnds 0,
      { v with mails := v.mails ++ [mail], mailEnds := rest v.mailEnds })

/-- The outside after `n` calls with these requests. -/
def Outside.called (req : Nat → HTTPRequest) (v : Outside) (n : Nat) : Outside :=
  { v with
    requests := v.requests ++ (List.range n).map req
    order := fun m => v.order (n + m)
    responses := fun m => v.responses (n + m) }

/-- The outside after `n` deliveries of one mail. -/
def Outside.mailed (mail : Mail) (v : Outside) (n : Nat) : Outside :=
  { v with
    mails := v.mails ++ List.replicate n mail
    mailEnds := fun m => v.mailEnds (n + m) }

/-- The outside after the handler has run. -/
def attempted (p : Handling) (v : Outside) : Outside := (p.run Outside.perform v).2

/-- Run again and again from `v` on, the handler leads through these outsides and returns
these results. -/
structure Repeats (p : Handling) (v : Outside) (after : Nat → Outside)
    (result : Nat → Option Error) : Prop where
  start : after 0 = v
  next : ∀ n, p.run Outside.perform (after n) = (result n, after (n + 1))

theorem Repeats.iterate {p : Handling} {v : Outside} {after : Nat → Outside}
    {result : Nat → Option Error} (repeats : Repeats p v after result) (n : Nat) :
    (attempted p)^[n] v = after n := by
  induction n with
  | zero => exact repeats.start.symm
  | succ n ih => rw [Function.iterate_succ_apply', ih, attempted, repeats.next]

theorem rest_shift {α : Type} (stream : Nat → α) (n : Nat) :
    (rest fun m => stream (n + m)) = fun m => stream (n + 1 + m) := by
  funext m
  rw [rest_apply, Nat.add_assoc, Nat.add_comm 1 m]

/-- A payload that cannot be used is an error each time, and nothing is asked. -/
theorem repeats_pure (result : Option Error) (v : Outside) :
    Repeats (pure result) v (fun _ => v) fun _ => result :=
  ⟨rfl, fun _ => rfl⟩

/-- Attempt after attempt makes the call, with the headers in the order of its range. -/
theorem Webhook.repeats {net : NetHTTP} {unmarshal : List UInt8 → Except Error Payload}
    {task : Task} {p : Payload} (prepared : prepare net unmarshal task = .ok p) (v : Outside) :
    Repeats (handle net unmarshal task) v
      (v.called fun i => p.request net (v.order i p.headers).val)
      fun n => verdict p.url (v.responses n) where
  start := by simp [Outside.called]
  next n := by
    simp only [handle, prepared, Prog.op_bind, Prog.run_call, Prog.run_pure, Outside.perform,
      Outside.called, rest_shift, List.range_succ, List.map_append, List.map_singleton,
      List.append_assoc, Nat.add_zero]

/-- Attempt after attempt sends the same mail. -/
theorem Email.repeats {cfg : Config} {unmarshal : List UInt8 → Except Error Payload} {task : Task}
    {p : Payload} (prepared : prepare unmarshal task = .ok p) (v : Outside) :
    Repeats (handle cfg unmarshal task) v (v.mailed (p.mail cfg))
      fun n => verdict p.recipient (v.mailEnds n) where
  start := by simp [Outside.mailed]
  next n := by
    simp only [handle, prepared, Prog.op_bind, Prog.run_call, Prog.run_pure, Outside.perform,
      Outside.mailed, rest_shift, List.replicate_succ', List.append_assoc, Nat.add_zero]

/-! ## The handlers a worker registers -/

/-- What the two handlers are built from. -/
structure HandlerSetup : Type where
  net : NetHTTP
  webhookPayload : List UInt8 → Except Error Webhook.Payload
  emailConfig : Email.Config
  emailPayload : List UInt8 → Except Error Email.Payload

/-- The registry of a worker. -/
def builtinRegistry : Registry :=
  ((Registry.mk fun _ => none).register ⟨"email"⟩).register ⟨"webhook"⟩

/-- `Handle` of a registered handler. -/
def HandlerSetup.handle (setup : HandlerSetup) (h : Handler) : Task → Handling :=
  if h.taskType = "webhook" then Webhook.handle setup.net setup.webhookPayload
  else Email.handle setup.emailConfig setup.emailPayload

end TaskFlow
