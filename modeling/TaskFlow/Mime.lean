import TaskFlow.Effect.Lines

/-!
# The message of the email handler

`buildMIME` writes five header lines, an empty line and the body, with the sender,
the recipient, the subject and the body copied in as they are.  Strings are byte
strings.

`buildMIME_head_iff`: a reader finds those five lines and that body exactly when
the subject holds no line end.  A carriage return or a line feed alone does no
harm, not even at the end of the subject, before the line end that follows it.
-/

namespace TaskFlow

open Effect

namespace Email

def cr : UInt8 := 13

def lf : UInt8 := 10

def crlf : List UInt8 := [cr, lf]

/-- The bytes of an ASCII text. -/
def ascii (text : String) : List UInt8 :=
  text.toList.map fun c => UInt8.ofNat c.toNat

/-- `buildMIME`. -/
def buildMIME (sender recipient subject body : List UInt8) : List UInt8 :=
  ascii "From: " ++ sender ++ crlf ++
  ascii "To: " ++ recipient ++ crlf ++
  ascii "Subject: " ++ subject ++ crlf ++
  ascii "MIME-Version: 1.0" ++ crlf ++
  ascii "Content-Type: text/plain; charset=UTF-8" ++ crlf ++ crlf ++ body

/-- The header lines the message is meant to have. -/
def headerLines (sender recipient subject : List UInt8) : List (List UInt8) :=
  [ascii "From: " ++ sender, ascii "To: " ++ recipient, ascii "Subject: " ++ subject,
    ascii "MIME-Version: 1.0", ascii "Content-Type: text/plain; charset=UTF-8"]

variable {sender recipient subject body : List UInt8}

theorem buildMIME_eq : buildMIME sender recipient subject body =
    writeLines cr lf (headerLines sender recipient subject) ++ cr :: lf :: body := by
  simp [buildMIME, writeLines, headerLines, crlf]

theorem headerLines_nonempty :
    ∀ line ∈ headerLines sender recipient subject, line ≠ [] := by
  have names : ascii "From: " ≠ [] ∧ ascii "To: " ≠ [] ∧ ascii "Subject: " ≠ [] ∧
      ascii "MIME-Version: 1.0" ≠ [] ∧
      ascii "Content-Type: text/plain; charset=UTF-8" ≠ [] := by decide
  simp [headerLines, names]

/-- For a sender and a recipient without line feeds, only the subject can hold a
line end. -/
theorem headerLines_clear_iff (subject : List UInt8) (senderFree : lf ∉ sender)
    (recipientFree : lf ∉ recipient) :
    (∀ line ∈ headerLines sender recipient subject, ¬ crlf <:+: line) ↔ ¬ crlf <:+: subject := by
  constructor
  · intro clear inside
    refine clear (ascii "Subject: " ++ subject) (by simp [headerLines]) ?_
    exact inside.trans (List.suffix_append _ _).isInfix
  · intro clear line member
    simp only [headerLines, List.mem_cons, List.not_mem_nil, or_false] at member
    rcases member with rfl | rfl | rfl | rfl | rfl
    · exact not_infix_append (by decide) (not_infix_of_notMem senderFree)
    · exact not_infix_append (by decide) (not_infix_of_notMem recipientFree)
    · exact not_infix_append (by decide) clear
    · exact not_infix_of_notMem (by decide)
    · exact not_infix_of_notMem (by decide)

/-- With a sender and a recipient free of carriage returns and line feeds, the
message reads back as the five header lines and the body exactly when the subject
holds no line end. -/
theorem buildMIME_head_iff (sender recipient subject body : List UInt8)
    (senderFree : ∀ b ∈ sender, b ≠ cr ∧ b ≠ lf)
    (recipientFree : ∀ b ∈ recipient, b ≠ cr ∧ b ≠ lf) :
    readHead cr lf (buildMIME sender recipient subject body) =
        some (headerLines sender recipient subject, body) ↔
      ¬ crlf <:+: subject := by
  have differ : cr ≠ lf := by decide
  have clear := headerLines_clear_iff subject
    (fun member => (senderFree lf member).2 rfl) (fun member => (recipientFree lf member).2 rfl)
  rw [readHead_eq_some_iff differ, ← clear]
  constructor
  · rintro ⟨-, lines⟩ line member
    exact (lines line member).2
  · intro lines
    exact ⟨buildMIME_eq, fun line member => ⟨headerLines_nonempty line member, lines line member⟩⟩

theorem unbroken_of_all {bytes : List UInt8}
    (all : bytes.all (fun b => b != cr && b != lf) = true) : ∀ b ∈ bytes, b ≠ cr ∧ b ≠ lf := by
  simpa using all

/-- A subject with a carriage return at its end. -/
theorem buildMIME_head_trailing_cr :
    readHead cr lf (buildMIME (ascii "a@b.c") (ascii "d@e.f") (ascii "hi\r") (ascii "text")) =
      some (headerLines (ascii "a@b.c") (ascii "d@e.f") (ascii "hi\r"), ascii "text") :=
  (buildMIME_head_iff (ascii "a@b.c") (ascii "d@e.f") (ascii "hi\r") (ascii "text")
    (unbroken_of_all (by decide)) (unbroken_of_all (by decide))).mpr (by decide)

/-- What a reader finds when the subject goes on with a line of its own. -/
theorem readHead_second_line :
    readHead cr lf (buildMIME (ascii "a@b.c") (ascii "d@e.f") (ascii "hi\r\nBcc: x@y.z")
        (ascii "text")) =
      some ([ascii "From: a@b.c", ascii "To: d@e.f", ascii "Subject: hi", ascii "Bcc: x@y.z",
        ascii "MIME-Version: 1.0", ascii "Content-Type: text/plain; charset=UTF-8"],
        ascii "text") :=
  (readHead_eq_some_iff (by decide)).mpr ⟨by decide, by decide⟩

/-- A line end in the subject adds a header of the payload's choice: the message
does not read back as its five header lines, but with a sixth one. -/
theorem buildMIME_forged :
    (∀ b ∈ ascii "a@b.c", b ≠ cr ∧ b ≠ lf) ∧ (∀ b ∈ ascii "d@e.f", b ≠ cr ∧ b ≠ lf) ∧
    readHead cr lf (buildMIME (ascii "a@b.c") (ascii "d@e.f") (ascii "hi\r\nBcc: x@y.z")
        (ascii "text")) ≠
      some (headerLines (ascii "a@b.c") (ascii "d@e.f") (ascii "hi\r\nBcc: x@y.z"),
        ascii "text") := by
  refine ⟨unbroken_of_all (by decide), unbroken_of_all (by decide), ?_⟩
  rw [readHead_second_line]
  decide

end Email

end TaskFlow
