/-
Text messages: `sb_logger.c`.

`log_text`, `log_timestamp` and `log_errno` print into buffers on the stack and hand the text to
`text_handler_process`, which prints it unless it is the text it has printed last.

A buffer is the string it holds; none if there need not be a NUL in it.  What the `printf`
functions make of their arguments is given: a text, or a failure, after which the bytes there
was room for are unspecified.
-/
import Mathlib.Data.Int.Notation
import Mathlib.Data.Nat.Notation

namespace Sysbench.Logger

/-! ### Printing into the buffers -/

def textBufferSize : ℕ := 4096

inductive Expansion where
  | text (bytes : List UInt8)
  | failed (code : ℕ)

/-- What `snprintf` returns -/
def Expansion.result : Expansion → ℤ
  | .text bytes => bytes.length
  | .failed code => -1 - code

inductive LogFault where
  /-- A size that is negative or larger than the space left, and a write outside the buffer -/
  | badSize
  /-- `%s` for a buffer without a NUL -/
  | unterminated

/-- `snprintf(buf + off, size, …)`, and the buffer behind it.  In front of `off` is what was printed
before. -/
def snprintf (buf : Option (List UInt8)) (off size : ℤ) (e : Expansion) :
    Except LogFault (Option (List UInt8)) :=
  if 0 ≤ off ∧ 0 ≤ size ∧ off + size ≤ textBufferSize then
    if size = 0 then .ok buf
    else
      match e with
      | .text bytes => .ok (some ((buf.getD []).take off.toNat ++ bytes.take (size.toNat - 1)))
      | .failed _ => .ok none
  else .error .badSize

/-- The message and a line feed, from `clen` on: the end of `log_text` and `log_timestamp` -/
def printLine (buf : Option (List UInt8)) (clen : ℤ) (e : Expansion) :
    Except LogFault (Option (List UInt8)) := do
  let maxlen := textBufferSize - clen
  let buf ← snprintf buf clen maxlen e
  let n := if e.result < 0 ∨ maxlen ≤ e.result then maxlen else e.result
  snprintf buf (clen + n) (maxlen - n) (.text [10])

/-- `log_text`, up to the text for the handlers -/
def logText (e : Expansion) : Except LogFault (Option (List UInt8)) := printLine none 0 e

def logTimestamp (stamp e : Expansion) : Except LogFault (Option (List UInt8)) := do
  let buf ← snprintf none 0 textBufferSize stamp
  printLine buf stamp.result e

/-- `log_errno`, with the code should the `vsnprintf` of `log_text` fail.  None if it returns
without a message. -/
def logErrno (e suffix : Expansion) (failure : Option ℕ) :
    Except LogFault (Option (Option (List UInt8))) := do
  let buf ← snprintf none 0 textBufferSize e
  if e.result < 0 ∨ e.result = textBufferSize then pure none
  else
    match ← snprintf buf e.result (textBufferSize - e.result) suffix with
    | none => .error .unterminated
    | some text =>
      let buf ← logText (failure.elim (.text text) .failed)
      pure (some buf)

/-! ### The text handler -/

inductive LogPriority where
  | fatal
  | alert
  | warning
  | notice
  | info
  | debug
  deriving DecidableEq

def LogPriority.level : LogPriority → ℕ
  | .fatal => 0
  | .alert => 1
  | .warning => 2
  | .notice => 3
  | .info => 4
  | .debug => 5

def getMsgPrefix : LogPriority → String
  | .fatal => "FATAL: "
  | .alert => "ALERT: "
  | .warning => "WARNING: "
  | .debug => "DEBUG: "
  | .notice | .info => ""

/-- `log_msg_text_t`; `log_timestamp` allows duplicates, `log_text` does not. -/
structure LogMsg where
  priority : LogPriority
  text : List UInt8
  allowDuplicates : Bool

/-- A `printf` of the handler: a text behind its label, or `(last message repeated %u times)`. -/
inductive LogLine where
  | message (label : String) (text : List UInt8)
  | repeated (count : UInt32)
  deriving DecidableEq

/-- `text_cnt` and `text_buf` -/
structure TextHandler where
  textCnt : UInt32
  textBuf : List UInt8

def textHandlerInit : TextHandler where
  textCnt := 0
  textBuf := []

def textHandlerProcess (verbosity : ℕ) (h : TextHandler) (msg : LogMsg) :
    TextHandler × List LogLine :=
  if verbosity < msg.priority.level then (h, [])
  else
    let line := .message (getMsgPrefix msg.priority) msg.text
    if msg.allowDuplicates then (h, [line])
    else if h.textBuf = msg.text then ({ h with textCnt := h.textCnt + 1 }, [])
    else
      ({ textCnt := 0, textBuf := msg.text },
        if 0 < h.textCnt then [.repeated h.textCnt, line] else [line])

/-- `log_done`: the text handler has no `done`. -/
def logDone (_ : TextHandler) : List LogLine := []

/-- Messages in a row and then `log_done`: all that is printed -/
def logLines (verbosity : ℕ) : TextHandler → List LogMsg → List LogLine
  | h, [] => logDone h
  | h, msg :: msgs =>
    (textHandlerProcess verbosity h msg).2 ++
      logLines verbosity (textHandlerProcess verbosity h msg).1 msgs

end Sysbench.Logger
