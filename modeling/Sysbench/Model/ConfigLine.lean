/-
The value-scanning loop of `read_config` (`sb_options.c`), with its pointers.

`scanValues` says which values a line has.  Here is the loop that finds them: `tmp` and
`optlen` move over the buffer that `fgets` has filled, and a NUL is written behind a value.
A step is one test of the loop the scanner is in, with what follows from it.
-/
import Sysbench.Model.Options

namespace Sysbench.Options

def nul : Char := '\x00'

/-- How the loop ends.  The last is an access outside `buf`. -/
inductive LineEnd where
  | nul
  | comment
  | unexpectedEol
  | outOfBounds

/-- The loop the scanner is in; `optlen` is of use in two of them. -/
inductive LinePhase where
  /-- `while (*tmp != '\0')` -/
  | outer
  /-- The search for the closing quote -/
  | quoted (qc : Char) (optlen : ℕ)
  /-- The search for a separator behind it -/
  | behind
  /-- The search for the end of a value without quotes -/
  | bare (optlen : ℕ)

/-- What is added to `tmp` for the test of a loop -/
def LinePhase.offset : LinePhase → ℕ
  | .outer | .behind => 0
  | .quoted _ optlen | .bare optlen => optlen

/-- The variables of `read_config`, and how often the body of the `while` loop was entered. -/
structure LineState where
  buf : Text
  tmp : ℕ
  phase : LinePhase
  values : List Text
  rounds : ℕ

namespace LineState

/-- Where the test of the loop looks: `tmp`, or `tmp + optlen`. -/
def cursor (s : LineState) : ℕ := s.tmp + s.phase.offset

/-- `add_value`, which copies the string at `tmp`; then `tmp` moves to where `next` is. -/
def addValue (s : LineState) (next : ℕ) (phase : LinePhase) : LineState :=
  { s with
    values := s.values ++ [(s.buf.drop s.tmp).takeWhile (· ≠ nul)]
    tmp := next
    phase := phase }

/-- `tmp[optlen++] = '\0'`, and the value in front of it is added. -/
def cut (s : LineState) (phase : LinePhase) : LineState :=
  { s with buf := s.buf.set s.cursor nul }.addValue (s.cursor + 1) phase

end LineState

/-- The test of a loop has found the NUL. -/
def atNul (s : LineState) : LineState ⊕ LineEnd × LineState :=
  match s.phase with
  | .outer => .inr (.nul, s)
  | .quoted _ _ => .inr (.unexpectedEol, s)
  | .behind => .inl { s with phase := .outer }
  | .bare _ => .inl (s.addValue s.cursor .outer)

/-- It has found another character. -/
def atChar (s : LineState) (c : Char) : LineState ⊕ LineEnd × LineState :=
  match s.phase with
  | .outer =>
    let s' := { s with rounds := s.rounds + 1 }
    if isSpace c then .inl { s' with tmp := s.tmp + 1 }
    else if c = '#' then .inr (.comment, s')
    else if c = '\'' ∨ c = '"' then .inl { s' with tmp := s.tmp + 1, phase := .quoted c 0 }
    else .inl { s' with phase := .bare 0 }
  | .quoted qc optlen =>
    if c = qc then .inl (s.cut .behind) else .inl { s with phase := .quoted qc (optlen + 1) }
  | .behind =>
    if c = ',' then .inl { s with tmp := s.tmp + 1, phase := .outer }
    else .inl { s with tmp := s.tmp + 1 }
  | .bare optlen =>
    if c = ',' ∨ isSpace c then .inl (s.cut .outer)
    else .inl { s with phase := .bare (optlen + 1) }

def lineStep (s : LineState) : LineState ⊕ LineEnd × LineState :=
  match s.buf[s.cursor]? with
  | none => .inr (.outOfBounds, s)
  | some c => if c = nul then atNul s else atChar s c

/-- What `read_config` does in front of the loop.  A line in which `strchr` finds no
`VALUE_DELIMITER` is skipped; otherwise the delimiter becomes the end of the name. -/
def startLine (buf : Text) : Option LineState :=
  let name := buf.takeWhile fun c => c ≠ '=' ∧ c ≠ nul
  if buf[name.length]? = some '=' then
    some {
      buf := buf.set name.length nul
      tmp := name.length + 1
      phase := .outer
      values := []
      rounds := 0 }
  else none

end Sysbench.Options
