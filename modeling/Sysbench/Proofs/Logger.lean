/-
What the logger prints, and where.

A line goes into the buffer in two pieces.  Whatever length the first returns, it is cut to the
room there is, so the second never leaves the buffer, and one of them ends it
(`printLine_of_le`).  The other functions rely on a length that is not cut.

The handler holds back a text that it has printed last.  Each message is printed, or part of a
count that is printed, or lost with a count that is not: `loss` adds up the last kind, for the
numbers of repetitions that the texts have.
-/
import Mathlib.Algebra.Order.Ring.Int
import Sysbench.Lib.Runs
import Sysbench.Model.Logger

namespace Sysbench.Logger

open List Runs

/-! ### Printing into the buffers -/

section Buffers

variable {buf buf' : Option (List UInt8)} {off size : ℤ} {n : ℕ} {e stamp suffix : Expansion}
  {bytes : List UInt8} {failure : Option ℕ}

/-- The format could be expanded. -/
def Expansion.Printed : Expansion → Prop
  | .text _ => True
  | .failed _ => False

theorem snprintf_bounds (h : snprintf buf off size e = .ok buf') : 0 ≤ off ∧ 0 ≤ size := by
  by_contra hc
  unfold snprintf at h
  rw [if_neg fun hfit => hc ⟨hfit.1, hfit.2.1⟩] at h
  cases h

theorem snprintf_of_le (buf : Option (List UInt8)) (e : Expansion) (hoff : 0 ≤ off)
    (hsize : 0 ≤ size) (hfit : off + size ≤ textBufferSize) :
    ∃ buf', snprintf buf off size e = .ok buf' ∧ (0 < size → (buf'.isSome ↔ e.Printed)) ∧
      (size = 0 → buf' = buf) := by
  unfold snprintf
  rw [if_pos ⟨hoff, hsize, hfit⟩]
  by_cases hzero : size = 0
  · exact ⟨buf, if_pos hzero, fun hpos => absurd hzero hpos.ne', fun _ => rfl⟩
  · rw [if_neg hzero]
    cases e with
    | text bytes => exact ⟨_, rfl, fun _ => iff_of_true rfl trivial, fun hc => absurd hc hzero⟩
    | failed code => exact ⟨none, rfl, fun _ => iff_of_false nofun nofun, fun hc => absurd hc hzero⟩

/-- A line that begins in the buffer ends there. -/
theorem printLine_of_le (buf : Option (List UInt8)) (e : Expansion) (hle : n ≤ textBufferSize) :
    ∃ buf', printLine buf n e = .ok buf' ∧ (n < textBufferSize → (buf'.isSome ↔ e.Printed)) ∧
      (n = textBufferSize → buf' = buf) := by
  set k : ℤ := if e.result < 0 ∨ textBufferSize - n ≤ e.result then textBufferSize - n
    else e.result with hk
  have hbounds : 0 ≤ k ∧ k ≤ textBufferSize - n := by
    rw [hk]
    split <;> omega
  obtain ⟨buf₁, h₁, hprinted₁, hsame₁⟩ := snprintf_of_le buf e (Int.natCast_nonneg n)
    (Int.sub_nonneg.mpr (Int.ofNat_le.mpr hle)) (by omega)
  obtain ⟨buf₂, h₂, hprinted₂, hsame₂⟩ := snprintf_of_le buf₁ (.text [10])
    (show 0 ≤ n + k by omega) (Int.sub_nonneg.mpr hbounds.2) (by omega)
  refine ⟨buf₂, ?_, fun hlt => ?_, fun hfull => ?_⟩
  · rw [printLine, h₁]
    exact h₂
  · by_cases hroom : k = textBufferSize - n
    · rw [hsame₂ (by omega)]
      exact hprinted₁ (by omega)
    · refine iff_of_true ((hprinted₂ (by omega)).mpr trivial) ?_
      cases e with
      | text bytes => trivial
      | failed code => exact hroom (if_pos (.inl (show -1 - (code : ℤ) < 0 by omega)))
  · rw [hsame₂ (by omega), hsame₁ (by omega)]

/-- What is handed to the handlers has been printed inside the buffer and ends with a NUL. -/
def Safe (printed : Except LogFault (Option (List UInt8))) : Prop :=
  ∃ text, printed = .ok (some text)

theorem logText_safe_iff : Safe (logText e) ↔ e.Printed := by
  obtain ⟨buf, hbuf, hprinted, -⟩ := printLine_of_le none e (n := 0) (Nat.zero_le _)
  have hcall : logText e = .ok buf := hbuf
  rw [← hprinted (by decide), Option.isSome_iff_exists, Safe, hcall]
  simp

/-- The first piece in a buffer. -/
theorem snprintf_first (e : Expansion) :
    ∃ buf, snprintf none 0 textBufferSize e = .ok buf ∧ (buf.isSome ↔ e.Printed) := by
  obtain ⟨buf, hbuf, hprinted, -⟩ := snprintf_of_le none e le_rfl
    (Int.natCast_nonneg textBufferSize) (zero_add _).le
  exact ⟨buf, hbuf, hprinted (by decide)⟩

theorem logTimestamp_safe_iff :
    Safe (logTimestamp stamp e) ↔ ∃ s, stamp = .text s ∧ s.length ≤ textBufferSize ∧
      (e.Printed ∨ s.length = textBufferSize) := by
  obtain ⟨buf₁, h₁, hprinted₁⟩ := snprintf_first stamp
  have hcall : logTimestamp stamp e = printLine buf₁ stamp.result e := by
    rw [logTimestamp, h₁]
    rfl
  rw [hcall]
  constructor
  · rintro ⟨text, hline⟩
    obtain ⟨_, h₂, -⟩ := bind_eq_ok.mp hline
    obtain ⟨hoff, hsize⟩ := snprintf_bounds h₂
    cases stamp with
    | failed code =>
      have hneg : ¬0 ≤ -1 - (code : ℤ) := by omega
      exact absurd hoff hneg
    | text s =>
      have hle : s.length ≤ textBufferSize := Int.ofNat_le.mp (Int.sub_nonneg.mp hsize)
      obtain ⟨buf, hbuf, hprinted, -⟩ := printLine_of_le buf₁ e hle
      obtain rfl : buf = some text := Except.ok.inj (hbuf.symm.trans hline)
      refine ⟨s, rfl, hle, or_iff_not_imp_right.mpr fun hne => ?_⟩
      exact (hprinted (lt_of_le_of_ne hle hne)).mp rfl
  · rintro ⟨s, rfl, hle, hcond⟩
    obtain ⟨buf, hbuf, hprinted, hsame⟩ := printLine_of_le buf₁ e hle
    have hsome : buf.isSome := by
      by_cases hfull : s.length = textBufferSize
      · rw [hsame hfull]
        exact hprinted₁.mpr trivial
      · exact (hprinted (lt_of_le_of_ne hle hfull)).mpr (hcond.resolve_right hfull)
    obtain ⟨text, rfl⟩ := Option.isSome_iff_exists.mp hsome
    exact ⟨text, hbuf⟩

/-- `log_errno` returns early, or what it hands on is safe. -/
def ErrnoSafe (printed : Except LogFault (Option (Option (List UInt8)))) : Prop :=
  printed = .ok none ∨ ∃ text, printed = .ok (some (some text))

/-- With a text that is not as long as the buffer, the call goes on. -/
theorem logErrno_eq (suffix : Expansion) (failure : Option ℕ)
    (hne : bytes.length ≠ textBufferSize) :
    ∃ buf, logErrno (.text bytes) suffix failure
      = snprintf buf bytes.length (textBufferSize - bytes.length) suffix >>= fun buf =>
        match buf with
        | none => .error .unterminated
        | some text =>
          logText (failure.elim (.text text) .failed) >>= fun buf => .ok (some buf) := by
  obtain ⟨buf, hbuf, -⟩ := snprintf_first (.text bytes)
  have hgo : ¬((bytes.length : ℤ) < 0 ∨ (bytes.length : ℤ) = textBufferSize) := by omega
  refine ⟨buf, ?_⟩
  rw [logErrno, hbuf]
  exact if_neg hgo

theorem not_errnoSafe_of_long (h : textBufferSize < bytes.length) :
    ¬ErrnoSafe (logErrno (.text bytes) suffix failure) := by
  obtain ⟨buf, hcall⟩ := logErrno_eq suffix failure h.ne'
  have hok : ∀ r, logErrno (.text bytes) suffix failure ≠ .ok r := by
    intro r hr
    rw [hcall] at hr
    obtain ⟨_, h₂, -⟩ := bind_eq_ok.mp hr
    have hroom := Int.ofNat_le.mp (Int.sub_nonneg.mp (snprintf_bounds h₂).2)
    omega
  rintro (hr | ⟨text, hr⟩)
  · exact hok _ hr
  · exact hok _ hr

theorem errnoSafe_short_iff (h : bytes.length < textBufferSize) :
    ErrnoSafe (logErrno (.text bytes) suffix failure) ↔ suffix.Printed ∧ failure = none := by
  obtain ⟨buf, hcall⟩ := logErrno_eq suffix failure h.ne
  obtain ⟨buf₂, h₂, hprinted, -⟩ := snprintf_of_le buf suffix (Int.natCast_nonneg bytes.length)
    (Int.sub_nonneg.mpr (Int.ofNat_le.mpr h.le)) (by omega)
  rw [hcall, h₂, ← hprinted (by omega)]
  cases buf₂ with
  | none =>
    refine iff_of_false ?_ (fun hc => nomatch hc.1)
    rintro (hr | ⟨text, hr⟩) <;> cases hr
  | some text =>
    cases failure with
    | none =>
      obtain ⟨line, hline⟩ := (logText_safe_iff (e := .text text)).mpr trivial
      refine iff_of_true (.inr ⟨line, ?_⟩) ⟨rfl, rfl⟩
      exact congrArg (· >>= fun buf => Except.ok (some buf)) hline
    | some code =>
      refine iff_of_false ?_ (fun hc => nomatch hc.2)
      show ¬ErrnoSafe (logText (.failed code) >>= fun buf => .ok (some buf))
      rintro (hr | ⟨line, hr⟩)
      · obtain ⟨_, -, hr⟩ := bind_eq_ok.mp hr
        cases hr
      · obtain ⟨_, hline, hr⟩ := bind_eq_ok.mp hr
        cases hr
        exact logText_safe_iff.mp ⟨line, hline⟩

/-- **Where the logger prints.**  `log_text` stays in its buffer and ends the text if and only if
its format can be expanded; `log_timestamp` if and only if its time stamp can and is not longer
than the buffer, and the message can or there is no room left for it; and `log_errno` if and only if
the message is not longer than the buffer and, where there is room behind it, what it then prints
can be expanded. -/
theorem log_buffers_iff (e stamp suffix : Expansion) (failure : Option ℕ) :
    (Safe (logText e) ↔ e.Printed) ∧
    (Safe (logTimestamp stamp e) ↔ ∃ s, stamp = .text s ∧ s.length ≤ textBufferSize ∧
      (e.Printed ∨ s.length = textBufferSize)) ∧
    (ErrnoSafe (logErrno e suffix failure) ↔ ∀ bytes, e = .text bytes →
      bytes.length = textBufferSize ∨
        bytes.length < textBufferSize ∧ suffix.Printed ∧ failure = none) := by
  refine ⟨logText_safe_iff, logTimestamp_safe_iff, ?_⟩
  obtain ⟨buf, hbuf, -⟩ := snprintf_first e
  cases e with
  | failed code =>
    have hneg : -1 - (code : ℤ) < 0 := by omega
    refine iff_of_true (.inl ?_) nofun
    rw [logErrno, hbuf]
    exact if_pos (.inl hneg)
  | text bytes =>
    have hall : (∀ bytes', Expansion.text bytes = .text bytes' → bytes'.length = textBufferSize ∨
        bytes'.length < textBufferSize ∧ suffix.Printed ∧ failure = none) ↔
        (bytes.length = textBufferSize ∨
          bytes.length < textBufferSize ∧ suffix.Printed ∧ failure = none) := by simp
    rw [hall]
    rcases Nat.lt_trichotomy bytes.length textBufferSize with hlt | heq | hgt
    · rw [errnoSafe_short_iff hlt]
      simp [hlt, hlt.ne]
    · refine iff_of_true (.inl ?_) (.inl heq)
      rw [logErrno, hbuf]
      exact if_pos (.inr (congrArg Nat.cast heq))
    · refine iff_of_false (not_errnoSafe_of_long hgt) ?_
      omega

/-- A message of 5000 bytes: the error behind it is printed outside the buffer. -/
theorem long_message_leaves_buffer :
    ¬ErrnoSafe (logErrno (.text (replicate 5000 97)) (.text []) none) :=
  not_errnoSafe_of_long (by rw [length_replicate]; decide)

end Buffers

/-! ### The text handler -/

section Handler

variable {verbosity : ℕ} {msgs : List LogMsg}

/-- The messages that are to be seen. -/
def eligible (verbosity : ℕ) (msgs : List LogMsg) : List LogMsg :=
  msgs.filter (·.priority.level ≤ verbosity)

/-- The texts that the handler compares. -/
def comparedTexts (verbosity : ℕ) (msgs : List LogMsg) : List (List UInt8) :=
  ((eligible verbosity msgs).filter (!·.allowDuplicates)).map (·.text)

/-- How often a text is repeated, for each text that is not itself a repetition.  So far `last`
has been repeated `r` times. -/
def repetitions (last : List UInt8) (r : ℕ) : List (List UInt8) → List ℕ
  | [] => [r]
  | t :: ts => if last = t then repetitions last (r + 1) ts else r :: repetitions t 0 ts

def LogLine.render (msg : LogMsg) : LogLine := .message (getMsgPrefix msg.priority) msg.text

def LogLine.isMessage : LogLine → Bool
  | .message _ _ => true
  | .repeated _ => false

/-- The messages a line stands for. -/
def LogLine.count : LogLine → ℕ
  | .message _ _ => 1
  | .repeated count => count.toNat

/-- The messages that are held back and never counted. -/
def loss : List ℕ → ℕ
  | [] => 0
  | [r] => r
  | r :: rs => (r - r % 2 ^ 32) + loss rs

/-- Each message is printed behind its own label or counted in a line. -/
structure Accounts (verbosity : ℕ) (msgs : List LogMsg) : Prop where
  printed : ((logLines verbosity textHandlerInit msgs).filter (·.isMessage)).Sublist
    ((eligible verbosity msgs).map LogLine.render)
  counted : ((logLines verbosity textHandlerInit msgs).map (·.count)).sum
    = (eligible verbosity msgs).length

theorem printed_sublist (msgs : List LogMsg) :
    ∀ h, ((logLines verbosity h msgs).filter (·.isMessage)).Sublist
      ((eligible verbosity msgs).map LogLine.render) := by
  induction msgs with
  | nil => exact fun _ => Sublist.slnil
  | cons msg msgs ih =>
    intro h
    have hstep : ((textHandlerProcess verbosity h msg).2.filter (·.isMessage)).Sublist
        ((eligible verbosity [msg]).map LogLine.render) := by
      unfold textHandlerProcess eligible
      by_cases hlow : verbosity < msg.priority.level
      · rw [if_pos hlow]
        exact nil_sublist _
      · have hseen : msg.priority.level ≤ verbosity := by omega
        rw [if_neg hlow, filter_cons_of_pos (by simpa using hseen)]
        split
        · exact Sublist.refl _
        · split
          · exact nil_sublist _
          · split <;> exact Sublist.refl _
    have hsplit : eligible verbosity (msg :: msgs)
        = eligible verbosity [msg] ++ eligible verbosity msgs := filter_append [msg] msgs
    rw [logLines, filter_append, hsplit, map_append]
    exact hstep.append (ih _)

theorem repetitions_ne_nil (last : List UInt8) (r : ℕ) (ts : List (List UInt8)) :
    repetitions last r ts ≠ [] := by
  induction ts generalizing last r with
  | nil => exact cons_ne_nil _ _
  | cons t ts ih =>
    rw [repetitions]
    split
    · exact ih _ _
    · exact cons_ne_nil _ _

theorem loss_cons (r : ℕ) {rs : List ℕ} (hrs : rs ≠ []) :
    loss (r :: rs) = (r - r % 2 ^ 32) + loss rs := by
  cases rs with
  | nil => exact absurd rfl hrs
  | cons r' rs => rfl

/-- What is printed, and what is lost, with `r` repetitions pending. -/
theorem sum_count_add_loss (verbosity : ℕ) (msgs : List LogMsg) :
    ∀ (last : List UInt8) (r : ℕ),
      ((logLines verbosity ⟨.ofNat r, last⟩ msgs).map (·.count)).sum
          + loss (repetitions last r (comparedTexts verbosity msgs))
        = (eligible verbosity msgs).length + r := by
  induction msgs with
  | nil =>
    intro last r
    rfl
  | cons msg msgs ih =>
    intro last r
    by_cases hlow : verbosity < msg.priority.level
    · have hel : eligible verbosity (msg :: msgs) = eligible verbosity msgs :=
        filter_cons_of_neg (by simpa using hlow)
      have hstep : textHandlerProcess verbosity ⟨.ofNat r, last⟩ msg = (⟨.ofNat r, last⟩, []) :=
        if_pos hlow
      rw [logLines, hstep, comparedTexts, hel]
      exact ih last r
    have hel : eligible verbosity (msg :: msgs) = msg :: eligible verbosity msgs :=
      filter_cons_of_pos (by simpa using hlow)
    rw [logLines, textHandlerProcess, if_neg hlow, comparedTexts, hel, length_cons]
    cases hdup : msg.allowDuplicates with
    | true =>
      have hrest := ih last r
      rw [filter_cons_of_neg (by simpa using hdup), ← comparedTexts, if_pos rfl, singleton_append,
        map_cons, sum_cons, LogLine.count]
      dsimp only
      omega
    | false =>
      rw [filter_cons_of_pos (by simpa using hdup), map_cons, ← comparedTexts, repetitions,
        if_neg Bool.false_ne_true]
      by_cases hsame : last = msg.text
      · have hrest := ih last (r + 1)
        rw [UInt32.ofNat_add] at hrest
        rw [if_pos hsame, if_pos hsame]
        exact hrest.trans (by omega)
      · have hrest : ((logLines verbosity ⟨0, msg.text⟩ msgs).map (·.count)).sum
            + loss (repetitions msg.text 0 (comparedTexts verbosity msgs))
            = (eligible verbosity msgs).length := ih msg.text 0
        have hcount : (((if 0 < UInt32.ofNat r then [.repeated (.ofNat r), LogLine.render msg]
            else [LogLine.render msg]) : List LogLine).map (·.count)).sum = r % 2 ^ 32 + 1 := by
          have hmod : (UInt32.ofNat r).toNat = r % 2 ^ 32 := UInt32.toNat_ofNat'
          split
          · simp [LogLine.count, LogLine.render]
          · rename_i hzero
            rw [UInt32.lt_iff_toNat_lt, hmod, UInt32.toNat_zero] at hzero
            show 1 = r % 2 ^ 32 + 1
            omega
        rw [if_neg hsame, if_neg hsame, map_append, sum_append,
          loss_cons r (repetitions_ne_nil _ _ _)]
        refine (congrArg (· + _ + _) hcount).trans ?_
        dsimp only
        omega

theorem loss_eq_zero_iff {rs : List ℕ} (hrs : rs ≠ []) :
    loss rs = 0 ↔ (∀ r ∈ rs, r < 2 ^ 32) ∧ rs.getLast? = some 0 := by
  induction rs with
  | nil => exact absurd rfl hrs
  | cons r rs ih =>
    cases rs with
    | nil =>
      rw [loss, forall_mem_singleton, getLast?_singleton, Option.some.injEq]
      omega
    | cons r' rs =>
      have hne : r' :: rs ≠ [] := cons_ne_nil _ _
      have hexact : r - r % 2 ^ 32 = 0 ↔ r < 2 ^ 32 := by omega
      rw [loss_cons r hne, Nat.add_eq_zero_iff, hexact, ih hne, forall_mem_cons (a := r),
        getLast?_cons_cons, and_assoc]

/-- **What the log accounts for.**  Each message is printed or counted if and only if no text is
repeated `2 ^ 32` times or more in a row, and the last text is not a repetition. -/
theorem log_accounts_iff (verbosity : ℕ) (msgs : List LogMsg) :
    Accounts verbosity msgs ↔
      (∀ r ∈ repetitions [] 0 (comparedTexts verbosity msgs), r < 2 ^ 32) ∧
      (repetitions [] 0 (comparedTexts verbosity msgs)).getLast? = some 0 := by
  have hsum : ((logLines verbosity textHandlerInit msgs).map (·.count)).sum
      + loss (repetitions [] 0 (comparedTexts verbosity msgs)) = (eligible verbosity msgs).length :=
    sum_count_add_loss verbosity msgs [] 0
  rw [← loss_eq_zero_iff (repetitions_ne_nil _ _ _)]
  constructor
  · intro h
    rw [h.counted] at hsum
    exact Nat.add_eq_left.mp hsum
  · intro hloss
    rw [hloss] at hsum
    exact ⟨printed_sublist msgs _, hsum⟩

/-- A message logged twice is printed once, and nothing says so. -/
theorem repeated_message_is_lost :
    ¬Accounts 3 [⟨.notice, [104, 105, 10], false⟩, ⟨.notice, [104, 105, 10], false⟩] := by
  intro h
  exact absurd h.counted (by decide)

end Handler

end Sysbench.Logger
