/-
String parameters stay in their buffer, as long as the templates do.

`sql_param.set` copies no more than the buffer holds.  `sb_rand_str` writes as many bytes as the
template has before its first NUL, so a longer template is written behind the end of the buffer,
and one with a NUL inside leaves the bytes from there on as they were, while the length counts
them.  `string_param_iff` says that nothing else goes wrong.
-/
import Sysbench.Model.StringParams

namespace Sysbench.Bind

open List CMemory Runs

/-! ### Expansions -/

section Expansions

variable (uniform : Uniform)

/-- A byte of the template may become `b`. -/
def ByteExpands (c b : UInt8) : Prop :=
  if c = '#'.toUInt8 then ∃ v ∈ uniform '0'.val '9'.val, b = v.toUInt8
  else if c = '@'.toUInt8 then ∃ v ∈ uniform 'a'.val 'z'.val, b = v.toUInt8
  else b = c

/-- `text` is an expansion of the template: a number of `sb_rand_uniform('0', '9')` for every `#`,
one of `sb_rand_uniform('a', 'z')` for every `@`, and every other byte itself. -/
def Expands (fmt text : Bytes) : Prop :=
  List.Forall₂ (ByteExpands uniform) fmt text

variable {uniform}

/-- Behind a common expansion, the rest decides. -/
theorem expands_append_iff {a b c d : Bytes} (h : Expands uniform a b) :
    Expands uniform (a ++ c) (b ++ d) ↔ Expands uniform c d := by
  unfold Expands at h ⊢
  induction h with
  | nil => exact Iff.rfl
  | cons hhead _ ih => simpa [hhead] using ih

theorem randStrByte_expands (draw : ∀ a b, uniform a b) (c : UInt8) :
    ByteExpands uniform c (randStrByte draw c) := by
  unfold randStrByte ByteExpands
  by_cases hdigit : c = '#'.toUInt8
  · simp only [if_pos hdigit]
    exact ⟨_, (draw '0'.val '9'.val).property, rfl⟩
  · by_cases hletter : c = '@'.toUInt8
    · simp only [if_neg hdigit, if_pos hletter]
      exact ⟨_, (draw 'a'.val 'z'.val).property, rfl⟩
    · simp only [if_neg hdigit, if_neg hletter]

end Expansions

variable {uniform : Uniform} {p : SqlParam} {draws : ℕ → ∀ a b, uniform a b}

/-! ### Calls -/

/-- The first `data_len` bytes of a character buffer -/
def SqlParam.text (p : SqlParam) : Option Bytes :=
  match p.buffer with
  | .varchar mem => some (mem.take p.dataLen)
  | _ => none

/-- What a call is to leave.  That it returns says that it kept to the buffer. -/
def CallRight (p : SqlParam) (c : StringCall uniform) (result : SqlParam × Bool) : Prop :=
  result.1.maxLen = p.maxLen ∧ result.1.dataLen ≤ p.maxLen ∧
    ∃ text, result.1.text = some text ∧
      match c with
      | .set value => text = value.take p.maxLen
      | .setRandStr fmt _ => Expands uniform (fmt.take p.maxLen) text

/-- A template fits: what stands before its first NUL fits the buffer, and from there on the
buffer already holds an expansion of it. -/
def Fits (p : SqlParam) : StringCall uniform → Prop
  | .set _ => True
  | .setRandStr fmt _ => (cstr fmt).length ≤ p.maxLen ∧ ∀ mem, p.buffer = .varchar mem →
      Expands uniform ((fmt.take p.maxLen).drop (cstr fmt).length)
        ((mem.take fmt.length).drop (cstr fmt).length)

theorem fits_iff_of_no_nul {fmt : Bytes} (hnul : (0 : UInt8) ∉ fmt)
    (draws : ℕ → ∀ a b, uniform a b) :
    Fits p (.setRandStr fmt draws) ↔ fmt.length ≤ p.maxLen := by
  simp only [Fits, cstr_of_no_nul hnul]
  constructor
  · exact And.left
  · intro hle
    refine ⟨hle, ?_⟩
    intro mem _
    rw [drop_eq_nil_of_le (by simp), drop_eq_nil_of_le (by simp)]
    exact List.Forall₂.nil

/-- The parameter is one for strings. -/
def HasChars (p : SqlParam) : Prop :=
  ∃ mem, p.buffer = .varchar mem

theorem set_ok {mem : Bytes} (hp : p.buffer = .varchar mem) (value : Bytes) :
    ∃ p', p.set (.string value) = (p', true) ∧ p'.maxLen = p.maxLen ∧
      p'.dataLen = copiedLen p.maxLen value.length ∧
      p'.buffer = .varchar (copyInto mem value (copiedLen p.maxLen value.length)) := by
  obtain ⟨⟨buffer, dataLen, maxLen, isNull⟩, sized⟩ := p
  cases hp
  exact ⟨_, rfl, rfl, rfl, rfl⟩

theorem copiedLen_eq_min (maxLen len : ℕ) : copiedLen maxLen len = min maxLen len := by
  unfold copiedLen
  split <;> omega

theorem set_right (uniform : Uniform) (hp : HasChars p) (value : Bytes) :
    ∃ p', p.set (.string value) = (p', true) ∧ HasChars p' ∧
      CallRight p (.set value : StringCall uniform) (p', true) := by
  obtain ⟨mem, hp⟩ := hp
  obtain ⟨p', hset, hmax, hlen, hbuffer⟩ := set_ok hp value
  have hle := copiedLen_le p.maxLen value.length
  have htext : (copyInto mem value (copiedLen p.maxLen value.length)).take p'.dataLen
      = value.take p.maxLen := by
    rw [hlen, copyInto, take_left' (by rw [length_take]; omega), copiedLen_eq_min,
      ← take_take]
    simp
  exact ⟨p', hset, ⟨_, hbuffer⟩, hmax, hlen ▸ hle.2, _, by rw [SqlParam.text, hbuffer], htext⟩

/-- `set_rand_str` returns where `sb_rand_str` does, with what that has written. -/
theorem setRandStr_cases {mem : Bytes} (hp : p.buffer = .varchar mem) (fmt : Bytes)
    (draws : ℕ → ∀ a b, uniform a b) :
    (∃ e, sbRandStr draws fmt mem = .error e ∧ p.setRandStr fmt draws = .error e) ∨
      ∃ mem' p', sbRandStr draws fmt mem = .ok mem' ∧ p.setRandStr fmt draws = .ok (p', true) ∧
        p'.maxLen = p.maxLen ∧ p'.dataLen = copiedLen p.maxLen fmt.length ∧
        p'.buffer = .varchar mem' := by
  obtain ⟨⟨buffer, dataLen, maxLen, isNull⟩, sized⟩ := p
  cases hp
  simp only [SqlParam.setRandStr]
  split
  · rename_i e hfault
    exact .inl ⟨e, hfault, rfl⟩
  · rename_i mem' hmem
    exact .inr ⟨mem', _, hmem, rfl, rfl, rfl, rfl⟩

theorem setRandStr_error {mem fmt : Bytes}
    {e : RandStrFault} (hp : p.buffer = .varchar mem) (hstr : sbRandStr draws fmt mem = .error e) :
    p.setRandStr fmt draws = .error e := by
  obtain ⟨e', he, hset⟩ | ⟨mem', p', hmem, -⟩ := setRandStr_cases hp fmt draws
  · cases hstr.symm.trans he
    exact hset
  · cases hstr.symm.trans hmem

theorem call_hasChars {p p' : SqlParam} {c : StringCall uniform} {r : Bool} (hp : HasChars p)
    (h : p.call c = .ok (p', r)) : HasChars p' := by
  cases c with
  | set value =>
    obtain ⟨p₁, hset, hchars, -⟩ := set_right uniform hp value
    cases h.symm.trans (congrArg Except.ok hset)
    exact hchars
  | setRandStr fmt draws =>
    obtain ⟨mem, hp⟩ := hp
    have hset : p.setRandStr fmt draws = .ok (p', r) := h
    obtain ⟨e, -, hset₁⟩ | ⟨mem', p₁, -, hset₁, -, -, hbuffer⟩ := setRandStr_cases hp fmt draws
    · cases hset₁.symm.trans hset
    · cases hset₁.symm.trans hset
      exact ⟨mem', hbuffer⟩

/-! ### The loop -/

theorem cstr_cons_of_ne {c : UInt8} (hc : c ≠ 0) (fmt : Bytes) :
    cstr (c :: fmt) = c :: cstr fmt := by
  simp [cstr, hc]

theorem cstr_cons_zero (fmt : Bytes) : cstr (0 :: fmt) = [] := by
  simp [cstr]

theorem randStrLoop_ok (draws : ℕ → ∀ a b, uniform a b) {i : ℕ} {fmt buf : Bytes}
    (h : i + (cstr fmt).length ≤ buf.length) :
    ∃ text, Expands uniform (cstr fmt) text ∧ randStrLoop draws i fmt buf =
      .ok (buf.take i ++ text ++ buf.drop (i + (cstr fmt).length)) := by
  induction fmt generalizing i buf with
  | nil => exact ⟨[], List.Forall₂.nil, by simp [randStrLoop, cstr]⟩
  | cons c fmt ih =>
    unfold randStrLoop
    by_cases hc : c = 0
    · rw [if_pos hc, hc, cstr_cons_zero]
      exact ⟨[], List.Forall₂.nil, by simp⟩
    · rw [cstr_cons_of_ne hc, length_cons] at h ⊢
      let b := randStrByte (draws i) c
      have hroom : i + 1 + (cstr fmt).length ≤ (buf.set i b).length := by
        rw [length_set]
        omega
      obtain ⟨text, htext, hloop⟩ := ih hroom
      have hfront : (buf.set i b).take (i + 1) = buf.take i ++ [b] := by
        rw [take_add_one, take_set_of_le (Nat.le_refl i), getElem?_set_self (by omega)]
        rfl
      refine ⟨b :: text, List.Forall₂.cons (randStrByte_expands _ c) htext, ?_⟩
      rw [if_neg hc, if_pos (by omega), hloop, hfront, drop_set_of_lt (by omega), append_assoc,
        append_assoc, append_assoc, Nat.add_right_comm]
      rfl

theorem randStrLoop_overflow (draws : ℕ → ∀ a b, uniform a b) {i : ℕ} {fmt buf : Bytes}
    (hi : i ≤ buf.length) (h : buf.length < i + (cstr fmt).length) :
    randStrLoop draws i fmt buf = .error .overflow := by
  induction fmt generalizing i buf with
  | nil =>
    rw [cstr, takeWhile_nil, length_nil] at h
    omega
  | cons c fmt ih =>
    unfold randStrLoop
    by_cases hc : c = 0
    · rw [hc, cstr_cons_zero, length_nil] at h
      omega
    · rw [cstr_cons_of_ne hc, length_cons] at h
      rw [if_neg hc]
      by_cases hlt : i < buf.length
      · rw [if_pos hlt]
        apply ih
        · rw [length_set]
          exact hlt
        · rw [length_set]
          omega
      · rw [if_neg hlt]

/-! ### Runs -/

/-- The length may count bytes of the buffer behind the expansion. -/
theorem take_expansion {text mem fmt : Bytes} (hmem : text.length ≤ mem.length)
    (hfmt : text.length ≤ fmt.length) :
    (text ++ mem.drop text.length).take (min mem.length fmt.length)
      = text ++ (mem.take fmt.length).drop text.length := by
  rw [take_append, take_of_length_le (by omega), drop_take, append_cancel_left_eq,
    take_eq_take_iff, length_drop]
  omega

theorem setRandStr_right_iff (hp : HasChars p) (fmt : Bytes)
    (draws : ℕ → ∀ a b, uniform a b) :
    (∃ p' r, p.setRandStr fmt draws = .ok (p', r) ∧ CallRight p (.setRandStr fmt draws) (p', r)) ↔
      Fits p (.setRandStr fmt draws) := by
  obtain ⟨mem, hp⟩ := hp
  have hsize := (p.sized mem hp).1
  by_cases hfit : (cstr fmt).length ≤ p.maxLen
  · have hroom : 0 + (cstr fmt).length ≤ mem.length := by omega
    obtain ⟨text, htext, hloop⟩ := randStrLoop_ok draws hroom
    rw [take_zero, nil_append, Nat.zero_add] at hloop
    obtain ⟨e, he, -⟩ | ⟨mem', p', hmem, hset, hmax, hlen, hbuffer⟩ :=
      setRandStr_cases hp fmt draws
    · cases hloop.symm.trans he
    cases hloop.symm.trans hmem
    have hstart : cstr fmt <+: fmt := takeWhile_prefix _
    have hcut : cstr fmt ++ (fmt.take p.maxLen).drop (cstr fmt).length = fmt.take p.maxLen :=
      prefix_iff_eq_append.mp (prefix_take_iff.mpr ⟨hstart, hfit⟩)
    have hresult : p'.text = some (text ++ (mem.take fmt.length).drop (cstr fmt).length) := by
      have hlength := htext.length_eq
      have hle := hstart.length_le
      rw [SqlParam.text, hbuffer]
      show some (take p'.dataLen _) = _
      rw [hlen, copiedLen_eq_min, ← hsize, hlength, take_expansion (by omega) (by omega)]
    have hexpands := expands_append_iff htext
      (c := (fmt.take p.maxLen).drop (cstr fmt).length)
      (d := (mem.take fmt.length).drop (cstr fmt).length)
    rw [hcut] at hexpands
    constructor
    · rintro ⟨p₁, r, hset₁, -, -, text₁, htext₁, hright⟩
      cases hset.symm.trans hset₁
      cases hresult.symm.trans htext₁
      refine ⟨hfit, ?_⟩
      intro mem' hmem'
      cases hp.symm.trans hmem'
      exact hexpands.mp hright
    · rintro ⟨-, hrest⟩
      have hle := (copiedLen_le p.maxLen fmt.length).2
      exact ⟨p', true, hset, hmax, hlen ▸ hle, _, hresult, hexpands.mpr (hrest mem hp)⟩
  · have hover : p.setRandStr fmt draws = .error .overflow :=
      setRandStr_error hp (randStrLoop_overflow draws (Nat.zero_le _) (by omega))
    constructor
    · rintro ⟨p', r, hset, -⟩
      cases hover.symm.trans hset
    · rintro ⟨hle, -⟩
      exact absurd hle hfit

theorem call_right_iff (hp : HasChars p) (c : StringCall uniform) :
    (∃ p' r, p.call c = .ok (p', r) ∧ CallRight p c (p', r)) ↔ Fits p c := by
  cases c with
  | set value =>
    obtain ⟨p', hset, -, hright⟩ := set_right uniform hp value
    exact ⟨fun _ => trivial, fun _ => ⟨p', true, congrArg Except.ok hset, hright⟩⟩
  | setRandStr fmt draws => exact setRandStr_right_iff hp fmt draws

/-- **String parameters stay in their buffer exactly as long as the templates fit.** -/
theorem string_param_iff {btype : BindType} (hbtype : btype = .char ∨ btype = .varchar)
    (maxLen : ℕ) (calls : List (StringCall uniform)) :
    ∃ p, bindCreate btype maxLen = some p ∧ p.maxLen = maxLen ∧
      (EachCall SqlParam.call CallRight p calls ↔ EachState SqlParam.call Fits p calls) := by
  have hrun : ∀ p, HasChars p →
      (EachCall SqlParam.call CallRight p calls ↔ EachState SqlParam.call Fits p calls) := by
    intro p hp
    apply eachCall_iff_eachState hp
    · intro p c p' r hp h
      exact call_hasChars hp h
    · intro p c hp
      exact call_right_iff hp c
  rcases hbtype with rfl | rfl <;> exact ⟨_, rfl, rfl, hrun _ ⟨_, rfl⟩⟩

/-- `sb_rand_uniform` returns its first argument. -/
def leastDraws (_ : ℕ) (a b : UInt32) : (fun a _ => {a} : Uniform) a b :=
  ⟨a, rfl⟩

theorem long_string_and_short_template_fit :
    ∃ p, bindCreate .varchar 2 = some p ∧ p.maxLen = 2 ∧
      EachCall SqlParam.call CallRight p [.set [97, 98, 99], .setRandStr [35] leastDraws] := by
  obtain ⟨p, hp, hmax, hiff⟩ := string_param_iff (.inr rfl) 2
    [.set [97, 98, 99], .setRandStr [35] leastDraws]
  refine ⟨p, hp, hmax, hiff.mpr ⟨trivial, ?_⟩⟩
  cases hp
  intro p' r h
  cases h
  exact ⟨(fits_iff_of_no_nul (by decide) leastDraws).mpr (by decide), fun _ _ _ => trivial⟩

/-- A template of two characters for a parameter of one: the second is written behind the end. -/
theorem long_template_overruns_buffer :
    ∃ p, bindCreate .varchar 1 = some p ∧
      p.call (.setRandStr [97, 97] leastDraws) = .error .overflow ∧
      ¬EachCall SqlParam.call CallRight p [.setRandStr [97, 97] leastDraws] := by
  obtain ⟨p, hp⟩ : ∃ p, bindCreate .varchar 1 = some p := ⟨_, rfl⟩
  have hover : p.call (.setRandStr [97, 97] leastDraws) = .error .overflow := by
    have hstr : sbRandStr leastDraws [97, 97] [0] = .error .overflow :=
      randStrLoop_overflow leastDraws (Nat.zero_le _) (by decide)
    have hbuffer : p.buffer = .varchar [0] := by
      cases hp
      rfl
    exact setRandStr_error hbuffer hstr
  refine ⟨p, hp, hover, ?_⟩
  rintro ⟨p', r, hcall, -⟩
  cases hover.symm.trans hcall

end Sysbench.Bind
