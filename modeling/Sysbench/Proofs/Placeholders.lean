/-
The query that a mismatch prints.

What `replace_placeholders` has written is always a text (`Dst.Holds`), and each write extends
it.  The budget is a sum over what is left: every byte of the query pays for itself, every
parameter for its literal, and the placeholder itself for the terminator that `sprintf` puts
behind a number.  The sum is a `size_t`; where it does not wrap, the buffer has that size and
no write leaves it.
-/
import Mathlib.Algebra.Order.BigOperators.Group.List
import Sysbench.Lib.Runs
import Sysbench.Model.Placeholders

namespace Sysbench.Placeholders

open List CMemory SqlLiteral

/-! ### What is written

The pieces of the query between its question marks, with the literals between them.
-/

/-- Pieces with texts between them, and question marks where the texts have run out. -/
def interleave : List Bytes → List Bytes → Bytes
  | [], _ => []
  | [piece], _ => piece
  | piece :: piece' :: pieces, [] => piece ++ 63 :: interleave (piece' :: pieces) []
  | piece :: piece' :: pieces, text :: texts =>
    piece ++ (text ++ interleave (piece' :: pieces) texts)

/-- The query with its first question marks replaced. -/
def replaced (query : Bytes) (values : List Value) : Bytes :=
  interleave (query.splitOn 63) (values.map literal)

theorem interleave_cons_head (c : UInt8) (pieces texts : List Bytes) (h : pieces ≠ []) :
    interleave (pieces.modifyHead (c :: ·)) texts = c :: interleave pieces texts := by
  match pieces, texts with
  | [], _ => exact absurd rfl h
  | [piece], _ => rfl
  | piece :: piece' :: pieces, [] => rfl
  | piece :: piece' :: pieces, text :: texts => rfl

theorem replaced_nil (values : List Value) : replaced [] values = [] := by
  rw [replaced, splitOn_nil, interleave]

theorem replaced_byte {c : UInt8} (hc : c ≠ 63) (query : Bytes) (values : List Value) :
    replaced (c :: query) values = c :: replaced query values := by
  rw [replaced, splitOn_cons_eq_if_modifyHead, if_neg (by simpa using hc)]
  exact interleave_cons_head c _ _ (splitOn_ne_nil 63 query)

theorem replaced_mark_nil (query : Bytes) :
    replaced (63 :: query) [] = 63 :: replaced query [] := by
  obtain ⟨piece, pieces, hsplit⟩ := exists_cons_of_ne_nil (splitOn_ne_nil 63 query)
  rw [replaced, replaced, splitOn_cons_eq_if_modifyHead, hsplit]
  rfl

theorem replaced_mark_cons (query : Bytes) (v : Value) (values : List Value) :
    replaced (63 :: query) (v :: values) = literal v ++ replaced query values := by
  obtain ⟨piece, pieces, hsplit⟩ := exists_cons_of_ne_nil (splitOn_ne_nil 63 query)
  rw [replaced, replaced, splitOn_cons_eq_if_modifyHead, hsplit]
  rfl

/-! ### Parameters -/

/-- The bytes of a string that its length counts, where the buffer has so many. -/
def stringValue : Option Bytes → Option ℕ → Option Value
  | some buffer, some length =>
    if length ≤ buffer.length then some (.bytes (buffer.take length)) else none
  | _, _ => none

/-- What a parameter with a buffer and a length stands for. -/
def MysqlBind.value : MysqlBind → Option Value
  | .long buffer => buffer.map fun v => .int v.toInt
  | .longlong buffer => buffer.map fun v => .int v.toInt
  | .string buffer length => stringValue buffer length
  | .varString buffer length => stringValue buffer length
  | .other => none

/-- What a string is meant to add to the size. -/
def stringWidth : Option Bytes → Option ℕ → ℕ
  | some _, some length => length * 2 + 2
  | _, _ => 0

/-- What a parameter is meant to add to the size. -/
def MysqlBind.width : MysqlBind → ℕ
  | .long _ => 11
  | .longlong _ => 20
  | .string buffer length => stringWidth buffer length
  | .varString buffer length => stringWidth buffer length
  | .other => 32

/-- The size without wrapping. -/
def size (qStr : Bytes) (qParams : List MysqlBind) : ℕ :=
  (cstr qStr).length + 1 + (qParams.map MysqlBind.width).sum

theorem stringLen_eq (buffer : Option Bytes) (length : Option ℕ) :
    stringLen buffer length = stringWidth buffer length % 2 ^ 64 := by
  match buffer, length with
  | some _, some _ => rfl
  | some _, none => rfl
  | none, _ => rfl

theorem paramLen_eq (p : MysqlBind) : paramLen p = p.width % 2 ^ 64 := by
  cases p with
  | long buffer | longlong buffer | other => rfl
  | string buffer length | varString buffer length => exact stringLen_eq buffer length

/-- `final_len` is the size, wrapped. -/
theorem finalLen_eq (qStr : Bytes) (qParams : List MysqlBind) :
    finalLen qStr qParams = size qStr qParams % 2 ^ 64 := by
  have hfold (start : ℕ) : qParams.foldl (fun len param => (len + paramLen param) % 2 ^ 64)
      (start % 2 ^ 64) = (start + (qParams.map MysqlBind.width).sum) % 2 ^ 64 := by
    induction qParams generalizing start with
    | nil => rfl
    | cons p qParams ih =>
      rw [foldl_cons, paramLen_eq, ← Nat.add_mod, ih, map_cons, sum_cons,
        Nat.add_assoc]
  exact hfold _

variable {qStr : Bytes} {qParams : List MysqlBind} {p : MysqlBind}

theorem finalLen_of_lt (h : size qStr qParams < 2 ^ 64) :
    finalLen qStr qParams = size qStr qParams := by
  rw [finalLen_eq, Nat.mod_eq_of_lt h]

variable {buffer : Option Bytes} {length : Option ℕ} {v : Value}

theorem stringValue_eq_some (h : stringValue buffer length = some v) :
    ∃ bytes n, buffer = some bytes ∧ length = some n ∧ n ≤ bytes.length ∧
      v = .bytes (bytes.take n) := by
  match buffer, length with
  | some bytes, some n =>
    rw [stringValue] at h
    split at h
    · rename_i hn
      exact ⟨bytes, n, rfl, rfl, hn, (Option.some.inj h).symm⟩
    · cases h
  | some _, none => cases h
  | none, _ => cases h

theorem length_quoted (bs : Bytes) : (quoted bs).length = bs.length + 2 := by
  rw [quoted, length_append, length_append, length_singleton]
  omega

theorem length_literal_le_stringWidth (h : stringValue buffer length = some v) :
    (literal v).length ≤ stringWidth buffer length := by
  obtain ⟨bytes, n, rfl, rfl, hn, rfl⟩ := stringValue_eq_some h
  have hescape := length_escape_le (bytes.take n)
  rw [length_take] at hescape
  rw [literal, length_quoted, stringWidth]
  omega

/-- A literal fits what its parameter adds: the widest number, every byte escaped. -/
theorem length_literal_le (h : p.value = some v) :
    (literal v).length ≤ p.width := by
  cases p with
  | long buffer =>
    obtain ⟨i, -, rfl⟩ := Option.map_eq_some_iff.mp h
    have hlo := i.le_toInt
    have hhi := i.toInt_lt
    have habs : i.toInt.natAbs < 10 ^ 10 := by omega
    exact length_signedDecimal_le (by decide) habs
  | longlong buffer =>
    obtain ⟨i, -, rfl⟩ := Option.map_eq_some_iff.mp h
    have hlo := i.le_toInt
    have hhi := i.toInt_lt
    have habs : i.toInt.natAbs < 10 ^ 19 := by omega
    exact length_signedDecimal_le (by decide) habs
  | string buffer length | varString buffer length => exact length_literal_le_stringWidth h
  | other => cases h

/-! ### Writing -/

/-- The buffer has a size, and a text has been written to it. -/
structure Dst.Holds (dst : Dst) (size : ℕ) (text : Bytes) : Prop where
  length : dst.mem.length = size
  pos : dst.pos = text.length
  written : dst.mem.take text.length = text

namespace Dst.Holds

variable {dst : Dst} {size : ℕ} {text : Bytes}

theorem store (h : dst.Holds size text) (bytes : Bytes) {step : ℕ} (hstep : step ≤ bytes.length)
    (hfit : text.length + bytes.length ≤ size) :
    ∃ dst', dst.store bytes step = .ok dst' ∧ dst'.Holds size (text ++ bytes.take step) := by
  have hroom : dst.pos + bytes.length ≤ dst.mem.length := by rw [h.pos, h.length]; exact hfit
  obtain ⟨mem, hwrite, hlen⟩ := exists_writeAt hroom
  have hall := take_writeAt_append hwrite
  rw [h.pos, h.written] at hall
  refine ⟨{ mem := mem, pos := dst.pos + step }, by rw [Dst.store, hwrite], ?_, ?_, ?_⟩
  · exact hlen.trans h.length
  · rw [length_append, length_take, Nat.min_eq_left hstep, h.pos]
  · have hcut : mem.take (text.length + step)
        = (mem.take (text.length + bytes.length)).take (text.length + step) := by
      rw [take_take, Nat.min_eq_left (by omega)]
    rw [length_append, length_take, Nat.min_eq_left hstep, hcut, hall,
      take_length_add_append]

theorem put (h : dst.Holds size text) (c : UInt8) (hfit : text.length < size) :
    ∃ dst', dst.put c = .ok dst' ∧ dst'.Holds size (text ++ [c]) :=
  h.store [c] (Nat.le_refl 1) hfit

theorem sprintf (h : dst.Holds size text) (printed : Bytes)
    (hfit : text.length + printed.length < size) :
    ∃ dst', dst.sprintf printed = .ok dst' ∧ dst'.Holds size (text ++ printed) := by
  have hlen : (printed ++ [0]).length = printed.length + 1 := length_append
  have hstep : printed.length ≤ (printed ++ [0]).length := by omega
  obtain ⟨dst', hstore, hholds⟩ := h.store (printed ++ [0]) hstep (by omega)
  rw [take_left] at hholds
  exact ⟨dst', hstore, hholds⟩

/-- One byte of a string, behind a backslash where it needs one. -/
theorem stringStep (h : dst.Holds size text) {buffer : Bytes} {i : ℕ} {c : UInt8}
    (hc : buffer[i]? = some c) (hfit : text.length + (escape [c]).length ≤ size) (left : ℕ) :
    ∃ dst', Placeholders.stringLoop buffer (left + 1) i dst
        = Placeholders.stringLoop buffer left (i + 1) dst' ∧
      dst'.Holds size (text ++ escape [c]) := by
  rw [Placeholders.stringLoop, hc]
  by_cases hspecial : c = 39 ∨ c = 92
  · have hescape : escape [c] = [92] ++ [c] := by rw [escape_cons, if_pos hspecial]; rfl
    rw [hescape, length_append, length_singleton, length_singleton] at hfit
    obtain ⟨dst₁, hslash, hholds⟩ := h.put 92 (by omega)
    have hlen : (text ++ [92]).length = text.length + 1 := length_append
    obtain ⟨dst', hbyte, hholds⟩ := hholds.put c (by omega)
    rw [append_assoc, ← hescape] at hholds
    refine ⟨dst', ?_, hholds⟩
    simp only [if_pos hspecial, hslash, hbyte, bind, Except.bind]
  · have hescape : escape [c] = [c] := by rw [escape_cons, if_neg hspecial]; rfl
    rw [hescape] at hfit
    obtain ⟨dst', hbyte, hholds⟩ := h.put c hfit
    rw [← hescape] at hholds
    refine ⟨dst', ?_, hholds⟩
    simp only [if_neg hspecial, hbyte, bind, Except.bind, pure, Except.pure]

theorem stringLoop (buffer : Bytes) (left : ℕ) :
    ∀ {dst : Dst} {text : Bytes} (i : ℕ), dst.Holds size text → i + left ≤ buffer.length →
      text.length + (escape ((buffer.drop i).take left)).length ≤ size →
      ∃ dst', Placeholders.stringLoop buffer left i dst = .ok dst' ∧
        dst'.Holds size (text ++ escape ((buffer.drop i).take left)) := by
  induction left with
  | zero =>
    intro dst text i h hi hfit
    exact ⟨dst, rfl, by simpa [escape] using h⟩
  | succ left ih =>
    intro dst text i h hi hfit
    have hlt : i < buffer.length := by omega
    have hbytes : escape ((buffer.drop i).take (left + 1))
        = escape [buffer[i]] ++ escape ((buffer.drop (i + 1)).take left) := by
      rw [drop_eq_getElem_cons hlt, take_succ_cons]
      simp [escape]
    rw [hbytes, length_append] at hfit
    obtain ⟨dst₁, hstep, hholds⟩ :=
      h.stringStep (getElem?_eq_getElem hlt) (by omega) left
    obtain ⟨dst', hloop, hholds⟩ := ih (i + 1) hholds (by omega)
      (by rw [length_append]; omega)
    rw [append_assoc, ← hbytes] at hholds
    exact ⟨dst', hstep.trans hloop, hholds⟩

theorem putString (h : dst.Holds size text) {buffer : Option Bytes} {length : Option ℕ}
    {v : Value} (hv : stringValue buffer length = some v)
    (hfit : text.length + (literal v).length ≤ size) :
    ∃ dst', Placeholders.putString dst buffer length = .ok dst' ∧
      dst'.Holds size (text ++ literal v) := by
  obtain ⟨bytes, n, rfl, rfl, hn, rfl⟩ := stringValue_eq_some hv
  rw [literal, length_quoted] at hfit
  obtain ⟨dst₁, hopen, hholds⟩ := h.put 39 (by omega)
  have hlen : (text ++ [39]).length = text.length + 1 := length_append
  obtain ⟨dst₂, hloop, hholds⟩ := stringLoop bytes n 0 hholds (by omega)
    (by rw [drop_zero]; omega)
  rw [drop_zero] at hholds
  obtain ⟨dst₃, hclose, hholds⟩ := hholds.put 39 (by rw [length_append]; omega)
  have htext : text ++ [39] ++ escape (bytes.take n) ++ [39]
      = text ++ literal (.bytes (bytes.take n)) := by
    simp only [literal, quoted, append_assoc]
  rw [htext] at hholds
  exact ⟨dst₃, Runs.bind_eq_ok.mpr ⟨dst₁, hopen, Runs.bind_eq_ok.mpr ⟨dst₂, hloop, hclose⟩⟩,
    hholds⟩

/-- A placeholder becomes the literal of its parameter.  A number takes one byte more for the
terminator, which the byte of the placeholder pays for. -/
theorem putParam (h : dst.Holds size text) {v : Value} (hv : p.value = some v)
    (hfit : text.length + (literal v).length < size) :
    ∃ dst', Placeholders.putParam dst p = .ok dst' ∧ dst'.Holds size (text ++ literal v) := by
  cases p with
  | long buffer | longlong buffer =>
    obtain ⟨i, rfl, rfl⟩ := Option.map_eq_some_iff.mp hv
    exact h.sprintf _ hfit
  | string buffer length | varString buffer length => exact h.putString hv hfit.le
  | other => cases hv

/-- The loop over the query, from parameter `k` on.  The room left is enough for the bytes left,
the parameters left and the terminator. -/
theorem replaceLoop {qParams : List MysqlBind} {n : ℕ} (hn : n ≤ qParams.length) (src : Bytes) :
    ∀ {dst : Dst} {text : Bytes} (k : ℕ) (values : List Value), dst.Holds size text →
      ((qParams.take n).drop k).map MysqlBind.value = values.map some →
      text.length + src.length + (((qParams.take n).drop k).map MysqlBind.width).sum < size →
      ∃ dst', Placeholders.replaceLoop qParams n src k dst = .ok dst' ∧
        dst'.Holds size (text ++ replaced src values ++ [0]) := by
  induction src with
  | nil =>
    intro dst text k values h hvalues hfit
    rw [replaced_nil, append_nil]
    exact h.put 0 (by omega)
  | cons c src ih =>
    intro dst text k values h hvalues hfit
    rw [length_cons] at hfit
    by_cases hmark : c = 63 ∧ k < n
    · -- a parameter is left: it heads the list of those that are
      obtain ⟨rfl, hk⟩ := hmark
      have hk' : k < (qParams.take n).length := by rw [length_take]; omega
      have hget : qParams[k]? = some (qParams.take n)[k] := by
        rw [getElem_take, getElem?_eq_getElem]
      rw [drop_eq_getElem_cons hk', map_cons] at hvalues
      rw [drop_eq_getElem_cons hk', map_cons, sum_cons] at hfit
      cases values with
      | nil => cases hvalues
      | cons v values =>
        rw [map_cons, cons.injEq] at hvalues
        have hwidth := length_literal_le hvalues.1
        obtain ⟨dst₁, hparam, hholds⟩ := h.putParam hvalues.1 (by omega)
        obtain ⟨dst', hloop, hholds⟩ := ih (k + 1) values hholds hvalues.2
          (by rw [length_append]; omega)
        rw [append_assoc text, ← replaced_mark_cons] at hholds
        refine ⟨dst', ?_, hholds⟩
        rw [Placeholders.replaceLoop, if_pos ⟨rfl, hk⟩, hget]
        exact Runs.bind_eq_ok.mpr ⟨dst₁, hparam, hloop⟩
    · have hcopy : replaced (c :: src) values = c :: replaced src values := by
        by_cases hc : c = 63
        · have hk : n ≤ k := Nat.le_of_not_lt fun hk => hmark ⟨hc, hk⟩
          have hnone : (qParams.take n).drop k = [] := by
            rw [drop_eq_nil_iff, length_take]
            omega
          rw [hnone, map_nil] at hvalues
          rw [hc, map_eq_nil_iff.mp hvalues.symm, replaced_mark_nil]
        · exact replaced_byte hc src values
      obtain ⟨dst₁, hbyte, hholds⟩ := h.put c (by omega)
      obtain ⟨dst', hloop, hholds⟩ := ih k values hholds hvalues
        (by rw [length_append, length_singleton]; omega)
      rw [append_assoc text, singleton_append, ← hcopy] at hholds
      refine ⟨dst', ?_, hholds⟩
      rw [Placeholders.replaceLoop, if_neg hmark]
      exact Runs.bind_eq_ok.mpr ⟨dst₁, hbyte, hloop⟩

end Dst.Holds

/-! ### The call -/

/-- What a server and a machine allow: 65535 parameters to a statement, and objects in a space
of 47 bits. -/
structure Addressable (qStr : Bytes) (qParams : List MysqlBind) : Prop where
  query : (cstr qStr).length < 2 ^ 47
  count : qParams.length ≤ 65535
  strings : ∀ p ∈ qParams, ∀ bs, p.value = some (.bytes bs) → bs.length < 2 ^ 47

theorem stringWidth_of_value (h : stringValue buffer length = some v) :
    ∃ bs, v = .bytes bs ∧ stringWidth buffer length = bs.length * 2 + 2 := by
  obtain ⟨bytes, n, rfl, rfl, hn, rfl⟩ := stringValue_eq_some h
  exact ⟨_, rfl, by rw [stringWidth, length_take, Nat.min_eq_left hn]⟩

theorem Addressable.width_le (h : Addressable qStr qParams) (hp : p ∈ qParams)
    (hv : p.value = some v) : p.width ≤ 2 ^ 48 := by
  have hstring {buffer : Option Bytes} {length : Option ℕ}
      (hvalue : p.value = stringValue buffer length) : stringWidth buffer length ≤ 2 ^ 48 := by
    obtain ⟨bs, rfl, hwidth⟩ := stringWidth_of_value (hvalue.symm.trans hv)
    have hlt := h.strings p hp bs hv
    omega
  cases p with
  | long buffer | longlong buffer => simp [MysqlBind.width]
  | string buffer length | varString buffer length => exact hstring rfl
  | other => cases hv

/-- Within these limits `final_len` does not wrap. -/
theorem Addressable.size_lt (h : Addressable qStr qParams)
    (hvalues : ∀ p ∈ qParams, ∃ v, p.value = some v) : size qStr qParams < 2 ^ 64 := by
  have hsum : (qParams.map MysqlBind.width).sum
      ≤ (qParams.map MysqlBind.width).length * 2 ^ 48 := by
    refine sum_le_card_nsmul _ _ fun w hw => ?_
    obtain ⟨p, hp, rfl⟩ := mem_map.mp hw
    obtain ⟨v, hv⟩ := hvalues p hp
    exact h.width_le hp hv
  have hquery := h.query
  have hcount := h.count
  rw [length_map] at hsum
  unfold size
  omega

/-- Where `final_len` does not wrap, and it does not within the limits of server and machine, the
call stays in its buffer and writes the query with every question mark that has a parameter
replaced by its literal.  The literal denotes the parameter, and a string ends at its quote
whatever stands behind it. -/
theorem replacePlaceholders_faithful (heap : ℕ → UInt8) (qStr : Bytes) (qParams : List MysqlBind)
    (n : ℕ) (hn : n ≤ qParams.length) (values : List Value)
    (hvalues : (qParams.take n).map MysqlBind.value = values.map some) :
    (Addressable qStr (qParams.take n) → size qStr (qParams.take n) < 2 ^ 64) ∧
    (size qStr (qParams.take n) < 2 ^ 64 →
      ∃ mem, replacePlaceholders (some heap) (some qStr) (some qParams) n = .ok (some mem) ∧
        mem.length = finalLen qStr (qParams.take n) ∧
        mem.take ((replaced (cstr qStr) values).length + 1)
          = replaced (cstr qStr) values ++ [0]) ∧
    ∀ v ∈ values, SqlLiteral.value (literal v) = some v ∧
      ∀ bs, v = .bytes bs → ∃ body, literal v = 39 :: body ∧
        ∀ rest, scan (body ++ rest) = some (bs, rest) := by
  refine ⟨fun haddr => ?_, fun hsize => ?_, fun v _ => ⟨value_literal v, fun bs hbs => ?_⟩⟩
  · refine haddr.size_lt fun p hp => ?_
    have hmem := mem_map_of_mem (f := MysqlBind.value) hp
    rw [hvalues] at hmem
    obtain ⟨v, -, hv⟩ := List.mem_map.mp hmem
    exact ⟨v, hv.symm⟩
  · have hlen := finalLen_of_lt hsize
    have hstart : Dst.Holds
        { mem := (List.range (finalLen qStr (qParams.take n))).map heap, pos := 0 }
        (finalLen qStr (qParams.take n)) [] :=
      ⟨by rw [length_map, length_range], rfl, rfl⟩
    obtain ⟨dst, hloop, hholds⟩ := hstart.replaceLoop hn (cstr qStr) 0 values hvalues (by
      rw [hlen, size, length_nil, drop_zero]
      omega)
    have hwritten := hholds.written
    rw [nil_append, length_append, length_singleton] at hwritten
    refine ⟨dst.mem, ?_, hholds.length, hwritten⟩
    rw [replacePlaceholders, if_neg (by omega), if_neg (by omega)]
    exact Runs.bind_eq_ok.mpr ⟨dst, hloop, rfl⟩
  · subst hbs
    refine ⟨escape bs ++ [39], rfl, fun rest => ?_⟩
    rw [append_assoc]
    exact scan_escape bs rest

/-- The query `?,?` with -5 and the string of a quote and a backslash. -/
theorem number_and_quote_are_replaced :
    ∃ mem, replacePlaceholders (some fun _ => 7) (some [63, 44, 63, 0])
        (some [.long (some (-5)), .string (some [39, 92]) (some 2)]) (2 : ℕ) = .ok (some mem) ∧
      mem.length = 21 ∧ mem.take 10 = [45, 53, 44, 39, 92, 39, 92, 92, 39, 0] := by
  have hfaithful := replacePlaceholders_faithful (fun _ => 7) [63, 44, 63, 0]
    [.long (some (-5)), .string (some [39, 92]) (some 2)] 2 (by decide)
    [.int (-5), .bytes [39, 92]] (by decide)
  obtain ⟨mem, hcall, hlen, hwritten⟩ := hfaithful.2.1 (by decide)
  exact ⟨mem, hcall, hlen, hwritten⟩

end Sysbench.Placeholders
