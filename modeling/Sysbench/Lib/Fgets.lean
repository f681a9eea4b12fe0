/-
Reading a text through `fgets`.

A call returns what stands up to the next newline, with it, but never more than fits its
buffer; a longer line comes in several pieces.  `chunks` lists what the calls return.
-/
import Mathlib.Data.List.Basic

namespace Fgets

open List

/-- The results of `fgets` with a buffer for `size` characters, until the end of the text.
`room` is what is left of the buffer, `acc` what has been read into it. -/
def chunksFrom (size : ℕ) : ℕ → List Char → List Char → List (List Char)
  | _, acc, [] => if acc = [] then [] else [acc]
  | room, acc, c :: cs =>
    if c = '\n' ∨ room ≤ 1 then (acc ++ [c]) :: chunksFrom size size [] cs
    else chunksFrom size (room - 1) (acc ++ [c]) cs

def chunks (size : ℕ) (text : List Char) : List (List Char) :=
  chunksFrom size size [] text

variable {size : ℕ}

/-- A piece of a line: the buffer fills up before a newline comes. -/
theorem chunksFrom_of_full {room : ℕ} (hroom : 0 < room) (acc : List Char) {t rest : List Char}
    (hline : '\n' ∉ t) (hlen : t.length = room) :
    chunksFrom size room acc (t ++ rest) = (acc ++ t) :: chunks size rest := by
  induction t generalizing room acc with
  | nil =>
    rw [length_nil] at hlen
    omega
  | cons c t ih =>
    obtain ⟨hc, ht⟩ := not_or.mp (mem_cons.not.mp hline)
    rw [cons_append, chunksFrom]
    rw [length_cons] at hlen
    by_cases hlast : room ≤ 1
    · have hnil : t = [] := eq_nil_of_length_eq_zero (by omega)
      subst hnil
      rw [if_pos (.inr hlast)]
      rfl
    · rw [if_neg (by rintro (h | h); exacts [hc h.symm, hlast h]), ih (by omega) _ ht (by omega),
        append_assoc]
      rfl

/-- The last line of a text, with or without its newline, if it fits. -/
theorem chunksFrom_of_fits {room : ℕ} (acc : List Char) {t nl : List Char} (hline : '\n' ∉ t)
    (hnl : nl = [] ∨ nl = ['\n']) (hfit : t.length + nl.length ≤ room)
    (hne : acc ++ (t ++ nl) ≠ []) :
    chunksFrom size room acc (t ++ nl) = [acc ++ (t ++ nl)] := by
  induction t generalizing room acc with
  | nil =>
    rcases hnl with rfl | rfl
    · rw [append_nil, append_nil] at hne
      rw [append_nil, chunksFrom, if_neg hne, append_nil]
    · rw [nil_append, chunksFrom, if_pos (.inl rfl), chunksFrom, if_pos rfl]
  | cons c t ih =>
    obtain ⟨hc, ht⟩ := not_or.mp (mem_cons.not.mp hline)
    rw [length_cons] at hfit
    rw [cons_append, chunksFrom]
    by_cases hlast : room ≤ 1
    · have hnil : t = [] := eq_nil_of_length_eq_zero (by omega)
      have hnl' : nl = [] := eq_nil_of_length_eq_zero (by omega)
      subst hnil hnl'
      rw [if_pos (.inr hlast)]
      rfl
    · rw [if_neg (by rintro (h | h); exacts [hc h.symm, hlast h])]
      rw [ih (acc ++ [c]) ht (by omega) (by simp), append_assoc]
      rfl

theorem mem_of_mem_chunksFrom {room : ℕ} {acc text chunk : List Char} {c : Char}
    (h : chunk ∈ chunksFrom size room acc text) (hc : c ∈ chunk) : c ∈ acc ∨ c ∈ text := by
  induction text generalizing room acc with
  | nil =>
    rw [chunksFrom] at h
    split at h
    · cases h
    · rw [mem_singleton.mp h] at hc
      exact .inl hc
  | cons d text ih =>
    rw [chunksFrom] at h
    split at h
    · rcases mem_cons.mp h with h | h
      · subst h
        rcases mem_append.mp hc with hc | hc
        · exact .inl hc
        · exact .inr (mem_cons.mpr (.inl (mem_singleton.mp hc)))
      · rcases ih h with hnil | htext
        · cases hnil
        · exact .inr (mem_cons_of_mem _ htext)
    · rcases ih h with hacc | htext
      · rcases mem_append.mp hacc with hacc | hacc
        · exact .inl hacc
        · exact .inr (mem_cons.mpr (.inl (mem_singleton.mp hacc)))
      · exact .inr (mem_cons_of_mem _ htext)

theorem chunks_of_full (hsize : 0 < size) {t rest : List Char} (hline : '\n' ∉ t)
    (hlen : t.length = size) : chunks size (t ++ rest) = t :: chunks size rest := by
  rw [chunks, chunksFrom_of_full hsize [] hline hlen, nil_append]

theorem chunks_of_fits {t nl : List Char} (hline : '\n' ∉ t) (hnl : nl = [] ∨ nl = ['\n'])
    (hfit : t.length + nl.length ≤ size) (hne : t ≠ []) : chunks size (t ++ nl) = [t ++ nl] := by
  rw [chunks, chunksFrom_of_fits [] hline hnl hfit (by simp [hne]), nil_append]

theorem mem_of_mem_chunks {text chunk : List Char} {c : Char} (h : chunk ∈ chunks size text)
    (hc : c ∈ chunk) : c ∈ text := by
  rcases mem_of_mem_chunksFrom h hc with hnil | htext
  · cases hnil
  · exact htext

end Fgets
