/-
Blanks around the separators of a configuration file.

`read_config` takes everything in front of the equals sign as the name, blanks and all, and
it ends a value at the first blank behind it.  A comma that comes later then stands in front
of the next value, where it ends an empty one.  So blanks behind the two separators are
skipped, and blanks in front of them are not; and `write_config` puts one in front of every
equals sign.

A line is taken apart into its values and the blanks around each separator, and the scanner
is followed over one such part at a time.
-/
import Sysbench.Proofs.OptionsConfig

namespace Sysbench.Options

open List

/-! ### Lines -/

/-- Blanks and tabs -/
def Blank (b : Text) : Prop :=
  ∀ c ∈ b, c = ' ' ∨ c = '\t'

instance (b : Text) : Decidable (Blank b) :=
  List.decidableBAll _ b

/-- A value behind a comma, with the blanks around the comma. -/
structure NextValue where
  beforeComma : Text
  afterComma : Text
  value : Text
  blank_before : Blank beforeComma
  blank_after : Blank afterComma
  bare : Bare value
  nonempty : value ≠ []

/-- The first value of a line and those behind it. -/
structure ValueList where
  first : Text
  more : List NextValue
  bare : Bare first
  nonempty : first ≠ []

/-- A line of a configuration file, taken apart. -/
structure ConfigLine where
  name : Text
  beforeEquals : Text
  afterEquals : Text
  list : Option ValueList
  name_ok : '=' ∉ name ∧ '\n' ∉ name
  blank_before : Blank beforeEquals
  blank_after : Blank afterEquals

def NextValue.text (n : NextValue) : Text :=
  n.beforeComma ++ ',' :: (n.afterComma ++ n.value)

def ValueList.text (l : ValueList) : Text :=
  l.first ++ l.more.flatMap NextValue.text

namespace ConfigLine

/-- The values behind the first one. -/
def more (line : ConfigLine) : List NextValue :=
  line.list.elim [] ValueList.more

def values (line : ConfigLine) : List Text :=
  line.list.elim [] fun l => l.first :: l.more.map NextValue.value

/-- What stands behind the equals sign. -/
def right (line : ConfigLine) : Text :=
  line.afterEquals ++ line.list.elim [] ValueList.text

/-- The line without its newline. -/
def text (line : ConfigLine) : Text :=
  line.name ++ line.beforeEquals ++ '=' :: line.right

/-- Reading the line, whatever the options are, sets the option named to the values listed. -/
def Restored (line : ConfigLine) (nl : Text) : Prop :=
  ∀ options, readConfig options (Fgets.chunks bufferLength (line.text ++ nl))
    = editOption options line.name fun opt => { opt with values := line.values }

end ConfigLine

/-! ### The scanner on the parts of a line -/

theorem isSpace_of_blank {b : Text} (hb : Blank b) : ∀ c ∈ b, isSpace c = true := by
  intro c hc
  rcases hb c hc with rfl | rfl
  · decide
  · decide

theorem scanValues_blank {b : Text} (hb : Blank b) (t : Text) :
    scanValues .between (b ++ t) = scanValues .between t := by
  induction b with
  | nil => rfl
  | cons c b ih =>
    have hrest : Blank b := fun d hd => hb d (mem_cons_of_mem _ hd)
    rw [cons_append, scanValues, if_pos (isSpace_of_blank hb c mem_cons_self), ih hrest]

/-- What is found in front of a further value: an empty one, if a blank stands before the
comma. -/
def NextValue.extra (n : NextValue) : List Text :=
  if n.beforeComma = [] then [] else [[]]

theorem scanValues_next (n : NextValue) (acc t : Text) :
    scanValues (.bare acc) (n.text ++ t)
      = (acc :: (n.extra ++ (scanValues (.bare n.value) t).1),
          (scanValues (.bare n.value) t).2) := by
  have hafter : scanValues .between (n.afterComma ++ n.value ++ t)
      = scanValues (.bare n.value) t := by
    rw [append_assoc, scanValues_blank n.blank_after, scanValues_value n.bare n.nonempty]
  cases hb : n.beforeComma with
  | nil =>
    rw [NextValue.text, hb, nil_append, cons_append, scanValues, if_pos (.inl rfl),
      hafter, NextValue.extra, if_pos hb]
    rfl
  | cons c b =>
    have hblank : Blank (c :: b) := hb ▸ n.blank_before
    have hspace : isSpace c = true := isSpace_of_blank hblank c mem_cons_self
    have hrest : Blank b := fun d hd => hblank d (mem_cons_of_mem _ hd)
    -- The blank ends the value, and the comma that follows another, empty one.
    have hcomma : scanValues .between (',' :: (n.afterComma ++ n.value ++ t))
        = ([] :: (scanValues (.bare n.value) t).1, (scanValues (.bare n.value) t).2) := by
      rw [scanValues, if_neg (by decide), if_neg (by decide), if_neg (by decide), if_pos rfl,
        hafter]
    rw [NextValue.text, hb, cons_append, cons_append, scanValues,
      if_pos (.inr hspace), append_assoc, scanValues_blank hrest, cons_append, hcomma,
      NextValue.extra, if_neg (by simp [hb])]
    rfl

theorem scanValues_more (more : List NextValue) {nl : Text} (hnl : nl = [] ∨ nl = ['\n'])
    (acc : Text) :
    scanValues (.bare acc) (more.flatMap NextValue.text ++ nl)
      = (acc :: more.flatMap fun n => n.extra ++ [n.value], true) := by
  induction more generalizing acc with
  | nil => exact scanValues_end hnl acc
  | cons n more ih =>
    rw [flatMap_cons, append_assoc, scanValues_next, ih, flatMap_cons,
      append_assoc]
    rfl

namespace ConfigLine

/-- What `read_config` makes of the values of a line. -/
def scanned (line : ConfigLine) : List Text :=
  line.list.elim [] fun l => l.first :: l.more.flatMap fun n => n.extra ++ [n.value]

theorem scanValues_right (line : ConfigLine) {nl : Text} (hnl : nl = [] ∨ nl = ['\n']) :
    scanValues .between (line.right ++ nl) = (line.scanned, true) := by
  rw [right, append_assoc, scanValues_blank line.blank_after, scanned]
  cases line.list with
  | none =>
    have hempty := scanValues_plain hnl (nofun : Plain [])
    exact hempty
  | some l =>
    show scanValues .between (l.first ++ l.more.flatMap NextValue.text ++ nl) = _
    rw [append_assoc, scanValues_value l.bare l.nonempty, scanValues_more l.more hnl]
    rfl

/-- Nothing is found that is not there if no blank stands before a comma. -/
theorem scanned_eq_values_iff (line : ConfigLine) :
    line.scanned = line.values ↔ ∀ n ∈ line.more, n.beforeComma = [] := by
  have hmore (ns : List NextValue) : (ns.flatMap fun n => n.extra ++ [n.value])
      = ns.map NextValue.value ↔ ∀ n ∈ ns, n.beforeComma = [] := by
    induction ns with
    | nil => simp
    | cons n ns ih =>
      by_cases hb : n.beforeComma = []
      · have hextra : n.extra = [] := if_pos hb
        simp [hextra, hb, ih]
      · have hextra : n.extra = [[]] := if_neg hb
        simp [hextra, hb, n.nonempty.symm]
  rw [scanned, values, more]
  cases line.list with
  | none => simp
  | some l => simpa using hmore l.more

/-! ### Reading a line -/

theorem not_mem_newline (line : ConfigLine) : '\n' ∉ line.text := by
  have hblank {b : Text} (hb : Blank b) : '\n' ∉ b := by
    intro hc
    rcases hb _ hc with h | h
    · exact absurd h (by decide)
    · exact absurd h (by decide)
  have hbare {v : Text} (hv : Bare v) : '\n' ∉ v := fun hc => nomatch (hv _ hc).1
  have hnext (n : NextValue) : '\n' ∉ n.text := by
    simp [NextValue.text, hblank n.blank_before, hblank n.blank_after, hbare n.bare]
  have hlist : '\n' ∉ line.list.elim [] ValueList.text := by
    cases line.list with
    | none => exact nofun
    | some l =>
      intro hc
      rcases mem_append.mp hc with hc | hc
      · exact hbare l.bare hc
      · obtain ⟨n, -, hn⟩ := mem_flatMap.mp hc
        exact hnext n hn
  simp [text, right, line.name_ok.2, hblank line.blank_before, hblank line.blank_after, hlist]

theorem not_mem_equals_left (line : ConfigLine) : '=' ∉ line.name ++ line.beforeEquals := by
  intro hc
  rcases mem_append.mp hc with hc | hc
  · exact line.name_ok.1 hc
  · rcases line.blank_before _ hc with h | h
    · exact absurd h (by decide)
    · exact absurd h (by decide)

theorem readLine_text (line : ConfigLine) {nl : Text} (hnl : nl = [] ∨ nl = ['\n'])
    (options : Registry) :
    readLine options (line.text ++ nl)
      = (editOption options (line.name ++ line.beforeEquals) fun opt =>
          { opt with values := line.scanned }, true) := by
  rw [text, append_assoc, cons_append, readLine, span_equals line.not_mem_equals_left]
  simp only [line.scanValues_right hnl]

theorem readConfig_text (line : ConfigLine) (hlen : line.text.length < 255) {nl : Text}
    (hnl : nl = [] ∨ nl = ['\n']) (options : Registry) :
    readConfig options (Fgets.chunks bufferLength (line.text ++ nl))
      = editOption options (line.name ++ line.beforeEquals) fun opt =>
          { opt with values := line.scanned } := by
  have hfit : line.text.length + nl.length ≤ bufferLength := by
    have hnl_len : nl.length ≤ 1 := by
      rcases hnl with rfl | rfl
      · exact Nat.zero_le _
      · exact Nat.le_refl _
    show _ ≤ 255
    omega
  have hne : line.text ≠ [] := by simp [text]
  rw [Fgets.chunks_of_fits line.not_mem_newline hnl hfit hne,
    readConfig_cons (line.readLine_text hnl options), readConfig]

/-- On the empty list, what was read and what should have been read are single options, which
can be compared. -/
theorem restored_iff (line : ConfigLine) (hlen : line.text.length < 255) {nl : Text}
    (hnl : nl = [] ∨ nl = ['\n']) :
    line.Restored nl ↔ line.beforeEquals = [] ∧ line.scanned = line.values := by
  constructor
  · intro h
    have hempty := h []
    rw [line.readConfig_text hlen hnl, editOption, FirstMatch.edit, editOption, FirstMatch.edit,
      cons.injEq, SbOption.mk.injEq] at hempty
    obtain ⟨⟨hname, -, hvalues, -⟩, -⟩ := hempty
    have hnames : Alike (line.name ++ line.beforeEquals) line.name := hname
    have hlength := hnames.length_eq
    rw [length_append] at hlength
    exact ⟨eq_nil_of_length_eq_zero (by omega), hvalues⟩
  · rintro ⟨hblank, hvalues⟩ options
    rw [line.readConfig_text hlen hnl, hblank, append_nil, hvalues]

/-- A line with a blank before the equals sign is read as another option. -/
theorem findOption_of_blank (line : ConfigLine) (hlen : line.text.length < 255) {nl : Text}
    (hnl : nl = [] ∨ nl = ['\n']) (hblank : line.beforeEquals ≠ []) :
    findOption (readConfig [] (Fgets.chunks bufferLength (line.text ++ nl))) line.name = none := by
  have hother : ¬Alike (line.name ++ line.beforeEquals) line.name := by
    intro h
    have hlength := h.length_eq
    rw [length_append] at hlength
    exact hblank (eq_nil_of_length_eq_zero (by omega))
  have hkeeps : ∀ opt : SbOption, { opt with values := line.scanned }.name = opt.name :=
    fun _ => rfl
  rw [line.readConfig_text hlen hnl, findOption_editOption hkeeps, if_neg hother]
  rfl

end ConfigLine

/-! ### What is written -/

/-- An option that a line can say: the name is one, and each value is there and stands for
itself. -/
def Writable (opt : SbOption) : Prop :=
  ('=' ∉ opt.name ∧ '\n' ∉ opt.name) ∧ ∀ v ∈ opt.values, Bare v ∧ v ≠ []

theorem exists_written_more (vs : List Text) (h : ∀ v ∈ vs, Bare v ∧ v ≠ []) :
    ∃ more : List NextValue, more.map NextValue.value = vs ∧
      more.flatMap NextValue.text = vs.flatMap (", ".toList ++ ·) := by
  induction vs with
  | nil => exact ⟨[], rfl, rfl⟩
  | cons v vs ih =>
    obtain ⟨more, hvalues, htext⟩ := ih fun w hw => h w (mem_cons_of_mem _ hw)
    obtain ⟨hbare, hne⟩ := h v mem_cons_self
    have hblank : Blank [' '] := by decide
    let n : NextValue := ⟨[], [' '], v, nofun, hblank, hbare, hne⟩
    refine ⟨n :: more, ?_, ?_⟩
    · rw [map_cons, hvalues]
    · rw [flatMap_cons, htext]
      rfl

theorem intercalate_eq (sep v : Text) (vs : List Text) :
    sep.intercalate (v :: vs) = v ++ vs.flatMap (sep ++ ·) := by
  induction vs generalizing v with
  | nil => simp [intercalate]
  | cons w vs ih =>
    have hcons : sep.intercalate (v :: w :: vs) = v ++ (sep ++ sep.intercalate (w :: vs)) := by
      simp [intercalate]
    rw [hcons, ih, flatMap_cons, append_assoc]

/-- `write_config` prints a line with its option's name and values, and with a blank before the
equals sign. -/
theorem exists_written {opt : SbOption} (h : Writable opt) :
    ∃ line : ConfigLine, line.name = opt.name ∧ line.values = opt.values ∧
      line.beforeEquals = [' '] ∧ (writeConfig [(opt, false)]).1 = line.text ++ ['\n'] := by
  obtain ⟨hname, hvalues⟩ := h
  have hblank : Blank [' '] := by decide
  have hprinted : (writeConfig [(opt, false)]).1 = writeOption opt := append_nil _
  rw [hprinted, writeOption]
  cases hlist : opt.values with
  | nil => exact ⟨⟨opt.name, [' '], [' '], none, hname, hblank, hblank⟩, rfl, rfl, rfl, by
    simp [ConfigLine.text, ConfigLine.right, intercalate]⟩
  | cons v vs =>
    rw [hlist] at hvalues
    obtain ⟨hbare, hne⟩ := hvalues v mem_cons_self
    obtain ⟨more, hmore, htext⟩ :=
      exists_written_more vs fun w hw => hvalues w (mem_cons_of_mem _ hw)
    refine ⟨⟨opt.name, [' '], [' '], some ⟨v, more, hbare, hne⟩, hname, hblank, hblank⟩, rfl,
      ?_, rfl, ?_⟩
    · show v :: more.map NextValue.value = _
      rw [hmore]
    · rw [intercalate_eq, ← htext]
      simp [ConfigLine.text, ConfigLine.right, ValueList.text]

/-- **Blanks in a configuration file.**  A line gives its option exactly its values if no blank
stands before the equals sign or before a comma; blanks behind them never matter.  What
`write_config` prints of an option is never read as that option. -/
theorem blanks_insignificant_iff (line : ConfigLine) (hlen : line.text.length < 255) {nl : Text}
    (hnl : nl = [] ∨ nl = ['\n']) :
    (line.Restored nl ↔ line.beforeEquals = [] ∧ ∀ n ∈ line.more, n.beforeComma = []) ∧
      ∀ opt : SbOption, Writable opt → (writeConfig [(opt, false)]).1.length ≤ 255 →
        findOption (readConfig [] (Fgets.chunks bufferLength (writeConfig [(opt, false)]).1))
          opt.name = none := by
  constructor
  · rw [line.restored_iff hlen hnl, line.scanned_eq_values_iff]
  · intro opt hopt hshort
    obtain ⟨written, hname, -, hblank, htext⟩ := exists_written hopt
    rw [htext, length_append, length_singleton] at hshort
    rw [htext, ← hname]
    exact written.findOption_of_blank (by omega) (.inr rfl) (by simp [hblank])

/-- The line `rand-type= a,\tb`. -/
def blanksBehind : ConfigLine where
  name := "rand-type".toList
  beforeEquals := []
  afterEquals := [' ']
  list := some {
    first := ['a']
    more := [{
      beforeComma := []
      afterComma := ['\t']
      value := ['b']
      blank_before := by decide
      blank_after := by decide
      bare := by decide
      nonempty := by decide }]
    bare := by decide
    nonempty := by decide }
  name_ok := by decide
  blank_before := by decide
  blank_after := by decide

theorem blanks_behind_are_skipped :
    blanksBehind.Restored ['\n'] ∧ blanksBehind.values = [['a'], ['b']] :=
  ⟨(blanks_insignificant_iff blanksBehind (by decide) (.inr rfl)).1.mpr (by decide), rfl⟩

/-- `threads = 4`, which is what `write_config` prints, is read as an option whose name ends with
a blank, and `flags=a ,b` as a list of three values. -/
theorem blanks_before_are_kept :
    (writeConfig [(⟨"threads".toList, .int, ["4".toList], none⟩, false)]).1
        = "threads = 4\n".toList ∧
      (readConfig [] (Fgets.chunks bufferLength "threads = 4\n".toList)).map
          (fun opt => (opt.name, opt.values)) = [("threads ".toList, ["4".toList])] ∧
      (readConfig [] (Fgets.chunks bufferLength "flags=a ,b\n".toList)).map
          (fun opt => (opt.name, opt.values)) = [("flags".toList, [['a'], [], ['b']])] := by
  decide

end Sysbench.Options
