/-
# Written expressions

Symbolic expressions are trees of integers, symbols and lists. There are many ways to
write one, since white space is free around parentheses and a list of the word `quote`
and an expression may be written with a quote mark. Whichever way is taken, the reader
yields the expressions that were written.
-/

import Descent.Proofs.Grammar.Lisp.Token
import Descent.Proofs.Grammar.Recursion

namespace Descent.Reader.Lisp

open Filter

/-- A symbolic expression. -/
inductive Expr
  | int (n : Int)
  | word (s : Symbol)
  | list (items : List Expr)

namespace Expr

mutual

/-- The value that stands for an expression. -/
def value : Expr → Value
  | .int n => .int n
  | .word s => .text s.name
  | .list items => .list (values items)

/-- The values that stand for some expressions. -/
def values : List Expr → List Value
  | [] => []
  | item :: items => item.value :: values items

end

theorem values_eq_map (items : List Expr) : values items = items.map value := by
  induction items with
  | nil => rfl
  | cons item items ih => rw [values, ih, List.map_cons]

end Expr

/-- The word for which a quote mark stands. -/
def quoteWord : Symbol where
  name := "quote".toList
  matched := by decide +kernel
  unsigned := by simp

/-- Texts one after another with white space between them, which may be missing next to a
parenthesis, and with or without white space behind the last. -/
inductive Spaced : List Text → Text → Prop
  | nil : Spaced [] []
  | cons {t blanks row : Text} {ts : List Text} (hblanks : blanks.Blank)
      (hapart : blanks ≠ [] ∨ row.Begins (· = '(') ∨ t.getLast? = some ')') (h : Spaced ts row) :
      Spaced (t :: ts) (t ++ (blanks ++ row))

/-- The ways to write an expression. -/
inductive Written : Expr → Text → Prop
  | int (n : Int) : Written (.int n) (toString n).toList
  | word (s : Symbol) : Written (.word s) s.name
  | list {opening row : Text} {items : List (Expr × Text)} (hopening : opening.Sign "(")
      (hitems : ∀ item ∈ items, Written item.1 item.2) (hrow : Spaced (items.map Prod.snd) row) :
      Written (.list (items.map Prod.fst)) (opening ++ (row ++ [')']))
  | quotation {mark t : Text} {e : Expr} (hmark : mark.Sign "'") (h : Written e t) :
      Written (.list [.word quoteWord, e]) (mark ++ t)

/-- The ways to write expressions one after another, with white space before them. -/
def Program (es : List Expr) (s : Text) : Prop :=
  ∃ (blanks row : Text) (items : List (Expr × Text)), blanks.Blank ∧
    (∀ item ∈ items, Written item.1 item.2) ∧ Spaced (items.map Prod.snd) row ∧
    es = items.map Prod.fst ∧ s = blanks ++ row

section Writing

theorem blank_nil : Text.Blank [] :=
  List.forall_mem_nil _

theorem blank_space : Text.Blank [' '] :=
  List.forall_mem_singleton.mpr (by decide +kernel)

theorem exists_spaced (ts : List Text) : ∃ row, Spaced ts row := by
  induction ts with
  | nil => exact ⟨[], .nil⟩
  | cons t ts ih =>
      obtain ⟨row, hrow⟩ := ih
      exact ⟨_, .cons blank_space (.inl (by simp)) hrow⟩

mutual

/-- Every expression can be written. -/
theorem exists_written : ∀ e : Expr, ∃ t, Written e t
  | .int n => ⟨_, .int n⟩
  | .word s => ⟨_, .word s⟩
  | .list es => by
      obtain ⟨items, hitems, rfl⟩ := exists_written_items es
      obtain ⟨row, hrow⟩ := exists_spaced (items.map Prod.snd)
      exact ⟨_, .list ⟨[], blank_nil, rfl⟩ hitems hrow⟩

theorem exists_written_items : ∀ es : List Expr, ∃ items : List (Expr × Text),
    (∀ item ∈ items, Written item.1 item.2) ∧ items.map Prod.fst = es
  | [] => ⟨[], by simp, rfl⟩
  | e :: es => by
      obtain ⟨t, ht⟩ := exists_written e
      obtain ⟨items, hitems, rfl⟩ := exists_written_items es
      exact ⟨(e, t) :: items, List.forall_mem_cons.mpr ⟨ht, hitems⟩, rfl⟩

end

theorem exists_program (es : List Expr) : ∃ s, Program es s := by
  obtain ⟨items, hitems, rfl⟩ := exists_written_items es
  obtain ⟨row, hrow⟩ := exists_spaced (items.map Prod.snd)
  exact ⟨_, [], row, items, blank_nil, hitems, hrow, rfl, rfl⟩

end Writing

section Reading

/-- What a run needs of a world: the reference to expressions is bound. -/
abbrev Ready (w : World) : Prop :=
  w.Targets 0 expressionBody

theorem quiet_ready : World.Quiet Ready :=
  World.quiet_targets 0 expressionBody

variable {e : Expr} {t text blanks row rest : Text} {v : Value} {items : List (Expr × Text)}

theorem Written.starts (h : Written e t) : t.Starts fun c => Character.isBlank c = false := by
  cases h with
  | int n =>
      refine (opens_numberPattern _ (toString_mem_language n)).mono ?_
      rintro c (rfl | hdigit)
      · decide
      · exact Character.isBlank_of_isDigit hdigit
  | word s => exact s.starts.mono fun c h => by simpa using fun hblank => h.2 (.inl hblank)
  | list hopening => exact (hopening.starts (by simp +decide)).append _
  | quotation hmark => exact (hmark.starts (by simp +decide)).append _

/-- An alternative reads an expression if those before it refuse the text. -/
theorem reads_of_alternative {p : Parser} (ps qs : List Parser)
    (hbody : expressionBody = .choice (ps ++ p :: qs)) (hp : p.Reads Ready t rest v)
    (hps : ∀ q ∈ ps, q.Refuses Ready (t ++ rest)) : expression.Reads Ready t rest v :=
  have hchoice : expressionBody.Reads Ready t rest v := hbody ▸ hp.choice hps qs
  hchoice.reference

theorem refuses_number_of_delimits (h : text.Begins Delimits) : number.Refuses Ready text := by
  refine refuses_number (opens_numberPattern.rejects (h.mono ?_))
  rintro c hc (rfl | hdigit)
  · exact absurd hc (by simp +decide [Delimits])
  · rw [isDigit_of_delimits hc] at hdigit
    cases hdigit

theorem refuses_list (h : text.Begins (· ≠ '(')) : list.Refuses Ready text :=
  ((Parser.refuses_symbol_of_begins (by simp) h).andThen _).skip _

/-- No expression starts with a closing parenthesis. -/
theorem refuses_expression (h : text.Begins (· = ')')) : expression.Refuses Ready text := by
  have hdelimits : text.Begins Delimits := h.mono fun _ hc => .inr (.inr (.inl hc))
  have hother {x : Char} (hx : x ≠ ')') : text.Begins (· ≠ x) :=
    h.mono fun c hc heq => hx (heq.symm.trans hc)
  have hbody : expressionBody.Refuses Ready text := by
    refine .choice ?_
    simp only [List.forall_mem_cons]
    refine ⟨refuses_number_of_delimits hdelimits, refuses_word hdelimits,
      refuses_list (hother (by decide)), ?_, by simp⟩
    exact ((Parser.refuses_symbol_of_begins (c := '\'') (by simp) (hother (by decide))).andThen
      _).map _
  exact hbody.reference

/-- The text of an expression is read with the white space behind it, provided that a
delimiter comes next or that the text ends with one. -/
def Readable (item : Expr × Text) : Prop :=
  ∀ blanks rest : Text, blanks.Blank → rest.Solid →
    Text.Begins Delimits (blanks ++ rest) ∨ item.2.getLast? = some ')' →
    expression.Reads Ready (item.2 ++ blanks) rest item.1.value

/-- Where texts stand apart from each other, a delimiter comes next. -/
theorem begins_delimits_of_apart (hblanks : blanks.Blank) (hrest : rest.Begins (· = ')'))
    (hapart : blanks ≠ [] ∨ row.Begins (· = '(') ∨ t.getLast? = some ')') :
    Text.Begins Delimits (blanks ++ (row ++ rest)) ∨ t.getLast? = some ')' := by
  rcases hapart with hne | hrow | hclosed
  · obtain ⟨c, blanks, rfl⟩ := List.exists_cons_of_ne_nil hne
    exact .inl (Text.begins_cons.mpr (.inl (hblanks c List.mem_cons_self)))
  · refine .inl ((hblanks.begins .inl).append (Text.Begins.append ?_ ?_))
    · exact hrow.mono fun _ hc => .inr (.inl hc)
    · exact hrest.mono fun _ hc => .inr (.inr (.inl hc))
  · exact .inr hclosed

/-- Expressions are read one after another up to a closing parenthesis or the end. -/
theorem readsAll_of_spaced (hitems : ∀ item ∈ items, Written item.1 item.2)
    (hreadable : ∀ item ∈ items, Readable item) (hrow : Spaced (items.map Prod.snd) row)
    (hrest : rest.Begins (· = ')')) :
    (row ++ rest).Solid ∧
      expression.ReadsAll Ready row rest (items.map fun item => item.1.value) := by
  induction items generalizing row with
  | nil =>
      cases hrow
      exact ⟨hrest.mono (by rintro _ rfl; decide), .nil (refuses_expression hrest)⟩
  | cons item items ih =>
      obtain ⟨hitem, hitems⟩ := List.forall_mem_cons.mp hitems
      obtain ⟨hread, hreadable⟩ := List.forall_mem_cons.mp hreadable
      cases hrow with
      | @cons _ blanks row _ hblanks hapart hrow =>
          obtain ⟨hsolid, hall⟩ := ih hitems hreadable hrow
          have hdelimits := begins_delimits_of_apart hblanks hrest hapart
          have hturn := hread blanks (row ++ rest) hblanks hsolid hdelimits
          rw [← List.append_assoc]
          refine ⟨?_, .cons hturn (hitem.starts.append blanks).ne_nil hall⟩
          rw [List.append_assoc]
          exact ((hitem.starts.append blanks).append _).begins

/-- A delimiter has to come behind a token, since a token does not end with one. -/
theorem begins_of_not_mem (hmem : ')' ∉ t)
    (hapart : text.Begins Delimits ∨ t.getLast? = some ')') : text.Begins Delimits :=
  hapart.resolve_right fun hclosed => hmem (List.mem_of_getLast? hclosed)

theorem not_mem_toString (n : Int) : ')' ∉ (toString n).toList := by
  intro hmem
  rw [toList_toString, List.mem_append] at hmem
  rcases hmem with hmem | hmem
  · split at hmem <;> simp at hmem
  · exact absurd (isDigit_of_mem_toDigits hmem) (by decide)

theorem readable_int (n : Int) : Readable (.int n, (toString n).toList) := by
  intro blanks rest hblanks hrest hapart
  exact reads_of_alternative [] _ rfl
    (reads_number quiet_ready n hblanks hrest (begins_of_not_mem (not_mem_toString n) hapart))
    (by simp)

theorem readable_word (s : Symbol) : Readable (.word s, s.name) := by
  intro blanks rest hblanks hrest hapart
  have hclosed : ')' ∉ s.name := fun hmem => s.not_delimits_of_mem hmem (.inr (.inr (.inl rfl)))
  have hdelimits := begins_of_not_mem hclosed hapart
  refine reads_of_alternative [number] _ rfl (reads_word s hblanks hrest hdelimits) ?_
  simp only [List.forall_mem_singleton, List.append_assoc]
  exact refuses_number (s.rejects hdelimits)

theorem readable_list {opening : Text} (hopening : opening.Sign "(")
    (hitems : ∀ item ∈ items, Written item.1 item.2)
    (hreadable : ∀ item ∈ items, Readable item) (hrow : Spaced (items.map Prod.snd) row) :
    Readable (.list (items.map Prod.fst), opening ++ (row ++ [')'])) := by
  intro blanks rest hblanks hrest _
  have hclosing : Text.Sign ")" (')' :: blanks) := ⟨blanks, hblanks, rfl⟩
  have hend : Text.Begins (· = ')') (')' :: blanks ++ rest) := by simp
  obtain ⟨hsolid, hall⟩ := readsAll_of_spaced hitems hreadable hrow hend
  have hreads : list.Reads Ready (opening ++ row ++ (')' :: blanks)) rest
      (.list (items.map fun item => item.1.value)) :=
    ((Parser.reads_symbol hopening hsolid).andThen hall.many).skip
      (Parser.reads_symbol hclosing hrest)
  have hvalue : (Expr.list (items.map Prod.fst)).value =
      .list (items.map fun item => item.1.value) := by
    rw [Expr.value, Expr.values_eq_map, List.map_map]
    rfl
  have htext : opening ++ (row ++ [')']) ++ blanks = opening ++ row ++ (')' :: blanks) := by simp
  have hstarts : (opening ++ row ++ (')' :: blanks) ++ rest).Starts (· = '(') :=
    (((hopening.starts (by simp)).append _).append _).append _
  have hdelimits := hstarts.begins.mono fun _ hc => show Delimits _ from .inr (.inl hc)
  rw [hvalue, htext]
  refine reads_of_alternative [number, word] _ rfl hreads ?_
  simp only [List.forall_mem_cons]
  exact ⟨refuses_number_of_delimits hdelimits, refuses_word hdelimits, by simp⟩

theorem readable_quotation {mark : Text} (hmark : mark.Sign "'") (h : Written e t)
    (hreadable : Readable (e, t)) :
    Readable (.list [.word quoteWord, e], mark ++ t) := by
  intro blanks rest hblanks hrest hapart
  have hlast : (mark ++ t).getLast? = t.getLast? := by
    rw [List.getLast?_append_of_ne_nil _ h.starts.ne_nil]
  have hinner := hreadable blanks rest hblanks hrest (hlast ▸ hapart)
  have hsolid : (t ++ blanks ++ rest).Solid := ((h.starts.append _).append _).begins
  have hreads : quotation.Reads Ready (mark ++ (t ++ blanks)) rest
      (.list [.str "quote", e.value]) :=
    ((Parser.reads_symbol hmark hsolid).andThen hinner).map quiet_ready rfl
  have hvalue : (Expr.list [.word quoteWord, e]).value = .list [.str "quote", e.value] := by
    simp [Expr.value, Expr.values, Value.text, quoteWord]
  have hstarts : (mark ++ (t ++ blanks) ++ rest).Starts (· = '\'') :=
    ((hmark.starts (by simp)).append _).append _
  have hdelimits := hstarts.begins.mono fun _ hc => show Delimits _ from .inr (.inr (.inr hc))
  rw [hvalue, List.append_assoc]
  refine reads_of_alternative [number, word, list] _ rfl hreads ?_
  simp only [List.forall_mem_cons]
  refine ⟨refuses_number_of_delimits hdelimits, refuses_word hdelimits,
    refuses_list (hstarts.begins.mono ?_), by simp⟩
  rintro _ rfl
  decide

/-- However an expression is written, it is read back. -/
theorem Written.readable (h : Written e t) : Readable (e, t) := by
  induction h with
  | int n => exact readable_int n
  | word s => exact readable_word s
  | list hopening hitems hrow ih => exact readable_list hopening hitems ih hrow
  | quotation hmark h ih => exact readable_quotation hmark h ih

theorem reads_program {es : List Expr} {s : Text} (h : Program es s) :
    program.Reads Ready s [] (.list (es.map Expr.value)) := by
  obtain ⟨blanks, row, items, hblanks, hitems, hrow, rfl, rfl⟩ := h
  have hend : Text.Begins (· = ')') [] := Text.begins_nil
  obtain ⟨hsolid, hall⟩ := readsAll_of_spaced hitems (fun item hmem => (hitems item hmem).readable)
    hrow hend
  rw [List.map_map]
  exact (Parser.reads_optionalWhitespace hblanks hsolid).andThen hall.many

end Reading

/-- Expressions can be written one after another, and however this is done, the reader
yields just these expressions within every large budget. -/
theorem read_of_program (level : Level) (es : List Expr) :
    (∃ s, Program es s) ∧ ∀ s, Program es s →
      ∀ᶠ budget in atTop,
        (reader.read budget level s).result = .ok (.success (.list (es.map Expr.value))) := by
  refine ⟨exists_program es, fun s h => ?_⟩
  let w : World := { world with threshold := level, journal := [] }
  have hready : Ready w := ⟨false, rfl⟩
  filter_upwards [Parser.parse_of_reads (reads_program h) hready] with budget hend
  exact Reader.read_result_eq_ok_iff.mpr hend

/-- The minus sign by itself is a symbol. -/
def minusWord : Symbol where
  name := ['-']
  matched := by decide +kernel
  unsigned := by simp

theorem program_minus :
    Program [.list [.word quoteWord, .int (-12)], .list [.word minusWord, .list []]]
      " '-12 (-( ))".toList := by
  have hempty : Written (.list []) "( )".toList :=
    @Written.list _ [] [] ⟨[' '], blank_space, rfl⟩ (by simp) .nil
  have hinner : Written (.list [.word minusWord, .list []]) "(-( ))".toList :=
    @Written.list _ _ [(.word minusWord, ['-']), (.list [], "( )".toList)] ⟨[], blank_nil, rfl⟩
      (by simpa using ⟨.word minusWord, hempty⟩)
      (.cons blank_nil (by simp) (.cons blank_nil (by simp) .nil))
  have hquoted : Written (.list [.word quoteWord, .int (-12)]) "'-12".toList :=
    .quotation ⟨[], blank_nil, rfl⟩ (.int (-12))
  refine ⟨[' '], "'-12 (-( ))".toList, [(_, "'-12".toList), (_, "(-( ))".toList)], blank_space, ?_,
    ?_, rfl, rfl⟩
  · simpa using ⟨hquoted, hinner⟩
  · exact .cons blank_space (by simp) (.cons blank_nil (by simp) .nil)

/-- A minus sign before a digit, behind a quote mark and before a list. -/
theorem read_program_minus :
    Program [.list [.word quoteWord, .int (-12)], .list [.word minusWord, .list []]]
        " '-12 (-( ))".toList ∧
      ∀ᶠ budget in atTop, (reader.read budget .warning " '-12 (-( ))".toList).result =
        .ok (.success (.list [.list [.str "quote", .int (-12)], .list [.str "-", .list []]])) :=
  ⟨program_minus, (read_of_program .warning _).2 _ program_minus⟩

end Descent.Reader.Lisp
