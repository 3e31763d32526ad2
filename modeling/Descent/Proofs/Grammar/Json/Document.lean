/-
# The grammar of data documents

The reader of documents accepts just the texts of a grammar, and yields the values that
their derivations denote. The grammar leaves open how a text is read; the reader takes the
first alternative that fits and never comes back to a token. That it misses nothing rests
on the next character, which decides between the alternatives and ends every token. All of
this holds for every decoder of tokens, which the grammar takes as a parameter.
-/

import Descent.Proofs.Grammar.Json.Token
import Descent.Proofs.Grammar.Recursion

namespace Descent.Reader.Json

open Filter

/-- An entry of an object: the texts of its key, its colon and its value, with the code points
of the key and what the value stands for. -/
structure Entry where
  name : Text
  colon : Text
  body : Text
  key : List Nat
  value : Value

namespace Entry

/-- The text of an entry. -/
def text (e : Entry) : Text :=
  e.name ++ (e.colon ++ e.body)

/-- The key and the value of an entry. -/
def pair (e : Entry) : List Nat × Value :=
  (e.key, e.value)

/-- What an entry is read as. -/
def toValue (e : Entry) : Value :=
  .tuple [stringOf e.key, e.value]

end Entry

/-- The last value that a key is given. -/
def lastOf (pairs : List (List Nat × Value)) (key : List Nat) : Value :=
  (pairs.reverse.lookup key).getD .null

/-- The entries of an object: every key in its first place with its last value. -/
def objectOf (pairs : List (List Nat × Value)) : List (Value × Value) :=
  (pairs.map Prod.fst).eraseDups.map fun key => (stringOf key, lastOf pairs key)

/-- A text of the grammar and the value that it denotes. -/
inductive Denotes (d : Decoder) : Text → Value → Prop
  | nullWord {t : Text} (h : t.Sign "null") : Denotes d t .null
  | trueWord {t : Text} (h : t.Sign "true") : Denotes d t (.bool true)
  | falseWord {t : Text} (h : t.Sign "false") : Denotes d t (.bool false)
  | string {t : Text} {codes : List Nat} (h : StringToken d t codes) :
      Denotes d t (stringOf codes)
  | number {t : Text} {v : Value} (h : NumberToken d t v) : Denotes d t v
  | object {opening row closing : Text} {entries : List Entry} (hopening : opening.Sign "\x7b")
      (hnames : ∀ e ∈ entries, StringToken d e.name e.key)
      (hcolons : ∀ e ∈ entries, e.colon.Sign ":")
      (hvalues : ∀ e ∈ entries, Denotes d e.body e.value)
      (hrow : Text.Row (Text.Sign ",") (entries.map Entry.text) row)
      (hclosing : closing.Sign "\x7d") :
      Denotes d (opening ++ (row ++ closing)) (.dict (objectOf (entries.map Entry.pair)))
  | array {opening row closing : Text} {items : List (Text × Value)} (hopening : opening.Sign "[")
      (hitems : ∀ item ∈ items, Denotes d item.1 item.2)
      (hrow : Text.Row (Text.Sign ",") (items.map Prod.fst) row) (hclosing : closing.Sign "]") :
      Denotes d (opening ++ (row ++ closing)) (.list (items.map Prod.snd))

/-- A text that stands for a value, with white space before it. -/
def Document (d : Decoder) (s : Text) (v : Value) : Prop :=
  ∃ blanks t, s = blanks ++ t ∧ blanks.Blank ∧ Denotes d t v

section Keys

theorem same_code (m n : Nat) : (Value.int m).same (.int n) = (m == n) := by
  have hplaces : (Value.int m).same (.int n) =
      (!decide ((m : Int) * 1 < n * 1) && !decide ((n : Int) * 1 < m * 1)) := rfl
  grind

theorem sameItems_codes (a b : List Nat) :
    Value.sameItems (a.map fun n : Nat => .int n) (b.map fun n : Nat => .int n) = (a == b) := by
  induction a generalizing b with
  | nil => cases b <;> simp [Value.sameItems]
  | cons m a ih => cases b <;> simp [Value.sameItems, same_code, ih]

/-- The codes of characters tell them apart. -/
theorem map_ofNat_inj {a b : List Nat} (ha : ∀ n ∈ a, n.isValidChar)
    (hb : ∀ n ∈ b, n.isValidChar) : a.map Char.ofNat = b.map Char.ofNat ↔ a = b := by
  have hcodes {codes : List Nat} (h : ∀ n ∈ codes, n.isValidChar) :
      (codes.map Char.ofNat).map Char.toNat = codes := by
    rw [List.map_map]
    refine (List.map_congr_left fun n hn => ?_).trans codes.map_id
    rw [Function.comp_apply, Char.ofNat, dif_pos (h n hn)]
    rfl
  refine ⟨fun h => ?_, fun h => by rw [h]⟩
  rw [← hcodes ha, h, hcodes hb]

/-- Two strings are the same just if their code points are, whether they are texts or not. -/
theorem same_stringOf (a b : List Nat) : (stringOf a).same (stringOf b) = (a == b) := by
  by_cases ha : ∀ n ∈ a, n.isValidChar <;> by_cases hb : ∀ n ∈ b, n.isValidChar
  · rw [stringOf, stringOf, if_pos ha, if_pos hb, Bool.eq_iff_iff]
    rw [beq_iff_eq, ← map_ofNat_inj ha hb]
    simp [Value.text, Value.same, String.ofList_inj]
  · have hne : a ≠ b := fun h => hb (h ▸ ha)
    simp only [stringOf, if_pos ha, if_neg hb, beq_false_of_ne hne]
    rfl
  · have hne : a ≠ b := fun h => ha (h ▸ hb)
    simp only [stringOf, if_neg ha, if_pos hb, beq_false_of_ne hne]
    rfl
  · rw [stringOf, stringOf, if_neg ha, if_neg hb]
    exact sameItems_codes a b

end Keys

section Objects

/-- A further key is kept if it is new. -/
theorem eraseDups_concat (keys : List (List Nat)) (key : List Nat) :
    (keys ++ [key]).eraseDups =
      if key ∈ keys.eraseDups then keys.eraseDups else keys.eraseDups ++ [key] := by
  rw [List.eraseDups_append]
  by_cases hkey : key ∈ keys <;> simp [List.removeAll, hkey, List.eraseDups_cons]

theorem nodup_eraseDups (keys : List (List Nat)) : keys.eraseDups.Nodup := by
  induction keys using List.reverseRecOn with
  | nil => simp
  | append_singleton keys key ih =>
      rw [eraseDups_concat]
      split
      · exact ih
      · next hnew =>
        rw [← List.concat_eq_append]
        exact ih.concat hnew

/-- Setting a key keeps its place, or puts it last if it is new. -/
theorem putEntry_map {keys : List (List Nat)} (hkeys : keys.Nodup) (f : List Nat → Value)
    (key : List Nat) (v : Value) :
    Value.putEntry (stringOf key) v (keys.map fun k => (stringOf k, f k)) =
      (if key ∈ keys then keys else keys ++ [key]).map
        fun k => (stringOf k, if k = key then v else f k) := by
  induction keys with
  | nil => simp [Value.putEntry]
  | cons k keys ih =>
      obtain ⟨hk, hnodup⟩ := List.nodup_cons.mp hkeys
      by_cases heq : k = key
      · subst heq
        have hothers : ∀ k' ∈ keys, k' ≠ k := fun k' hmem h => hk (h ▸ hmem)
        simp +contextual [Value.putEntry, same_stringOf, hothers]
      · have hmem : key ∈ k :: keys ↔ key ∈ keys := by simp [Ne.symm heq]
        simp only [List.map_cons, Value.putEntry, same_stringOf, beq_iff_eq, heq, if_false,
          ih hnodup, hmem]
        split <;> simp [heq]

/-- A dictionary made of pairs with strings as keys. -/
theorem dictOf_map (pairs : List (List Nat × Value)) :
    Value.dictOf (pairs.map fun pair => (stringOf pair.1, pair.2)) = objectOf pairs := by
  induction pairs using List.reverseRecOn with
  | nil => rfl
  | append_singleton pairs pair ih =>
      obtain ⟨key, v⟩ := pair
      have hput : Value.dictOf ((pairs ++ [(key, v)]).map fun pair => (stringOf pair.1, pair.2)) =
          Value.putEntry (stringOf key) v (objectOf pairs) := by
        rw [← ih]
        simp [Value.dictOf]
      have hlast (k : List Nat) : lastOf (pairs ++ [(key, v)]) k =
          if k = key then v else lastOf pairs k := by
        by_cases hkey : k = key
        · simp [lastOf, hkey]
        · simp [lastOf, List.lookup_cons, hkey, beq_false_of_ne hkey]
      rw [hput, objectOf, putEntry_map (nodup_eraseDups _), objectOf, List.map_append,
        List.map_singleton, eraseDups_concat]
      simp only [hlast]

example : objectOf [([0xD800], .int 1), ([0xD801], .int 2), ([0xD800], .int 3)] =
    [(.tuple [.int 0xD800], .int 3), (.tuple [.int 0xD801], .int 2)] := rfl

end Objects

section Reading

/-- The characters that may stand behind a value. -/
def Follow (c : Char) : Prop :=
  c = ',' ∨ c = ']' ∨ c = '\x7d'

/-- What a run needs of a world: the reference to values is bound. -/
abbrev Ready (d : Decoder) (w : World) : Prop :=
  w.Targets 0 (valueBody d)

theorem quiet_ready (d : Decoder) : World.Quiet (Ready d) :=
  World.quiet_targets 0 (valueBody d)

variable {d : Decoder} {t text rest : Text} {v : Value}

theorem solid_of_follow (h : rest.Begins Follow) : rest.Solid :=
  h.mono (by rintro _ (rfl | rfl | rfl) <;> decide)

/-- The kinds of values and the characters they start with. -/
def alternatives (d : Decoder) : List (Parser × (Char → Prop)) :=
  [(nullValue, (· = 'n')), (trueValue, (· = 't')), (falseValue, (· = 'f')), (string d, (· = '"')),
    (number d, fun c => c = '-' ∨ c.isDigit = true), (object d, (· = '\x7b')), (array, (· = '['))]

theorem separate_alternatives (d : Decoder) :
    Parser.Separate (Ready d) (alternatives d) where
  refuses := by
    simp only [alternatives, List.forall_mem_cons]
    refine ⟨fun _ h => ?_, fun _ h => ?_, fun _ h => ?_, fun _ h => refuses_string h,
      fun _ h => refuses_number h, fun _ h => ?_, fun _ h => ?_, by simp⟩
    · exact (Parser.refuses_symbol_of_begins (by simp) h).map _
    · exact (Parser.refuses_symbol_of_begins (by simp) h).map _
    · exact (Parser.refuses_symbol_of_begins (by simp) h).map _
    · exact (((Parser.refuses_symbol_of_begins (by simp) h).andThen _).skip _).map _
    · exact ((Parser.refuses_symbol_of_begins (by simp) h).andThen _).skip _
  disjoint := by
    have hdigit (x : Char) (hx : x.isDigit = false) (c : Char) (hc : c.isDigit = true) :
        ¬ c = x := by
      rintro rfl
      rw [hx] at hc
      cases hc
    simpa [alternatives, or_imp, forall_and] using
      And.intro (hdigit 'n' rfl) ⟨hdigit 't' rfl, hdigit 'f' rfl, hdigit '"' rfl⟩

/-- The first character of a text leads to the kind of its value. -/
theorem reads_of_alternative {p : Parser} {opens : Char → Prop} (k : Nat)
    (hk : (alternatives d)[k]? = some (p, opens)) (hstarts : t.Starts opens)
    (hp : p.Reads (Ready d) t rest v) : value.Reads (Ready d) t rest v :=
  have hbody : (valueBody d).Reads (Ready d) t rest v :=
    (separate_alternatives d).reads (List.mem_of_getElem? hk) hstarts hp
  hbody.reference

/-- No value starts with a character that may stand behind one. -/
theorem refuses_value (h : text.Begins Follow) : value.Refuses (Ready d) text := by
  have hbody : (valueBody d).Refuses (Ready d) text := by
    refine (separate_alternatives d).refuses_choice (h.mono ?_)
    rintro _ (rfl | rfl | rfl) <;> simp +decide [alternatives]
  exact hbody.reference

theorem Denotes.starts (h : Denotes d t v) : t.Starts fun c => Character.isBlank c = false := by
  cases h with
  | nullWord h => exact h.starts (by simp +decide)
  | trueWord h => exact h.starts (by simp +decide)
  | falseWord h => exact h.starts (by simp +decide)
  | string h => exact h.starts.mono (by rintro _ rfl; decide)
  | number h =>
      refine h.starts.mono ?_
      rintro c (rfl | hdigit)
      · decide
      · exact Character.isBlank_of_isDigit hdigit
  | object hopening => exact (hopening.starts (by simp +decide)).append _
  | array hopening => exact (hopening.starts (by simp +decide)).append _

/-- The text of an entry is read as a pair. -/
theorem reads_entry {e : Entry} (hname : StringToken d e.name e.key) (hcolon : e.colon.Sign ":")
    (hstarts : e.body.Starts fun c => Character.isBlank c = false)
    (hbody : value.Reads (Ready d) e.body rest e.value) :
    (entry d).Reads (Ready d) e.text rest (e.toValue) := by
  have hsolid : (e.colon ++ (e.body ++ rest)).Solid :=
    ((hcolon.starts (by simp +decide)).append _).begins
  have hrow : Parser.ReadsEach (Ready d) [string d, symbol ":", value]
      (e.name ++ (e.colon ++ (e.body ++ []))) rest [stringOf e.key, .str ":", e.value] := by
    refine .cons (reads_string (quiet_ready d) hname ?_)
      (.cons (Parser.reads_symbol hcolon ?_) (.cons ?_ .nil))
    · simpa using hsolid
    · rw [List.append_nil]
      exact (hstarts.append rest).begins
    · simpa using hbody
  rw [List.append_nil] at hrow
  exact hrow.sequence.map (quiet_ready d) rfl

theorem refuses_entry (h : text.Begins (· ≠ '"')) : (entry d).Refuses (Ready d) text :=
  ((refuses_string h).sequence _).map _

theorem pair?_toValue (e : Entry) : e.toValue.pair? = some (stringOf e.key, e.value) := rfl

/-- Pairs with strings as keys make a dictionary. -/
theorem dictionary_list (entries : List Entry) :
    (Value.list (entries.map fun e => e.toValue)).dictionary =
      .ok (.dict (objectOf (entries.map Entry.pair))) := by
  have hpairs : Value.pairs? (entries.map fun e => e.toValue) =
      some ((entries.map Entry.pair).map fun pair => (stringOf pair.1, pair.2)) := by
    induction entries with
    | nil => rfl
    | cons e entries ih =>
        simp only [Value.pairs?] at ih ⊢
        simp [ih, pair?_toValue, Entry.pair]
  simp only [Value.dictionary, hpairs, dictOf_map]

/-- A row in brackets, whose closing bracket can neither follow a comma nor stand for a
member. -/
theorem reads_brackets {p : Parser} {left right : String} {x : Char} {opening row closing : Text}
    {items : List (Text × Value)} (hmembers : ∀ item ∈ items, Parser.Member (Ready d) p Follow item)
    (hopening : opening.Sign left) (hclosing : closing.Sign right)
    (hrow : Text.Row (Text.Sign ",") (items.map Prod.fst) row)
    (hx : Text.Starts (· = x) right.toList) (hfollow : Follow x) (hcomma : x ≠ ',')
    (hnone : ∀ text : Text, text.Begins (· = x) → p.Refuses (Ready d) text) (hrest : rest.Solid) :
    (Parser.between (symbol left) (symbol right) (p.sepBy (symbol ","))).Reads (Ready d)
      (opening ++ (row ++ closing)) rest (.list (items.map Prod.snd)) := by
  have hend : (closing ++ rest).Starts (· = x) := (hclosing.starts hx).append rest
  have hbehind : (closing ++ rest).Begins Follow := hend.begins.mono fun _ h => h ▸ hfollow
  have hseparate : ¬ ",".toList <+: closing ++ rest := by
    rintro ⟨more, hmore⟩
    rw [← hmore] at hend
    exact hcomma (Text.starts_cons.mp hend).symm
  have hsolid : (row ++ (closing ++ rest)).Solid := by
    refine Text.Begins.append (hrow.begins fun t ht => ?_) (solid_of_follow hbehind)
    obtain ⟨item, hitem, rfl⟩ := List.mem_map.mp ht
    exact (hmembers item hitem).starts
  exact (Parser.reads_symbol hopening hsolid).between
    (Parser.reads_sepBy hmembers (quiet_ready d) (by simp [Follow]) hseparate hbehind
      (hnone _ hend.begins) hrow)
    (Parser.reads_symbol hclosing hrest)

/-- A text that denotes a value is read as that value. -/
theorem Denotes.reads (h : Denotes d t v) (hrest : rest.Begins Follow) :
    value.Reads (Ready d) t rest v := by
  induction h generalizing rest with
  | nullWord h =>
      exact reads_of_alternative 0 rfl (h.starts (by simp))
        ((Parser.reads_symbol h (solid_of_follow hrest)).map (quiet_ready d) rfl)
  | trueWord h =>
      exact reads_of_alternative 1 rfl (h.starts (by simp))
        ((Parser.reads_symbol h (solid_of_follow hrest)).map (quiet_ready d) rfl)
  | falseWord h =>
      exact reads_of_alternative 2 rfl (h.starts (by simp))
        ((Parser.reads_symbol h (solid_of_follow hrest)).map (quiet_ready d) rfl)
  | string h =>
      exact reads_of_alternative 3 rfl h.starts
        (reads_string (quiet_ready d) h (solid_of_follow hrest))
  | number h =>
      refine reads_of_alternative 4 rfl h.starts
        (reads_number (quiet_ready d) h (solid_of_follow hrest) (hrest.mono ?_))
      rintro _ (rfl | rfl | rfl) <;> decide
  | @object opening row closing entries hopening hnames hcolons hvalues hrow hclosing ih =>
      let items : List (Text × Value) :=
        entries.map fun e => (e.text, e.toValue)
      have hmembers : ∀ item ∈ items, Parser.Member (Ready d) (entry d) Follow item := by
        intro item hitem
        obtain ⟨e, he, rfl⟩ := List.mem_map.mp hitem
        have hstarts : e.name.Starts fun c => Character.isBlank c = false :=
          (hnames e he).starts.mono (by rintro _ rfl; decide)
        refine ⟨hstarts.append _, fun rest hrest => ?_⟩
        exact reads_entry (hnames e he) (hcolons e he) (hvalues e he).starts (ih e he hrest)
      have hrow' : Text.Row (Text.Sign ",") (items.map Prod.fst) row := by
        rw [List.map_map]
        exact hrow
      have hnone (text : Text) (h : text.Begins (· = '\x7d')) : (entry d).Refuses (Ready d) text :=
        refuses_entry (h.mono (by rintro _ rfl; decide))
      have hbrackets := reads_brackets (x := '\x7d') hmembers hopening hclosing hrow' (by simp)
        (.inr (.inr rfl)) (by decide) hnone (solid_of_follow hrest)
      rw [List.map_map] at hbrackets
      exact reads_of_alternative 5 rfl ((hopening.starts (by simp)).append _)
        (hbrackets.map (quiet_ready d) (dictionary_list entries))
  | array hopening hitems hrow hclosing ih =>
      have hbrackets := reads_brackets (x := ']') (fun item hmem => ⟨(hitems item hmem).starts,
        fun _ => ih item hmem⟩) hopening hclosing hrow (by simp) (.inr (.inl rfl)) (by decide)
        (fun text h => refuses_value (h.mono fun _ hc => .inr (.inl hc))) (solid_of_follow hrest)
      exact reads_of_alternative 6 rfl ((hopening.starts (by simp)).append _) hbrackets

end Reading

section Yielding

variable {d : Decoder} {n : Nat}

/-- An entry that stands for a pair of a key and a value. -/
structure Entry.Sound (d : Decoder) (e : Entry) : Prop where
  name : StringToken d e.name e.key
  colon : e.colon.Sign ":"
  body : Denotes d e.body e.value

theorem yields_entry (hvalue : value.Yields (Ready d) n (Denotes d)) :
    (entry d).Yields (Ready d) n fun t v =>
      ∃ e : Entry, e.Sound d ∧ t = e.text ∧ v = e.toValue := by
  have hrow := Parser.yields_sequence (.cons (yields_string d (quiet_ready d))
    (.cons (Parser.yields_symbol ":") (.cons hvalue .nil)))
  refine hrow.map (quiet_ready d) ?_
  rintro _ _ v' ⟨vs, rfl, heach⟩ hanswer
  cases heach with
  | cons hname heach =>
      obtain ⟨key, rfl, hname⟩ := hname
      cases heach with
      | cons hcolon heach =>
          cases heach with
          | cons hbody heach =>
              cases heach
              cases hanswer
              exact ⟨⟨_, _, _, key, _⟩, ⟨hname, hcolon, hbody⟩, by simp [Entry.text], rfl⟩

/-- Texts that are those of entries, taken together. -/
theorem exists_entries {items : List (Text × Value)} (h : ∀ item ∈ items, ∃ e : Entry,
    e.Sound d ∧ item.1 = e.text ∧ item.2 = e.toValue) :
    ∃ entries : List Entry, (∀ e ∈ entries, e.Sound d) ∧
      items.map Prod.fst = entries.map Entry.text ∧
      items.map Prod.snd = entries.map fun e => e.toValue := by
  induction items with
  | nil => exact ⟨[], by simp, rfl, rfl⟩
  | cons item items ih =>
      obtain ⟨⟨e, he, htext, hvalue⟩, hitems⟩ := List.forall_mem_cons.mp h
      obtain ⟨entries, hentries, htexts, hvalues⟩ := ih hitems
      exact ⟨e :: entries, List.forall_mem_cons.mpr ⟨he, hentries⟩, by simp [htext, htexts],
        by simp [hvalue, hvalues]⟩

theorem yields_object (hvalue : value.Yields (Ready d) n (Denotes d)) :
    (object d).Yields (Ready d) n (Denotes d) := by
  have hbrackets := (Parser.yields_symbol "\x7b").between
    ((yields_entry hvalue).sepBy (quiet_ready d) ",") (Parser.yields_symbol "\x7d")
  refine hbrackets.map (quiet_ready d) ?_
  rintro _ _ v' ⟨opening, row, closing, _, _, rfl, hopening, ⟨items, hitems, hrow, rfl⟩, hclosing⟩
    hanswer
  obtain ⟨entries, hentries, htexts, hvalues⟩ := exists_entries hitems
  rw [hvalues] at hanswer
  cases (dictionary_list entries).symm.trans hanswer
  exact .object hopening (fun e he => (hentries e he).name) (fun e he => (hentries e he).colon)
    (fun e he => (hentries e he).body) (htexts ▸ hrow) hclosing

theorem yields_array (hvalue : value.Yields (Ready d) n (Denotes d)) :
    array.Yields (Ready d) n (Denotes d) := by
  have hbrackets := (Parser.yields_symbol "[").between (hvalue.sepBy (quiet_ready d) ",")
    (Parser.yields_symbol "]")
  refine hbrackets.mono ?_
  rintro _ _ ⟨opening, row, closing, _, _, rfl, hopening, ⟨items, hitems, hrow, rfl⟩, hclosing⟩
  exact .array hopening hitems hrow hclosing

theorem yields_word {s : String} {v : Value} (h : ∀ t : Text, t.Sign s → Denotes d t v) :
    ((symbol s).result v).Yields (Ready d) n (Denotes d) := by
  refine (Parser.yields_symbol s).map (quiet_ready d) fun t _ v' ht hanswer => ?_
  cases hanswer
  exact h t ht

/-- Whatever is consumed as a value denotes what it is taken for. -/
theorem yields_value (n : Nat) : value.Yields (Ready d) n (Denotes d) := by
  refine Parser.yields_reference (fun n hvalue => Parser.yields_choice ?_) n
  simp only [List.forall_mem_cons]
  refine ⟨yields_word fun _ => .nullWord, yields_word fun _ => .trueWord,
    yields_word fun _ => .falseWord, ?_, ?_, yields_object hvalue, yields_array hvalue, by simp⟩
  · refine (yields_string d (quiet_ready d)).mono ?_
    rintro t _ ⟨s, rfl, h⟩
    exact .string h
  · exact (yields_number d (quiet_ready d)).mono fun _ _ => .number

end Yielding

theorem reads_document {d : Decoder} {s : Text} {v : Value} (h : Document d s v) :
    document.Reads (Ready d) s [] v := by
  obtain ⟨blanks, t, rfl, hblanks, ht⟩ := h
  have hsolid : (t ++ []).Solid := (ht.starts.append []).begins
  exact (Parser.reads_optionalWhitespace hblanks hsolid).andThen (ht.reads Text.begins_nil)

theorem yields_document {d : Decoder} (n : Nat) :
    document.Yields (Ready d) n (Document d) := by
  refine (Parser.yields_optionalWhitespace.andThen (yields_value n)).mono ?_
  rintro _ v ⟨blanks, t, _, rfl, hblanks, ht⟩
  exact ⟨blanks, t, rfl, hblanks, ht⟩

/-- Whatever the decoder of tokens, the reader accepts just the documents of the grammar and
yields what they denote. If it does so within some budget, it does so within every large
one. -/
theorem read_success_iff_document (d : Decoder) (level : Level) (s : Text) (v : Value) :
    ((∃ budget, ((readerWith d).read budget level s).result = .ok (.success v)) ↔
        Document d s v) ∧
      ((∀ᶠ budget in atTop, ((readerWith d).read budget level s).result = .ok (.success v)) ↔
        Document d s v) := by
  let w : World := { world d with threshold := level, journal := [] }
  have hready : Ready d w := ⟨false, rfl⟩
  exact Reader.read_success_iff (fun _ _ => rfl) hready (fun _ _ => reads_document)
    yields_document s v

end Descent.Reader.Json
