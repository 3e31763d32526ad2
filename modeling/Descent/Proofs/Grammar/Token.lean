/-
# Tokens, rows and chains

A token swallows the white space that follows it, so it is read as a whole only before a
text that does not begin with white space. A row has separators between its members, a
chain has operators between its operands. The rules here say what texts such parsers read
and which texts they consume.
-/

import Descent.Proofs.Grammar.Yield
import Descent.Reader

namespace Descent

open scoped Computability

/-- White space stands outside the visible characters of the seven-bit alphabet. -/
theorem Character.toNat_of_isBlank {c : Char} (h : isBlank c = true) :
    c.toNat ≤ 0x20 ∨ 0x85 ≤ c.toNat := by
  by_contra hvisible
  have hlo : ¬ c.toNat < 0x9 ∧ ¬ c.toNat ≤ 0xD ∧ ¬ c.toNat < 0x1C ∧ ¬ c.toNat ≤ 0x20 := by omega
  have hhi : c.toNat < 0x85 := by omega
  simp [isBlank, inRanges, blankRanges, hlo, hhi] at h

theorem Character.isBlank_of_visible {c : Char} (hlo : 0x20 < c.toNat) (hhi : c.toNat < 0x85) :
    isBlank c = false := by
  by_contra hblank
  have hcode := toNat_of_isBlank (c := c) (by simpa using hblank)
  omega

theorem Character.toNat_of_isDigit {c : Char} (h : c.isDigit = true) :
    0x30 ≤ c.toNat ∧ c.toNat ≤ 0x39 := by
  simpa [Char.isDigit, UInt32.le_iff_toNat_le] using h

theorem Character.isBlank_of_isDigit {c : Char} (h : c.isDigit = true) : isBlank c = false := by
  obtain ⟨hlo, hhi⟩ := toNat_of_isDigit h
  exact isBlank_of_visible (by omega) (by omega)

namespace Text

/-- White space only. -/
def Blank (t : Text) : Prop :=
  ∀ c ∈ t, Character.isBlank c = true

/-- The text does not begin with white space. -/
def Solid (t : Text) : Prop :=
  Begins (fun c => Character.isBlank c = false) t

/-- A given text with white space behind it. -/
def Sign (s : String) (t : Text) : Prop :=
  ∃ blanks, Blank blanks ∧ t = s.toList ++ blanks

/-- Members of a row that stand behind others, each with a separator before it. -/
inductive Further (sep : Text → Prop) : List Text → Text → Prop
  | nil : Further sep [] []
  | cons {b t rest : Text} {ts : List Text} (hsep : sep b) (h : Further sep ts rest) :
      Further sep (t :: ts) (b ++ t ++ rest)

/-- Members of a row with separators between them. -/
inductive Row (sep : Text → Prop) : List Text → Text → Prop
  | nil : Row sep [] []
  | cons {t rest : Text} {ts : List Text} (h : Further sep ts rest) : Row sep (t :: ts) (t ++ rest)

theorem Sign.starts {holds : Char → Prop} {s : String} {t : Text} (h : t.Sign s)
    (hs : Starts holds s.toList) : t.Starts holds := by
  obtain ⟨blanks, -, rfl⟩ := h
  exact hs.append blanks

/-- A row is empty or starts with its first member. -/
theorem Row.begins {holds : Char → Prop} {sep : Text → Prop} {ts : List Text} {t : Text}
    (h : Row sep ts t) (hts : ∀ t ∈ ts, t.Starts holds) : t.Begins holds := by
  cases h with
  | nil => exact begins_nil
  | cons => exact ((hts _ List.mem_cons_self).append _).begins

theorem Blank.begins {holds : Char → Prop} {t : Text} (h : t.Blank)
    (himp : ∀ {c}, Character.isBlank c = true → holds c) : t.Begins holds :=
  fun c hc => himp (h c (List.mem_of_mem_head? hc))

end Text

theorem Pattern.mem_kstar_oneOf {holds : Char → Bool} {t : Text} :
    t ∈ (oneOf holds)∗ ↔ ∀ c ∈ t, holds c = true := by
  rw [Language.mem_kstar]
  constructor
  · rintro ⟨pieces, rfl, hpieces⟩ c hc
    obtain ⟨piece, hpiece, hmem⟩ := List.mem_flatten.mp hc
    obtain ⟨x, hx, rfl⟩ := hpieces piece hpiece
    rw [List.mem_singleton.mp hmem]
    exact hx
  · intro h
    have hflatten : t = (t.map ([·])).flatten := by
      rw [← List.flatMap_def, List.flatMap_singleton']
    refine ⟨t.map ([·]), hflatten, fun piece hpiece => ?_⟩
    obtain ⟨x, hx, rfl⟩ := List.mem_map.mp hpiece
    exact ⟨x, h x hx, rfl⟩

theorem Pattern.mem_language_optionalBlanks {t : Text} :
    t ∈ optionalBlanks.root.language ↔ t.Blank := by
  have hroot : optionalBlanks.root.language = (oneOf Character.isBlank)∗ := by
    change (Node.star Node.blank).language = _
    rw [Node.language_star]
    congr 1
    simp [Node.blank, Node.among, Node.language, Item.covers, Family.holds]
  rw [hroot, mem_kstar_oneOf]
  rfl

theorem Pattern.predictable_optionalBlanks :
    optionalBlanks.root.Predictable fun c => Character.isBlank c = false := by
  refine Node.Predictable.star (Node.predictable_set _ _ _) (Node.opens_set fun x hx => ?_)
  simp only [List.any_cons, List.any_nil, Item.covers, Family.holds] at hx
  simpa using hx

/-- What a reader reports is how its parse ends in its world. -/
theorem Reader.read_result_eq_ok_iff {r : Reader} {budget : Nat} {level : Level} {s : Text}
    {outcome : Outcome} : (r.read budget level s).result = .ok outcome ↔
      ∃ after, r.parse budget s { r.world with threshold := level, journal := [] } =
        .ok outcome after := by
  let w : World := { r.world with threshold := level, journal := [] }
  have hread : (r.read budget level s).result =
      (Session.observe { r.world with threshold := level } (r.parse budget s)).1.result := rfl
  change _ ↔ ∃ after, r.parse budget s w = .ok outcome after
  rw [hread, Session.observe]
  split
  · next a after hend =>
    have hparse : r.parse budget s w = .ok a after := hend
    simp [hparse]
  · next halt after hend =>
    have hparse : r.parse budget s w = .error halt after := hend
    simp [hparse]

theorem Reader.read_result_of_error {r : Reader} {budget : Nat} {level : Level} {s : Text}
    {halt : Halt} {after : World}
    (h : r.parse budget s { r.world with threshold := level, journal := [] } =
      .error halt after) : (r.read budget level s).result = .error halt := by
  have hread : (r.read budget level s).result =
      (Session.observe { r.world with threshold := level } (r.parse budget s)).1.result := rfl
  rw [hread, Session.observe]
  split
  · next hend => cases hend.symm.trans h
  · next hend =>
    cases hend.symm.trans h
    rfl

/-- A reader accepts just the inputs of a relation, with the values that it gives them, if
its parser reads these and consumes no others. Success within some budget is success within
every large one. -/
theorem Reader.read_success_iff {r : Reader} {p : Parser} {ready : World → Prop}
    {R : Text → Value → Prop} {level : Level} {u : World}
    (hparse : ∀ budget s, r.parse budget s { r.world with threshold := level, journal := [] } =
      p.parse budget s u)
    (hu : ready u) (hreads : ∀ s v, R s v → p.Reads ready s [] v)
    (hyields : ∀ n, p.Yields ready n R) (s : Text) (v : Value) :
    ((∃ budget, (r.read budget level s).result = .ok (.success v)) ↔ R s v) ∧
      ((∀ᶠ budget in Filter.atTop, (r.read budget level s).result = .ok (.success v)) ↔
        R s v) := by
  have hsome : (∃ budget, (r.read budget level s).result = .ok (.success v)) → R s v := by
    rintro ⟨budget, hread⟩
    obtain ⟨after, hend⟩ := read_result_eq_ok_iff.mp hread
    exact Parser.related_of_parse hyields hu ((hparse budget s).symm.trans hend)
  have hmost (h : R s v) :
      ∀ᶠ budget in Filter.atTop, (r.read budget level s).result = .ok (.success v) := by
    filter_upwards [Parser.parse_of_reads (hreads s v h) hu] with budget hend
    exact read_result_eq_ok_iff.mpr (hend.imp fun _ => (hparse budget s).trans)
  exact ⟨⟨hsome, fun h => (hmost h).exists⟩, fun h => hsome h.exists, hmost⟩

namespace Parser

open Reader

variable {ready : World → Prop} {n : Nat} {p sep : Parser} {t text rest blanks : Text} {v : Value}
  {R S : Text → Value → Prop} {s : String}

theorem reads_optionalWhitespace (hblanks : blanks.Blank) (hrest : rest.Solid) :
    optionalWhitespace.Reads ready blanks rest (.text blanks) := by
  have htakes := Pattern.predictable_optionalBlanks blanks
    (Pattern.mem_language_optionalBlanks.mpr hblanks) rest hrest
  exact (reads_pattern htakes).label _

theorem yields_optionalWhitespace :
    optionalWhitespace.Yields ready n fun t _ => t.Blank :=
  ((yields_pattern _).label _).mono fun _ _ h =>
    Pattern.mem_language_optionalBlanks.mp h.1

theorem Reads.lexeme (hp : p.Reads ready t (blanks ++ rest) v) (hblanks : blanks.Blank)
    (hrest : rest.Solid) : (lexeme p).Reads ready (t ++ blanks) rest v :=
  hp.skip (reads_optionalWhitespace hblanks hrest)

theorem Refuses.lexeme (hp : p.Refuses ready text) : (lexeme p).Refuses ready text :=
  hp.skip _

theorem Yields.lexeme (hp : p.Yields ready n R) : (lexeme p).Yields ready n fun t v =>
    ∃ body blanks, t = body ++ blanks ∧ R body v ∧ blanks.Blank := by
  refine (hp.skip yields_optionalWhitespace).mono ?_
  rintro _ _ ⟨body, blanks, v, rfl, hR, rfl, -, hblanks⟩
  exact ⟨body, blanks, rfl, hR, hblanks⟩

theorem reads_symbol (h : t.Sign s) (hrest : rest.Solid) :
    (symbol s).Reads ready t rest (.str s) := by
  obtain ⟨blanks, hblanks, rfl⟩ := h
  exact (reads_string s _).lexeme hblanks hrest

theorem refuses_symbol (h : ¬ s.toList <+: text) : (symbol s).Refuses ready text :=
  (refuses_string h).lexeme

/-- A given text is refused where another character stands. -/
theorem refuses_symbol_of_begins {c : Char} (hs : Text.Starts (· = c) s.toList)
    (h : text.Begins (· ≠ c)) : (symbol s).Refuses ready text := by
  refine refuses_symbol ?_
  rintro ⟨more, rfl⟩
  obtain ⟨d, hd, rfl⟩ := hs.append more
  exact h d hd rfl

theorem yields_symbol (s : String) : (symbol s).Yields ready n fun t _ => t.Sign s := by
  refine (yields_string s).lexeme.mono ?_
  rintro _ _ ⟨_, blanks, rfl, ⟨rfl, -⟩, hblanks⟩
  exact ⟨blanks, hblanks, rfl⟩

theorem Yields.between {opening closing : Parser} {Ro Rc : Text → Value → Prop}
    (hopening : opening.Yields ready n Ro) (hp : p.Yields ready n R)
    (hclosing : closing.Yields ready n Rc) :
    (between opening closing p).Yields ready n fun t v => ∃ t₁ t₂ t₃ v₁ v₃,
      t = t₁ ++ (t₂ ++ t₃) ∧ Ro t₁ v₁ ∧ R t₂ v ∧ Rc t₃ v₃ := by
  refine ((hopening.andThen hp).skip hclosing).mono ?_
  rintro _ _ ⟨_, t₃, v, rfl, ⟨t₁, t₂, v₁, rfl, ho, hR⟩, rfl, v₃, hc⟩
  exact ⟨t₁, t₂, t₃, v₁, v₃, by rw [List.append_assoc], ho, hR, hc⟩

section Choice

/-- Alternatives, each with the characters that its texts start with: an alternative refuses
what starts otherwise, and no two of them start alike. -/
structure Separate (ready : World → Prop) (alternatives : List (Parser × (Char → Prop))) :
    Prop where
  refuses : ∀ a ∈ alternatives, ∀ text, Text.Begins (fun c => ¬ a.2 c) text →
    a.1.Refuses ready text
  disjoint : alternatives.Pairwise fun a b => ∀ c, b.2 c → ¬ a.2 c

variable {alternatives : List (Parser × (Char → Prop))} {opens : Char → Prop}

/-- The first character decides which alternative reads a text. -/
theorem Separate.reads (h : Separate ready alternatives) (hmem : (p, opens) ∈ alternatives)
    (hstarts : t.Starts opens) (hp : p.Reads ready t rest v) :
    (choice (alternatives.map Prod.fst)).Reads ready t rest v := by
  obtain ⟨before, after, rfl⟩ := List.append_of_mem hmem
  rw [List.map_append, List.map_cons]
  refine hp.choice (fun q hq => ?_) _
  obtain ⟨a, ha, rfl⟩ := List.mem_map.mp hq
  refine h.refuses a (List.mem_append_left _ ha) _ ((hstarts.append rest).begins.mono ?_)
  exact (List.pairwise_append.mp h.disjoint).2.2 a ha _ List.mem_cons_self

theorem Separate.refuses_choice (h : Separate ready alternatives)
    (htext : text.Begins fun c => ∀ a ∈ alternatives, ¬ a.2 c) :
    (choice (alternatives.map Prod.fst)).Refuses ready text := by
  refine .choice fun q hq => ?_
  obtain ⟨a, ha, rfl⟩ := List.mem_map.mp hq
  exact h.refuses a ha text (htext.mono fun c hc => hc a ha)

end Choice

section Rows

variable {follow : Char → Prop} {items : List (Text × Value)}

/-- A text and its value as a member of a row: it does not begin with white space, and it is
read wherever one of the given characters follows. -/
structure Member (ready : World → Prop) (p : Parser) (follow : Char → Prop)
    (item : Text × Value) : Prop where
  starts : item.1.Starts fun c => Character.isBlank c = false
  reads : ∀ rest, Text.Begins follow rest → p.Reads ready item.1 rest item.2

theorem readsAll_further (hitems : ∀ item ∈ items, Member ready p follow item)
    (hs : Text.Starts follow s.toList) (hend : ¬ s.toList <+: rest)
    (hrest : Text.Begins follow rest) (h : Text.Further (Text.Sign s) (items.map Prod.fst) t) :
    Text.Begins follow (t ++ rest) ∧
      ((symbol s).andThen p).ReadsAll ready t rest (items.map Prod.snd) := by
  induction items generalizing t with
  | nil =>
      cases h
      exact ⟨hrest, .nil ((refuses_symbol hend).andThen p)⟩
  | cons item items ih =>
      obtain ⟨hitem, hitems⟩ := List.forall_mem_cons.mp hitems
      cases h with
      | @cons b _ t' _ hsep hfurther =>
          obtain ⟨hbegins, hall⟩ := ih hitems hfurther
          have hb : b.Starts follow := hsep.starts hs
          refine ⟨?_, .cons ?_ ?_ hall⟩
          · rw [List.append_assoc, List.append_assoc]
            exact (hb.append _).begins
          · exact (reads_symbol hsep (hitem.starts.append _).begins).andThen
              (hitem.reads _ hbegins)
          · exact (hb.append _).ne_nil

theorem reads_sepBy (hitems : ∀ item ∈ items, Member ready p follow item)
    (hquiet : World.Quiet ready) (hs : Text.Starts follow s.toList) (hend : ¬ s.toList <+: rest)
    (hrest : Text.Begins follow rest) (hnone : p.Refuses ready rest)
    (h : Text.Row (Text.Sign s) (items.map Prod.fst) t) :
    (p.sepBy (symbol s)).Reads ready t rest (.list (items.map Prod.snd)) := by
  cases items with
  | nil =>
      cases h
      exact .orElse_right (hnone.bind _) (reads_pure _ _)
  | cons item items =>
      obtain ⟨hitem, hitems⟩ := List.forall_mem_cons.mp hitems
      cases h with
      | cons hfurther =>
          obtain ⟨hbegins, hall⟩ := readsAll_further hitems hs hend hrest hfurther
          exact ((hitem.reads _ hbegins).bind (hall.many.map hquiet rfl)).orElse_left _

/-- A row whose members have values has the list of these as its value. -/
def RowOf (R : Text → Value → Prop) (s : String) (t : Text) (v : Value) : Prop :=
  ∃ items : List (Text × Value), (∀ item ∈ items, R item.1 item.2) ∧
    Text.Row (Text.Sign s) (items.map Prod.fst) t ∧ v = .list (items.map Prod.snd)

/-- Separators and members one after another are the further members of a row. -/
theorem exists_further {pieces : List (Text × Value)}
    (h : ∀ piece ∈ pieces, Joined (fun t _ => t.Sign s) (fun _ => R) piece.1 piece.2) :
    ∃ items : List (Text × Value), (∀ item ∈ items, R item.1 item.2) ∧
      Text.Further (Text.Sign s) (items.map Prod.fst) (pieces.map Prod.fst).flatten ∧
        pieces.map Prod.snd = items.map Prod.snd := by
  induction pieces with
  | nil => exact ⟨[], by simp, .nil, rfl⟩
  | cons piece pieces ih =>
      obtain ⟨hpiece, hpieces⟩ := List.forall_mem_cons.mp h
      obtain ⟨items, hitems, hfurther, hvalues⟩ := ih hpieces
      obtain ⟨b, t, _, htext, hb, hR⟩ := hpiece
      refine ⟨(t, piece.2) :: items, List.forall_mem_cons.mpr ⟨hR, hitems⟩, ?_, by simp [hvalues]⟩
      rw [List.map_cons, List.map_cons, List.flatten_cons, htext]
      exact .cons hb hfurther

theorem Yields.sepBy (hquiet : World.Quiet ready) (hp : p.Yields ready n R) (s : String) :
    (p.sepBy (symbol s)).Yields ready n (RowOf R s) := by
  have hsymbol : (symbol s).Yields ready n fun t _ => t.Sign s := yields_symbol s
  have htail := (hsymbol.andThen hp).many
  refine Yields.orElse ?_ ((yields_pure _).mono ?_)
  · have hrow (first : Value) := htail.map hquiet (S := fun t v => ∃ vs,
      v = .list (first :: vs) ∧ All (Joined (fun t _ => t.Sign s) fun _ => R) t vs)
      (f := fun rest => .answer (.list (first :: rest.items))) ?_
    · refine (hp.bind hrow).mono ?_
      rintro _ _ ⟨t₁, t₂, v₁, rfl, hR, vs, rfl, pieces, hpieces, rfl, rfl⟩
      obtain ⟨items, hitems, hfurther, hvalues⟩ := exists_further hpieces
      exact ⟨(t₁, v₁) :: items, List.forall_mem_cons.mpr ⟨hR, hitems⟩, .cons hfurther, by
        simp [hvalues]⟩
    · rintro t _ v' ⟨vs, rfl, hall⟩ hanswer
      cases hanswer
      exact ⟨vs, rfl, hall⟩
  · rintro _ _ ⟨rfl, rfl⟩
    exact ⟨[], by simp, .nil, rfl⟩

end Rows

section Chains

variable {op : Parser} {t' : Text} {v' : Value} {pairs : List Value}

theorem reads_chainLeft (hquiet : World.Quiet ready) (hp : p.Reads ready t (t' ++ rest) v)
    (hpairs : (sequence [op, p]).ReadsAll ready t' rest pairs)
    (hfold : (foldLeft v pairs).result = .ok v') :
    (p.chainLeft op).Reads ready (t ++ t') rest v' := by
  have hrow : ReadsEach ready [p, (sequence [op, p]).many] (t ++ (t' ++ [])) rest
      [v, .list pairs] := by
    refine .cons ?_ (.cons hpairs.many .nil)
    rwa [List.append_nil]
  rw [List.append_nil] at hrow
  exact hrow.sequence.map hquiet hfold

/-- An operator and an operand with their values as a pair. -/
def Link (R S : Text → Value → Prop) (t : Text) (v : Value) : Prop :=
  ∃ o u f x, t = o ++ u ∧ S o f ∧ R u x ∧ v = .list [f, x]

theorem yields_link (hp : p.Yields ready n R) (hop : op.Yields ready n S) :
    (sequence [op, p]).Yields ready n (Link R S) := by
  refine (yields_sequence (.cons hop (.cons hp .nil))).mono ?_
  rintro _ _ ⟨vs, rfl, heach⟩
  cases heach with
  | cons ho heach =>
      cases heach with
      | cons hu heach =>
          cases heach
          exact ⟨_, _, _, _, by rw [List.append_nil], ho, hu, rfl⟩

theorem Yields.chainLeft (hquiet : World.Quiet ready) (hp : p.Yields ready n R)
    (hop : op.Yields ready n S) :
    (p.chainLeft op).Yields ready n fun t v => ∃ t₁ t₂ v₁ pairs, t = t₁ ++ t₂ ∧ R t₁ v₁ ∧
      All (Link R S) t₂ pairs ∧ (foldLeft v₁ pairs).result = .ok v := by
  have hlink := yields_link hp hop
  refine (yields_sequence (.cons hp (.cons hlink.many .nil))).map hquiet ?_
  rintro _ _ v' ⟨vs, rfl, heach⟩ hanswer
  cases heach with
  | cons hfirst heach =>
      cases heach with
      | cons hpairs heach =>
          cases heach
          obtain ⟨pairs, rfl, hall⟩ := hpairs
          exact ⟨_, _, _, pairs, by rw [List.append_nil], hfirst, hall, hanswer⟩

end Chains

end Parser

end Descent
