/-
# Reading patterns

A pattern is read from its text into a tree. A backslash and the character after
it count as one symbol. Reading keeps a record of the groups met so far, because
a reference may only name a group that is closed, and the part before a place
must have a fixed width.
-/

import Descent.Fault
import Descent.Text.Digits
import Descent.Pattern.Node

namespace Descent.Pattern

open Text (isHexDigit isOctalDigit digitValue numberOf)

/-- The options of a pattern, or of a part of it. -/
structure Options where
  caseless : Bool := false
  multiline : Bool := false
  lineBreaks : Bool := false
  verbose : Bool := false
  plain : Bool := false
  deriving DecidableEq

namespace Options

/-- Which letters count under the options. -/
def alphabet (o : Options) : Alphabet :=
  ⟨o.caseless, o.plain⟩

/-- The options of either. -/
def union (a b : Options) : Options where
  caseless := a.caseless || b.caseless
  multiline := a.multiline || b.multiline
  lineBreaks := a.lineBreaks || b.lineBreaks
  verbose := a.verbose || b.verbose
  plain := a.plain || b.plain

/-- The options with some of them taken away. -/
def without (a b : Options) : Options where
  caseless := a.caseless && !b.caseless
  multiline := a.multiline && !b.multiline
  lineBreaks := a.lineBreaks && !b.lineBreaks
  verbose := a.verbose && !b.verbose
  plain := a.plain && !b.plain

/-- Whether no option is in both. -/
def disjoint (a b : Options) : Bool :=
  !(a.caseless && b.caseless) && !(a.multiline && b.multiline)
    && !(a.lineBreaks && b.lineBreaks) && !(a.verbose && b.verbose)

/-- The option of a letter. -/
def ofLetter? : Char → Option Options
  | 'i' => some { caseless := true }
  | 'm' => some { multiline := true }
  | 's' => some { lineBreaks := true }
  | 'x' => some { verbose := true }
  | 'a' => some { plain := true }
  | _ => none

/-- The letters of the options in fixed order. The alphabet has none. -/
def letters (o : Options) : String :=
  (if o.caseless then "i" else "") ++ (if o.multiline then "m" else "")
    ++ (if o.lineBreaks then "s" else "") ++ (if o.verbose then "x" else "")

end Options

/-- A character of a pattern, or one behind a backslash. -/
inductive Symbol
  | plain (c : Char)
  | escaped (c : Char)
  deriving DecidableEq

/-- The symbols of a pattern, unless it ends in a lone backslash. -/
def symbols? : Text → Option (List Symbol)
  | [] => some []
  | ['\\'] => none
  | '\\' :: c :: rest => (symbols? rest).map (.escaped c :: ·)
  | c :: rest => (symbols? rest).map (.plain c :: ·)

/-- What is known while a pattern is read. -/
structure Progress where
  rest : List Symbol
  /-- The options of the pattern as a whole. -/
  options : Options
  /-- The widths of the groups opened so far; an open group has none yet. -/
  widths : List (Option Width) := []
  names : List (String × Nat) := []
  /-- The groups opened before the outermost part that looks back, inside one. -/
  outside : Option Nat := none

/-- A step of reading. -/
abbrev Reading := StateT Progress (Except Fault)

/-- The pattern is malformed. -/
def malformed {α : Type} : Reading α :=
  throw .malformedPattern

/-- The next symbol, which is kept. -/
def peek? : Reading (Option Symbol) := do
  return (← get).rest.head?

/-- The next symbol, which is used up. -/
def next? : Reading (Option Symbol) := do
  let p ← get
  set { p with rest := p.rest.tail }
  return p.rest.head?

/-- Use up a given character if it comes next. -/
def accept (c : Char) : Reading Bool := do
  if (← peek?) = some (.plain c) then
    let _ ← next?
    return true
  else return false

/-- Demand a given character. -/
def demand (c : Char) : Reading Unit := do
  unless ← accept c do malformed

/-- Use up the characters of a kind that come next, at most a given number. -/
def nextWhile (kind : Char → Bool) : Nat → Reading Text
  | 0 => return []
  | count + 1 => do
      match ← peek? with
      | some (.plain c) =>
          if kind c then
            let _ ← next?
            return c :: (← nextWhile kind count)
          else return []
      | _ => return []

/-- Use up everything up to a given character and that character too. -/
def nextUntil (stop : Char) : Nat → Reading (List Symbol)
  | 0 => malformed
  | fuel + 1 => do
      match ← next? with
      | none => malformed
      | some s => if s = .plain stop then return [] else return s :: (← nextUntil stop fuel)

/-- The number of symbols that are left. -/
def symbolsLeft : Reading Nat := do
  return (← get).rest.length

/-- Exactly so many digits of base sixteen. -/
def hexCode (count : Nat) : Reading Nat := do
  let digits ← nextWhile isHexDigit count
  if digits.length = count then return numberOf 16 digits else malformed

/-- The family of an escape, and whether it is meant to be left out. -/
def familyOf? : Char → Option (Family × Bool)
  | 'd' => some (.decimal, false)
  | 'D' => some (.decimal, true)
  | 's' => some (.blank, false)
  | 'S' => some (.blank, true)
  | 'w' => some (.word, false)
  | 'W' => some (.word, true)
  | _ => none

/-- The control character of an escape that stands for one. -/
def controlOf? : Char → Option Nat
  | 'a' => some 0x07
  | 'f' => some 0x0C
  | 'n' => some 0x0A
  | 'r' => some 0x0D
  | 't' => some 0x09
  | 'v' => some 0x0B
  | '\\' => some 0x5C
  | _ => none

/-- The code point of an escape that is written with digits, for the letters that
announce a fixed number of them. -/
def codeOf? (c : Char) : Reading (Option Nat) := do
  match c with
  | 'x' => return some (← hexCode 2)
  | 'u' => return some (← hexCode 4)
  | 'U' =>
      let n ← hexCode 8
      if n < 0x110000 then return some n else malformed
  | _ => return none

/-- Whether a character is a letter of the seven-bit alphabet; such a letter
behind a backslash must have a meaning. -/
def isReserved (c : Char) : Bool :=
  c.isAlpha

/-- An escape inside a set. -/
def setEscape (c : Char) : Reading Item := do
  if let some (family, complement) := familyOf? c then return .family family complement
  if c = 'b' then return .code 0x08
  if let some n := controlOf? c then return .code n
  if let some n ← codeOf? c then return .code n
  if isOctalDigit c then
    let n := numberOf 8 (c :: (← nextWhile isOctalDigit 2))
    if n ≤ 0o377 then return .code n else malformed
  else if c.isDigit || isReserved c then malformed
  else return .code c.toNat

/-- One item of a set, from the symbol that starts it. -/
def setItem : Symbol → Reading Item
  | .plain c => return .code c.toNat
  | .escaped c => setEscape c

/-- The items of a set up to its closing bracket. A bracket that comes first is
an item itself. -/
def setItems : Nat → List Item → Reading (List Item)
  | 0, _ => malformed
  | fuel + 1, items => do
      match ← next? with
      | none => malformed
      | some s =>
          if s = .plain ']' && !items.isEmpty then return items
          let first ← setItem s
          if ← accept '-' then
            match ← next? with
            | none => malformed
            | some (.plain ']') => return items ++ [first, .code '-'.toNat]
            | some t =>
                match first, ← setItem t with
                | .code low, .code high =>
                    if low ≤ high then setItems fuel (items ++ [.range low high])
                    else malformed
                | _, _ => malformed
          else setItems fuel (items ++ [first])

/-- A set of characters, after its opening bracket. -/
def readSet (o : Options) : Reading Node := do
  let outside ← accept '^'
  let items ← setItems ((← symbolsLeft) + 1) []
  return .set o.alphabet outside items

/-- The tree of one character given by its code point. -/
def single (o : Options) (code : Nat) : Node :=
  .set o.alphabet false [.code code]

/-- A part of a sequence, with what decides whether it may be repeated. -/
inductive Piece
  | plain (node : Node)
  | anchor (a : Anchor)
  | repeated (node : Node)

/-- The tree of a part. -/
def Piece.node : Piece → Node
  | .plain node | .repeated node => node
  | .anchor a => .anchor a

/-- A reference to a group, which must be closed, and outside a part that looks
back if the reference is inside. -/
def reference (o : Options) (number : Nat) : Reading Node := do
  let p ← get
  match p.widths[number - 1]? with
  | some (some _) =>
      match p.outside with
      | some count => if count < number then malformed else return .again number o.alphabet
      | none => return .again number o.alphabet
  | _ => malformed

/-- An escape of digits outside a set: three digits of base eight are a code
point, and one or two others a reference to a group. -/
def digitEscape (o : Options) (c : Char) : Reading Node := do
  match ← nextWhile Char.isDigit 1 with
  | [] => reference o (digitValue c)
  | d :: _ =>
      if isOctalDigit c && isOctalDigit d then
        match ← nextWhile isOctalDigit 1 with
        | [] => reference o (numberOf 10 [c, d])
        | e :: _ =>
            let n := numberOf 8 [c, d, e]
            if n ≤ 0o377 then return single o n else malformed
      else reference o (numberOf 10 [c, d])

/-- An escape outside a set. -/
def readEscape (o : Options) (c : Char) : Reading Piece := do
  if let some (family, complement) := familyOf? c then
    return .plain (.set o.alphabet false [.family family complement])
  match c with
  | 'A' => return .anchor .textStart
  | 'Z' => return .anchor .textEnd
  | 'b' => return .anchor (.boundary o.plain)
  | 'B' => return .anchor (.noBoundary o.plain)
  | _ =>
      if let some n := controlOf? c then return .plain (single o n)
      if let some n ← codeOf? c then return .plain (single o n)
      if c = '0' then
        return .plain (single o (numberOf 8 (← nextWhile isOctalDigit 2)))
      else if c.isDigit then return .plain (← digitEscape o c)
      else if isReserved c then malformed
      else return .plain (single o c.toNat)

/-- The bounds of a repetition in braces, or nothing if the braces are text. -/
def readBounds? : Reading (Option (Nat × Option Nat)) := do
  let start ← get
  if start.rest.head? = some (.plain '\x7d') then return none
  let low ← nextWhile Char.isDigit start.rest.length
  let high ← if ← accept ',' then nextWhile Char.isDigit start.rest.length else pure low
  if ← accept '\x7d' then
    let least := numberOf 10 low
    let most := if high.isEmpty then none else some (numberOf 10 high)
    if 4294967295 ≤ least || 4294967295 ≤ most.getD 0 then throw .tooLarge
    return some (least, most)
  else
    set start
    return none

/-- The bounds of a repetition, from the character that announces it. -/
def boundsOf? : Char → Reading (Option (Nat × Option Nat))
  | '*' => return some (0, none)
  | '+' => return some (1, none)
  | '?' => return some (0, some 1)
  | _ => readBounds?

/-- Repeat a part. -/
def repeatPiece (least : Nat) (most : Option Nat) : Option Piece → Reading Piece
  | some (.plain node) => do
      let greed : Greed ←
        if ← accept '?' then pure .fewest
        else if ← accept '+' then pure .possessive
        else pure .most
      return .repeated (.repeated greed least (most.map (· - least)) node)
  | _ => malformed

/-- Whether the bounds of a repetition are out of order. -/
def disordered (least : Nat) (most : Option Nat) : Bool :=
  match most with
  | some m => m < least
  | none => false

/-- Whether a character is skipped in a verbose pattern. -/
def isLayout (c : Char) : Bool :=
  Character.isPlainBlank c

/-- Skip a comment of a verbose pattern. -/
def skipLine : Nat → Reading Unit
  | 0 => return ()
  | fuel + 1 => do
      match ← next? with
      | none | some (.plain '\n') => return ()
      | _ => skipLine fuel

/-- Whether a name may stand for a group. -/
def isName : Text → Bool
  | [] => false
  | c :: rest =>
      let start (c : Char) : Bool := c = '_' || Character.isLetter c
      start c && rest.all fun c => start c || Character.isAlphanumeric c

/-- The name of a group up to a closing character. -/
def groupName (stop : Char) : Reading String := do
  let symbols ← nextUntil stop ((← symbolsLeft) + 1)
  let name := symbols.flatMap fun
    | .plain c => [c]
    | .escaped c => ['\\', c]
  if isName name then return String.ofList name else malformed

/-- The options of letters up to one of the given characters, which is answered
too. -/
def optionLetters (stops : List Char) : Nat → Options → Bool → Option Symbol →
    Reading (Options × Char)
  | 0, _, _, _ => malformed
  | fuel + 1, o, started, some (.plain c) => do
      if started && stops.contains c then return (o, c)
      else if c = 'u' then optionLetters stops fuel o true (← next?)
      else
        match Options.ofLetter? c with
        | some more => optionLetters stops fuel (o.union more) true (← next?)
        | none => malformed
  | _, _, _, _ => malformed

/-- What the options after an opening bracket are for. -/
inductive OptionScope
  | whole (o : Options)
  | part (added removed : Options)

/-- Options after an opening bracket and a question mark, from the first symbol. -/
def readOptions (first : Symbol) : Reading OptionScope := do
  let fuel := (← symbolsLeft) + 2
  let (added, stop) ←
    if first = .plain '-' then pure ({}, '-')
    else optionLetters [')', '-', ':'] fuel {} false (some first)
  if stop = ')' then return .whole added
  let removed ←
    if stop = '-' then
      let (removed, _) ← optionLetters [':'] fuel {} false (← next?)
      pure removed
    else pure {}
  if removed.plain || !added.disjoint removed then malformed
  else return .part added removed

/-- Open a group, and answer with its number. -/
def openGroup (name : Option String) : Reading Nat := do
  let p ← get
  let number := p.widths.length + 1
  match name with
  | some n =>
      if p.names.any (·.1 == n) then malformed
      else set { p with widths := p.widths ++ [none], names := p.names ++ [(n, number)] }
  | none => set { p with widths := p.widths ++ [none] }
  return number

/-- The width of a tree under the groups met so far. -/
def widthOf (node : Node) : Reading Width := do
  let p ← get
  return node.width fun number => ((p.widths[number - 1]?).join).getD (.exactly 0)

/-- Close a group. -/
def closeGroup (number : Nat) (body : Node) : Reading Node := do
  let width ← widthOf body
  modify fun p => { p with widths := p.widths.set (number - 1) (some width) }
  return .group number body

/-- A part that looks back, which must have a fixed width. -/
def lookingBack (holds : Bool) (body : Node) : Reading Node := do
  let width ← widthOf body
  if width.most = some width.least then return .behind holds width.least body else malformed

/-- What an opening bracket starts. -/
inductive Opening
  | capture (name : Option String)
  | part (added removed : Options)
  | atomic
  | ahead (holds : Bool)
  | behind (holds : Bool)
  /-- Nothing is left to read inside the brackets. -/
  | done (node : Option Node)
  | options (o : Options)

/-- What follows an opening bracket and decides what it starts. -/
def readOpening (o : Options) : Reading Opening := do
  unless ← accept '?' do return .capture none
  match ← next? with
  | some (.plain 'P') =>
      if ← accept '<' then return .capture (some (← groupName '>'))
      else if ← accept '=' then
        let name ← groupName ')'
        match (← get).names.find? (·.1 == name) with
        | some (_, number) => return .done (some (← reference o number))
        | none => malformed
      else malformed
  | some (.plain ':') => return .part {} {}
  | some (.plain '#') =>
      let _ ← nextUntil ')' ((← symbolsLeft) + 1)
      return .done none
  | some (.plain '=') => return .ahead true
  | some (.plain '!') => return .ahead false
  | some (.plain '<') =>
      if ← accept '=' then return .behind true
      else if ← accept '!' then return .behind false
      else malformed
  | some (.plain '>') => return .atomic
  | some s =>
      match ← readOptions s with
      | .whole more => return .options more
      | .part added removed => return .part added removed
  | none => malformed

mutual

/-- A choice up to the end of the part. `top` says that the part is the whole
pattern. -/
def readChoice (fuel : Nat) (top : Bool) (o : Options) : Reading Node :=
  match fuel with
  | 0 => malformed
  | fuel + 1 => do
      let first ← readSequence fuel top o []
      if ← accept '|' then
        let known ← get
        let rest ← readBranches fuel (if top then known.options else o)
        return Node.choice (first :: rest)
      else return first

/-- The further branches of a choice. -/
def readBranches (fuel : Nat) (o : Options) : Reading (List Node) :=
  match fuel with
  | 0 => malformed
  | fuel + 1 => do
      let branch ← readSequence fuel false o []
      if ← accept '|' then return branch :: (← readBranches fuel o)
      else return [branch]

/-- Parts one after another, up to a bar, a closing bracket or the end. The parts
read so far are given last first. `leading` says that options for the whole
pattern may still come. -/
def readSequence (fuel : Nat) (leading : Bool) (o : Options) (pieces : List Piece) :
    Reading Node :=
  match fuel with
  | 0 => malformed
  | fuel + 1 => do
      let more (piece : Piece) : Reading Node := readSequence fuel leading o (piece :: pieces)
      match ← peek? with
      | none | some (.plain '|') | some (.plain ')') =>
          return Node.sequence (pieces.reverse.map Piece.node)
      | some (.escaped c) =>
          let _ ← next?
          more (← readEscape o c)
      | some (.plain c) =>
          let _ ← next?
          if o.verbose && isLayout c then readSequence fuel leading o pieces
          else if o.verbose && c = '#' then
            skipLine ((← symbolsLeft) + 1)
            readSequence fuel leading o pieces
          else if c = '[' then more (.plain (← readSet o))
          else if c = '*' || c = '+' || c = '?' || c = '\x7b' then
            match ← boundsOf? c with
            | none => more (.plain (single o c.toNat))
            | some (least, most) =>
                if disordered least most then malformed
                else
                  let piece ← repeatPiece least most pieces.head?
                  readSequence fuel leading o (piece :: pieces.tail)
          else if c = '.' then more (.plain (.any o.lineBreaks))
          else if c = '^' then more (.anchor (if o.multiline then .lineStart else .textStart))
          else if c = '$' then
            more (.anchor (if o.multiline then .lineEnd else .lastLineEnd))
          else if c = '(' then
            match ← readOpening o with
            | .options added =>
                if leading && pieces.isEmpty then
                  modify fun p => { p with options := p.options.union added }
                  readSequence fuel leading (o.union added) pieces
                else malformed
            | .done none => readSequence fuel leading o pieces
            | .done (some node) => more (.plain node)
            | opening => more (.plain (← readGroup fuel o opening))
          else more (.plain (single o c.toNat))

/-- The inside of a group and its closing bracket. -/
def readGroup (fuel : Nat) (o : Options) (opening : Opening) : Reading Node :=
  match fuel with
  | 0 => malformed
  | fuel + 1 => do
      match opening with
      | .capture name =>
          let number ← openGroup name
          let body ← readChoice fuel false o
          demand ')'
          closeGroup number body
      | .part added removed =>
          let body ← readChoice fuel false ((o.union added).without removed)
          demand ')'
          return body
      | .atomic =>
          let body ← readChoice fuel false o
          demand ')'
          return .atomic body
      | .ahead holds =>
          let body ← readChoice fuel false o
          demand ')'
          return .ahead holds body
      | .behind holds =>
          let before ← get
          if before.outside.isNone then
            set { before with outside := some before.widths.length }
          let body ← readChoice fuel false o
          modify fun p => { p with outside := before.outside }
          demand ')'
          lookingBack holds body
      | .done _ | .options _ => malformed

end

end Descent.Pattern
