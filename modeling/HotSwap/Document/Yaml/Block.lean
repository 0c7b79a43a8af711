/-
YAML documents: mappings and lists by indentation.

* `Yaml.read` — the value of a document, `null` for an empty one.

Design notes:

* a document is read as a list of lines; a dash that opens an item is replaced by
  a blank, so that what follows it is read as a line of its own;
* values that are not laid out by indentation are read from the characters that
  are left, and the rest is cut into lines again;
* anchors, tags, directives and keys with a question mark are refused;
* the readers recurse on fuel, of which each line and each level takes a unit.
-/
import HotSwap.Document.Yaml.Flow

namespace HotSwap.Yaml

/-! ### Lines -/

/-- A line of a document. -/
abbrev Line := List Char

/-- Cuts a text into lines. -/
def linesOf : List Char → List Line
  | [] => [[]]
  | c :: rest =>
    if c == '\n' then [] :: linesOf rest
    else match linesOf rest with
      | line :: more => (c :: line) :: more
      | [] => [[c]]

/-- Joins lines to a text. -/
def joinLines : List Line → List Char
  | [] => []
  | [line] => line
  | line :: rest => line ++ '\n' :: joinLines rest

/-- How far a line is indented. -/
def indentOf (line : Line) : Nat := (line.takeWhile (· == ' ')).length

/-- The lines behind those that hold nothing. -/
def skipVoid (lines : List Line) : List Line := lines.dropWhile isVoid

/-- Whether a line, its indentation apart, begins an item of a list. -/
def isItem : Line → Bool
  | ['-'] => true
  | '-' :: c :: _ => isBlank c
  | _ => false

/-! ### Keys -/

/-- Splits a plain key off: what stands before a colon with a blank or nothing
behind it. -/
def splitPlainKey : (blankBefore : Bool) → Line → Option (Line × Line)
  | _, [] => none
  | blankBefore, c :: rest =>
    if c == '\t' || (c == '#' && blankBefore) then none
    else if c == ':' && (match rest with | [] => true | d :: _ => isBlank d) then some ([], rest)
    else (splitPlainKey (isBlank c) rest).map fun (front, back) => (c :: front, back)

/-- The key of a line and what stands behind its colon; nothing if the line has
no key. -/
def splitKey (line : Line) : Except Error (Option (String × Line)) :=
  match line with
  | [] => .ok none
  | c :: _ =>
    if c == '"' || c == '\'' then
      match readQuoted line with
      | .error _ => .ok none
      | .ok (key, rest) =>
        match trimFront rest with
        | ':' :: value =>
          if value.isEmpty || (value.head?.map isBlank).getD false then
            .ok (some (String.ofList key, value))
          else .ok none
        | _ => .ok none
    else if c == '[' || c == '\x7b' then .ok none
    else
      match splitPlainKey true line with
      | none => .ok none
      | some (key, value) =>
        if !beginsPlain line then .error .malformed
        else do
          let d ← resolve (trimEnd key)
          return some (← keyOf d, value)

/-! ### Values on a line -/

/-- The rest of a line behind a value: it must hold nothing but a comment. -/
def closeLine (value : Data) (rest : List Char) : Except Error (Data × List Line) :=
  match linesOf rest with
  | line :: more => if isVoid line then .ok (value, more) else .error .malformed
  | [] => .ok (value, [])

/-- The text of a line before a comment, blanks at its end dropped, and whether
there is a comment. -/
def beforeComment (line : Line) : Line × Bool :=
  let rec go (blankBefore : Bool) : Line → Line × Bool
    | [] => ([], false)
    | c :: rest =>
      if c == '#' && blankBefore then ([], true)
      else
        let (front, commented) := go (isBlank c) rest
        (c :: front, commented)
  let (front, commented) := go false line
  (trimEnd front, commented)

/-- Whether a plain scalar holds what would make it a key. -/
def holdsKey (line : Line) : Bool := (splitPlainKey false line).isSome

/-- Reads the further lines of a plain scalar: lines that hold something and are
indented by `least` at least. -/
def readPlainLines (least : Nat) : (acc : List Char) → (voids : Nat) → List Line →
    Except Error (List Char × List Line)
  | acc, _, [] => .ok (acc, [])
  | acc, voids, line :: rest =>
    let content := trimFront line
    if content.isEmpty then
      (readPlainLines least acc (voids + 1) rest)
    else if indentOf line < least || content.head? == some '#' then .ok (acc, line :: rest)
    else
      let (front, commented) := beforeComment content
      if holdsKey content || front.contains '\t' then .error .malformed
      else
        let gap := if voids == 0 then [' '] else List.replicate voids '\n'
        let acc := acc ++ gap ++ front
        if commented then .ok (acc, rest) else readPlainLines least acc 0 rest

/-- Reads a plain scalar. -/
def readPlain (least : Nat) (content : Line) (rest : List Line) : Except Error (Data × List Line) :=
  if !beginsPlain content || holdsKey content then .error .malformed
  else do
    let (front, commented) := beforeComment content
    if front.contains '\t' then throw .malformed
    let (text, rest) ← if commented then pure (front, rest) else readPlainLines least front 0 rest
    return (← resolve text, rest)

/-! ### Scalars in blocks -/

/-- How a block ends: with one line break, none, or all that there are. -/
inductive Chomp where
  | clip
  | strip
  | keep

/-- Reads the head of a block: how it ends, and how far it is indented. -/
def readBlockHead : (chomp : Chomp) → (indent : Option Nat) → Line → Option (Chomp × Option Nat)
  | chomp, indent, [] => some (chomp, indent)
  | chomp, indent, c :: rest =>
    if c == '-' then readBlockHead .strip indent rest
    else if c == '+' then readBlockHead .keep indent rest
    else if '1' ≤ c && c ≤ '9' then readBlockHead chomp (some (c.toNat - 48)) rest
    else if isVoid (c :: rest) then some (chomp, indent)
    else none

/-- Whether a line belongs to a block that is indented by `n`. -/
def isInBlock (n : Nat) (line : Line) : Bool :=
  n ≤ indentOf line || (line.all (· == ' '))

/-- Folds the lines of a block: lines that begin with no blank are joined. -/
def foldBlock : List Line → List Char
  | [] => []
  | [line] => line
  | line :: next :: rest =>
    let apart := (line.head?.map isBlank).getD true || (next.head?.map isBlank).getD true
    if apart then
      -- the first of the line breaks between two joined lines is left out
      (if line.isEmpty then ['\n'] else line ++ (if next.isEmpty then [] else ['\n']))
        ++ foldBlock (next :: rest)
    else line ++ ' ' :: foldBlock (next :: rest)

/-- Reads a scalar in a block that is indented more than `parent`; `folded` tells
whether its lines are joined. -/
def readBlock (folded : Bool) (parent : Nat) (head : Line) (rest : List Line) : Except Error (Data × List Line) :=
  match readBlockHead .clip none head with
  | none => .error .malformed
  | some (chomp, indent) =>
    let found := ((rest.find? fun l => !l.all (· == ' ')).map indentOf).getD 0
    let n := match indent with | some k => parent + k | none => max found (parent + 1)
    let inside := rest.takeWhile (isInBlock n)
    let after := rest.drop inside.length
    let lines := inside.map (·.drop n)
    let full := (lines.reverse.dropWhile List.isEmpty).reverse
    let text := if folded then foldBlock full else joinLines full
    let voids := lines.length - full.length
    let ending :=
      match chomp with
      | .strip => []
      | .clip => if full.isEmpty then [] else ['\n']
      | .keep => List.replicate (if full.isEmpty then voids else voids + 1) '\n'
    .ok (.text (String.ofList (text ++ ending)), after)

/-- Reads a value that begins on a line; `parent` is the indentation of what it
belongs to. -/
def readInline (parent least : Nat) (content : Line) (rest : List Line) : Except Error (Data × List Line) :=
  match content with
  | [] => .error .malformed
  | c :: head =>
    if c == '|' || c == '>' then readBlock (c == '>') parent head rest
    else if c == '"' || c == '\'' then do
      let (s, left) ← readQuoted (joinLines (content :: rest))
      closeLine (.text (String.ofList s)) left
    else if c == '[' || c == '\x7b' then do
      let all := joinLines (content :: rest)
      let (d, left) ← readFlow (2 * all.length + 2) all
      closeLine d left
    else readPlain least content rest

/-! ### Mappings and lists -/

mutual

/-- Reads a value that is indented by `least` at least; null if there is none. -/
def readNode : (fuel : Nat) → (least : Nat) → List Line → Except Error (Data × List Line)
  | 0, _, _ => .error .malformed
  | fuel + 1, least, lines =>
    match skipVoid lines with
    | [] => .ok (.null, [])
    | line :: rest =>
      let n := indentOf line
      let content := line.drop n
      if n < least then .ok (.null, line :: rest)
      else if content.head? == some '\t' then .error .malformed
      else if isItem content then
        (readItems fuel n [] (line :: rest)).map fun (items, rest) => (.list items, rest)
      else do
        match ← splitKey content with
        | some _ =>
          let (entries, rest) ← readEntries fuel n [] (line :: rest)
          return (.mapping entries, rest)
        | none => readInline (n - 1) least content rest
termination_by structural fuel => fuel

/-- Reads the items of a list that is indented by `n`. -/
def readItems : (fuel n : Nat) → List Data → List Line → Except Error (List Data × List Line)
  | 0, _, _, _ => .error .malformed
  | fuel + 1, n, items, lines =>
    match skipVoid lines with
    | [] => .ok (items, [])
    | line :: rest =>
      let m := indentOf line
      let content := line.drop m
      if m < n || (m == n && !isItem content) then .ok (items, line :: rest)
      else if n < m then .error .malformed
      else do
        let inner := List.replicate (n + 1) ' ' ++ content.drop 1
        let (d, rest) ← readNode fuel (n + 1) (inner :: rest)
        readItems fuel n (items ++ [d]) rest
termination_by structural fuel => fuel

/-- Reads the entries of a mapping that is indented by `n`. -/
def readEntries : (fuel n : Nat) → List (String × Data) → List Line →
    Except Error (List (String × Data) × List Line)
  | 0, _, _, _ => .error .malformed
  | fuel + 1, n, entries, lines =>
    match skipVoid lines with
    | [] => .ok (entries, [])
    | line :: rest =>
      let m := indentOf line
      let content := line.drop m
      if m < n then .ok (entries, line :: rest)
      else if n < m || isItem content then .error .malformed
      else do
        match ← splitKey content with
        | none => throw .malformed
        | some (key, value) =>
          let value := trimFront value
          let (d, rest) ←
            if isVoid value then readBelow fuel n rest
            else if isItem value then throw .malformed
            else readInline n (n + 1) value rest
          readEntries fuel n (← addEntry key d entries) rest
termination_by structural fuel => fuel

/-- Reads the value of an entry that is indented by `n`, from the lines below it;
the items of a list may stand as far left as the entry. -/
def readBelow : (fuel n : Nat) → List Line → Except Error (Data × List Line)
  | 0, _, _ => .error .malformed
  | fuel + 1, n, lines =>
    match skipVoid lines with
    | [] => .ok (.null, [])
    | line :: rest =>
      if indentOf line == n && isItem (line.drop n) then
        (readItems fuel n [] (line :: rest)).map fun (items, rest) => (.list items, rest)
      else readNode fuel (n + 1) (line :: rest)
termination_by structural fuel => fuel

end

/-! ### Documents -/

/-- Whether a character may stand in a document. -/
def isAllowed (c : Char) : Bool :=
  let n := c.toNat
  n == 9 || n == 10 || n == 13 || (0x20 ≤ n && n ≤ 0x7e) || n == 0x85
    || (0xa0 ≤ n && n ≤ 0xfffd) || 0x10000 ≤ n

/-- The text with every line break written as one character. -/
def unifyBreaks : List Char → List Char
  | '\r' :: '\n' :: rest => '\n' :: unifyBreaks rest
  | '\r' :: rest => '\n' :: unifyBreaks rest
  | c :: rest => c :: unifyBreaks rest
  | [] => []

/-- What stands behind a mark of three characters at the front of a line. -/
def marked? (mark : String) (line : Line) : Option Line :=
  let rest := line.drop 3
  if String.ofList (line.take 3) == mark && (rest.head?.map isBlank).getD true then some rest
  else none

/-- The lines of the one document in a text: behind a mark for its beginning,
and before one for its end, behind which nothing may follow. -/
def documentLines (lines : List Line) : Except Error (List Line) :=
  let lines :=
    match skipVoid lines with
    | line :: rest =>
      match marked? "---" line with
      | some content => ("   ".toList ++ content) :: rest
      | none => lines
    | [] => []
  let inside := lines.takeWhile fun l => (marked? "---" l).isNone && (marked? "..." l).isNone
  match lines.drop inside.length with
  | [] => .ok inside
  | line :: rest =>
    match marked? "..." line with
    | some more => if (more :: rest).all isVoid then .ok inside else .error .malformed
    | none => .error .malformed

/-- The value of a document. -/
def read (s : String) : Except Error Data := do
  let cs := unifyBreaks s.toList
  let cs := if cs.head? == some '\ufeff' then cs.drop 1 else cs
  if !cs.all isAllowed then throw .malformed
  let lines ← documentLines (linesOf cs)
  let (d, rest) ← readNode (2 * cs.length + lines.length + 2) 0 lines
  if (skipVoid rest).isEmpty then return d else throw .malformed

end HotSwap.Yaml
