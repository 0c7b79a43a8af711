/-
The parts of YAML documents that do not depend on indentation: quoted scalars,
and collections between brackets.

* `Yaml.readQuoted` — a scalar between apostrophes or double quotes;
* `Yaml.readFlow` — a list between brackets, a mapping between braces, or a scalar
  inside one of them.

Design notes: the readers go on over line breaks; a line break inside a scalar
counts as a blank, and each further one as a line break.  A tab is allowed between
quotes and in comments only: nowhere else can anything begin or go on with one.
-/
import HotSwap.Document.Json
import HotSwap.Document.Yaml.Scalar

namespace HotSwap.Yaml

/-! ### Blanks -/

/-- Whether a character is a blank within a line. -/
def isBlank (c : Char) : Bool := c == ' ' || c == '\t'

/-- Whether a character is a blank or a line break. -/
def isGap (c : Char) : Bool := isBlank c || c == '\n'

/-- The text without spaces at its front. -/
def trimFront (cs : List Char) : List Char := cs.dropWhile (· == ' ')

/-- The text without spaces at its end. -/
def trimEnd (cs : List Char) : List Char := (trimFront cs.reverse).reverse

/-- Whether a line holds nothing, or a comment only. -/
def isVoid (line : List Char) : Bool :=
  match trimFront line with
  | [] => true
  | c :: _ => c == '#'

/-- Skips spaces, line breaks and comments. -/
def skipGaps : List Char → List Char
  | [] => []
  | c :: rest =>
    if c == ' ' || c == '\n' then skipGaps rest
    else if c == '#' then skipComment rest
    else c :: rest
where
  /-- Skips up to the end of the line, and gaps behind it. -/
  skipComment : List Char → List Char
    | [] => []
    | c :: rest => if c == '\n' then skipGaps rest else skipComment rest

/-- What a gap within a scalar stands for: itself on one line, a blank for one
line break, and one line break less for several. -/
def foldGap (gap : List Char) : List Char :=
  match gap.count '\n' with
  | 0 => gap
  | 1 => [' ']
  | n + 1 => List.replicate n '\n'

/-! ### Quoted scalars -/

/-- The escapes of one letter. -/
def letterEscapes : List (Char × Char) := [
  ('0', '\x00'), ('a', '\x07'), ('b', '\x08'), ('t', '\t'), ('\t', '\t'), ('n', '\n'),
  ('v', '\x0b'), ('f', '\x0c'), ('r', '\r'), ('e', '\x1b'), (' ', ' '), ('"', '"'), ('/', '/'),
  ('\\', '\\'), ('N', '\u0085'), ('_', '\u00a0'), ('L', '\u2028'), ('P', '\u2029')]

/-- The escapes of a code point, and how many digits it has. -/
def codeEscapes : List (Char × Nat) := [('x', 2), ('u', 4), ('U', 8)]

/-- Reads an escape behind its backslash. -/
def readEscape : List Char → Except Error (List Char × List Char)
  | [] => .error .malformed
  | c :: rest =>
    match letterEscapes.find? (·.1 == c) with
    | some (_, plain) => .ok ([plain], rest)
    | none =>
      match codeEscapes.find? (·.1 == c) with
      | some (_, width) =>
        let digits := rest.take width
        match digits.foldlM (fun n d => (Json.hexValue? d).map (n * 16 + ·)) 0 with
        | some n =>
          if digits.length == width then .ok ([Char.ofNat n], rest.drop width)
          else .error .malformed
        | none => .error .malformed
      | none =>
        -- a line break behind a backslash is left out, with the blanks after it
        if c == '\n' then .ok ([], rest.dropWhile isBlank) else .error .malformed

/-- Reads a scalar up to its closing quote; `acc` holds what has been read. -/
def readQuotedFrom (quote : Char) :
    (fuel : Nat) → (acc : List Char) → List Char → Except Error (List Char × List Char)
  | 0, _, _ => .error .malformed
  | fuel + 1, acc, cs =>
    match cs with
    | [] => .error .malformed
    | c :: rest =>
      if c == quote then
        if quote == '\'' && rest.head? == some '\'' then
          readQuotedFrom quote fuel (acc ++ ['\'']) (rest.drop 1)
        else .ok (acc, rest)
      else if c == '\\' && quote == '"' then
        match readEscape rest with
        | .ok (plain, rest) => readQuotedFrom quote fuel (acc ++ plain) rest
        | .error e => .error e
      else if isGap c then
        let gap := cs.takeWhile isGap
        readQuotedFrom quote fuel (acc ++ foldGap gap) (cs.drop gap.length)
      else readQuotedFrom quote fuel (acc ++ [c]) rest

/-- Reads a quoted scalar, its opening quote included. -/
def readQuoted : List Char → Except Error (List Char × List Char)
  | [] => .error .malformed
  | quote :: rest => readQuotedFrom quote (rest.length + 1) [] rest

/-! ### Plain scalars between brackets -/

/-- Whether a character ends what stands between brackets. -/
def isBracket (c : Char) : Bool :=
  c == ',' || c == '[' || c == ']' || c == '\x7b' || c == '\x7d'

/-- Whether a character cannot begin a plain scalar, whatever follows it. -/
def isIndicator (c : Char) : Bool :=
  isBracket c || ['\t', '#', '&', '*', '!', '|', '>', '\'', '"', '%', '@', '\x60'].contains c

/-- Whether a character begins a plain scalar only with something behind it. -/
def isHesitant (c : Char) : Bool := c == '-' || c == '?' || c == ':'

/-- Whether a plain scalar can begin here. -/
def beginsPlain : List Char → Bool
  | [] => false
  | [c] => !isIndicator c && !isHesitant c
  | c :: d :: _ => !isIndicator c && !(isHesitant c && isGap d)

/-- Splits a plain scalar off that stands between brackets. -/
def spanPlain : (blankBefore : Bool) → List Char → List Char × List Char
  | _, [] => ([], [])
  | blankBefore, c :: rest =>
    let ends :=
      isBracket c || c == '\t' || (c == '#' && blankBefore)
        || (c == ':' && (match rest with | [] => true | d :: _ => isGap d))
    if ends then ([], c :: rest)
    else
      let (front, back) := spanPlain (isGap c) rest
      (c :: front, back)

/-- A plain scalar with its line breaks folded and its blanks at the end
dropped. -/
def foldPlain (cs : List Char) : List Char :=
  let trimmed := (cs.reverse.dropWhile isGap).reverse
  go trimmed.length trimmed
where
  /-- Folds the gaps of a text, one unit of fuel for a character or a gap. -/
  go : Nat → List Char → List Char
    | 0, cs => cs
    | _, [] => []
    | fuel + 1, c :: rest =>
      if isGap c then
        let gap := (c :: rest).takeWhile isGap
        foldGap gap ++ go fuel ((c :: rest).drop gap.length)
      else c :: go fuel rest

/-! ### Collections between brackets -/

/-- The key that a value makes: its text. -/
def keyOf : Data → Except Error String
  | .list _ | .mapping _ => .error .malformed
  | d => .ok d.plain

/-- An entry more, unless there is one of the same key. -/
def addEntry (key : String) (value : Data) (entries : List (String × Data)) :
    Except Error (List (String × Data)) :=
  if entries.any (·.1 == key) then .error .malformed else .ok (entries ++ [(key, value)])

/-- What is behind the colon that follows a key, if one does; `apart` tells that
there has to be a gap behind it. -/
def colon? (apart : Bool) : List Char → Option (List Char)
  | ':' :: rest => if apart && !(rest.head?.map isGap).getD true then none else some rest
  | _ => none

mutual

/-- Reads a value between brackets; nothing before a bracket, a comma or a colon
is null. -/
def readFlow : (fuel : Nat) → List Char → Except Error (Data × List Char)
  | 0, _ => .error .malformed
  | fuel + 1, cs =>
    match skipGaps cs with
    | [] => .error .malformed
    | '[' :: rest => do
      let (items, rest) ← readFlowItems fuel [] rest
      return (.list items, rest)
    | '\x7b' :: rest => do
      let (entries, rest) ← readFlowEntries fuel [] rest
      return (.mapping entries, rest)
    | c :: rest =>
      if c == '"' || c == '\'' then
        (readQuoted (c :: rest)).map fun (s, rest) => (.text (String.ofList s), rest)
      else if c == ',' || c == ']' || c == '\x7d' then .ok (.null, c :: rest)
      else if !beginsPlain (c :: rest) then .error .malformed
      else
        let (front, back) := spanPlain false (c :: rest)
        (resolve (foldPlain front)).map fun d => (d, back)

/-- Reads the items of a list up to its closing bracket. -/
def readFlowItems : (fuel : Nat) → List Data → List Char → Except Error (List Data × List Char)
  | 0, _, _ => .error .malformed
  | fuel + 1, items, cs =>
    match skipGaps cs with
    | ']' :: rest => .ok (items, rest)
    | ',' :: _ => .error .malformed
    | cs => do
      let (d, rest) ← readFlow fuel cs
      -- a key with a value stands for a mapping of one entry
      let (d, rest) ←
        match colon? true (skipGaps rest) with
        | some rest => do
          let key ← keyOf d
          let (value, rest) ← readFlow fuel rest
          pure (Data.mapping [(key, value)], rest)
        | none => pure (d, rest)
      match skipGaps rest with
      | ',' :: rest => readFlowItems fuel (items ++ [d]) rest
      | ']' :: rest => .ok (items ++ [d], rest)
      | _ => .error .malformed

/-- Reads the entries of a mapping up to its closing brace. -/
def readFlowEntries : (fuel : Nat) → List (String × Data) → List Char →
    Except Error (List (String × Data) × List Char)
  | 0, _, _ => .error .malformed
  | fuel + 1, entries, cs =>
    match skipGaps cs with
    | '\x7d' :: rest => .ok (entries, rest)
    | ',' :: _ => .error .malformed
    | cs => do
      let (d, rest) ← readFlow fuel cs
      let key ← keyOf d
      let (value, rest) ←
        match colon? false (skipGaps rest) with
        | some rest => readFlow fuel rest
        | none => pure (Data.null, rest)
      let entries ← addEntry key value entries
      match skipGaps rest with
      | ',' :: rest => readFlowEntries fuel entries rest
      | '\x7d' :: rest => .ok (entries, rest)
      | _ => .error .malformed

end

end HotSwap.Yaml
