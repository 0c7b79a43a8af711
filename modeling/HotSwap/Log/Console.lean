/-
Log lines for the console.

A line shows the time, the level in brackets, the event, the logger in brackets
and the other fields in the order of their keys; on a terminal each part has a
colour of its own.

* `Style` — what sets the parts of a line off: `Style.plain`, `Style.colours`;
* `consoleValue` — a value behind its key: a text without blanks, quotes and equals
  signs stands for itself;
* `consoleLine` — the line of an entry.
-/
import HotSwap.Data.Basic
import HotSwap.Log.Record

namespace HotSwap.Log

/-- An entry of the log: its fields, in order. -/
abbrev Entry := List (String × Data)

/-! ### Styles -/

/-- What is written before and behind the parts of a line. -/
structure Style where
  reset : String := ""
  bright : String := ""
  time : String := ""
  logger : String := ""
  key : String := ""
  value : String := ""
  grave : String := ""
  notable : String := ""
  ordinary : String := ""

namespace Style

/-- Nothing is set off. -/
def plain : Style := {}

/-- A control sequence of a terminal. -/
def sequence (code : String) : String := "\x1b[" ++ code ++ "m"

/-- Every part in its colour. -/
def colours : Style :=
  { reset := sequence "0"
    bright := sequence "1"
    time := sequence "2"
    logger := sequence "34"
    key := sequence "36"
    value := sequence "35"
    grave := sequence "31"
    notable := sequence "33"
    ordinary := sequence "32" }

/-- What a level is written in. -/
def ofLevel (s : Style) (level : String) : String :=
  if level == Level.critical.text || level == Level.error.text then s.grave ++ s.bright
  else if level == Level.warning.text then s.notable ++ s.bright
  else if level == Level.info.text || level == Level.debug.text then s.ordinary ++ s.bright
  else ""

end Style

/-! ### Parts -/

/-- A text with blanks behind it up to a width. -/
def padTo (width : Nat) (s : String) : String :=
  s ++ String.ofList (List.replicate (width - s.length) ' ')

/-- The width of the level. -/
def levelWidth : Nat := 9

/-- The width of the event. -/
def eventWidth : Nat := 30

/-- Whether a character makes a text stand in quotes. -/
def needsQuotes (c : Char) : Bool := [' ', '\t', '=', '\r', '\n', '"', '\''].contains c

/-- A value behind its key. -/
def consoleValue : Data → String
  | .text s => if s.toList.any needsQuotes then Text.quoted s else s
  | d => d.display

/-- A field behind the fixed parts. -/
def consoleField (style : Style) (f : String × Data) : String :=
  style.key ++ f.1 ++ style.reset ++ "=" ++ style.value ++ consoleValue f.2 ++ style.reset

/-- A logger in brackets. -/
def consoleLogger (style : Style) (d : Data) : String :=
  "[" ++ style.reset ++ style.bright ++ style.logger ++ d.plain ++ style.reset ++ "]" ++ style.reset

/-- The fixed parts of a line, each with its key. -/
def fixedParts (style : Style) : List (String × (Data → String)) := [
  ("timestamp", fun d => style.time ++ d.plain ++ style.reset),
  ("level", fun d =>
    "[" ++ style.ofLevel d.plain ++ padTo levelWidth d.plain ++ style.reset ++ "]"),
  ("event", fun d => style.bright ++ padTo eventWidth d.plain ++ style.reset),
  ("logger", consoleLogger style),
  ("logger_name", consoleLogger style)]

/-- The keys of what is written on lines of its own. -/
def appendices : List String := ["stack", "exception", "exc_info"]

/-- The order of keys: by code points. -/
def keyOrder (a b : String × Data) : Bool := !decide (b.1 < a.1)

/-- The text without blanks at its end. -/
def trimBlanks (s : String) : String :=
  String.ofList (s.toList.reverse.dropWhile (· == ' ')).reverse

/-! ### Lines -/

/-- The line of an entry; a stack and an exception follow on lines of their own. -/
def consoleLine (style : Style) (e : Entry) : String :=
  let parts := fixedParts style
  let fixed := parts.filterMap fun (key, show_) => (Data.lookup e key).map show_
  let others := e.filter fun f => !(parts.any (·.1 == f.1) || appendices.contains f.1)
  let fields := (others.mergeSort keyOrder).map (consoleField style)
  let line := trimBlanks (" ".intercalate ((fixed ++ fields).filter (! ·.isEmpty)))
  let below (key : String) : String :=
    match Data.lookup e key with
    | none | some .null => ""
    | some d => "\n" ++ d.plain
  line ++ below "stack" ++ below "exception"

end HotSwap.Log
