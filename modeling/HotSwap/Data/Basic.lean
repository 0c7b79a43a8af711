/-
Tree-shaped data: what settings files, log fields and messages are made of.

* `Data` — null, truth values, integers, doubles, texts, calendar values, lists
  and mappings with text keys in a fixed order;
* `Data.display` — how a message shows a value, texts quoted;
* `Data.plain` — the same, but a text stands for itself;
* `Data.mapTexts` — a change of every text below a tree, its shape kept.
-/
import HotSwap.Number.Shortest
import HotSwap.Text.Quoted

namespace HotSwap

open HotSwap.Text HotSwap.Number

/-- A tree of plain values. -/
inductive Data where
  | null
  | bool (b : Bool)
  | int (n : Int)
  | float (x : Float)
  | text (s : String)
  /-- A calendar value: its text, and how it is shown inside a list. -/
  | calendar (text shown : String)
  | list (items : List Data)
  | mapping (entries : List (String × Data))
  deriving Inhabited

namespace Data

mutual

/-- A value as messages show it. -/
def display : Data → String
  | null => "None"
  | bool true => "True"
  | bool false => "False"
  | int n => toString n
  | float x => floatText x
  | text s => quoted s
  | calendar _ shown => shown
  | list items => "[" ++ ", ".intercalate (displayItems items) ++ "]"
  | mapping entries => "\x7b" ++ ", ".intercalate (displayEntries entries) ++ "\x7d"

/-- The items of a list, each as messages show it. -/
def displayItems : List Data → List String
  | [] => []
  | d :: rest => display d :: displayItems rest

/-- The entries of a mapping, each as messages show it. -/
def displayEntries : List (String × Data) → List String
  | [] => []
  | (k, d) :: rest => (quoted k ++ ": " ++ display d) :: displayEntries rest

end

/-- A value as text: a text stands for itself. -/
def plain : Data → String
  | text s => s
  | calendar s _ => s
  | d => d.display

/-- The values as one message shows them together: nothing, the value itself,
or all of them in round brackets. -/
def displayArguments : List Data → String
  | [] => ""
  | [d] => d.plain
  | ds => "(" ++ ", ".intercalate (displayItems ds) ++ ")"

mutual

/-- Applies `f` to every text of the tree, keys apart. -/
def mapTexts (f : String → String) : Data → Data
  | text s => text (f s)
  | list items => list (mapTextsItems f items)
  | mapping entries => mapping (mapTextsEntries f entries)
  | d => d

/-- `mapTexts` on the items of a list. -/
def mapTextsItems (f : String → String) : List Data → List Data
  | [] => []
  | d :: rest => mapTexts f d :: mapTextsItems f rest

/-- `mapTexts` on the values of a mapping. -/
def mapTextsEntries (f : String → String) : List (String × Data) → List (String × Data)
  | [] => []
  | (k, d) :: rest => (k, mapTexts f d) :: mapTextsEntries f rest

end

/-- The value stored under a key: the last entry of that key wins. -/
def lookup (entries : List (String × Data)) (key : String) : Option Data :=
  (entries.reverse.find? fun e => e.1 == key).map (·.2)

/-- Stores a value under a key, in the place of an entry of that key if there
is one and at the end otherwise. -/
def store (key : String) (value : Data) : List (String × Data) → List (String × Data)
  | [] => [(key, value)]
  | (k, d) :: rest => if k == key then (k, value) :: rest else (k, d) :: store key value rest

end Data
end HotSwap
