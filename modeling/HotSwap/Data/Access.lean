/-
Looking into data.

* `Data.get`, `Data.has` — an entry of a mapping;
* `Data.items`, `Data.entries` — the items of a list, the entries of a mapping;
* `Data.text?`, `Data.int?`, `Data.nat?`, `Data.flag?` — the value that a leaf holds;
* `Data.overlay` — entries on top of others.
-/
import HotSwap.Data.Basic

namespace HotSwap.Data

/-- The value under a key; null if there is none. -/
def get (d : Data) (key : String) : Data :=
  match d with
  | mapping entries => (lookup entries key).getD null
  | _ => null

/-- Whether there is a value under a key. -/
def has (d : Data) (key : String) : Bool :=
  match d with
  | mapping entries => (lookup entries key).isSome
  | _ => false

/-- The items of a list. -/
def items : Data → List Data
  | list items => items
  | _ => []

/-- The entries of a mapping. -/
def entries : Data → List (String × Data)
  | mapping entries => entries
  | _ => []

/-- A text. -/
def text? : Data → Option String
  | text s => some s
  | _ => none

/-- A text, empty if there is none. -/
def textOrEmpty (d : Data) : String := d.text?.getD ""

/-- An integer; the truth values count as one and zero. -/
def int? : Data → Option Int
  | int n => some n
  | bool b => some (if b then 1 else 0)
  | _ => none

/-- A natural number; negative ones count as zero. -/
def nat? (d : Data) : Option Nat := d.int?.map Int.toNat

/-- A text, or null. -/
def ofText? (s : Option String) : Data := (s.map text).getD null

/-- A list of texts. -/
def texts (ss : List String) : Data := list (ss.map text)

/-- The entries of the first list on top of those of the second. -/
def overlay (upper lower : List (String × Data)) : List (String × Data) :=
  upper.foldl (fun acc (k, v) => store k v acc) lower

end HotSwap.Data
