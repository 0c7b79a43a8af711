/-
The keys of a tree.

* `Data.lowercaseKeys` — the tree with every key in lower case; of keys that
  become equal the place of the first and the value of the last remain.
-/
import HotSwap.Data.Basic
import HotSwap.Text.Lowercase

namespace HotSwap.Data

mutual

/-- The tree with every key in lower case. -/
def lowercaseKeys : Data → Data
  | list items => list (lowercaseItems items)
  | mapping entries => mapping (lowercaseEntries [] entries)
  | d => d

/-- `lowercaseKeys` on the items of a list. -/
def lowercaseItems : List Data → List Data
  | [] => []
  | d :: rest => lowercaseKeys d :: lowercaseItems rest

/-- `lowercaseKeys` on the entries of a mapping, put behind those in `acc`. -/
def lowercaseEntries (acc : List (String × Data)) :
    List (String × Data) → List (String × Data)
  | [] => acc
  | (k, d) :: rest => lowercaseEntries (store (Text.lowercase k) (lowercaseKeys d) acc) rest

end

end HotSwap.Data
