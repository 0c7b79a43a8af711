/-
Paths that are written and read again.

The text of a path is read as that path if its parts are such that can stand between two
slashes.  Paths that were read from texts have no other parts, and neither has a path that is
found from such paths: by leaving parts out, by putting one path below another, or by carrying
out double dots.

* `Path.partsOf_intercalate` — parts with slashes between them are read as these parts;
* `Path.Sound.ofString_toString` — the text of a path is read as that path;
* `Path.Sound.resolvedIn`, `Path.Sound.join`, `Path.Sound.parent` — what sound paths are
  made of is sound.
-/
import HotSwap.Proofs.Naming

namespace HotSwap.Path

/-! ### Texts -/

/-- Up to its first slash, a text is a part. -/
theorem splitSlashes_append {p : List Char} (hp : '/' ∉ p) (cs : List Char) :
    splitSlashes (p ++ '/' :: cs) = p :: splitSlashes cs := by
  induction p with
  | nil =>
    obtain ⟨q, qs, hcs⟩ := List.exists_cons_of_ne_nil (splitSlashes_ne_nil cs)
    simp [splitSlashes, hcs]
  | cons c p ih =>
    rw [List.mem_cons, not_or] at hp
    rw [List.cons_append, splitSlashes, ih hp.2]
    simp [Ne.symm hp.1]

theorem splitSlashes_intercalate {ps : List (List Char)} (hps : ∀ p ∈ ps, '/' ∉ p)
    (hne : ps ≠ []) : splitSlashes (['/'].intercalate ps) = ps := by
  induction ps with
  | nil => exact absurd rfl hne
  | cons p ps ih =>
    rw [List.forall_mem_cons] at hps
    cases ps with
    | nil => rw [List.intercalate_singleton, splitSlashes_of_not_mem hps.1]
    | cons q qs =>
      rw [List.intercalate_cons_cons, List.append_assoc, List.singleton_append,
        splitSlashes_append hps.1, ih hps.2 (by simp)]

/-- Parts with slashes between them are read as these parts. -/
theorem partsOf_intercalate {parts : List String} (h : ∀ s ∈ parts, IsPart s.toList) :
    partsOf (['/'].intercalate (parts.map String.toList)) = parts := by
  cases hparts : parts with
  | nil => rfl
  | cons first rest =>
    rw [← hparts]
    have hslash : ∀ p ∈ parts.map String.toList, '/' ∉ p := by simpa using fun s hs => (h s hs).1
    have hsplit := splitSlashes_intercalate hslash (by simp [hparts])
    have hkept : (parts.map String.toList).filter (fun p => !p.isEmpty && p != ['.']) =
        parts.map String.toList :=
      List.filter_eq_self.mpr (by simpa using fun s hs => (h s hs).2)
    rw [partsOf, hsplit, hkept, List.map_map]
    simp [Function.comp_def, String.ofList_toList]

theorem partsOf_slash (cs : List Char) : partsOf ('/' :: cs) = partsOf cs := by
  rw [partsOf, ← List.nil_append ('/' :: cs), splitSlashes_append (by simp)]
  simp [partsOf]

/-- What begins with no slash has no anchor, with a slash in front of it one, and with two
slashes the other. -/
theorem anchorOf_append {cs : List Char} (hcs : cs.head? ≠ some '/') (a : Anchor) :
    anchorOf (a.text.toList ++ cs) = a := by
  cases cs with
  | nil => cases a <;> rfl
  | cons c cs =>
    have hc : c ≠ '/' := fun h => hcs (by simp [h])
    cases a <;> simp [Anchor.text, anchorOf, hc]

/-! ### Sound paths -/

/-- Every part can stand between two slashes. -/
def Sound (p : Path) : Prop := ∀ s ∈ p.parts, IsPart s.toList

theorem sound_ofString (s : String) : (ofString s).Sound := fun _ hs => isPart_of_mem_partsOf hs

namespace Sound

variable {p q : Path}

/-- The text of a path is read as that path. -/
theorem ofString_toString (h : p.Sound) : ofString (toString p) = p := by
  obtain ⟨a, parts⟩ := p
  change ofString (Path.toString _) = _
  rw [Path.toString]
  split
  · next hempty =>
    obtain ⟨rfl, rfl⟩ : a = .none ∧ parts = [] := by simpa using hempty
    rfl
  · have hparts :
        partsOf (a.text.toList ++ ['/'].intercalate (parts.map String.toList)) = parts := by
      have := partsOf_intercalate h
      cases a
      · exact this
      · exact (partsOf_slash _).trans this
      · exact (partsOf_slash _).trans ((partsOf_slash _).trans this)
    have hfront : (['/'].intercalate (parts.map String.toList)).head? ≠ some '/' := by
      cases parts with
      | nil => simp
      | cons first rest =>
        obtain ⟨hslash, hne, -⟩ := h first (by simp)
        obtain ⟨c, cs, hfirst⟩ := List.exists_cons_of_ne_nil hne
        have hc : c ≠ '/' := fun h => hslash (by simp [hfirst, h])
        cases rest <;> simp [hfirst, hc]
    rw [ofString, String.toList_append, String.toList_intercalate]
    exact congrArg₂ Path.mk (anchorOf_append hfront a) hparts

theorem parent (h : p.Sound) : p.parent.Sound := fun s hs => h s (List.dropLast_subset _ hs)

theorem join (hp : p.Sound) (hq : q.Sound) : (p.join q).Sound := by
  rw [Path.join]
  split
  · exact hq
  · exact List.forall_mem_append.mpr ⟨hp, hq⟩

end Sound

/-- Where double dots are carried out, no parts are added. -/
theorem climb_subset (above parts : List String) : climb above parts ⊆ above ++ parts := by
  induction parts generalizing above with
  | nil => simp [climb]
  | cons s parts ih =>
    rw [climb]
    intro t ht
    split at ht
    · rcases List.mem_append.mp (ih _ ht) with habove | hparts
      · exact List.mem_append_left _ (List.mem_of_mem_tail habove)
      · exact List.mem_append_right _ (List.mem_cons_of_mem _ hparts)
    · simpa [or_left_comm] using ih _ ht

theorem Sound.resolvedIn {p directory : Path} (hp : p.Sound) (hdirectory : directory.Sound) :
    (p.resolvedIn directory).Sound :=
  fun s hs => hdirectory.join hp s (climb_subset [] _ hs)

end HotSwap.Path
