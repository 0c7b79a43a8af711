/-
References to environment variables, and what stands in their place.

A text is cut, from left to right, into references and single characters.  A character is kept
on its own only where no reference begins, so that the references of the cut are the leftmost
ones that do not overlap.  Expansion replaces them one by one, and does not look again at what it
has put in.  A tree keeps its shape, its keys and all of its values but the texts.

* `Reference.Proper` — what may be written as a reference;
* `Reference.read?_eq_some_iff` — reading finds a reference exactly where one is written;
* `IsCut` — the cuts of a text, and `Piece.Becomes`, what becomes of a piece;
* `Environment.expands_iff` — expansion is what becomes of the pieces of a cut;
* `Data.Alike` — two trees of one shape, with texts in a given relation;
* `Environment.expandTexts_eq_iff` — both together.
-/
import Mathlib.Data.List.Forall2
import Mathlib.Data.List.TakeWhile
import Mathlib.Tactic.Common
import HotSwap.Settings.Template

namespace HotSwap

/-! ### References -/

namespace Reference

variable {r r' : Reference} {cs rest : List Char}

/-- What may be written as a reference: a name that begins with a capital letter or an
underscore and goes on with those and digits, and a default without a closing brace. -/
structure Proper (r : Reference) : Prop where
  name : ∃ c inner, r.name = c :: inner ∧ isFirst c = true ∧ ∀ x ∈ inner, isInner x = true
  fallback : ∀ d, r.fallback = some d → '\x7d' ∉ d

/-- What stands behind the name of a reference. -/
def ending : Option (List Char) → List Char
  | none => ['\x7d']
  | some d => ':' :: '-' :: d ++ ['\x7d']

theorem text_eq (r : Reference) : r.text = '$' :: '\x7b' :: r.name ++ ending r.fallback := by
  cases hr : r.fallback <;> simp [text, ending, hr]

theorem text_ne_nil (r : Reference) : r.text ≠ [] := by
  simp [text_eq]

/-- A name ends where its reference goes on. -/
theorem takeWhile_name {name : List Char} (hname : ∀ x ∈ name, isInner x = true)
    (fallback : Option (List Char)) (rest : List Char) :
    (name ++ (ending fallback ++ rest)).takeWhile isInner = name := by
  have hstop : (ending fallback ++ rest).takeWhile isInner = [] := by
    cases fallback with
    | none => exact List.takeWhile_cons_of_neg (by decide)
    | some d => exact List.takeWhile_cons_of_neg (by decide)
  rw [List.takeWhile_append_of_pos hname, hstop, List.append_nil]

/-- What ends a default that does not reach to the end of the text is a closing brace. -/
theorem exists_eq_takeWhile_append
    (h : (cs.takeWhile (· != '\x7d')).length < cs.length) :
    ∃ after, cs.takeWhile (· != '\x7d') ++ '\x7d' :: after = cs := by
  have hcut := List.takeWhile_append_dropWhile (p := (· != '\x7d')) (l := cs)
  cases hdrop : cs.dropWhile (· != '\x7d') with
  | nil =>
    have hlen := congrArg List.length hcut
    simp [hdrop] at hlen
    omega
  | cons x after =>
    have hx : x = '\x7d' := by
      have := List.head_dropWhile_not (l := cs) (· != '\x7d') (by simp [hdrop])
      simpa [hdrop] using this
    rw [hdrop, hx] at hcut
    exact ⟨after, hcut⟩

/-- A default ends before the first closing brace. -/
theorem readFallback?_eq_some_iff {fallback : Option (List Char)} :
    readFallback? cs = some fallback ↔
      (∀ d, fallback = some d → '\x7d' ∉ d) ∧ ending fallback <+: cs := by
  constructor
  · intro h
    unfold readFallback? at h
    split at h
    · obtain rfl := Option.some.inj h
      exact ⟨by simp, by simp [ending]⟩
    · next cs =>
      dsimp only at h
      split at h
      · next hlength =>
        obtain rfl := Option.some.inj h
        obtain ⟨after, hafter⟩ := exists_eq_takeWhile_append hlength
        refine ⟨fun d hd hmem => ?_, after, by simpa [ending] using hafter⟩
        obtain rfl := Option.some.inj hd
        simpa using List.mem_takeWhile_imp hmem
      · cases h
    · cases h
  · rintro ⟨hfallback, after, rfl⟩
    cases fallback with
    | none => rfl
    | some d =>
      have hd : ∀ x ∈ d, (x != '\x7d') = true := by
        rintro x hx
        simp only [bne_iff_ne]
        rintro rfl
        exact hfallback d rfl hx
      have htake : (d ++ '\x7d' :: after).takeWhile (· != '\x7d') = d := by
        rw [List.takeWhile_append_of_pos hd, List.takeWhile_cons_of_neg (by decide),
          List.append_nil]
      have hread : readFallback? (':' :: '-' :: (d ++ '\x7d' :: after)) = some (some d) := by
        rw [readFallback?]
        simp [htake]
      simpa [ending] using hread

/-- Reading finds a reference at the front of a text exactly where one is written. -/
theorem read?_eq_some_iff : read? cs = some r ↔ r.Proper ∧ r.text <+: cs := by
  constructor
  · intro h
    unfold read? at h
    split at h
    · next cs =>
      dsimp only at h
      split at h
      · next hfirst =>
        obtain ⟨fallback, hread, rfl⟩ := Option.map_eq_some_iff.mp h
        obtain ⟨hfallback, after, hafter⟩ := readFallback?_eq_some_iff.mp hread
        have hinner : ∀ x ∈ cs.takeWhile isInner, isInner x = true := fun x hx =>
          List.mem_takeWhile_imp hx
        refine ⟨⟨?_, hfallback⟩, after, ?_⟩
        · cases hname : cs.takeWhile isInner with
          | nil => simp [hname] at hfirst
          | cons c inner =>
            rw [hname] at hfirst hinner
            exact ⟨c, inner, rfl, by simpa using hfirst, fun x hx => hinner x (by simp [hx])⟩
        · have hcut : cs.takeWhile isInner ++ cs.drop (cs.takeWhile isInner).length = cs := by
            rw [List.prefix_iff_eq_append.mp (List.takeWhile_prefix isInner)]
          rw [← hafter] at hcut
          simp [text_eq, hcut]
      · cases h
    · cases h
  · rintro ⟨⟨⟨c, inner, hname, hfirst, hinner⟩, hfallback⟩, after, rfl⟩
    have hall : ∀ x ∈ r.name, isInner x = true := by
      rw [hname, List.forall_mem_cons]
      exact ⟨by simp [isInner, hfirst], hinner⟩
    have htext : r.text ++ after = '$' :: '\x7b' :: (r.name ++ (ending r.fallback ++ after)) := by
      simp [text_eq]
    have hread : readFallback? (ending r.fallback ++ after) = some r.fallback :=
      readFallback?_eq_some_iff.mpr ⟨hfallback, List.prefix_append _ _⟩
    have hname' : (r.name.head?.map isFirst).getD false = true := by simp [hname, hfirst]
    rw [htext, read?, takeWhile_name hall, if_pos hname', List.drop_left, hread]
    rfl

end Reference

/-! ### Cuts -/

/-- A piece of a text: one character, or a reference. -/
inductive Piece where
  | kept (c : Char)
  | reference (r : Reference)
  deriving DecidableEq, Repr

namespace Piece

/-- A piece as it is written. -/
def text : Piece → List Char
  | kept c => [c]
  | reference r => r.text

/-- What becomes of a piece: a character stays; a reference becomes the value of its variable,
if that is set, or else its default, or else itself. -/
inductive Becomes (env : Environment) : Piece → List Char → Prop
  | kept (c : Char) : Becomes env (.kept c) [c]
  | set {r : Reference} {v : String} (hset : env.value? (String.ofList r.name) = some v) :
    Becomes env (.reference r) v.toList
  | fallback {r : Reference} {d : List Char}
    (hunset : env.value? (String.ofList r.name) = none) (hd : r.fallback = some d) :
    Becomes env (.reference r) d
  | unknown {r : Reference} (hunset : env.value? (String.ofList r.name) = none)
    (hnone : r.fallback = none) : Becomes env (.reference r) r.text

/-- What becomes of a piece, as expansion puts it. -/
def value (env : Environment) : Piece → List Char
  | kept c => [c]
  | reference r => r.value env

theorem becomes_iff {env : Environment} {p : Piece} {out : List Char} :
    p.Becomes env out ↔ p.value env = out := by
  constructor
  · rintro (_ | hset | ⟨hunset, hd⟩ | ⟨hunset, hnone⟩)
    · rfl
    · simp [value, Reference.value, hset]
    · simp [value, Reference.value, hunset, hd]
    · simp [value, Reference.value, hunset, hnone]
  · rintro rfl
    cases p with
    | kept c => exact .kept c
    | reference r =>
      rw [value, Reference.value]
      cases hvalue : env.value? (String.ofList r.name) with
      | some v => exact .set hvalue
      | none =>
        cases hfallback : r.fallback with
        | some d => exact .fallback hvalue hfallback
        | none => exact .unknown hvalue hfallback

theorem forall₂_becomes_iff {env : Environment} {ps : List Piece} {outs : List (List Char)} :
    List.Forall₂ (Becomes env) ps outs ↔ ps.map (value env) = outs := by
  have hbecomes : Becomes env = fun p out => p.value env = out :=
    funext₂ fun _ _ => propext becomes_iff
  rw [hbecomes, ← List.forall₂_map_left_iff, List.forall₂_eq_eq_eq]

end Piece

/-- The pieces make up the text, their references are such, and a character is kept on its own
only where no reference begins. -/
structure IsCut (cs : List Char) (ps : List Piece) : Prop where
  text : ps.flatMap Piece.text = cs
  proper : ∀ r, .reference r ∈ ps → r.Proper
  leftmost : ∀ before c after, ps = before ++ .kept c :: after →
    ∀ r : Reference, r.Proper → ¬ r.text <+: c :: after.flatMap Piece.text

namespace IsCut

variable {cs : List Char} {ps : List Piece}

theorem nil : IsCut [] [] where
  text := rfl
  proper := by simp
  leftmost := by simp

theorem kept {c : Char} (hc : ∀ r : Reference, r.Proper → ¬ r.text <+: c :: cs)
    (h : IsCut cs ps) : IsCut (c :: cs) (.kept c :: ps) where
  text := by simp [Piece.text, h.text]
  proper := by simpa using h.proper
  leftmost before c' after heq := by
    cases before with
    | nil =>
      obtain ⟨hpiece, rfl⟩ := List.cons.inj heq
      obtain rfl := Piece.kept.inj hpiece
      rw [h.text]
      exact hc
    | cons _ before => exact h.leftmost before c' after (List.cons.inj heq).2

theorem reference {r : Reference} (hr : r.Proper) (h : IsCut cs ps) :
    IsCut (r.text ++ cs) (.reference r :: ps) where
  text := by simp [Piece.text, h.text]
  proper := by
    rintro r' hmem
    rcases List.mem_cons.mp hmem with heq | hmem
    · rwa [Piece.reference.inj heq]
    · exact h.proper r' hmem
  leftmost before c after heq := by
    cases before with
    | nil => cases (List.cons.inj heq).1
    | cons _ before => exact h.leftmost before c after (List.cons.inj heq).2

theorem tail {p : Piece} (h : IsCut cs (p :: ps)) : IsCut (ps.flatMap Piece.text) ps where
  text := rfl
  proper r hr := h.proper r (List.mem_cons_of_mem _ hr)
  leftmost before c after heq := h.leftmost (p :: before) c after (by rw [heq, List.cons_append])

end IsCut

/-! ### Texts -/

namespace Environment

variable {env : Environment} {cs out : List Char} {ps : List Piece}

theorem expandChars_of_read? {r : Reference} (h : Reference.read? (r.text ++ cs) = some r) :
    env.expandChars (r.text ++ cs) = r.value env ++ env.expandChars cs := by
  obtain ⟨c, rest, hrest⟩ := List.exists_cons_of_ne_nil r.text_ne_nil
  rw [hrest] at h ⊢
  rw [List.cons_append] at h ⊢
  rw [expandChars, h]
  simp [hrest]

theorem expandChars_of_read?_none {c : Char} (h : Reference.read? (c :: cs) = none) :
    env.expandChars (c :: cs) = c :: env.expandChars cs := by
  rw [expandChars, h]

/-- Expansion follows a cut, piece by piece. -/
theorem expandChars_of_isCut (h : IsCut cs ps) :
    env.expandChars cs = ps.flatMap (Piece.value env) := by
  induction ps generalizing cs with
  | nil =>
    rw [← h.text]
    simp [expandChars]
  | cons p ps ih =>
    rw [← h.text, List.flatMap_cons, List.flatMap_cons, ← ih h.tail]
    cases p with
    | kept c =>
      -- a cut keeps a character only where no reference begins, and then none is read there
      refine expandChars_of_read?_none (Option.eq_none_iff_forall_ne_some.mpr fun r hr => ?_)
      obtain ⟨hproper, hfront⟩ := Reference.read?_eq_some_iff.mp hr
      exact h.leftmost [] c ps rfl r hproper hfront
    | reference r =>
      refine expandChars_of_read? (Reference.read?_eq_some_iff.mpr ⟨h.proper r (by simp), ?_⟩)
      exact List.prefix_append _ _

/-- Every text can be cut. -/
theorem exists_isCut (cs : List Char) : ∃ ps, IsCut cs ps := by
  induction hn : cs.length using Nat.strong_induction_on generalizing cs with
  | _ n ih =>
    cases cs with
    | nil => exact ⟨[], .nil⟩
    | cons c cs =>
      cases hread : Reference.read? (c :: cs) with
      | none =>
        obtain ⟨ps, hps⟩ := ih cs.length (by simp [← hn]) cs rfl
        refine ⟨_, hps.kept fun r hr hfront => ?_⟩
        rw [Reference.read?_eq_some_iff.mpr ⟨hr, hfront⟩] at hread
        cases hread
      | some r =>
        obtain ⟨hr, rest, hrest⟩ := Reference.read?_eq_some_iff.mp hread
        have hlen : rest.length < n := by
          have := List.length_pos_iff.mpr r.text_ne_nil
          rw [← hn, ← hrest, List.length_append]
          omega
        obtain ⟨ps, hps⟩ := ih rest.length hlen rest rfl
        exact ⟨_, hrest ▸ hps.reference hr⟩

/-- The texts that come of a text: it is cut, and the pieces become what they stand for. -/
def Expands (env : Environment) (s t : String) : Prop :=
  ∃ ps outs, IsCut s.toList ps ∧ List.Forall₂ (Piece.Becomes env) ps outs ∧
    t.toList = outs.flatten

/-- Of every text comes exactly one, its expansion. -/
theorem expands_iff {s t : String} : env.Expands s t ↔ t = env.expand s := by
  rw [← String.toList_inj, expand, String.toList_ofList]
  constructor
  · rintro ⟨ps, outs, hps, houts, hflat⟩
    rw [hflat, expandChars_of_isCut hps, ← Piece.forall₂_becomes_iff.mp houts, List.flatMap_def]
  · intro heq
    obtain ⟨ps, hps⟩ := exists_isCut s.toList
    refine ⟨ps, _, hps, Piece.forall₂_becomes_iff.mpr rfl, ?_⟩
    rw [heq, expandChars_of_isCut hps, List.flatMap_def]

end Environment

/-! ### Trees -/

namespace Data

mutual

/-- Two trees of one shape, with the same keys and values, and texts that are related. -/
inductive Alike (R : String → String → Prop) : Data → Data → Prop
  | null : Alike R .null .null
  | bool (b : Bool) : Alike R (.bool b) (.bool b)
  | int (n : Int) : Alike R (.int n) (.int n)
  | float (x : Float) : Alike R (.float x) (.float x)
  | calendar (text shown : String) : Alike R (.calendar text shown) (.calendar text shown)
  | text {s t : String} (h : R s t) : Alike R (.text s) (.text t)
  | list {items items' : List Data} (h : AlikeItems R items items') :
    Alike R (.list items) (.list items')
  | mapping {entries entries' : List (String × Data)} (h : AlikeEntries R entries entries') :
    Alike R (.mapping entries) (.mapping entries')

/-- Item by item. -/
inductive AlikeItems (R : String → String → Prop) : List Data → List Data → Prop
  | nil : AlikeItems R [] []
  | cons {d d' : Data} {items items' : List Data} (h : Alike R d d')
    (hrest : AlikeItems R items items') : AlikeItems R (d :: items) (d' :: items')

/-- Entry by entry, each with its key. -/
inductive AlikeEntries (R : String → String → Prop) :
    List (String × Data) → List (String × Data) → Prop
  | nil : AlikeEntries R [] []
  | cons (key : String) {d d' : Data} {entries entries' : List (String × Data)}
    (h : Alike R d d') (hrest : AlikeEntries R entries entries') :
    AlikeEntries R ((key, d) :: entries) ((key, d') :: entries')

end

section

variable {R : String → String → Prop} {f : String → String}

mutual

theorem alike_mapTexts (h : ∀ s, R s (f s)) : (d : Data) → Alike R d (d.mapTexts f)
  | .null => .null
  | .bool b => .bool b
  | .int n => .int n
  | .float x => .float x
  | .calendar s shown => .calendar s shown
  | .text s => .text (h s)
  | .list items => .list (alikeItems_mapTexts h items)
  | .mapping entries => .mapping (alikeEntries_mapTexts h entries)

theorem alikeItems_mapTexts (h : ∀ s, R s (f s)) :
    (items : List Data) → AlikeItems R items (mapTextsItems f items)
  | [] => .nil
  | d :: rest => .cons (alike_mapTexts h d) (alikeItems_mapTexts h rest)

theorem alikeEntries_mapTexts (h : ∀ s, R s (f s)) :
    (entries : List (String × Data)) → AlikeEntries R entries (mapTextsEntries f entries)
  | [] => .nil
  | (key, d) :: rest => .cons key (alike_mapTexts h d) (alikeEntries_mapTexts h rest)

end

mutual

theorem Alike.eq_mapTexts (h : ∀ s t, R s t → t = f s) {d d' : Data} :
    Alike R d d' → d' = d.mapTexts f
  | .null => rfl
  | .bool _ => rfl
  | .int _ => rfl
  | .float _ => rfl
  | .calendar .. => rfl
  | .text hs => by rw [h _ _ hs, mapTexts]
  | .list hitems => by rw [hitems.eq_mapTexts h, mapTexts]
  | .mapping hentries => by rw [hentries.eq_mapTexts h, mapTexts]

theorem AlikeItems.eq_mapTexts (h : ∀ s t, R s t → t = f s) {items items' : List Data} :
    AlikeItems R items items' → items' = mapTextsItems f items
  | .nil => rfl
  | .cons hd hrest => by rw [hd.eq_mapTexts h, hrest.eq_mapTexts h, mapTextsItems]

theorem AlikeEntries.eq_mapTexts (h : ∀ s t, R s t → t = f s)
    {entries entries' : List (String × Data)} :
    AlikeEntries R entries entries' → entries' = mapTextsEntries f entries
  | .nil => rfl
  | .cons key hd hrest => by rw [hd.eq_mapTexts h, hrest.eq_mapTexts h, mapTextsEntries]

end

end

end Data

/-- Expansion keeps the shape of a tree, its keys and its values, and of each text makes the one
text that comes of it. -/
theorem Environment.expandTexts_eq_iff (env : Environment) (d d' : Data) :
    env.expandTexts d = d' ↔ d.Alike env.Expands d' := by
  constructor
  · rintro rfl
    exact Data.alike_mapTexts (fun s => expands_iff.mpr rfl) d
  · intro h
    have htexts : ∀ s t, env.Expands s t → t = env.expand s := fun _ _ => expands_iff.mp
    exact (h.eq_mapTexts htexts).symm

end HotSwap
