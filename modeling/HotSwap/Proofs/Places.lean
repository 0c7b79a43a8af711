/-
Where paths lead, and what the accesses to a disk change there.

A path that leads anywhere leads to its *place*, the route that remains when its
double dots are carried out; the place does not depend on the disk.

* `Disk.route_eq_place` — a path that leads anywhere leads to its place;
* `Disk.found` — what stands at a path, if the path leads to anything;
* `Disk.found_of_remove`, `Disk.found_of_fill`, `Disk.found_of_move` — what an
  access that succeeds has found and leaves at its own path, and that it leaves
  all other places alone;
* `Disk.node?_freshName`, `Disk.freshName_not_mem` — a fresh name is on no place of
  the disk, and none of the names that it has to keep apart from.

Design notes: an access puts, replaces or removes a file.  It never turns a place
into a directory or a directory into something else, so that every path that led
somewhere still leads there: this is `SameDirectories`.
-/
import Mathlib.Data.List.Basic
import Mathlib.Tactic.Common
import HotSwap.Disk.Basic

namespace HotSwap

/-- Where a path leads, if it leads anywhere. -/
def Path.place (p : Path) : Route := climb [] p.parts

namespace Path

theorem climb_append (above ps qs : List String) :
    climb above (ps ++ qs) = climb (climb above ps).reverse qs := by
  induction ps generalizing above with
  | nil => simp [climb]
  | cons p ps ih =>
    rw [List.cons_append, climb, climb]
    split
    · exact ih above.tail
    · exact ih (p :: above)

theorem climb_concat (above ps : List String) (p : String) :
    climb above (ps ++ [p]) =
      if p = ".." then (climb above ps).dropLast else climb above ps ++ [p] := by
  rw [climb_append]
  by_cases hp : p = ".."
  · simp [climb, hp]
  · simp [climb, hp]

theorem dots_not_mem_climb {above : List String} (ps : List String) (h : ".." ∉ above) :
    ".." ∉ climb above ps := by
  induction ps generalizing above with
  | nil => simpa [climb] using h
  | cons p ps ih =>
    rw [climb]
    split
    · exact ih fun hmem => h (List.mem_of_mem_tail hmem)
    · next hp =>
      refine ih fun hmem => ?_
      rcases List.mem_cons.mp hmem with heq | hmem
      · exact hp (by simp [← heq])
      · exact h hmem

theorem climb_of_dots_not_mem {above ps : List String} (h : ".." ∉ ps) :
    climb above ps = above.reverse ++ ps := by
  induction ps generalizing above with
  | nil => simp [climb]
  | cons p ps ih =>
    have hp : p ≠ ".." := fun heq => h (by simp [heq])
    have hps : ".." ∉ ps := fun hmem => h (List.mem_cons_of_mem _ hmem)
    rw [climb, if_neg (by simpa using hp), ih hps]
    simp

/-- Two names in one directory are two places. -/
theorem place_ne_of_name_ne {p q : Path} {directory : List String} {m n : String}
    (hp : p.parts = directory ++ [m]) (hq : q.parts = directory ++ [n]) (hne : m ≠ n) :
    p.place ≠ q.place := by
  rw [place, place, hp, hq, climb_concat, climb_concat]
  intro heq
  -- with a double dot on one side only, the two places differ in length
  split at heq <;> split at heq
  · next hm hn => exact hne (hm.trans hn.symm)
  · have hlen := congrArg List.length heq
    rw [List.length_dropLast, List.length_append, List.length_singleton] at hlen
    omega
  · have hlen := congrArg List.length heq
    rw [List.length_dropLast, List.length_append, List.length_singleton] at hlen
    omega
  · exact hne (by simpa using heq)

end Path

namespace Disk

variable {d d' : Disk} {r q : Route} {p : Path}

/-! ### Nodes -/

theorem node?_nil (d : Disk) : d.node? [] = some .directory := rfl

theorem node?_of_ne_nil (d : Disk) (h : r ≠ []) :
    d.node? r = (d.entries.find? fun e => e.1 == r).map (·.2) := by
  rw [node?, if_neg (by simpa using h)]

theorem find?_dropRoute (entries : List (Route × Node)) (h : q ≠ r) :
    (dropRoute r entries).find? (fun e => e.1 == q) = entries.find? fun e => e.1 == q := by
  rw [dropRoute, List.find?_filter]
  congr 1
  funext e
  by_cases he : e.1 = q
  · simp [he, h]
  · simp [he]

theorem node?_put_self (d : Disk) (n : Node) (h : r ≠ []) : (d.put r n).node? r = some n := by
  rw [node?_of_ne_nil _ h]
  simp [put]

theorem node?_put_of_ne (d : Disk) (n : Node) (h : q ≠ r) : (d.put r n).node? q = d.node? q := by
  by_cases hq : q = []
  · subst hq
    rfl
  · rw [node?_of_ne_nil _ hq, node?_of_ne_nil _ hq, put, List.find?_cons_of_neg,
      find?_dropRoute _ h]
    simpa using fun heq : r = q => h heq.symm

theorem node?_erase_self (d : Disk) (h : r ≠ []) : (d.erase r).node? r = none := by
  rw [node?_of_ne_nil _ h, Option.map_eq_none_iff, List.find?_eq_none]
  intro e he
  simpa [erase, dropRoute] using (List.mem_filter.mp he).2

theorem node?_erase_of_ne (d : Disk) (h : q ≠ r) : (d.erase r).node? q = d.node? q := by
  by_cases hq : q = []
  · subst hq
    rfl
  · rw [node?_of_ne_nil _ hq, node?_of_ne_nil _ hq, erase, find?_dropRoute _ h]

/-! ### Walks -/

/-- Everything from the top down to a route is a directory. -/
def Solid (d : Disk) (r : Route) : Prop := ∀ k, d.node? (r.take k) = some .directory

theorem solid_nil (d : Disk) : d.Solid [] := fun k => by
  rw [List.take_nil]
  exact node?_nil d

theorem Solid.dropLast (h : d.Solid r) : d.Solid r.dropLast := fun k => by
  rw [List.dropLast_eq_take, List.take_take]
  exact h _

theorem Solid.concat {s : String} (h : d.Solid r) (hs : d.node? (r ++ [s]) = some .directory) :
    d.Solid (r ++ [s]) := fun k => by
  by_cases hk : k ≤ r.length
  · rw [List.take_append_of_le_length hk]
    exact h k
  · rw [List.take_of_length_le (by simp; omega)]
    exact hs

theorem Solid.self (h : d.Solid r) : d.node? r = some .directory := by
  simpa using h r.length

theorem walk_cons (d : Disk) (here : Route) (s : String) (ss : List String) :
    d.walk here (s :: ss) = (d.walk here [s]).bind fun r => d.walk r ss := by
  rw [walk, walk]
  split
  · rfl
  · split
    · rfl
    · rfl
    · rfl

theorem walk_append (d : Disk) (here : Route) (ss ts : List String) :
    d.walk here (ss ++ ts) = (d.walk here ss).bind fun r => d.walk r ts := by
  induction ss generalizing here with
  | nil => rfl
  | cons s ss ih =>
    rw [List.cons_append, walk_cons, walk_cons d here s ss]
    cases d.walk here [s] with
    | error code => rfl
    | ok r => exact ih r

/-- A walk goes through directories only, and leads to where climbing leads. -/
theorem walk_ok {here : Route} {ss : List String} (h : d.walk here ss = .ok r)
    (hhere : d.Solid here) : d.Solid r ∧ r = Path.climb here.reverse ss := by
  induction ss generalizing here with
  | nil =>
    cases h
    exact ⟨hhere, by simp [Path.climb]⟩
  | cons s ss ih =>
    rw [walk] at h
    rw [Path.climb]
    split at h
    · next hs =>
      rw [if_pos hs, List.tail_reverse]
      exact ih h hhere.dropLast
    · next hs =>
      rw [if_neg hs]
      split at h
      · cases h
      · cases h
      · next hdir =>
        have := ih h (hhere.concat hdir)
        rwa [List.reverse_append, List.reverse_singleton, List.singleton_append] at this

/-! ### Places -/

/-- What stands at a path, if the path leads to anything. -/
def found (d : Disk) (p : Path) : Option Node := (d.route p).toOption.bind d.node?

theorem route_eq_walk (d : Disk) (anchor : Anchor) (ss : List String) {r : Route}
    (h : d.walk [] ss = .ok r) : d.route { anchor, parts := ss } = .ok r := by
  rcases List.eq_nil_or_concat' ss with rfl | ⟨above, last, rfl⟩
  · exact h
  · rw [walk_append] at h
    rw [route]
    simp only [List.getLast?_concat, List.dropLast_concat]
    cases habove : d.walk [] above with
    | error code =>
      rw [habove] at h
      cases h
    | ok r' =>
      rw [habove] at h
      change d.walk r' [last] = .ok r at h
      show (if last == ".." then Except.ok r'.dropLast else .ok (r' ++ [last])) = .ok r
      rw [walk] at h
      split at h
      · next hdots => rwa [if_pos hdots]
      · next hdots =>
        rw [if_neg hdots]
        split at h
        · cases h
        · cases h
        · exact h

/-- The route of a path in a directory. -/
theorem route_concat (d : Disk) {directory : List String} {name : String}
    (hp : p.parts = directory ++ [name]) :
    d.route p = (d.walk [] directory).map
      fun above => if name = ".." then above.dropLast else above ++ [name] := by
  rw [route, hp]
  simp only [List.getLast?_concat, List.dropLast_concat]
  cases d.walk [] directory with
  | error code => rfl
  | ok above =>
    show (if name == ".." then Except.ok above.dropLast else .ok (above ++ [name])) = _
    by_cases hname : name = ".."
    · simp [hname, Except.map]
    · simp [hname, Except.map]

theorem route_eq_place (h : d.route p = .ok r) : r = p.place := by
  rcases List.eq_nil_or_concat' p.parts with hp | ⟨above, last, hp⟩
  · rw [route, hp] at h
    cases h
    rw [Path.place, hp, Path.climb]
    rfl
  · rw [route_concat d hp] at h
    cases hwalk : d.walk [] above with
    | error code =>
      rw [hwalk] at h
      cases h
    | ok r' =>
      rw [hwalk] at h
      cases h
      rw [Path.place, hp, Path.climb_concat, (walk_ok hwalk (solid_nil d)).2]
      rfl

theorem found_eq_some_iff {n : Node} :
    d.found p = some n ↔ d.route p = .ok p.place ∧ d.node? p.place = some n := by
  rw [found]
  cases h : d.route p with
  | error code => simp [Except.toOption]
  | ok r => simp [Except.toOption, route_eq_place h]

theorem read_eq_ok_iff {content : Bytes} :
    d.read p = .ok content ↔ d.found p = some (.file content) := by
  rw [found_eq_some_iff, read]
  cases h : d.route p with
  | error code => simp [bind, Except.bind]
  | ok r =>
    rw [route_eq_place h]
    rcases hn : d.node? p.place with _ | _ | _ <;>
      simp [bind, Except.bind, pure, Except.pure, hn, throw, throwThe, MonadExceptOf.throw]

theorem isFile_iff : d.isFile p = true ↔ ∃ content, d.found p = some (.file content) := by
  simp only [found_eq_some_iff, isFile, at?]
  cases h : d.route p with
  | error code => simp [Except.map]
  | ok r =>
    rw [route_eq_place h]
    rcases hn : d.node? p.place with _ | _ | _ <;> simp [Except.map, hn]

theorem isDirectory_iff : d.isDirectory p = true ↔ d.found p = some .directory := by
  simp only [found_eq_some_iff, isDirectory, at?]
  cases h : d.route p with
  | error code => simp [Except.map]
  | ok r =>
    rw [route_eq_place h]
    rcases hn : d.node? p.place with _ | _ | _ <;> simp [Except.map, hn]

/-- Where something stands in a directory, the directory itself can be walked. -/
theorem exists_walk_of_found {directory : List String} {name : String} {n : Node}
    (hp : p.parts = directory ++ [name]) (h : d.found p = some n) :
    ∃ above, d.walk [] directory = .ok above := by
  have hroute := (found_eq_some_iff.mp h).1
  rw [route_concat d hp] at hroute
  cases hwalk : d.walk [] directory with
  | error code =>
    rw [hwalk] at hroute
    cases hroute
  | ok above => exact ⟨above, rfl⟩

/-! ### Same directories -/

/-- The two disks have their directories at the same routes. -/
def SameDirectories (d d' : Disk) : Prop :=
  ∀ r, d'.node? r = some .directory ↔ d.node? r = some .directory

theorem SameDirectories.trans {d'' : Disk} (h : SameDirectories d d')
    (h' : SameDirectories d' d'') : SameDirectories d d'' :=
  fun r => (h' r).trans (h r)

theorem sameDirectories_put (hr : d.node? r ≠ some .directory) (content : Bytes) :
    SameDirectories d (d.put r (.file content)) := by
  intro q
  by_cases hq : q = r
  · subst hq
    rw [node?_put_self _ _ fun hnil => hr (by rw [hnil]; exact node?_nil d)]
    exact ⟨fun h => by simp at h, fun h => absurd h hr⟩
  · rw [node?_put_of_ne d _ hq]

theorem sameDirectories_erase (hr : d.node? r ≠ some .directory) :
    SameDirectories d (d.erase r) := by
  intro q
  by_cases hq : q = r
  · subst hq
    rw [node?_erase_self _ fun hnil => hr (by rw [hnil]; exact node?_nil d)]
    exact ⟨fun h => by simp at h, fun h => absurd h hr⟩
  · rw [node?_erase_of_ne d hq]

theorem SameDirectories.walk (h : SameDirectories d d') (here : Route) (ss : List String) :
    (d'.walk here ss).toOption = (d.walk here ss).toOption := by
  induction ss generalizing here with
  | nil => rfl
  | cons s ss ih =>
    rw [Disk.walk, Disk.walk]
    split
    · exact ih here.dropLast
    · -- a step arrives only at a directory, and those are the same
      have hs := h (here ++ [s])
      rcases hn : d.node? (here ++ [s]) with _ | _ | _ <;>
        rcases hn' : d'.node? (here ++ [s]) with _ | _ | _ <;> simp_all [Except.toOption]

theorem SameDirectories.route (h : SameDirectories d d') (p : Path) :
    (d'.route p).toOption = (d.route p).toOption := by
  rcases List.eq_nil_or_concat' p.parts with hp | ⟨above, last, hp⟩
  · rw [Disk.route, Disk.route, hp]
    rfl
  · have hmap : ∀ (x : Except Nat Route) (f : Route → Route),
        (x.map f).toOption = x.toOption.map f := fun x f => by cases x <;> rfl
    rw [route_concat d hp, route_concat d' hp, hmap, hmap, h.walk]

theorem SameDirectories.isDirectory (h : SameDirectories d d') (p : Path) :
    d'.isDirectory p = true ↔ d.isDirectory p = true := by
  rw [isDirectory_iff, isDirectory_iff, found_eq_some_iff, found_eq_some_iff, h p.place]
  have hroute := h.route p
  cases hd : d.route p with
  | error code =>
    cases hd' : d'.route p with
    | error code' => simp
    | ok r' => simp [hd, hd', Except.toOption] at hroute
  | ok r =>
    cases hd' : d'.route p with
    | error code' => simp [hd, hd', Except.toOption] at hroute
    | ok r' => simp [route_eq_place hd, route_eq_place hd']

/-- A path leads to the same as before, if its place has not changed and no
directory has come or gone. -/
theorem SameDirectories.found (h : SameDirectories d d')
    (hp : d'.node? p.place = d.node? p.place) : d'.found p = d.found p := by
  rw [Disk.found, Disk.found, h.route]
  cases hroute : d.route p with
  | error code => rfl
  | ok r => rw [route_eq_place hroute]; exact hp

/-! ### Accesses -/

/-- What is removed is a file, and nothing else goes with it. -/
theorem exists_of_remove (h : d.remove p = .ok d') :
    ∃ content, d.found p = some (.file content) ∧ SameDirectories d d' ∧ d' = d.erase p.place := by
  rw [remove] at h
  cases hroute : d.route p with
  | error code => simp [hroute, bind, Except.bind] at h
  | ok r =>
    obtain rfl := route_eq_place hroute
    rcases hn : d.node? p.place with _ | content | _ <;>
      simp [hroute, hn, bind, Except.bind, pure, Except.pure, throw, throwThe,
        MonadExceptOf.throw] at h
    subst h
    exact ⟨content, found_eq_some_iff.mpr ⟨hroute, hn⟩, sameDirectories_erase (by simp [hn]), rfl⟩

theorem found_of_remove (h : d.remove p = .ok d') :
    (∃ content, d.found p = some (.file content)) ∧ d'.found p = none ∧
      ∀ q : Path, q.place ≠ p.place → d'.found q = d.found q := by
  obtain ⟨content, hfound, hsame, rfl⟩ := exists_of_remove h
  obtain ⟨hroute, hn⟩ := found_eq_some_iff.mp hfound
  refine ⟨⟨content, hfound⟩, ?_, fun q hq => hsame.found (node?_erase_of_ne d hq)⟩
  rw [found, hsame.route, hroute]
  refine node?_erase_self d fun hnil => ?_
  rw [hnil, node?_nil] at hn
  cases hn

/-- What is not there does not come with a removal. -/
theorem found_eq_none_of_remove (h : d.remove p = .ok d') {q : Path} (hq : d.found q = none) :
    d'.found q = none := by
  by_cases hplace : q.place = p.place
  · obtain ⟨content, hp, hsame, rfl⟩ := exists_of_remove h
    cases hroute : d.route q with
    | error code => rw [found, hsame.route, hroute]; rfl
    | ok r =>
      -- both paths lead to the file that is removed
      have hnode := (found_eq_some_iff.mp hp).2
      rw [← hplace, ← route_eq_place hroute] at hnode
      rw [found, hroute] at hq
      rw [show d.node? r = none from hq] at hnode
      cases hnode
  · rw [(found_of_remove h).2.2 q hplace, hq]

/-- A file that is not there to be removed. -/
theorem found_of_remove_notFound (h : d.remove p = .error SystemError.notFound) :
    d.found p = none := by
  rw [remove] at h
  rw [found]
  cases hroute : d.route p with
  | error code => rfl
  | ok r =>
    rcases hn : d.node? r with _ | content | _ <;>
      simp [hroute, hn, bind, Except.bind, pure, Except.pure, throw, throwThe,
        MonadExceptOf.throw, SystemError.isDirectory, SystemError.notFound] at h
    exact hn

/-- A file is given its content, and nothing else is touched. -/
theorem exists_of_fill {content : Bytes} (h : d.fill p content = .ok d') :
    d.route p = .ok p.place ∧ d.node? p.place ≠ some .directory ∧
      d' = d.put p.place (.file content) := by
  rw [fill] at h
  cases hroute : d.route p with
  | error code => simp [hroute, bind, Except.bind] at h
  | ok r =>
    obtain rfl := route_eq_place hroute
    rcases hn : d.node? p.place with _ | _ | _ <;>
      simp [hroute, hn, bind, Except.bind, pure, Except.pure, throw, throwThe,
        MonadExceptOf.throw] at h
    · exact ⟨rfl, by simp, h.symm⟩
    · exact ⟨rfl, by simp, h.symm⟩

theorem found_of_fill {content : Bytes} (h : d.fill p content = .ok d') :
    SameDirectories d d' ∧ d'.found p = some (.file content) ∧
      ∀ q : Path, q.place ≠ p.place → d'.found q = d.found q := by
  obtain ⟨hroute, hdir, rfl⟩ := exists_of_fill h
  have hsame := sameDirectories_put hdir content
  refine ⟨hsame, ?_, fun q hq => hsame.found (node?_put_of_ne d _ hq)⟩
  rw [found, hsame.route, hroute]
  exact node?_put_self d _ fun hnil => hdir (hnil ▸ node?_nil d)

/-- What is moved is a file; it takes the place of its target, and nothing else is
touched. -/
theorem exists_of_move {source target : Path} (h : d.move source target = .ok d') :
    ∃ content, d.found source = some (.file content) ∧ d.route target = .ok target.place ∧
      d.node? target.place ≠ some .directory ∧
      d' = (d.erase source.place).put target.place (.file content) := by
  rw [move] at h
  cases hs : d.route source with
  | error code => simp [hs, bind, Except.bind] at h
  | ok r =>
    cases ht : d.route target with
    | error code => simp [hs, ht, bind, Except.bind] at h
    | ok q =>
      obtain rfl := route_eq_place hs
      obtain rfl := route_eq_place ht
      cases hc : climbs target with
      | true =>
        simp [hs, ht, hc, bind, Except.bind, throw, throwThe, MonadExceptOf.throw] at h
      | false =>
        rcases hn : d.node? source.place with _ | content | _ <;>
          rcases hm : d.node? target.place with _ | _ | _ <;>
            simp [hs, ht, hc, hn, hm, bind, Except.bind, pure, Except.pure, throw, throwThe,
              MonadExceptOf.throw] at h
        all_goals exact ⟨content, found_eq_some_iff.mpr ⟨hs, hn⟩, rfl, by simp, h.symm⟩

/-- A move leaves the directories as they are. -/
theorem sameDirectories_of_move {source target : Path} (h : d.move source target = .ok d') :
    SameDirectories d d' := by
  obtain ⟨content, hsource, -, hdir, rfl⟩ := exists_of_move h
  have herase := sameDirectories_erase (d := d) (r := source.place)
    (by simp [(found_eq_some_iff.mp hsource).2])
  -- the target was no directory, and taking the source away has not made it one
  exact herase.trans (sameDirectories_put (fun hd => hdir ((herase target.place).mp hd)) content)

theorem found_of_move {source target : Path} (h : d.move source target = .ok d') :
    ∃ content, d.found source = some (.file content) ∧
      d.found target ≠ some .directory ∧ d'.found target = some (.file content) ∧
      ∀ q : Path, q.place ≠ source.place → q.place ≠ target.place →
        d'.found q = d.found q := by
  have hsame := sameDirectories_of_move h
  obtain ⟨content, hsource, htarget, hdir, rfl⟩ := exists_of_move h
  refine ⟨content, hsource, fun hd => hdir (found_eq_some_iff.mp hd).2, ?_, fun q hqs hqt => ?_⟩
  · rw [found, hsame.route, htarget]
    exact node?_put_self _ _ fun hnil => hdir (hnil ▸ node?_nil d)
  · exact hsame.found ((node?_put_of_ne _ _ hqt).trans (node?_erase_of_ne d hqs))

/-- Where something stands in a directory, that directory is there. -/
theorem isDirectory_of_found {directory : List String} {name : String} {n : Node} {anchor : Anchor}
    (hp : p.parts = directory ++ [name]) (h : d.found p = some n) :
    d.isDirectory { anchor, parts := directory } = true := by
  obtain ⟨above, hwalk⟩ := exists_walk_of_found hp h
  obtain ⟨hsolid, habove⟩ := walk_ok hwalk (solid_nil d)
  refine isDirectory_iff.mpr (found_eq_some_iff.mpr ⟨?_, ?_⟩)
  · rw [route_eq_walk d anchor directory hwalk, habove]
    rfl
  · rw [Path.place, show Path.climb [] directory = above from habove.symm]
    exact hsolid.self

/-- A directory that is there need not be made. -/
theorem makeDirectories_of_isDirectory (h : d.isDirectory p = true) :
    d.makeDirectories p = (d, none) := by
  have hfound := found_eq_some_iff.mp (isDirectory_iff.mp h)
  rw [makeDirectories]
  cases hp : p.parts.reverse with
  | nil => rfl
  | cons last above =>
    have hpath : ({ anchor := p.anchor, parts := (last :: above).reverse } : Path) = p := by
      rw [← hp, List.reverse_reverse]
    -- the directory itself is refused as one that exists, which ends the way up
    have hmake : d.makeDirectory p = .error SystemError.exists_ := by
      rw [makeDirectory]
      simp [hfound.1, hfound.2, bind, Except.bind, throw, throwThe, MonadExceptOf.throw]
    rw [makeUpward, hpath, hmake]
    simp [h, SystemError.exists_, SystemError.notFound]

/-! ### Fresh names -/

private theorem le_foldr_max (ns : List Nat) (k : Nat) :
    k ≤ ns.foldr max k ∧ ∀ n ∈ ns, n ≤ ns.foldr max k := by
  induction ns with
  | nil => simp
  | cons m ns ih =>
    rw [List.foldr_cons]
    refine ⟨by omega, fun n hn => ?_⟩
    rcases List.mem_cons.mp hn with rfl | hn
    · omega
    · have := ih.2 n hn
      omega

theorem length_le_longestName {e : Route × Node} {s : String} (he : e ∈ d.entries)
    (hs : s ∈ e.1) : s.length ≤ d.longestName :=
  calc s.length
      ≤ (e.1.map String.length).foldr max 0 :=
        (le_foldr_max _ _).2 _ (List.mem_map_of_mem hs)
    _ ≤ d.longestName :=
        (le_foldr_max _ _).2 _ (List.mem_map.mpr ⟨e, he, rfl⟩)

/-- A fresh name is longer than every name on the disk and every name that it
keeps apart from. -/
theorem length_lt_length_freshName (d : Disk) (front back : String) (apart : List String) :
    d.longestName < (d.freshName front back apart).length ∧
      ∀ s ∈ apart, s.length < (d.freshName front back apart).length := by
  have hmax := le_foldr_max (apart.map String.length) d.longestName
  rw [freshName]
  simp only [String.length_append, String.length_ofList, List.length_replicate]
  refine ⟨by omega, fun s hs => ?_⟩
  have := hmax.2 _ (List.mem_map_of_mem hs)
  omega

theorem freshName_not_mem (d : Disk) (front back : String) (apart : List String) :
    d.freshName front back apart ∉ apart := fun hmem =>
  Nat.lt_irrefl _ ((length_lt_length_freshName d front back apart).2 _ hmem)

theorem node?_freshName (d : Disk) (above : Route) (front back : String) (apart : List String) :
    d.node? (above ++ [d.freshName front back apart]) = none := by
  rw [node?_of_ne_nil _ (by simp), Option.map_eq_none_iff, List.find?_eq_none]
  intro e he heq
  -- the name would be on the disk, and so no longer than the longest one there
  have hmem : d.freshName front back apart ∈ e.1 := by
    rw [eq_of_beq heq]
    simp
  have hle := length_le_longestName he hmem
  have hlt := (length_lt_length_freshName d front back apart).1
  omega

end Disk
end HotSwap
