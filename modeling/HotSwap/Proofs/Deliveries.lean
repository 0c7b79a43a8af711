/-
One handler, and one delivery.

The updater and its host share two loggers: the root, and the one of the updater's package.
Whatever has been configured, attached and removed there, the next configuration leaves one
handler of the updater's name, on the logger that its scope asks for, and every entry of the
package that is grave enough reaches it once.

* `Loggers.get_modify`, `Loggers.get_configure` — the state of each logger after a change of one,
  and after a configuration;
* `Loggers.exists_below` — the loggers above one that is below the package: some that are below
  it too, then the package, then the root;
* `Loggers.Change` — what happens to the shared loggers; `Loggers.keeps_run` — what happens
  leaves all others as they were, but for the levels outside of the package;
* `Loggers.delivers_once` — after every configuration there is one handler, which the entries of
  the package reach once, and those of the others once or never, as the scope asks;
* `Loggers.configure_outside` — what a configuration of the package leaves alone outside of it.

Design notes: a handler is the updater's if it has its name, whoever attached it.
-/
import Mathlib.Data.List.Infix
import HotSwap.Log.Loggers

namespace HotSwap

theorem Level.number_ne_zero (level : Level) : level.number ≠ 0 := by cases level <;> decide

namespace Loggers

variable {l : Loggers} {n : String}

/-! ### The state of a logger -/

theorem get_set (l : Loggers) (n m : String) (s : LoggerState) :
    (l.set n s).get m = if canonical m = canonical n then s else l.get m := by
  rw [get, set, List.find?_cons]
  by_cases hm : canonical m = canonical n
  · simp [hm]
  · have hne : (canonical n == canonical m) = false := by simpa using Ne.symm hm
    have hfilter : (l.states.filter (·.1 != canonical n)).find? (·.1 == canonical m) =
        l.states.find? (·.1 == canonical m) := by
      rw [List.find?_filter]
      congr 1
      funext e
      by_cases he : e.1 = canonical m <;> simp [he, hm]
    rw [hne, hfilter, if_neg hm, get]

theorem get_modify (l : Loggers) (n m : String) (f : LoggerState → LoggerState) :
    (l.modify n f).get m = if canonical m = canonical n then f (l.get n) else l.get m :=
  get_set ..

theorem canonical_canonical (n : String) : canonical (canonical n) = canonical n := by
  by_cases hn : n = "root" <;> simp [canonical, hn]

theorem get_eq_of_canonical {n m : String} (h : canonical m = canonical n) :
    l.get m = l.get n := by
  rw [get, get, h]

theorem get_ask (l : Loggers) (n m : String) : (l.ask n).get m = l.get m := by
  rw [ask, get_modify]
  split
  · next h => exact (get_eq_of_canonical h).symm
  · rfl

theorem get_setLevels (names : List String) (level : Nat) (l : Loggers) (m : String) :
    (names.foldl (fun l n => l.setLevel n level) l).get m =
      if canonical m ∈ names.map canonical then { l.get m with level } else l.get m := by
  induction names generalizing l with
  | nil => rfl
  | cons n names ih =>
    rw [List.foldl_cons, ih, setLevel, get_modify]
    by_cases hm : canonical m = canonical n
    · simp [hm, get_eq_of_canonical hm]
    · simp [hm]

/-- The libraries that write much have another level then, and nothing else changes. -/
theorem get_quieten (l : Loggers) (level : Nat) (m : String) :
    (l.quieten level).get m =
      if canonical m ∈ chatty then { l.get m with level := max level Level.warning.number }
      else l.get m := by
  have hchatty : chatty.map canonical = chatty := by decide
  rw [quieten, get_setLevels, hchatty]

section

variable (l : Loggers) (s : LoggingSettings)

/-- The root after a configuration: it has the handler and the level, or no such handler. -/
theorem get_configure_root : (l.configure s).get "" =
    match s.scope with
    | .root => { l.get "" with level := s.level.number, handlers := [.own s.json s.stream] }
    | .package =>
      { l.get "" with
        handlers := (l.get "").handlers.filter fun h => h.name != packageLogger } := by
  have hroot : canonical "" ∉ chatty := by decide
  have hne : canonical "" ≠ canonical packageLogger := by decide
  change ((l.install s).quieten s.level.number).get "" = _
  rw [get_quieten, if_neg hroot, install]
  cases s.scope with
  | root => simp [get_modify, detach, hne]
  | package => simp [get_modify, detach, attach, hne]

/-- The package after a configuration: it has the handler and the level and hands on nothing, or
it has no such handler and no level and hands on everything. -/
theorem get_configure_package : (l.configure s).get packageLogger =
    { level := match s.scope with | .root => 0 | .package => s.level.number
      propagates := s.scope == .root
      handlers := ((l.get packageLogger).handlers.filter fun h => h.name != packageLogger) ++
        match s.scope with | .root => [] | .package => [.own s.json s.stream] } := by
  have hpackage : canonical packageLogger ∉ chatty := by decide
  have hne : canonical packageLogger ≠ canonical "" := by decide
  change ((l.install s).quieten s.level.number).get packageLogger = _
  rw [get_quieten, if_neg hpackage, install]
  cases s.scope with
  | root => simp [get_modify, detach, hne]
  | package => simp [get_modify, detach, attach, hne]

/-- A configuration leaves the other loggers as they were, but for the levels of those that write
much. -/
theorem get_configure_of_ne (hroot : canonical n ≠ "") (hpackage : canonical n ≠ packageLogger) :
    (l.configure s).get n =
      if canonical n ∈ chatty then
        { l.get n with level := max s.level.number Level.warning.number }
      else l.get n := by
  have hinstall : (l.install s).get n = l.get n := by
    have hroot' : canonical n ≠ canonical "" := hroot
    have hpackage' : canonical n ≠ canonical packageLogger := hpackage
    rw [install]
    cases s.scope with
    | root => simp [get_modify, detach, hroot', hpackage']
    | package => simp [get_modify, detach, attach, hroot', hpackage']
  change ((l.install s).quieten s.level.number).get n = _
  rw [get_quieten, hinstall]

end

/-! ### The lineage of a logger -/

/-- Whether a name is below that of the package. -/
def IsInside (n : String) : Prop := packageLogger.toList ++ ['.'] <+: n.toList

instance (n : String) : Decidable (IsInside n) :=
  inferInstanceAs (Decidable (packageLogger.toList ++ ['.'] <+: n.toList))

theorem IsInside.ne_package (h : IsInside n) : n ≠ packageLogger := by
  rintro rfl
  exact absurd h.length_le (by decide)

theorem IsInside.canonical_eq (h : IsInside n) : canonical n = n := by
  rw [canonical]
  split
  · next hn =>
    obtain rfl : n = "root" := by simpa using hn
    exact absurd h.length_le (by decide)
  · rfl

theorem IsInside.ne_root (h : IsInside n) : n ≠ "" := by
  rintro rfl
  exact absurd h.length_le (by decide)

theorem IsInside.not_mem_chatty (h : IsInside n) : n ∉ chatty := by
  intro hn
  have : ∀ m ∈ chatty, ¬ packageLogger.toList ++ ['.'] <+: m.toList := by decide
  exact this n hn h

/-- A name without dots has the root alone above it. -/
theorem above_of_not_mem {cs : List Char} (h : '.' ∉ cs) : l.above cs = [""] := by
  induction cs with
  | nil => rfl
  | cons c cs ih =>
    rw [List.mem_cons, not_or] at h
    rw [above]
    · exact ih h.2
    · rintro _ _ rfl
      exact absurd rfl h.1

/-- Where the package is above a name, the name is below that of the package, and so are those
between the two; above the package there is the root alone. -/
theorem exists_below_of_mem_above {cs : List Char} (h : packageLogger ∈ l.above cs) :
    packageLogger.toList ++ ['.'] <+: cs.reverse ∧
      ∃ below, l.above cs = below ++ [packageLogger, ""] ∧ ∀ n ∈ below, IsInside n := by
  have hlonger : ∀ (front : List Char) {cs : List Char},
      packageLogger.toList ++ ['.'] <+: cs.reverse →
      packageLogger.toList ++ ['.'] <+: (front ++ cs).reverse := fun front _ hcs => by
    rw [List.reverse_append]
    exact hcs.trans (List.prefix_append _ _)
  -- only a known name before a dot is put on the list: it is the package, or by the induction
  -- hypothesis below it
  fun_induction above l cs with
  | case1 c rest name hknown ih =>
    by_cases hname : name = packageLogger
    · have hcs : (c :: rest).reverse = packageLogger.toList := by
        rw [← hname, String.toList_ofList]
      have hdot : '.' ∉ c :: rest := by
        rw [← List.mem_reverse, hcs]
        decide
      refine ⟨?_, [], ?_, by simp⟩
      · rw [List.reverse_cons, hcs]
      · rw [above_of_not_mem hdot, hname, List.nil_append]
    · obtain ⟨hinside, below, hbelow, hall⟩ :=
        ih ((List.mem_cons.mp h).resolve_left (Ne.symm hname))
      have hname' : IsInside name := by
        rw [IsInside, String.toList_ofList]
        exact hinside
      exact ⟨hlonger ['.'] hinside, name :: below, by rw [hbelow, List.cons_append],
        List.forall_mem_cons.mpr ⟨hname', hall⟩⟩
  | case2 c rest name hknown ih =>
    obtain ⟨hinside, hbelow⟩ := ih h
    exact ⟨hlonger ['.', c] hinside, hbelow⟩
  | case3 c rest hdot ih =>
    obtain ⟨hinside, hbelow⟩ := ih h
    exact ⟨hlonger [c] hinside, hbelow⟩
  | case4 => simp [packageLogger] at h

/-- The lineage of a logger of the package. -/
theorem exists_below (h : packageLogger ∈ l.lineage n) :
    ∃ below, l.lineage n = below ++ [packageLogger, ""] ∧ ∀ m ∈ below, IsInside m := by
  rw [lineage] at h ⊢
  split
  · next hroot =>
    rw [if_pos hroot] at h
    simp [packageLogger] at h
  · next hroot =>
    rw [if_neg hroot, List.mem_cons] at h
    by_cases hn : n = packageLogger
    · refine ⟨[], ?_, by simp⟩
      rw [hn, above_of_not_mem (by decide), List.nil_append]
    · obtain ⟨hinside, below, hbelow, hall⟩ :=
        exists_below_of_mem_above (h.resolve_left (Ne.symm hn))
      rw [List.reverse_reverse] at hinside
      exact ⟨n :: below, by rw [hbelow, List.cons_append],
        List.forall_mem_cons.mpr ⟨hinside, hall⟩⟩

/-! ### What entries reach -/

/-- Those of the handlers that have the name of the updater's. -/
def ours (hs : List Handler) : List Handler := hs.filter fun h => h.name == packageLogger

theorem ours_append (hs hs' : List Handler) : ours (hs ++ hs') = ours hs ++ ours hs' :=
  List.filter_append ..

theorem ours_takers (l : Loggers) (n : String) (severity : Int) :
    ours (l.takers n severity) =
      if (l.effectiveLevel n : Int) ≤ severity then ours (l.receivers n) else [] := by
  rw [takers, passes]
  by_cases hle : (l.effectiveLevel n : Int) ≤ severity
  · simp [hle]
  · simp [hle, ours]

/-- Without those of that name there are none. -/
theorem ours_filter_ne (hs : List Handler) :
    ours (hs.filter fun h => h.name != packageLogger) = [] := by
  simp [ours, List.filter_filter]

/-- Loggers that hand on, and have no handler of the updater, change nothing. -/
theorem ours_handlersAlong_append {below : List String} (above : List String)
    (h : ∀ n ∈ below, ours (l.get n).handlers = [] ∧ (l.get n).propagates = true) :
    ours (l.handlersAlong (below ++ above)) = ours (l.handlersAlong above) := by
  induction below with
  | nil => rfl
  | cons n below ih =>
    rw [List.forall_mem_cons] at h
    obtain ⟨⟨hours, hpropagates⟩, hbelow⟩ := h
    rw [List.cons_append, handlersAlong, ours_append, hours, List.nil_append, if_pos hpropagates,
      ih hbelow]

/-- Loggers without a level leave it to those above them. -/
theorem find?_level_append {below : List String} (above : List String)
    (h : ∀ n ∈ below, (l.get n).level = 0) :
    ((below ++ above).map fun n => (l.get n).level).find? (· != 0) =
      (above.map fun n => (l.get n).level).find? (· != 0) := by
  have hnone : (below.map fun n => (l.get n).level).find? (· != 0) = none := by
    simpa [List.find?_eq_none] using h
  rw [List.map_append, List.find?_append, hnone, Option.none_or]

/-! ### Changes -/

/-- The loggers that the updater shares with its host. -/
inductive Shared where
  | root
  | package
  deriving DecidableEq, Repr

/-- The name of a shared logger. -/
def Shared.name : Shared → String
  | root => ""
  | package => packageLogger

/-- What happens to the shared loggers. -/
inductive Change where
  | configure (s : LoggingSettings)
  /-- The host attaches a handler of its own. -/
  | attach (logger : Shared) (h : Handler) (hname : h.name ≠ packageLogger)
  /-- The host removes the handler in one place of the list, if it is its own. -/
  | remove (logger : Shared) (place : Nat)
  /-- The host sets the level of the root. -/
  | setLevel (level : Nat)
  /-- Somebody asks for a logger. -/
  | ask (n : String)

/-- The loggers after a change. -/
def Change.after (l : Loggers) : Change → Loggers
  | configure s => l.configure s
  | attach logger h _ => l.attach logger.name h
  | remove logger place =>
    l.modify logger.name fun s =>
      if s.handlers[place]?.map Handler.name = some packageLogger then s
      else { s with handlers := s.handlers.eraseIdx place }
  | setLevel level => l.setLevel "" level
  | ask n => l.ask n

/-- The loggers after changes, one after the other. -/
def run (l : Loggers) (changes : List Change) : Loggers := changes.foldl Change.after l

/-- Every other logger has the handlers that it had and hands on as it did, and below the package
it has the level that it had. -/
def Keeps (l l' : Loggers) : Prop :=
  ∀ n, canonical n ≠ "" → canonical n ≠ packageLogger →
    (l'.get n).handlers = (l.get n).handlers ∧ (l'.get n).propagates = (l.get n).propagates ∧
      (IsInside n → (l'.get n).level = (l.get n).level)

theorem Keeps.refl (l : Loggers) : Keeps l l := fun _ _ _ => ⟨rfl, rfl, fun _ => rfl⟩

theorem Keeps.trans {l l' l'' : Loggers} (h : Keeps l l') (h' : Keeps l' l'') : Keeps l l'' := by
  intro n hroot hpackage
  obtain ⟨hhandlers, hpropagates, hlevel⟩ := h n hroot hpackage
  obtain ⟨hhandlers', hpropagates', hlevel'⟩ := h' n hroot hpackage
  exact ⟨hhandlers'.trans hhandlers, hpropagates'.trans hpropagates,
    fun hn => (hlevel' hn).trans (hlevel hn)⟩

theorem Keeps.of_get {l l' : Loggers}
    (h : ∀ n, canonical n ≠ "" → canonical n ≠ packageLogger → l'.get n = l.get n) :
    Keeps l l' := by
  intro n hroot hpackage
  rw [h n hroot hpackage]
  exact ⟨rfl, rfl, fun _ => rfl⟩

theorem keeps_modify (l : Loggers) (logger : Shared) (f : LoggerState → LoggerState) :
    Keeps l (l.modify logger.name f) := by
  refine .of_get fun n hroot hpackage => ?_
  rw [get_modify, if_neg]
  cases logger with
  | root => exact hroot
  | package => exact hpackage

theorem keeps_configure (l : Loggers) (s : LoggingSettings) : Keeps l (l.configure s) := by
  intro n hroot hpackage
  rw [get_configure_of_ne l s hroot hpackage]
  split
  · next hchatty =>
    refine ⟨rfl, rfl, fun hn => ?_⟩
    rw [hn.canonical_eq] at hchatty
    exact absurd hchatty hn.not_mem_chatty
  · exact ⟨rfl, rfl, fun _ => rfl⟩

theorem keeps_after (l : Loggers) (c : Change) : Keeps l (c.after l) := by
  cases c with
  | configure s => exact keeps_configure l s
  | attach logger h hname => exact keeps_modify l logger _
  | remove logger place => exact keeps_modify l logger _
  | setLevel level => exact keeps_modify l .root _
  | ask n => exact .of_get fun m _ _ => get_ask l n m

theorem keeps_run (l : Loggers) (changes : List Change) : Keeps l (l.run changes) := by
  induction changes generalizing l with
  | nil => exact .refl l
  | cons c changes ih => exact (keeps_after l c).trans (ih (c.after l))

/-- Only the shared loggers have a handler of the updater's name, and those below the package hand
on. -/
structure Orderly (l : Loggers) : Prop where
  foreign : ∀ n, canonical n ≠ "" → canonical n ≠ packageLogger → ours (l.get n).handlers = []
  propagates : ∀ n, IsInside n → (l.get n).propagates = true

theorem get_nil (hroot : canonical n ≠ "") : ({} : Loggers).get n = {} := by
  simp [get, Ne.symm hroot]

/-- Loggers are orderly to begin with. -/
theorem orderly_nil : Orderly {} where
  foreign n hroot _ := by
    rw [get_nil hroot]
    rfl
  propagates n hn := by
    rw [get_nil (hn.canonical_eq.symm ▸ hn.ne_root)]

theorem Orderly.of_keeps {l l' : Loggers} (h : l.Orderly) (hkeeps : Keeps l l') : l'.Orderly where
  foreign n hroot hpackage := by
    rw [(hkeeps n hroot hpackage).1]
    exact h.foreign n hroot hpackage
  propagates n hn := by
    have hroot : canonical n ≠ "" := hn.canonical_eq.symm ▸ hn.ne_root
    have hpackage : canonical n ≠ packageLogger := hn.canonical_eq.symm ▸ hn.ne_package
    rw [(hkeeps n hroot hpackage).2.1]
    exact h.propagates n hn

/-! ### After a configuration -/

/-- One of the shared loggers has the handler of a configuration, as its scope asks, and the level;
and the entries of the package go no further than to that logger. -/
structure Configured (s : LoggingSettings) (l : Loggers) : Prop where
  root : ours (l.get "").handlers = if s.scope = .root then [.own s.json s.stream] else []
  package : ours (l.get packageLogger).handlers =
    if s.scope = .package then [.own s.json s.stream] else []
  rootLevel : s.scope = .root → (l.get "").level = s.level.number
  packageLevel : (l.get packageLogger).level = if s.scope = .package then s.level.number else 0
  propagates : (l.get packageLogger).propagates = (s.scope == .root)

theorem configured_configure (l : Loggers) (s : LoggingSettings) :
    Configured s (l.configure s) where
  root := by
    rw [get_configure_root]
    cases s.scope with
    | root => rfl
    | package => exact ours_filter_ne _
  package := by
    rw [get_configure_package, ours_append, ours_filter_ne]
    cases s.scope <;> rfl
  rootLevel hscope := by rw [get_configure_root, hscope]
  packageLevel := by
    rw [get_configure_package]
    cases s.scope <;> rfl
  propagates := by rw [get_configure_package]

/-- Those who ask for loggers change none. -/
theorem get_run_ask (l : Loggers) (asked : List String) (n : String) :
    (l.run (asked.map .ask)).get n = l.get n := by
  induction asked generalizing l with
  | nil => rfl
  | cons m asked ih => exact (ih (l.ask m)).trans (get_ask l m n)

theorem Configured.run_ask {s : LoggingSettings} (h : Configured s l) (asked : List String) :
    Configured s (l.run (asked.map .ask)) where
  root := by rw [get_run_ask, h.root]
  package := by rw [get_run_ask, h.package]
  rootLevel := by rw [get_run_ask]; exact h.rootLevel
  packageLevel := by rw [get_run_ask, h.packageLevel]
  propagates := by rw [get_run_ask, h.propagates]

section

variable {s : LoggingSettings} (hc : Configured s l) (ho : l.Orderly)

include hc ho

/-- An entry of the package reaches the handler of the configuration, if it is grave enough. -/
theorem ours_takers_of_package (hn : packageLogger ∈ l.lineage n)
    (hunset : ∀ m ∈ l.lineage n, IsInside m → (l.get m).level = 0) (severity : Int) :
    ours (l.takers n severity) =
      if (s.level.number : Int) ≤ severity then [.own s.json s.stream] else [] := by
  obtain ⟨below, hlineage, hinside⟩ := exists_below hn
  have hlevel : l.effectiveLevel n = s.level.number := by
    have hbelow : ∀ m ∈ below, (l.get m).level = 0 := fun m hm =>
      hunset m (hlineage ▸ List.mem_append_left _ hm) (hinside m hm)
    rw [effectiveLevel, hlineage, find?_level_append _ hbelow]
    cases hscope : s.scope with
    | root => simp [hc.packageLevel, hc.rootLevel hscope, hscope, s.level.number_ne_zero]
    | package => simp [hc.packageLevel, hscope, s.level.number_ne_zero]
  have hreceivers : ours (l.receivers n) = [.own s.json s.stream] := by
    have hbelow : ∀ m ∈ below, ours (l.get m).handlers = [] ∧ (l.get m).propagates = true := by
      intro m hm
      have hm := hinside m hm
      exact ⟨ho.foreign m (hm.canonical_eq.symm ▸ hm.ne_root)
        (hm.canonical_eq.symm ▸ hm.ne_package), ho.propagates m hm⟩
    rw [receivers, hlineage, ours_handlersAlong_append _ hbelow, handlersAlong, ours_append,
      hc.package, hc.propagates]
    cases hscope : s.scope with
    | root =>
      have hroot := hc.root
      rw [hscope, if_pos rfl] at hroot
      simpa [handlersAlong] using hroot
    | package => rfl
  rw [ours_takers, hlevel, hreceivers]

/-- An entry of a logger that has the root alone above it reaches the handler only where that is
the root's. -/
theorem ours_takers_of_outside (hroot : canonical n ≠ "") (hpackage : canonical n ≠ packageLogger)
    (hlineage : l.lineage n = [n, ""]) (hunset : (l.get n).level = 0)
    (hpropagates : (l.get n).propagates = true) (severity : Int) :
    ours (l.takers n severity) =
      if s.scope = .root ∧ (s.level.number : Int) ≤ severity then [.own s.json s.stream]
      else [] := by
  have hreceivers : ours (l.receivers n) =
      if s.scope = .root then [.own s.json s.stream] else [] := by
    rw [receivers, hlineage, handlersAlong, ours_append, ho.foreign n hroot hpackage,
      if_pos hpropagates, List.nil_append, ← hc.root]
    simp [handlersAlong]
  rw [ours_takers, hreceivers]
  by_cases hscope : s.scope = .root
  · have hlevel : l.effectiveLevel n = s.level.number := by
      rw [effectiveLevel, hlineage]
      simp [hunset, hc.rootLevel hscope, s.level.number_ne_zero]
    simp [hlevel, hscope]
  · simp [hscope]

end

/-- Whatever has happened to the shared loggers, after a configuration they have one handler of the
updater's name, on the logger that the scope asks for.  Until the next change, an entry of the
package, where no logger below the package was given a level, reaches that handler once if it is at
least as grave as the configuration asks, and never if it is not.  An entry of a logger outside of
the package, which has no level, hands on, and has the root alone above it, never reaches the
handler if the scope is the package, and reaches it once, if it is grave enough, if the scope is
the root. -/
theorem delivers_once (h : l.Orderly) (changes : List Change) (s : LoggingSettings)
    (asked : List String) {after : Loggers}
    (hafter : after = ((l.run changes).configure s).run (asked.map .ask)) :
    (ours (after.get "").handlers = if s.scope = .root then [.own s.json s.stream] else []) ∧
    (ours (after.get packageLogger).handlers =
      if s.scope = .package then [.own s.json s.stream] else []) ∧
    (∀ n severity, packageLogger ∈ after.lineage n →
      (∀ m ∈ after.lineage n, IsInside m → (l.get m).level = 0) →
      ours (after.takers n severity) =
        if (s.level.number : Int) ≤ severity then [.own s.json s.stream] else []) ∧
    (∀ n severity, canonical n ≠ "" → canonical n ≠ packageLogger →
      after.lineage n = [n, ""] → (after.get n).level = 0 → (after.get n).propagates = true →
      ours (after.takers n severity) =
        if s.scope = .root ∧ (s.level.number : Int) ≤ severity then [.own s.json s.stream]
        else []) := by
  have hkeeps : Keeps l after := by
    rw [hafter]
    exact ((keeps_run l changes).trans (keeps_configure _ s)).trans (keeps_run _ _)
  have hc : Configured s after := by
    rw [hafter]
    exact (configured_configure _ s).run_ask asked
  have ho : after.Orderly := h.of_keeps hkeeps
  refine ⟨hc.root, hc.package, fun n severity hn hunset => ?_,
    fun n severity hroot hpackage hlineage hunset hpropagates =>
      ours_takers_of_outside hc ho hroot hpackage hlineage hunset hpropagates severity⟩
  refine ours_takers_of_package hc ho hn (fun m hm hinside => ?_) severity
  have hroot : canonical m ≠ "" := hinside.canonical_eq.symm ▸ hinside.ne_root
  have hpackage : canonical m ≠ packageLogger := hinside.canonical_eq.symm ▸ hinside.ne_package
  rw [(hkeeps m hroot hpackage).2.2 hinside]
  exact hunset m hm hinside

end Loggers

namespace Sample

/-- A host with a handler of its own, and scopes that change. -/
def switches : List Loggers.Change := [
  .attach .root (.host "console") (by decide), .configure { scope := .package },
  .attach .package (.host "file") (by decide), .configure { scope := .root, level := .error },
  .remove .package 0, .setLevel 10]

/-- What they end with: records of the package alone, as JSON. -/
def ending : LoggingSettings := { scope := .package, level := .debug, json := true }

/-- The loggers then. -/
def switched : Loggers :=
  ((({} : Loggers).run switches).configure ending).run (["flowswap.engine", "host"].map .ask)

end Sample

/-- After some changes of the scope, the package writes its own entries, and nothing else. -/
theorem Loggers.delivers_once_switched :
    (packageLogger ∈ Sample.switched.lineage "flowswap.engine.drain" ∧
      ours (Sample.switched.takers "flowswap.engine.drain" 10) = [.own true .stdout] ∧
      ours (Sample.switched.takers "flowswap.engine.drain" 9) = []) ∧
    (Sample.switched.lineage "host" = ["host", ""] ∧
      ours (Sample.switched.takers "host" 50) = []) := by
  obtain ⟨-, -, hinside, houtside⟩ := delivers_once orderly_nil Sample.switches Sample.ending
    ["flowswap.engine", "host"] (rfl : Sample.switched = _)
  have hn : packageLogger ∈ Sample.switched.lineage "flowswap.engine.drain" := by decide
  have hunset : ∀ m ∈ Sample.switched.lineage "flowswap.engine.drain", IsInside m →
      (({} : Loggers).get m).level = 0 := by decide
  have hhost : Sample.switched.lineage "host" = ["host", ""] := by decide
  refine ⟨⟨hn, hinside _ 10 hn hunset, hinside _ 9 hn hunset⟩, hhost, ?_⟩
  exact houtside "host" 50 (by decide) (by decide) hhost (by decide) (by decide)

/-! ### The loggers of the host -/

namespace Loggers

/-- A logger that is neither that of the package nor below it. -/
def IsOutside (n : String) : Prop := canonical n ≠ packageLogger ∧ ¬ IsInside n

instance (n : String) : Decidable (IsOutside n) :=
  inferInstanceAs (Decidable (canonical n ≠ packageLogger ∧ ¬ IsInside n))

variable {n : String}

/-- A logger outside of the package after a configuration of the package alone. -/
theorem get_configure_of_outside (l : Loggers) {s : LoggingSettings} (hscope : s.scope = .package)
    (hn : IsOutside n) : (l.configure s).get n =
      { level :=
          if canonical n ∈ chatty then max s.level.number Level.warning.number
          else (l.get n).level
        propagates := (l.get n).propagates
        handlers :=
          if canonical n = "" then (l.get n).handlers.filter fun h => h.name != packageLogger
          else (l.get n).handlers } := by
  by_cases hroot : canonical n = ""
  · have hcanonical : canonical n = canonical "" := hroot
    have hchatty : canonical n ∉ chatty := by
      rw [hroot]
      decide
    rw [get_eq_of_canonical hcanonical, get_configure_root, hscope, if_neg hchatty, if_pos hroot,
      get_eq_of_canonical hcanonical]
  · rw [get_configure_of_ne l s hroot hn.1, if_neg hroot]
    split <;> rfl

/-- The libraries that write much are none of the package's. -/
theorem isOutside_of_chatty (hn : n ∈ chatty) : IsOutside n ∧ canonical n = n := by
  have : ∀ m ∈ chatty, IsOutside m ∧ canonical m = m := by decide
  exact this n hn

/-- A configuration of the package alone leaves the loggers outside of the package their handlers,
but for the updater's own at the root, and lets them hand on as they did.  But it sets the levels
of the libraries that write much, so that it leaves all levels there alone if and only if each of
those has that level already. -/
theorem configure_outside (l : Loggers) {s : LoggingSettings} (hscope : s.scope = .package) :
    (∀ n, IsOutside n →
      ((l.configure s).get n).handlers =
        (if canonical n = "" then (l.get n).handlers.filter fun h => h.name != packageLogger
          else (l.get n).handlers) ∧
      ((l.configure s).get n).propagates = (l.get n).propagates ∧
      ((l.configure s).get n).level =
        if canonical n ∈ chatty then max s.level.number Level.warning.number
        else (l.get n).level) ∧
    ((∀ n, IsOutside n → ((l.configure s).get n).level = (l.get n).level) ↔
      ∀ n ∈ chatty, (l.get n).level = max s.level.number Level.warning.number) := by
  refine ⟨fun n hn => ?_, fun h n hn => ?_, fun h n hn => ?_⟩
  · rw [get_configure_of_outside l hscope hn]
    exact ⟨rfl, rfl, rfl⟩
  · obtain ⟨houtside, hcanonical⟩ := isOutside_of_chatty hn
    rw [← h n houtside, get_configure_of_outside l hscope houtside, if_pos (hcanonical.symm ▸ hn)]
  · rw [get_configure_of_outside l hscope hn]
    dsimp only
    split
    · next hchatty =>
      rw [← h _ hchatty]
      exact congrArg LoggerState.level (get_eq_of_canonical (canonical_canonical n))
    · rfl

end Loggers

namespace Sample

/-- A host that has the errors of its database only, and a handler at the root. -/
def silenced : Loggers :=
  ((({} : Loggers).setLevel "sqlalchemy.engine" Level.error.number).attach "" (.host "console")).setLevel
    "" Level.error.number

end Sample

/-- Its handler and the level of the root are left to it, but the warnings of its database are let
through. -/
theorem Loggers.configure_outside_silenced :
    ((Sample.silenced.configure Sample.ending).get "").handlers = [.host "console"] ∧
    ((Sample.silenced.configure Sample.ending).get "").level = Level.error.number ∧
    (Sample.silenced.get "sqlalchemy.engine").level = Level.error.number ∧
    ((Sample.silenced.configure Sample.ending).get "sqlalchemy.engine").level =
      Level.warning.number := by
  obtain ⟨hleft, -⟩ := configure_outside Sample.silenced (rfl : Sample.ending.scope = .package)
  obtain ⟨hhandlers, -, hroot⟩ := hleft "" (by decide)
  obtain ⟨-, -, hengine⟩ := hleft "sqlalchemy.engine" (by decide)
  exact ⟨hhandlers, hroot, by decide, hengine⟩

end HotSwap
