/-
What is loaded, and what is refused.

The entries of all sources are checked, and the path of the configuration file is seen from the
directory of the settings file.  That path is the only entry that is not checked as it stands:
whatever is in its place is first written as a text, and a text is always accepted as a path.
So a value of any other kind is refused by the check of the entries, and yet loaded.

* `Data.lookup_store_self`, `Data.lookup_store_of_ne` — among entries that have no key twice,
  what is stored is found, and nothing else is changed;
* `Settings.tidy_of_gather` — what is gathered has no key twice;
* `Checked.refuse` — a check with one more problem, and how the parts of a check pass it on;
* `Settings.check_of_path`, `Settings.check_of_noPath` — how the check of entries differs from
  the check with a text for the path;
* `Settings.load_of_gather` — which entries are loaded, as which settings, and which are
  refused.
-/
import HotSwap.Proofs.PathTexts
import HotSwap.Settings.Loading

namespace HotSwap

/-! ### Keys -/

namespace Data

variable {entries : List (String × Data)} {key other : String} {value d : Data}

theorem lookup_cons (k : String) (d : Data) (entries : List (String × Data)) (key : String) :
    lookup ((k, d) :: entries) key =
      (lookup entries key).or (if k = key then some d else none) := by
  rw [lookup, lookup, List.reverse_cons, List.find?_append, Option.map_or]
  congr 1
  by_cases hk : k = key <;> simp [hk]

theorem lookup_eq_none (h : key ∉ entries.map Prod.fst) : lookup entries key = none := by
  induction entries with
  | nil => rfl
  | cons e entries ih =>
    rw [List.map_cons, List.mem_cons, not_or] at h
    rw [lookup_cons, ih h.2, if_neg (Ne.symm h.1), Option.or_none]

theorem mem_of_lookup (h : lookup entries key = some d) : (key, d) ∈ entries := by
  obtain ⟨⟨k, d'⟩, hfind, rfl⟩ := Option.map_eq_some_iff.mp h
  obtain rfl : k = key := by simpa using List.find?_some hfind
  exact List.mem_reverse.mp (List.mem_of_find?_eq_some hfind)

/-- What is stored is found, unless a later entry has the same key. -/
theorem lookup_store_self (h : (entries.map Prod.fst).Nodup) :
    lookup (store key value entries) key = some value := by
  induction entries with
  | nil => simp [store, lookup]
  | cons e entries ih =>
    obtain ⟨k, d⟩ := e
    rw [List.map_cons, List.nodup_cons] at h
    rw [store]
    split
    · next hk =>
      obtain rfl : k = key := by simpa using hk
      rw [lookup_cons, lookup_eq_none h.1, if_pos rfl, Option.none_or]
    · rw [lookup_cons, ih h.2, Option.some_or]

theorem lookup_store_of_ne (h : other ≠ key) :
    lookup (store key value entries) other = lookup entries other := by
  induction entries with
  | nil => simp [store, lookup, Ne.symm h]
  | cons e entries ih =>
    obtain ⟨k, d⟩ := e
    rw [store]
    split
    · next hk =>
      obtain rfl : k = key := by simpa using hk
      rw [lookup_cons, lookup_cons, if_neg (Ne.symm h), if_neg (Ne.symm h)]
    · rw [lookup_cons, lookup_cons, ih]

/-- A key that is stored is put behind the others, unless it is one of them. -/
theorem keys_store (key : String) (value : Data) (entries : List (String × Data)) :
    (store key value entries).map Prod.fst =
      if key ∈ entries.map Prod.fst then entries.map Prod.fst
      else entries.map Prod.fst ++ [key] := by
  induction entries with
  | nil => rfl
  | cons e entries ih =>
    obtain ⟨k, d⟩ := e
    rw [store]
    by_cases hk : k = key
    · simp [hk]
    · rw [if_neg (by simpa using hk), List.map_cons, ih]
      by_cases hmem : key ∈ entries.map Prod.fst <;> simp [hmem, Ne.symm hk]

theorem nodup_store (h : (entries.map Prod.fst).Nodup) :
    ((store key value entries).map Prod.fst).Nodup := by
  rw [keys_store]
  split
  · exact h
  · next hkey =>
    rw [← List.concat_eq_append]
    exact h.concat hkey

theorem mem_store {e : String × Data} (h : e ∈ store key value entries) :
    e.2 = value ∨ e ∈ entries := by
  induction entries with
  | nil => simp_all [store]
  | cons e' entries ih =>
    rw [store] at h
    split at h
    · rcases List.mem_cons.mp h with rfl | h
      · exact .inl rfl
      · exact .inr (List.mem_cons_of_mem _ h)
    · rcases List.mem_cons.mp h with rfl | h
      · exact .inr (List.mem_cons_self ..)
      · exact (ih h).imp_right (List.mem_cons_of_mem _)

theorem nodup_lowercaseEntries {acc : List (String × Data)} (h : (acc.map Prod.fst).Nodup)
    (entries : List (String × Data)) :
    ((lowercaseEntries acc entries).map Prod.fst).Nodup := by
  induction entries generalizing acc with
  | nil => exact h
  | cons e entries ih => exact ih (nodup_store h)

theorem mem_lowercaseEntries {acc entries : List (String × Data)} {e : String × Data}
    (h : e ∈ lowercaseEntries acc entries) : e ∈ acc ∨ ∃ d, e.2 = lowercaseKeys d := by
  induction entries generalizing acc with
  | nil => exact .inl h
  | cons e' entries ih =>
    rcases ih h with hacc | hd
    · exact (mem_store hacc).symm.imp_right fun heq => ⟨_, heq⟩
    · exact .inr hd

theorem mapTextsEntries_eq_map (f : String → String) (entries : List (String × Data)) :
    mapTextsEntries f entries = entries.map (Prod.map id (mapTexts f)) := by
  induction entries with
  | nil => rfl
  | cons e entries ih => rw [mapTextsEntries, ih, List.map_cons, Prod.map_apply, id_eq]

end Data

section

variable (env : Environment)

/-- A mapping with its keys in lower case and its references replaced has no key twice. -/
theorem Environment.nodup_expandTexts (d : Data) :
    ((env.expandTexts d.lowercaseKeys).entries.map Prod.fst).Nodup := by
  cases d with
  | mapping entries =>
    change ((Data.mapTextsEntries _ _).map Prod.fst).Nodup
    rw [Data.mapTextsEntries_eq_map, List.map_map]
    have hnil : (([] : List (String × Data)).map Prod.fst).Nodup := List.nodup_nil
    exact Data.nodup_lowercaseEntries hnil entries
  | _ => exact List.nodup_nil

/-- What is in such a mapping is such a tree again. -/
theorem Environment.of_mem_expandTexts {d : Data} {e : String × Data}
    (h : e ∈ (env.expandTexts d.lowercaseKeys).entries) :
    ∃ d' : Data, e.2 = env.expandTexts d'.lowercaseKeys := by
  cases d with
  | mapping entries =>
    change e ∈ Data.mapTextsEntries _ _ at h
    rw [Data.mapTextsEntries_eq_map, List.mem_map] at h
    obtain ⟨e', he', rfl⟩ := h
    rcases Data.mem_lowercaseEntries he' with hnil | ⟨d', hd'⟩
    · cases hnil
    · exact ⟨d', congrArg env.expandTexts hd'⟩
  | _ => cases h

end

/-! ### Checks -/

namespace Checked

variable {α β : Type}

/-- The problems that were found. -/
def problems : Checked α → List Problem
  | good _ => []
  | bad ps => ps

/-- A check with one more problem, in front of the others. -/
def refuse (p : Problem) (c : Checked α) : Checked α := .bad (p :: c.problems)

theorem map_refuse (f : α → β) (p : Problem) (c : Checked α) :
    f <$> c.refuse p = (f <$> c).refuse p := by
  cases c <;> rfl

theorem refuse_seq (p : Problem) (c : Checked (α → β)) (a : Checked α) :
    c.refuse p <*> a = (c <*> a).refuse p := by
  cases c <;> cases a <;> rfl

theorem below_refuse (key : String) (p : Problem) (c : Checked α) :
    (c.refuse p).below key = (c.below key).refuse { p with place := key :: p.place } := by
  cases c <;> rfl

theorem below_good {key : String} {c : Checked α} {a : α} (h : c.below key = .good a) :
    c = .good a := by
  cases c with
  | good b =>
    cases h
    rfl
  | bad problems => cases h

theorem below_map (key : String) (f : α → β) (c : Checked α) :
    (f <$> c).below key = f <$> c.below key := by
  cases c <;> rfl

theorem field_store_of_ne {entries : List (String × Data)} {key other : String} {value : Data}
    (h : other ≠ key) (default : α) (read : Data → Except Complaint α) :
    field (Data.store key value entries) other default read =
      field entries other default read := by
  rw [field, field, Data.lookup_store_of_ne h]

end Checked

namespace FileSettings

variable {files : List (String × Data)} {d : Data}

/-- The settings of the files, from a check of the path. -/
def checkWith (path : Checked Path) (files : List (String × Data)) : Checked FileSettings :=
  FileSettings.mk <$> path
    <*> Checked.field files "backup_suffix" ".backup"
      (fun d => do extension (← Settings.asText d))
    <*> Checked.field files "raw_extension" ".raw"
      (fun d => do extension (← Settings.asText d))

theorem check_eq_checkWith (h : Data.lookup files "flow_configuration_file" = some d) :
    check files =
      checkWith (.ofExcept "flow_configuration_file" (Settings.asPath d)) files := by
  rw [check, Checked.required, h, checkWith]

theorem checkWith_refuse (p : Problem) (path : Checked Path) :
    checkWith (path.refuse p) files = (checkWith path files).refuse p := by
  rw [checkWith, Checked.map_refuse, Checked.refuse_seq, Checked.refuse_seq, checkWith]

theorem checkWith_good (path path' : Path) :
    checkWith (.good path') files =
      (fun f => { f with file := path' }) <$> checkWith (.good path) files := by
  rw [checkWith, checkWith]
  generalize Checked.field files "backup_suffix" _ _ = backup
  generalize Checked.field files "raw_extension" _ _ = raw
  cases backup <;> cases raw <;> rfl

/-- With a text stored for the path. -/
theorem check_store (h : (files.map Prod.fst).Nodup) (t : String) :
    check (Data.store "flow_configuration_file" (.text t) files) =
      checkWith (.good (.ofString t)) files := by
  rw [check_eq_checkWith (Data.lookup_store_self h), checkWith, checkWith,
    Checked.field_store_of_ne (by decide), Checked.field_store_of_ne (by decide)]
  rfl

end FileSettings

namespace Settings

variable {entries files : List (String × Data)} {d : Data}

/-- All settings, from a check of those of the files. -/
def checkWith (files : Checked FileSettings) (entries : List (String × Data)) :
    Checked Settings :=
  Settings.mk <$> files
    <*> optionalGroup entries "drain" "DrainSettings" {} DrainSettings.check
    <*> optionalGroup entries "validation" "ValidationSettings" .standard
      (BudgetSettings.check .standard)
    <*> optionalGroup entries "history" "HistorySettings" {} HistorySettings.check
    <*> optionalGroup entries "logging" "LoggingSettings" {} LoggingSettings.check

/-- The settings with another path of the configuration file. -/
def withFile (s : Settings) (path : Path) : Settings :=
  { s with files := { s.files with file := path } }

theorem check_eq_checkWith (h : Data.lookup entries "files" = some (.mapping files)) :
    check entries = checkWith ((FileSettings.check files).below "files") entries := by
  rw [check, requiredGroup, h]
  rfl

theorem checkWith_refuse (p : Problem) (c : Checked FileSettings) :
    checkWith (c.refuse p) entries = (checkWith c entries).refuse p := by
  simp only [checkWith, Checked.map_refuse, Checked.refuse_seq]

theorem checkWith_map (path : Path) (c : Checked FileSettings) :
    checkWith ((fun f => { f with file := path }) <$> c) entries =
      (withFile · path) <$> checkWith c entries := by
  rw [checkWith, checkWith]
  generalize optionalGroup entries "drain" _ _ _ = drain
  generalize optionalGroup entries "validation" _ _ _ = validation
  generalize optionalGroup entries "history" _ _ _ = history
  generalize optionalGroup entries "logging" _ _ _ = logging
  cases c <;> cases drain <;> cases validation <;> cases history <;> cases logging <;> rfl

theorem checkWith_store (c : Checked FileSettings) (value : Data) :
    checkWith c (Data.store "files" value entries) = checkWith c entries := by
  have hgroup : ∀ {α : Type} {key : String} (model : String) (default : α) check,
      key ≠ "files" → optionalGroup (Data.store "files" value entries) key model default check =
        optionalGroup entries key model default check := fun model default check hkey => by
    rw [optionalGroup, optionalGroup, Data.lookup_store_of_ne hkey]
  simp only [checkWith, hgroup _ _ _ (by decide : "drain" ≠ "files"),
    hgroup _ _ _ (by decide : "validation" ≠ "files"),
    hgroup _ _ _ (by decide : "history" ≠ "files"),
    hgroup _ _ _ (by decide : "logging" ≠ "files")]

/-! ### The path -/

/-- No key is there twice, neither among the entries nor among those of the files. -/
structure Tidy (entries : List (String × Data)) : Prop where
  keys : (entries.map Prod.fst).Nodup
  files : ∀ files, Data.lookup entries "files" = some (.mapping files) →
    (files.map Prod.fst).Nodup

/-- What is gathered is tidy. -/
theorem tidy_of_gather {disk : Disk} {directory config : Path} {env : Environment}
    (h : gather disk directory env config = .ok entries) : Tidy entries := by
  obtain ⟨d, rfl⟩ : ∃ d : Data, entries = (env.expandTexts d.lowercaseKeys).entries := by
    rw [gather] at h
    cases hmain : entriesOf disk (config.absoluteIn directory) with
    | error e =>
      rw [hmain] at h
      cases h
    | ok main =>
      cases hbeside : entriesOf disk (localName (config.absoluteIn directory)) with
      | error e =>
        rw [hmain, hbeside] at h
        cases h
      | ok beside =>
        rw [hmain, hbeside] at h
        cases h
        exact ⟨_, rfl⟩
  refine ⟨env.nodup_expandTexts d, fun files hfiles => ?_⟩
  obtain ⟨d', hd' : Data.mapping files = _⟩ := env.of_mem_expandTexts (Data.mem_of_lookup hfiles)
  have := env.nodup_expandTexts d'
  rwa [← hd'] at this

theorem lookup_of_pathValue? (h : pathValue? entries = some d) :
    ∃ files, Data.lookup entries "files" = some (.mapping files) ∧
      Data.lookup files "flow_configuration_file" = some d := by
  rw [pathValue?] at h
  split at h
  · next files hfiles => exact ⟨files, hfiles, h⟩
  · cases h

/-- All settings, from a check of the path. -/
def checkPath (path : Checked Path) (files entries : List (String × Data)) : Checked Settings :=
  checkWith ((FileSettings.checkWith path files).below "files") entries

section

variable (hfiles : Data.lookup entries "files" = some (.mapping files))

include hfiles

theorem check_eq_checkPath (hd : Data.lookup files "flow_configuration_file" = some d) :
    check entries =
      checkPath (.ofExcept "flow_configuration_file" (asPath d)) files entries := by
  rw [check_eq_checkWith hfiles, FileSettings.check_eq_checkWith hd, checkPath]

theorem check_putPath (h : Tidy entries) (t : String) :
    check (putPath t entries) = checkPath (.good (.ofString t)) files entries := by
  rw [putPath, hfiles]
  rw [check_eq_checkWith (Data.lookup_store_self h.keys),
    FileSettings.check_store (h.files files hfiles), checkWith_store, checkPath]

end

theorem checkPath_good (path path' : Path) :
    checkPath (.good path') files entries =
      (withFile · path') <$> checkPath (.good path) files entries := by
  rw [checkPath, FileSettings.checkWith_good path, Checked.below_map, checkWith_map, checkPath]

/-- The complaint about a path that is no text. -/
def noPath : Problem where
  place := ["files", "flow_configuration_file"]
  complaint := .noPath

theorem checkPath_refuse (path : Checked Path) :
    checkPath (path.refuse { place := ["flow_configuration_file"], complaint := .noPath })
      files entries = (checkPath path files entries).refuse noPath := by
  rw [checkPath, FileSettings.checkWith_refuse, Checked.below_refuse, checkWith_refuse, checkPath,
    noPath]

section

variable (h : Tidy entries)

include h

/-- A text is accepted as a path: nothing changes where it is put in its own place. -/
theorem check_of_path {t : String} (hd : pathValue? entries = some (.text t)) :
    check (putPath t entries) = check entries := by
  obtain ⟨files, hfiles, hlookup⟩ := lookup_of_pathValue? hd
  rw [check_putPath hfiles h, check_eq_checkPath hfiles hlookup]
  rfl

/-- Anything else is refused, beside what is refused with a text in its place. -/
theorem check_of_noPath (hd : pathValue? entries = some d) (hnone : d.text? = none) (t : String) :
    check entries = (check (putPath t entries)).refuse noPath := by
  obtain ⟨files, hfiles, hlookup⟩ := lookup_of_pathValue? hd
  rw [check_putPath hfiles h, check_eq_checkPath hfiles hlookup, ← checkPath_refuse]
  cases d with
  | text t => cases hnone
  | _ => rfl

end

/-- Where entries are accepted, the path is a text. -/
theorem path_of_check_good {s : Settings} (h : check entries = .good s) :
    ∃ t, pathValue? entries = some (.text t) ∧ s.files.file = .ofString t := by
  obtain ⟨_, _, hhistory, -, rfl⟩ := Checked.seq_good h
  obtain ⟨_, _, hvalidation, -, rfl⟩ := Checked.seq_good hhistory
  obtain ⟨_, _, hdrain, -, rfl⟩ := Checked.seq_good hvalidation
  obtain ⟨_, _, hmap, -, rfl⟩ := Checked.seq_good hdrain
  obtain ⟨f, hgroup, rfl⟩ := Checked.map_good hmap
  rw [requiredGroup] at hgroup
  split at hgroup
  · cases hgroup
  · next d hfiles =>
    cases d with
    | mapping files =>
      have hf : FileSettings.check files = .good f := Checked.below_good hgroup
      obtain ⟨_, _, hbackup, -, rfl⟩ := Checked.seq_good hf
      obtain ⟨_, _, hpath, -, rfl⟩ := Checked.seq_good hbackup
      obtain ⟨path, hrequired, rfl⟩ := Checked.map_good hpath
      rw [Checked.required] at hrequired
      split at hrequired
      · cases hrequired
      · next d hd =>
        have hread := Checked.ofExcept_good hrequired
        cases d with
        | text t =>
          cases hread
          have hvalue : pathValue? entries = some (.text t) := by
            rw [pathValue?, hfiles]
            exact hd
          exact ⟨t, hvalue, rfl⟩
        | _ => cases hread
    | _ => cases hgroup

/-! ### Loading -/

/-- A check of entries as the answer to the one who loads them. -/
def answer : Checked Settings → Except LoadError Settings
  | .good s => .ok s
  | .bad problems => .error (.refused problems)

theorem answer_map (f : Settings → Settings) (c : Checked Settings) :
    answer (f <$> c) = (answer c).map f := by
  cases c <;> rfl

theorem sound_of_seenFrom {directory config given path : Path} (hdirectory : directory.Sound)
    (hconfig : config.Sound) (hgiven : given.Sound)
    (h : seenFrom directory config given = .ok path) : path.Sound := by
  rw [seenFrom] at h
  split at h
  · cases h
    exact hgiven
  · split at h
    · cases h
    · cases h
      exact (hconfig.parent.join hgiven).resolvedIn hdirectory

theorem placeFile_of_pathless {directory config : Path} (hnone : pathValue? entries = none) :
    placeFile directory config entries = .ok entries := by
  rw [placeFile, hnone]
  rfl

/-- What stands for the path is written as a text, and the path that is read from it is seen from
the directory of the settings file. -/
theorem placeFile_of_pathValue? {directory config : Path} (hd : pathValue? entries = some d) :
    placeFile directory config entries =
      (seenFrom directory config (.ofString d.plain)).map fun path =>
        putPath (toString path) entries := by
  rw [placeFile, hd]
  change (seenFrom directory config (.ofString d.plain)).bind _ = _
  cases seenFrom directory config (.ofString d.plain) <;> rfl

section

variable {disk : Disk} {directory config : Path} {env : Environment} {node : Node}
  (hfile : disk.at? (config.absoluteIn directory) = .ok (some node))
  (hentries : gather disk directory env config = .ok entries)

include hfile hentries

theorem load_eq : load disk directory env config =
    (placeFile directory config entries).bind fun placed => answer (check placed) := by
  rw [load, hfile, hentries]
  rfl

/-- With something in its place, the path is read and seen from there, and the entries are checked
with a text for it. -/
theorem load_of_pathValue? (hdirectory : directory.Sound) (hconfig : config.Sound)
    (hd : pathValue? entries = some d) :
    load disk directory env config = (seenFrom directory config (.ofString d.plain)).bind
      fun path => (answer (check (putPath d.plain entries))).map (withFile · path) := by
  rw [load_eq hfile hentries, placeFile_of_pathValue? hd]
  cases hseen : seenFrom directory config (.ofString d.plain) with
  | error e => rfl
  | ok path =>
    obtain ⟨files, hfiles, -⟩ := lookup_of_pathValue? hd
    have htidy := tidy_of_gather hentries
    have hsound : path.Sound := sound_of_seenFrom hdirectory hconfig (Path.sound_ofString _) hseen
    -- the path that is put in is read again as itself, and nothing else looks at it
    have hcheck : check (putPath (toString path) entries) =
        (withFile · path) <$> check (putPath d.plain entries) := by
      rw [check_putPath hfiles htidy, check_putPath hfiles htidy, hsound.ofString_toString,
        checkPath_good]
    change answer (check (putPath (toString path) entries)) = (answer _).map _
    rw [hcheck, answer_map]

end

end Settings

/-- What is loaded from the entries that are gathered for a settings file.

If they are accepted as they stand, the settings are loaded that they give, with the path of the
configuration file seen from the directory of the settings file.  If they are refused, and the path
is a text or is not there at all, loading is refused for the same reasons, unless the path cannot
even be searched for.  And if something else is in the place of the path, the entries are refused,
and yet they are loaded as if its text were there. -/
theorem Settings.load_of_gather {disk : Disk} {directory config : String} {env : Environment}
    {node : Node} {entries : List (String × Data)}
    (hfile : disk.at? ((Path.ofString config).absoluteIn (.ofString directory)) = .ok (some node))
    (hentries : gather disk (.ofString directory) env (.ofString config) = .ok entries) :
    (∀ s, check entries = .good s →
      load disk (.ofString directory) env (.ofString config) =
        (seenFrom (.ofString directory) (.ofString config) s.files.file).map fun path =>
          s.withFile path) ∧
    (∀ problems, check entries = .bad problems →
      (pathValue? entries = none →
        load disk (.ofString directory) env (.ofString config) = .error (.refused problems)) ∧
      (∀ t, pathValue? entries = some (.text t) →
        load disk (.ofString directory) env (.ofString config) =
          (seenFrom (.ofString directory) (.ofString config) (.ofString t)).bind fun _ =>
            .error (.refused problems))) ∧
    (∀ d, pathValue? entries = some d → d.text? = none →
      check entries = (check (putPath d.plain entries)).refuse noPath ∧
      load disk (.ofString directory) env (.ofString config) =
        (seenFrom (.ofString directory) (.ofString config) (.ofString d.plain)).bind fun path =>
          (answer (check (putPath d.plain entries))).map (withFile · path)) := by
  have htidy := tidy_of_gather hentries
  have hload : ∀ d, pathValue? entries = some d → _ := fun d =>
    load_of_pathValue? hfile hentries (Path.sound_ofString directory) (Path.sound_ofString config)
  refine ⟨fun s hgood => ?_, fun problems hbad => ⟨fun hnone => ?_, fun t hd => ?_⟩,
    fun d hd hnone => ⟨check_of_noPath htidy hd hnone _, hload d hd⟩⟩
  · obtain ⟨t, hd, hfile⟩ := path_of_check_good hgood
    rw [hload _ hd, hfile]
    change _ = (seenFrom _ _ (.ofString (Data.text t).plain)).map _
    rw [show check (putPath (Data.text t).plain entries) = .good s from
      (check_of_path htidy hd).trans hgood]
    cases seenFrom (.ofString directory) (.ofString config) (.ofString (Data.text t).plain) <;> rfl
  · rw [load_eq hfile hentries, placeFile_of_pathless hnone]
    change answer (check entries) = _
    rw [hbad, answer]
  · rw [hload _ hd, show check (putPath (Data.text t).plain entries) = .bad problems from
      (check_of_path htidy hd).trans hbad]
    rfl

namespace Sample

/-- Settings with nothing for the path of the configuration file. -/
def nullPath : String := "files:\n  flow_configuration_file: null\n"

/-- The lines of these settings. -/
def nullPathLines : List Yaml.Line :=
  ["files:".toList, "  flow_configuration_file: null".toList, []]

/-- The entries of these settings. -/
def nullPathEntries : List (String × Data) :=
  [("files", .mapping [("flow_configuration_file", .null)])]

/-- A disk with these settings in a file. -/
def nullPathDisk : Disk where
  entries := [(["p"], .directory), (["p", "settings.yaml"], .file (.ofText nullPath))]

theorem read_nullPath : Yaml.read nullPath = .ok (.mapping nullPathEntries) := by
  have hbreaks : Yaml.unifyBreaks nullPath.toList = nullPath.toList := rfl
  have hmark : (nullPath.toList.head? == some '\ufeff') = false := rfl
  have hall : nullPath.toList.all Yaml.isAllowed = true := rfl
  have hlines : Yaml.documentLines (Yaml.linesOf nullPath.toList) = .ok nullPathLines := rfl
  have hlength : 2 * nullPath.toList.length + nullPathLines.length + 2 = 83 := rfl
  have hnode : Yaml.readNode 83 0 nullPathLines = .ok (.mapping nullPathEntries, []) := rfl
  simp only [Yaml.read, hbreaks, hmark, hall, hlines, Bool.false_eq_true, if_false,
    Bool.not_true, bind, Except.bind, hlength, hnode]
  rfl

theorem gather_nullPath :
    Settings.gather nullPathDisk (.ofString "/p") [] (.ofString "settings.yaml") =
      .ok nullPathEntries := by
  have hplace : (Path.ofString "settings.yaml").absoluteIn (.ofString "/p") =
      .ofString "/p/settings.yaml" := rfl
  have hread : nullPathDisk.read (.ofString "/p/settings.yaml") = .ok (.ofText nullPath) := rfl
  have htext : (Bytes.ofText nullPath).lossyText = nullPath := by decide +kernel
  have hmain : Settings.entriesOf nullPathDisk (.ofString "/p/settings.yaml") =
      .ok nullPathEntries := by
    rw [Settings.entriesOf, hread]
    simp only [htext, read_nullPath]
    rfl
  have hbeside : Settings.entriesOf nullPathDisk
      (Settings.localName (.ofString "/p/settings.yaml")) = .ok [] := rfl
  rw [Settings.gather, hplace]
  simp only [hmain, hbeside, bind, Except.bind]
  rfl

end Sample

/-- The path is null: it is refused, and loaded as a file of the name `None`. -/
theorem Settings.load_of_gather_null :
    Sample.nullPathDisk.at? ((Path.ofString "settings.yaml").absoluteIn (.ofString "/p")) =
      .ok (some (.file (.ofText Sample.nullPath))) ∧
    gather Sample.nullPathDisk (.ofString "/p") [] (.ofString "settings.yaml") =
      .ok Sample.nullPathEntries ∧
    check Sample.nullPathEntries = .bad [noPath] ∧
    load Sample.nullPathDisk (.ofString "/p") [] (.ofString "settings.yaml") =
      .ok { files := { file := .ofString "/p/None" } } := by
  have hfile : Sample.nullPathDisk.at? ((Path.ofString "settings.yaml").absoluteIn
      (.ofString "/p")) = .ok (some (.file (.ofText Sample.nullPath))) := rfl
  obtain ⟨-, -, hnull⟩ := load_of_gather hfile Sample.gather_nullPath
  obtain ⟨hcheck, hload⟩ := hnull .null rfl rfl
  exact ⟨hfile, Sample.gather_nullPath, hcheck, hload⟩

end HotSwap
