/-
What callers do with the files of a configuration.

A caller orders backups, replacements, restores and cleanups in any order, goes on or gives
up when one of them fails, and opens transactions within transactions.

* `FileOrder` — an order, and the operation that carries it out;
* `Script` — what a caller does: orders in sequence, scopes, and what is done about faults;
* `Script.deeds` — the orders that a script comes to carry out, each with the world in which
  it begins;
* `Script.follows` — each deed begins where the one before it has ended, the end of a scope
  among them;
* `latestBackup` — the world in which the most recent backup since the last cleanup began.

Design notes: a script does not look at what its orders come to.  A caller that does so does,
in each run, what some script does.
-/
import Mathlib.Data.List.Induction
import HotSwap.Configuration.FileSet
import HotSwap.Proofs.Ends

namespace HotSwap

variable {σ : Type} {link : Link σ} {p : FilePaths} {w w' w'' : World σ}

/-! ### Orders -/

/-- What a caller can order to be done with the files. -/
inductive FileOrder where
  | backup
  | persist (rendered raw : Bytes)
  | revert
  | cleanup
  deriving DecidableEq, Repr

/-- Carries an order out. -/
def FileOrder.act (link : Link σ) (p : FilePaths) : FileOrder → Act σ Unit
  | .backup => FileSet.backup link p
  | .persist rendered raw => FileSet.persist link p rendered raw
  | .revert => do
    let _ ← FileSet.revert link p
    return ()
  | .cleanup => FileSet.cleanup link p

/-! ### Scripts -/

/-- What a caller does. -/
inductive Script where
  | nothing
  | order (o : FileOrder)
  /-- The caller fails by itself. -/
  | fail (e : Fault)
  /-- The second part comes only if the first has not failed. -/
  | next (first second : Script)
  /-- The caller goes on, whether or not this has failed. -/
  | caught (s : Script)
  /-- A transaction. -/
  | scope (s : Script)

/-- A deed: an order, and the world in which it begins to be carried out. -/
abbrev Deed (σ : Type) := FileOrder × World σ

namespace Script

/-- Carries a script out. -/
def act (link : Link σ) (p : FilePaths) : Script → Act σ Unit
  | nothing => return ()
  | order o => o.act link p
  | fail e => Act.raise e
  | next s t => do
    s.act link p
    t.act link p
  | caught s => do
    let _ ← (s.act link p).outcome
    return ()
  | scope s => FileSet.transaction link p (s.act link p)

/-- The deeds of a script, in order; a scope ends with a cleanup. -/
def deeds (link : Link σ) (p : FilePaths) : Script → World σ → List (Deed σ)
  | nothing, _ | fail _, _ => []
  | order o, w => [(o, w)]
  | next s t, w =>
    s.deeds link p w ++
      match (s.act link p).run w with
      | (.ok _, w') => t.deeds link p w'
      | (.error _, _) => []
  | caught s, w => s.deeds link p w
  | scope s, w => s.deeds link p w ++ [(.cleanup, ((s.act link p).run w).2)]

end Script

/-- Whichever way an act ends, the world in the end is that of what follows it. -/
theorem Act.run_ensuring_snd {α : Type} (a : Act σ α) (after : Act σ Unit) (w : World σ) :
    ((a.ensuring after).run w).2 = (after.run (a.run w).2).2 := by
  unfold run ensuring
  rcases a w with ⟨r, w'⟩
  rcases h : after w' with ⟨_ | _, w''⟩ <;> simp [h]

/-! ### Deeds -/

/-- The deeds lead from one world to another, each from where the one before it has ended. -/
inductive Follows (link : Link σ) (p : FilePaths) (w : World σ) : List (Deed σ) → World σ → Prop
  | nil : Follows link p w [] w
  | snoc {ds : List (Deed σ)} {w' : World σ} (h : Follows link p w ds w') (o : FileOrder) :
    Follows link p w (ds ++ [(o, w')]) ((o.act link p).run w').2

variable {ds ds' : List (Deed σ)}

theorem Follows.append (h : Follows link p w ds w') (h' : Follows link p w' ds' w'') :
    Follows link p w (ds ++ ds') w'' := by
  induction h' with
  | nil => simpa using h
  | snoc _ o ih =>
    rw [← List.append_assoc]
    exact ih.snoc o

/-- Before each deed lie the deeds that lead to it. -/
theorem Follows.before {o : FileOrder} {v : World σ} (h : Follows link p w ds w')
    (hds : ds = ds' ++ [(o, v)]) : Follows link p w ds' v := by
  cases h with
  | nil => simp at hds
  | snoc h o' =>
    obtain ⟨rfl, hd⟩ := List.append_inj' hds rfl
    obtain ⟨-, rfl⟩ := Prod.mk.inj (List.singleton_inj.mp hd)
    exact h

theorem Follows.front {later : List (Deed σ)} (h : Follows link p w ds w')
    (hds : ds = ds' ++ later) : ∃ v, Follows link p w ds' v := by
  induction later using List.reverseRecOn generalizing ds w' with
  | nil => exact ⟨w', by simpa [hds] using h⟩
  | append_singleton later d ih =>
    obtain ⟨o, v⟩ := d
    exact ih (h.before (by rw [hds, List.append_assoc])) rfl

/-- A deed among others begins where those before it have led. -/
theorem Follows.at {o : FileOrder} {v : World σ} {later : List (Deed σ)}
    (h : Follows link p w ds w') (hds : ds = ds' ++ (o, v) :: later) : Follows link p w ds' v := by
  rw [List.append_cons] at hds
  obtain ⟨_, h⟩ := h.front hds
  exact h.before rfl

/-- The deeds of a script lead from where it begins to where it ends. -/
theorem Script.follows (s : Script) (w : World σ) :
    Follows link p w (s.deeds link p w) ((s.act link p).run w).2 := by
  induction s generalizing w with
  | nothing => exact .nil
  | fail e => exact .nil
  | order o => exact Follows.nil.snoc o
  | next s t ihs iht =>
    have hs := ihs w
    rw [Script.deeds]
    cases hrun : (s.act link p).run w with
    | mk r w' =>
      rw [hrun] at hs
      have hnext : ((next s t).act link p).run w = Act.next (s.act link p) (fun _ => t.act link p) w :=
        rfl
      rw [Act.next, show s.act link p w = (r, w') from hrun] at hnext
      cases r with
      | error e =>
        rw [hnext]
        simpa using hs
      | ok _ =>
        rw [hnext]
        exact hs.append (iht w')
  | caught s ih => exact ih w
  | scope s ih =>
    rw [Script.deeds, Script.act, FileSet.transaction, Act.run_ensuring_snd]
    exact (ih w).snoc .cleanup

/-- The world in which the most recent backup since the last cleanup began. -/
def latestBackup (ds : List (Deed σ)) : Option (World σ) :=
  ds.foldl (fun latest d =>
    match d.1 with
    | .backup => some d.2
    | .cleanup => none
    | .persist .. | .revert => latest) none

@[simp] theorem latestBackup_snoc (ds : List (Deed σ)) (d : Deed σ) :
    latestBackup (ds ++ [d]) =
      match d.1 with
      | .backup => some d.2
      | .cleanup => none
      | .persist .. | .revert => latestBackup ds := by
  rw [latestBackup, List.foldl_append]
  rfl

end HotSwap
