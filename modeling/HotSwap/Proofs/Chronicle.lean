/-
How the journal grows.

* `World.Grown` — the journal of one world continues that of another;
* `World.Grown.since_trans` — what was done in two stretches is what was done in
  the first, then what was done in the second;
* `World.Fails` — some action on files has failed in between;
* `Entry.Talk` — the entries of an exchange with the host that asks for no
  enrichment;
* `renderings` — the enriched candidates among the answers of the host;
* `Reverted` — a revert without failing actions.
-/
import Mathlib.Data.List.Basic
import Mathlib.Tactic.Common
import HotSwap.World.Basic

namespace HotSwap

variable {σ : Type} {w w' w'' : World σ}

namespace World

/-- The journal of `w'` continues that of `w`. -/
def Grown (w w' : World σ) : Prop := w.journal <+: w'.journal

theorem Grown.refl (w : World σ) : w.Grown w := List.prefix_refl _

theorem Grown.trans (h : w.Grown w') (h' : w'.Grown w'') : w.Grown w'' := List.IsPrefix.trans h h'

theorem grown_enter (w : World σ) (e : Entry) : w.Grown (w.enter e) := List.prefix_append _ _

theorem since_self (w : World σ) : w.since w = [] := List.drop_length

theorem since_enter (w : World σ) (e : Entry) : w.since (w.enter e) = [e] := List.drop_left

theorem Grown.journal_eq (h : w.Grown w') : w'.journal = w.journal ++ w.since w' := by
  obtain ⟨es, hes⟩ := h
  rw [since, ← hes, List.drop_left]

theorem Grown.since_trans (h : w.Grown w') (h' : w'.Grown w'') :
    w.since w'' = w.since w' ++ w'.since w'' := by
  conv_lhs => rw [since, h'.journal_eq, h.journal_eq, List.append_assoc, List.drop_left]

theorem grown_of_journal (h : w'.journal = w.journal) : w.Grown w' :=
  ⟨[], by rw [h, List.append_nil]⟩

theorem since_of_journal (h : w'.journal = w.journal) : w.since w' = [] := by
  rw [since, h, List.drop_length]

/-- Some action on files has failed between two worlds. -/
def Fails (w w' : World σ) : Prop := ∃ e ∈ w.since w', e.failed = true

theorem Fails.later (h : w.Fails w') (hw : w.Grown w') (hw' : w'.Grown w'') : w.Fails w'' := by
  obtain ⟨e, he, hfailed⟩ := h
  exact ⟨e, by rw [hw.since_trans hw']; exact List.mem_append_left _ he, hfailed⟩

theorem Fails.earlier (h : w'.Fails w'') (hw : w.Grown w') (hw' : w'.Grown w'') :
    w.Fails w'' := by
  obtain ⟨e, he, hfailed⟩ := h
  exact ⟨e, by rw [hw.since_trans hw']; exact List.mem_append_right _ he, hfailed⟩

end World

/-- Whether a request asks for an enrichment. -/
def Request.isEnrich : Request → Bool
  | .enrich _ => true
  | _ => false

/-- Whether a request leaves alone which configuration the flow has loaded, and
whether it is processing. -/
def Request.isQuiet : Request → Bool
  | .enrich _ | .loadConfiguration | .startProcessing | .stopProcessing => false
  | _ => true

/-- Whether a request is one that brings the flow to rest. -/
def Request.isDrain : Request → Bool
  | .processors | .connections | .componentIdentifier _ | .stopComponent _ | .isDataQueued
  | .pause _ | .stopProcessing | .dropAllQueued .. | .publish (.drainForced ..)
  | .publish (.transmissionStopTimedOut ..) | .remoteEndpoints | .endpointIdentifier _
  | .stopTransmitting _ | .awaitStop .. => true
  | _ => false

/-- Whether a request is one of a drain after its polls. -/
def Request.isHalt : Request → Bool
  | .stopProcessing | .dropAllQueued .. | .publish (.drainForced ..)
  | .publish (.transmissionStopTimedOut ..) | .remoteEndpoints | .endpointIdentifier _
  | .stopTransmitting _ | .awaitStop .. => true
  | _ => false

/-- Whether a request is one that finds out about the validity of the components. -/
def Request.isValidation : Request → Bool
  | .controllerServices | .reportingTasks | .processors | .componentIdentifier _
  | .performValidation _ | .validationErrors _ | .pause _ => true
  | _ => false

/-- Whether a request is one that is made again and again, until it is answered as wanted. -/
def Request.isPoll : Request → Bool
  | .isDataQueued | .performValidation _ => true
  | _ => false

/-- Whether a request is one that a loop makes: a poll, or the pause before the next one. -/
def Request.isLooped : Request → Bool
  | .isDataQueued | .performValidation _ | .pause _ => true
  | _ => false

theorem Request.isPoll_of_isLooped {r : Request} (h : r.isLooped = false) : r.isPoll = false := by
  cases r <;> first | rfl | cases h

theorem Request.isDrain_of_isHalt {r : Request} (h : r.isHalt = true) :
    r.isDrain = true ∧ r.isLooped = false := by
  cases r with
  | publish e => cases e <;> first | exact ⟨rfl, rfl⟩ | cases h
  | _ => first | exact ⟨rfl, rfl⟩ | cases h

theorem Request.isEnrich_of_isDrain {r : Request} (h : r.isDrain = true) : r.isEnrich = false := by
  cases r <;> first | rfl | cases h

theorem Request.isQuiet_of_isValidation {r : Request} (h : r.isValidation = true) :
    r.isQuiet = true := by
  cases r <;> first | rfl | cases h

theorem Request.isEnrich_of_isQuiet {r : Request} (h : r.isQuiet = true) : r.isEnrich = false := by
  cases r <;> first | rfl | cases h

/-- A request to the host, or its answer; but not for an enrichment. -/
def Entry.Talk : Entry → Prop
  | .asked r | .answered r _ => r.isEnrich = false
  | _ => False

/-- The enriched candidate with which the host has answered. -/
def Entry.rendering? : Entry → Option Bytes
  | .answered (.enrich _) (.ok (.bytes rendered)) => some rendered
  | _ => none

/-- The enriched candidates with which the host has answered. -/
def renderings (es : List Entry) : List Bytes := es.filterMap Entry.rendering?

namespace Entry

variable {e : Entry}

theorem Talk.disk?_eq (h : e.Talk) : e.disk? = none := by
  cases e <;> first | rfl | exact h.elim

theorem Talk.ne_began (h : e.Talk) (o : FileOperation) : e ≠ .began o := by
  rintro rfl
  exact h.elim

theorem Talk.rendering?_eq (h : e.Talk) : e.rendering? = none := by
  cases e with
  | answered r answer => cases r <;> first | rfl | cases h
  | _ => rfl

theorem ne_began_of_disk? {disk : Disk} (h : e.disk? = some disk) (o : FileOperation) :
    e ≠ .began o := by
  rintro rfl
  cases h

theorem beginsCleanup_iff : e.beginsCleanup = true ↔ e = .began .cleanup := by
  rcases e with _ | _ | (_ | _ | _ | _) | _ | _ <;> simp [beginsCleanup]

theorem rendering?_of_disk? {disk : Disk} (h : e.disk? = some disk) : e.rendering? = none := by
  cases e <;> first | rfl | cases h

end Entry

theorem renderings_append (es es' : List Entry) :
    renderings (es ++ es') = renderings es ++ renderings es' :=
  List.filterMap_append

theorem renderings_eq_nil {es : List Entry} (h : ∀ e ∈ es, e.rendering? = none) :
    renderings es = [] :=
  List.filterMap_eq_nil_iff.mpr h

/-- A revert has begun, and from there on no action on files has failed. -/
def Reverted (es : List Entry) : Prop :=
  ∃ before after, es = before ++ Entry.began .revert :: after ∧ ∀ e ∈ after, e.failed = false

namespace Reverted

variable {es es' : List Entry}

theorem mem (h : Reverted es) : Entry.began .revert ∈ es := by
  obtain ⟨before, after, rfl, -⟩ := h
  simp

/-- Later entries, as long as no revert begins, do not make a revert succeed. -/
theorem of_append (h : Reverted (es ++ es')) (hes' : Entry.began .revert ∉ es') :
    Reverted es := by
  obtain ⟨before, after, heq, hafter⟩ := h
  rcases List.append_eq_append_iff.mp heq with ⟨more, -, hmore⟩ | ⟨more, hmore, hrest⟩
  · -- the revert would be one of the later entries
    exact absurd (by simp [hmore]) hes'
  · cases more with
    | nil => exact absurd (by simp [← show _ = es' from hrest]) hes'
    | cons e more =>
      obtain ⟨rfl, rfl⟩ := List.cons.inj hrest
      exact ⟨before, more, hmore, fun e he => hafter e (List.mem_append_left _ he)⟩

/-- Nothing has failed after the only revert. -/
theorem not_failed (h : Reverted (es ++ Entry.began .revert :: es'))
    (hes : Entry.began .revert ∉ es) (hes' : Entry.began .revert ∉ es') :
    ∀ e ∈ es', e.failed = false := by
  obtain ⟨before, after, heq, hafter⟩ := h
  obtain ⟨-, -, rfl⟩ := (List.append_cons_inj_of_notMem hes hes').mp heq
  exact hafter

end Reverted
end HotSwap
