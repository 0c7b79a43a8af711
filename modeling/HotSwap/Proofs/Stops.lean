/-
Which components a drain stops.

A drain asks the host for its processors, for the identifier of each and for the connections,
and then stops the sources among them, one after the other.  Nobody takes out what is listed
twice: a source is stopped as often as its identifier has been listed.

* `Drain.sourcesIn` — the sources, as the host has described the flow, with repetitions;
* `Drain.stopsIn`, `Drain.stoppedIn` — the components that were asked to stop, and those that
  did;
* `Link.Hears.drain_intakes` — a drain asks for stops in its beginning only;
* `Attended.drain_stopsListed` — it stops exactly the sources, each as often as it was listed,
  unless an interrupt cuts that short.

Design notes: all faults are covered, interrupts included.  Those come out of a drain, but what
it has asked for until then is still the beginning of what it would have asked for.
-/
import HotSwap.Proofs.Drops
import HotSwap.Proofs.Sources

namespace HotSwap

open Act

variable {σ α : Type} {q : Bool → σ → Prop} {A : String → Prop}
  {L : (r : Request) → Except Fault r.Answer → Prop} {link : Link σ} {es : List Entry}
  {id : String}

/-! ### What a journal shows -/

/-- Whether an entry is about the components that originate work. -/
def Entry.intakes (e : Entry) : Bool := e.stage = some .sources

/-- The component that an entry asks to stop. -/
def Entry.stop? : Entry → Option String
  | .asked (.stopComponent id) => some id
  | _ => none

namespace Drain

/-- The components that were asked to stop, in order. -/
abbrev stopsIn (es : List Entry) : List String := es.filterMap Entry.stop?

/-- The components that did stop, in order. -/
abbrev stoppedIn (es : List Entry) : List String :=
  ((answersOf Request.stop? es).filter fun s => s.2.isOk).map Prod.fst

/-- The identifiers of the processors, in the order in which they were listed. -/
abbrev listedIn (es : List Entry) : List String :=
  (answersOf Request.identifier? es).map Prod.snd

/-- The sources of the flow as the host has described it, if it has. -/
def sourcesIn (es : List Entry) : List String :=
  match answersOf Request.connections? es with
  | connections :: _ => sources (listedIn es) connections
  | [] => []

/-- What is read off entries about one thing is read off those entries among all. -/
theorem filterMap_filter_stage {β : Type} {s : Stage} {f : Entry → Option β}
    (hf : OnlyAbout s f) (es : List Entry) :
    (es.filter fun e => e.stage = some s).filterMap f = es.filterMap f := by
  rw [List.filterMap_filter]
  refine List.filterMap_congr fun e _ => ?_
  by_cases he : e.stage = some s
  · simp [he]
  · simp [he, hf e he]

theorem sourcesIn_filter (es : List Entry) : sourcesIn (es.filter Entry.intakes) = sourcesIn es := by
  have hread : ∀ {β : Type} {f : (r : Request) → Except Fault r.Answer → Option β},
      (∀ r, r.stage ≠ some .sources → ∀ answer, f r answer = none) →
      answersOf f (es.filter Entry.intakes) = answersOf f es :=
    fun hf => filterMap_filter_stage (onlyAbout_answerIn hf) es
  rw [sourcesIn, sourcesIn, listedIn, listedIn,
    hread fun r hr _ => by cases r <;> first | rfl | exact absurd rfl hr,
    hread fun r hr _ => by cases r <;> first | rfl | exact absurd rfl hr]

theorem stopsIn_filter (es : List Entry) : stopsIn (es.filter Entry.intakes) = stopsIn es := by
  refine filterMap_filter_stage (s := .sources) (fun e he => ?_) es
  cases e with
  | asked r => cases r <;> first | rfl | exact absurd rfl he
  | _ => rfl

theorem stoppedIn_filter (es : List Entry) :
    stoppedIn (es.filter Entry.intakes) = stoppedIn es := by
  have hanswers : answersOf Request.stop? (es.filter Entry.intakes) = answersOf Request.stop? es :=
    filterMap_filter_stage (onlyAbout_answerIn fun r hr _ => by
      cases r <;> first | rfl | exact absurd rfl hr) es
  rw [stoppedIn, hanswers]

theorem Classification.sourcesIn_eq (c : Classification)
    (stops : List (String × Except Fault Unit)) :
    sourcesIn (Intake.classified c stops).entries = c.sources := by
  have hnamed : answersOf Request.identifier? (Intake.classified c stops).entries = c.named := by
    simp [Intake.entries, Classification.entries, Request.noted, answerIn, Request.identifier?,
      List.filterMap_flatMap, List.filterMap_cons, flatMap_nothing]
  have hconnections : answersOf Request.connections? (Intake.classified c stops).entries =
      [c.connections] := by
    simp [Intake.entries, Classification.entries, Request.noted, answerIn, Request.connections?,
      List.filterMap_flatMap, List.filterMap_cons, flatMap_nothing]
  rw [sourcesIn, hconnections, listedIn, hnamed]
  rfl

theorem Unclassified.sourcesIn_eq {es : List Entry} (h : ∀ e ∈ es, Unclassified e) :
    sourcesIn es = [] := by
  have hnone : answersOf Request.connections? es = [] :=
    List.filterMap_eq_nil_iff.mpr fun e he => (h e he).unread.2.1
  rw [sourcesIn, hnone]

/-- A whole intake has stopped all of them. -/
theorem Intake.Sound.stops_eq {i : Intake} (h : i.Sound) :
    i.stops.map Prod.fst = sourcesIn i.entries := by
  cases i with
  | unclassified es => exact (Unclassified.sourcesIn_eq h).symm
  | classified c stops => exact Eq.trans h (c.sourcesIn_eq stops).symm

namespace Intake.Begun

variable {i : Intake} (h : i.Begun)

include h

theorem stopsIn_eq : stopsIn i.entries = i.stops.map Prod.fst := by
  cases i with
  | unclassified es =>
    refine List.filterMap_eq_nil_iff.mpr fun e he => ?_
    have hun := h e he
    cases e with
    | asked r => rcases hun with rfl | ⟨_, rfl⟩ | rfl <;> rfl
    | _ => rfl
  | classified c stops =>
    simp [entries, Intake.stops, Classification.entries, Request.noted, Entry.stop?,
      List.filterMap_flatMap, List.filterMap_cons, List.map_eq_flatMap, flatMap_nothing]

theorem stoppedIn_eq : stoppedIn i.entries = i.stopped := by
  rw [stoppedIn, h.stops_read, stopped]

/-- What was stopped is the beginning of what there was to stop. -/
theorem begins : i.stops.map Prod.fst <+: sourcesIn i.entries := by
  cases i with
  | unclassified es => exact List.nil_prefix
  | classified c stops =>
    rw [c.sourcesIn_eq]
    exact h

end Intake.Begun

end Drain

/-! ### What a drain asks for -/

namespace Link.Hears

open Drain

variable (hlink : link.Hears q A Entry.intakes L)

include hlink

theorem ask_intakes {r : Request} (hr : r.stage = some .sources) :
    (link.ask r).Yields q Entry.intakes (fun x l => l = r.noted (.ok x))
      fun e l => l = r.noted (.error e) := by
  have hnoted : ∀ answer, (r.noted answer).filter Entry.intakes = r.noted answer := fun answer => by
    simp [Request.noted, Entry.intakes, Entry.stage, hr]
  exact (hlink.ask r).mono (fun _ _ h => h.2.trans (hnoted _)) fun _ _ h => h.2.trans (hnoted _)

theorem identifiers_intakes (cs : List Component) :
    (identifiers link cs).Traces q Entry.intakes (fun l => ∀ e ∈ l, Unclassified e)
      (fun _ => True) fun names l => ∃ named : List (Component × String),
        named.map Prod.fst = cs ∧ named.map Prod.snd = names ∧
        l = named.flatMap fun n => (Request.componentIdentifier n.1).noted (.ok n.2) := by
  induction cs with
  | nil => exact traces_pure ⟨[], rfl, rfl, rfl⟩
  | cons c cs ih =>
    rw [identifiers]
    refine Traces.bind (P := fun (name : String) l =>
      l = (Request.componentIdentifier c).noted (.ok name))
      ((hlink.ask_intakes (r := .componentIdentifier c) rfl).mono ?_ ?_) ?_
    · rintro name l rfl
      exact ⟨rfl, by simp [Request.noted, Unclassified]⟩
    · rintro e l rfl
      exact ⟨trivial, by simp [Request.noted, Unclassified]⟩
    · rintro name l rfl
      refine ih.bind ?_
      rintro names l ⟨named, rfl, rfl, rfl⟩
      exact traces_pure ⟨(c, name) :: named, rfl, rfl, by simp⟩

theorem classify_intakes : (classify link).Yields q Entry.intakes
    (fun ids l => ∃ c : Classification, ids = c.sources ∧ l = c.entries)
    fun _ l => ∀ x ∈ l, Unclassified x := by
  refine Yields.bind (P := fun (components : List Component) l =>
    l = Request.processors.noted (.ok components)) ((hlink.ask_intakes rfl).mono
      (fun _ _ h => h) ?_) ?_
  · rintro e l rfl
    simp [Request.noted, Unclassified]
  rintro components l rfl
  have hlisted : ∀ e ∈ Request.processors.noted (.ok components), Unclassified e := by
    simp [Request.noted, Unclassified]
  refine Yields.bind (Yields.mono (hlink.identifiers_intakes components) (fun _ _ h => h)
    fun _ _ h => List.forall_mem_append.mpr ⟨hlisted, h.2⟩) ?_
  rintro names l ⟨⟨named, rfl, rfl, rfl⟩, hl⟩
  refine Yields.bind (P := fun (connections : List Connection) l =>
    l = Request.connections.noted (.ok connections)) ((hlink.ask_intakes rfl).mono
      (fun _ _ h => h) ?_) ?_
  · rintro e l rfl
    refine List.forall_mem_append.mpr ⟨hlisted, List.forall_mem_append.mpr ⟨hl, ?_⟩⟩
    simp [Request.noted, Unclassified]
  · rintro connections l rfl
    exact yields_pure ⟨⟨named, connections⟩, rfl, by simp [Classification.entries]⟩

/-- Components are stopped one after the other; an interrupt leaves out those behind it. -/
theorem stopEach_intakes (ids : List String) : (stopEach link ids).Yields q Entry.intakes
    (fun stopped l => ∃ stops : List (String × Except Fault Unit), stops.map Prod.fst = ids ∧
      stopped = (stops.filter fun s => s.2.isOk).map Prod.fst ∧
      l = stops.flatMap fun s => (Request.stopComponent s.1).noted s.2)
    fun _ l => ∃ stops : List (String × Except Fault Unit), stops.map Prod.fst <+: ids ∧
      l = stops.flatMap fun s => (Request.stopComponent s.1).noted s.2 := by
  induction ids with
  | nil => exact yields_pure ⟨[], rfl, rfl, rfl⟩
  | cons id ids ih =>
    rw [stopEach]
    refine Yields.bind (P := fun (answer : Except Fault Unit) l =>
      l = (Request.stopComponent id).noted answer)
      (Yields.guarded ((hlink.ask_intakes rfl).mono (fun _ _ h => h) ?_)) ?_
    · rintro e l rfl
      split
      · exact ⟨[(id, .error e)], ⟨ids, rfl⟩, rfl⟩
      · rfl
    rintro answer l rfl
    have hcut : ∀ l, (∃ stops : List (String × Except Fault Unit), stops.map Prod.fst <+: ids ∧
        l = stops.flatMap fun s => (Request.stopComponent s.1).noted s.2) →
        ∃ stops : List (String × Except Fault Unit), stops.map Prod.fst <+: id :: ids ∧
          (Request.stopComponent id).noted answer ++ l =
            stops.flatMap fun s => (Request.stopComponent s.1).noted s.2 := by
      rintro _ ⟨stops, hids, rfl⟩
      exact ⟨(id, answer) :: stops, (List.prefix_cons_inj id).mpr hids, rfl⟩
    cases answer with
    | ok _ =>
      refine Yields.bind (ih.mono (fun _ _ h => h) fun _ l h => hcut l h) ?_
      rintro _ l ⟨stops, rfl, rfl, rfl⟩
      exact yields_pure ⟨(id, .ok ()) :: stops, rfl, rfl, by simp⟩
    | error fault =>
      refine say_bind_yields (ih.mono ?_ fun _ l h => hcut l h)
      rintro _ l ⟨stops, rfl, rfl, rfl⟩
      exact ⟨(id, .error fault) :: stops, rfl, rfl, rfl⟩

theorem stopSources_intakes : (stopSources link).Yields q Entry.intakes
    (fun stopped l => ∃ i : Intake, i.Sound ∧ stopped = i.stopped ∧ l = i.entries)
    fun _ l => ∃ i : Intake, i.Begun ∧ l = i.entries := by
  have hclassify : (classify link).guarded.Yields q Entry.intakes
      (fun answer l => match answer with
        | .ok ids => ∃ c : Classification, ids = c.sources ∧ l = c.entries
        | .error _ => ∀ x ∈ l, Unclassified x)
      fun _ l => ∃ i : Intake, i.Begun ∧ l = i.entries := by
    refine Yields.guarded (hlink.classify_intakes.mono (fun _ _ h => h) fun e l h => ?_)
    split
    · exact ⟨.unclassified l, h, rfl⟩
    · exact h
  refine hclassify.bind fun answer l hl => ?_
  cases answer with
  | error fault =>
    exact say_bind_yields (yields_pure ⟨.unclassified l, hl, rfl, List.append_nil l⟩)
  | ok ids =>
    obtain ⟨c, rfl, rfl⟩ := hl
    refine Yields.bind ((hlink.stopEach_intakes c.sources).mono (fun _ _ h => h) ?_) ?_
    · rintro e l ⟨stops, hids, rfl⟩
      exact ⟨.classified c stops, hids, rfl⟩
    · rintro stopped l ⟨stops, hids, rfl, rfl⟩
      exact say_bind_yields (yields_pure ⟨.classified c stops, hids, rfl, by simp [Intake.entries]⟩)

/-- After the sources a drain stops no component. -/
theorem drain_intakes (plan : DrainPlan) (listens : Bool) :
    (drain link plan listens).Yields q Entry.intakes
      (fun report l => ∃ i : Intake, i.Sound ∧ report.sourcesStopped = i.stopped ∧ l = i.entries)
      fun _ l => ∃ i : Intake, i.Begun ∧ l = i.entries := by
  have hask : ∀ r : Request, r.stage ≠ some .sources →
      (link.ask r).Within (World.Silent q Entry.intakes) fun _ => True := fun r hr =>
    hlink.ask_within (decide_eq_false hr) (fun _ => decide_eq_false hr) fun _ _ => trivial
  have hhalt : link.Keeps (World.Silent q Entry.intakes) (fun _ => True)
      fun r => r.isHalt = true := by
    refine ⟨fun r hr => hask r ?_, hlink.newId_within, hlink.time_within⟩
    cases r with
    | publish e => cases e <;> first | exact (Bool.false_ne_true hr).elim | simp [Request.stage]
    | _ => first | exact (Bool.false_ne_true hr).elim | simp [Request.stage]
  have hpolls : (pollUntil link plan.budget listens (askQueued link) fun queued =>
      return !queued).Within (World.Silent q Entry.intakes) fun _ => True :=
    pollUntil_within (fun _ => hask _ (by simp [Request.stage])) plan.budget listens
      (askQueued_within (hask _ (by simp [Request.stage]))) fun _ => within_pure _
  refine say_bind_yields (hlink.stopSources_intakes.bind ?_)
  rintro stopped l ⟨i, hi, rfl, rfl⟩
  have hbegun : ∀ e : Fault, True → ∃ j : Intake, j.Begun ∧ i.entries ++ [] = j.entries :=
    fun _ _ => ⟨i, hi.begun, List.append_nil _⟩
  have hend : ∀ graceful polls, (do
      Drain.stopProcessing link
      let endpointsTimedOut ← Drain.stopTransmission link plan.stopTimeout
      return DrainReport.mk graceful polls i.stopped endpointsTimedOut).Yields q Entry.intakes
      (fun report l => ∃ j : Intake, j.Sound ∧ report.sourcesStopped = j.stopped ∧
        i.entries ++ l = j.entries)
      fun _ l => ∃ j : Intake, j.Begun ∧ i.entries ++ l = j.entries := fun graceful polls =>
    (stopProcessing_within hhalt).bind_yields hbegun fun _ =>
      (stopTransmission_within hhalt _).bind_yields hbegun fun _ =>
        yields_pure ⟨i, hi, rfl, List.append_nil _⟩
  refine (awaitEmpty_within absorbs_self plan.budget listens hpolls).bind_yields hbegun ?_
  rintro ⟨graceful, polls⟩
  dsimp only
  split
  · exact say_bind_yields (hend _ _)
  · exact (force_within hhalt plan.budget polls).bind_yields hbegun fun _ => hend _ _

end Link.Hears

/-! ### Drains -/

namespace Drain

/-- Exactly the sources were asked to stop, each as often as its identifier was listed, and the
report has those that did stop. -/
structure StopsListed (es : List Entry) (report : DrainReport) : Prop where
  asked : stopsIn es = sourcesIn es
  stopped : report.sourcesStopped = stoppedIn es
  /-- A component is asked to stop twice only if it is a source that was listed twice. -/
  count : ∀ connections rest, answersOf Request.connections? es = connections :: rest → ∀ id,
    (stopsIn es).count id = if Originates connections id then (listedIn es).count id else 0
  once : (sourcesIn es).Nodup → report.sourcesStopped.Nodup

theorem count_sources (components : List String) (connections : List Connection) (id : String) :
    (sources components connections).count id =
      if Originates connections id then components.count id else 0 := by
  rw [sources_eq]
  split
  · next h => exact List.count_filter (by simpa using h)
  · next h => simpa [List.count_eq_zero] using fun _ => h

theorem Intake.Sound.stopsListed {i : Intake} (hi : i.Sound) {report : DrainReport}
    (hstopped : report.sourcesStopped = i.stopped) (hes : es.filter Entry.intakes = i.entries) :
    StopsListed es report := by
  have hasked : stopsIn es = sourcesIn es := by
    rw [← stopsIn_filter, ← sourcesIn_filter, hes, hi.begun.stopsIn_eq]
    exact hi.stops_eq
  refine ⟨hasked, ?_, ?_, fun hnodup => ?_⟩
  · rw [hstopped, ← stoppedIn_filter, hes, hi.begun.stoppedIn_eq]
  · intro connections rest hconnections id
    rw [hasked, sourcesIn, hconnections]
    exact count_sources _ _ id
  · rw [← hasked, ← stopsIn_filter, hes, hi.begun.stopsIn_eq] at hnodup
    rw [hstopped]
    exact hnodup.sublist (List.filter_sublist.map _)

end Drain

/-- A drain asks exactly the sources to stop, as often as each was listed, whatever comes of
it; if an interrupt comes in between, or an identifier of an endpoint cannot be read, it has
begun to do so. -/
theorem Attended.drain_stopsListed {console : Link σ → Command → Act σ Reply} {w : World σ}
    (hw : Attended console w) (h : Host σ) (depth : Nat) (plan : DrainPlan) (listens : Bool) :
    (drain (h.link console depth) plan listens).Ends w
      (fun report w' => Drain.StopsListed (w.since w') report)
      fun _ w' => Drain.stopsIn (w.since w') <+: Drain.sourcesIn (w.since w') := by
  obtain ⟨Q, hQ, hwatch⟩ := hw.exists_watch
  have hlink := (hwatch h depth).2 _ Entry.intakes h.raises_any fun e he => by
    have hdrains := Entry.drains_of_murmur he
    rw [Entry.drains, Option.isSome_eq_false_iff, Option.isNone_iff_eq_none] at hdrains
    simp [Entry.intakes, hdrains]
  refine (hlink.drain_intakes plan listens w).mono ?_ ?_
  · rintro report w' ⟨l, ⟨i, hi, hstopped, rfl⟩, hreads⟩
    exact hi.stopsListed hstopped (hreads hQ).2.2.2.2
  · rintro e w' ⟨l, ⟨i, hi, rfl⟩, hreads⟩
    rw [← Drain.stopsIn_filter, ← Drain.sourcesIn_filter, (hreads hQ).2.2.2.2, hi.stopsIn_eq]
    exact hi.begins

/-! ### A component that is listed twice -/

namespace Sample

/-- A host that lists its only processor twice. -/
def doubled : Host Nat :=
  { Host.plain (fun _ => none) fun _ _ => none with
    reply := fun r s => match r with
      | .processors => .done (.ok ([{ index := 0 }, { index := 0 }] : List Component)) s
      | .componentIdentifier c => .done (.ok (toString c.index)) s
      | r => .done (.ok r.plainAnswer) s }

/-- The end of its drain. -/
def stoppedTwice : Except Fault DrainReport × World Nat :=
  (drain (doubled.link tokenConsole 0) plan.drain true).run world

theorem stoppedTwice_eq :
    (drain (doubled.link tokenConsole 0) plan.drain true).run world = stoppedTwice :=
  rfl

end Sample

attribute [local irreducible] Act.Ends Sample.stoppedTwice in
/-- The processor is stopped twice, and reported twice. -/
theorem Attended.drain_stopsListed_doubled :
    Attended tokenConsole Sample.world ∧
    Sample.stoppedTwice.1 = .ok { graceful := true, polls := 1, sourcesStopped := ["0", "0"] } ∧
    Drain.stopsIn (Sample.world.since Sample.stoppedTwice.2) = ["0", "0"] ∧
    Drain.StopsListed (Sample.world.since Sample.stoppedTwice.2)
      { graceful := true, polls := 1, sourcesStopped := ["0", "0"] } := by
  have hreport : Sample.stoppedTwice.1 =
      .ok { graceful := true, polls := 1, sourcesStopped := ["0", "0"] } := by decide +kernel
  have hstops : Drain.stopsIn (Sample.world.since Sample.stoppedTwice.2) = ["0", "0"] := by
    decide +kernel
  exact ⟨.token _, hreport, hstops,
    (Attended.drain_stopsListed (.token _) Sample.doubled 0 _ true).ok
      (Sample.stoppedTwice_eq.trans (Prod.ext hreport rfl))⟩

end HotSwap
