/-
Hosts with a simulated flow.

The flow of such a host is a simulated one that loads the active file.  A call of
the updater is either carried out on that flow, or raises an ordinary fault before
it takes effect; the other collaborators leave the flow alone.

* `SimulatedFlow.standing` — what a flow has loaded, and whether it is processing;
* `FilePaths.Holds`, `FilePaths.Loaded`, `FilePaths.Agrees` — how the active file and the
  flow agree;
* `Host.Simulates` — the hosts;
* `Link.Simulates` — what attempts rely on, behind the link to such a host
  (`Host.Simulates.link`);
* `Host.simulated` — a host of nothing but a flow;
* `Sample` — the small installation, with such a host.
-/
import HotSwap.Proofs.Codec.Gzip
import HotSwap.Proofs.Hosts
import HotSwap.Simulation.Flow

namespace HotSwap

open Act

variable {σ : Type} {p : FilePaths} {flow : σ → SimulatedFlow} {w w' w₁ : World σ} {c : Bytes}

/-- What the flow has loaded, and whether it is processing. -/
def SimulatedFlow.standing (f : SimulatedFlow) : Option Bytes × Bool := (f.loaded, f.processing)

/-- A load that succeeds takes the configuration over, and nothing else of the
standing. -/
theorem SimulatedFlow.standing_of_load {f f' : SimulatedFlow} {source : Path}
    (h : f.load source c = (.ok (), f')) : f'.standing = (some c, f.processing) := by
  rw [load] at h
  split at h
  · simp at h
  · obtain rfl := (Prod.mk.inj h).2
    rfl

/-- A load that is refused changes nothing of the standing. -/
theorem SimulatedFlow.standing_of_refused {f f' : SimulatedFlow} {source : Path} {e : Fault}
    (h : f.load source c = (.error e, f')) : e.interrupts = false ∧ f'.standing = f.standing := by
  rw [load] at h
  split at h
  · obtain ⟨he, rfl⟩ := Prod.mk.inj h
    obtain rfl : cannotLoad source = e := by simpa using he
    exact ⟨rfl, rfl⟩
  · simp at h

/-! ### Agreement -/

namespace FilePaths

/-- The active file holds a configuration. -/
def Holds (p : FilePaths) (d : Disk) (c : Bytes) : Prop :=
  ∃ content, p.contents d (.current .rendered) = some (.file content) ∧
    decodeAt p.active content = .ok c

/-- The flow has loaded the configuration that the active file holds. -/
def Loaded (p : FilePaths) (flow : σ → SimulatedFlow) (c : Bytes) (w : World σ) : Prop :=
  p.Holds w.disk c ∧ (flow w.host).loaded = some c

/-- The flow has loaded the configuration that the active file holds, and is
processing. -/
def Agrees (p : FilePaths) (flow : σ → SimulatedFlow) (c : Bytes) (w : World σ) : Prop :=
  p.Loaded flow c w ∧ (flow w.host).processing = true

theorem Holds.congr {d d' : Disk} (h : p.Holds d c)
    (hd : p.contents d' (.current .rendered) = p.contents d (.current .rendered)) :
    p.Holds d' c := by
  obtain ⟨content, hcontent, hdecode⟩ := h
  exact ⟨content, hd.trans hcontent, hdecode⟩

theorem Holds.unique {d : Disk} {c' : Bytes} (h : p.Holds d c) (h' : p.Holds d c') : c = c' := by
  obtain ⟨content, hcontent, hdecode⟩ := h
  obtain ⟨content', hcontent', hdecode'⟩ := h'
  obtain rfl : content = content' := by simpa [hcontent] using hcontent'
  simpa [hdecode] using hdecode'

theorem Loaded.congr (h : p.Loaded flow c w)
    (hdisk : p.contents w'.disk (.current .rendered) = p.contents w.disk (.current .rendered))
    (hhost : (flow w'.host).loaded = (flow w.host).loaded) : p.Loaded flow c w' :=
  ⟨h.1.congr hdisk, hhost.trans h.2⟩

theorem Agrees.congr (h : p.Agrees flow c w)
    (hdisk : p.contents w'.disk (.current .rendered) = p.contents w.disk (.current .rendered))
    (hhost : (flow w'.host).standing = (flow w.host).standing) : p.Agrees flow c w' := by
  obtain ⟨hloaded, hprocessing⟩ := Prod.mk.inj hhost
  exact ⟨h.1.congr hdisk hloaded, hprocessing.trans h.2⟩

/-- What is read back from the active file is what was put there. -/
theorem decodeAt_encode (c : Bytes) : decodeAt p.active (p.encode c) = .ok c := by
  rw [decodeAt, encode]
  cases hcompresses : p.compresses with
  | true =>
    rw [compresses] at hcompresses
    rw [if_pos hcompresses, if_pos rfl]
    exact Codec.gunzip_gzip c
  | false =>
    rw [compresses] at hcompresses
    rw [if_neg (by simp [hcompresses]), if_neg (by simp)]

/-! ### Hosts -/

/-- A call that was carried out on the flow. -/
def Effected (p : FilePaths) (flow : σ → SimulatedFlow) (s s' : Scene σ) : Request → Prop
  | .loadConfiguration =>
    ∃ c, p.Holds s.disk c ∧ (flow s.host).load p.active c = (.ok (), flow s'.host)
  | .startProcessing => flow s'.host = (flow s.host).startProcessing
  | .stopProcessing => flow s'.host = (flow s.host).stopProcessing
  | _ => (flow s'.host).standing = (flow s.host).standing

/-- A call that was carried out, or that raised an ordinary fault before it took
effect. -/
def Called (p : FilePaths) (flow : σ → SimulatedFlow) (r : Request) (s : Scene σ)
    (answer : Except Fault r.Answer) (s' : Scene σ) : Prop :=
  p.contents s'.disk = p.contents s.disk ∧
    match answer with
    | .ok _ => p.Effected flow s s' r
    | .error e => e.interrupts = false ∧ (flow s'.host).standing = (flow s.host).standing

end FilePaths

/-- A host with a simulated flow, of which the four files and the flow change by the
calls of the updater only. -/
structure Host.Simulates (h : Host σ) (p : FilePaths) (flow : σ → SimulatedFlow) : Prop where
  gate : ∀ a s, (flow (h.gate a s).2).standing = (flow s).standing
  freshId : ∀ s, (flow (h.freshId s).2).standing = (flow s).standing
  now : ∀ s, (flow (h.now s).2).standing = (flow s).standing
  reply : ∀ r s, ((h.reply r) s).Along (p.Calm fun s => (flow s).standing) (p.Called flow r) s

/-- What attempts rely on behind a link to a simulated flow: interrupts never come,
and the calls do to the flow what they are for. -/
structure Link.Simulates (link : Link σ) (p : FilePaths) (flow : σ → SimulatedFlow) : Prop where
  sparing : link.Sparing p (fun _ => ()) False True
  manners : link.Manners p (fun s => (flow s).standing) False True
  enrich : ∀ raw w, (link.ask (.enrich raw)).Ends w
    (fun _ w' => w.desk.engaged = true → (flow w'.host).standing = (flow w.host).standing)
    (fun _ w' => w.desk.engaged = true → (flow w'.host).standing = (flow w.host).standing)
  load : ∀ w, (link.ask .loadConfiguration).Ends w
    (fun _ w' => w.desk.engaged = true → w'.desk.engaged = true ∧ ∃ c, p.Loaded flow c w')
    (fun e _ => e.interrupts = true → False)
  start : ∀ w, (link.ask .startProcessing).Ends w
    (fun _ w' => w.desk.engaged = true → w'.desk.engaged = true ∧
      p.contents w'.disk = p.contents w.disk ∧
      (flow w'.host).standing = ((flow w.host).loaded, true))
    (fun e w' => (e.interrupts = true → False) ∧ p.Discreet (fun s => (flow s).standing) w w')

namespace Host.Simulates

variable {h : Host σ} {plan : UpdatePlan}

theorem spares (hh : h.Simulates p flow) : h.Spares p := fun r s =>
  (hh.reply r s).mono (fun _ _ hs => hs.1) fun _ _ _ hs => hs.1

theorem raises (hh : h.Simulates p flow) : h.Raises fun _ e => e.interrupts = false := fun r s => by
  refine (hh.reply r s).mono (fun _ _ _ => trivial) ?_
  rintro s answer s' hs e rfl
  exact hs.2.1

theorem follows (hh : h.Simulates p flow) :
    h.Follows p (fun s => (flow s).standing) (p.Called flow) where
  gate := hh.gate
  freshId := hh.freshId
  now := hh.now
  reply := hh.reply
  quiet r hr s answer s' hs := by
    refine ⟨hs.1, ?_⟩
    cases answer with
    | error e => exact hs.2.2
    | ok x => cases r <;> first | exact hs.2 | cases hr

private theorem tame : Tame (fun _ e => e.interrupts = false) False True :=
  ⟨fun _ _ => Fault.ordinary, fun _ _ _ => trivial, fun _ _ _ _ => trivial, False.elim⟩

/-- Behind the link to a host with a simulated flow, attempts can rely on it. -/
theorem link (hh : h.Simulates p flow) (plan : UpdatePlan) (depth : Nat) :
    (h.link (Updater.console plan) depth).Simulates p flow := by
  have hordinary : ∀ r s (answer : Except Fault (Request.Answer r)) s',
      p.Called flow r s answer s' → ∀ e, answer = .error e → e.interrupts = false := by
    rintro r s answer s' hs e rfl
    exact hs.2.1
  refine ⟨hh.spares.sparing_link hh.raises plan depth tame,
    manners_link hh.follows plan depth hordinary tame, fun raw w => ?_, fun w => ?_, fun w => ?_⟩
  · refine (ends_ask hh.follows plan depth (.enrich raw) w).mono ?_ ?_
    · rintro x w' ⟨w₁, s, h₁, hs, rfl⟩ hengaged
      exact Eq.trans hs.2 (h₁ hengaged).2.2.host
    · rintro e w' ⟨w₁, s, h₁, hs, rfl⟩ hengaged
      exact Eq.trans hs.2.2 (h₁ hengaged).2.2.host
  · refine (ends_ask hh.follows plan depth .loadConfiguration w).mono ?_ ?_
    · rintro x w' ⟨w₁, s, h₁, ⟨hcontents, c, hholds, hload⟩, rfl⟩ hengaged
      refine ⟨(h₁ hengaged).1, c, hholds.congr (congrFun hcontents _), ?_⟩
      exact (Prod.mk.inj (SimulatedFlow.standing_of_load hload)).1
    · rintro e w' ⟨w₁, s, h₁, hs, rfl⟩ hi
      exact Fault.ordinary hs.2.1 hi
  · refine (ends_ask hh.follows plan depth .startProcessing w).mono ?_ ?_
    · rintro x w' ⟨w₁, s, h₁, ⟨hcontents, hstart⟩, rfl⟩ hengaged
      obtain ⟨hengaged₁, -, hkept₁⟩ := h₁ hengaged
      refine ⟨hengaged₁, hcontents.trans hkept₁.contents, ?_⟩
      -- orders on the way to the answer have left what is loaded alone
      have hloaded : (flow w₁.host).loaded = (flow w.host).loaded := (Prod.mk.inj hkept₁.host).1
      show (flow s.host).standing = _
      rw [hstart, ← hloaded]
      rfl
    · rintro e w' ⟨w₁, s, h₁, ⟨hcontents, he, hstanding⟩, rfl⟩
      refine ⟨Fault.ordinary he, discreet_exchange rfl (h₁.trans ?_) _⟩
      exact discreet_scene ⟨hcontents, hstanding⟩

end Host.Simulates

/-! ### A host of nothing but a flow -/

/-- Loads what the file at `active` holds. -/
def SimulatedFlow.loadFrom (f : SimulatedFlow) (active : Path) (d : Disk) :
    Except Fault Unit × SimulatedFlow :=
  match d.read active with
  | .error _ => (.error (cannotLoad active), f)
  | .ok content =>
    match FilePaths.decodeAt active content with
    | .error _ => (.error (cannotLoad active), f)
    | .ok c => f.load active c

/-- The answer of a flow that loads the file at `active`. -/
def SimulatedFlow.reply (f : SimulatedFlow) (active : Path) (d : Disk) :
    (r : Request) → Except Fault r.Answer × SimulatedFlow
  | .loadConfiguration => f.loadFrom active d
  | .startProcessing => (.ok (), f.startProcessing)
  | .stopProcessing => (.ok (), f.stopProcessing)
  | r => (.ok r.plainAnswer, f)

theorem SimulatedFlow.loadFrom_ok {f f' : SimulatedFlow} {d : Disk}
    (h : f.loadFrom p.active d = (.ok (), f')) :
    ∃ c, p.Holds d c ∧ f.load p.active c = (.ok (), f') := by
  rw [loadFrom] at h
  split at h
  · simp at h
  · next content hread =>
    split at h
    · simp at h
    · next c hdecode => exact ⟨c, ⟨content, Disk.read_eq_ok_iff.mp hread, hdecode⟩, h⟩

theorem SimulatedFlow.loadFrom_error {f f' : SimulatedFlow} {active : Path} {d : Disk} {e : Fault}
    (h : f.loadFrom active d = (.error e, f')) :
    e.interrupts = false ∧ f'.standing = f.standing := by
  have hrefused : (.error (cannotLoad active), f) = ((.error e, f') : Except Fault Unit × _) →
      e.interrupts = false ∧ f'.standing = f.standing := by
    rintro ⟨⟩
    exact ⟨rfl, rfl⟩
  rw [loadFrom] at h
  split at h
  · exact hrefused h
  · split at h
    · exact hrefused h
    · exact standing_of_refused h

/-- A host of nothing but a flow; it refuses no access. -/
def Host.simulated (active : Path) : Host SimulatedFlow where
  reply r := fun s =>
    .done (s.host.reply active s.disk r).1 { s with host := (s.host.reply active s.disk r).2 }
  gate _ f := (none, f)
  freshId f := (toString f.calls.size, f)
  now f := (f.calls.size, f)

theorem Host.simulated_simulates (p : FilePaths) : (Host.simulated p.active).Simulates p id where
  gate _ _ := rfl
  freshId _ := rfl
  now _ := rfl
  reply r s := by
    cases r with
    | loadConfiguration =>
      have hload : ∀ answer f, s.host.loadFrom p.active s.disk = (answer, f) →
          p.Called id .loadConfiguration s answer { s with host := f } := by
        rintro (e | ⟨⟩) f h
        · exact ⟨rfl, SimulatedFlow.loadFrom_error h⟩
        · exact ⟨rfl, SimulatedFlow.loadFrom_ok h⟩
      exact hload _ _ rfl
    | _ => exact ⟨rfl, rfl⟩

namespace Sample

/-- A world in which a flow runs the configuration of one byte. -/
def running : World SimulatedFlow where
  disk := world.disk
  host := { file := files.active, loaded := some [1] }

/-- The end of an attempt to replace it. -/
def replaced : Except Fault UpdateReport × World SimulatedFlow :=
  (Updater.apply ((Host.simulated plan.files.active).link (Updater.console plan) 0) plan [2]).run
    running

theorem replaced_eq : (Updater.apply ((Host.simulated plan.files.active).link
    (Updater.console plan) 0) plan [2]).run running = replaced := rfl

end Sample

end HotSwap
