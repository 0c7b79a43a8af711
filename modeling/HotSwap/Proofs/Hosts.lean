/-
Hosts that spare the four files.

* `Host.Spares` — a host that, whatever it does, leaves the four files alone;
* `Host.Raises` — the faults that a host can raise instead of an answer;
* `Host.manners_link`, `Host.sparing_link` — the link to a host that keeps to a rule has
  the manners that attempts rely on, however deep its orders are nested;
* `Host.Spares.sparing_link` — so has the link to a host that spares the files;
* `Host.plain` — hosts that do nothing of their own;
* `Sample` — a small installation to try attempts on.
-/
import HotSwap.Proofs.Safekeeping

namespace HotSwap

open Act

variable {σ β : Type} {p : FilePaths} {view : σ → β} {cuts rough : Prop}

namespace Host

variable {h : Host σ} {E : Request → Fault → Prop} {plan : UpdatePlan}
  {L : (r : Request) → Scene σ → Except Fault r.Answer → Scene σ → Prop}

/-- What the host does on the way to an answer leaves the four files alone, and so
does its last step. -/
def Spares (h : Host σ) (p : FilePaths) : Prop :=
  ∀ r s, ((h.reply r) s).Along (fun s s' => p.contents s'.disk = p.contents s.disk)
    (fun s _ s' => p.contents s'.disk = p.contents s.disk) s

/-- A fault that the host raises instead of an answer is one of `E`. -/
def Raises (h : Host σ) (E : Request → Fault → Prop) : Prop :=
  ∀ r s, ((h.reply r) s).Along (fun _ _ => True)
    (fun _ answer _ => ∀ e, answer = .error e → E r e) s

/-- Any host can raise anything. -/
theorem raises_any (h : Host σ) : h.Raises fun _ _ => True := by
  intro r s
  generalize (h.reply r) s = c
  induction c generalizing s with
  | done result s' => exact fun _ _ => trivial
  | order command s' resume ih => exact ⟨trivial, fun reply s'' => ih reply s'' s''⟩

/-- What the faults of a host amount to for an attempt: interrupts come only if
`cuts`, and only if it is `rough` does closing or marking a span fail. -/
structure Tame (E : Request → Fault → Prop) (cuts rough : Prop) : Prop where
  cuts_of_interrupts : ∀ r e, E r e → e.interrupts = true → cuts
  rough_of_closeSpan : ∀ s e, E (.closeSpan s) e → rough
  rough_of_recordFault : ∀ s fault e, E (.recordFault s fault) e → rough
  rough_of_cuts : cuts → rough

theorem manners_link (hh : h.Follows p view L) (plan : UpdatePlan) (depth : Nat)
    (hE : ∀ r s answer s', L r s answer s' → ∀ e, answer = .error e → E r e)
    (htame : Tame E cuts rough) :
    (h.link (Updater.console plan) depth).Manners p view cuts rough := by
  have hask : ∀ {r : Request} {F : Fault → Prop}, r.isQuiet = true → (∀ e, E r e → F e) →
      ((h.link (Updater.console plan) depth).ask r).Within (p.Discreet view) F :=
    fun {r F} hr hF => ask_within hh plan depth (Request.isEnrich_of_isQuiet hr)
      fun s answer s' hs =>
        ⟨hh.quiet r hr s answer s' hs, fun e he => hF e (hE r s answer s' hs e he)⟩
  have hsteady : (h.link (Updater.console plan) depth).Steady view := steady_link hh depth
  refine ⟨hsteady, ⟨fun r hr => ?_, hsteady.newId_within p, hsteady.time_within p⟩, fun s => ?_,
    fun s fault => ?_, htame.rough_of_cuts⟩
  · exact hask hr fun e he => htame.cuts_of_interrupts r e he
  · exact hask rfl fun e he =>
      ⟨htame.cuts_of_interrupts _ e he, htame.rough_of_closeSpan s e he⟩
  · exact hask rfl fun e he =>
      ⟨htame.cuts_of_interrupts _ e he, htame.rough_of_recordFault s fault e he⟩

/-- Where every answer leaves the files and the view alone, nobody writes to the
files behind the link. -/
theorem sparing_link (hh : h.Follows p view L) (plan : UpdatePlan) (depth : Nat)
    (hL : ∀ r s answer s', L r s answer s' →
      p.Calm view s s' ∧ ∀ e, answer = .error e → E r e)
    (htame : Tame E cuts rough) :
    (h.link (Updater.console plan) depth).Sparing p view cuts rough := by
  have hmanners := manners_link hh plan depth
    (fun r s answer s' hs => (hL r s answer s' hs).2) htame
  have hF : ∀ r s answer s', L r s answer s' → p.Calm view s s' ∧
      ∀ e, answer = .error e → e.interrupts = true → cuts := fun r s answer s' hs =>
    ⟨(hL r s answer s' hs).1,
      fun e he => htame.cuts_of_interrupts r e ((hL r s answer s' hs).2 e he)⟩
  refine ⟨hmanners, ⟨fun r hr => ?_, hmanners.keeps.newId, hmanners.keeps.time⟩, fun w => ?_,
    fun raw w => ?_⟩
  · exact ask_within hh plan depth hr (hF r)
  · refine (ends_ask_calm hh plan depth (hF .startProcessing) w).mono ?_ ?_
    · rintro x w' ⟨w₁, h₁, rfl⟩
      refine ⟨discreet_exchange rfl h₁ _, fun hengaged => ?_⟩
      -- the entry about the answer is the last one of the exchange
      have hgrown := (World.grown_enter w (.asked .startProcessing)).trans (h₁ hengaged).2.2.grown
      rw [hgrown.since_trans (World.grown_enter w₁ _), World.since_enter]
      exact List.mem_append_right _ (List.mem_singleton_self _)
    · rintro e w' ⟨he, w₁, h₁, rfl⟩
      exact ⟨he, discreet_exchange rfl h₁ _⟩
  · exact ends_ask_calm hh plan depth (hF _) w

theorem Spares.follows (hspares : h.Spares p) (hraises : h.Raises E) :
    h.Follows p (fun _ => ()) fun r s answer s' =>
      p.Calm (fun _ => ()) s s' ∧ ∀ e, answer = .error e → E r e where
  gate _ _ := rfl
  freshId _ := rfl
  now _ := rfl
  reply r s := ((hspares r s).and (hraises r s)).mono (fun _ _ hs => ⟨hs.1, rfl⟩)
    fun _ _ _ hs => ⟨⟨hs.1, rfl⟩, hs.2⟩
  quiet _ _ _ _ _ hs := hs.1

/-- Nobody writes to the four files behind the link to a host that spares them. -/
theorem Spares.sparing_link (hspares : h.Spares p) (hraises : h.Raises E) (plan : UpdatePlan)
    (depth : Nat) (htame : Tame E cuts rough) :
    (h.link (Updater.console plan) depth).Sparing p (fun _ => ()) cuts rough :=
  Host.sparing_link (hspares.follows hraises) plan depth (fun _ _ _ _ hs => hs) htame

end Host

/-! ### Plain hosts -/

/-- The plainest answer to a request; candidates are enriched to themselves. -/
def Request.plainAnswer : (r : Request) → r.Answer
  | .enrich raw => Payload.bytes raw
  | .processors | .controllerServices | .reportingTasks => ([] : List Component)
  | .connections => ([] : List Connection)
  | .isDataQueued => false
  | .remoteEndpoints => ([] : List Endpoint)
  | .componentIdentifier _ | .endpointIdentifier _ => ""
  | .performValidation _ => Status.valid
  | .validationErrors _ => ([] : List String)
  | .stopTransmitting _ => ({ index := 0 } : Transmission)
  | .openSpan _ => ({ index := 0 } : Span)
  | .loadConfiguration | .rebuild | .stopComponent _ | .stopProcessing | .startProcessing
  | .dropAllQueued .. | .awaitStop .. | .pause _ | .publish _ | .annotateSpan .. | .recordFault ..
  | .closeSpan _ | .keepReport _ => ()

namespace Host

/-- A host that orders nothing and gives the plainest answers, but for the requests
for which it raises something; it refuses accesses by their number. -/
def plain (raises : Request → Option Fault) (refuses : Access → Nat → Option Nat) : Host Nat where
  reply r := fun s => .done ((raises r).elim (.ok r.plainAnswer) .error) s
  gate a n := (refuses a n, n + 1)
  freshId n := (toString n, n + 1)
  now n := (n, n + 1)

variable {raises : Request → Option Fault} {refuses : Access → Nat → Option Nat}

theorem plain_spares (p : FilePaths) : (plain raises refuses).Spares p := fun _ _ => rfl

theorem plain_raises {E : Request → Fault → Prop} (h : ∀ r e, raises r = some e → E r e) :
    (plain raises refuses).Raises E := by
  intro r s e he
  cases hr : raises r with
  | none => simp [hr] at he
  | some e' =>
    obtain rfl : e' = e := by simpa [hr] using he
    exact h r e' hr

end Host

/-! ### A small installation -/

namespace Sample

/-- The files beside `/conf/flow.json`. -/
def files : FilePaths where
  active := { anchor := .slash, parts := ["conf", "flow.json"] }
  backup := { anchor := .slash, parts := ["conf", "flow.json.backup"] }
  raw := { anchor := .slash, parts := ["conf", "flow.raw"] }
  backupRaw := { anchor := .slash, parts := ["conf", "flow.backup.raw"] }

theorem derive_eq : FilePaths.derive files.active { anchor := .slash, parts := [] } ".backup"
    ".raw" = .ok files := by decide +kernel

theorem nodup_files : files.all.Nodup := by decide

/-- An updater that polls once. -/
def plan : UpdatePlan where
  files
  drain := { budget := { maxRetries := 0, pause := .int 0 }, stopTimeout := 0 }
  validation := { maxRetries := 0, pause := .int 0 }

/-- The same, with a tracer. -/
def traced : UpdatePlan := { plan with tracing := true }

/-- A world with an active configuration of one byte, and no raw one. -/
def world : World Nat where
  disk := { entries := [(["conf"], .directory), (["conf", "flow.json"], .file [1])] }
  host := 0

/-- A host under which the raw file cannot be replaced, nor the active one after
seven accesses. -/
def unrestoring : Host Nat :=
  Host.plain (fun _ => none) fun a n =>
    match a with
    | .replace _ target =>
      if target = files.raw ∨ (target = files.active ∧ 6 < n) then some 28 else none
    | _ => none

/-- The end of an attempt under it. -/
def unrestored : Except Fault UpdateReport × World Nat :=
  (Updater.apply (unrestoring.link (Updater.console plan) 0) plan [2]).run world

/-- A host whose tracer cannot open the span of the drain. -/
def spanless : Host Nat :=
  Host.plain (fun r =>
    match r with
    | .openSpan name =>
      if name = "phase:draining" then some (.raised "RuntimeError" "") else none
    | _ => none) fun _ _ => none

end Sample

end HotSwap
