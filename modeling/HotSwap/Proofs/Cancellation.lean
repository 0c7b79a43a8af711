/-
What a cancellation does, and what it does not.

A host may cancel the running attempt whenever it is asked something, at any depth.  The
attempt then gives up waiting: for its queues to run empty, and for its candidate to
settle.  Nothing else comes of it: not on the way back, where nobody looks at the token
any more, and not in any later attempt.

* `Updater.steadfast` — the console of an updater that ignores cancellations on the way
  back;
* `Updater.echo_steadfast` — it goes alike with the usual one;
* `Updater.HeedsCancellation` — what is to be had from cancellations;
* `Updater.Service.heedsCancellation` — and that is had.
-/
import HotSwap.Proofs.Meters

namespace HotSwap

open Act

variable {σ τ : Type} {κ : Comparison σ τ} {link : Link σ} {link' : Link τ} {plan : UpdatePlan}

/-! ### On the way back -/

/-- On the way back tokens may differ, as long as there are two or none. -/
theorem TokensAlike.of_wayBack {p : Phase} (hp : p.isWayBack = true) {t t' : Option Bool}
    (h : t.isSome = t'.isSome) : TokensAlike p t t' := by
  cases t' with
  | none => exact .inl (Option.isNone_iff_eq_none.mp (by simpa using h))
  | some cancelled => exact .inr ⟨hp, h, rfl⟩

namespace Updater

/-- The reply to a cancellation, when there is an attempt to cancel or none. -/
def cancelReply (running : Bool) : Command → Reply
  | .cancelCurrent => .flag running
  | _ => .done

/-- Carries out an order of the host; on the way back cancellations are answered as
always, but leave the token as it is. -/
def steadfast (plan : UpdatePlan) (link : Link σ) (c : Command) : Act σ Reply := do
  let desk ← Act.desk
  if c.cancels && desk.phase.isWayBack then return cancelReply desk.token.isSome c
  else console plan link c

/-- A cancellation is told to the log and to the token, and to nobody else. -/
theorem run_console_of_cancels (plan : UpdatePlan) (link : Link σ) {c : Command}
    (hc : c.cancels = true) (w : World σ) :
    ∃ log token, token.isSome = w.desk.token.isSome ∧ (console plan link c).run w =
      (.ok (cancelReply w.desk.token.isSome c),
        { w with log, desk := { w.desk with token } }) := by
  obtain ⟨⟨_, _, token⟩⟩ := w
  cases c with
  | cancelToken => exact ⟨_, _, Option.isSome_map .., rfl⟩
  | cancelCurrent =>
    cases token with
    | none => exact ⟨_, none, rfl, rfl⟩
    | some cancelled => exact ⟨_, some true, rfl, rfl⟩
  | _ => cases hc

/-- So on the way back it does not matter whether cancellations reach the token. -/
theorem echo_steadfast (hloose : ¬ κ.loose) (h : link.Mirrors κ link') :
    Conduct.Echo κ (console plan link) (steadfast plan link') where
  both {p} c hc := by
    intro w v hwv
    have hsteadfast : (steadfast plan link' c).run v =
        if c.cancels && p.isWayBack then (.ok (cancelReply v.desk.token.isSome c), v)
        else (console plan link' c).run v := by
      rw [← hwv.phase']
      show (if c.cancels && v.desk.phase.isWayBack then _ else _ : Act τ Reply) v = _
      split <;> rfl
    rw [hsteadfast]
    split
    · next hback =>
      obtain ⟨hcancels, hp⟩ := Bool.and_eq_true_iff.mp hback
      obtain ⟨log, token, htoken, hrun⟩ := run_console_of_cancels plan link hcancels w
      rw [hrun, ← hwv.token.isSome_eq]
      exact ⟨.ok .rfl, { hwv with
        token := .of_wayBack hp (htoken.trans hwv.token.isSome_eq) }⟩
    · exact console_tracks (h.accords plan) c hc hwv
  aside _ _ _ hl := absurd hl hloose

/-! ### What is to be had from cancellations -/

/-- What the host notes during an update. -/
def notes (h : Host σ) (plan : UpdatePlan) (depth : Nat) (w : World σ) (raw : Bytes) : List Note :=
  ((apply (h.noting.link (console plan) depth) plan raw).run w.noting).2.host.2

/-- How cancellations take effect around and during an update from a world at rest: wherever
the host cancels. -/
structure HeedsCancellation (h : Host σ) (plan : UpdatePlan) (depth : Nat) (w : World σ)
    (raw : Bytes) : Prop where
  /-- As long as no attempt is running there is nothing to cancel. -/
  idle : (cancelCurrent : Act σ Bool).run w = (.ok false, w)
  /-- Taking notes changes nothing. -/
  noting : (apply (h.noting.link (console plan) depth) plan raw).Agree Note.Beside w.noting
    (apply (h.link (console plan) depth) plan raw) w
  /-- Each cancellation hits the running attempt. -/
  hits : ∀ hit, .cancelled hit ∈ notes h plan depth w raw → hit = true
  /-- After it one more time at most is asked whether work is queued. -/
  polls : Meter.polls.Heeds (notes h plan depth w raw)
  /-- After it one more round at most of the validation of the candidate begins. -/
  rounds : Meter.rounds.Heeds (notes h plan depth w raw)
  /-- On the way back it changes nothing. -/
  steadfast : (apply (h.link (console plan) depth) plan raw).Agree Eq w
    (apply (h.link (steadfast plan) depth) plan raw) w
  /-- It changes nothing in a later attempt: whatever came before another world at rest, with
  the same disk and host the next update goes the same way. -/
  later : ∀ v, Service (h.link (console plan) depth) plan v → v.disk = w.disk → v.host = w.host →
    v.desk.waiting = w.desk.waiting →
    (apply (h.link (console plan) depth) plan raw).SameRun w v

/-- Cancellations take effect in this way, however many updates came before, and however
they ended. -/
theorem Service.heedsCancellation (h : Host σ) (plan : UpdatePlan) (depth : Nat) (w : World σ)
    (hw : Service (h.link (console plan) depth) plan w) (raw : Bytes) :
    HeedsCancellation h plan depth w raw := by
  have hlink : (h.noting.link (console plan) depth).TakesNotes := h.takesNotes_link plan depth
  have hfree : w.noting.desk.engaged = false := hw.atRest.1
  have hpolls : Meter.polls.Heeds (notes h plan depth w raw) ∧
      ∀ hit, .cancelled hit ∈ notes h plan depth w raw → hit = true :=
    (ends_apply_heeds hlink (fun a => Meter.commit_polls hlink a raw) hfree rfl).world
  have hrounds : Meter.rounds.Heeds (notes h plan depth w raw) ∧
      ∀ hit, .cancelled hit ∈ notes h plan depth w raw → hit = true :=
    (ends_apply_heeds hlink (fun a => Meter.commit_rounds hlink a raw) hfree rfl).world
  exact
    { idle := cancelCurrent_atRest hw.atRest
      noting := apply_noting h plan depth hw.atRest raw
      hits := hpolls.2
      polls := hpolls.1
      rounds := hrounds.1
      steadfast := apply_agree_of_echo h depth (fun _ _ => echo_steadfast id) hw.atRest hw.atRest
        rfl rfl rfl rfl raw
      later := fun v hv hdisk hhost hwaiting =>
        apply_sameRun h depth hw.atRest hv.atRest hdisk.symm hhost.symm
          (hw.books_eq.trans hv.books_eq.symm) hwaiting.symm raw }

end Updater

/-! ### A hasty host -/

namespace Sample

/-- A host that cancels when it is asked whether work is queued, and again when the files are
being restored, because the candidate cannot be loaded. -/
def hasty : Host Nat where
  reply
    | .isDataQueued => fun s => .order .cancelCurrent s fun _ s' => .done (.ok true) s'
    | .publish (.phaseStarted _ .revertingFiles) => fun s =>
      .order .cancelCurrent s fun _ s' => .done (.ok ()) s'
    | .loadConfiguration => fun s => .done (.error (.raised "OSError" "")) s
    | r => fun s => .done (.ok r.plainAnswer) s
  gate _ n := (none, n)
  freshId n := (toString n, n + 1)
  now n := (n, n + 1)

/-- An updater that would poll four times. -/
def waiting : UpdatePlan where
  files
  drain := { budget := { maxRetries := 3, pause := .int 0 }, stopTimeout := 0 }
  validation := { maxRetries := 3, pause := .int 0 }

end Sample

/-- What is noted of cancellations. -/
def Note.hit? : Note → Option Bool
  | .cancelled hit => some hit
  | .asked _ => none

namespace Updater

/-- Both cancellations of the hasty host hit the attempt, which polls once instead of four
times. -/
theorem Service.heedsCancellation_hasty :
    let w := Updater.opened Sample.world.disk 0
    Service (Sample.hasty.link (console Sample.waiting) 1) Sample.waiting w ∧
      (notes Sample.hasty Sample.waiting 1 w [2]).filterMap Note.hit? = [true, true] ∧
      Meter.polls.count (notes Sample.hasty Sample.waiting 1 w [2]) = 1 ∧
      HeedsCancellation Sample.hasty Sample.waiting 1 w [2] := by
  have hservice : Service (Sample.hasty.link (console Sample.waiting) 1) Sample.waiting
      (Updater.opened Sample.world.disk 0) := .opened Sample.world.disk 0
  exact ⟨hservice, by decide +kernel, by decide +kernel,
    Service.heedsCancellation Sample.hasty Sample.waiting 1 _ hservice [2]⟩

end Updater
end HotSwap
