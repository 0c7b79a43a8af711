/-
How often a host is polled, and what a cancellation changes about it.

A meter reads the notes of a host one after the other and counts some of the polls among
them.  While an attempt is running, what is not a poll of the kind that it counts leaves
its count alone; and once the attempt has been cancelled, a loop that listens counts one
more at most.

* `Meter` — a way of counting polls, with `Meter.polls` and `Meter.rounds`;
* `Meter.Quiet`, `Meter.Single`, `Meter.Once` — stretches of an attempt in which nothing is
  counted, one poll at most, one poll at most after each cancellation;
* `Meter.pollFrom_once` — a loop that listens to the token is a stretch of the last kind;
* `Link.TakesNotes`, `Host.takesNotes_link` — the links to hosts that take notes.
-/
import HotSwap.Proofs.Notes
import HotSwap.Proofs.Frames

namespace HotSwap

open Act

variable {σ α : Type} {S : Type}

/-! ### Counting -/

/-- A way of counting polls: after each note it is at a stage, on which it depends what the
next note counts for. -/
structure Meter (S : Type) where
  start : S
  next : S → Note → S
  counts : S → Note → Bool
  isPoll : ∀ {s n}, counts s n = true → ∃ r : Request, n = .asked r ∧ r.isPoll = true

namespace Meter

variable (m : Meter S)

/-- The stage after some notes. -/
def stage (s : S) (ns : List Note) : S := ns.foldl m.next s

/-- What is counted from a stage on. -/
def countFrom : S → List Note → Nat
  | _, [] => 0
  | s, n :: ns => (if m.counts s n then 1 else 0) + countFrom (m.next s n) ns

/-- What is counted in all. -/
def count (ns : List Note) : Nat := m.countFrom m.start ns

theorem countFrom_append (s : S) (ns ns' : List Note) :
    m.countFrom s (ns ++ ns') = m.countFrom s ns + m.countFrom (m.stage s ns) ns' := by
  induction ns generalizing s with
  | nil => simp [countFrom, stage]
  | cons n ns ih =>
    rw [List.cons_append, countFrom, countFrom, ih, Nat.add_assoc]
    rfl

theorem count_append (ns ns' : List Note) :
    m.count (ns ++ ns') = m.count ns + m.countFrom (m.stage m.start ns) ns' :=
  m.countFrom_append m.start ns ns'

/-- The count never goes back. -/
theorem count_le_append (ns ns' : List Note) : m.count ns ≤ m.count (ns ++ ns') := by
  rw [count_append]
  exact Nat.le_add_right _ _

/-- Notes that never count. -/
def Idle (n : Note) : Prop := ∀ s, m.counts s n = false

theorem countFrom_eq_zero {ns : List Note} (h : ∀ n ∈ ns, m.Idle n) (s : S) :
    m.countFrom s ns = 0 := by
  induction ns generalizing s with
  | nil => rfl
  | cons n ns ih =>
    rw [countFrom, h n (List.mem_cons_self ..), ih fun n hn => h n (List.mem_cons_of_mem _ hn)]
    rfl

theorem idle_asked {r : Request} (hr : r.isPoll = false) : m.Idle (.asked r) := by
  intro s
  by_contra hcounts
  obtain ⟨r', hr', hpoll⟩ := m.isPoll (Bool.of_not_eq_false hcounts)
  cases hr'
  simp [hr] at hpoll

theorem idle_aside {n : Note} (hn : n.Aside) : m.Idle n := by
  cases n with
  | asked r =>
    refine m.idle_asked ?_
    cases r <;> first | rfl | exact hn.elim
  | cancelled hit =>
    intro s
    by_contra hcounts
    obtain ⟨r, hr, -⟩ := m.isPoll (Bool.of_not_eq_false hcounts)
    cases hr

end Meter

/-- Whether the host is asked for queued work. -/
def Note.asksQueued : Note → Bool
  | .asked .isDataQueued => true
  | _ => false

/-- Counts how often is asked whether work is queued. -/
def Meter.polls : Meter Unit where
  start := ()
  next _ _ := ()
  counts _ n := n.asksQueued
  isPoll {_ n} h := by
    unfold Note.asksQueued at h
    split at h
    · exact ⟨_, rfl, rfl⟩
    · cases h

/-- How far the validation of a candidate has come. -/
inductive Rounds where
  /-- The candidate is not being validated. -/
  | outside
  /-- The next validation of a component begins a round. -/
  | before
  /-- A round has begun. -/
  | during

/-- The validating phase consists of rounds, with a pause before each but the first. -/
def Rounds.next : Rounds → Note → Rounds
  | _, .asked (.publish (.phaseStarted _ .validating)) => .before
  | _, .asked (.publish (.phaseStarted _ _)) => .outside
  | .during, .asked (.pause _) => .before
  | .before, .asked (.performValidation _) => .during
  | s, _ => s

/-- Whether a round begins. -/
def Rounds.begins : Rounds → Note → Bool
  | .before, .asked (.performValidation _) => true
  | _, _ => false

/-- Counts the rounds of the validation of a candidate. -/
def Meter.rounds : Meter Rounds where
  start := .outside
  next := Rounds.next
  counts := Rounds.begins
  isPoll {s n} h := by
    unfold Rounds.begins at h
    split at h
    · exact ⟨_, rfl, rfl⟩
    · cases h

/-! ### Stretches of an attempt -/

namespace Meter

variable (m : Meter S) {w w' w'' : World (σ × List Note)} {P : Note → Prop}

/-- While an attempt is running, nothing is counted. -/
def Quiet (w w' : World (σ × List Note)) : Prop :=
  w.desk.Cancellable → ∃ ns, w.Noted ns w' ∧ m.count w'.host.2 = m.count w.host.2

/-- While an attempt is running, one poll at most is counted. -/
def Single (w w' : World (σ × List Note)) : Prop :=
  w.desk.Cancellable → ∃ ns, w.Noted ns w' ∧ m.count w'.host.2 ≤ m.count w.host.2 + 1

/-- While an attempt is running, from wherever it is known to be cancelled, one poll at most
is counted. -/
def Once (w w' : World (σ × List Note)) : Prop :=
  w.desk.Cancellable → ∃ ns, w.Noted ns w' ∧ ∀ before, before <+: ns →
    w.CancelledBy before → m.count w'.host.2 ≤ m.count (w.host.2 ++ before) + 1

variable {m}

theorem quiet_of_jots (h : w.Jots P w') (hP : ∀ n, P n → m.Idle n) : m.Quiet w w' := by
  intro hw
  obtain ⟨ns, hns, hPs⟩ := h hw
  refine ⟨ns, hns, ?_⟩
  rw [hns.notes, count_append, countFrom_eq_zero m fun n hn => hP n (hPs n hn)]
  rfl

theorem Quiet.trans (h : m.Quiet w w') (h' : m.Quiet w' w'') : m.Quiet w w'' := by
  intro hw
  obtain ⟨ns, hns, hcount⟩ := h hw
  obtain ⟨ns', hns', hcount'⟩ := h' hns.running
  exact ⟨_, hns.trans hns', hcount'.trans hcount⟩

/-- Where the notes are as before, nothing is counted. -/
theorem quiet_of_notes (hengaged : w'.desk.engaged = w.desk.engaged)
    (htoken : TokenKept True w.desk.token w'.desk.token) (hnotes : w'.host.2 = w.host.2) :
    m.Quiet w w' :=
  quiet_of_jots (P := m.Idle) (World.jots_of_notes hengaged htoken hnotes) fun _ => id

instance : Course (m.Quiet (σ := σ)) where
  refl _ := quiet_of_notes rfl (.inl rfl) rfl
  trans := Quiet.trans
  log _ _ := quiet_of_notes rfl (.inl rfl) rfl
  polls _ _ := quiet_of_notes rfl (.inl rfl) rfl

theorem absorbs_single : Absorbs (m.Quiet (σ := σ)) m.Single where
  of h hw := by
    obtain ⟨ns, hns, hcount⟩ := h hw
    exact ⟨ns, hns, by omega⟩
  before h h' hw := by
    obtain ⟨ns, hns, hcount⟩ := h hw
    obtain ⟨ns', hns', hcount'⟩ := h' hns.running
    exact ⟨_, hns.trans hns', by omega⟩
  after h h' hw := by
    obtain ⟨ns, hns, hcount⟩ := h hw
    obtain ⟨ns', hns', hcount'⟩ := h' hns.running
    exact ⟨_, hns.trans hns', by omega⟩

/-- What is counted up to some point of a stretch is at least what was counted before. -/
theorem once_of_single (h : m.Single w w') : m.Once w w' := by
  intro hw
  obtain ⟨ns, hns, hcount⟩ := h hw
  refine ⟨ns, hns, fun before _ _ => ?_⟩
  have := m.count_le_append w.host.2 before
  omega

/-- Where a prefix of two stretches ends. -/
private theorem prefix_append_cases {before ns ns' : List Note} (h : before <+: ns ++ ns') :
    before <+: ns ∨ ∃ before', before' <+: ns' ∧ before = ns ++ before' := by
  rcases List.prefix_or_prefix_of_prefix h (List.prefix_append ns ns') with hin | hin
  · exact .inl hin
  · obtain ⟨before', rfl⟩ := hin
    exact .inr ⟨before', (List.prefix_append_right_inj ns).mp h, rfl⟩

/-- A stretch that leaves the attempt uncancelled does not matter. -/
theorem Once.before_of_uncancelled {ns : List Note} (hns : w.Noted ns w')
    (huncancelled : w'.desk.cancelled = false) (h : m.Once w' w'') : m.Once w w'' := by
  intro hw
  obtain ⟨ns', hns', honce⟩ := h hns.running
  refine ⟨_, hns.trans hns', fun before hbefore hcancelled => ?_⟩
  rcases prefix_append_cases hbefore with hin | ⟨before', hbefore', rfl⟩
  · have hlate := hns.cancelled (hcancelled.mono hin.subset)
    simp [huncancelled] at hlate
  · rw [← List.append_assoc, ← hns.notes]
    exact honce before' hbefore' (hcancelled.of_append hns)

theorem absorbs_once : Absorbs (m.Quiet (σ := σ)) m.Once where
  of h := once_of_single (absorbs_single.of h)
  before {w w' w''} h h' hw := by
    obtain ⟨ns, hns, hcount⟩ := h hw
    obtain ⟨ns', hns', honce⟩ := h' hns.running
    refine ⟨_, hns.trans hns', fun before hbefore hcancelled => ?_⟩
    rcases prefix_append_cases hbefore with hin | ⟨before', hbefore', rfl⟩
    · -- it was cancelled before the second stretch began
      have hearly := honce [] List.nil_prefix (.inl (hns.cancelled (hcancelled.mono hin.subset)))
      rw [List.append_nil] at hearly
      have := m.count_le_append w.host.2 before
      omega
    · rw [← List.append_assoc, ← hns.notes]
      exact honce before' hbefore' (hcancelled.of_append hns)
  after {w w' w''} h h' hw := by
    obtain ⟨ns, hns, honce⟩ := h hw
    obtain ⟨ns', hns', hcount⟩ := h' hns.running
    refine ⟨_, hns.trans hns', fun before hbefore hcancelled => ?_⟩
    rcases prefix_append_cases hbefore with hin | ⟨before', hbefore', rfl⟩
    · rw [hcount]
      exact honce before hin hcancelled
    · -- all that is counted is counted before the prefix ends
      have := m.count_le_append w'.host.2 before'
      rw [hcount, ← List.append_assoc, ← hns.notes]
      omega

/-! ### Loops -/

variable {link : Link (σ × List Note)} {F : Fault → Prop}

/-- What happens once a stretch has left the attempt uncancelled counts for both together. -/
theorem Single.ends_once {act : Act (σ × List Note) α} (h : m.Single w w')
    (huncancelled : w'.desk.cancelled = false) (hact : act.Within m.Once F) :
    act.Ends w' (fun _ w'' => m.Once w w'') fun e w'' => F e ∧ m.Once w w'' := by
  have hbefore : ∀ {w''}, m.Once w' w'' → m.Once w w'' := fun hlater hw => by
    obtain ⟨ns, hns, -⟩ := h hw
    exact Once.before_of_uncancelled hns huncancelled hlater hw
  exact (hact w').mono (fun _ _ => hbefore) fun _ _ he => ⟨he.1, hbefore he.2⟩

/-- Once the attempt has been cancelled, a loop that listens polls once more at most. -/
theorem pollFrom_once (hpause : ∀ seconds, (link.ask (.pause seconds)).Within m.Quiet F)
    (budget : Budget) {ask : Act (σ × List Note) α} {settled : α → Act (σ × List Note) Bool}
    (hask : ask.Within m.Single F) (hsettled : ∀ x, (settled x).Within m.Quiet F)
    (left poll : Nat) : (pollFrom link budget true ask settled left poll).Within m.Once F := by
  induction left generalizing poll with
  | zero =>
    rw [pollFrom]
    refine Within.mono (absorbs_single.bind_after hask fun value => (hsettled value).bind
      fun done => ?_) (fun _ _ => once_of_single) fun _ => id
    split
    · exact within_pure _
    · exact (toldToStop_within true).bind fun _ => within_pure _
  | succ left ih =>
    intro w
    have hrest : (do
        sayPollAgain budget poll
        link.ask (.pause budget.pause.seconds)
        pollFrom link budget true ask settled left (poll + 1)).Within m.Once F :=
      absorbs_once.bind_before within_say fun _ =>
        absorbs_once.bind_before (hpause _) fun _ => ih (poll + 1)
    rw [pollFrom, ends_bind]
    -- it goes on only if it has not been cancelled so far
    refine ends_pollOnce.mpr ((hask w).mono (fun value w₁ h₁ => ?_) fun e w₁ he => ?_)
    · refine (hsettled value w₁).bind (fun done w₂ h₂ => ?_) fun _ _ he =>
        ⟨he.1, once_of_single (absorbs_single.after h₁ he.2)⟩
      have h₁₂ := absorbs_single.after h₁ h₂
      split
      · exact once_of_single h₁₂
      · show (toldToStop true >>= fun told => _).Ends w₂ _ _
        rw [ends_bind, toldToStop, ends_bind, ends_desk, ends_pure, Bool.true_and]
        split
        · exact once_of_single h₁₂
        · next hgoes => exact Single.ends_once h₁₂ (Bool.of_not_eq_true hgoes) hrest
    · split
      · next hagain =>
        exact Single.ends_once he.2 (by simpa using (Bool.and_eq_true_iff.mp hagain).2) hrest
      · exact ⟨he.1, once_of_single he.2⟩

/-! ### Requests -/

theorem single_of_takes {r : Request} (h : w.Takes r w') : m.Single w w' := by
  intro hw
  obtain ⟨ns, hns, haside⟩ := h hw
  refine ⟨_, hns, ?_⟩
  have hrest : ∀ s, m.countFrom s ns = 0 :=
    countFrom_eq_zero m fun n hn => m.idle_aside (haside n hn)
  rw [hns.notes, count_append, countFrom, hrest]
  split <;> omega

end Meter

/-- Where what is asked may be noted, too. -/
theorem World.Takes.jots {r : Request} {w w' : World (σ × List Note)} {P : Note → Prop}
    (h : w.Takes r w') (hr : P (.asked r)) (hP : ∀ n, n.Aside → P n) : w.Jots P w' := by
  intro hw
  obtain ⟨ns, hns, haside⟩ := h hw
  refine ⟨_, hns, fun n hn => ?_⟩
  rcases List.mem_cons.mp hn with rfl | hn
  · exact hr
  · exact hP n (haside n hn)

/-- A link to a host that takes notes. -/
structure Link.TakesNotes (link : Link (σ × List Note)) : Prop where
  ask : ∀ r, (link.ask r).Within (World.Takes r) fun _ => True
  gate : ∀ a s, (link.gate a s).2.2 = s.2
  freshId : ∀ s, (link.freshId s).2.2 = s.2
  now : ∀ s, (link.now s).2.2 = s.2

theorem Host.takesNotes_link (h : Host σ) (plan : UpdatePlan) (depth : Nat) :
    (h.noting.link (Updater.console plan) depth).TakesNotes where
  ask r := h.ask_takes plan depth r
  gate a s := by cases depth <;> rfl
  freshId s := by cases depth <;> rfl
  now s := by cases depth <;> rfl

/-! ### What an attempt asks -/

namespace Meter

variable {m : Meter S} {link : Link (σ × List Note)} (hlink : link.TakesNotes)
  {plan : UpdatePlan} {a : Attempt}

include hlink

theorem ask_quiet {r : Request} (hr : m.Idle (.asked r)) :
    (link.ask r).Within m.Quiet fun _ => True := by
  refine (hlink.ask r).mono (fun w w' h => ?_) fun _ => id
  exact quiet_of_jots (h.jots hr fun _ => m.idle_aside) fun _ => id

theorem keeps_quiet {A : Request → Prop} (hA : ∀ r, A r → m.Idle (.asked r)) :
    link.Keeps m.Quiet (fun _ => True) A where
  ask r hr := ask_quiet hlink (hA r hr)
  newId w := quiet_of_notes rfl (.inl rfl) (hlink.freshId w.host)
  time w := quiet_of_notes rfl (.inl rfl) (hlink.now w.host)

/-- Telling how an attempt goes is not polling. -/
theorem told_quiet : a.Told link m.Quiet (fun _ => True) fun _ => True where
  phase _ _ := quiet_of_notes rfl (.inl rfl) rfl
  publish _ _ _ _ := ask_quiet hlink (m.idle_asked rfl)
  openSpan _ := ask_quiet hlink (m.idle_asked rfl)
  annotateSpan _ _ _ := ask_quiet hlink (m.idle_asked rfl)
  recordFault _ _ := ask_quiet hlink (m.idle_asked rfl)
  closeSpan _ := ask_quiet hlink (m.idle_asked rfl)

theorem handles_quiet : link.Handles m.Quiet fun _ => True :=
  Link.handles_of_course (fun a w => quiet_of_notes rfl (.inl rfl) (hlink.gate a w.host))
    (fun _ _ => quiet_of_notes rfl (.inl rfl) rfl) (fun _ _ _ => quiet_of_notes rfl (.inl rfl) rfl)
    fun _ _ => quiet_of_notes rfl (.inl rfl) rfl

theorem loadFlow_quiet : (loadFlow link).Within m.Quiet fun _ => True :=
  loadFlow_within (ask_quiet hlink (m.idle_asked rfl)) (ask_quiet hlink (m.idle_asked rfl))
    fun _ _ => trivial

theorem worked_quiet (hreload : (a.runStep link plan .reloadingReverted .revertReloadFailure
    (Attempt.reloadReverted link plan.validation)).Within m.Quiet fun _ => True) :
    a.Worked link plan m.Quiet fun _ => True where
  told := told_quiet hlink
  handles := (handles_quiet hlink).weaken fun _ _ => trivial
  ordinary _ _ := trivial
  load := loadFlow_quiet hlink
  reload := hreload

/-- The drain, where its loop polls once at most after a cancellation. -/
theorem drainPhase_within {R : World (σ × List Note) → World (σ × List Note) → Prop}
    (hR : Absorbs m.Quiet R)
    (hloop : (pollUntil link plan.drain.budget true (Drain.askQueued link) fun queued =>
      return !queued).Within R fun _ => True) :
    (a.drainPhase link plan).Within R fun _ => True :=
  (told_quiet hlink).drainPhase_within hR trivial (fun _ _ => quiet_of_notes rfl (.inl rfl) rfl)
    (drain_within_of_loop hR
      (keeps_quiet hlink fun _ hr => m.idle_asked (Request.isPoll_of_isLooped hr.2)) plan.drain true
      hloop)

/-- The start of the candidate, too. -/
theorem start_within {R : World (σ × List Note) → World (σ × List Note) → Prop}
    (hR : Absorbs m.Quiet R) {listens : Bool}
    (hloop : ∀ cs, (pollUntil link plan.validation listens (Reload.unsettled link cs) fun pending =>
      return pending.isEmpty).Within R fun _ => True) :
    (validateAndStart link plan.validation listens).Within R fun _ => True :=
  validateAndStart_within_of_loop (fun _ _ => trivial) hR
    (keeps_quiet hlink fun _ hr => m.idle_asked (Request.isPoll_of_isLooped hr.2)) plan.validation
    listens hloop (ask_quiet hlink (m.idle_asked rfl))

/-- An attempt polls once at most after a cancellation, if its commit does. -/
theorem ends_attempt_once {raw : Bytes} (hcommit : ∀ rendered,
    (a.commit link plan raw rendered).Within m.Once fun _ => True) (w : World (σ × List Note)) :
    (Updater.attempt link plan a raw).Ends w (fun _ w' => m.Once w w') fun _ w' => m.Once w w' := by
  have hask : ∀ {r : Request}, r.isPoll = false → (link.ask r).Within m.Quiet fun _ => True :=
    fun hr => ask_quiet hlink (m.idle_asked hr)
  have hsurrounds : Attempt.Surrounds m.Quiet fun _ => m.Once (σ := σ) :=
    ⟨absorbs_once.before, absorbs_once.after⟩
  have hfinish : ∀ o drained, (a.finish link plan o drained).Within m.Quiet fun _ => True :=
    fun o drained => a.finish_within plan o drained
      (fun w => quiet_of_notes rfl (.inl rfl) (hlink.now w.host)) (fun _ _ _ _ => hask rfl)
      fun _ _ => hask rfl
  have htransaction : ∀ rendered w, (FileSet.transaction link plan.files
      (a.commit link plan raw rendered)).Ends w (fun _ w' => m.Once w w')
      fun _ w' => m.Once w w' := by
    intro rendered w
    have hcleanup := FileSet.cleanup_within (F := fun _ => True) (handles_quiet (m := m) hlink)
      plan.files trivial
    exact (absorbs_once.ensuring (hcommit rendered) hcleanup w).mono (fun _ _ h => h)
      fun _ _ he => he.2
  have honce : ∀ {w w'}, m.Quiet w w' → m.Once (σ := σ) w w' := absorbs_once.of
  have hscoped : (Updater.attempt link plan a raw).Ends w
      (fun report w' => Attempt.Scoped m.Quiet (fun _ => m.Once) True report w w')
      fun e w' => Attempt.Cut m.Quiet (fun _ => m.Once) True e w w' :=
    Attempt.ends_attempt_scoped hsurrounds
      ⟨fun _ _ => quiet_of_notes rfl (.inl rfl) rfl, fun _ _ _ _ => hask rfl, fun _ => hask rfl,
        fun _ _ _ => hask rfl, fun _ _ => hask rfl, fun _ => hask rfl⟩
      (fun _ => hask rfl) hfinish htransaction
      (fun _ _ => (hask rfl).weaken fun _ _ => .inr trivial) w
  refine hscoped.mono ?_ ?_
  · rintro report w' (⟨h, -⟩ | ⟨r, h, -⟩)
    · exact honce h
    · exact h
  · rintro e w' (h | ⟨r, h, -⟩)
    · exact honce h
    · exact h

end Meter

/-! ### How often is asked whether work is queued -/

namespace Meter

variable {link : Link (σ × List Note)} (hlink : link.TakesNotes) {plan : UpdatePlan}

theorem idle_polls {r : Request} (hr : r ≠ .isDataQueued) : polls.Idle (.asked r) := by
  intro s
  cases r <;> first | rfl | exact absurd rfl hr

include hlink

theorem commit_polls (a : Attempt) (raw rendered : Bytes) :
    (a.commit link plan raw rendered).Within polls.Once fun _ => True := by
  have hvalidate : ∀ listens cs, (pollUntil link plan.validation listens
      (Reload.unsettled link cs) fun pending => return pending.isEmpty).Within polls.Quiet
      fun _ => True := fun listens cs =>
    pollUntil_within (fun _ => ask_quiet hlink (polls.idle_asked rfl)) _ _
      (Reload.unsettled_within (fun _ => ask_quiet hlink (idle_polls (by simp))) cs)
      fun _ => within_pure _
  have hstart : ∀ listens, (validateAndStart link plan.validation listens).Within polls.Quiet
      fun _ => True := fun listens => start_within hlink absorbs_self (hvalidate listens)
  have hworked : a.Worked link plan polls.Quiet fun _ => True :=
    worked_quiet hlink ((told_quiet hlink).runStep_within trivial absorbs_self
      (Attempt.reloadReverted_within (loadFlow_quiet hlink) (hstart false) fun _ _ => trivial) _)
  -- the loop of the drain listens to the token
  have hasked : (Drain.askQueued link).Within polls.Single fun _ => True :=
    absorbs_single.bind_before (fun _ => quiet_of_notes rfl (.inl rfl) rfl) fun _ =>
      (hlink.ask .isDataQueued).mono (fun _ _ => single_of_takes) fun _ => id
  have hdrain : (a.drainPhase link plan).Within polls.Once fun _ => True :=
    drainPhase_within hlink absorbs_once (pollFrom_once
      (fun _ => ask_quiet hlink (polls.idle_asked rfl)) _ hasked (fun _ => within_pure _) _ _)
  exact hworked.commit_within_of_drain absorbs_once hdrain (hworked.runStep_within (hstart true) _ _)

end Meter

/-! ### How often a candidate is validated -/

namespace Rounds

/-- A note that does not tell of the beginning of the validating phase. -/
def Elsewhere (n : Note) : Prop := ∀ id, n ≠ .asked (.publish (.phaseStarted id .validating))

theorem elsewhere_aside {n : Note} (hn : n.Aside) : Elsewhere n := by
  rintro id rfl
  exact hn

theorem next_outside {n : Note} (hn : Elsewhere n) : next .outside n = .outside := by
  unfold next
  split
  · exact absurd rfl (hn _)
  · rfl
  · contradiction
  · contradiction
  · rfl

theorem next_aside {n : Note} (hn : n.Aside) (s : Rounds) : s.next n = s := by
  unfold next
  split
  · exact hn.elim
  · exact hn.elim
  · exact hn.elim
  · exact hn.elim
  · rfl

/-- Outside of the validating phase no round begins. -/
theorem stays_outside {ns : List Note} (h : ∀ n ∈ ns, Elsewhere n) :
    Meter.rounds.countFrom .outside ns = 0 := by
  induction ns with
  | nil => rfl
  | cons n ns ih =>
    have hnext : Meter.rounds.next .outside n = .outside := next_outside (h n (List.mem_cons_self ..))
    rw [Meter.countFrom, hnext, ih fun n hn => h n (List.mem_cons_of_mem _ hn)]
    rfl

/-- A validation of a component, and what may come in between. -/
def OfRound (n : Note) : Prop := n.Aside ∨ ∃ c, n = .asked (.performValidation c)

/-- After a round has begun no other one begins before the next pause. -/
theorem countFrom_of_begun {ns : List Note} (h : ∀ n ∈ ns, OfRound n) {s : Rounds}
    (hs : s ≠ .before) : Meter.rounds.countFrom s ns = 0 := by
  induction ns with
  | nil => rfl
  | cons n ns ih =>
    have hrest := ih fun n hn => h n (List.mem_cons_of_mem _ hn)
    have hnext : Meter.rounds.next s n = s := by
      rcases h n (List.mem_cons_self ..) with haside | ⟨c, rfl⟩
      · exact next_aside haside s
      · cases s <;> first | rfl | exact absurd rfl hs
    have hcounts : Meter.rounds.counts s n = false := by
      cases s <;> first | rfl | exact absurd rfl hs
    rw [Meter.countFrom, hnext, hcounts, hrest]
    rfl

theorem countFrom_le_one {ns : List Note} (h : ∀ n ∈ ns, OfRound n) (s : Rounds) :
    Meter.rounds.countFrom s ns ≤ 1 := by
  induction ns generalizing s with
  | nil => exact Nat.zero_le 1
  | cons n ns ih =>
    have htail : ∀ n ∈ ns, OfRound n := fun n hn => h n (List.mem_cons_of_mem _ hn)
    rcases h n (List.mem_cons_self ..) with haside | ⟨c, rfl⟩
    · rw [Meter.countFrom, Meter.rounds.idle_aside haside s, if_neg Bool.false_ne_true,
        Nat.zero_add]
      exact ih htail _
    · -- a validation begins a round or goes on with one
      have hbegun : Meter.rounds.next s (.asked (.performValidation c)) ≠ .before := by
        cases s <;> exact fun h => by cases h
      rw [Meter.countFrom, countFrom_of_begun htail hbegun]
      split <;> omega

end Rounds

namespace Meter

theorem idle_rounds {r : Request} (hr : ∀ c, r ≠ .performValidation c) :
    rounds.Idle (.asked r) := by
  intro s
  cases r with
  | performValidation c => exact absurd rfl (hr c)
  | _ => cases s <;> rfl

/-- One round counts once. -/
theorem single_of_round {w w' : World (σ × List Note)} (h : w.Jots Rounds.OfRound w') :
    rounds.Single w w' := by
  intro hw
  obtain ⟨ns, hns, hround⟩ := h hw
  refine ⟨ns, hns, ?_⟩
  have := Rounds.countFrom_le_one hround (rounds.stage rounds.start w.host.2)
  rw [hns.notes, count_append]
  omega

/-- A stretch in which nothing is counted, and after which no candidate is being validated. -/
def Leaves (w w' : World (σ × List Note)) : Prop :=
  w.desk.Cancellable → ∃ ns, w.Noted ns w' ∧ rounds.count w'.host.2 = rounds.count w.host.2 ∧
    rounds.stage rounds.start w'.host.2 = .outside

/-- From there on nothing is counted either, as long as no candidate is validated. -/
theorem Leaves.quiet {w w' w'' : World (σ × List Note)} (h : Leaves w w')
    (h' : w'.Jots Rounds.Elsewhere w'') : rounds.Quiet w w'' := by
  intro hw
  obtain ⟨ns, hns, hcount, hstage⟩ := h hw
  obtain ⟨ns', hns', helsewhere⟩ := h' hns.running
  refine ⟨_, hns.trans hns', ?_⟩
  rw [hns'.notes, count_append, hstage, Rounds.stays_outside helsewhere, hcount]
  rfl

/-- Telling that another phase begins puts an end to the validation. -/
theorem leaves_of_takes {w w' : World (σ × List Note)} {id : String} {phase : Phase}
    (hphase : phase ≠ .validating) (h : w.Takes (.publish (.phaseStarted id phase)) w') :
    Leaves w w' := by
  intro hw
  obtain ⟨ns, hns, haside⟩ := h hw
  have hquiet : rounds.Quiet w w' := quiet_of_jots
    (h.jots (rounds.idle_asked rfl) fun _ => rounds.idle_aside) fun _ h => h
  obtain ⟨-, -, hcount⟩ := hquiet hw
  refine ⟨_, hns, hcount, ?_⟩
  have hfirst : ∀ s, rounds.next s (.asked (.publish (.phaseStarted id phase))) = .outside := by
    intro s
    cases phase <;> first | rfl | exact absurd rfl hphase
  have hrest : ∀ ns : List Note, (∀ n ∈ ns, n.Aside) → rounds.stage .outside ns = .outside := by
    intro ns haside
    induction ns with
    | nil => rfl
    | cons n ns ih =>
      rw [stage, List.foldl_cons, show rounds.next .outside n = .outside from
        Rounds.next_aside (haside n (List.mem_cons_self ..)) _]
      exact ih fun n hn => haside n (List.mem_cons_of_mem _ hn)
  rw [hns.notes, stage, List.foldl_append, List.foldl_cons, hfirst]
  exact hrest ns haside

variable {link : Link (σ × List Note)} (hlink : link.TakesNotes) {plan : UpdatePlan}

include hlink

theorem keeps_elsewhere {A : Request → Prop}
    (hA : ∀ r, A r → Rounds.Elsewhere (.asked r)) :
    link.Keeps (World.Jots Rounds.Elsewhere) (fun _ => True) A where
  ask r hr := (hlink.ask r).mono (fun _ _ h => h.jots (hA r hr) fun _ => Rounds.elsewhere_aside)
    fun _ => id
  newId w := World.jots_of_notes rfl (.inl rfl) (hlink.freshId w.host)
  time w := World.jots_of_notes rfl (.inl rfl) (hlink.now w.host)

/-- The reload of the previous configuration is no validation of the candidate. -/
theorem reload_rounds (a : Attempt) :
    (a.runStep link plan .reloadingReverted .revertReloadFailure
      (Attempt.reloadReverted link plan.validation)).Within rounds.Quiet fun _ => True := by
  have hask : ∀ {r : Request}, Rounds.Elsewhere (.asked r) →
      (link.ask r).Within (World.Jots Rounds.Elsewhere) fun _ => True := fun hr =>
    (keeps_elsewhere hlink (A := fun r => Rounds.Elsewhere (.asked r)) fun _ => id).ask _ hr
  have htold : a.Told link (World.Jots Rounds.Elsewhere) (fun _ => True) (· ≠ .validating) :=
    { phase := fun _ _ => World.jots_of_notes rfl (.inl rfl) rfl
      publish := fun e _ _ hphase => hask (by
        rintro id ⟨⟩
        exact hphase .validating rfl rfl)
      openSpan := fun _ => hask (by rintro id ⟨⟩)
      annotateSpan := fun _ _ _ => hask (by rintro id ⟨⟩)
      recordFault := fun _ _ => hask (by rintro id ⟨⟩)
      closeSpan := fun _ => hask (by rintro id ⟨⟩) }
  have hstart : (validateAndStart link plan.validation false).Within
      (World.Jots Rounds.Elsewhere) fun _ => True :=
    validateAndStart_within (fun _ _ => trivial) (keeps_elsewhere hlink fun r hr => by
      rintro id ⟨⟩
      cases hr) _ _ (hask (by rintro id ⟨⟩))
  have hload : (loadFlow link).Within (World.Jots Rounds.Elsewhere) fun _ => True :=
    loadFlow_within (hask (by rintro id ⟨⟩)) (hask (by rintro id ⟨⟩)) fun _ _ => trivial
  have hannounce : ∀ w, (Attempt.publish link (.phaseStarted a.id .reloadingReverted)).Ends w
      (fun _ w' => ∃ w₁, Leaves w w₁ ∧ w₁.Jots Rounds.Elsewhere w')
      fun _ w' => ∃ w₁, Leaves w w₁ ∧ w₁.Jots Rounds.Elsewhere w' := by
    have htold : (link.ask (.publish (.phaseStarted a.id .reloadingReverted))).Within Leaves
        fun _ => True :=
      (hlink.ask _).mono (fun _ _ => leaves_of_takes (by simp)) fun _ => id
    intro w
    refine (htold.caught w).bind (fun answer w₁ h₁ => ?_)
      fun _ w₁ he => ⟨w₁, he.2, Course.refl w₁⟩
    cases answer with
    | ok _ => exact ⟨w₁, h₁, Course.refl w₁⟩
    | error fault => exact ⟨w₁, h₁, Course.log w₁ _⟩
  have hrest : (a.continuePhase link plan .reloadingReverted .revertReloadFailure (do
      Attempt.reloadReverted link plan.validation
      return (none : Option Unit))).Within (World.Jots Rounds.Elsewhere) fun _ => True :=
    (htold.underway (by simp)).continuePhase_within absorbs_self
      ((Attempt.reloadReverted_within hload hstart fun _ _ => trivial).bind
        fun _ => within_pure none) _
  -- once the phase has been announced no candidate is being validated any more
  intro w
  have hphase : rounds.Quiet w { w with desk := { w.desk with phase := .reloadingReverted } } :=
    quiet_of_notes rfl (.inl rfl) rfl
  rw [Attempt.runStep, Attempt.runPhase_eq, ends_bind, ends_changeDesk]
  refine (hannounce _).bind ?_ ?_
  · rintro - w₂ ⟨w₁, h₁, h₂⟩
    exact (hrest w₂).mono (fun _ _ h => hphase.trans (h₁.quiet (Course.trans h₂ h))) fun _ _ he =>
      ⟨trivial, hphase.trans (h₁.quiet (Course.trans h₂ he.2))⟩
  · rintro e w₂ ⟨w₁, h₁, h₂⟩
    exact ⟨trivial, hphase.trans (h₁.quiet h₂)⟩

theorem commit_rounds (a : Attempt) (raw rendered : Bytes) :
    (a.commit link plan raw rendered).Within rounds.Once fun _ => True := by
  have hworked : a.Worked link plan rounds.Quiet fun _ => True :=
    worked_quiet hlink (reload_rounds hlink a)
  have hpause : ∀ seconds, (link.ask (.pause seconds)).Within rounds.Quiet fun _ => True :=
    fun _ => ask_quiet hlink (rounds.idle_asked rfl)
  have hasked : (Drain.askQueued link).Within rounds.Quiet fun _ => True :=
    Drain.askQueued_within (ask_quiet hlink (idle_rounds fun _ h => by cases h))
  have hdrain : (a.drainPhase link plan).Within rounds.Quiet fun _ => True :=
    drainPhase_within hlink absorbs_self
      (pollUntil_within hpause _ _ hasked fun _ => within_pure _)
  have hround : ∀ cs, (Reload.unsettled link cs).Within rounds.Single fun _ => True := by
    intro cs
    have hjots : (Reload.unsettled link cs).Within (World.Jots Rounds.OfRound) fun _ => True :=
      Reload.unsettled_within (fun c => (hlink.ask (.performValidation c)).mono
        (fun _ _ h => h.jots (.inr ⟨c, rfl⟩) fun _ => .inl) fun _ => id) cs
    exact hjots.mono (fun _ _ => single_of_round) fun _ => id
  -- the loop over the candidate listens to the token
  have hstart : (validateAndStart link plan.validation true).Within rounds.Once fun _ => True :=
    start_within hlink absorbs_once fun cs =>
      pollFrom_once hpause _ (hround cs) (fun _ => within_pure _) _ _
  exact hworked.commit_within_of_start absorbs_once hdrain
    ((told_quiet hlink).runStep_within trivial absorbs_once hstart _)

end Meter

/-! ### A whole update -/

/-- After each cancellation one poll at most is counted. -/
def Meter.Heeds (m : Meter S) (ns : List Note) : Prop :=
  ∀ before hit after, ns = before ++ .cancelled hit :: after → m.count ns ≤ m.count before + 1

/-- Where it is known from where on the attempt is cancelled. -/
theorem Meter.Once.heeds {m : Meter S} {w w' : World (σ × List Note)} (h : m.Once w w')
    (hw : w.desk.Cancellable) (hnotes : w.host.2 = []) :
    m.Heeds w'.host.2 ∧ ∀ hit, .cancelled hit ∈ w'.host.2 → hit = true := by
  obtain ⟨ns, hns, honce⟩ := h hw
  have hall : w'.host.2 = ns := by rw [hns.notes, hnotes, List.nil_append]
  refine ⟨fun before hit after hcut => ?_, fun hit hmem => hns.hits hit (hall ▸ hmem)⟩
  have hprefix : before ++ [.cancelled hit] <+: ns :=
    ⟨after, by rw [← hall, hcut, List.append_assoc, List.singleton_append]⟩
  have hlater := honce _ hprefix (.inr ⟨hit, List.mem_append_right _ (List.mem_singleton.mpr rfl)⟩)
  have hsame : m.count (before ++ [.cancelled hit]) = m.count before := by
    have hidle : ∀ n ∈ [Note.cancelled hit], m.Idle n := fun n hn => by
      obtain rfl := List.mem_singleton.mp hn
      exact m.idle_aside trivial
    rw [count_append, countFrom_eq_zero m hidle, Nat.add_zero]
  rwa [hnotes, List.nil_append, hsame] at hlater

/-- After each cancellation an update polls once at most, and each cancellation hits it. -/
theorem Updater.ends_apply_heeds {m : Meter S} {link : Link (σ × List Note)} {plan : UpdatePlan}
    (hlink : link.TakesNotes) {raw : Bytes} (hcommit : ∀ (a : Attempt) rendered,
      (a.commit link plan raw rendered).Within m.Once fun _ => True)
    {w : World (σ × List Note)} (hfree : w.desk.engaged = false) (hnotes : w.host.2 = []) :
    (apply link plan raw).Ends w
      (fun _ w' => m.Heeds w'.host.2 ∧ ∀ hit, .cancelled hit ∈ w'.host.2 → hit = true)
      fun _ w' => m.Heeds w'.host.2 ∧ ∀ hit, .cancelled hit ∈ w'.host.2 → hit = true := by
  have hbegun : (engaged (afterStart link w)).host.2 = [] :=
    ((hlink.now _).trans (hlink.freshId _)).trans hnotes
  rw [ends_apply_of_free hfree]
  exact (Meter.ends_attempt_once hlink (hcommit _) _).mono
    (fun _ _ h => h.heeds ⟨rfl, rfl⟩ hbegun) fun _ _ h => h.heeds ⟨rfl, rfl⟩ hbegun

end HotSwap
