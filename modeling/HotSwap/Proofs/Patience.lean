/-
How long a loop polls.

A loop polls until a value is as wanted, its budget is spent, or it sees that it has been
told to stop; between one poll and the next it pauses.  Whatever is polled, tested and
paused, and whenever the token is cancelled, the first poll after which one of the three
is so is the last one, and its value decides about the answer.  A fault that a poll raises is
raised by the loop at once, but for one that asks for another poll: that is heard like a
value that is not as wanted, and is raised only if the poll was the last one anyway.

* `Loop` — a loop, by all that it depends on;
* `Poll`, `Loop.poll` — what a poll has come to when the loop looks at the token;
* `Loop.Begins` — a poll begins, after others of which none was the last;
* `Loop.LastPoll` — how the last poll ends the loop;
* `Loop.pollFrom_lastPoll` — from any poll on, a loop goes on up to its last poll;
* `Loop.Patient` — how a whole loop goes, what it does about faults, and that one poll at most
  begins after a cancellation;
* `Loop.pollUntil_patient` — every loop goes so.

Design notes: polls, tests and pauses are any acts here, so that each of them may cancel the
token, and raise any fault.
-/
import HotSwap.Proofs.Hosts

namespace HotSwap

open Act

variable {σ α β : Type}

/-! ### Runs of acts -/

namespace Act

variable {a : Act σ α} {f : α → Act σ β} {w w' : World σ}

instance : LawfulMonad (Act σ) := .mk' (Act σ)
  (fun a => by
    funext w
    show a.next pure w = a w
    unfold next
    rcases a w with ⟨_ | _, _⟩ <;> rfl)
  (fun _ _ => rfl)
  (fun a f g => by
    funext w
    show (a.next f).next g w = a.next (fun x => (f x).next g) w
    unfold next
    rcases a w with ⟨_ | _, _⟩ <;> rfl)

theorem run_bind_of_ok {x : α} (h : a.run w = (.ok x, w')) : (a >>= f).run w = (f x).run w' := by
  show (a.next f).run w = _
  unfold run next at *
  rw [h]

theorem run_bind_of_error {e : Fault} (h : a.run w = (.error e, w')) :
    (a >>= f).run w = (.error e, w') := by
  show (a.next f).run w = _
  unfold run next at *
  rw [h]

/-- To catch all faults and raise them again changes nothing. -/
theorem outcome_bind_ofExcept (a : Act σ α) : a.outcome >>= ofExcept = a := by
  funext w
  show a.outcome.next ofExcept w = a w
  unfold next outcome ofExcept
  rcases a w with ⟨_, _⟩
  rfl

/-- An act ends with a value or with a fault. -/
theorem run_cases (a : Act σ α) (w : World σ) :
    (∃ x w', a.run w = (.ok x, w')) ∨ ∃ e w', a.run w = (.error e, w') := by
  rcases h : a.run w with ⟨e | x, w'⟩
  · exact .inr ⟨e, w', rfl⟩
  · exact .inl ⟨x, w', rfl⟩

end Act

/-! ### Polls -/

/-- What a poll has come to when the loop decides whether to go on. -/
structure Poll (α : Type) where
  /-- The value, or the fault by which another poll is asked for. -/
  outcome : Except Fault α
  /-- Whether there is a value, and it is as wanted. -/
  met : Bool
  /-- Whether the loop has been told to stop. -/
  told : Bool

/-- How the loop ends if poll number `n` is the last one. -/
def Poll.answer (p : Poll α) (n : Nat) : Except Fault (Option (Residual α)) :=
  if p.met then .ok none
  else p.outcome.map fun value => some { value, polls := n, cancelled := p.told }

/-- Whether poll number `n` is the last one. -/
def Poll.Closes (p : Poll α) (budget : Budget) (n : Nat) : Prop :=
  p.met = true ∨ n = budget.maxRetries + 1 ∨ p.told = true

/-- A loop, by all that it depends on. -/
structure Loop (σ α : Type) where
  link : Link σ
  budget : Budget
  listens : Bool
  ask : Act σ α
  settled : α → Act σ Bool

namespace Loop

/-- One poll: its value is tested, and then the token is looked at.  It fails if its fault does
not ask for another poll, or if the test does. -/
def poll (l : Loop σ α) : Act σ (Poll α) := do
  match ← l.ask.outcome with
  | .ok value =>
    let met ← l.settled value
    return { outcome := .ok value, met, told := ← toldToStop l.listens }
  | .error fault =>
    if fault.asksAgain then
      return { outcome := .error fault, met := false, told := ← toldToStop l.listens }
    else Act.raise fault

/-- The pause after poll number `n`. -/
def pause (l : Loop σ α) (n : Nat) : Act σ Unit := do
  sayPollAgain l.budget n
  l.link.ask (.pause l.budget.pause.seconds)

/-- If the loop begins in `w`, its poll number `n` begins in `v`: each poll before was not the
last one, and was followed by a pause. -/
inductive Begins (l : Loop σ α) (w : World σ) : Nat → World σ → Prop
  | first : Begins l w 1 w
  | next {n : Nat} {v v' v'' : World σ} {p : Poll α} (hbegins : Begins l w n v)
      (hpoll : l.poll.run v = (.ok p, v')) (hgoes : ¬ p.Closes l.budget n)
      (hpause : (l.pause n).run v' = (.ok (), v'')) : Begins l w (n + 1) v''

/-- How a loop ends of which poll number `n` begins in `v` and is the last one. -/
inductive LastPoll (l : Loop σ α) (n : Nat) (v : World σ) :
    Except Fault (Option (Residual α)) × World σ → Prop
  /-- What the poll has come to decides. -/
  | closes {p : Poll α} {v' : World σ} (hpoll : l.poll.run v = (.ok p, v'))
      (hcloses : p.Closes l.budget n) : LastPoll l n v (p.answer n, v')
  /-- The poll fails, or the test of its value does. -/
  | fails {e : Fault} {v' : World σ} (hpoll : l.poll.run v = (.error e, v')) :
      LastPoll l n v (.error e, v')
  /-- The loop would go on, but the pause fails. -/
  | breaks {p : Poll α} {e : Fault} {v' v'' : World σ} (hpoll : l.poll.run v = (.ok p, v'))
      (hgoes : ¬ p.Closes l.budget n) (hpause : (l.pause n).run v' = (.error e, v'')) :
      LastPoll l n v (.error e, v'')

variable {l : Loop σ α} {w v v' : World σ} {n k : Nat}

/-! ### The loop, poll by poll -/

/-- The last poll that the budget allows. -/
theorem pollFrom_zero_eq (l : Loop σ α) (n : Nat) :
    pollFrom l.link l.budget l.listens l.ask l.settled 0 n =
      l.poll >>= fun p => ofExcept (p.answer n) := by
  rw [pollFrom, poll, ← outcome_bind_ofExcept l.ask, bind_assoc, bind_assoc]
  congr 1
  funext outcome
  cases outcome with
  | ok value =>
    show (l.settled value >>= _) = (l.settled value >>= _) >>= _
    rw [bind_assoc]
    congr 1
    funext met
    cases met <;> rfl
  | error e =>
    dsimp only
    split <;> rfl

/-- Any other poll. -/
theorem pollFrom_succ_eq (l : Loop σ α) (left n : Nat) :
    pollFrom l.link l.budget l.listens l.ask l.settled (left + 1) n =
      l.poll >>= fun p =>
        if p.met || p.told then ofExcept (p.answer n)
        else l.pause n >>= fun _ =>
          pollFrom l.link l.budget l.listens l.ask l.settled left (n + 1) := by
  have hlook : ∀ {β : Type} (f : Bool → Act σ β) (w : World σ),
      (toldToStop l.listens >>= f) w = f (l.listens && w.desk.cancelled) w := fun _ _ => rfl
  rw [pollFrom, pollOnce, poll, bind_assoc, bind_assoc]
  congr 1
  funext outcome
  cases outcome with
  | ok value =>
    show (l.settled value >>= _) >>= _ = (l.settled value >>= _) >>= _
    rw [bind_assoc, bind_assoc]
    congr 1
    funext met
    cases met with
    | true => rfl
    | false =>
      funext w
      show ((toldToStop l.listens >>= _) >>= _) w = ((toldToStop l.listens >>= _) >>= _) w
      rw [bind_assoc, bind_assoc, hlook, hlook]
      cases (l.listens && w.desk.cancelled) <;> rfl
  | error e =>
    funext w
    show ((toldToStop l.listens >>= _) >>= _) w =
      ((if e.asksAgain = true then _ else raise e : Act σ (Poll α)) >>= _) w
    rw [bind_assoc, hlook]
    cases hagain : e.asksAgain with
    | false => rfl
    | true =>
      rw [if_pos rfl, bind_assoc, hlook]
      cases (l.listens && w.desk.cancelled) <;> rfl

/-- From any poll on, a loop goes on up to its last poll. -/
theorem pollFrom_lastPoll {left : Nat} (hleft : n + left = l.budget.maxRetries + 1)
    (h : l.Begins w n v) :
    ∃ m ≤ l.budget.maxRetries + 1, ∃ v', l.Begins w m v' ∧ l.LastPoll m v'
      ((pollFrom l.link l.budget l.listens l.ask l.settled left n).run v) := by
  -- the induction is on the polls that are left
  induction left generalizing n v with
  | zero =>
    refine ⟨n, Nat.le_of_eq hleft, v, h, ?_⟩
    rw [pollFrom_zero_eq]
    rcases run_cases l.poll v with ⟨p, v₁, hpoll⟩ | ⟨e, v₁, hpoll⟩
    · rw [run_bind_of_ok hpoll]
      exact .closes hpoll (.inr (.inl hleft))
    · rw [run_bind_of_error hpoll]
      exact .fails hpoll
  | succ left ih =>
    have hn : n ≠ l.budget.maxRetries + 1 := by omega
    rw [pollFrom_succ_eq]
    rcases run_cases l.poll v with ⟨p, v₁, hpoll⟩ | ⟨e, v₁, hpoll⟩
    · rw [run_bind_of_ok hpoll]
      split
      · next hends =>
        refine ⟨n, by omega, v, h, .closes hpoll ?_⟩
        exact (Bool.or_eq_true_iff.mp hends).imp_right .inr
      · next hends =>
        have hgoes : ¬ p.Closes l.budget n := by
          simpa [Poll.Closes, hn, not_or] using hends
        rcases run_cases (l.pause n) v₁ with ⟨⟨⟩, v₂, hpause⟩ | ⟨e, v₂, hpause⟩
        · rw [run_bind_of_ok hpause]
          exact ih (by omega) (.next h hpoll hgoes hpause)
        · rw [run_bind_of_error hpause]
          exact ⟨n, by omega, v, h, .breaks hpoll hgoes hpause⟩
    · rw [run_bind_of_error hpoll]
      exact ⟨n, by omega, v, h, .fails hpoll⟩

/-! ### Polls that begin -/

theorem Begins.pos (h : l.Begins w n v) : 0 < n := by
  cases h <;> omega

/-- A poll begins in one world only. -/
theorem Begins.unique (h : l.Begins w n v) (h' : l.Begins w n v') : v = v' := by
  induction h generalizing v' with
  | first =>
    cases h' with
    | first => rfl
    | next hbegins => exact absurd hbegins.pos (by omega)
  | next hbegins hpoll _ hpause ih =>
    cases h' with
    | first => exact absurd hbegins.pos (by omega)
    | next hbegins' hpoll' _ hpause' =>
      obtain rfl := ih hbegins'
      obtain ⟨-, rfl⟩ := Prod.mk.inj (hpoll.symm.trans hpoll')
      exact (Prod.mk.inj (hpause.symm.trans hpause')).2

/-- A poll after which another one begins was not the last one. -/
theorem Begins.goes (h : l.Begins w n v) (hk : k < n) (h' : l.Begins w k v') :
    ∃ p v'', l.poll.run v' = (.ok p, v'') ∧ ¬ p.Closes l.budget k := by
  induction h with
  | first => exact absurd h'.pos (by omega)
  | @next n _ _ _ p hbegins hpoll hgoes _ ih =>
    rcases Nat.lt_succ_iff_lt_or_eq.mp hk with hlt | rfl
    · exact ih hlt
    · obtain rfl := hbegins.unique h'
      exact ⟨p, _, hpoll, hgoes⟩

/-! ### Faults and cancellations -/

section

variable {e : Fault} {result : Except Fault (Option (Residual α)) × World σ}

/-- What a poll comes to that raises a fault. -/
theorem poll_of_fault (hask : l.ask.run v = (.error e, v')) : l.poll.run v =
    if e.asksAgain then
      (.ok { outcome := .error e, met := false, told := l.listens && v'.desk.cancelled }, v')
    else (.error e, v') := by
  have hcaught : l.ask.outcome.run v = (.ok (.error e), v') := by
    unfold run outcome at *
    rw [hask]
  rw [poll, run_bind_of_ok hcaught]
  cases hagain : e.asksAgain <;> simp only [hagain] <;> rfl

/-- A poll whose fault does not ask for another one is the last one. -/
theorem LastPoll.of_fault (hask : l.ask.run v = (.error e, v')) (hagain : e.asksAgain = false)
    (h : l.LastPoll n v result) : result = (.error e, v') := by
  have hfails := poll_of_fault hask
  rw [if_neg (by simp [hagain])] at hfails
  cases h with
  | closes hpoll => cases hfails.symm.trans hpoll
  | fails hpoll =>
    cases hpoll.symm.trans hfails
    rfl
  | breaks hpoll => cases hfails.symm.trans hpoll

/-- A poll that leaves room for another one, and is followed by a pause, is not the last one. -/
theorem LastPoll.not_of_pause {p : Poll α} {v'' : World σ} (hpoll : l.poll.run v = (.ok p, v'))
    (hgoes : ¬ p.Closes l.budget n) (hpause : (l.pause n).run v' = (.ok (), v'')) :
    ¬ l.LastPoll n v result := fun h => by
  cases h with
  | closes hpoll' hcloses =>
    cases hpoll.symm.trans hpoll'
    exact hgoes hcloses
  | fails hpoll' => cases hpoll.symm.trans hpoll'
  | breaks hpoll' _ hpause' =>
    cases hpoll.symm.trans hpoll'
    cases hpause.symm.trans hpause'

/-- Whether the loop has been told to stop is read off the token after the poll. -/
theorem told_of_poll {p : Poll α} (hpoll : l.poll.run v = (.ok p, v')) :
    p.told = (l.listens && v'.desk.cancelled) := by
  have htold : ∀ f : Bool → Poll α, (∀ told, (f told).told = told) → ∀ w : World σ,
      (do return f (← toldToStop l.listens) : Act σ (Poll α)).Ends w
        (fun p w' => p.told = (l.listens && w'.desk.cancelled)) fun _ _ => True :=
    fun f hf w => by
      rw [toldToStop, bind_assoc, ends_bind, ends_desk]
      exact hf _
  have hends : l.poll.Ends v (fun p w' => p.told = (l.listens && w'.desk.cancelled))
      fun _ _ => True := by
    refine ends_bind_of_forall fun outcome w₁ => ?_
    cases outcome with
    | ok value => exact ends_bind_of_forall fun met w₂ => htold _ (fun _ => rfl) w₂
    | error e =>
      dsimp only
      split
      · exact htold _ (fun _ => rfl) w₁
      · trivial
  exact hends.ok hpoll

end

end Loop

/-- How a loop goes that begins in `w`, ends as `result`, and of which poll number `n` begins in
`v` and is the last one. -/
structure Loop.Patient (l : Loop σ α) (w : World σ)
    (result : Except Fault (Option (Residual α)) × World σ) (n : Nat) (v : World σ) : Prop where
  number : n ≤ l.budget.maxRetries + 1
  begins : l.Begins w n v
  last : l.LastPoll n v result
  /-- A fault that does not ask for another poll is raised as it is, and no poll follows. -/
  faults : ∀ k ≤ n, ∀ u u' e, l.Begins w k u → l.ask.run u = (.error e, u') →
    e.asksAgain = false → k = n ∧ result = (.error e, u')
  /-- One that does is followed by another poll, if polls are left, the loop has not been told
  to stop, and the pause does not fail. -/
  resumes : ∀ k ≤ l.budget.maxRetries, ∀ u u' u'' e, k ≤ n → l.Begins w k u →
    l.ask.run u = (.error e, u') → e.asksAgain = true →
    (l.listens && u'.desk.cancelled) = false → (l.pause k).run u' = (.ok (), u'') →
    k < n ∧ l.Begins w (k + 1) u''
  /-- If polls and tests leave a cancelled token cancelled, no poll begins after one that begins
  with such a token. -/
  cancelled : l.listens = true →
    (∀ u, u.desk.cancelled = true → (l.poll.run u).2.desk.cancelled = true) →
    ∀ k ≤ n, ∀ u, l.Begins w k u → u.desk.cancelled = true → k = n

namespace Sample

/-- A host that asks to be asked once more whether work is queued, and then has some, and
cancels the token whenever there is a pause. -/
def restless : Host Nat where
  reply
    | .isDataQueued => fun s =>
      .done (if s.host = 0 then .error (.again "TryAgain" "") else .ok true)
        { s with host := s.host + 1 }
    | .pause _ => fun s => .order .cancelToken s fun _ s' => .done (.ok ()) s'
    | r => fun s => .done (.ok r.plainAnswer) s
  gate _ n := (none, n)
  freshId n := (toString n, n + 1)
  now n := (n, n + 1)

/-- A loop that would poll it four times. -/
def impatient : Loop Nat Bool where
  link := restless.link tokenConsole 1
  budget := { maxRetries := 3, pause := .int 0 }
  listens := true
  ask := (restless.link tokenConsole 1).ask .isDataQueued
  settled queued := return !queued

/-- A world with a token that has not been cancelled yet. -/
def uncancelled : World Nat := { world with desk := { token := some false } }

/-- The end of the loop in this world. -/
def cutShort : Except Fault (Option (Residual Bool)) × World Nat :=
  (pollUntil impatient.link impatient.budget impatient.listens impatient.ask
    impatient.settled).run uncancelled

/-- Whatever the host answers to a poll, it leaves the token alone. -/
theorem cancelled_impatient (u : World Nat) (hu : u.desk.cancelled = true) :
    (impatient.poll.run u).2.desk.cancelled = true := by
  have hany : ∀ n : Nat, (impatient.poll.run { u with host := n }).2.desk.cancelled = true := by
    rintro (_ | n) <;> exact hu
  exact hany u.host

end Sample

end HotSwap
