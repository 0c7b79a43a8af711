/-
Attempts do not know of one another.

Between attempts nothing of the last one is left on the desk, and nothing in the
books.  So the next attempt goes as if it were the first of a new updater that finds the
disk and the host as they are.

* `Updater.Service` — the worlds that an updater reaches between its attempts;
* `Service.atRest`, `Service.books_eq` — nothing of the last attempt is left;
* `Comparison.exact` — two runs of which the one does exactly what the other does;
* `Host.shadows_refl`, `Updater.apply_sameRun` — from worlds at rest with the same disk and
  host an update runs exactly the same;
* `Updater.Service.apply_renewed` — so every attempt goes like the first of a new updater.
-/
import HotSwap.Proofs.Scopes
import HotSwap.Proofs.Shadows

namespace HotSwap

open Act

variable {σ τ α β : Type} {link : Link σ} {plan : UpdatePlan} {w w' v : World σ}

/-! ### What an attempt leaves behind -/

/-- Whether an attempt is running, it goes on. -/
def World.GoesOn (w w' : World σ) : Prop := w.desk.engaged = true → w'.desk.engaged = true

instance : Course (World.GoesOn (σ := σ)) where
  refl _ h := h
  trans h h' hengaged := h' (h hengaged)
  log _ _ h := h
  polls _ _ h := h

/-- While an attempt is running its books are not touched. -/
def World.BooksKept (w w' : World σ) : Prop :=
  w.desk.engaged = true → w'.desk.engaged = true ∧ w'.books = w.books

instance : Course (World.BooksKept (σ := σ)) where
  refl _ h := ⟨h, rfl⟩
  trans h h' hengaged := by
    obtain ⟨hengaged', hbooks⟩ := h hengaged
    exact ⟨(h' hengaged').1, (h' hengaged').2.trans hbooks⟩
  log _ _ h := ⟨h, rfl⟩
  polls _ _ h := ⟨h, rfl⟩

/-- While an attempt is running, its books are closed. -/
def World.BooksClosed (w w' : World σ) : Prop :=
  w.desk.engaged = true → w'.desk.engaged = true ∧ w'.books = {}

/-- Whatever the host is asked, the running attempt goes on, with its books as they are. -/
theorem Host.ask_booksKept (h : Host σ) (plan : UpdatePlan) (depth : Nat) (r : Request) :
    ((h.link (Updater.console plan) depth).ask r).Within World.BooksKept fun _ => True :=
  (h.leaves_nothing.ask_waits (Z := fun _ => True) (fun _ _ => trivial) (h.orders_any _) depth
    (fun _ => Conduct.orders_of_forall (fun _ _ => trivial) _) trivial fun _ => trivial).mono
    (fun _ _ hwaits hengaged => ⟨(hwaits hengaged).engaged, (hwaits hengaged).books⟩) fun _ => id

theorem Host.ask_goesOn (h : Host σ) (plan : UpdatePlan) (depth : Nat) (r : Request) :
    ((h.link (Updater.console plan) depth).ask r).Within World.GoesOn fun _ => True :=
  (h.ask_booksKept plan depth r).mono (fun _ _ h hengaged => (h hengaged).1) fun _ => id

/-- So does whatever an attempt does. -/
theorem Attempt.framed_goesOn (a : Attempt)
    (hask : ∀ r, (link.ask r).Within World.GoesOn fun _ => True) :
    a.Framed link plan World.GoesOn World.GoesOn (fun _ => True) fun _ => True := by
  have hhandles : link.Handles World.GoesOn fun _ => True :=
    Link.handles_of_course (fun _ _ h => h) (fun _ _ h => h) (fun _ _ _ h => h) fun _ _ h => h
  have hkeeps : ∀ S, link.Keeps World.GoesOn (fun _ => True) S := fun _ =>
    ⟨fun r _ => hask r, fun _ h => h, fun _ h => h⟩
  exact a.framed_of_requests (fun _ _ => trivial) (fun _ _ => trivial) (fun _ _ h => h)
    (fun _ _ heq hengaged => heq.trans hengaged) hhandles (hkeeps _) (fun _ => hask _)
    fun listens => validateAndStart_within (fun _ _ => trivial) (hkeeps _) _ _ (hask _)

/-- A transaction ends with closed books. -/
theorem FileSet.transaction_booksClosed (h : Host σ) (plan : UpdatePlan) (depth : Nat) (a : Attempt)
    (raw rendered : Bytes) :
    (FileSet.transaction (h.link (Updater.console plan) depth) plan.files
      (a.commit (h.link (Updater.console plan) depth) plan raw rendered)).Within
      World.BooksClosed fun _ => True := by
  have hframed : a.Framed (h.link (Updater.console plan) depth) plan World.GoesOn World.GoesOn
      (fun _ => True) fun _ => True := a.framed_goesOn (h.ask_goesOn plan depth)
  generalize h.link (Updater.console plan) depth = link at hframed
  -- the last thing that a transaction does is to close the books
  have hcleanup : (FileSet.cleanup link plan.files).Within World.BooksClosed fun _ => True := by
    have hremoved : ∀ path, (FileSet.removeLogged link path).Within World.GoesOn
        fun _ => False := FileSet.removeLogged_within hframed.handles
    have hbegan : (Act.enter (.began .cleanup) : Act σ Unit).Within World.GoesOn
        fun _ => False := fun _ hengaged => hengaged
    intro w
    refine (hbegan w).bind (fun _ w₁ h₁ => ?_) fun _ _ he => he.1.elim
    refine (hremoved _ w₁).bind (fun _ w₂ h₂ => ?_) fun _ _ he => he.1.elim
    refine (hremoved _ w₂).bind (fun _ w₃ h₃ => ?_) fun _ _ he => he.1.elim
    exact fun hengaged => ⟨h₃ (h₂ (h₁ hengaged)), rfl⟩
  intro w
  refine ends_ensuring.mpr ((hframed.commit_within raw rendered w).mono ?_ ?_)
  · exact fun _ w₁ h₁ => (hcleanup w₁).mono (fun _ _ h₂ hengaged => h₂ (h₁ hengaged))
      fun _ _ he => ⟨trivial, fun hengaged => he.2 (h₁ hengaged)⟩
  · exact fun _ w₁ he => (hcleanup w₁).mono
      (fun _ _ h₂ => ⟨trivial, fun hengaged => h₂ (he.2 hengaged)⟩)
      fun _ _ he' => ⟨trivial, fun hengaged => he'.2 (he.2 hengaged)⟩

namespace Updater

/-- An attempt that begins with closed books ends with closed books, whatever happens. -/
theorem ends_apply_books (h : Host σ) (depth : Nat) (raw : Bytes)
    (hfree : w.desk.engaged = false) (hbooks : w.books = {}) :
    (apply (h.link (console plan) depth) plan raw).Ends w (fun _ w' => w'.books = {})
      fun _ w' => w'.books = {} := by
  have hask := fun r => h.ask_booksKept plan depth r
  have htransaction := FileSet.transaction_booksClosed h plan depth
  generalize h.link (console plan) depth = link at hask htransaction
  have hsurrounds : Attempt.Surrounds World.BooksKept fun _ => World.BooksClosed (σ := σ) :=
    { before := fun h h' hengaged => h' (h hengaged).1
      after := fun h h' hengaged => by
        obtain ⟨hengaged', hbooks⟩ := h hengaged
        exact ⟨(h' hengaged').1, (h' hengaged').2.trans hbooks⟩ }
  have hchoose : ∀ {γ : Type} (f : σ → γ × σ),
      (Link.choose f).Within World.BooksKept fun _ => True := fun _ _ h => ⟨h, rfl⟩
  rw [ends_apply_of_free hfree]
  refine (Attempt.ends_attempt_scoped (N := World.BooksKept) (T := fun _ => World.BooksClosed)
    hsurrounds
    ⟨fun _ _ h => ⟨h, rfl⟩, fun _ _ _ _ => hask _, fun _ => hask _, fun _ _ _ => hask _,
      fun _ _ => hask _, fun _ => hask _⟩
    (fun _ => hask _)
    (fun o drained => Attempt.finish_within plan _ o drained (hchoose _) (fun _ _ _ _ => hask _)
      fun _ _ => hask _)
    (fun rendered w => (htransaction _ raw rendered w).mono (fun _ _ h => h) fun _ _ he => he.2)
    (fun _ _ => (hask _).weaken fun _ _ => .inr trivial)
    (engaged (afterStart link w))).mono ?_ ?_
  · rintro report w' (⟨h, -⟩ | ⟨r, h, -⟩)
    · exact (h rfl).2.trans hbooks
    · exact (h rfl).2
  · rintro e w' (h | ⟨r, h, -⟩)
    · exact (h rfl).2.trans hbooks
    · exact (h rfl).2

/-! ### Between attempts -/

/-- A new updater that finds a disk and a host. -/
def opened (disk : Disk) (host : σ) : World σ := { disk, host }

/-- The worlds that an updater reaches between its attempts: any number of updates, however
they ended; cancellations and submissions in between; and whatever comes to the disk
and the host from outside. -/
inductive Service (link : Link σ) (plan : UpdatePlan) : World σ → Prop
  | opened (disk : Disk) (host : σ) : Service link plan (opened disk host)
  | update {w : World σ} (h : Service link plan w) (raw : Bytes) :
      Service link plan ((apply link plan raw).run w).2
  | cancel {w : World σ} (h : Service link plan w) :
      Service link plan ((cancelCurrent : Act σ Bool).run w).2
  | submit {w : World σ} (h : Service link plan w) (raw : Bytes) :
      Service link plan ((submit raw : Act σ Unit).run w).2
  | outside {w : World σ} (h : Service link plan w) (disk : Disk) (host : σ) :
      Service link plan { w with disk, host }

/-- On a desk at rest there is nothing to cancel. -/
theorem cancelCurrent_atRest (h : w.desk.AtRest) :
    (cancelCurrent : Act σ Bool).run w = (.ok false, w) := by
  obtain ⟨⟨_, _, token⟩⟩ := w
  obtain rfl : token = none := h.2.2
  rfl

namespace Service

/-- Between attempts no attempt has the desk. -/
theorem atRest (h : Service link plan w) : w.desk.AtRest := by
  induction h with
  | opened disk host => exact ⟨rfl, rfl, rfl⟩
  | @update w h raw ih =>
    have hends : (apply link plan raw).Ends w (fun _ w' => w'.desk.AtRest)
        fun _ w' => w'.desk.AtRest := ends_apply_atRest ih.1 raw
    exact hends.world
  | cancel h ih =>
    rw [cancelCurrent_atRest ih]
    exact ih
  | submit h raw ih => exact ih
  | outside h disk host ih => exact ih

/-- Between attempts the books are closed. -/
theorem books_eq {h : Host σ} {depth : Nat}
    (hw : Service (h.link (console plan) depth) plan w) : w.books = {} := by
  induction hw with
  | opened disk host => rfl
  | @update w hw raw ih =>
    have hends : (apply (h.link (console plan) depth) plan raw).Ends w (fun _ w' => w'.books = {})
        fun _ w' => w'.books = {} := ends_apply_books h depth raw hw.atRest.1 ih
    exact hends.world
  | cancel hw ih =>
    rw [cancelCurrent_atRest hw.atRest]
    exact ih
  | submit hw raw ih => exact ih
  | outside hw disk host ih => exact ih

end Service

end Updater

/-! ### The same runs -/

/-- Two runs of which the one does exactly what the other does, after whatever their
journals showed before; the states of the hosts belong together by `S`. -/
def Comparison.exact (S : σ → τ → Prop) (before before' : List Entry) : Comparison σ τ where
  host := S
  loose := False
  journal j j' := ∃ es, j = before ++ es ∧ j' = before' ++ es
  enter := by
    rintro _ _ e e' ⟨es, rfl, rfl⟩ he
    obtain rfl := he.eq
    exact ⟨es ++ [e], List.append_assoc .., List.append_assoc ..⟩

section

variable {κ : Comparison σ σ} (hhost : ∀ {s t}, κ.host s t ↔ s = t) (hloose : ¬ κ.loose)

include hhost hloose

/-- A conduct goes alike with itself, if nothing may differ. -/
theorem Conduct.shadows_refl (c : Conduct (Scene σ) α) : c.Shadows κ (fun x y => HEq x y) c := by
  induction c with
  | done result s => exact .done (Matched.rfl.mono fun _ _ => heq_of_eq) ⟨rfl, hhost.mpr rfl⟩
  | order c s resume ih =>
    refine .order (fun _ => hloose) ⟨rfl, hhost.mpr rfl⟩ fun reply reply' s' t' hreply hst => ?_
    obtain rfl := (hreply.mono fun _ _ hr => Reply.Like.eq (eq_false hloose ▸ hr)).eq
    obtain rfl : s' = t' := by
      obtain ⟨hdisk, hhost'⟩ := hst
      cases s'
      cases t'
      exact congr (congrArg Scene.mk hdisk) (hhost.mp hhost')
    exact ih reply s'

/-- A host goes alike with itself. -/
theorem Host.shadows_refl (h : Host σ) : h.Shadows κ h where
  reply := by
    rintro r r' hr ⟨disk, host⟩ ⟨disk', host'⟩ ⟨hdisk, hst⟩
    obtain rfl := Request.Like.eq (eq_false hloose ▸ hr)
    obtain rfl : disk = disk' := hdisk
    obtain rfl : host = host' := hhost.mp hst
    exact Conduct.shadows_refl hhost hloose _
  gate a s t hst := by
    obtain rfl := hhost.mp hst
    exact ⟨rfl, hhost.mpr rfl⟩
  freshId {s t} hst := by
    obtain rfl := hhost.mp hst
    exact ⟨.rfl, hhost.mpr rfl⟩
  now {s t} hst := by
    obtain rfl := hhost.mp hst
    exact ⟨.rfl, hhost.mpr rfl⟩

end

/-- Two acts, each run in a world of its own, go the same way: to the same end, with the
same requests, answers and work on the files, and they leave the same disk, the same books
and hosts that belong together. -/
structure Act.Agree (S : σ → τ → Prop) (a : Act σ α) (w : World σ) (b : Act τ α) (v : World τ) :
    Prop where
  result : (a.run w).1 = (b.run v).1
  entries : w.since (a.run w).2 = v.since (b.run v).2
  disk : (a.run w).2.disk = (b.run v).2.disk
  host : S (a.run w).2.host (b.run v).2.host
  books : (a.run w).2.books = (b.run v).2.books

/-- An act goes the same way in two worlds. -/
abbrev Act.SameRun (a : Act σ α) (w v : World σ) : Prop := a.Agree Eq w a v

namespace Updater

/-- From worlds at rest that do not differ in the disk, the books and the candidates that
wait, updates through two links that answer alike go the same way. -/
theorem apply_agree {S : σ → τ → Prop} {v : World τ} {link' : Link τ}
    (hlink : link.Mirrors (.exact S w.journal v.journal) link') (hw : w.desk.AtRest)
    (hv : v.desk.AtRest) (hdisk : w.disk = v.disk) (hhost : S w.host v.host)
    (hbooks : w.books = v.books) (hwaiting : w.desk.waiting = v.desk.waiting) (raw : Bytes) :
    (apply link plan raw).Agree S w (apply link' plan raw) v := by
  let κ := Comparison.exact S w.journal v.journal
  have hresting : Resting κ w v :=
    { atRest := hw
      atRest' := hv
      waiting := fun _ => hwaiting
      books := hbooks
      disk := hdisk
      host := hhost
      journal := ⟨[], by simp⟩ }
  have happly : Act.Pairs (Resting κ) (apply link plan raw) (apply link' plan raw)
      (UpdateReport.Like κ.loose) (Resting κ) := apply_pairs (hlink.accords plan) raw
  obtain ⟨hends, hresting'⟩ := happly hresting
  obtain ⟨es, hes, hes'⟩ := hresting'.journal
  exact
    { result := (hends.mono fun _ _ => UpdateReport.Like.eq).eq
      entries := by rw [World.since, World.since, hes, hes', List.drop_left, List.drop_left]
      disk := hresting'.disk
      host := hresting'.host
      books := hresting'.books }

/-- So do updates for one host, whose orders go to two consoles that go alike. -/
theorem apply_agree_of_echo (h : Host σ) {console' : Link σ → Command → Act σ Reply} (depth : Nat)
    (hecho : ∀ link link' : Link σ, link.Mirrors (.exact Eq w.journal v.journal) link' →
      Conduct.Echo (.exact Eq w.journal v.journal) (console plan link) (console' link'))
    (hw : w.desk.AtRest) (hv : v.desk.AtRest) (hdisk : w.disk = v.disk) (hhost : w.host = v.host)
    (hbooks : w.books = v.books) (hwaiting : w.desk.waiting = v.desk.waiting) (raw : Bytes) :
    (apply (h.link (console plan) depth) plan raw).Agree Eq w
      (apply (h.link console' depth) plan raw) v := by
  have hlink : (h.link (console plan) depth).Mirrors (.exact Eq w.journal v.journal)
      (h.link console' depth) :=
    (h.shadows_refl Iff.rfl id).mirrors_link (Conduct.echo_deep _)
      (fun _ hdeeper => hecho _ _ hdeeper) depth
  exact apply_agree hlink hw hv hdisk hhost hbooks hwaiting raw

/-- In particular an update of one updater, if the hosts do not differ. -/
theorem apply_sameRun (h : Host σ) (depth : Nat) (hw : w.desk.AtRest) (hv : v.desk.AtRest)
    (hdisk : w.disk = v.disk) (hhost : w.host = v.host) (hbooks : w.books = v.books)
    (hwaiting : w.desk.waiting = v.desk.waiting) (raw : Bytes) :
    (apply (h.link (console plan) depth) plan raw).SameRun w v :=
  apply_agree_of_echo h depth (fun _ _ => echo_console id) hw hv hdisk hhost hbooks hwaiting raw

end Updater

/-- A new updater that finds the disk and the host as they are in a world. -/
def World.renewed (w : World σ) : World σ :=
  { Updater.opened w.disk w.host with desk := { waiting := w.desk.waiting } }

namespace Updater

/-- Every attempt goes like the first of a new updater: however many came before, and
however they ended, it comes to the same end, with the same requests and pauses, and
does the same to the files. -/
theorem Service.apply_renewed (h : Host σ) (plan : UpdatePlan) (depth : Nat) (w : World σ)
    (hw : Service (h.link (console plan) depth) plan w) (raw : Bytes) :
    (apply (h.link (console plan) depth) plan raw).SameRun w w.renewed :=
  apply_sameRun (v := w.renewed) h depth hw.atRest ⟨rfl, rfl, rfl⟩ rfl rfl hw.books_eq rfl raw

/-- After an attempt that could not restore the active file. -/
theorem Service.apply_renewed_unrestored :
    let link := Sample.unrestoring.link (console Sample.plan) 0
    Service link Sample.plan Sample.unrestored.2 ∧
      (apply link Sample.plan [3]).SameRun Sample.unrestored.2 Sample.unrestored.2.renewed := by
  have hservice : Service (Sample.unrestoring.link (console Sample.plan) 0) Sample.plan
      Sample.unrestored.2 := .update (.opened Sample.world.disk 0) [2]
  exact ⟨hservice, Service.apply_renewed Sample.unrestoring Sample.plan 0 _ hservice [3]⟩

end Updater
end HotSwap
